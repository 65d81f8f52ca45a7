import Crmsh.Migration.Steps

/-!
# Reading the nodes of the CIB

`Cib.nodes` lists the `node` elements of the CIB as `Cib.Node(int(id), uname)`, and was
meant to skip a remote node that a `pacemaker:remote` primitive names as its server.  The
XPath of that query is an f-string over `name`, a variable the method never binds, so
evaluating it raises `NameError` before the query runs: a document with a remote node
element is never read (**`cibNodes_fails_on_remote`**, `cibNodes_raises_on_remote`).
Without one, every element is read in document order (**`cibNodes_reads_members`**).

The migration takes the CIB's nodes as its input `cib`; this is where they come from.
-/

namespace Crmsh

/-- A `node` element of the CIB that `constants.XML_NODE_PATH` selects: its `id`, `uname`
and `type` attributes, `none` where one is missing. -/
structure NodeElement where
  id : Option String
  uname : Option String
  type : Option String
  deriving Repr, DecidableEq

/-- `assert x` on an attribute: it fails on `None` and on the empty string. -/
def attrPresent : Option String → Bool
  | some s => !s.isEmpty
  | none => false

theorem attrPresent_some {s : String} (h : s ≠ "") : attrPresent (some s) = true := by
  simp only [attrPresent, Bool.not_eq_true']
  exact Bool.eq_false_iff.2 fun he => h ((String.isEmpty_iff s).1 he)

/-- `Cib.nodes`.  For a remote element the f-string that builds the XPath reads `name`,
which no scope binds, so it raises `NameError`; any other element must carry an `id`
and a `uname`, and its id goes through `int`. -/
def cibNodes (elements : List NodeElement) : Except PyExc (List CibNode) :=
  elements.mapM fun element => do
    if element.type = some "remote" then throw (.nameError "name")
    unless attrPresent element.id && attrPresent element.uname do throw .assertionError
    let nodeId ← (Value.str (element.id.getD "")).toInt
    return ⟨nodeId, element.uname.getD ""⟩

/-- **A remote node element is never read past**: on a document that has one, `Cib.nodes`
raises, whatever else the document holds. -/
theorem cibNodes_fails_on_remote {elements : List NodeElement}
    (h : ∃ e ∈ elements, e.type = some "remote") (nodes : List CibNode) :
    cibNodes elements ≠ .ok nodes := by
  intro hok
  obtain ⟨e, he, hr⟩ := h
  obtain ⟨n, -, hn⟩ := mapM_ok_of_mem hok he
  simp [hr] at hn

/-- **The members of a document without remote nodes**: when every element carries an id
that reads as an integer and a non-empty `uname`, `Cib.nodes` returns them in document
order. -/
theorem cibNodes_reads_members {elements : List NodeElement} {nodes : List CibNode}
    (h : List.Forall₂ (fun e n => e.type ≠ some "remote" ∧
      (∃ s, e.id = some s ∧ pyInt s = some n.nodeId) ∧ e.uname = some n.uname ∧ n.uname ≠ "")
      elements nodes) :
    cibNodes elements = .ok nodes := by
  refine mapM_eq_ok.2 (h.imp fun e n ⟨hr, ⟨s, hs, hint⟩, hu, hne⟩ => ?_)
  have hs' : s ≠ "" := by
    rintro rfl
    rw [show pyInt "" = none by decide] at hint
    cases hint
  simp [hr, hs, hu, attrPresent_some hs', attrPresent_some hne, Value.toInt, hint]

/-- A CIB with a member and a remote node: `Cib.nodes` raises `NameError` at the remote
element instead of listing the member. -/
theorem cibNodes_raises_on_remote :
    cibNodes [⟨some "1", some "alpha", none⟩, ⟨some "2", some "beta", none⟩,
      ⟨some "3", some "gamma", some "remote"⟩] = .error (.nameError "name") := by
  decide

end Crmsh
