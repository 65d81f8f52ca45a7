import Crmsh.ConfParser
import Crmsh.LinkManager.Ops

/-!
# Module-level helpers of `corosync.py`

`get_link_number` predates the link manager: it counts the links of a configuration
from the keys of its first node entry, as one for `ring0_addr` plus one for each
non-empty `ring1_addr` ... `ring7_addr`.

`get_free_nodeid` picks the id `add_node_config` gives a new node: the least positive
id not taken below the largest, or one past the largest.  **`getFreeNodeid_fresh`** says
it never returns a taken id, and returns the least free positive one when every id is
positive.
-/

namespace Crmsh

/-- The pattern `ring[1-7]_addr` at the start of the text. -/
def ringOneToSevenAt : List Char → Bool
  | 'r' :: 'i' :: 'n' :: 'g' :: d :: '_' :: 'a' :: 'd' :: 'd' :: 'r' :: _ => '1' ≤ d && d ≤ '7'
  | _ => false

/-- `re.search("ring[1-7]_addr", key)`: the pattern anywhere in the key. -/
def searchRingOneToSeven : List Char → Bool
  | [] => false
  | c :: cs => ringOneToSevenAt (c :: cs) || searchRingOneToSeven cs

/-- Python's truth value of a tree value: a non-empty string, section or list. -/
def Value.truthy : Value → Bool
  | .str s => !s.isEmpty
  | .dict d => !d.isEmpty
  | .list l => !l.isEmpty

/-- `get_link_number`: one, plus one for every `ring[1-7]_addr` key of the first node
entry whose value is not empty.  `None.items()` raises when there is no node list. -/
def getLinkNumber (dom : Dict) : Except PyExc Nat :=
  match confParserGet dom "nodelist.node" 0 with
  | .ok (some (.dict node)) =>
    .ok (1 + (node.filter fun p => searchRingOneToSeven p.1.toList && p.2.truthy).length)
  | .ok _ => .error .attributeError
  | .error e => .error e

/-- A two-node knet tree with links 0, 1 and 2. -/
def threeLinkTree : Dict :=
  [("totem", .dict [("transport", .str "knet")]),
    ("nodelist", .dict [("node", .list [
      .dict [("ring0_addr", .str "10.0.0.1"), ("ring1_addr", .str "10.1.0.1"),
        ("ring2_addr", .str "10.2.0.1"), ("name", .str "alpha"), ("nodeid", .str "1")],
      .dict [("ring0_addr", .str "10.0.0.2"), ("ring1_addr", .str "10.1.0.2"),
        ("ring2_addr", .str "10.2.0.2"), ("name", .str "beta"), ("nodeid", .str "2")]])])]

/-- The tree `remove_link(0)` leaves of `threeLinkTree`: links 1 and 2. -/
def linkZeroRemovedTree : Dict :=
  [("totem", .dict [("transport", .str "knet")]),
    ("nodelist", .dict [("node", .list [
      .dict [("ring1_addr", .str "10.1.0.1"), ("ring2_addr", .str "10.2.0.1"),
        ("name", .str "alpha"), ("nodeid", .str "1")],
      .dict [("ring1_addr", .str "10.1.0.2"), ("ring2_addr", .str "10.2.0.2"),
        ("name", .str "beta"), ("nodeid", .str "2")]])])]

/-- After `remove_link(0)`, `get_link_number` counts three links where `links()` has two:
it counts `ring0_addr` without looking for it. -/
theorem getLinkNumber_counts_missing_ring0 :
    removeLink threeLinkTree 0 = .ok linkZeroRemovedTree ∧
    getLinkNumber linkZeroRemovedTree = .ok 3 ∧
      (links linkZeroRemovedTree).map (fun ls => (ls.filter Option.isSome).length) = .ok 2 := by
  decide

/-! ## `get_free_nodeid` -/

/-- `get_free_nodeid`, on the values `get_values('nodelist.node.nodeid')` returns: `1`
for none, and otherwise the first id of `range(1, max_id)` not taken, `max_id` being one
past the largest; `int` raises on a value that is not a numeral. -/
def getFreeNodeid (values : List Value) : Except PyExc Int := do
  if values.isEmpty then return 1
  let ids ← values.mapM Value.toInt
  let maxId := ids.max?.getD 0 + 1
  return ((pyRange 1 maxId).find? fun i => i ∉ ids).getD maxId

/-- **`get_free_nodeid` returns a fresh id.**  On values that all read as integers it
returns normally an id that is not among them; when every id is positive, it is the
least positive integer not among them. -/
theorem getFreeNodeid_fresh {values : List Value} {ids : List Int}
    (h : values.mapM Value.toInt = .ok ids) :
    ∃ r, getFreeNodeid values = .ok r ∧ r ∉ ids ∧
      ((∀ i ∈ ids, 1 ≤ i) → 1 ≤ r ∧ ∀ j, 1 ≤ j → j < r → j ∈ ids) := by
  cases values with
  | nil =>
    rw [mapM_eq_ok, List.forall₂_nil_left_iff] at h
    subst h
    exact ⟨1, rfl, List.not_mem_nil 1, fun _ => ⟨le_rfl, fun j h₁ h₂ => absurd h₂ (by omega)⟩⟩
  | cons v vs =>
    have hne : ids ≠ [] := by
      rintro rfl
      cases (mapM_eq_ok.1 h).length_eq
    obtain ⟨m, hm⟩ := Option.ne_none_iff_exists'.1 (mt List.max?_eq_none_iff.1 hne)
    have hle : ∀ i ∈ ids, i ≤ m := (List.max?_le_iff (fun _ _ _ => max_le_iff) hm).1 le_rfl
    have hmem : m ∈ ids := List.max?_mem (fun a b => max_choice a b) hm
    have hrun (r : Int) (hr : ((pyRange 1 (m + 1)).find? fun i => i ∉ ids).getD (m + 1) = r) :
        getFreeNodeid (v :: vs) = .ok r := by
      simp only [getFreeNodeid, List.isEmpty_cons, Bool.false_eq_true, if_false]
      rw [h]
      simp only [bind, Except.bind, hm, Option.getD_some, pure, Except.pure]
      exact congrArg _ hr
    cases hf : (pyRange 1 (m + 1)).find? fun i => i ∉ ids with
    | some r =>
      obtain ⟨hp, h₁, -, hbefore⟩ := find?_pyRange_eq_some hf
      exact ⟨r, hrun r (by rw [hf]; rfl), by simpa using hp,
        fun _ => ⟨h₁, fun j hj hjr => by simpa using hbefore j hj hjr⟩⟩
    | none =>
      refine ⟨m + 1, hrun _ (by rw [hf]; rfl), fun hin => absurd (hle _ hin) (by omega),
        fun hpos => ⟨by linarith [hpos m hmem], fun j hj hjr => ?_⟩⟩
      simpa using find?_pyRange_eq_none hf j hj hjr

example : getFreeNodeid [.str "2", .str "1", .str "4"] = .ok 3 ∧
    getFreeNodeid [.str "-3"] = .ok (-2) := by
  decide

/-- Ids `1` and `3` leave `2` free. -/
theorem gappedIds_free_two :
    [Value.str "1", .str "3"].mapM Value.toInt = .ok [1, 3] ∧
      ∃ r, getFreeNodeid [.str "1", .str "3"] = .ok r ∧ r ∉ ([1, 3] : List Int) ∧
        ((∀ i ∈ ([1, 3] : List Int), 1 ≤ i) → 1 ≤ r ∧ ∀ j, 1 ≤ j → j < r → j ∈ ([1, 3] : List Int)) :=
  (fun h => ⟨h, getFreeNodeid_fresh h⟩) (by decide)

/-- `get_free_nodeid` never returns an id among those it read. -/
theorem getFreeNodeid_not_mem {values : List Value} {ids : List Int} {r : Int}
    (h : values.mapM Value.toInt = .ok ids) (hr : getFreeNodeid values = .ok r) : r ∉ ids := by
  cases values with
  | nil =>
    rw [mapM_eq_ok, List.forall₂_nil_left_iff] at h
    subst h
    exact List.not_mem_nil r
  | cons v vs =>
    simp only [getFreeNodeid, List.isEmpty_cons, Bool.false_eq_true, if_false, h, bind, Except.bind,
      pure, Except.pure, Except.ok.injEq] at hr
    subst hr
    cases hf : (pyRange 1 (ids.max?.getD 0 + 1)).find? fun i => i ∉ ids with
    | some r => simpa using (find?_pyRange_eq_some hf).1
    | none =>
      rw [Option.getD_none]
      intro hin
      obtain ⟨m, hm⟩ := Option.ne_none_iff_exists'.1 (mt List.max?_eq_none_iff.1 (List.ne_nil_of_mem hin))
      have hle := (List.max?_le_iff (fun _ _ _ => max_le_iff) hm).1 le_rfl _ hin
      rw [hm, Option.getD_some] at hle
      omega

end Crmsh
