import Crmsh.LinkManager.UpdateLink

/-!
# The slots of `links()`

`links()` reads the node list and the interface records of the tree.  On a non-empty
list of entries with integer ids and names that all define the ring keys of one set `S`,
and records that each load, it returns eight slots, slot `i` empty exactly for `i ∉ S`
and otherwise link `i` with every entry once, sorted by id, and the options of link `i`'s
record (**`links_projection`**).  It decides which slots exist from the first entry alone,
so entries that disagree on their rings give an empty slot for a ring some entry has, or a
`KeyError`; and a tree without a node list gives no slots at all
(`links_reads_first_entry`).

The contracts of `update_node_addr`, `add_link` and `remove_link` compare `links()` after
the call with `links()` before: one slot changes and the other seven stay.  On a
well-shaped node list `links()` is `shapeSlots` with the records merged in
(`NodeListShape.links_eq`), so the comparison splits in two.

* `shapeSlots_set`: rewriting the entries so that every ring but `ring{n}_addr` reads as
  before changes slot `n` of `shapeSlots` and nothing else.
* `mergeOptions_set`: records that give every slot but `n` the record they gave before
  merge into the same links there, and into whatever slot `n` loads.

Both are congruence-and-write lemmas; each contract supplies what its write keeps.
-/

namespace Crmsh

/-! ## The projection -/

/-- Whether `__load_option` returns does not depend on the link it loads into. -/
theorem Link.loadOption_ok_of {l₁ l₁' : Link} {data : OptionSource} {f : LinkField}
    (h : l₁.loadOption data f = .ok l₁') (l₂ : Link) : ∃ l₂', l₂.loadOption data f = .ok l₂' := by
  unfold Link.loadOption at h ⊢
  cases hd : data f.name with
  | error e => simp [hd, bind, Except.bind] at h
  | ok o =>
    simp only [hd, bind, Except.bind] at h ⊢
    rcases o with _ | _ | v
    · exact ⟨_, rfl⟩
    · cases f <;> first | exact ⟨_, rfl⟩ | cases h
    · cases f
      all_goals first
        | exact ⟨_, rfl⟩
        | (cases hv : v.toInt <;> simp [hv, Option.mapM, bind, Except.bind, pure, Except.pure] at h ⊢)

theorem Link.loadOptions_ok_of {l₁ l₁' : Link} {data : OptionSource}
    (h : l₁.loadOptions data = .ok l₁') (l₂ : Link) : ∃ l₂', l₂.loadOptions data = .ok l₂' := by
  unfold Link.loadOptions at *
  generalize LinkField.all = fs at *
  induction fs generalizing l₁ l₂ with
  | nil => exact ⟨_, rfl⟩
  | cons f fs ih =>
    rw [List.foldlM_cons] at h ⊢
    obtain ⟨m₁, h₁, hrest⟩ := Except.bind_eq_ok.1 h
    obtain ⟨m₂, h₂⟩ := Link.loadOption_ok_of h₁ l₂
    obtain ⟨r, hr⟩ := ih m₂ hrest
    exact ⟨r, by rw [h₂]; exact hr⟩

/-- `__load_option` never reads the nodes. -/
theorem Link.loadOption_setNodes {l l' : Link} {data : OptionSource} {f : LinkField}
    (h : l.loadOption data f = .ok l') (ns : List LinkNode) :
    ({ l with nodes := ns } : Link).loadOption data f = .ok { l' with nodes := ns } := by
  unfold Link.loadOption at h ⊢
  cases hd : data f.name with
  | error e => simp [hd, bind, Except.bind] at h
  | ok o =>
    simp only [hd, bind, Except.bind] at h ⊢
    rcases o with _ | _ | v
    · cases h; rfl
    · cases f <;> first | (cases h; rfl) | cases h
    · cases f
      all_goals first
        | (cases h; rfl)
        | (cases hv : v.toInt <;> simp [hv, Option.mapM, bind, Except.bind, pure, Except.pure] at h ⊢
           subst h; simp [Link.setIntField])

theorem Link.loadOptions_setNodes {l l' : Link} {data : OptionSource}
    (h : l.loadOptions data = .ok l') (ns : List LinkNode) :
    ({ l with nodes := ns } : Link).loadOptions data = .ok { l' with nodes := ns } := by
  unfold Link.loadOptions at *
  generalize LinkField.all = fs at *
  induction fs generalizing l with
  | nil => cases h; rfl
  | cons f fs ih =>
    rw [List.foldlM_cons] at h ⊢
    obtain ⟨m, h₁, hrest⟩ := Except.bind_eq_ok.1 h
    rw [Link.loadOption_setNodes h₁ ns]
    exact ih hrest

/-- A record the merge picks is one that loaded when `links()` keyed it. -/
theorem optionRecord_loads {L : List Value} {keyed : List (Int × Value)}
    (hkeyed : L.mapM recordKey = .ok keyed) {i : Int} {x : Value} (h : optionRecord keyed i = some x) :
    ∃ l₀, ({} : Link).loadOptions (recordSource x) = .ok l₀ := by
  obtain ⟨p, hp, rfl⟩ := Option.map_eq_some'.1 h
  obtain ⟨y, -, hy⟩ := mapM_exists_of_mem hkeyed (List.mem_reverse.1 (List.mem_of_find?_eq_some hp))
  simp only [recordKey, Except.bind_eq_ok, Except.pure_eq_ok] at hy
  obtain ⟨l₀, h₀, rfl⟩ := hy
  exact ⟨l₀, h₀⟩

theorem sortByNodeid_perm (ns : List LinkNode) : (sortByNodeid ns).Perm ns :=
  List.perm_insertionSort _ _

theorem sortByNodeid_sorted (ns : List LinkNode) :
    (sortByNodeid ns).Sorted fun a b => a.nodeid ≤ b.nodeid := by
  have : IsTotal LinkNode fun a b => a.nodeid ≤ b.nodeid := ⟨fun _ _ => le_total _ _⟩
  have : IsTrans LinkNode fun a b => a.nodeid ≤ b.nodeid := ⟨fun _ _ _ => le_trans⟩
  exact List.sorted_insertionSort _ _

theorem sortByNodeid_map {f : LinkNode → LinkNode} (hf : ∀ node, (f node).nodeid = node.nodeid)
    (ns : List LinkNode) : sortByNodeid (ns.map f) = (sortByNodeid ns).map f :=
  (List.map_insertionSort _ _ f ns fun a _ b _ => by simp [hf]).symm

/-- **`links()` is the projection of the tree.**  With `totem.transport` absent or `knet`,
a non-empty node list whose entries have integer ids and names and all define
`ring{i}_addr`, `i < 8`, exactly for the `i` of `S`, and interface records `L` that each
load (keyed by their linknumbers as `keyed`), `links()` returns eight slots.  Slot `i` is
empty for `i ∉ S`; otherwise it lists every entry once as `(id, name, ring{i}_addr)`,
ascending by id, and carries the options of the last record for link `i`, loaded on top
of link `i` (none when there is no such record). -/
theorem links_projection {config : Dict} {es : List Dict} {ids : List Int} {S : Finset Nat}
    {L : List Value} {keyed : List (Int × Value)} (ht : totemTransport config = .ok (.str "knet"))
    (hnodes : getPath config "nodelist" "node" = .ok (.list (es.map .dict))) (hne : es ≠ [])
    (hids : (es.map .dict).mapM entryNodeid = .ok ids) (hnamed : ∀ e ∈ es, Dict.hasKey e "name")
    (hrings : ∀ e ∈ es, ∀ i < knetLinkNumLimit, Dict.hasKey e (ringKey i) ↔ i ∈ S)
    (hL : InterfaceList config L) (hkeyed : L.mapM recordKey = .ok keyed) :
    ∃ ls, links config = .ok ls ∧ ls.length = knetLinkNumLimit ∧
      ∀ i < knetLinkNumLimit, (i ∉ S → ls[i]? = some none) ∧
        (i ∈ S → ∃ l, ls[i]? = some (some l) ∧
          l.nodes.Perm (List.zipWith3 LinkNode.mk ids (entryNames es) (ringValues es i)) ∧
          l.nodes.Sorted (fun a b => a.nodeid ≤ b.nodeid) ∧
          (optionRecord keyed i = none → l = { linknumber := i, nodes := l.nodes }) ∧
          ∀ x, optionRecord keyed i = some x →
            ({ linknumber := i, nodes := l.nodes } : Link).loadOptions (recordSource x) = .ok l) := by
  have hlinks := links_eq_of_entries hnodes hne hids hnamed hrings ht
  rw [interfaceOptions_eq hL, hkeyed] at hlinks
  -- every slot loads its record
  obtain ⟨ls, hls⟩ : ∃ ls, mergeOptions keyed (shapeSlots es ids (entryNames es) S) = .ok ls := by
    refine mapM_ok_of_forall fun ⟨i, a⟩ hmem => ?_
    show ∃ b, slotOptions keyed i a = .ok b
    unfold slotOptions
    split
    · rename_i l x hx
      obtain ⟨l₀, h₀⟩ := optionRecord_loads hkeyed hx
      obtain ⟨l', hl'⟩ := Link.loadOptions_ok_of h₀ l
      exact ⟨some l', by simp [hl', Functor.map, Except.map]⟩
    · exact ⟨_, rfl⟩
  have hlen : ls.length = knetLinkNumLimit := by
    simpa [shapeSlots] using (mapM_eq_ok.1 hls).length_eq.symm
  refine ⟨ls, by rw [hlinks]; exact hls, hlen, fun i hi => ?_⟩
  -- slot `i`
  obtain ⟨a, ha, hopt⟩ := mergeOptions_getElem? hls (List.getElem?_eq_getElem (by omega : i < ls.length))
  simp only [shapeSlots, List.getElem?_map, List.getElem?_range hi, Option.map_some',
    Option.some.injEq] at ha
  subst ha
  have hget : ls[i]? = some ls[i] := List.getElem?_eq_getElem _
  refine ⟨fun hiS => ?_, fun hiS => ?_⟩
  · simp only [rosterOf, hiS, if_false, Option.map_none'] at hopt
    rw [hget, ← Except.ok.inj hopt]
  · simp only [rosterOf, hiS, if_true, Option.map_some', slotOptions] at hopt
    cases hx : optionRecord keyed i with
    | none =>
      simp only [hx] at hopt
      rw [hget, ← Except.ok.inj hopt]
      exact ⟨_, rfl, sortByNodeid_perm _, sortByNodeid_sorted _, fun _ => rfl, nofun⟩
    | some x =>
      simp only [hx] at hopt
      obtain ⟨l, hl, hls⟩ := Except.map_eq_ok.1 hopt
      have hnodes := Link.loadOptions_nodes hl
      refine ⟨l, by rw [hget, ← hls], ?_, ?_, nofun, fun x' hx' => ?_⟩
      · rw [hnodes]; exact sortByNodeid_perm _
      · rw [hnodes]; exact sortByNodeid_sorted _
      · cases hx'; rwa [hnodes]

/-- The two entries of `portTree`, on links 0 and 1. -/
def twoLinkEntries : List Dict :=
  [[("ring0_addr", .str "10.0.0.1"), ("ring1_addr", .str "10.1.0.1"), ("name", .str "alpha"),
     ("nodeid", .str "1")],
   [("ring0_addr", .str "10.0.0.2"), ("ring1_addr", .str "10.1.0.2"), ("name", .str "beta"),
     ("nodeid", .str "2")]]

/-- The record of `portTree "1"`. -/
def portRecord : Value := .dict [("linknumber", .str "1"), ("mcastport", .str "5405")]

/-- The projection on the two-link tree with a record for link 1. -/
theorem portTree_projection :
    ∃ ls, links (portTree "1") = .ok ls ∧ ls.length = knetLinkNumLimit ∧
      ∀ i < knetLinkNumLimit, (i ∉ ({0, 1} : Finset Nat) → ls[i]? = some none) ∧
        (i ∈ ({0, 1} : Finset Nat) → ∃ l, ls[i]? = some (some l) ∧
          l.nodes.Perm (List.zipWith3 LinkNode.mk [1, 2] (entryNames twoLinkEntries)
            (ringValues twoLinkEntries i)) ∧
          l.nodes.Sorted (fun a b => a.nodeid ≤ b.nodeid) ∧
          (optionRecord [(1, portRecord)] i = none → l = { linknumber := i, nodes := l.nodes }) ∧
          ∀ x, optionRecord [(1, portRecord)] i = some x →
            ({ linknumber := i, nodes := l.nodes } : Link).loadOptions (recordSource x) = .ok l) :=
  links_projection (L := [portRecord]) (by decide) (by decide) (by decide) (by decide) (by decide)
    (by decide) (.inl (by decide)) (by decide)

/-- A tree with two node entries and no interface records. -/
def raggedTree (first second : Dict) : Dict :=
  [("totem", .dict [("transport", .str "knet")]),
    ("nodelist", .dict [("node", .list [.dict first, .dict second])])]

/-- An entry on link 0 only. -/
def oneRingEntry : Dict :=
  [("ring0_addr", .str "10.0.0.1"), ("name", .str "alpha"), ("nodeid", .str "1")]

/-- An entry on links 0 and 1. -/
def twoRingEntry : Dict :=
  [("ring0_addr", .str "10.0.0.2"), ("ring1_addr", .str "10.1.0.2"), ("name", .str "beta"),
    ("nodeid", .str "2")]

/-- **`links()` reads the rings off the first entry.**  Without a node list it returns no
slots; when only the second entry has `ring1_addr`, slot 1 is empty; when only the first
has it, reading the second raises `KeyError`. -/
theorem links_reads_first_entry :
    links [("totem", .dict [("transport", .str "knet")])] = .ok [] ∧
    (links (raggedTree oneRingEntry twoRingEntry)).map (·[1]?) = .ok (some none) ∧
    links (raggedTree twoRingEntry oneRingEntry) = .error (.keyError "ring1_addr") := by
  decide

/-! ## The node-list half -/

theorem rosterOf_congr {es es' : List Dict} {ids : List Int} {names : List Value}
    {S S' : Finset Nat} {i : Nat} (hS : i ∈ S' ↔ i ∈ S)
    (hring : ringValues es' i = ringValues es i) :
    rosterOf es' ids names S' i = rosterOf es ids names S i := by
  simp only [rosterOf, hS, hring]

/-- **One slot of the node-list half.**  Entries that keep their names, and read as before
on every ring but `n`, give the same slots except slot `n`. -/
theorem shapeSlots_set {es es' : List Dict} {ids : List Int} {S S' : Finset Nat} {n : Nat}
    (hnames : entryNames es' = entryNames es) (hS : ∀ i, i ≠ n → (i ∈ S' ↔ i ∈ S))
    (hring : ∀ i, i ≠ n → ringValues es' i = ringValues es i) :
    shapeSlots es' ids (entryNames es') S' =
      (shapeSlots es ids (entryNames es) S).set n
        ((rosterOf es' ids (entryNames es) S' n).map fun ns => { linknumber := n, nodes := ns }) := by
  rw [hnames]
  apply List.ext_getElem?
  intro j
  by_cases hj : n = j
  · subst hj
    by_cases hn : n < knetLinkNumLimit
    · simp [shapeSlots, hn]
    · rw [List.getElem?_eq_none (by simp [shapeSlots]; omega),
        List.getElem?_eq_none (by simp [shapeSlots]; omega)]
  · rw [List.getElem?_set_ne hj]
    by_cases hj8 : j < knetLinkNumLimit
    · simp only [shapeSlots, List.getElem?_map, List.getElem?_range hj8, Option.map_some',
        rosterOf_congr (hS j (Ne.symm hj)) (hring j (Ne.symm hj))]
    · rw [List.getElem?_eq_none (by simp [shapeSlots]; omega),
        List.getElem?_eq_none (by simp [shapeSlots]; omega)]

/-! ## The records half -/

/-- A slot's options load onto other nodes alike. -/
theorem slotOptions_setNodes {keyed : List (Int × Value)} {i : Nat} {s l : Link}
    (h : slotOptions keyed i (some s) = .ok (some l)) (ns : List LinkNode) :
    slotOptions keyed i (some { s with nodes := ns }) = .ok (some { l with nodes := ns }) := by
  unfold slotOptions at h ⊢
  cases hx : optionRecord keyed i with
  | none => simp only [hx] at h ⊢; cases h; rfl
  | some x =>
    simp only [hx] at h ⊢
    obtain ⟨l', hl', hls⟩ := Except.map_eq_ok.1 h
    cases hls
    simp [Link.loadOptions_setNodes hl' ns, Functor.map, Except.map]

theorem slotOptions_nodes {keyed : List (Int × Value)} {i : Nat} {s l : Link}
    (h : slotOptions keyed i (some s) = .ok (some l)) : l.nodes = s.nodes := by
  unfold slotOptions at h
  cases hx : optionRecord keyed i <;> simp only [hx] at h
  · cases h; rfl
  · obtain ⟨l', hl', hls⟩ := Except.map_eq_ok.1 h
    cases hls
    exact Link.loadOptions_nodes hl'

/-- Dropping records no search for link `i` stops at leaves link `i`'s record. -/
theorem optionRecord_filter {keyed : List (Int × Value)} {q : Int × Value → Bool} {i : Int}
    (h : ∀ p ∈ keyed, p.1 = i → q p) : optionRecord (keyed.filter q) i = optionRecord keyed i := by
  simp only [optionRecord, ← List.filter_reverse]
  rw [find?_filter_of_imp fun p hp hpi => h p (List.mem_reverse.1 hp) (by simpa using hpi)]

/-- **One slot of the records half.** -/
theorem mergeOptions_set {keyed keyed' : List (Int × Value)} {slots ls : List (Option Link)}
    {n : Nat} {s b : Option Link} (h : mergeOptions keyed slots = .ok ls)
    (hrec : ∀ i : Nat, i ≠ n → optionRecord keyed' i = optionRecord keyed i)
    (hn : slotOptions keyed' n s = .ok b) :
    mergeOptions keyed' (slots.set n s) = .ok (ls.set n b) :=
  mapM_enum_set_of (f := fun i a => slotOptions keyed i a) (g := fun i a => slotOptions keyed' i a)
    h (fun i x hi => by simp only [slotOptions, hrec i hi]) hn

/-- **`links()` of a well-formed tree, taken apart**: knet, its records, their keys, and the
slots of the node list with the records merged in. -/
theorem WellFormed.links_merge {config : Dict} {es : List Dict} {ids : List Int} {S : Finset Nat}
    {ls : List (Option Link)} (hwf : WellFormed config S) (hs : NodeListShape config es ids S)
    (hl : links config = .ok ls) :
    ∃ rs keyed, RecordsOf S rs ∧ InterfaceList config (rs.map .dict) ∧
      totemTransport config = .ok (.str "knet") ∧ (rs.map .dict).mapM recordKey = .ok keyed ∧
      mergeOptions keyed (shapeSlots es ids (entryNames es) S) = .ok ls := by
  obtain ⟨rs, hrs, hL⟩ := hwf.records.interfaceList
  obtain ⟨names, -, hr⟩ := links_rosters hs hl
  obtain ⟨-, -, hknet, -⟩ := links_ok_nodes hl (by rintro rfl; simp [rosters, knetLinkNumLimit] at hr)
  have h := hl
  rw [hs.links_eq hknet, interfaceOptions_eq hL] at h
  obtain ⟨keyed, hkeyed, hmerge⟩ := Except.bind_eq_ok.1 h
  exact ⟨rs, keyed, hrs, hL, hknet, hkeyed, hmerge⟩

/-! ## What the operations leave around the node list -/

theorem totemTransport_setNodes {config : Dict} {nodes : List Value} :
    totemTransport (setNodes config nodes) = totemTransport config := by
  simp only [totemTransport, getPath_setNodes_totem]

theorem InterfaceList.setNodes {config : Dict} {L nodes : List Value} (h : InterfaceList config L) :
    InterfaceList (setNodes config nodes) L := by
  unfold InterfaceList at *
  rwa [getPath_setNodes_totem]

theorem totemTransport_setItem {config t : Dict} {v : Value}
    (ht : Dict.get? config "totem" = some (.dict t)) :
    totemTransport (Dict.set config "totem" ((Value.dict t).setItem "interface" v)) =
      totemTransport config := by
  simp [totemTransport, getPath_of_get? Dict.get?_set_self, getPath_of_get? ht, Value.setItem,
    Value.getItem]

/-- The guard of the operations passes a present slot `n < 8`. -/
theorem existingLink_of_getElem? {ls : List (Option Link)} {n : Nat} {l : Link}
    (hn : n < knetLinkNumLimit) (h : ls[n]? = some (some l)) : existingLink ls n = .ok l := by
  have h₁ : ¬ ((n : Int) ≥ knetLinkNumLimit) := by omega
  have h₂ : ¬ ((n : Int) < 0) := by omega
  simp [existingLink, pyIndex, h₁, h₂, h]

/-- A link present in `links()` is a link of the tree and passes the check that
`update_node_addr` and `remove_link` open with. -/
theorem existingLink_guard {config : Dict} {es : List Dict} {ids : List Int} {S : Finset Nat}
    {ls : List (Option Link)} {n : Nat} {link : Link} (hs : NodeListShape config es ids S)
    (hl : links config = .ok ls) (hn : ls[n]? = some (some link)) :
    n < knetLinkNumLimit ∧ n ∈ S ∧ existingLink ls n = .ok link ∧
      (links config >>= fun ls => (existingLink ls n).map fun _ => ls) = .ok ls := by
  obtain ⟨names, -, hr⟩ := links_rosters hs hl
  obtain ⟨hn8, -⟩ := slot_roster hr hn
  have he := existingLink_of_getElem? hn8 hn
  exact ⟨hn8, (slot_isSome_iff hr hn).1 rfl, he, by simp [hl, he, bind, Except.bind, Except.map]⟩

/-! ## `remove_link` -/

/-- Entries without `ring{n}_addr` leave slot `n` empty and the others as they were. -/
theorem shapeSlots_eraseRing {es : List Dict} {ids : List Int} {S : Finset Nat} {n : Nat} :
    shapeSlots (es.map (Dict.erase · (ringKey n))) ids
      (entryNames (es.map (Dict.erase · (ringKey n)))) (S.erase n) =
      (shapeSlots es ids (entryNames es) S).set n none := by
  have hring : ∀ i : Nat, i ≠ n → ringKey i ≠ ringKey n := fun i hi h =>
    hi (by exact_mod_cast ringKey_injective h)
  rw [@shapeSlots_set es _ ids S (S.erase n) n
    (by simp [entryNames, Dict.get?_erase_ne (ringKey_ne_name n).symm])
    (fun i hi => by simp [hi]) (fun i hi => by simp [ringValues, Dict.get?_erase_ne (hring i hi)])]
  simp [rosterOf]

/-- The records `remove_link` keeps are keyed as before, without link `n`'s. -/
theorem recordKeys_keepOther {S : Finset Nat} {rs : List Dict} {keyed : List (Int × Value)}
    {n : Int} (h : ∀ r ∈ rs, RecordOf S r) (hk : (rs.map .dict).mapM recordKey = .ok keyed) :
    ((rs.filter fun r => Dict.get? r "linknumber" ≠ some (.str (pyStr n))).map .dict).mapM
      recordKey = .ok (keyed.filter fun p => p.1 ≠ n) :=
  mapM_filter_map hk fun r hr b hb => by
    obtain ⟨⟨i, -, hi⟩, -⟩ := h r hr
    rw [recordKey_dict hi hb]
    simp [hi, pyStr_injective.eq_iff]

end Crmsh
