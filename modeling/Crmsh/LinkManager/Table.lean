import Crmsh.LinkManager.Contracts

/-!
# The link table: what the link manager is for

The link manager keeps, in the tree, a table of eight link slots: each slot empty, or a
link with its members at their addresses and its options.  `links()` reads the table off
the tree.  This module states the four operations on the table itself
(`tableUpdateLink`, `tableUpdateNodeAddr`, `tableAddLink`, `tableRemoveLink`): the same
checks as the code, in the same order and with the same exceptions, and then one slot
changed.  It then proves that the code on the tree implements them.

* **`Tracked`**: the invariant the proofs carry: the tree is well-formed, has a `totem`
  section, and every interface record holds its `knet_transport` as a string.  Every call
  that returns keeps it.
* **`LinkOp.apply_matches`**: on a tracked tree, one call with a link number `≥ 0` raises
  the exception the call on `links()`'s table raises, or returns a tracked tree whose
  `links()` is the table's result.
* **`linkCalls_refine_table`**: the same over every sequence of calls on one manager, an
  exception ending the sequence.
* **`tracked_call_atomic`**: on a tracked tree, `update_link`, `update_node_addr` and
  `remove_link` that raise leave the tree as it was (`add_link` does not:
  `addLink_raises_after_writing`).
* **`removeLink_undoes_addLink`**: on a tracked tree, `remove_link` of the link `add_link`
  created gives back the table `links()` read before.
-/

namespace Crmsh

variable {α : Type} [DecidableEq α]

/-! ## The invariant -/

/-- Every `totem.interface` record holds its `knet_transport`, if it has one, as a string. -/
def TransportsText (config : Dict) : Prop :=
  InterfaceRecords (fun rs => ∀ r ∈ rs, ∀ v, Dict.get? r "knet_transport" = some v → ∃ s, v = .str s)
    config

/-- **The link manager's invariant** for the link set `S`. -/
structure Tracked (config : Dict) (S : Finset Nat) : Prop where
  wellFormed : WellFormed config S
  totem : Dict.hasKey config "totem"
  transports : TransportsText config

theorem InterfaceRecords.and {P Q : List Dict → Prop} {config : Dict} (hP : InterfaceRecords P config)
    (hQ : InterfaceRecords Q config) : InterfaceRecords (fun rs => P rs ∧ Q rs) config := by
  rcases hP with hk | ⟨rs, hrs, hp⟩
  · exact .inl hk
  rcases hQ with ⟨k, hk⟩ | ⟨rs', hrs', hq⟩
  · rw [hrs] at hk; cases hk
  obtain rfl : rs' = rs := List.map_injective_iff.2 (fun _ _ h => Value.dict.inj h)
    (Value.list.inj (Except.ok.inj (hrs'.symm.trans hrs)))
  exact .inr ⟨rs', hrs, hp, hq⟩

/-- A tracked tree has its records as `update_link` needs them, for every link number. -/
theorem Tracked.recordsFor {config : Dict} {S : Finset Nat} (ht : Tracked config S) (n : Int) :
    RecordsFor n config :=
  (ht.wellFormed.records.and ht.transports).mono fun _ ⟨hrs, htr⟩ =>
    ⟨fun r hr => let ⟨i, _, hi⟩ := (hrs.each r hr).linknumber; ⟨i, hi⟩, hrs.distinct,
      fun r hr _ => htr r hr⟩

theorem TransportsText.setNodes {config : Dict} {nodes : List Value} (h : TransportsText config) :
    TransportsText (setNodes config nodes) := by
  unfold TransportsText InterfaceRecords at *
  rwa [getPath_setNodes_totem]

theorem hasKey_setNodes_totem {config : Dict} {nodes : List Value} :
    Dict.hasKey (setNodes config nodes) "totem" = Dict.hasKey config "totem" := by
  simp only [Dict.hasKey, get?_setNodes_totem]

/-! ## The table and its operations -/

/-- `update_link` on the table: the checks of the code, then link `n` with the options
loaded. -/
def tableUpdateLink (ls : List (Option Link)) (n : Nat) (options : PyDict String (Option String)) :
    Except PyExc (List (Option Link)) := do
  let link ← existingLink ls n
  if (options.get? "nodes").isSome then throw (.valueError "Unknown option \"nodes\".")
  match options.items.find? fun p => p.1 ∉ linkOptionsUpdatable.map LinkField.name with
  | some (option, _) => throw (unsupportedOption option)
  | none => return ls.set n (some (← link.loadOptions (optionsSource options)))

/-- `__upsert_node_addr_impl` on the table: the address check over the table, then link
`n`'s nodes at their new addresses. -/
def tableUpsert (canon : String → Option α) (ls : List (Option Link)) (n : Nat) (link : Link)
    (addrs : PyDict Int String) : Except PyExc (List (Option Link)) := do
  let m ← existingAddrNodeMap canon ls
  let _ ← upsertCheck canon (rosterAt ls n) m addrs.items
  return ls.set n (some { link with nodes := link.nodes.map (withAddr addrs) })

/-- `update_node_addr` on the table. -/
def tableUpdateNodeAddr (canon : String → Option α) (ls : List (Option Link)) (n : Nat)
    (addrs : PyDict Int String) : Except PyExc (List (Option Link)) := do
  tableUpsert canon ls n (← existingLink ls n) addrs

/-- `add_link` on the table: the lowest empty slot takes the blank link of the members,
then their addresses, then the options. -/
def tableAddLink (canon : String → Option α) (ls : List (Option Link)) (addrs : PyDict Int String)
    (options : PyDict String (Option String)) : Except PyExc (List (Option Link)) :=
  match ls.findIdx? Option.isNone with
  | none => .error (.valueError ("Cannot add a new link. The maximum number of links " ++
      "supported is " ++ pyStr knetLinkNumLimit ++ "."))
  | some k =>
  match ls.findSome? id with
  | none => .error .stopIteration
  | some first =>
  let unspecified := (first.nodes.map LinkNode.nodeid).filter fun id => (addrs.get? id).isNone
  if unspecified ≠ [] then .error (.missingNodes unspecified)
  else do
    let ls ← tableUpsert canon (ls.set k (some (blankLink k first))) k (blankLink k first) addrs
    tableUpdateLink ls k options

/-- `remove_link` on the table: slot `n` empties, unless it holds the last link. -/
def tableRemoveLink (ls : List (Option Link)) (n : Nat) : Except PyExc (List (Option Link)) := do
  let _ ← existingLink ls n
  if (ls.filter Option.isSome).length ≤ 1 then throw (.valueError "Cannot remove the last link.")
  return ls.set n none

/-- One call on the table; a link number is taken as a slot. -/
def LinkOp.table (canon : String → Option α) (ls : List (Option Link)) :
    LinkOp → Except PyExc (List (Option Link))
  | .updateLink n options => tableUpdateLink ls n.toNat options
  | .updateNodeAddr n addrs => tableUpdateNodeAddr canon ls n.toNat addrs
  | .addLink addrs options => tableAddLink canon ls addrs options
  | .removeLink n => tableRemoveLink ls n.toNat

/-- A call whose link number, if it takes one, names a slot. -/
def LinkOp.NonNeg : LinkOp → Prop
  | .updateLink n _ | .updateNodeAddr n _ | .removeLink n => 0 ≤ n
  | .addLink _ _ => True

instance : DecidablePred LinkOp.NonNeg := fun op =>
  match op with
  | .updateLink n _ | .updateNodeAddr n _ | .removeLink n => inferInstanceAs (Decidable (0 ≤ n))
  | .addLink _ _ => isTrue trivial

/-- **A call on the tree matches the call on the table**: the same exception, or a tracked
tree whose `links()` is the table's result. -/
def Matches (o : Outcome) : Except PyExc (List (Option Link)) → Prop
  | .ok ls' => ∃ config' S', o = .ok config' ∧ links config' = .ok ls' ∧ Tracked config' S'
  | .error e => ∃ dom, o = .raised e dom

/-- `Matches` for a call on `config` that raises on `config` itself. -/
def MatchesAtomic (config : Dict) (o : Outcome) : Except PyExc (List (Option Link)) → Prop
  | .ok ls' => ∃ config' S', o = .ok config' ∧ links config' = .ok ls' ∧ Tracked config' S'
  | .error e => o = .raised e config

theorem MatchesAtomic.matches {config : Dict} {o : Outcome} {r : Except PyExc (List (Option Link))}
    (h : MatchesAtomic config o r) : Matches o r := by
  cases r with
  | ok _ => exact h
  | error e => exact ⟨config, h⟩

theorem MatchesAtomic.raised {config dom : Dict} {o : Outcome} {r : Except PyExc (List (Option Link))}
    {e : PyExc} (h : MatchesAtomic config o r) (ho : o = .raised e dom) : dom = config := by
  cases r with
  | ok _ => obtain ⟨_, _, h, -⟩ := h; rw [ho] at h; cases h
  | error e' => rw [ho] at h; cases h; rfl

/-! ## `update_link` -/

/-- The records `update_link` leaves: some of the old ones, and the record it wrote. -/
theorem placeRecord_dicts (rs : List Dict) (index : Option Nat) (r : Dict) :
    ∃ rs' : List Dict, placeRecord (rs.map .dict) index r = rs'.map .dict ∧
      ∀ x ∈ rs', x ∈ rs ∨ x = r := by
  by_cases h1 : (Dict.len r == 1) = true <;> rcases index with _ | i
  · exact ⟨rs, by simp [placeRecord, h1], fun x hx => .inl hx⟩
  · exact ⟨rs.eraseIdx i, by simp only [placeRecord, h1, List.eraseIdx_eq_take_drop_succ,
      List.map_append, List.map_take, List.map_drop], fun x hx => .inl (List.eraseIdx_subset _ _ hx)⟩
  · exact ⟨rs ++ [r], by simp [placeRecord, h1], fun x hx => by simpa using hx⟩
  · exact ⟨rs.set i r, by simp [placeRecord, h1], fun x hx => List.mem_or_eq_of_mem_set hx⟩

/-- **`update_link` keeps the invariant.**  Its record holds `knet_transport` as the text
`str(v)` or not at all, and the other records stay. -/
theorem TransportsText.updateLink {config config' : Dict} {S : Finset Nat} {n : Int}
    {options : PyDict String (Option String)} (ht : Tracked config S)
    (h : updateLink config n options = .ok config') : TransportsText config' := by
  obtain ⟨ls, link, link', totem, interfaces, index, -, -, -, -, -, htotem, hint, -, rfl⟩ :=
    updateLink_ok h
  obtain ⟨t, rs, rfl, htr, hi⟩ := InterfaceRecords.totem (fun _ h => nomatch h) ht.transports htotem
  obtain rfl : interfaces = rs.map .dict := Except.ok.inj (hint.symm.trans (interfacesOf_dict hi))
  have hnew : ∀ v, Dict.get? (writeOptions link' (recordAt (rs.map .dict) index n)) "knet_transport" =
      some v → ∃ s, v = .str s := fun v hv => by
    rw [show "knet_transport" = LinkField.knetTransport.name from rfl,
      get?_writeOptions (by decide)] at hv
    obtain ⟨s, -, rfl⟩ := Option.map_eq_some'.1 hv
    exact ⟨s, rfl⟩
  obtain ⟨rs', hplace, hmem⟩ := placeRecord_dicts rs index (writeOptions link' (recordAt (rs.map .dict) index n))
  unfold TransportsText InterfaceRecords
  rw [getPath_of_get? Dict.get?_set_self, hplace, getItem_storeInterfaces]
  split
  · exact .inl ⟨_, rfl⟩
  · exact .inr ⟨rs', rfl, fun r hr => (hmem r hr).elim (htr r) fun h => h ▸ hnew⟩

theorem Tracked.updateLink {config config' : Dict} {S : Finset Nat} {n : Int}
    {options : PyDict String (Option String)} (ht : Tracked config S) (h0 : 0 ≤ n)
    (h : updateLink config n options = .ok config') : Tracked config' S := by
  refine ⟨ht.wellFormed.updateLink h0 h, ?_, TransportsText.updateLink ht h⟩
  obtain ⟨-, -, -, -, -, -, -, -, -, -, -, -, -, -, rfl⟩ := updateLink_ok h
  simp [Dict.hasKey]

/-- **`update_link` implements the table's.** -/
theorem updateLink_matches {config : Dict} {S : Finset Nat} {ls : List (Option Link)} {n : Nat}
    {options : PyDict String (Option String)} (ht : Tracked config S) (hl : links config = .ok ls) :
    MatchesAtomic config (updateLink config n options) (tableUpdateLink ls n options) := by
  cases hlink : existingLink ls n with
  | error e =>
    simp only [tableUpdateLink, hlink, bind, Except.bind, MatchesAtomic]
    simp [updateLink, hl, hlink, bind, Except.bind]
  | ok link =>
  cases hnodes : (options.get? "nodes").isSome
  case true =>
    simp only [tableUpdateLink, hlink, hnodes, bind, Except.bind, if_true, throw, throwThe,
      MonadExceptOf.throw, MatchesAtomic]
    simp only [updateLink, hl, hlink, hnodes, bind, Except.bind, if_true]
  cases hfind : options.items.find? fun p => p.1 ∉ linkOptionsUpdatable.map LinkField.name with
  | some p =>
    simp only [tableUpdateLink, hlink, hnodes, hfind, bind, Except.bind, Bool.false_eq_true,
      if_false, pure, Except.pure, throw, throwThe, MonadExceptOf.throw, MatchesAtomic]
    simp only [updateLink, hl, hlink, hnodes, hfind, bind, Except.bind, Bool.false_eq_true, if_false]
  | none =>
  cases hload : link.loadOptions (optionsSource options) with
  | error e =>
    simp only [tableUpdateLink, hlink, hnodes, hfind, hload, bind, Except.bind, Bool.false_eq_true,
      if_false, pure, Except.pure, MatchesAtomic]
    simp only [updateLink, hl, hlink, hnodes, hfind, hload, bind, Except.bind,
      Bool.false_eq_true, if_false]
  | ok link' =>
  simp only [tableUpdateLink, hlink, hnodes, hfind, hload, bind, Except.bind, Bool.false_eq_true,
    if_false, pure, Except.pure, MatchesAtomic]
  obtain ⟨es, ids, hs⟩ := ht.wellFormed.shape
  have hn : ls[n]? = some (some link) := by simpa using existingLink_getElem? (Int.natCast_nonneg n) hlink
  obtain ⟨hn8, -⟩ := existingLink_guard hs hl hn
  have hnames : ∀ p ∈ options.items, p.1 ∈ linkOptionsUpdatable.map LinkField.name :=
    fun p hp => by simpa using List.find?_eq_none.1 hfind p hp
  obtain ⟨config', hc'⟩ := updateLink_returns hl hn8 hn hnames ⟨link', hload⟩ ht.totem
    ht.wellFormed.records
  obtain ⟨link'', hload', -, hl', -⟩ := updateLink_sets_own_options_of hl (ht.recordsFor n) hn hc'
  obtain rfl : link'' = link' := Except.ok.inj (hload'.symm.trans hload)
  exact ⟨config', S, hc', hl', ht.updateLink (Int.natCast_nonneg n) hc'⟩

/-! ## `update_node_addr` -/

/-- **`links()` after the addresses of a present link `n` are written**: link `n` with its
nodes at their new addresses, and its options. -/
theorem links_setNodes_writeAddr {config : Dict} {es : List Dict} {ids : List Int} {S : Finset Nat}
    {ls : List (Option Link)} {n : Nat} {link : Link} {addrs : PyDict Int String}
    (hwf : WellFormed config S) (hs : NodeListShape config es ids S) (hl : links config = .ok ls)
    (hn : ls[n]? = some (some link)) :
    links (setNodes config ((es.map (writeAddr n addrs)).map .dict)) =
      .ok (ls.set n (some { link with nodes := link.nodes.map (withAddr addrs) })) := by
  obtain ⟨hn8, hnS, -, -⟩ := existingLink_guard hs hl hn
  obtain ⟨rs, keyed, -, hL, hknet, hkeyed, hmerge⟩ := hwf.links_merge hs hl
  obtain ⟨a, ha, hopt⟩ := mergeOptions_getElem? hmerge hn
  simp only [shapeSlots, List.getElem?_map, List.getElem?_range hn8, Option.map_some',
    Option.some.injEq, rosterOf, hnS, if_true] at ha
  subst ha
  refine links_writeAddr (@NodeListShape.setNodes_writeAddr _ _ _ _ n addrs hs fun i _ h => by
    rwa [show i = n by exact_mod_cast ringKey_injective h]) hknet hL hkeyed hmerge
    (fun _ _ => Iff.rfl) ?_
  simp only [rosterOf, hnS, if_true, zipWith3_writeAddr hs.nodeids,
    sortByNodeid_map (f := withAddr addrs) (fun node => by unfold withAddr; split <;> rfl),
    Option.map_some']
  rw [slotOptions_nodes hopt]
  exact slotOptions_setNodes hopt _

theorem Tracked.updateNodeAddr {canon : String → Option α} {config config' : Dict} {S : Finset Nat}
    {n : Int} {addrs : PyDict Int String} (ht : Tracked config S) (h0 : 0 ≤ n)
    (h : updateNodeAddr canon config n addrs = .ok config') : Tracked config' S := by
  obtain ⟨es, ids, hs⟩ := ht.wellFormed.shape
  obtain ⟨_, _, -, -, hup⟩ := updateNodeAddr_ok h
  refine ⟨ht.wellFormed.updateNodeAddr h0 h, ?_, ?_⟩ <;> rw [upsertNodeAddrImpl_entries hs hup]
  exacts [hasKey_setNodes_totem.trans ht.totem, ht.transports.setNodes]

/-- **`update_node_addr` implements the table's.** -/
theorem updateNodeAddr_matches {canon : String → Option α} {config : Dict} {S : Finset Nat}
    {ls : List (Option Link)} {n : Nat} {addrs : PyDict Int String} (ht : Tracked config S)
    (hl : links config = .ok ls) :
    MatchesAtomic config (updateNodeAddr canon config n addrs) (tableUpdateNodeAddr canon ls n addrs) := by
  cases hlink : existingLink ls n with
  | error e =>
    simp only [tableUpdateNodeAddr, hlink, bind, Except.bind, MatchesAtomic]
    simp only [updateNodeAddr, hl, hlink, bind, Except.bind, Except.map]
  | ok link =>
  cases hm : existingAddrNodeMap canon ls with
  | error e =>
    simp only [tableUpdateNodeAddr, tableUpsert, hlink, hm, bind, Except.bind, MatchesAtomic]
    simp only [updateNodeAddr, hl, hlink, bind, Except.bind, Except.map,
      upsertNodeAddrImpl, hm]
  | ok m =>
  cases hc : upsertCheck canon (rosterAt ls n) m addrs.items with
  | error e =>
    simp only [tableUpdateNodeAddr, tableUpsert, hlink, hm, hc, bind, Except.bind, MatchesAtomic]
    simp only [updateNodeAddr, hl, hlink, bind, Except.bind, Except.map,
      upsertNodeAddrImpl, hm, hc]
  | ok m' =>
  simp only [tableUpdateNodeAddr, tableUpsert, hlink, hm, hc, bind, Except.bind, pure, Except.pure,
    Matches]
  obtain ⟨es, ids, hs⟩ := ht.wellFormed.shape
  have hn : ls[n]? = some (some link) := by simpa using existingLink_getElem? (Int.natCast_nonneg n) hlink
  have hup : updateNodeAddr canon config n addrs =
      .ok (setNodes config ((es.map (writeAddr n addrs)).map .dict)) := by
    simp only [updateNodeAddr, hl, hlink, bind, Except.bind, Except.map, upsertNodeAddrImpl, hm, hc,
      hs.nodes, writeNodeAddrs_dicts fun e he => (hs.nodeid_mem he).imp fun _ h => h.2]
  exact ⟨_, S, hup, links_setNodes_writeAddr ht.wellFormed hs hl hn,
    ht.updateNodeAddr (Int.natCast_nonneg n) hup⟩

/-! ## `add_link` -/

theorem withAddr_blank {addrs : PyDict Int String} {node : LinkNode}
    (h : (addrs.get? node.nodeid).isSome) (x : Value) :
    withAddr addrs { node with addr := x } = withAddr addrs node := by
  obtain ⟨a, ha⟩ := Option.isSome_iff_exists.1 h
  simp [withAddr, ha]

/-- **`links()` after `add_link` wrote the new link's addresses**: the lowest free slot `k`
holds link `k`, with no options, and the members of any present link at their new
addresses. -/
theorem links_setNodes_addAddrs {config : Dict} {es : List Dict} {ids : List Int} {S : Finset Nat}
    {ls : List (Option Link)} {k : Nat} {first : Link} {addrs : PyDict Int String}
    (hwf : WellFormed config S) (hs : NodeListShape config es ids S) (hl : links config = .ok ls)
    (hk : ls.findIdx? Option.isNone = some k) (hfirst : ls.findSome? id = some first)
    (haddrs : ∀ node ∈ first.nodes, (addrs.get? node.nodeid).isSome) :
    links (setNodes config ((es.map (writeAddr k addrs)).map .dict)) =
      .ok (ls.set k (some { linknumber := k, nodes := first.nodes.map (withAddr addrs) })) := by
  obtain ⟨hkS, -, hs₁⟩ := hs.setNodes_addLink hl hk hfirst haddrs
  obtain ⟨names, -, hr⟩ := links_rosters hs hl
  obtain ⟨rs, keyed, hrs, hL, hknet, hkeyed, hmerge⟩ := hwf.links_merge hs hl
  have hall : ∀ id ∈ ids, (addrs.get? id).isSome := fun id hid => by
    obtain ⟨node, hnode, rfl⟩ := List.mem_map.1 ((findSome_nodeids hs hl hfirst).mem_iff.2 hid)
    exact haddrs node hnode
  -- the slot of `first`, whose roster the new link's nodes follow
  obtain ⟨j, hj⟩ : ∃ j, ls[j]? = some (some first) := by
    obtain ⟨a, ha, hfa⟩ := List.exists_of_findSome?_eq_some hfirst
    cases hfa
    exact List.mem_iff_getElem?.1 ha
  obtain ⟨a, ha, hopt⟩ := mergeOptions_getElem? hmerge hj
  have hjS : j ∈ S := (slot_isSome_iff hr hj).1 rfl
  simp only [shapeSlots, List.getElem?_map, List.getElem?_range (slot_roster hr hj).1,
    Option.map_some', Option.some.injEq, rosterOf, hjS, if_true] at ha
  subst ha
  have hnodes : sortByNodeid (List.zipWith3 LinkNode.mk ids (entryNames es)
      (ringValues (es.map (writeAddr k addrs)) k)) = first.nodes.map (withAddr addrs) := by
    rw [slotOptions_nodes hopt, ← sortByNodeid_map fun node => by unfold withAddr; split <;> rfl,
      zipWith3_writeAddr hs.nodeids]
    exact congrArg sortByNodeid (map_withAddr_zipWith3 hall (by simp [ringValues]))
  rw [← hnodes]
  refine links_writeAddr hs₁ hknet hL hkeyed hmerge (fun i (hi : i ≠ k) => by simp [hi]) ?_
  simp [rosterOf, slotOptions, optionRecord_eq_none_of_not_mem hrs hkeyed hkS, pure, Except.pure]

/-- **`add_link` implements the table's.** -/
theorem addLink_matches {canon : String → Option α} {config : Dict} {S : Finset Nat}
    {ls : List (Option Link)} {addrs : PyDict Int String} {options : PyDict String (Option String)}
    (ht : Tracked config S) (hl : links config = .ok ls) :
    Matches (addLink canon config addrs options) (tableAddLink canon ls addrs options) := by
  cases hk : ls.findIdx? Option.isNone with
  | none =>
    simp only [tableAddLink, hk, Matches]
    exact ⟨config, by simp only [addLink, hl, hk]⟩
  | some k =>
  cases hfirst : ls.findSome? id with
  | none =>
    simp only [tableAddLink, hk, hfirst, Matches]
    exact ⟨config, by simp only [addLink, hl, hk, hfirst]⟩
  | some first =>
  by_cases hun : (first.nodes.map LinkNode.nodeid).filter (fun id => (addrs.get? id).isNone) ≠ []
  · simp only [tableAddLink, hk, hfirst, if_pos hun, Matches]
    exact ⟨config, by simp only [addLink, hl, hk, hfirst, if_pos hun]⟩
  cases hm : existingAddrNodeMap canon (ls.set k (some (blankLink k first))) with
  | error e =>
    simp only [tableAddLink, hk, hfirst, hun, if_false, tableUpsert, hm, bind, Except.bind, Matches]
    exact ⟨config, by simp only [addLink, hl, hk, hfirst, hun, if_false, upsertNodeAddrImpl, hm,
      bind, Except.bind]⟩
  | ok m =>
  cases hc : upsertCheck canon (rosterAt (ls.set k (some (blankLink k first))) k) m addrs.items with
  | error e =>
    simp only [tableAddLink, hk, hfirst, hun, if_false, tableUpsert, hm, hc, bind, Except.bind,
      Matches]
    exact ⟨config, by simp only [addLink, hl, hk, hfirst, hun, if_false, upsertNodeAddrImpl, hm, hc,
      bind, Except.bind]⟩
  | ok m' =>
  obtain ⟨es, ids, hs⟩ := ht.wellFormed.shape
  have haddrs := isSome_of_unspecified_nil hun
  obtain ⟨-, -, hs₁⟩ := hs.setNodes_addLink hl hk hfirst haddrs
  -- the tree: the addresses are written, then `update_link` runs on it
  have hconc : addLink canon config addrs options =
      updateLink (setNodes config ((es.map (writeAddr k addrs)).map .dict)) k options := by
    simp only [addLink, hl, hk, hfirst, hun, if_false, upsertNodeAddrImpl, hm, hc, bind, Except.bind,
      hs.nodes, writeNodeAddrs_dicts fun e he => (hs.nodeid_mem he).imp fun _ h => h.2]
  -- the table: link `k` with the members at their new addresses, then `update_link`
  have habs : tableAddLink canon ls addrs options = tableUpdateLink
      (ls.set k (some { linknumber := k, nodes := first.nodes.map (withAddr addrs) })) k options := by
    have hmap : (first.nodes.map fun node => { node with addr := .str "" }).map (withAddr addrs) =
        first.nodes.map (withAddr addrs) := by
      rw [List.map_map]
      exact List.map_congr_left fun node hnode => withAddr_blank (haddrs node hnode) _
    simp only [tableAddLink, hk, hfirst, hun, if_false, tableUpsert, hm, hc, bind, Except.bind, pure,
      Except.pure, List.set_set]
    simp only [blankLink, hmap]
  rw [hconc, habs]
  exact (updateLink_matches ⟨⟨⟨_, ids, hs₁⟩, Finset.insert_nonempty _ _,
    ht.wellFormed.records.setNodes.mono (Finset.subset_insert _ _)⟩,
    hasKey_setNodes_totem.trans ht.totem, ht.transports.setNodes⟩
    (links_setNodes_addAddrs ht.wellFormed hs hl hk hfirst haddrs)).matches

/-! ## `remove_link` -/

/-- **`remove_link` of a present link that is not the last one** returns on a tracked tree,
and `links()` loses slot `n` and nothing else. -/
theorem removeLink_returns {config : Dict} {S : Finset Nat} {ls : List (Option Link)} {n : Nat}
    {link : Link} (ht : Tracked config S) (hl : links config = .ok ls)
    (hn : ls[n]? = some (some link)) (hmany : ¬ (ls.filter Option.isSome).length ≤ 1) :
    ∃ config', removeLink config n = .ok config' ∧ links config' = .ok (ls.set n none) := by
  obtain ⟨es, ids, hs⟩ := ht.wellFormed.shape
  obtain ⟨-, hnS, -, hguard⟩ := existingLink_guard hs hl hn
  have hdel := delItemAll_dicts fun e he =>
    hs.hasKey_ring (Int.natCast_nonneg n) (by simpa using hnS) he
  have hs₁ := hs.setNodes_eraseRing (Int.natCast_nonneg n)
  simp only [Int.toNat_natCast] at hs₁
  obtain ⟨totem, htotem⟩ := Dict.hasKey_iff.1 ht.totem
  obtain ⟨t, rs, rfl, hrs, hi⟩ := InterfaceRecords.totem (RecordsOf.nil S) ht.wellFormed.records htotem
  obtain ⟨-, -, hknet, -⟩ := links_ok_nodes hl (by rintro rfl; cases hn)
  have hL := interfaceList_of_totem htotem hi
  rw [hs.links_eq hknet, interfaceOptions_eq hL] at hl
  obtain ⟨keyed, hkeyed, hmerge⟩ := Except.bind_eq_ok.1 hl
  -- `links()` of a tree with the entries and the records `remove_link` leaves
  have hlinks : ∀ config', NodeListShape config' (es.map (Dict.erase · (ringKey n))) ids (S.erase n) →
      totemTransport config' = .ok (.str "knet") →
      InterfaceList config'
        ((rs.filter fun r => Dict.get? r "linknumber" ≠ some (.str (pyStr n))).map .dict) →
      links config' = .ok (ls.set n none) := fun config' hs' ht' hL' => by
    rw [hs'.links_eq ht', interfaceOptions_eq hL', shapeSlots_eraseRing,
      recordKeys_keepOther hrs.each hkeyed]
    exact mergeOptions_set hmerge (fun i hi => optionRecord_filter fun p _ hp => by simp [hp, hi]) rfl
  have htotem₁ :=
    (@get?_setNodes_totem config ((es.map (Dict.erase · (ringKey n))).map .dict)).trans htotem
  rcases hi with ⟨hnone, rfl⟩ | hsome
  · -- no `totem.interface`: the records step returns the tree as it is
    refine ⟨_, ?_, hlinks _ hs₁ (totemTransport_setNodes.trans hknet) hL.setNodes⟩
    simp only [removeLink, hguard, hmany, if_false, hs.nodes, hdel]
    rw [removeRecords, htotem₁]
    simp [Value.contains, Dict.hasKey, hnone]
  · -- the records of link `n` are dropped
    have hok : removeLink config n =
        .ok (Dict.set (setNodes config ((es.map (Dict.erase · (ringKey n))).map .dict)) "totem"
          ((Value.dict t).setItem "interface"
            (.list ((rs.filter fun r => Dict.get? r "linknumber" ≠ some (.str (pyStr n))).map
              .dict)))) := by
      simp only [removeLink, hguard, hmany, if_false, hs.nodes, hdel]
      rw [removeRecords, htotem₁]
      simp [Value.contains, Dict.hasKey, hsome, Value.getItem, keepOtherRecords_records hrs.each]
    refine ⟨_, hok, hlinks _ (hs₁.of_getPath (getPath_set_ne (by decide)))
      ((totemTransport_setItem htotem₁).trans (totemTransport_setNodes.trans hknet)) (.inl ?_)⟩
    simp [getPath_of_get? Dict.get?_set_self, Value.setItem, Value.getItem]

theorem Tracked.removeLink {config config' : Dict} {S : Finset Nat} {n : Int}
    (ht : Tracked config S) (h0 : 0 ≤ n) (h : removeLink config n = .ok config') :
    Tracked config' (S.erase n.toNat) := by
  obtain ⟨_, _, _, nodes', -, -, -, -, -, hrem⟩ := removeLink_ok h
  obtain ⟨totem, htotem, hcase⟩ := removeRecords_ok hrem
  refine ⟨(ht.wellFormed.removeLink h0 h).2, ?_, ?_⟩
  · rcases hcase with ⟨-, rfl⟩ | ⟨-, -, -, -, rfl⟩
    · exact hasKey_setNodes_totem.trans ht.totem
    · simp [Dict.hasKey]
  rcases hcase with ⟨-, rfl⟩ | ⟨interfaces, kept, hint, hkept, rfl⟩
  · exact ht.transports.setNodes
  -- the records kept are records of the tree, which hold their transports as strings
  rw [get?_setNodes_totem] at htotem
  obtain ⟨t, rs, rfl, ⟨hrs, htr⟩, hi⟩ := InterfaceRecords.totem ⟨RecordsOf.nil S, fun _ h => nomatch h⟩
    (ht.wellFormed.records.and ht.transports) htotem
  obtain rfl : interfaces = rs.map .dict := by
    rcases hi with ⟨hnone, rfl⟩ | hsome <;> simp_all [Value.getItem]
  rw [keepOtherRecords_records hrs.each] at hkept
  cases hkept
  exact .inr ⟨rs.filter fun r => Dict.get? r "linknumber" ≠ some (.str (pyStr n)),
    by simp [getPath_of_get? Dict.get?_set_self, Value.setItem, Value.getItem],
    fun r hr => htr r (List.mem_filter.1 hr).1⟩

/-- **`remove_link` implements the table's.** -/
theorem removeLink_matches {config : Dict} {S : Finset Nat} {ls : List (Option Link)} {n : Nat}
    (ht : Tracked config S) (hl : links config = .ok ls) :
    MatchesAtomic config (removeLink config n) (tableRemoveLink ls n) := by
  cases hlink : existingLink ls n with
  | error e =>
    simp only [tableRemoveLink, hlink, bind, Except.bind, MatchesAtomic]
    simp only [removeLink, hl, hlink, bind, Except.bind, Except.map]
  | ok link =>
  by_cases hmany : (ls.filter Option.isSome).length ≤ 1
  · simp only [tableRemoveLink, hlink, hmany, bind, Except.bind, if_true, throw, throwThe,
      MonadExceptOf.throw, MatchesAtomic]
    simp only [removeLink, hl, hlink, bind, Except.bind, Except.map, hmany, if_true]
  simp only [tableRemoveLink, hlink, hmany, bind, Except.bind, if_false, pure, Except.pure, MatchesAtomic]
  have hn : ls[n]? = some (some link) := by simpa using existingLink_getElem? (Int.natCast_nonneg n) hlink
  obtain ⟨config', hc', hl'⟩ := removeLink_returns ht hl hn hmany
  exact ⟨config', S.erase n, hc', hl', by simpa using ht.removeLink (Int.natCast_nonneg n) hc'⟩

/-! ## Every call, and every sequence of calls -/

/-- The two-link tree is tracked. -/
theorem portTree_tracked : Tracked (portTree "1") {0, 1} :=
  ⟨portTree_wellFormed, by decide,
    .inr ⟨[[("linknumber", .str "1"), ("mcastport", .str "5405")]], by decide, fun r hr v hv => by
      rw [List.mem_singleton.1 hr] at hv
      exact absurd hv (by simp [Dict.get?])⟩⟩

/-- **One call on the tree implements the call on its table.** -/
theorem LinkOp.apply_matches {canon : String → Option α} {config : Dict} {S : Finset Nat}
    {ls : List (Option Link)} {op : LinkOp} (ht : Tracked config S) (hl : links config = .ok ls)
    (h0 : op.NonNeg) : Matches (op.apply canon config) (op.table canon ls) := by
  cases op with
  | updateLink n options =>
    obtain ⟨n, rfl⟩ := Int.eq_ofNat_of_zero_le h0
    exact (updateLink_matches ht hl).matches
  | updateNodeAddr n addrs =>
    obtain ⟨n, rfl⟩ := Int.eq_ofNat_of_zero_le h0
    exact (updateNodeAddr_matches ht hl).matches
  | addLink addrs options => exact addLink_matches ht hl
  | removeLink n =>
    obtain ⟨n, rfl⟩ := Int.eq_ofNat_of_zero_le h0
    exact (removeLink_matches ht hl).matches

/-- Whether a call is `add_link`. -/
def LinkOp.isAddLink : LinkOp → Bool
  | .addLink _ _ => true
  | _ => false

/-- **`update_link`, `update_node_addr` and `remove_link` are atomic** on a tracked tree:
with a link number `≥ 0`, a call that raises leaves the tree exactly as it was. -/
theorem tracked_call_atomic {canon : String → Option α} {config dom : Dict} {S : Finset Nat}
    {op : LinkOp} {e : PyExc} (ht : Tracked config S) (h0 : op.NonNeg) (hadd : op.isAddLink = false)
    (h : op.apply canon config = .raised e dom) : dom = config := by
  cases hl : links config with
  | error e' =>
    cases op
    case addLink => cases hadd
    all_goals
      simp only [LinkOp.apply, updateLink, updateNodeAddr, removeLink, hl, bind, Except.bind,
        Outcome.raised.injEq] at h
      exact h.2.symm
  | ok ls =>
    cases op with
    | updateLink n options =>
      obtain ⟨n, rfl⟩ := Int.eq_ofNat_of_zero_le h0
      exact (updateLink_matches ht hl).raised h
    | updateNodeAddr n addrs =>
      obtain ⟨n, rfl⟩ := Int.eq_ofNat_of_zero_le h0
      exact (updateNodeAddr_matches ht hl).raised h
    | addLink => cases hadd
    | removeLink n =>
      obtain ⟨n, rfl⟩ := Int.eq_ofNat_of_zero_le h0
      exact (removeLink_matches ht hl).raised h

/-- Moving node 2 of link 1 to node 1's address raises, and leaves the two-link tree. -/
theorem portTree_duplicate_atomic :
    ∃ e dom, (LinkOp.updateNodeAddr 1 ⟨[(2, "10.1.0.1")], by decide⟩).apply some (portTree "1") =
      .raised e dom ∧ dom = portTree "1" :=
  have h : (LinkOp.updateNodeAddr 1 ⟨[(2, "10.1.0.1")], by decide⟩).apply some (portTree "1") =
      .raised (.duplicatedNodeAddress "10.1.0.1" 2 1) (portTree "1") := by decide
  ⟨_, _, h, tracked_call_atomic portTree_tracked (by decide) (by decide) h⟩

/-- **Calls on one `LinkManager`**, in turn, as Python runs them: each on the tree the one
before left; an exception ends the sequence, with the tree as it stands. -/
def runCalls (canon : String → Option α) : Dict → List LinkOp → Outcome
  | config, [] => .ok config
  | config, op :: ops =>
    match op.apply canon config with
    | .ok config' => runCalls canon config' ops
    | .raised e dom => .raised e dom

/-- The same calls on the table. -/
def tableRun (canon : String → Option α) (ls : List (Option Link)) (ops : List LinkOp) :
    Except PyExc (List (Option Link)) :=
  ops.foldlM (fun ls op => op.table canon ls) ls

/-- **The link manager implements the link table.**  From a tracked tree, any sequence of
calls with link numbers `≥ 0` raises the exception the same calls raise on `links()`'s
table, at the same call, or returns a tracked tree whose `links()` is the table the calls
leave. -/
theorem linkCalls_refine_table {canon : String → Option α} :
    ∀ {ops : List LinkOp} {config : Dict} {S : Finset Nat} {ls : List (Option Link)},
      Tracked config S → links config = .ok ls → (∀ op ∈ ops, op.NonNeg) →
      Matches (runCalls canon config ops) (tableRun canon ls ops)
  | [], config, S, _, ht, hl, _ => ⟨config, S, rfl, hl, ht⟩
  | op :: ops, config, _, ls, ht, hl, h0 => by
    have hstep : Matches (op.apply canon config) (op.table canon ls) :=
      LinkOp.apply_matches ht hl (h0 op (List.mem_cons_self _ _))
    simp only [runCalls, tableRun, List.foldlM_cons]
    cases hr : op.table canon ls with
    | error e =>
      rw [hr] at hstep
      obtain ⟨dom, hdom⟩ := hstep
      simp only [hdom, bind, Except.bind]
      exact ⟨dom, rfl⟩
    | ok ls' =>
      rw [hr] at hstep
      obtain ⟨config', S', hc, hl', ht'⟩ := hstep
      simp only [hc, bind, Except.bind]
      exact linkCalls_refine_table ht' hl' fun op h => h0 op (List.mem_cons_of_mem _ h)

/-- Moving node 1 of link 1, setting link 1's `mcastport`, then removing link 0. -/
def portTreeCalls : List LinkOp :=
  [.updateNodeAddr 1 moveAlphaLinkOne, .updateLink 1 ⟨[("mcastport", some "5406")], by decide⟩,
    .removeLink 0]

/-- Three calls on the two-link tree do what they do on its table. -/
theorem portTree_calls_refine :
    Tracked (portTree "1") {0, 1} ∧ ∃ ls, links (portTree "1") = .ok ls ∧
      Matches (runCalls some (portTree "1") portTreeCalls) (tableRun some ls portTreeCalls) :=
  ⟨portTree_tracked, _, rfl, linkCalls_refine_table portTree_tracked rfl (by decide)⟩

/-! ## `remove_link` undoes `add_link` -/
theorem tableUpdateLink_ok {ls ls' : List (Option Link)} {n : Nat}
    {options : PyDict String (Option String)} (h : tableUpdateLink ls n options = .ok ls') :
    ∃ l, ls' = ls.set n (some l) := by
  simp only [tableUpdateLink, bind, Except.bind, pure, Except.pure, throw, throwThe,
    MonadExceptOf.throw] at h
  split at h
  · cases h
  split_ifs at h
  split at h
  · cases h
  split at h
  · cases h
  · rename_i l _
    cases h
    exact ⟨l, rfl⟩

/-- The table `add_link` leaves: its lowest empty slot filled, the rest as it was. -/
theorem tableAddLink_ok {canon : String → Option α} {ls ls' : List (Option Link)}
    {addrs : PyDict Int String} {options : PyDict String (Option String)}
    (h : tableAddLink canon ls addrs options = .ok ls') :
    ∃ k first l, ls.findIdx? Option.isNone = some k ∧ ls.findSome? id = some first ∧
      ls' = ls.set k (some l) := by
  unfold tableAddLink at h
  split at h
  · cases h
  rename_i k hk
  split at h
  · cases h
  rename_i first hfirst
  dsimp only at h
  split_ifs at h
  obtain ⟨ls₁, hup, hupd⟩ := Except.bind_eq_ok.1 h
  simp only [tableUpsert, bind, Except.bind, pure, Except.pure] at hup
  split at hup
  · cases hup
  split at hup
  · cases hup
  cases hup
  obtain ⟨l, rfl⟩ := tableUpdateLink_ok hupd
  exact ⟨k, first, l, hk, hfirst, by rw [List.set_set, List.set_set]⟩

theorem Tracked.links_length {config : Dict} {S : Finset Nat} {ls : List (Option Link)}
    (ht : Tracked config S) (hl : links config = .ok ls) : ls.length = knetLinkNumLimit := by
  obtain ⟨es, ids, hs⟩ := ht.wellFormed.shape
  obtain ⟨names, -, hr⟩ := links_rosters hs hl
  simpa [rosters] using congrArg List.length hr

/-- On the table, removing the link `add_link` added gives the table back. -/
theorem tableRemoveLink_added {ls : List (Option Link)} {k : Nat} {first l : Link}
    (hlen : ls.length = knetLinkNumLimit) (hk : ls.findIdx? Option.isNone = some k)
    (hfirst : ls.findSome? id = some first) :
    tableRemoveLink (ls.set k (some l)) k = .ok ls := by
  obtain ⟨hklt, hknone, -⟩ := List.findIdx?_eq_some_iff_getElem.1 hk
  have hnone : ls[k] = none := by simpa using hknone
  have hex : existingLink (ls.set k (some l)) k = .ok l :=
    existingLink_of_getElem? (hlen ▸ hklt) (List.getElem?_set_self hklt)
  -- slot `k` and the slot of `first` are taken: two links
  have hfirst₁ : 0 < ls.countP Option.isSome := by
    obtain ⟨a, ha, hfa⟩ := List.exists_of_findSome?_eq_some hfirst
    cases hfa
    exact List.countP_pos_iff.2 ⟨_, ha, rfl⟩
  have htwo : ¬ ((ls.set k (some l)).filter Option.isSome).length ≤ 1 := by
    rw [← List.countP_eq_length_filter, List.countP_set _ _ _ _ hklt, hnone]
    simp only [Option.isSome_none, Option.isSome_some, Bool.false_eq_true, if_false, if_true]
    omega
  have hback : (ls.set k (some l)).set k none = ls := by
    rw [List.set_set]
    exact List.ext_getElem (by simp) fun j _ _ => by
      rw [List.getElem_set]
      split <;> simp_all
  simp only [tableRemoveLink, hex, htwo, bind, Except.bind, if_false, pure, Except.pure, hback]

/-- **`remove_link` undoes `add_link`.**  On a tracked tree, when `add_link` returns it has
filled a slot `k` that was empty, and `remove_link(k)` on the tree it left returns a tree
whose `links()` is what it was before both calls. -/
theorem removeLink_undoes_addLink {canon : String → Option α} {config config₁ : Dict}
    {S : Finset Nat} {ls : List (Option Link)} {addrs : PyDict Int String}
    {options : PyDict String (Option String)} (ht : Tracked config S) (hl : links config = .ok ls)
    (h : addLink canon config addrs options = .ok config₁) :
    ∃ k : Nat, ls[k]? = some none ∧
      ∃ config₂, removeLink config₁ k = .ok config₂ ∧ links config₂ = .ok ls := by
  have hm : Matches (addLink canon config addrs options) (tableAddLink canon ls addrs options) :=
    addLink_matches ht hl
  cases hr : tableAddLink canon ls addrs options with
  | error e =>
    rw [hr] at hm
    obtain ⟨dom, hdom⟩ := hm
    rw [h] at hdom
    cases hdom
  | ok ls₁ =>
    rw [hr] at hm
    obtain ⟨config', S', hc, hl₁, ht₁⟩ := hm
    rw [h] at hc
    cases hc
    obtain ⟨k, first, l, hk, hfirst, rfl⟩ := tableAddLink_ok hr
    obtain ⟨hklt, hknone, -⟩ := List.findIdx?_eq_some_iff_getElem.1 hk
    refine ⟨k, by rw [List.getElem?_eq_getElem hklt]; simpa using hknone, ?_⟩
    have hrem : MatchesAtomic config₁ (removeLink config₁ k) (tableRemoveLink (ls.set k (some l)) k) :=
      removeLink_matches ht₁ hl₁
    rw [tableRemoveLink_added (ht.links_length hl) hk hfirst] at hrem
    obtain ⟨config₂, -, hc₂, hl₂, -⟩ := hrem
    exact ⟨config₂, hc₂, hl₂⟩

/-- Adding link 2 to the two-link tree, then removing it. -/
theorem portTree_add_then_remove :
    ∃ config₁, addLink some (portTree "1") ⟨[(1, "10.2.0.1"), (2, "10.2.0.2")], by decide⟩
        ⟨[], List.nodup_nil⟩ = .ok config₁ ∧
      ∃ ls, links (portTree "1") = .ok ls ∧ ∃ k : Nat, ls[k]? = some none ∧
        ∃ config₂, removeLink config₁ k = .ok config₂ ∧ links config₂ = .ok ls :=
  have h : addLink some (portTree "1") ⟨[(1, "10.2.0.1"), (2, "10.2.0.2")], by decide⟩
      ⟨[], List.nodup_nil⟩ = .ok (addLink some (portTree "1")
        ⟨[(1, "10.2.0.1"), (2, "10.2.0.2")], by decide⟩ ⟨[], List.nodup_nil⟩).dom := by decide
  ⟨_, h, _, rfl, removeLink_undoes_addLink portTree_tracked rfl h⟩

end Crmsh
