import Crmsh.LinkManager.Slots
import Crmsh.LinkManager.Check

/-!
# The contracts of the link manager's operations

What `links()` returns after a call, compared with what it returned before, on a
well-formed tree.

* **`updateNodeAddr_contract`**: `update_node_addr(n, M)` on a tree with unique addresses,
  with valid and distinct new addresses each the node's own or free, returns when every key
  of `M` is a node of link `n`, and `links()` is the old list with those nodes of link `n`
  at their new addresses; a key that is not a node of the link makes it raise `ValueError`
  before anything is written.
* **`addLink_contract`**: `add_link(M, options)` raises the capacity error when every slot is
  taken and `MissingNodesException` with exactly the members `M` leaves out, both on the
  tree as it was; otherwise, for valid, distinct and unused addresses and options that
  load, it fills the lowest free slot with a link of every member at its address in `M`
  and with the given options.  It needs `links()` to return and a `totem` section, which
  well-formedness does not give (`addLink_fails_off_knet_or_without_totem`).
* **`removeLink_contract`**: `remove_link(n)` on the only link raises and leaves the
  tree; on any other present link it returns, and `links()` is the old list with slot `n`
  empty, the tree staying well-formed for the other links.  It asserts that the tree has a
  `totem` section only after deleting the ring keys, so a well-formed tree without one
  raises half-written (`removeLink_fails_without_totem`).
-/

namespace Crmsh

/-! ## The two-link tree -/

/-- The node list of `portTree`: links 0 and 1 on nodes 1 and 2. -/
theorem portTree_shape : NodeListShape (portTree "1") twoLinkEntries [1, 2] {0, 1} :=
  ⟨by decide, by decide, by decide, by decide, by decide, by decide, by decide⟩

theorem portTree_wellFormed : WellFormed (portTree "1") {0, 1} :=
  ⟨⟨twoLinkEntries, [1, 2], portTree_shape⟩, ⟨0, by decide⟩,
    .inr ⟨[[("linknumber", .str "1"), ("mcastport", .str "5405")]], by decide,
      fun r hr => by
        rw [List.mem_singleton.1 hr]
        exact ⟨⟨1, by decide, rfl⟩, ⟨"mcastport", by decide, rfl⟩⟩, by decide⟩⟩

/-! ## `remove_link` -/

/-- **`remove_link` removes exactly one link and renumbers nothing.**  On a well-formed
tree with a `totem` section and a present link `n`: when `n` is the only link the call
raises with the tree untouched; otherwise it returns, `links()` is the old list with slot
`n` set to `None`, and the tree is well-formed for the other links, so no interface record
of link `n` remains. -/
theorem removeLink_contract {config : Dict} {S : Finset Nat} {ls : List (Option Link)} {n : Nat}
    {link : Link} (hwf : WellFormed config S) (htotem : Dict.hasKey config "totem")
    (hl : links config = .ok ls) (hn : ls[n]? = some (some link)) :
    (S = {n} → ∃ e, removeLink config n = .raised e config) ∧
    (S ≠ {n} → ∃ config', removeLink config n = .ok config' ∧
      links config' = .ok (ls.set n none) ∧ WellFormed config' (S.erase n)) := by
  obtain ⟨es, ids, hs⟩ := hwf.shape
  obtain ⟨-, hnS, -, hguard⟩ := existingLink_guard hs hl hn
  have hcount := present_count hs hl
  constructor
  · rintro rfl
    have : (ls.filter Option.isSome).length ≤ 1 := by simp [hcount]
    exact ⟨.valueError "Cannot remove the last link.", by simp only [removeLink, hguard, this, if_true]⟩
  intro hS
  have hmany : ¬ (ls.filter Option.isSome).length ≤ 1 := by
    have h₁ : S.card ≠ 1 := fun h => hS <| by
      obtain ⟨a, rfl⟩ := Finset.card_eq_one.1 h
      rw [Finset.mem_singleton.1 hnS]
    have h₂ : 0 < S.card := Finset.card_pos.2 ⟨n, hnS⟩
    omega
  have hdel := delItemAll_dicts fun e he => hs.hasKey_ring (Int.natCast_nonneg n) (by simpa using hnS) he
  have hs₁ := hs.setNodes_eraseRing (Int.natCast_nonneg n)
  simp only [Int.toNat_natCast] at hs₁
  obtain ⟨totem, htotem⟩ := Dict.hasKey_iff.1 htotem
  obtain ⟨t, rs, rfl, hrs, hi⟩ := InterfaceRecords.totem (RecordsOf.nil S) hwf.records htotem
  obtain ⟨-, -, hknet, -⟩ := links_ok_nodes hl (by rintro rfl; cases hn)
  have hL := interfaceList_of_totem htotem hi
  rw [hs.links_eq hknet, interfaceOptions_eq hL] at hl
  obtain ⟨keyed, hkeyed, hmerge⟩ := Except.bind_eq_ok.1 hl
  -- `links()` of a tree with the entries and the records `remove_link` leaves
  have hlinks : ∀ config', NodeListShape config' (es.map (Dict.erase · (ringKey n))) ids (S.erase n) →
      totemTransport config' = .ok (.str "knet") →
      InterfaceList config'
        ((rs.filter fun r => Dict.get? r "linknumber" ≠ some (.str (pyStr n))).map .dict) →
      links config' = .ok (ls.set n none) := fun config' hs' ht' hL' => by
    rw [hs'.links_eq ht', interfaceOptions_eq hL', shapeSlots_eraseRing,
      recordKeys_keepOther hrs.each hkeyed]
    exact mergeOptions_set hmerge (fun i hi => optionRecord_filter fun p _ hp => by simp [hp, hi]) rfl
  have hwf' : ∀ {config'}, removeLink config n = .ok config' → WellFormed config' (S.erase n) :=
    fun h => by simpa using (hwf.removeLink (Int.natCast_nonneg n) h).2
  have htotem₁ :=
    (@get?_setNodes_totem config ((es.map (Dict.erase · (ringKey n))).map .dict)).trans htotem
  rcases hi with ⟨hnone, rfl⟩ | hsome
  · -- no `totem.interface`: the records step returns the tree as it is
    have hok : removeLink config n =
        .ok (setNodes config ((es.map (Dict.erase · (ringKey n))).map .dict)) := by
      simp only [removeLink, hguard, hmany, if_false, hs.nodes, hdel]
      rw [removeRecords, htotem₁]
      simp [Value.contains, Dict.hasKey, hnone]
    exact ⟨_, hok, hlinks _ hs₁ (totemTransport_setNodes.trans hknet) hL.setNodes, hwf' hok⟩
  · -- the records of link `n` are dropped
    have hok : removeLink config n =
        .ok (Dict.set (setNodes config ((es.map (Dict.erase · (ringKey n))).map .dict)) "totem"
          ((Value.dict t).setItem "interface"
            (.list ((rs.filter fun r => Dict.get? r "linknumber" ≠ some (.str (pyStr n))).map
              .dict)))) := by
      simp only [removeLink, hguard, hmany, if_false, hs.nodes, hdel]
      rw [removeRecords, htotem₁]
      simp [Value.contains, Dict.hasKey, hsome, Value.getItem, keepOtherRecords_records hrs.each]
    refine ⟨_, hok, hlinks _ (hs₁.of_getPath (getPath_set_ne (by decide)))
      ((totemTransport_setItem htotem₁).trans (totemTransport_setNodes.trans hknet)) (.inl ?_),
      hwf' hok⟩
    simp [getPath_of_get? Dict.get?_set_self, Value.setItem, Value.getItem]

/-- On the two-link tree with a record for link 1, `remove_link(1)` returns and empties
slot 1. -/
theorem portTree_removes_link_one :
    ∃ ls link, links (portTree "1") = .ok ls ∧ ls[1]? = some (some link) ∧
      (({0, 1} : Finset Nat) = {1} → ∃ e, removeLink (portTree "1") (1 : Nat) = .raised e (portTree "1")) ∧
      (({0, 1} : Finset Nat) ≠ {1} → ∃ config', removeLink (portTree "1") (1 : Nat) = .ok config' ∧
        links config' = .ok (ls.set 1 none) ∧ WellFormed config' (({0, 1} : Finset Nat).erase 1)) :=
  ⟨_, _, rfl, rfl, removeLink_contract portTree_wellFormed rfl rfl rfl⟩

/-- The nodes of `portTree` in a tree without a `totem` section. -/
def noTotemTree : Dict := [("nodelist", .dict [("node", .list (twoLinkEntries.map .dict))])]

/-- **A well-formed tree without `totem`.**  Link 1 is present and not the only link, yet
`remove_link(1)` deletes `ring1_addr` from every entry and then fails `assert 'totem' in
self._config`: it raises, and on a changed tree. -/
theorem removeLink_fails_without_totem :
    WellFormed noTotemTree {0, 1} ∧
    (links noTotemTree).map (·[1]?.map Option.isSome) = .ok (some true) ∧
    removeLink noTotemTree 1 = .raised .assertionError (setNodes noTotemTree [
      .dict [("ring0_addr", .str "10.0.0.1"), ("name", .str "alpha"), ("nodeid", .str "1")],
      .dict [("ring0_addr", .str "10.0.0.2"), ("name", .str "beta"), ("nodeid", .str "2")]]) :=
  ⟨⟨⟨twoLinkEntries, [1, 2], ⟨by decide, by decide, by decide, by decide, by decide, by decide,
    by decide⟩⟩, ⟨0, by decide⟩, .inl ⟨"totem", by decide⟩⟩, by decide, by decide⟩


/-! ## `update_node_addr` -/

/-- A node with the address `node_addresses` gives its id, if it gives one. -/
def withAddr (addrs : PyDict Int String) (node : LinkNode) : LinkNode :=
  match addrs.get? node.nodeid with
  | some a => { node with addr := .str a }
  | none => node

theorem ringValues_writeAddr {n : Int} {addrs : PyDict Int String} {i : Nat} (h : ringKey i ≠ ringKey n)
    (es : List Dict) : ringValues (es.map (writeAddr n addrs)) i = ringValues es i := by
  simp [ringValues, get?_writeAddr_of_ne (Ne.symm h)]

theorem entryNames_writeAddr {n : Int} {addrs : PyDict Int String} (es : List Dict) :
    entryNames (es.map (writeAddr n addrs)) = entryNames es := by
  simp [entryNames, get?_writeAddr_ne fun i => ringKey_ne_name i]

/-- The nodes `links()` reads off the written entries are the old ones with their new
addresses. -/
theorem zipWith3_writeAddr {n : Nat} {addrs : PyDict Int String} :
    ∀ {es : List Dict} {ids : List Int} {names : List Value},
      (es.map Value.dict).mapM entryNodeid = .ok ids →
      List.zipWith3 LinkNode.mk ids names (ringValues (es.map (writeAddr n addrs)) n) =
        (List.zipWith3 LinkNode.mk ids names (ringValues es n)).map (withAddr addrs)
  | [], ids, names, h => by simp [ringValues, List.zipWith3]
  | e :: es, ids, names, h => by
    rw [List.map_cons, mapM_eq_ok] at h
    cases h with
    | @cons _ id _ ids hid hrest =>
      cases names with
      | nil => simp [ringValues, List.zipWith3]
      | cons name names =>
        have ih := @zipWith3_writeAddr n addrs es ids names (mapM_eq_ok.2 hrest)
        simp only [ringValues, List.map_cons, List.zipWith3, List.map] at ih ⊢
        rw [ih]
        cases ha : addrs.get? id <;> simp [writeAddr, hid, ha, withAddr]

/-- **`links()` after link `n`'s addresses are written**: the old list with slot `n`
replaced by what the rewritten entries' slot `n` loads to. -/
theorem links_writeAddr {config : Dict} {es : List Dict} {ids : List Int} {S S' : Finset Nat}
    {ls : List (Option Link)} {n : Nat} {addrs : PyDict Int String} {L : List Value}
    {keyed : List (Int × Value)} {b : Option Link}
    (hs' : NodeListShape (setNodes config ((es.map (writeAddr n addrs)).map .dict))
      (es.map (writeAddr n addrs)) ids S')
    (hknet : totemTransport config = .ok (.str "knet")) (hL : InterfaceList config L)
    (hkeyed : L.mapM recordKey = .ok keyed)
    (hmerge : mergeOptions keyed (shapeSlots es ids (entryNames es) S) = .ok ls)
    (hS : ∀ i, i ≠ n → (i ∈ S' ↔ i ∈ S))
    (hn : slotOptions keyed n ((rosterOf (es.map (writeAddr n addrs)) ids (entryNames es) S' n).map
      fun ns => { linknumber := n, nodes := ns }) = .ok b) :
    links (setNodes config ((es.map (writeAddr n addrs)).map .dict)) = .ok (ls.set n b) := by
  have hne : ∀ i : Nat, i ≠ n → ringKey i ≠ ringKey n := fun i hi h =>
    hi (by exact_mod_cast ringKey_injective h)
  rw [hs'.links_eq (totemTransport_setNodes.trans hknet), interfaceOptions_eq hL.setNodes, hkeyed,
    shapeSlots_set (entryNames_writeAddr es) hS fun i hi => ringValues_writeAddr (hne i hi) es]
  exact mergeOptions_set hmerge (fun _ _ => rfl) hn

variable {α : Type} [DecidableEq α] {canon : String → Option α}

/-- **The check passes** on pairs for nodes of the roster it reads, with valid and
pairwise distinct addresses, each the node's own or one no node of a present link uses. -/
theorem checkPasses_of {ls : List (Option Link)} {n : Nat} {nodes : List LinkNode}
    {m : α → Option Int} {items : List (Int × String)}
    (hm : existingAddrNodeMap canon ls = .ok m) (hR : rosterAt ls n = .ok nodes)
    (hold : ∀ node ∈ nodes, ∃ o, addrCanon canon node.addr = .ok o)
    (hmem : ∀ p ∈ items, p.1 ∈ nodes.map LinkNode.nodeid)
    (hvalid : ∀ p ∈ items, ∃ c, canon p.2 = some c)
    (hdistinct : (items.map fun p => canon p.2).Nodup)
    (hfree : ∀ p ∈ items, ∀ node ∈ nodes, node.nodeid = p.1 → ∀ c, canon p.2 = some c →
      addrCanon canon node.addr = .ok (some c) ∨
        ∀ l, some l ∈ ls → ∀ node' ∈ l.nodes, addrCanon canon node'.addr ≠ .ok (some c)) :
    CheckPasses canon (rosterAt ls n) m items := by
  rw [hR]
  refine ⟨fun p hp => ?_, fun p hp c hc => ?_, ?_⟩
  · obtain ⟨node, hnode, hid⟩ := List.mem_map.1 (hmem p hp)
    obtain ⟨found, hf⟩ : ∃ found, nodes.find? (·.nodeid = p.1) = some found :=
      Option.isSome_iff_exists.1 (List.find?_isSome.2 ⟨node, hnode, by simp [hid]⟩)
    obtain ⟨c, hc⟩ := hvalid p hp
    obtain ⟨o, ho⟩ := hold found (List.mem_of_find?_eq_some hf)
    exact ⟨(c, decide (o ≠ some c)), pairCheck_eq_ok.2 ⟨found, hf, ipAddress_str_ok.2 hc, o, ho, rfl⟩⟩
  · obtain ⟨found, hf, hip, o, ho, hch⟩ := pairCheck_eq_ok.1 hc
    rcases hfree p hp found (List.mem_of_find?_eq_some hf) (by simpa using List.find?_some hf) c
      (ipAddress_str_ok.1 hip) with hsame | hunused
    · rw [hsame] at ho
      cases ho
      simp at hch
    · cases hmc : m c with
      | none => rfl
      | some v =>
        obtain ⟨l, hl', node', hnode', hq⟩ := existingAddrNodeMap_sound hm (c := c) (by simp [hmc])
        exact absurd hq (hunused l hl' node' hnode')
  · refine nodup_filterMap_of (g := fun p => canon p.2) (fun p c h => ?_) hdistinct
    obtain ⟨-, -, hip, -⟩ := pairCheck_eq_ok.1 (newAddr_eq_some.1 h)
    exact ipAddress_str_ok.1 hip

/-- **`update_node_addr` moves the nodes of one link and nothing else.**  On a well-formed
tree with unique addresses and a present link `n`, take a map whose pairs for nodes of
link `n` carry valid, pairwise distinct addresses, each the node's own address or one no
node of a present link uses.  When every key of the map is a node of link `n`, the call
returns and `links()` is the old list with link `n`'s nodes at their new addresses.  When
some key is not, it raises `ValueError("Unknown nodeid …")` for a key that is not on the
link, and leaves the tree as it was. -/
theorem updateNodeAddr_contract {config : Dict} {S : Finset Nat} {ls : List (Option Link)}
    {n : Nat} {link : Link} {addrs : PyDict Int String}
    (hwf : WellFormed config S) (hu : UniqueAddrs canon config)
    (hl : links config = .ok ls) (hn : ls[n]? = some (some link))
    (hvalid : ∀ p ∈ addrs.items, p.1 ∈ link.nodes.map LinkNode.nodeid → ∃ c, canon p.2 = some c)
    (hdistinct : ((addrs.items.filter (·.1 ∈ link.nodes.map LinkNode.nodeid)).map
      fun p => canon p.2).Nodup)
    (hfree : ∀ p ∈ addrs.items, ∀ node ∈ link.nodes, node.nodeid = p.1 → ∀ c, canon p.2 = some c →
      addrCanon canon node.addr = .ok (some c) ∨
        ∀ l, some l ∈ ls → ∀ node' ∈ l.nodes, addrCanon canon node'.addr ≠ .ok (some c)) :
    ((∀ p ∈ addrs.items, p.1 ∈ link.nodes.map LinkNode.nodeid) →
      ∃ config', updateNodeAddr canon config n addrs = .ok config' ∧
        links config' = .ok (ls.set n (some { link with nodes := link.nodes.map (withAddr addrs) }))) ∧
    ((∃ p ∈ addrs.items, p.1 ∉ link.nodes.map LinkNode.nodeid) →
      ∃ id ∉ link.nodes.map LinkNode.nodeid, updateNodeAddr canon config n addrs =
        .raised (.valueError ("Unknown nodeid " ++ pyStr id ++ ".")) config) := by
  obtain ⟨es, ids, hs⟩ := hwf.shape
  obtain ⟨hn8, hnS, hex, hguard⟩ := existingLink_guard hs hl hn
  -- the index is built, and the pairs of members pass the check in any sub-list
  have hvalidAll := hu.links_valid hl
  obtain ⟨m, hm⟩ := existingAddrNodeMap_ok hvalidAll
  have hR : rosterAt ls n = .ok link.nodes := rosterAt_of_existingLink hex
  have hk : ∀ items : List (Int × String), ∀ pair ∈ items, ∀ c,
      pairCheck canon (rosterAt ls n) pair = .ok (c, false) → (m c).isSome :=
    fun _ _ _ _ hc => existingAddrNodeMap_knows_kept hm hc
  have hpasses : ∀ pre : List (Int × String), pre.Sublist addrs.items →
      (∀ p ∈ pre, p.1 ∈ link.nodes.map LinkNode.nodeid) → CheckPasses canon (rosterAt ls n) m pre := by
    intro pre hsub hmem
    have hpre : pre.filter (·.1 ∈ link.nodes.map LinkNode.nodeid) = pre :=
      List.filter_eq_self.2 fun p hp => by simpa using hmem p hp
    refine checkPasses_of hm hR (hvalidAll link (List.getElem?_mem hn)) hmem
      (fun p hp => hvalid p (hsub.subset hp) (hmem p hp)) ?_ fun p hp => hfree p (hsub.subset hp)
    rw [← hpre]
    exact hdistinct.sublist ((hsub.filter _).map _)
  refine ⟨fun hall => ?_, fun ⟨p, hp, hnot⟩ => ?_⟩
  · -- every key is a member: the check passes and the loop writes
    obtain ⟨m', hm'⟩ := (upsertCheck_passes_iff (hk addrs.items)).2
      (hpasses _ (List.Sublist.refl _) hall)
    have hwrite : updateNodeAddr canon config n addrs =
        .ok (setNodes config ((es.map (writeAddr n addrs)).map .dict)) := by
      rw [updateNodeAddr, hguard]
      simp only [upsertNodeAddrImpl, hm, bind, Except.bind, hm', hs.nodes,
        writeNodeAddrs_dicts fun e he => (hs.nodeid_mem he).imp fun _ h => h.2]
    refine ⟨_, hwrite, ?_⟩
    -- `links()` changes in slot `n` only, to the same link at the new addresses
    obtain ⟨rs, keyed, -, hL, hknet, hkeyed, hmerge⟩ := hwf.links_merge hs hl
    obtain ⟨a, ha, hopt⟩ := mergeOptions_getElem? hmerge hn
    simp only [shapeSlots, List.getElem?_map, List.getElem?_range hn8, Option.map_some',
      Option.some.injEq, rosterOf, hnS, if_true] at ha
    subst ha
    refine links_writeAddr (@NodeListShape.setNodes_writeAddr _ _ _ _ n addrs hs fun i _ h => by
      rwa [show i = n by exact_mod_cast ringKey_injective h]) hknet hL hkeyed hmerge
      (fun _ _ => Iff.rfl) ?_
    simp only [rosterOf, hnS, if_true, zipWith3_writeAddr hs.nodeids,
      sortByNodeid_map (f := withAddr addrs) (fun node => by unfold withAddr; split <;> rfl),
      Option.map_some']
    rw [slotOptions_nodes hopt]
    exact slotOptions_setNodes hopt _
  · -- the check raises at the first key that is not a member, before any write
    obtain ⟨id, hid, hcheck⟩ := upsertCheck_unknown hR (hk _) (hpasses _ (List.takeWhile_sublist _)
      fun _ hq => by simpa using List.mem_takeWhile_imp hq) ⟨p, hp, hnot⟩
    refine ⟨id, hid, ?_⟩
    rw [updateNodeAddr, hguard]
    simp only [upsertNodeAddrImpl, hm, bind, Except.bind, hcheck]

/-- The map moving node 1 of link 1 to `10.1.0.9`. -/
def moveAlphaLinkOne : PyDict Int String := ⟨[(1, "10.1.0.9")], by decide⟩

theorem forall_some_mem {ls : List (Option Link)} {P : Link → Prop} (h : ∀ o ∈ ls, ∀ l ∈ o, P l) :
    ∀ l, some l ∈ ls → P l := fun l hl => h _ hl l rfl

/-- Moving node 1 of link 1 of the two-link tree to a fresh address. -/
theorem portTree_moves_alpha :
    ∃ ls link, links (portTree "1") = .ok ls ∧ ls[1]? = some (some link) ∧
      ((∀ p ∈ moveAlphaLinkOne.items, p.1 ∈ link.nodes.map LinkNode.nodeid) →
        ∃ config', updateNodeAddr some (portTree "1") (1 : Nat) moveAlphaLinkOne = .ok config' ∧
          links config' = .ok (ls.set 1
            (some { link with nodes := link.nodes.map (withAddr moveAlphaLinkOne) }))) ∧
      ((∃ p ∈ moveAlphaLinkOne.items, p.1 ∉ link.nodes.map LinkNode.nodeid) →
        ∃ id ∉ link.nodes.map LinkNode.nodeid,
          updateNodeAddr some (portTree "1") (1 : Nat) moveAlphaLinkOne =
            .raised (.valueError ("Unknown nodeid " ++ pyStr id ++ ".")) (portTree "1")) :=
  ⟨_, _, rfl, rfl, updateNodeAddr_contract portTree_wellFormed
    ⟨_, _, _, portTree_shape, AddrsUnique.of_nodup (by decide) (by decide)⟩ rfl rfl
    (fun _ _ _ => ⟨_, rfl⟩) (by decide)
    (fun p hp _ _ _ c hc => by
      obtain rfl : p = (1, "10.1.0.9") := List.mem_singleton.1 hp
      cases hc
      exact .inr (forall_some_mem (by decide)))⟩


/-! ## `add_link` -/

/-- `update_link` returns on a present link of a tree with a `totem` section and records
in place, for options it can update that load. -/
theorem updateLink_returns {config : Dict} {ls : List (Option Link)} {n : Nat} {link : Link}
    {options : PyDict String (Option String)} {P : List Dict → Prop}
    (hl : links config = .ok ls) (hn8 : n < knetLinkNumLimit) (hn : ls[n]? = some (some link))
    (hnames : ∀ p ∈ options.items, p.1 ∈ linkOptionsUpdatable.map LinkField.name)
    (hload : ∃ l, link.loadOptions (optionsSource options) = .ok l)
    (htotem : Dict.hasKey config "totem") (hr : InterfaceRecords P config) :
    ∃ config', updateLink config n options = .ok config' := by
  obtain ⟨l', hl'⟩ := hload
  obtain ⟨totem, ht⟩ := Dict.hasKey_iff.1 htotem
  obtain ⟨t, rs, rfl, -, hi⟩ := InterfaceRecords.totem (P := fun _ => True) trivial
    (hr.mono fun _ _ => trivial) ht
  have hint := interfacesOf_dict hi
  have hnodes : options.get? "nodes" = none := by
    cases h : options.get? "nodes" with
    | none => rfl
    | some v =>
      exact absurd (hnames _ (PyDict.get?_eq_some.1 h))
        (by show "nodes" ∉ linkOptionsUpdatable.map LinkField.name; decide)
  have hfind : options.items.find? (fun p => p.1 ∉ linkOptionsUpdatable.map LinkField.name) = none :=
    List.find?_eq_none.2 fun p hp => by simpa using hnames p hp
  exact ⟨_, by simp only [updateLink, hl, existingLink_of_getElem? hn8 hn, bind, Except.bind, hnodes,
    Option.isSome_none, hfind, hl', ht, hint, findRecord_dicts, Bool.false_eq_true, if_false, Except.map]; rfl⟩

/-- With every slot taken, `add_link` raises the capacity error and leaves the tree. -/
theorem addLink_full {config : Dict} {ls : List (Option Link)} {addrs : PyDict Int String}
    {options : PyDict String (Option String)} (hl : links config = .ok ls) (hfull : ∀ o ∈ ls, o.isSome) :
    addLink canon config addrs options = .raised (.valueError
      ("Cannot add a new link. The maximum number of links " ++ "supported is " ++
        pyStr knetLinkNumLimit ++ ".")) config := by
  have : ls.findIdx? Option.isNone = none :=
    List.findIdx?_eq_none_iff.2 fun o ho => by simpa using hfull o ho
  simp only [addLink, hl, this]

/-- The link whose nodes `add_link` copies has the members' ids. -/
theorem findSome_nodeids {config : Dict} {es : List Dict} {ids : List Int} {S : Finset Nat}
    {ls : List (Option Link)} {first : Link} (hs : NodeListShape config es ids S)
    (hl : links config = .ok ls) (hfirst : ls.findSome? id = some first) :
    (first.nodes.map LinkNode.nodeid).Perm ids := by
  obtain ⟨names, hn, hr⟩ := links_rosters hs hl
  obtain ⟨a, ha, hfa⟩ := List.exists_of_findSome?_eq_some hfirst
  cases hfa
  obtain ⟨j, hj⟩ := List.mem_iff_getElem?.1 ha
  exact slot_nodeids hs hn hr hj

/-- A well-formed tree has a present link for `add_link` to copy. -/
theorem findSome_of_wellFormed {config : Dict} {es : List Dict} {ids : List Int} {S : Finset Nat}
    {ls : List (Option Link)} (hwf : WellFormed config S) (hs : NodeListShape config es ids S)
    (hl : links config = .ok ls) : ∃ first, ls.findSome? id = some first := by
  obtain ⟨j, hj⟩ := hwf.present
  obtain ⟨names, -, hr⟩ := links_rosters hs hl
  have hlen : ls.length = knetLinkNumLimit := by simpa [rosters] using congrArg List.length hr
  obtain ⟨s, hs'⟩ : ∃ s, ls[j]? = some s :=
    ⟨_, List.getElem?_eq_getElem (by rw [hlen]; exact hs.within j hj)⟩
  have := (slot_isSome_iff hr hs').2 hj
  exact Option.isSome_iff_exists.1
    (List.findSome?_isSome_iff.2 ⟨s, List.getElem?_mem hs', by simpa using this⟩)

theorem findIdx_isNone_of_mem {ls : List (Option Link)} (h : ∃ o ∈ ls, o = none) :
    ∃ k, ls.findIdx? Option.isNone = some k := by
  obtain ⟨o, ho, rfl⟩ := h
  exact Option.isSome_iff_exists.1 (List.findIdx?_isSome.trans (List.any_eq_true.2 ⟨none, ho, rfl⟩))

/-- With a slot free and a member left out, `add_link` raises `MissingNodesException` with
the members left out, and leaves the tree. -/
theorem addLink_missing {config : Dict} {es : List Dict} {ids : List Int} {S : Finset Nat}
    {ls : List (Option Link)} {addrs : PyDict Int String} {options : PyDict String (Option String)}
    (hwf : WellFormed config S) (hs : NodeListShape config es ids S) (hl : links config = .ok ls)
    (hfree : ∃ o ∈ ls, o = none) (hmiss : ∃ id ∈ ids, addrs.get? id = none) :
    ∃ missing, addLink canon config addrs options = .raised (.missingNodes missing) config ∧
      missing.Perm (ids.filter fun id => (addrs.get? id).isNone) := by
  obtain ⟨k, hk⟩ := findIdx_isNone_of_mem hfree
  obtain ⟨first, hfirst⟩ := findSome_of_wellFormed hwf hs hl
  have hperm := (findSome_nodeids hs hl hfirst).filter fun id => (addrs.get? id).isNone
  have hne : (first.nodes.map LinkNode.nodeid).filter (fun id => (addrs.get? id).isNone) ≠ [] := by
    obtain ⟨id, hid, hnone⟩ := hmiss
    exact List.ne_nil_of_mem (hperm.mem_iff.2 (List.mem_filter.2 ⟨hid, by simp [hnone]⟩))
  exact ⟨_, by simp only [addLink, hl, hk, hfirst, ne_eq, hne, not_false_eq_true, if_true], hperm⟩


/-- Nodes whose every id is a key of `node_addresses` take their addresses from it alone. -/
theorem map_withAddr_zipWith3 {addrs : PyDict Int String} :
    ∀ {ids : List Int} {names vs vs' : List Value}, (∀ id ∈ ids, (addrs.get? id).isSome) →
      vs.length = vs'.length →
      (List.zipWith3 LinkNode.mk ids names vs).map (withAddr addrs) =
        (List.zipWith3 LinkNode.mk ids names vs').map (withAddr addrs)
  | [], _, _, _, _, _ => by simp [List.zipWith3]
  | _ :: _, [], _, _, _, _ => by simp [List.zipWith3]
  | _ :: _, _ :: _, [], [], _, _ => by simp [List.zipWith3]
  | _ :: _, _ :: _, [], _ :: _, _, h => by simp at h
  | _ :: _, _ :: _, _ :: _, [], _, h => by simp at h
  | id :: ids, _ :: names, _ :: vs, _ :: vs', h, hlen => by
    obtain ⟨a, ha⟩ := Option.isSome_iff_exists.1 (h id (List.mem_cons_self _ _))
    simp only [List.zipWith3, List.map_cons, withAddr, ha, List.cons.injEq, true_and]
    exact map_withAddr_zipWith3 (fun id' h' => h id' (List.mem_cons_of_mem _ h')) (by simpa using hlen)

/-- **`add_link` adds one link.**  With a slot free, a `totem` section, every member given
exactly once, valid and distinct addresses that no present link uses, and options it can
update that load, the call returns; `links()` is the old list with the lowest free slot
`k` holding the new link, whose nodes are those of any present link at their new
addresses and whose options are the given ones. -/
theorem addLink_adds {config : Dict} {es : List Dict} {ids : List Int} {S : Finset Nat}
    {ls : List (Option Link)} {addrs : PyDict Int String} {options : PyDict String (Option String)}
    (hwf : WellFormed config S) (hs : NodeListShape config es ids S) (hu : UniqueAddrs canon config)
    (hl : links config = .ok ls)
    (hnames : ∀ p ∈ options.items, p.1 ∈ linkOptionsUpdatable.map LinkField.name)
    (hconv : ∃ l, ({} : Link).loadOptions (optionsSource options) = .ok l)
    (hfree : ∃ o ∈ ls, o = none) (htotem : Dict.hasKey config "totem")
    (hall : ∀ id ∈ ids, (addrs.get? id).isSome) (hkeys : ∀ p ∈ addrs.items, p.1 ∈ ids)
    (hvalid : ∀ p ∈ addrs.items, ∃ c, canon p.2 = some c)
    (hdistinct : (addrs.items.map fun p => canon p.2).Nodup)
    (hunused : ∀ p ∈ addrs.items, ∀ c, canon p.2 = some c →
      ∀ l, some l ∈ ls → ∀ node ∈ l.nodes, addrCanon canon node.addr ≠ .ok (some c)) :
    ∃ k link' config', ls[k]? = some none ∧ (∀ j < k, ∃ l, ls[j]? = some (some l)) ∧
      addLink canon config addrs options = .ok config' ∧
      links config' = .ok (ls.set k (some link')) ∧
      ({ linknumber := k, nodes := link'.nodes } : Link).loadOptions (optionsSource options) =
        .ok link' ∧
      ∀ (j : Nat) (l : Link), ls[j]? = some (some l) → link'.nodes = l.nodes.map (withAddr addrs) := by
  obtain ⟨k, hk⟩ := findIdx_isNone_of_mem hfree
  obtain ⟨first, hfirst⟩ := findSome_of_wellFormed hwf hs hl
  have hperm := findSome_nodeids hs hl hfirst
  have haddrs : ∀ node ∈ first.nodes, (addrs.get? node.nodeid).isSome := fun node hn =>
    hall _ (hperm.subset (List.mem_map_of_mem _ hn))
  obtain ⟨hkS, -, hs₁⟩ := hs.setNodes_addLink hl hk hfirst haddrs
  obtain ⟨names, -, hr⟩ := links_rosters hs hl
  have hlen : ls.length = knetLinkNumLimit := by simpa [rosters] using congrArg List.length hr
  obtain ⟨hklt, hknone, hbefore⟩ := List.findIdx?_eq_some_iff_getElem.1 hk
  have hk8 : k < knetLinkNumLimit := hlen ▸ hklt
  have hlsk : ls[k]? = some none := by
    rw [List.getElem?_eq_getElem hklt]
    simpa using hknone
  have hlow : ∀ j < k, ∃ l, ls[j]? = some (some l) := fun j hj => by
    obtain ⟨l, hl'⟩ := Option.ne_none_iff_exists'.1 (by simpa using hbefore j hj)
    exact ⟨l, by rw [List.getElem?_eq_getElem (by omega), hl']⟩
  -- the members are all given
  have hunspec : (first.nodes.map LinkNode.nodeid).filter (fun id => (addrs.get? id).isNone) = [] :=
    List.filter_eq_nil_iff.2 fun id hid => by simpa using Option.ne_none_iff_isSome.2 (hall id (hperm.subset hid))
  -- the check passes on the links with the blank link `k` in its slot
  set ls' := ls.set k (some (blankLink k first)) with hls'
  have hR : rosterAt ls' k = .ok (blankLink k first).nodes :=
    rosterAt_of_existingLink (existingLink_of_getElem? hk8 (List.getElem?_set_self hklt))
  have hblank : ∀ node ∈ (blankLink k first).nodes, node.addr = .str "" := by
    simp [blankLink]
  have hold : ∀ node ∈ (blankLink k first).nodes, ∃ o, addrCanon canon node.addr = .ok o :=
    fun node hnode => ⟨none, by rw [hblank node hnode]; rfl⟩
  obtain ⟨m, hm⟩ : ∃ m, existingAddrNodeMap canon ls' = .ok m :=
    existingAddrNodeMap_ok fun l hl' node hnode => by
      rcases List.mem_or_eq_of_mem_set hl' with hl' | heq
      · exact hu.links_valid hl l hl' node hnode
      · cases heq
        exact hold node hnode
  have hpass := checkPasses_of hm hR hold
    (fun p hp => by simpa [blankLink] using hperm.mem_iff.2 (hkeys p hp)) hvalid hdistinct
    fun p hp _ _ _ c hc => .inr fun l hl' node' hnode' hq => by
      rcases List.mem_or_eq_of_mem_set hl' with hl' | heq
      · exact hunused p hp c hc l hl' node' hnode' hq
      · cases heq
        rw [hblank node' hnode'] at hq
        cases hq
  obtain ⟨m', hm'⟩ := (upsertCheck_passes_iff fun _ _ _ hc => existingAddrNodeMap_knows_kept hm hc).2 hpass
  have hup : upsertNodeAddrImpl canon config ls' k addrs =
      .ok (setNodes config ((es.map (writeAddr k addrs)).map .dict)) := by
    simp only [upsertNodeAddrImpl, hm, bind, Except.bind, hm', hs.nodes,
      writeNodeAddrs_dicts fun e he => (hs.nodeid_mem he).imp fun _ h => h.2]
  -- `links()` of the written tree: slot `k` holds the new link, with no options
  obtain ⟨rs, keyed, hrs, hL, hknet, hkeyed, hmerge⟩ := hwf.links_merge hs hl
  set nodes := sortByNodeid
    (List.zipWith3 LinkNode.mk ids (entryNames es) (ringValues (es.map (writeAddr k addrs)) k))
  have hl₁ : links (setNodes config ((es.map (writeAddr k addrs)).map .dict)) =
      .ok (ls.set k (some { linknumber := k, nodes := nodes })) := by
    refine links_writeAddr hs₁ hknet hL hkeyed hmerge (fun i (hi : i ≠ k) => by simp [hi]) ?_
    simp [rosterOf, slotOptions, optionRecord_eq_none_of_not_mem hrs hkeyed hkS, nodes, pure,
      Except.pure]
  -- `update_link` then returns, and loads the options onto the new link
  have hl₁k : (ls.set k (some { linknumber := k, nodes := nodes }))[k]? =
      some (some { linknumber := k, nodes := nodes }) := List.getElem?_set_self hklt
  obtain ⟨config₂, hupd⟩ := updateLink_returns hl₁ hk8 hl₁k hnames
    (hconv.elim fun _ h => Link.loadOptions_ok_of h _)
    (by rwa [Dict.hasKey, get?_setNodes_totem]) hwf.records.setNodes
  obtain ⟨link', hload, hnodes', hl₂, -⟩ :=
    updateLink_sets_own_options_of hl₁ (hwf.records.setNodes.recordsFor hkS) hl₁k hupd
  refine ⟨k, link', config₂, hlsk, hlow, ?_, by rw [hl₂, List.set_set], by rwa [hnodes'],
    fun j l hj => ?_⟩
  · simp only [addLink, hl, hk, hfirst, hunspec, ne_eq, not_true_eq_false, if_false, hup]
    exact hupd
  · -- the nodes of any present link, at their new addresses
    rw [hnodes']
    obtain ⟨a, ha, hopt⟩ := mergeOptions_getElem? hmerge hj
    have hjS : j ∈ S := (slot_isSome_iff hr hj).1 rfl
    simp only [shapeSlots, List.getElem?_map, List.getElem?_range (slot_roster hr hj).1,
      Option.map_some', Option.some.injEq, rosterOf, hjS, if_true] at ha
    subst ha
    show sortByNodeid (List.zipWith3 LinkNode.mk ids (entryNames es)
      (ringValues (es.map (writeAddr k addrs)) k)) = _
    rw [slotOptions_nodes hopt, ← sortByNodeid_map fun node => by unfold withAddr; split <;> rfl,
      zipWith3_writeAddr hs.nodeids]
    exact congrArg sortByNodeid (map_withAddr_zipWith3 hall (by simp [ringValues]))

/-- **The contract of `add_link`.**  On a well-formed tree with members `ids`, unique
addresses and a `links()` that returns, for options it can update that load: with every
slot taken the call raises the capacity error; with a slot free and a member left out of
`M` it raises `MissingNodesException` carrying exactly the members left out; both leave the
tree.  With a slot free, a `totem` section, `M` giving exactly the members valid addresses,
pairwise distinct and used by no present link, it returns, and `links()` is the old list
with the lowest free slot `k` holding link `k`: every member as on any present link, at
its address in `M`, with the given options loaded on a link that had none. -/
theorem addLink_contract {config : Dict} {es : List Dict} {ids : List Int} {S : Finset Nat}
    {ls : List (Option Link)} {addrs : PyDict Int String} {options : PyDict String (Option String)}
    (hwf : WellFormed config S) (hs : NodeListShape config es ids S) (hu : UniqueAddrs canon config)
    (hl : links config = .ok ls)
    (hnames : ∀ p ∈ options.items, p.1 ∈ linkOptionsUpdatable.map LinkField.name)
    (hconv : ∃ l, ({} : Link).loadOptions (optionsSource options) = .ok l) :
    ((∀ o ∈ ls, o.isSome) →
      addLink canon config addrs options = .raised (.valueError
        ("Cannot add a new link. The maximum number of links " ++ "supported is " ++
          pyStr knetLinkNumLimit ++ ".")) config) ∧
    ((∃ o ∈ ls, o = none) → (∃ id ∈ ids, addrs.get? id = none) →
      ∃ missing, addLink canon config addrs options = .raised (.missingNodes missing) config ∧
        missing.Perm (ids.filter fun id => (addrs.get? id).isNone)) ∧
    ((∃ o ∈ ls, o = none) → Dict.hasKey config "totem" →
      (∀ id ∈ ids, (addrs.get? id).isSome) → (∀ p ∈ addrs.items, p.1 ∈ ids) →
      (∀ p ∈ addrs.items, ∃ c, canon p.2 = some c) → (addrs.items.map fun p => canon p.2).Nodup →
      (∀ p ∈ addrs.items, ∀ c, canon p.2 = some c →
        ∀ l, some l ∈ ls → ∀ node ∈ l.nodes, addrCanon canon node.addr ≠ .ok (some c)) →
      ∃ k link' config', ls[k]? = some none ∧ (∀ j < k, ∃ l, ls[j]? = some (some l)) ∧
        addLink canon config addrs options = .ok config' ∧
        links config' = .ok (ls.set k (some link')) ∧
        ({ linknumber := k, nodes := link'.nodes } : Link).loadOptions (optionsSource options) =
          .ok link' ∧
        ∀ (j : Nat) (l : Link), ls[j]? = some (some l) → link'.nodes = l.nodes.map (withAddr addrs)) :=
  ⟨addLink_full hl,
    addLink_missing hwf hs hl,
    fun hfree htotem hall hkeys hvalid hdistinct hunused =>
      addLink_adds hwf hs hu hl hnames hconv hfree htotem hall hkeys hvalid hdistinct hunused⟩

/-- The node entries of `twoNodeTree`. -/
def twoNodeEntries : List Dict :=
  [[("ring0_addr", .str "10.0.0.1"), ("name", .str "alpha"), ("nodeid", .str "1")],
    [("ring0_addr", .str "10.0.0.2"), ("name", .str "beta"), ("nodeid", .str "2")]]

/-- The map giving both nodes of `twoNodeTree` an address on a new link. -/
def linkOneAddrs : PyDict Int String := ⟨[(1, "10.0.1.1"), (2, "10.0.1.2")], by decide⟩

/-- The options `{'mcastport': '5407'}`. -/
def mcastportOption : PyDict String (Option String) := ⟨[("mcastport", some "5407")], by decide⟩

/-- Adding link 1 to the two-node tree of link 0. -/
theorem twoNodeTree_adds_link_one :
    ∃ ls, links twoNodeTree = .ok ls ∧
      ((∀ o ∈ ls, o.isSome) →
        addLink some twoNodeTree linkOneAddrs mcastportOption = .raised (.valueError
          ("Cannot add a new link. The maximum number of links " ++ "supported is " ++
            pyStr knetLinkNumLimit ++ ".")) twoNodeTree) ∧
      ((∃ o ∈ ls, o = none) → (∃ id ∈ [(1 : Int), 2], linkOneAddrs.get? id = none) →
        ∃ missing, addLink some twoNodeTree linkOneAddrs mcastportOption =
            .raised (.missingNodes missing) twoNodeTree ∧
          missing.Perm ([(1 : Int), 2].filter fun id => (linkOneAddrs.get? id).isNone)) ∧
      ((∃ o ∈ ls, o = none) → Dict.hasKey twoNodeTree "totem" →
        (∀ id ∈ [(1 : Int), 2], (linkOneAddrs.get? id).isSome) →
        (∀ p ∈ linkOneAddrs.items, p.1 ∈ [(1 : Int), 2]) →
        (∀ p ∈ linkOneAddrs.items, ∃ c, some p.2 = some c) →
        (linkOneAddrs.items.map fun p => some p.2).Nodup →
        (∀ p ∈ linkOneAddrs.items, ∀ c, some p.2 = some c →
          ∀ l, some l ∈ ls → ∀ node ∈ l.nodes, addrCanon some node.addr ≠ .ok (some c)) →
        ∃ k link' config', ls[k]? = some none ∧ (∀ j < k, ∃ l, ls[j]? = some (some l)) ∧
          addLink some twoNodeTree linkOneAddrs mcastportOption = .ok config' ∧
          links config' = .ok (ls.set k (some link')) ∧
          ({ linknumber := k, nodes := link'.nodes } : Link).loadOptions
            (optionsSource mcastportOption) = .ok link' ∧
          ∀ (j : Nat) (l : Link), ls[j]? = some (some l) →
            link'.nodes = l.nodes.map (withAddr linkOneAddrs)) := by
  have hs : NodeListShape twoNodeTree twoNodeEntries [1, 2] {0} :=
    ⟨by decide, by decide, by decide, by decide, by decide, by decide, by decide⟩
  exact ⟨_, rfl, addLink_contract ⟨⟨_, _, hs⟩, ⟨0, by decide⟩, .inl ⟨"interface", by decide⟩⟩ hs
    ⟨_, _, _, hs, AddrsUnique.of_nodup (by decide) (by decide)⟩ rfl (by decide) ⟨_, rfl⟩⟩

/-- `twoNodeTree` with `totem.transport` set to `udpu`. -/
def udpuNodeTree : Dict :=
  [("totem", .dict [("transport", .str "udpu")]),
    ("nodelist", .dict [("node", .list (twoNodeEntries.map .dict))])]

/-- **Two well-formed trees with unique addresses on which `add_link` breaks its
contract.**  On a `udpu` tree `links()` raises, so leaving node 2 out raises
`AssertionError`, not `MissingNodesException`; on a tree without `totem`, giving both nodes
fresh addresses for link 2 raises `AssertionError` from `update_link`, after the addresses
are written. -/
theorem addLink_fails_off_knet_or_without_totem :
    WellFormed udpuNodeTree {0} ∧ UniqueAddrs some udpuNodeTree ∧
    addLink some udpuNodeTree ⟨[(1, "10.0.1.1")], by decide⟩ ⟨[], List.nodup_nil⟩ =
      .raised .assertionError udpuNodeTree ∧
    WellFormed noTotemTree {0, 1} ∧ UniqueAddrs some noTotemTree ∧
    addLink some noTotemTree ⟨[(1, "10.2.0.1"), (2, "10.2.0.2")], by decide⟩ ⟨[], List.nodup_nil⟩ =
      .raised .assertionError (setNodes noTotemTree [
        .dict [("ring0_addr", .str "10.0.0.1"), ("ring1_addr", .str "10.1.0.1"),
          ("name", .str "alpha"), ("nodeid", .str "1"), ("ring2_addr", .str "10.2.0.1")],
        .dict [("ring0_addr", .str "10.0.0.2"), ("ring1_addr", .str "10.1.0.2"),
          ("name", .str "beta"), ("nodeid", .str "2"), ("ring2_addr", .str "10.2.0.2")]]) := by
  have hs : NodeListShape udpuNodeTree twoNodeEntries [1, 2] {0} :=
    ⟨by decide, by decide, by decide, by decide, by decide, by decide, by decide⟩
  have hs' : NodeListShape noTotemTree twoLinkEntries [1, 2] {0, 1} :=
    ⟨by decide, by decide, by decide, by decide, by decide, by decide, by decide⟩
  exact ⟨⟨⟨_, _, hs⟩, ⟨0, by decide⟩, .inl ⟨"interface", by decide⟩⟩,
    ⟨_, _, _, hs, AddrsUnique.of_nodup (by decide) (by decide)⟩, by decide,
    ⟨⟨_, _, hs'⟩, ⟨0, by decide⟩, .inl ⟨"totem", by decide⟩⟩,
    ⟨_, _, _, hs', AddrsUnique.of_nodup (by decide) (by decide)⟩, by decide⟩

end Crmsh
