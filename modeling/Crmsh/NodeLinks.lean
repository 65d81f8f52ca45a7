import Crmsh.NodeConfig

/-!
# A joining node and the link manager

`add_node_config` writes the new member's addresses as `ring0_addr`, `ring1_addr`, … in the
order of `ip_list`, whatever link numbers the cluster uses; the link manager expects every
entry to have an address for exactly the links the first entry has.  Where the two meet:

* **`addNodeConfig_tracked`** — when the links are `0 … len(ip_list) - 1`, the tree
  `add_node_config` saves keeps the link manager's invariant for the same links, the id
  `get_free_nodeid` picks being one no entry holds;
* **`addNodeConfig_breaks_links`** — when some link is numbered `len(ip_list)` or more,
  `add_node_config` still returns, and `links()` on what it saves raises `KeyError` for the
  first such link's address.
-/

namespace Crmsh

/-! ## The entry `add_node_config` writes -/

theorem Dict.get?_append_of_not_mem {d : Dict} {k : String} (h : k ∉ d.map Prod.fst) (d' : Dict) :
    Dict.get? (d ++ d') k = Dict.get? d' k := by
  induction d with
  | nil => rfl
  | cons p d ih =>
    obtain ⟨k', v'⟩ := p
    simp only [List.map_cons, List.mem_cons, not_or] at h
    simp [Ne.symm h.1, ih h.2]

theorem hasKey_newEntry {ipList : List String} {thisNode k : String} {nodeid : Int} :
    Dict.hasKey (newEntry ipList thisNode nodeid) k ↔
      (∃ i < ipList.length, ringKey (i : Nat) = k) ∨ k = "name" ∨ k = "nodeid" := by
  rw [Dict.hasKey_iff_mem, newEntry, List.map_append, ringEntries_keys]
  simp only [List.mem_append, List.mem_map, List.mem_range, List.map_cons, List.map_nil,
    List.mem_cons, List.not_mem_nil, or_false, eq_comm (a := k)]

/-- The new entry has `ring{i}_addr` for the first `len(ip_list)` links only. -/
theorem hasKey_newEntry_ring {ipList : List String} {thisNode : String} {nodeid : Int} (i : Nat) :
    Dict.hasKey (newEntry ipList thisNode nodeid) (ringKey i) ↔ i < ipList.length := by
  rw [hasKey_newEntry]
  simp [ringKey_injective.eq_iff, ringKey_ne_name, ringKey_ne_nodeid]

theorem hasKey_newEntry_name {ipList : List String} {thisNode : String} {nodeid : Int} :
    Dict.hasKey (newEntry ipList thisNode nodeid) "name" :=
  hasKey_newEntry.2 (by simp)

theorem entryNodeid_newEntry (ipList : List String) (thisNode : String) (nodeid : Int) :
    entryNodeid (.dict (newEntry ipList thisNode nodeid)) = .ok nodeid := by
  rw [entryNodeid_dict, newEntry,
    Dict.get?_append_of_not_mem (not_mem_ringEntries (k := "nodeid") (by decide) ipList)]
  simp

/-- Where the node list is a list of entries, `add_node_config` leaves it the same list
with the new entry last. -/
theorem appendEntry_eq_setNodes {dom : Dict} {vs : List Value}
    (hg : getPath dom "nodelist" "node" = .ok (.list vs)) (e : Dict) :
    nodeSlot dom = true ∧ appendEntry dom e = setNodes dom (vs ++ [.dict e]) := by
  obtain ⟨n, hn, hnode⟩ := getPath_nodes hg
  simp [nodeSlot, appendEntry, setNodes, hn, hnode, Value.setItem]

theorem mapM_entryNodeid_snoc {es : List Dict} {ids : List Int} {e : Dict} {nodeid : Int}
    (h : (es.map .dict).mapM entryNodeid = .ok ids) (hid : entryNodeid (.dict e) = .ok nodeid) :
    ((es ++ [e]).map .dict).mapM entryNodeid = .ok (ids ++ [nodeid]) := by
  rw [List.map_append, List.mapM_append, h, List.map_singleton, List.mapM_cons, hid, List.mapM_nil]
  rfl

/-! ## One address per link -/

section Shape

variable {dom : Dict} {es : List Dict} {ids : List Int} {S : Finset Nat}

/-- `get_all('nodelist.node.nodeid')` reads the entries' ids, where the entries stand in a
list. -/
theorem mapM_toInt_getAll_nodeid :
    ∀ {vs : List Value} {ids : List Int}, vs.mapM entryNodeid = .ok ids →
      (domQueryGetAll ["nodeid"] (.list vs)).mapM Value.toInt = .ok ids
  | [], ids, h => by
    rw [mapM_eq_ok, List.forall₂_nil_left_iff] at h
    subst h
    rfl
  | v :: vs, ids, h => by
    simp only [List.mapM_cons, Except.bind_eq_ok, Except.pure_eq_ok] at h
    obtain ⟨id, hid, ids', hrest, rfl⟩ := h
    cases v with
    | dict e =>
      rw [entryNodeid_dict] at hid
      split at hid
      next w hw =>
        cases w <;> simp only [Value.toInt, reduceCtorEq] at hid
        rw [domQueryGetAll_key_cons, domQueryGetAll_key hw, List.singleton_append, List.mapM_cons,
          show (Value.str _).toInt = .ok id from hid, mapM_toInt_getAll_nodeid hrest]
        rfl
      next => cases hid
    | _ => simp [entryNodeid, Value.getItem] at hid

/-- The id `get_free_nodeid` picks is none of the entries' ids. -/
theorem NodeListShape.not_mem_ids {nodeid : Int} (hs : NodeListShape dom es ids S)
    (hid : getFreeNodeid (confParserGetAll dom "nodelist.node.nodeid") = .ok nodeid) :
    nodeid ∉ ids := by
  rw [show "nodelist.node.nodeid" = "nodelist.node." ++ "nodeid" from rfl,
    confParserGetAll_entryKey hs.nodes (by decide)] at hid
  exact getFreeNodeid_not_mem (mapM_toInt_getAll_nodeid hs.nodeids) hid

/-- **Appending an entry keeps the shape**: an entry with a fresh integer id, a name and
the ring addresses of the same links. -/
theorem NodeListShape.snoc {e : Dict} {nodeid : Int} (hs : NodeListShape dom es ids S)
    (hfresh : nodeid ∉ ids) (hname : Dict.hasKey e "name")
    (hid : entryNodeid (.dict e) = .ok nodeid)
    (hrings : ∀ i < knetLinkNumLimit, Dict.hasKey e (ringKey i) ↔ i ∈ S) :
    NodeListShape (setNodes dom ((es ++ [e]).map .dict)) (es ++ [e]) (ids ++ [nodeid]) S where
  nodes := getPath_setNodes_nodelist hs.nodes
  nonempty := by simp
  nodeids := mapM_entryNodeid_snoc hs.nodeids hid
  distinct := List.nodup_append.2 ⟨hs.distinct, List.nodup_singleton _, by simpa using hfresh⟩
  named := List.forall_mem_append.2 ⟨hs.named, by simpa using hname⟩
  rings := List.forall_mem_append.2 ⟨hs.rings, by simpa using hrings⟩
  within := hs.within

end Shape

/-- **`add_node_config` keeps the link manager's invariant** when the links are numbered
`0 … len(ip_list) - 1`, so that the new node gives one address per link: the tree it
saves is tracked for the same links. -/
theorem addNodeConfig_tracked {corosyncIplist : List String} {isIpv6 : String → Bool}
    {localIpList : Bool → List String} {thisNode : String} {ipList : List String} {dom : Dict}
    {nodeid : Int} {S : Finset Nat} (ht : Tracked dom S)
    (hS : ∀ i < knetLinkNumLimit, i ∈ S ↔ i < ipList.length)
    (hfind : findConfiguredIp corosyncIplist isIpv6 localIpList ipList = .ok ())
    (hid : getFreeNodeid (confParserGetAll dom "nodelist.node.nodeid") = .ok nodeid) :
    ∃ d₁, addNodeConfig corosyncIplist isIpv6 localIpList thisNode ipList dom = .ok d₁ ∧
      Tracked d₁ S := by
  obtain ⟨es, ids, hs⟩ := ht.wellFormed.shape
  obtain ⟨hslot, happ⟩ := appendEntry_eq_setNodes hs.nodes (newEntry ipList thisNode nodeid)
  have hshape := hs.snoc (hs.not_mem_ids hid) hasKey_newEntry_name
    (entryNodeid_newEntry ipList thisNode nodeid)
    fun i hi => (hasKey_newEntry_ring i).trans (hS i hi).symm
  refine ⟨_, addNodeConfig_eq hfind hslot hid, ?_⟩
  rw [happ, ← List.map_singleton Value.dict, ← List.map_append]
  exact ⟨⟨⟨_, _, hshape⟩, ht.wellFormed.present, ht.wellFormed.records.setNodes⟩,
    hasKey_setNodes_totem.trans ht.totem, ht.transports.setNodes⟩

/-- A third node joins the two-link tree with an address for each link and takes the free
id 3: the tree stays tracked for links 0 and 1. -/
theorem gamma_joins_portTree_tracked :
    Tracked (portTree "1") {0, 1} ∧
      (∀ i < knetLinkNumLimit, i ∈ ({0, 1} : Finset Nat) ↔ i < ["10.0.0.3", "10.1.0.3"].length) ∧
      findConfiguredIp [] (fun _ => false) (fun _ => []) ["10.0.0.3", "10.1.0.3"] = .ok () ∧
      getFreeNodeid (confParserGetAll (portTree "1") "nodelist.node.nodeid") = .ok 3 ∧
      ∃ d₁, addNodeConfig [] (fun _ => false) (fun _ => []) "gamma" ["10.0.0.3", "10.1.0.3"]
          (portTree "1") = .ok d₁ ∧ Tracked d₁ {0, 1} :=
  have h₁ : ∀ i < knetLinkNumLimit, i ∈ ({0, 1} : Finset Nat) ↔ i < ["10.0.0.3", "10.1.0.3"].length := by
    decide
  have h₂ : findConfiguredIp [] (fun _ => false) (fun _ => []) ["10.0.0.3", "10.1.0.3"] = .ok () := by
    decide
  have h₃ : getFreeNodeid (confParserGetAll (portTree "1") "nodelist.node.nodeid") = .ok 3 := by
    decide
  ⟨portTree_tracked, h₁, h₂, h₃, addNodeConfig_tracked portTree_tracked h₁ h₂ h₃⟩

/-! ## Too few addresses -/

/-- Python's `[f(x) for x in xs]` raises what the first element that raises raises. -/
theorem mapM_error_at {α β ε : Type} {f : α → Except ε β} {a : α} {e : ε} {l₂ : List α} :
    ∀ {l₁ : List α}, (∀ x ∈ l₁, ∃ b, f x = .ok b) → f a = .error e →
      (l₁ ++ a :: l₂).mapM f = .error e
  | [], _, ha => by
    rw [List.nil_append, List.mapM_cons, ha]
    rfl
  | x :: l₁, h, ha => by
    obtain ⟨b, hb⟩ := h x (List.mem_cons_self _ _)
    rw [List.cons_append, List.mapM_cons, hb,
      mapM_error_at (fun y hy => h y (List.mem_cons_of_mem _ hy)) ha]
    rfl

/-- The loop over `range(n)` raises what the first index that raises raises. -/
theorem mapM_range_error {β ε : Type} {f : Nat → Except ε β} {j : Nat} {e : ε}
    (hok : ∀ i < j, ∃ b, f i = .ok b) (hj : f j = .error e) :
    ∀ {n : Nat}, j < n → (List.range n).mapM f = .error e
  | 0, h => absurd h (Nat.not_lt_zero _)
  | n + 1, h => by
    rw [List.range_succ, List.mapM_append]
    rcases Nat.lt_succ_iff_lt_or_eq.1 h with h | rfl
    · rw [mapM_range_error hok hj h]
      rfl
    · obtain ⟨bs, hbs⟩ := mapM_ok_of_forall fun i hi => hok i (List.mem_range.1 hi)
      rw [hbs, List.mapM_cons, hj]
      rfl

/-- `links()` on a knet tree whose node list is a list of entries: its node-list half, then
the options. -/
theorem links_eq_linkSlots {config : Dict} {first : Value} {rest : List Value}
    (ht : totemTransport config = .ok (.str "knet"))
    (hn : getPath config "nodelist" "node" = .ok (.list (first :: rest))) :
    links config = linkSlots first rest >>= interfaceOptions config := by
  simp [links, ht, hn, bind, Except.bind, pure, Except.pure]

/-- The node-list half of `links()` on entries with integer ids and names is its loop over
the eight slots. -/
theorem linkSlots_of_entries {e₀ : Dict} {es : List Dict} {ids : List Int}
    (hids : ((e₀ :: es).map .dict).mapM entryNodeid = .ok ids)
    (hnamed : ∀ e ∈ e₀ :: es, Dict.hasKey e "name") :
    linkSlots (.dict e₀) (es.map .dict) = (List.range knetLinkNumLimit).mapM
      (linkSlot (.dict e₀) ((e₀ :: es).map .dict) ids (entryNames (e₀ :: es))) := by
  have hid : ((e₀ :: es).map Value.dict).all (·.contains "nodeid") := by
    refine List.all_eq_true.2 fun x hx => ?_
    obtain ⟨e, he, rfl⟩ := List.mem_map.1 hx
    obtain ⟨n, -, hn⟩ := mapM_ok_of_mem hids (List.mem_map_of_mem _ he)
    exact hasKey_of_entryNodeid hn
  have hname : ((e₀ :: es).map Value.dict).all (·.contains "name") := by
    simpa [List.all_map, Function.comp_def, Value.contains] using hnamed
  have hnames : ((e₀ :: es).map Value.dict).mapM entryName = .ok (entryNames (e₀ :: es)) :=
    mapM_getItem_of_hasKey hnamed
  rw [List.map_cons] at hid hname hnames hids
  simp only [linkSlots, hid, hname, hids, hnames, List.map_cons, ne_eq, not_true_eq_false,
    if_true, if_false, bind, Except.bind, pure, Except.pure]

section Slots

variable {dom : Dict} {es : List Dict} {ids ids' : List Int} {S : Finset Nat} {e₀ e : Dict}
  {names : List Value} {i : Nat}

/-- A slot of the node list with an entry appended returns where the slot is no link, or
the entry has the slot's address. -/
theorem NodeListShape.linkSlot_snoc_ok (hs : NodeListShape dom es ids S) (he₀ : e₀ ∈ es)
    (hi : i < knetLinkNumLimit) (he : i ∈ S → Dict.hasKey e (ringKey i)) :
    ∃ s, linkSlot (.dict e₀) ((es ++ [e]).map .dict) ids' names i = .ok s := by
  by_cases hiS : i ∈ S
  · have hall : ∀ x ∈ es ++ [e], Dict.hasKey x (ringKey i) :=
      List.forall_mem_append.2 ⟨fun x hx => (hs.rings x hx i hi).2 hiS, by simpa using he hiS⟩
    simp only [linkSlot, Value.contains, (hs.rings e₀ he₀ i hi).2 hiS, if_true,
      mapM_getItem_of_hasKey hall]
    exact ⟨_, rfl⟩
  · simp [linkSlot, Value.contains, mt (hs.rings e₀ he₀ i hi).1 hiS]

/-- A link's slot raises `KeyError` at an appended entry without the link's address. -/
theorem NodeListShape.linkSlot_snoc_error (hs : NodeListShape dom es ids S) (he₀ : e₀ ∈ es)
    (hi : i < knetLinkNumLimit) (hiS : i ∈ S) (he : ¬ Dict.hasKey e (ringKey i)) :
    linkSlot (.dict e₀) ((es ++ [e]).map .dict) ids' names i =
      .error (.keyError (ringKey i)) := by
  have hnone : Dict.get? e (ringKey i) = none := by simpa [Dict.hasKey] using he
  have hold : ∀ x ∈ es.map Value.dict, ∃ b, x.getItem (ringKey i) = .ok b := by
    intro v hv
    obtain ⟨x, hx, rfl⟩ := List.mem_map.1 hv
    exact ⟨_, getItem_of_hasKey ((hs.rings x hx i hi).2 hiS)⟩
  simp only [linkSlot, Value.contains, (hs.rings e₀ he₀ i hi).2 hiS, if_true]
  rw [List.map_append, List.map_singleton, mapM_error_at (e := .keyError (ringKey i)) hold (by simp [Value.getItem, hnone])]
  rfl

end Slots

/-- `links()` on a well-shaped knet tree with an entry appended, named and with an
integer id, raises `KeyError` for the first link the entry has no address for. -/
theorem NodeListShape.links_snoc_error {dom : Dict} {es : List Dict} {ids : List Int}
    {S : Finset Nat} {e : Dict} {nodeid : Int} {j : Nat} (hs : NodeListShape dom es ids S)
    (hknet : totemTransport dom = .ok (.str "knet")) (hname : Dict.hasKey e "name")
    (hid : entryNodeid (.dict e) = .ok nodeid) (hjS : j ∈ S) (hj : ¬ Dict.hasKey e (ringKey j))
    (hbefore : ∀ i < j, i ∈ S → Dict.hasKey e (ringKey i)) :
    links (setNodes dom ((es ++ [e]).map .dict)) = .error (.keyError (ringKey j)) := by
  obtain ⟨e₀, es', rfl⟩ := List.exists_cons_of_ne_nil hs.nonempty
  have he₀ := List.mem_cons_self e₀ es'
  have hslots := mapM_range_error (n := knetLinkNumLimit) (e := .keyError (ringKey j))
    (f := linkSlot (.dict e₀) ((e₀ :: es' ++ [e]).map .dict) (ids ++ [nodeid])
      (entryNames (e₀ :: es' ++ [e])))
    (fun i hi => hs.linkSlot_snoc_ok he₀ (hi.trans (hs.within _ hjS)) (hbefore i hi))
    (hs.linkSlot_snoc_error he₀ (hs.within _ hjS) hjS hj) (hs.within _ hjS)
  have hids := mapM_entryNodeid_snoc hs.nodeids hid
  have hnamed : ∀ x ∈ (e₀ :: es') ++ [e], Dict.hasKey x "name" :=
    List.forall_mem_append.2 ⟨hs.named, List.forall_mem_singleton.2 hname⟩
  rw [List.cons_append] at hids hnamed hslots ⊢
  have hnodes : getPath (setNodes dom ((e₀ :: (es' ++ [e])).map .dict)) "nodelist" "node" =
      .ok (.list (.dict e₀ :: (es' ++ [e]).map .dict)) :=
    getPath_setNodes_nodelist hs.nodes
  rw [links_eq_linkSlots (totemTransport_setNodes.trans hknet) hnodes,
    linkSlots_of_entries hids hnamed, hslots]
  rfl

/-- **`add_node_config` numbers addresses by position, not by link.**  On a well-formed
knet tree whose links include one at or past `len(ip_list)`, `add_node_config` returns, and
`links()` on what it saves raises `KeyError` for `ring{j}_addr`, `j` the first such link:
the new entry holds `ring{i}_addr` for `i < len(ip_list)`, whatever the links are. -/
theorem addNodeConfig_breaks_links {corosyncIplist : List String} {isIpv6 : String → Bool}
    {localIpList : Bool → List String} {thisNode : String} {ipList : List String} {dom : Dict}
    {nodeid : Int} {S : Finset Nat} (hwf : WellFormed dom S)
    (hknet : totemTransport dom = .ok (.str "knet"))
    (hfind : findConfiguredIp corosyncIplist isIpv6 localIpList ipList = .ok ())
    (hid : getFreeNodeid (confParserGetAll dom "nodelist.node.nodeid") = .ok nodeid)
    (hgap : ∃ i ∈ S, ipList.length ≤ i) :
    ∃ d₁ j, addNodeConfig corosyncIplist isIpv6 localIpList thisNode ipList dom = .ok d₁ ∧
      j ∈ S ∧ ipList.length ≤ j ∧ (∀ i ∈ S, ipList.length ≤ i → j ≤ i) ∧
      links d₁ = .error (.keyError (ringKey j)) := by
  obtain ⟨es, ids, hs⟩ := hwf.shape
  obtain ⟨hslot, happ⟩ := appendEntry_eq_setNodes hs.nodes (newEntry ipList thisNode nodeid)
  -- the first link the new entry has no address for
  obtain ⟨hjS, hjn⟩ := Nat.find_spec hgap
  have hbefore (i : Nat) (hi : i < Nat.find hgap) (hiS : i ∈ S) : i < ipList.length := by
    simpa [hiS] using Nat.find_min hgap hi
  refine ⟨_, Nat.find hgap, addNodeConfig_eq hfind hslot hid, hjS, hjn,
    fun i hiS hin => Nat.find_min' hgap ⟨hiS, hin⟩, ?_⟩
  rw [happ, ← List.map_singleton Value.dict, ← List.map_append]
  exact hs.links_snoc_error hknet hasKey_newEntry_name (entryNodeid_newEntry ipList thisNode nodeid)
    hjS (fun h => absurd ((hasKey_newEntry_ring _).1 h) (not_lt.2 hjn))
    fun i hi hiS => (hasKey_newEntry_ring i).2 (hbefore i hi hiS)

/-- A third node joins the two-link tree with one address: `links()` then raises for the
missing `ring1_addr`. -/
theorem gamma_one_address_breaks_links :
    WellFormed (portTree "1") {0, 1} ∧ totemTransport (portTree "1") = .ok (.str "knet") ∧
      findConfiguredIp [] (fun _ => false) (fun _ => []) ["10.0.0.3"] = .ok () ∧
      getFreeNodeid (confParserGetAll (portTree "1") "nodelist.node.nodeid") = .ok 3 ∧
      (∃ i ∈ ({0, 1} : Finset Nat), ["10.0.0.3"].length ≤ i) ∧
      ∃ d₁ j, addNodeConfig [] (fun _ => false) (fun _ => []) "gamma" ["10.0.0.3"] (portTree "1") =
          .ok d₁ ∧ j ∈ ({0, 1} : Finset Nat) ∧ ["10.0.0.3"].length ≤ j ∧
        (∀ i ∈ ({0, 1} : Finset Nat), ["10.0.0.3"].length ≤ i → j ≤ i) ∧
        links d₁ = .error (.keyError (ringKey j)) :=
  have h₁ : totemTransport (portTree "1") = .ok (.str "knet") := rfl
  have h₂ : findConfiguredIp [] (fun _ => false) (fun _ => []) ["10.0.0.3"] = .ok () := by decide
  have h₃ : getFreeNodeid (confParserGetAll (portTree "1") "nodelist.node.nodeid") = .ok 3 := by
    decide
  have h₄ : ∃ i ∈ ({0, 1} : Finset Nat), ["10.0.0.3"].length ≤ i := ⟨1, by decide, le_rfl⟩
  ⟨portTree_tracked.wellFormed, h₁, h₂, h₃, h₄,
    addNodeConfig_breaks_links portTree_tracked.wellFormed h₁ h₂ h₃ h₄⟩

end Crmsh
