import Crmsh.LinkManager.Calls
import Crmsh.LinkManager.Options

/-!
# The well-formedness invariant of the link manager

A tree is well-formed for the link set `S` when its node list has the shape of
`NodeListShape` for a non-empty `S`, and every `totem.interface` record names a distinct
link of `S` by `str(i)` and carries some other field.  Each operation, called with a link
number in `0..7`, keeps this: `update_link` and `update_node_addr` keep `S`, `add_link`
adds its lowest free slot, `remove_link` takes its link out (`wellFormed_preserved`).

The proofs go through one lemma per kind of write: a ring key set or deleted in every
node entry, and the records list after `update_link` or `remove_link`.
-/

namespace Crmsh

/-! ## Writes into the node entries -/

theorem entryNodeid_dict (e : Dict) :
    entryNodeid (.dict e) =
      match Dict.get? e "nodeid" with
      | some v => v.toInt
      | none => .error (.keyError "nodeid") := by
  simp only [entryNodeid, Value.getItem]
  cases Dict.get? e "nodeid" <;> rfl

/-- Rewriting entries without touching their `nodeid` leaves the ids as they were. -/
theorem mapM_entryNodeid_map {es : List Dict} {f : Dict → Dict}
    (hf : ∀ e ∈ es, Dict.get? (f e) "nodeid" = Dict.get? e "nodeid") :
    ((es.map f).map Value.dict).mapM entryNodeid = (es.map Value.dict).mapM entryNodeid := by
  induction es with
  | nil => rfl
  | cons e es ih =>
    simp only [List.map_cons, List.mapM_cons, entryNodeid_dict,
      hf e (List.mem_cons_self _ _), ih fun e he => hf e (List.mem_cons_of_mem _ he)]

/-- Entry `e` after the write loop of `__upsert_node_addr_impl`: `ring{n}_addr` is set
when the entry's id is in `addrs`. -/
def writeAddr (n : Int) (addrs : PyDict Int String) (e : Dict) : Dict :=
  match entryNodeid (.dict e) with
  | .ok id =>
    match addrs.get? id with
    | some a => Dict.set e (ringKey n) (.str a)
    | none => e
  | .error _ => e

theorem writeNodeAddrs_dicts {n : Int} {addrs : PyDict Int String} {es : List Dict}
    (h : ∀ e ∈ es, ∃ id, entryNodeid (.dict e) = .ok id) :
    writeNodeAddrs n addrs (es.map .dict) = (none, (es.map (writeAddr n addrs)).map .dict) := by
  induction es with
  | nil => rfl
  | cons e es ih =>
    obtain ⟨id, hid⟩ := h e (List.mem_cons_self _ _)
    have hid' : (Value.dict e).getItem "nodeid" >>= Value.toInt = .ok id := hid
    cases hg : addrs.get? id <;>
      simp only [List.map_cons, writeNodeAddrs, hid', ih fun e he => h e (List.mem_cons_of_mem _ he),
        writeAddr, hid, hg]

theorem delItemAll_dicts {k : String} {es : List Dict} (h : ∀ e ∈ es, Dict.hasKey e k) :
    delItemAll k (es.map .dict) = (none, (es.map (Dict.erase · k)).map .dict) := by
  induction es with
  | nil => rfl
  | cons e es ih =>
    simp only [List.map_cons, delItemAll, h e (List.mem_cons_self _ _), if_true,
      ih fun e he => h e (List.mem_cons_of_mem _ he)]

theorem getPath_setNodes_nodelist {config : Dict} {nodes : List Value} {v : Value}
    (h : getPath config "nodelist" "node" = .ok v) :
    getPath (setNodes config nodes) "nodelist" "node" = .ok (.list nodes) := by
  unfold getPath at h ⊢
  obtain ⟨nl, hnl, hv⟩ := Except.bind_eq_ok.1 h
  cases hget : Dict.get? config "nodelist" with
  | none => simp [Value.getItem, hget] at hnl
  | some nl' =>
    obtain rfl : nl' = nl := by simpa [Value.getItem, hget] using hnl
    cases nl' <;> simp_all [setNodes, Value.getItem, Value.setItem, bind, Except.bind]

theorem getPath_setNodes_totem {config : Dict} {nodes : List Value} {k : String} :
    getPath (setNodes config nodes) "totem" k = getPath config "totem" k := by
  unfold setNodes getPath
  split <;> simp [Value.getItem]

theorem get?_setNodes_totem {config : Dict} {nodes : List Value} :
    Dict.get? (setNodes config nodes) "totem" = Dict.get? config "totem" := by
  unfold setNodes
  split <;> simp

/-- A top-level key other than the one set reads as before. -/
theorem getPath_set_ne {config : Dict} {k a b : String} {v : Value} (h : a ≠ k) :
    getPath (Dict.set config k v) a b = getPath config a b := by
  simp only [getPath, Value.getItem, Dict.get?_set_ne h]

theorem getPath_of_get? {config : Dict} {a b : String} {v : Value}
    (h : Dict.get? config a = some v) : getPath config a b = v.getItem b := by
  simp [getPath, Value.getItem, h, bind, Except.bind]

theorem ringKey_ne_nodeid (i : Int) : ringKey i ≠ "nodeid" := ringKey_ne (by decide) i

theorem ringKey_ne_name (i : Int) : ringKey i ≠ "name" := ringKey_ne (by decide) i

/-- The write loop only ever adds `ring{n}_addr`, and adds it to an entry whose id has an
address. -/
theorem hasKey_writeAddr {n : Int} {addrs : PyDict Int String} {e : Dict} {k : String} :
    Dict.hasKey (writeAddr n addrs e) k ↔ Dict.hasKey e k ∨
      (k = ringKey n ∧ ∃ id, entryNodeid (.dict e) = .ok id ∧ (addrs.get? id).isSome) := by
  unfold writeAddr
  split
  · rename_i id hid
    split
    · rename_i a ha
      rw [Dict.hasKey_set]
      simp [hid, ha, or_comm]
    · rename_i ha
      simp [hid, ha]
  · rename_i hid
    simp [hid]

theorem get?_writeAddr_of_ne {n : Int} {addrs : PyDict Int String} {e : Dict} {k : String}
    (h : ringKey n ≠ k) : Dict.get? (writeAddr n addrs e) k = Dict.get? e k := by
  unfold writeAddr
  split
  · split <;> simp [h.symm]
  · rfl

theorem get?_writeAddr_ne {n : Int} {addrs : PyDict Int String} {e : Dict} {k : String}
    (h : ∀ i, ringKey i ≠ k) : Dict.get? (writeAddr n addrs e) k = Dict.get? e k :=
  get?_writeAddr_of_ne (h n)

/-- Every entry of a well-shaped list has an id among `ids`. -/
theorem NodeListShape.nodeid_mem {config : Dict} {es : List Dict} {ids : List Int}
    {S : Finset Nat} (hs : NodeListShape config es ids S) {e : Dict} (he : e ∈ es) :
    ∃ id ∈ ids, entryNodeid (.dict e) = .ok id :=
  mapM_ok_of_mem hs.nodeids (List.mem_map_of_mem _ he)

/-- **Rewriting the entries.**  Entries rewritten by `f`, which keeps every key but the
address keys and leaves each entry with the address keys of exactly the links of `S'`,
have the shape for `S'`. -/
theorem NodeListShape.setNodes_map {config : Dict} {es : List Dict} {ids : List Int}
    {S S' : Finset Nat} {f : Dict → Dict} (hs : NodeListShape config es ids S)
    (hf : ∀ e ∈ es, ∀ k, (∀ i, ringKey i ≠ k) → Dict.get? (f e) k = Dict.get? e k)
    (hring : ∀ e ∈ es, ∀ i < knetLinkNumLimit, Dict.hasKey (f e) (ringKey i) ↔ i ∈ S')
    (hwithin : ∀ i ∈ S', i < knetLinkNumLimit) :
    NodeListShape (setNodes config ((es.map f).map .dict)) (es.map f) ids S' where
  nodes := getPath_setNodes_nodelist hs.nodes
  nonempty := by simpa using hs.nonempty
  nodeids := by
    rw [mapM_entryNodeid_map fun e he => hf e he _ ringKey_ne_nodeid]; exact hs.nodeids
  distinct := hs.distinct
  named := by
    simp only [List.mem_map]
    rintro _ ⟨e, he, rfl⟩
    unfold Dict.hasKey
    rw [hf e he _ ringKey_ne_name]
    exact hs.named e he
  rings := by
    simp only [List.mem_map]
    rintro _ ⟨e, he, rfl⟩
    exact hring e he
  within := hwithin

/-- A tree that reads the same at `nodelist.node` has the same shape. -/
theorem NodeListShape.of_getPath {config config' : Dict} {es : List Dict} {ids : List Int}
    {S : Finset Nat} (hs : NodeListShape config es ids S)
    (h : getPath config' "nodelist" "node" = getPath config "nodelist" "node") :
    NodeListShape config' es ids S :=
  { hs with nodes := h ▸ hs.nodes }

/-- Every entry of a well-shaped list has `ring{n}_addr` for a link `n` of `S`. -/
theorem NodeListShape.hasKey_ring {config : Dict} {es : List Dict} {ids : List Int}
    {S : Finset Nat} (hs : NodeListShape config es ids S) {n : Int} (h0 : 0 ≤ n)
    (hn : n.toNat ∈ S) {e : Dict} (he : e ∈ es) : Dict.hasKey e (ringKey n) := by
  have := (hs.rings e he _ (hs.within _ hn)).2 hn
  rwa [Int.toNat_of_nonneg h0] at this

/-- The write loop of `__upsert_node_addr_impl` keeps the shape for the same links when it
writes a ring key every entry has, or one that names no link `0..7`. -/
theorem NodeListShape.setNodes_writeAddr {config : Dict} {es : List Dict} {ids : List Int}
    {S : Finset Nat} {n : Int} {addrs : PyDict Int String} (hs : NodeListShape config es ids S)
    (hn : ∀ i < knetLinkNumLimit, ringKey i = ringKey n → i ∈ S) :
    NodeListShape (setNodes config ((es.map (writeAddr n addrs)).map .dict))
      (es.map (writeAddr n addrs)) ids S :=
  hs.setNodes_map (fun _ _ _ hk => get?_writeAddr_ne hk) (fun e he i hi => by
    rw [hasKey_writeAddr, ← hs.rings e he i hi]
    exact ⟨fun h => h.elim id fun ⟨hk, _⟩ => (hs.rings e he i hi).2 (hn i hi hk), .inl⟩)
    hs.within

/-- The entries `add_link`'s write loop leaves, every one given the address it names, have
the shape for `S` and the lowest free slot `k`. -/
theorem NodeListShape.setNodes_addLink {config : Dict} {es : List Dict} {ids : List Int}
    {S : Finset Nat} {ls : List (Option Link)} {k : Nat} {first : Link}
    {addrs : PyDict Int String} (hs : NodeListShape config es ids S) (hls : links config = .ok ls)
    (hk : ls.findIdx? Option.isNone = some k) (hfirst : ls.findSome? id = some first)
    (haddrs : ∀ node ∈ first.nodes, (addrs.get? node.nodeid).isSome) :
    k ∉ S ∧ (∀ j < k, j ∈ S) ∧
      NodeListShape (setNodes config ((es.map (writeAddr k addrs)).map .dict))
        (es.map (writeAddr k addrs)) ids (insert k S) := by
  obtain ⟨names, hnames, hr⟩ := links_rosters hs hls
  obtain ⟨hklt, hknone, hbefore⟩ := List.findIdx?_eq_some_iff_getElem.1 hk
  have hslot := slot_isSome_iff hr (List.getElem?_eq_getElem hklt)
  have hkS : k ∉ S := fun hkS => by simp_all
  have hbelow : ∀ j < k, j ∈ S := fun j hj =>
    (slot_isSome_iff hr (List.getElem?_eq_getElem (by omega))).1
      (Option.ne_none_iff_isSome.1 (by simpa using hbefore j hj))
  obtain ⟨j, hj⟩ : ∃ j, ls[j]? = some (some first) := by
    obtain ⟨a, ha, hfa⟩ := List.exists_of_findSome?_eq_some hfirst
    cases hfa
    exact List.mem_iff_getElem?.1 ha
  have hids := slot_nodeids hs hnames hr hj
  have hall : ∀ e ∈ es, Dict.hasKey (writeAddr k addrs e) (ringKey k) := fun e he => by
    obtain ⟨id, hid, hent⟩ := hs.nodeid_mem he
    obtain ⟨node, hnode, rfl⟩ := List.mem_map.1 (hids.mem_iff.2 hid)
    exact hasKey_writeAddr.2 (.inr ⟨rfl, _, hent, haddrs node hnode⟩)
  have hk8 := (slot_roster hr (List.getElem?_eq_getElem hklt)).1
  refine ⟨hkS, hbelow, hs.setNodes_map (fun _ _ _ hk => get?_writeAddr_ne hk) ?_ ?_⟩
  · intro e he i hi
    by_cases hik : i = k
    · subst hik
      exact iff_of_true (hall e he) (Finset.mem_insert_self _ _)
    · have hne : ringKey i ≠ ringKey k := fun h => hik (by exact_mod_cast ringKey_injective h)
      rw [hasKey_writeAddr, Finset.mem_insert, ← hs.rings e he i hi]
      simp [hne, hik]
  · intro i hi
    rcases Finset.mem_insert.1 hi with rfl | hi
    · exact hk8
    · exact hs.within i hi

/-- The entries `remove_link`'s delete loop leaves, link `n ≥ 0` gone from every one, have
the shape for `S` without `n`. -/
theorem NodeListShape.setNodes_eraseRing {config : Dict} {es : List Dict} {ids : List Int}
    {S : Finset Nat} {n : Int} (hs : NodeListShape config es ids S) (h0 : 0 ≤ n) :
    NodeListShape (setNodes config ((es.map (Dict.erase · (ringKey n))).map .dict))
      (es.map (Dict.erase · (ringKey n))) ids (S.erase n.toNat) :=
  hs.setNodes_map (fun _ _ _ hk => Dict.get?_erase_ne (hk n).symm) (fun e he i hi => by
      rw [Dict.hasKey_erase, hs.rings e he i hi, Finset.mem_erase, ne_eq,
        ringKey_injective.eq_iff, show ((i : Int) = n) ↔ i = n.toNat by omega])
    (fun i hi => hs.within i (Finset.mem_of_mem_erase hi))

/-! ## The interface records -/

/-- A `totem.interface` record of a well-formed tree: its `linknumber` is `str(i)` for a
link `i` of `S`, and it has some other field. -/
structure RecordOf (S : Finset Nat) (r : Dict) : Prop where
  linknumber : ∃ i ∈ S, Dict.get? r "linknumber" = some (.str (pyStr i))
  other : ∃ k, k ≠ "linknumber" ∧ Dict.hasKey r k

/-- The records of a well-formed tree: each a `RecordOf S`, their `linknumber`s pairwise
distinct. -/
structure RecordsOf (S : Finset Nat) (rs : List Dict) : Prop where
  each : ∀ r ∈ rs, RecordOf S r
  distinct : (rs.map (Dict.get? · "linknumber")).Nodup

/-- `totem.interface` is absent, or a list of sections `rs` with `P rs`. -/
def InterfaceRecords (P : List Dict → Prop) (config : Dict) : Prop :=
  (∃ k, getPath config "totem" "interface" = .error (.keyError k)) ∨
    ∃ rs, getPath config "totem" "interface" = .ok (.list (rs.map .dict)) ∧ P rs

/-- `totem.interface` of a well-formed tree: absent, or a list of records for `S`. -/
def RecordsShape (config : Dict) (S : Finset Nat) : Prop := InterfaceRecords (RecordsOf S) config

theorem RecordOf.mono {S S' : Finset Nat} {r : Dict} (h : RecordOf S r) (hS : S ⊆ S') :
    RecordOf S' r :=
  let ⟨⟨i, hi, hl⟩, ho⟩ := h
  ⟨⟨i, hS hi, hl⟩, ho⟩

/-- A record left with its `linknumber` and more has some other field. -/
theorem RecordOf.of_len {S : Finset Nat} {r : Dict} {i : Nat} (hi : i ∈ S)
    (hl : Dict.get? r "linknumber" = some (.str (pyStr i))) (hlen : (Dict.len r == 1) = false) :
    RecordOf S r :=
  ⟨⟨i, hi, hl⟩, Dict.exists_other_key (by simp [hl]) (by simpa using hlen)⟩

theorem RecordsShape.mono {config : Dict} {S S' : Finset Nat} (h : RecordsShape config S)
    (hS : S ⊆ S') : RecordsShape config S' := by
  rcases h with h | ⟨rs, hrs, heach, hd⟩
  · exact .inl h
  · exact .inr ⟨rs, hrs, fun r hr => (heach r hr).mono hS, hd⟩

theorem RecordsShape.setNodes {config : Dict} {S : Finset Nat} {nodes : List Value}
    (h : RecordsShape config S) : RecordsShape (setNodes config nodes) S := by
  unfold RecordsShape InterfaceRecords
  rwa [getPath_setNodes_totem]

/-- The `totem` section of a tree whose `totem.interface` is absent or a list of sections. -/
theorem InterfaceRecords.mono {P Q : List Dict → Prop} {config : Dict} (hPQ : ∀ rs, P rs → Q rs) :
    InterfaceRecords P config → InterfaceRecords Q config
  | .inl h => .inl h
  | .inr ⟨rs, h, hp⟩ => .inr ⟨rs, h, hPQ rs hp⟩

theorem InterfaceRecords.totem {P : List Dict → Prop} {config : Dict} {totem : Value}
    (hP : P []) (hr : InterfaceRecords P config) (ht : Dict.get? config "totem" = some totem) :
    ∃ t rs, totem = .dict t ∧ P rs ∧
      ((Dict.get? t "interface" = none ∧ rs = []) ∨
        Dict.get? t "interface" = some (.list (rs.map .dict))) := by
  rw [InterfaceRecords, getPath_of_get? ht] at hr
  cases totem with
  | dict t =>
    simp only [Value.getItem] at hr
    refine ⟨t, ?_⟩
    rcases hr with ⟨k, hk⟩ | ⟨rs, hrs, hR⟩
    · exact ⟨[], rfl, hP, .inl ⟨by split at hk <;> simp_all, rfl⟩⟩
    · exact ⟨rs, rfl, hR, .inr (by split at hrs <;> simp_all)⟩
  | _ => simp [Value.getItem] at hr

theorem RecordsOf.nil (S : Finset Nat) : RecordsOf S [] := ⟨by simp, by simp⟩

/-! ## `update_link` on the records -/

theorem findRecord_dicts (s : String) (rs : List Dict) (j : Nat) :
    findRecord s (rs.map .dict) j =
      .ok (rs.findIdx? (fun r => Dict.get? r "linknumber" = some (.str s)) j) := by
  induction rs generalizing j with
  | nil => rfl
  | cons r rs ih =>
    simp only [List.map_cons, findRecord, ih, List.findIdx?_cons]
    split <;> simp_all

theorem map_set_of_eq {β γ : Type} {f : β → γ} {l : List β} {i : Nat} {a : β}
    (hi : i < l.length) (h : f a = f l[i]) : (l.set i a).map f = l.map f := by
  apply List.ext_getElem (by simp)
  intro j _ _
  simp only [List.getElem_map, List.getElem_set]
  split <;> simp_all

/-- **The records after `update_link`.**  For a link `n` of `S`, the record of `str(n)` is
edited in place, dropped when only its `linknumber` is left, or appended when there was
none; the result is again a list of records for `S`. -/
theorem placeRecord_records {S : Finset Nat} {rs : List Dict} {n : Int} {index : Option Nat}
    (link : Link) (hrs : RecordsOf S rs) (h0 : 0 ≤ n) (hn : n.toNat ∈ S)
    (hf : findRecord (pyStr n) (rs.map .dict) 0 = .ok index) :
    ∃ rs', placeRecord (rs.map .dict) index
        (writeOptions link (recordAt (rs.map .dict) index n)) = rs'.map .dict ∧
      RecordsOf S rs' := by
  rw [findRecord_dicts] at hf
  have hidx := Except.ok.inj hf
  have hpy : pyStr n = pyStr (n.toNat : Int) := by rw [Int.toNat_of_nonneg h0]
  cases index with
  | none =>
    rw [List.findIdx?_eq_none_iff] at hidx
    have hl : Dict.get? (writeOptions link [("linknumber", .str (pyStr n))]) "linknumber" =
        some (.str (pyStr n)) := by simp [writeOptions_linknumber]
    cases hlen : Dict.len (writeOptions link [("linknumber", .str (pyStr n))]) == 1
    · refine ⟨rs ++ [writeOptions link [("linknumber", .str (pyStr n))]],
        by simp [placeRecord, recordAt, hlen], ?_, ?_⟩
      · intro r hr
        rcases List.mem_append.1 hr with hr | hr
        · exact hrs.each r hr
        · rw [List.mem_singleton.1 hr]; exact RecordOf.of_len hn (hpy ▸ hl) hlen
      · rw [List.map_append, List.nodup_append]
        refine ⟨hrs.distinct, List.nodup_singleton _, ?_⟩
        simp only [List.map_cons, List.map_nil, List.disjoint_singleton, hl, List.mem_map]
        rintro ⟨r, hr, hrl⟩
        simpa [hrl] using hidx r hr
    · exact ⟨rs, by simp [placeRecord, recordAt, hlen], hrs⟩
  | some i =>
    obtain ⟨hi, hp, -⟩ := List.findIdx?_eq_some_iff_getElem.1 hidx
    have hrec : recordAt (rs.map .dict) (some i) n = rs[i] := by
      simp [recordAt, List.getElem?_eq_getElem hi]
    have hl := writeOptions_linknumber link rs[i]
    rw [hrec]
    cases hlen : Dict.len (writeOptions link rs[i]) == 1
    · refine ⟨rs.set i (writeOptions link rs[i]), by simp [placeRecord, hlen], ?_, ?_⟩
      · intro r hr
        rcases List.mem_or_eq_of_mem_set hr with hr | rfl
        · exact hrs.each r hr
        · have : Dict.get? rs[i] "linknumber" = some (.str (pyStr n)) := by simpa using hp
          exact RecordOf.of_len hn (hpy ▸ hl.trans this) hlen
      · rw [map_set_of_eq hi hl]; exact hrs.distinct
    · refine ⟨rs.eraseIdx i, ?_, fun r hr => hrs.each r (List.eraseIdx_subset _ _ hr),
        hrs.distinct.sublist ((List.eraseIdx_sublist _ _).map _)⟩
      simp only [placeRecord, hlen, List.eraseIdx_eq_take_drop_succ, List.map_append,
        List.map_take, List.map_drop]

/-- `update_link`'s last statement on a section `t`: `interface` is absent after it exactly
when the list is empty and `t` had the key. -/
theorem getItem_storeInterfaces (t : Dict) (L : List Value) :
    (storeInterfaces (.dict t) L).getItem "interface" =
      if L = [] ∧ Dict.hasKey t "interface" then .error (.keyError "interface")
      else .ok (.list L) := by
  unfold storeInterfaces
  simp only [Value.contains]
  split_ifs <;> simp [Value.getItem, Value.setItem]

/-! ## `remove_link` on the records -/

theorem keepOtherRecords_records {S : Finset Nat} {rs : List Dict} {n : Int}
    (h : ∀ r ∈ rs, RecordOf S r) :
    keepOtherRecords n (rs.map .dict) =
      .ok ((rs.filter fun r => Dict.get? r "linknumber" ≠ some (.str (pyStr n))).map .dict) := by
  apply filterM_map_ok
  intro r hr
  obtain ⟨⟨i, -, hi⟩, -⟩ := h r hr
  simp [Value.getItem, hi, bind, Except.bind, pure, Except.pure, pyStr_injective.eq_iff]

/-- **The records after `remove_link`.**  Dropping the records of link `n` leaves records
for `S` without `n`. -/
theorem RecordsOf.erase {S : Finset Nat} {rs : List Dict} (h : RecordsOf S rs) {n : Int}
    (h0 : 0 ≤ n) :
    RecordsOf (S.erase n.toNat)
      (rs.filter fun r => Dict.get? r "linknumber" ≠ some (.str (pyStr n))) where
  each r hr := by
    rw [List.mem_filter] at hr
    obtain ⟨⟨i, hi, hl⟩, ho⟩ := h.each r hr.1
    refine ⟨⟨i, Finset.mem_erase.2 ⟨?_, hi⟩, hl⟩, ho⟩
    rintro rfl
    simp [hl, Int.toNat_of_nonneg h0] at hr
  distinct := h.distinct.sublist ((List.filter_sublist _).map _)

/-! ## The invariant -/

/-- **The link manager's well-formedness predicate** for the link set `S`: the node list
has the shape of `NodeListShape` for a non-empty `S`, and `totem.interface` is absent or
a list of records for `S`. -/
structure WellFormed (config : Dict) (S : Finset Nat) : Prop where
  shape : ∃ es ids, NodeListShape config es ids S
  present : S.Nonempty
  records : RecordsShape config S

variable {α : Type} [DecidableEq α]

/-- `update_link` at a link number `n ≥ 0` keeps the tree well-formed for the same links. -/
theorem WellFormed.updateLink {config config' : Dict} {S : Finset Nat} {n : Int}
    {options : PyDict String (Option String)} (hwf : WellFormed config S) (h0 : 0 ≤ n)
    (h : updateLink config n options = .ok config') : WellFormed config' S := by
  obtain ⟨ls, link, link', totem, interfaces, index, hls, hlink, -, -, -, htotem, hint, hfind,
    rfl⟩ := updateLink_ok h
  obtain ⟨es, ids, hs⟩ := hwf.shape
  obtain ⟨t, rs, rfl, hrs, hi⟩ := InterfaceRecords.totem (RecordsOf.nil S) hwf.records htotem
  have hint' : interfaces = rs.map .dict := by
    rcases hi with ⟨hnone, rfl⟩ | hsome <;> simp_all [interfacesOf, Value.getItem]
  subst hint'
  obtain ⟨rs', hplace, hrs'⟩ :=
    placeRecord_records link' hrs h0 (existingLink_mem hs hls h0 hlink) hfind
  refine ⟨⟨es, ids, hs.of_getPath (getPath_set_ne (by decide))⟩, hwf.present, ?_⟩
  unfold RecordsShape InterfaceRecords
  rw [getPath_of_get? Dict.get?_set_self, hplace, getItem_storeInterfaces]
  split
  · exact .inl ⟨_, rfl⟩
  · exact .inr ⟨rs', rfl, hrs'⟩

/-- What `__upsert_node_addr_impl` writes into a well-shaped tree when it returns. -/
theorem upsertNodeAddrImpl_entries {canon : String → Option α} {config config' : Dict}
    {es : List Dict} {ids : List Int} {S : Finset Nat} {ls : List (Option Link)} {n : Int}
    {addrs : PyDict Int String} (hs : NodeListShape config es ids S)
    (h : upsertNodeAddrImpl canon config ls n addrs = .ok config') :
    config' = setNodes config ((es.map (writeAddr n addrs)).map .dict) := by
  obtain ⟨-, -, nodes, nodes', -, -, hnodes, hw, rfl⟩ := upsertNodeAddrImpl_ok h
  rw [hs.nodes] at hnodes
  cases hnodes
  rw [writeNodeAddrs_dicts fun e he => (hs.nodeid_mem he).imp fun _ h => h.2] at hw
  cases hw
  rfl

/-- `update_node_addr` at a link number `n ≥ 0` keeps the tree well-formed for the same
links. -/
theorem WellFormed.updateNodeAddr {canon : String → Option α} {config config' : Dict}
    {S : Finset Nat} {n : Int} {addrs : PyDict Int String} (hwf : WellFormed config S)
    (h0 : 0 ≤ n) (h : updateNodeAddr canon config n addrs = .ok config') :
    WellFormed config' S := by
  obtain ⟨ls, link, hls, hlink, hup⟩ := updateNodeAddr_ok h
  obtain ⟨es, ids, hs⟩ := hwf.shape
  have hn := existingLink_mem hs hls h0 hlink
  rw [upsertNodeAddrImpl_entries hs hup]
  refine ⟨⟨_, ids, hs.setNodes_writeAddr fun i _ hk => ?_⟩, hwf.present, hwf.records.setNodes⟩
  rwa [← ringKey_injective hk, Int.toNat_ofNat] at hn

/-- `add_link` adds the lowest free link `k` to a well-formed tree. -/
theorem WellFormed.addLink {canon : String → Option α} {config config' : Dict}
    {S : Finset Nat} {addrs : PyDict Int String} {options : PyDict String (Option String)}
    (hwf : WellFormed config S) (h : addLink canon config addrs options = .ok config') :
    ∃ k, k ∉ S ∧ (∀ j < k, j ∈ S) ∧ WellFormed config' (insert k S) := by
  obtain ⟨ls, k, first, config₁, hls, hk, hfirst, haddrs, hup, hupd⟩ := addLink_ok h
  obtain ⟨es, ids, hs⟩ := hwf.shape
  obtain ⟨hkS, hbelow, hs₁⟩ := hs.setNodes_addLink hls hk hfirst haddrs
  rw [upsertNodeAddrImpl_entries hs hup] at hupd
  exact ⟨k, hkS, hbelow, WellFormed.updateLink ⟨⟨_, ids, hs₁⟩, Finset.insert_nonempty _ _,
    hwf.records.setNodes.mono (Finset.subset_insert _ _)⟩ (Int.ofNat_nonneg k) hupd⟩

/-- `remove_link` at a link number `n ≥ 0` takes `n` out of a well-formed tree's links. -/
theorem WellFormed.removeLink {config config' : Dict} {S : Finset Nat} {n : Int}
    (hwf : WellFormed config S) (h0 : 0 ≤ n) (h : removeLink config n = .ok config') :
    n.toNat ∈ S ∧ WellFormed config' (S.erase n.toNat) := by
  obtain ⟨ls, link, nodes, nodes', hls, hlink, hcount, hnodes, hdel, hrem⟩ := removeLink_ok h
  obtain ⟨es, ids, hs⟩ := hwf.shape
  have hn := existingLink_mem hs hls h0 hlink
  rw [hs.nodes] at hnodes
  cases hnodes
  rw [delItemAll_dicts fun e he => hs.hasKey_ring h0 hn he] at hdel
  cases hdel
  have hs₁ := hs.setNodes_eraseRing h0
  have hne : (S.erase n.toNat).Nonempty := by
    rw [← Finset.card_pos, Finset.card_erase_of_mem hn, ← present_count hs hls]
    omega
  obtain ⟨totem, htotem, hcase⟩ := removeRecords_ok hrem
  obtain ⟨t, rs, rfl, hrs, hi⟩ := InterfaceRecords.totem (RecordsOf.nil S) hwf.records.setNodes htotem
  refine ⟨hn, ?_⟩
  rcases hcase with ⟨hc, rfl⟩ | ⟨interfaces, kept, hint, hkept, rfl⟩
  · have hnone : Dict.get? t "interface" = none := by simpa [Value.contains, Dict.hasKey] using hc
    refine ⟨⟨_, ids, hs₁⟩, hne, .inl ⟨"interface", ?_⟩⟩
    rw [getPath_of_get? htotem]
    simp [Value.getItem, hnone]
  · have hint' : interfaces = rs.map .dict := by
      rcases hi with ⟨hnone, rfl⟩ | hsome <;> simp_all [Value.getItem]
    subst hint'
    rw [keepOtherRecords_records hrs.each] at hkept
    cases hkept
    refine ⟨⟨_, ids, hs₁.of_getPath (getPath_set_ne (by decide))⟩, hne, .inr ⟨_, ?_, hrs.erase h0⟩⟩
    simp [getPath_of_get? Dict.get?_set_self, Value.setItem, Value.getItem]


/-- **Well-formedness is an invariant of the link manager.**  From a tree well-formed for
`S`, a call that returns normally, with a link number `n ≥ 0` where it takes one, leaves a
tree well-formed for `S` (`update_link`, `update_node_addr`), for `S` and the lowest free
link `k` (`add_link`), or for `S` without `n`, which was a link of `S` (`remove_link`). -/
theorem wellFormed_preserved {canon : String → Option α} {config config' : Dict}
    {S : Finset Nat} (hwf : WellFormed config S) :
    (∀ n options, 0 ≤ n → updateLink config n options = .ok config' → WellFormed config' S) ∧
    (∀ n addrs, 0 ≤ n → updateNodeAddr canon config n addrs = .ok config' →
      WellFormed config' S) ∧
    (∀ addrs options, addLink canon config addrs options = .ok config' →
      ∃ k, k ∉ S ∧ (∀ j < k, j ∈ S) ∧ WellFormed config' (insert k S)) ∧
    (∀ n, 0 ≤ n → removeLink config n = .ok config' →
      n.toNat ∈ S ∧ WellFormed config' (S.erase n.toNat)) :=
  ⟨fun _ _ h0 h => hwf.updateLink h0 h, fun _ _ h0 h => hwf.updateNodeAddr h0 h,
    fun _ _ h => hwf.addLink h, fun _ h0 h => hwf.removeLink h0 h⟩

/-- The two-node tree of link 0 is well-formed, and so is the tree `update_link` leaves
after setting link 0's `mcastport`. -/
theorem twoNodeTree_stays_wellFormed :
    WellFormed twoNodeTree {0} ∧
      WellFormed (Dict.set twoNodeTree "totem" (.dict [("transport", .str "knet"),
        ("interface", .list [.dict [("linknumber", .str "0"), ("mcastport", .str "5405")]])]))
        {0} := by
  have hwf : WellFormed twoNodeTree {0} :=
    ⟨⟨[[("ring0_addr", .str "10.0.0.1"), ("name", .str "alpha"), ("nodeid", .str "1")],
        [("ring0_addr", .str "10.0.0.2"), ("name", .str "beta"), ("nodeid", .str "2")]], [1, 2],
      ⟨by decide, by decide, by decide, by decide, by decide, by decide, by decide⟩⟩,
      ⟨0, Finset.mem_singleton_self _⟩, .inl ⟨"interface", by decide⟩⟩
  exact ⟨hwf, (@wellFormed_preserved String _ some _ _ _ hwf).1 0 ⟨[("mcastport", some "5405")],
    by decide⟩ le_rfl (by decide)⟩

end Crmsh
