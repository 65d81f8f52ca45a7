import Crmsh.Migration.Idempotent
import Crmsh.LinkManager.WellFormed

/-!
# The node list `migrate_multicast` builds

A multicast tree (transport `udp`, or no transport and no node list) gets its node list
from `migrate_multicast`: one entry per CIB node, with its id and name, and
`ring{i}_addr` for the `i`-th interface of that member's own configuration.  The address
of an entry is keyed by the position of the member's interface record, not by its
`ringnumber`, while the local records are renamed by `ringnumber`:
**`multicast_entries_by_position`** says what every entry holds, and
`multicast_pairs_by_position` shows a member whose records are out of order.

The link manager reads a node list without raising when its entries are uniform
(`UniformEntries`): a non-empty list of named entries with integer ids, all with the ring
addresses of the same links.  A migrated multicast tree has such entries when the CIB is
not empty and every member lists the same number of interfaces; a migrated udpu tree
keeps its node list, and has them when its entries had them.
**`migration_links`** says that `links()` then reports every node on each link.
-/

namespace Crmsh

/-! ## The entries `migrate_multicast` builds -/

/-- The address comprehension of `migrate_multicast`, over `enumerate` from `n`: it holds
`ring{i}_addr` for the element at position `i - n`, with that element's `bindnetaddr`. -/
theorem get?_ringAddrs {l : List Value} {n : Nat} {addrs : Dict}
    (h : (l.enumFrom n).mapM (fun (i, x) => do return (ringKey i, ← x.getItem "bindnetaddr")) =
      .ok addrs) :
    (∀ x ∈ l, ∃ a, x.getItem "bindnetaddr" = .ok a) ∧
      ∀ i : Nat, Dict.get? addrs (ringKey i) =
        if n ≤ i then l[i - n]?.bind fun x => (x.getItem "bindnetaddr").toOption else none := by
  induction l generalizing n addrs with
  | nil =>
    rw [List.enumFrom_nil, mapM_eq_ok, List.forall₂_nil_left_iff] at h
    subst h
    simp
  | cons x l ih =>
    simp only [List.enumFrom_cons, List.mapM_cons, Except.bind_eq_ok, Except.pure_eq_ok] at h
    obtain ⟨_, ⟨a, ha, rfl⟩, rest, hrest, rfl⟩ := h
    obtain ⟨hok, hget⟩ := ih hrest
    refine ⟨fun y hy => ?_, fun i => ?_⟩
    · rcases List.mem_cons.1 hy with rfl | hy
      exacts [⟨a, ha⟩, hok y hy]
    by_cases hi : n = i
    · subst hi
      simp [ha, Except.toOption]
    · have hne : ringKey n ≠ ringKey i := ringKey_injective.ne (by exact_mod_cast hi)
      rw [Dict.get?_cons, if_neg hne, hget i]
      by_cases hlt : n + 1 ≤ i
      · obtain ⟨j, rfl⟩ := Nat.exists_eq_add_of_le hlt
        simp [show n + 1 + j - n = j + 1 by omega, show n ≤ n + 1 + j by omega]
      · simp [hlt, show ¬n ≤ i by omega]

/-- **An entry of the rebuilt node list** holds the CIB node's id and name, and
`ring{i}_addr` exactly for the positions `i` of the member's interface records, with the
`bindnetaddr` of the record at that position. -/
theorem nodeEntry_addresses {peers : String → Except PyExc Dict} {node : CibNode} {e : Dict}
    (h : nodeEntry peers node = .ok e) :
    ∃ v, memberInterfaces peers node.uname = .ok v ∧
      Dict.get? e "nodeid" = some (.str (pyStr node.nodeId)) ∧
      Dict.get? e "name" = some (.str node.uname) ∧
      (∀ x ∈ v.iter, ∃ a, x.getItem "bindnetaddr" = .ok a) ∧
      ∀ i : Nat, Dict.get? e (ringKey i) =
        v.iter[i]?.bind fun x => (x.getItem "bindnetaddr").toOption := by
  simp only [nodeEntry, Except.bind_eq_ok, Except.pure_eq_ok] at h
  obtain ⟨v, hv, addrs, ha, rfl⟩ := h
  obtain ⟨hok, hget⟩ := @get?_ringAddrs _ 0 _ ha
  refine ⟨v, hv, rfl, rfl, hok, fun i => ?_⟩
  simp [(ringKey_ne_nodeid _).symm, (ringKey_ne_name _).symm, hget i]

/-- An entry of the rebuilt node list is named as its CIB node. -/
theorem nodeEntry_name {peers : String → Except PyExc Dict} {node : CibNode} {e : Dict}
    (h : nodeEntry peers node = .ok e) : Dict.get? e "name" = some (.str node.uname) := by
  obtain ⟨-, -, -, hname, -⟩ := nodeEntry_addresses h
  exact hname

/-- An entry has `ring{i}_addr` exactly for the positions of the member's interfaces. -/
theorem nodeEntry_hasKey_ringKey {peers : String → Except PyExc Dict} {node : CibNode} {e : Dict}
    {k : Nat} (hk : ∀ v, memberInterfaces peers node.uname = .ok v → v.iter.length = k)
    (h : nodeEntry peers node = .ok e) (i : Nat) : Dict.hasKey e (ringKey i) ↔ i < k := by
  obtain ⟨v, hv, -, -, hok, hget⟩ := nodeEntry_addresses h
  rw [← hk v hv, Dict.hasKey, hget i]
  cases hx : v.iter[i]? with
  | none => simpa using List.getElem?_eq_none_iff.1 hx
  | some x =>
    obtain ⟨a, ha⟩ := hok x (List.getElem?_mem hx)
    simp [ha, Except.toOption, (List.getElem?_eq_some_iff.1 hx).1]

/-- `migrate_multicast` sets the node list to the entries built for the CIB's nodes. -/
theorem migrateMulticast_nodes {cib : List CibNode} {peers : String → Except PyExc Dict}
    {t dom dom' : Dict} (h : migrateMulticast cib peers t dom = .ok dom') :
    ∃ es, cib.mapM (nodeEntry peers) = .ok es ∧
      Dict.get? dom' "nodelist" = some (.dict [("node", .list (es.map .dict))]) := by
  simp only [migrateMulticast, Except.bind_eq_ok] at h
  obtain ⟨_, _, _, _, h⟩ := h
  split_ifs at h
  · simp at h
  simp only [Except.bind_eq_ok, Except.pure_eq_ok] at h
  obtain ⟨-, -, es, hes, hq⟩ := h
  exact ⟨es, hes, by rw [(dropExpectedVotes_ok hq).2 _ (by simp), Dict.get?_set_self]⟩

/-- **The multicast node list pairs addresses by position.**  When `migrate_multicast`
returns, the node list has one entry per CIB node, in order, with that node's id and
name; its `ring{i}_addr` is the `bindnetaddr` of the `i`-th interface record of the
member's own configuration. -/
theorem multicast_entries_by_position {cib : List CibNode} {peers : String → Except PyExc Dict}
    {t dom dom' : Dict} (h : migrateMulticast cib peers t dom = .ok dom') :
    ∃ es, Dict.get? dom' "nodelist" = some (.dict [("node", .list (es.map .dict))]) ∧
      List.Forall₂ (fun node e => ∃ v, memberInterfaces peers node.uname = .ok v ∧
        Dict.get? e "nodeid" = some (.str (pyStr node.nodeId)) ∧
        Dict.get? e "name" = some (.str node.uname) ∧
        ∀ i : Nat, Dict.get? e (ringKey i) =
          v.iter[i]?.bind fun x => (x.getItem "bindnetaddr").toOption) cib es := by
  obtain ⟨es, hes, hn⟩ := migrateMulticast_nodes h
  refine ⟨es, hn, (mapM_eq_ok.1 hes).imp fun node e he => ?_⟩
  obtain ⟨v, hv, hid, hname, -, hget⟩ := nodeEntry_addresses he
  exact ⟨v, hv, hid, hname, hget⟩

/-- The member of the example below, migrated through `migrate_multicast` itself. -/
theorem outOfOrder_entry_by_position :
    migrateMulticast [⟨1, "alpha"⟩]
      (fun _ => .ok [("totem", .dict [("interface", .list [
        .dict [("ringnumber", .str "1"), ("bindnetaddr", .str "10.1.0.0")],
        .dict [("ringnumber", .str "0"), ("bindnetaddr", .str "10.0.0.0")]])])])
      [("transport", .str "udp"), ("interface", .list [])] [] =
      .ok [("totem", .dict [("transport", .str "knet"), ("interface", .list []),
        ("knet_compression_model", .str "none")]),
       ("nodelist", .dict [("node", .list [.dict [("nodeid", .str "1"), ("name", .str "alpha"),
         ("ring0_addr", .str "10.1.0.0"), ("ring1_addr", .str "10.0.0.0")]])])] ∧
    ∃ es, Dict.get? [("totem", .dict [("transport", .str "knet"), ("interface", .list []),
        ("knet_compression_model", .str "none")]),
       ("nodelist", .dict [("node", .list [.dict [("nodeid", .str "1"), ("name", .str "alpha"),
         ("ring0_addr", .str "10.1.0.0"), ("ring1_addr", .str "10.0.0.0")]])])] "nodelist" =
        some (.dict [("node", .list (es.map .dict))]) ∧
      List.Forall₂ (fun (node : CibNode) (e : Dict) => ∃ v,
        memberInterfaces (fun _ => .ok [("totem", .dict [("interface", .list [
          .dict [("ringnumber", .str "1"), ("bindnetaddr", .str "10.1.0.0")],
          .dict [("ringnumber", .str "0"), ("bindnetaddr", .str "10.0.0.0")]])])]) node.uname = .ok v ∧
        Dict.get? e "nodeid" = some (.str (pyStr node.nodeId)) ∧
        Dict.get? e "name" = some (.str node.uname) ∧
        ∀ i : Nat, Dict.get? e (ringKey i) =
          v.iter[i]?.bind fun x => (x.getItem "bindnetaddr").toOption) [⟨1, "alpha"⟩] es :=
  (fun h => ⟨h, multicast_entries_by_position h⟩) (by decide)

/-- A member whose own records list ring 1 before ring 0: the local record renamed to
`linknumber` 0 has `bindnetaddr` `10.0.0.0`, but the entry's `ring0_addr` is `10.1.0.0`,
the address of the record in first position. -/
theorem multicast_pairs_by_position :
    migrateTransport [⟨1, "alpha"⟩]
      (fun _ => .ok [("totem", .dict [("interface", .list [
        .dict [("ringnumber", .str "1"), ("bindnetaddr", .str "10.1.0.0")],
        .dict [("ringnumber", .str "0"), ("bindnetaddr", .str "10.0.0.0")]])])])
      [("totem", .dict [("transport", .str "udp"), ("interface", .list [
        .dict [("ringnumber", .str "1"), ("bindnetaddr", .str "10.1.0.0")],
        .dict [("ringnumber", .str "0"), ("bindnetaddr", .str "10.0.0.0")]])])] =
    .ok [("totem", .dict [("transport", .str "knet"), ("interface", .list [
        .dict [("linknumber", .str "1")], .dict [("linknumber", .str "0")]]),
        ("knet_compression_model", .str "none")]),
      ("nodelist", .dict [("node", .list [.dict [("nodeid", .str "1"), ("name", .str "alpha"),
        ("ring0_addr", .str "10.1.0.0"), ("ring1_addr", .str "10.0.0.0")]])])] := by
  decide

/-! ## The migrated tree and `links()` -/

/-- Entries `links()` reads without raising: a non-empty list of sections with integer ids
`ids` and a name each, every one with `ring{i}_addr`, `i < 8`, exactly for the `i` in
`S`. -/
structure UniformEntries (es : List Dict) (ids : List Int) (S : Finset Nat) : Prop where
  nonempty : es ≠ []
  nodeids : (es.map .dict).mapM entryNodeid = .ok ids
  named : ∀ e ∈ es, Dict.hasKey e "name"
  rings : ∀ e ∈ es, ∀ i < knetLinkNumLimit, Dict.hasKey e (ringKey i) ↔ i ∈ S

/-- **What `links()` makes of uniform entries** on knet: the slots of `S`, with the
interface records loaded on top; whatever it returns lists every entry on each link of
`S`, sorted by id. -/
theorem UniformEntries.links_eq {config : Dict} {es : List Dict} {ids : List Int} {S : Finset Nat}
    (hu : UniformEntries es ids S)
    (hnodes : getPath config "nodelist" "node" = .ok (.list (es.map .dict)))
    (ht : totemTransport config = .ok (.str "knet")) :
    links config = interfaceOptions config (shapeSlots es ids (entryNames es) S) ∧
      ∀ ls, links config = .ok ls →
        rosters ls = (List.range knetLinkNumLimit).map (rosterOf es ids (entryNames es) S) := by
  have h := links_eq_of_entries hnodes hu.nonempty hu.nodeids hu.named hu.rings ht
  refine ⟨h, fun ls hls => ?_⟩
  rw [h] at hls
  rw [interfaceOptions_rosters hls, rosters_shapeSlots]

/-- The multicast branches of `migrate_transport`: `udp`, and no transport without a
node list. -/
theorem migrateTransport_multicast {cib : List CibNode} {peers : String → Except PyExc Dict}
    {dom dom' t : Dict} (ht : Dict.get? dom "totem" = some (.dict t))
    (hudp : Dict.get? t "transport" = some (.str "udp") ∨
      Dict.get? t "transport" = none ∧ Dict.hasKey dom "nodelist" = false)
    (h : migrateTransport cib peers dom = .ok dom') : migrateMulticast cib peers t dom = .ok dom' := by
  simp only [migrateTransport, ht] at h
  rcases hudp with hu | ⟨hn, hk⟩
  · simpa only [hu] using h
  · simp only [hn, Except.bind_eq_ok, hk] at h
    obtain ⟨⟨⟩, -, h⟩ := h
    simpa using h

/-- With every entry named, `migrate_rrp` leaves the node list as it is, and `totem`'s
transport too. -/
theorem migrateRrp_named {cib : List CibNode} {dom dom' t n : Dict} {l : List Value}
    (ht : Dict.get? dom "totem" = some (.dict t)) (hn : Dict.get? dom "nodelist" = some (.dict n))
    (hl : Dict.get? n "node" = some (.list l)) (hname : l.all (·.contains "name"))
    (h : migrateRrp cib dom = .ok dom') :
    Dict.get? dom' "nodelist" = Dict.get? dom "nodelist" ∧
      ∃ t', Dict.get? dom' "totem" = some (.dict t') ∧
        Dict.get? t' "transport" = Dict.get? t "transport" := by
  unfold migrateRrp at h
  simp only [hn, Value.getItem, hl, Value.iter, hname] at h
  split_ifs at h
  · cases h
    exact ⟨rfl, t, ht, rfl⟩
  · simp only [Except.bind_eq_ok, Except.pure_eq_ok] at h
    obtain ⟨_, h₁, -, -, rfl⟩ := h
    obtain ⟨t', ht', -, -, hft, hfd⟩ := dropRrpMode_ok ht h₁
    exact ⟨hfd _ (by simp), t', ht', hft _ (by simp) (by simp)⟩
  · simp at h

theorem all_contains_name {es : List Dict} (h : ∀ e ∈ es, Dict.hasKey e "name") :
    (es.map Value.dict).all (·.contains "name") :=
  List.all_eq_true.2 fun x hx => by
    obtain ⟨e, he, rfl⟩ := List.mem_map.1 hx
    exact h e he

/-- The last two steps on a transport the first two left on knet, with named entries in a
list: the tree stays on knet and keeps its node list. -/
theorem crypto_rrp_keep {cib : List CibNode} {dB d1 dC tB n : Dict} {es : List Dict}
    (htB : Dict.get? dB "totem" = some (.dict tB))
    (hkB : Dict.get? tB "transport" = some (.str "knet"))
    (hn : Dict.get? dB "nodelist" = some (.dict n)) (hnode : Dict.get? n "node" = some (.list (es.map .dict)))
    (hnamed : ∀ e ∈ es, Dict.hasKey e "name")
    (hC : migrateCrypto dB = .ok dC) (hD : migrateRrp cib dC = .ok d1) :
    totemTransport d1 = .ok (.str "knet") ∧ getPath d1 "nodelist" "node" = .ok (.list (es.map .dict)) := by
  obtain ⟨tC, htC, -, -, hfC, hdC⟩ := migrateCrypto_ok htB hC
  obtain ⟨hn1, t1, ht1, htr1⟩ := migrateRrp_named htC (by rw [hdC _ (by simp), hn]) hnode
    (all_contains_name hnamed) hD
  refine ⟨?_, by rw [getPath_of_get? (hn1.trans ((hdC _ (by simp)).trans hn))]; simp [Value.getItem, hnode]⟩
  simp [totemTransport, getPath_of_get? ht1, Value.getItem, htr1, hfC _ (by simp : "transport" ≠ _), hkB]

/-- **A migrated multicast tree** is on knet, with one entry per CIB node: its id, its
name and `ring{i}_addr` for each of the `k` interfaces every member lists. -/
theorem multicast_uniform {cib : List CibNode} {peers : String → Except PyExc Dict}
    {dom t d1 : Dict} {k : Nat} (ht : Dict.get? dom "totem" = some (.dict t))
    (hudp : Dict.get? t "transport" = some (.str "udp") ∨
      Dict.get? t "transport" = none ∧ Dict.hasKey dom "nodelist" = false)
    (hcib : cib ≠ [])
    (hk : ∀ node ∈ cib, ∀ v, memberInterfaces peers node.uname = .ok v → v.iter.length = k)
    (h : migrateCorosyncConfImpl cib peers dom = .ok d1) :
    totemTransport d1 = .ok (.str "knet") ∧ ∃ es, getPath d1 "nodelist" "node" = .ok (.list (es.map .dict)) ∧
      UniformEntries es (cib.map CibNode.nodeId) (Finset.range k) ∧
      entryNames es = cib.map fun node => .str node.uname := by
  obtain ⟨dA, dB, dC, hA, hB, hC, hD⟩ := migrateCorosyncConfImpl_steps h
  obtain ⟨tA, htA, -, htrA⟩ := transform_totem ht hA
  have hudpA : Dict.get? tA "transport" = some (.str "udp") ∨
      Dict.get? tA "transport" = none ∧ Dict.hasKey dA "nodelist" = false := by
    rw [htrA _ (by simp)]
    exact hudp.imp_right fun ⟨hn, hk⟩ => ⟨hn, transform_nodelist_absent hk hA⟩
  have hmc := migrateTransport_multicast htA hudpA hB
  obtain ⟨tB, es, htB, hkB, -, -, -, -, hes, hnB, -⟩ := migrateMulticast_ok ((transform_ok hA).1.totem tA htA) hmc
  have hentry := mapM_eq_ok.1 hes
  have hnamed (e) (he : e ∈ es) : Dict.hasKey e "name" := by
    obtain ⟨node, -, hne⟩ := mapM_exists_of_mem hes he
    simp [nodeEntry_name hne]
  obtain ⟨htr, hn1⟩ := crypto_rrp_keep htB hkB hnB (by simp) hnamed hC hD
  refine ⟨htr, es, hn1, ⟨fun hne => hcib ?_, ?_, hnamed, fun e he i _ => ?_⟩, ?_⟩
  · exact List.eq_nil_of_length_eq_zero (hentry.length_eq.trans (by rw [hne]; rfl))
  · exact mapM_eq_ok.2 <| List.forall₂_map_left_iff.2 <| List.forall₂_map_right_iff.2 <|
      List.Forall₂.flip <| hentry.imp fun node e he => by
        obtain ⟨v, -, hid, -⟩ := nodeEntry_addresses he
        simp [flip, entryNodeid_dict, hid]
  · obtain ⟨node, hnode, hne⟩ := mapM_exists_of_mem hes he
    simpa using nodeEntry_hasKey_ringKey (hk node hnode) hne i
  · exact (forall₂_map_eq hentry fun node _ e he => by simp [entryNames, nodeEntry_name he]).symm

theorem getPath_eq_ok {config : Dict} {a b : String} {v : Value} (h : getPath config a b = .ok v) :
    ∃ n, Dict.get? config a = some (.dict n) ∧ Dict.get? n b = some v := by
  obtain ⟨w, hw, hv⟩ := Except.bind_eq_ok.1 h
  simp only [Value.getItem] at hw
  split at hw <;> cases hw
  rename_i hg
  cases w with
  | dict n =>
    simp only [Value.getItem] at hv
    split at hv <;> cases hv
    exact ⟨n, hg, by assumption⟩
  | _ => cases hv

/-- A migrated udpu tree is on knet and keeps its node list, a lone entry wrapped in a
list, where every entry is named. -/
theorem udpu_keeps_nodes {cib : List CibNode} {peers : String → Except PyExc Dict}
    {dom t d1 : Dict} {v : Value} {es : List Dict} (ht : Dict.get? dom "totem" = some (.dict t))
    (hudpu : Dict.get? t "transport" = some (.str "udpu"))
    (hnodes : getPath dom "nodelist" "node" = .ok v) (hv : v.elems = es.map .dict)
    (hnamed : ∀ e ∈ es, Dict.hasKey e "name")
    (h : migrateCorosyncConfImpl cib peers dom = .ok d1) :
    totemTransport d1 = .ok (.str "knet") ∧ getPath d1 "nodelist" "node" = .ok (.list (es.map .dict)) := by
  obtain ⟨dA, dB, dC, hA, hB, hC, hD⟩ := migrateCorosyncConfImpl_steps h
  obtain ⟨tA, htA, -, htrA⟩ := transform_totem ht hA
  obtain ⟨n, hn, hnode⟩ := getPath_eq_ok hnodes
  obtain ⟨nA, hnA, hnodeA, -⟩ := transform_nodelist hn hA
  have hudpuA : migrateUdpu tA dA = .ok dB := by
    simpa only [migrateTransport, htA, htrA _ (by simp : "transport" ≠ _), hudpu] using hB
  obtain ⟨tB, htB, hkB, -, -, -, -, hfB⟩ := migrateUdpu_ok ((transform_ok hA).1.totem tA htA) hudpuA
  exact crypto_rrp_keep htB hkB (by rw [hfB _ (by simp) (by simp), hnA]) (by rw [hnodeA, hnode, Option.map_some', hv])
    hnamed hC hD

/-- **A migrated legacy tree is what the link manager expects.**  Take a tree whose
transport is `udpu` with a node list of named, uniform entries, or whose transport is
`udp`, or absent with no node list, with a non-empty CIB and members that each list the
same number of interfaces.  If the migration returns, the tree is on knet and its node
list is a non-empty list of named entries with integer ids that all have `ring{i}_addr`
for the same links `S`.  `links()` then returns what the interface records make of the
slots of `S` (it raises only when one of them does not load), and whatever it returns
lists every node on each link of `S`. -/
theorem migration_links {cib : List CibNode} {peers : String → Except PyExc Dict}
    {dom t d1 : Dict} (ht : Dict.get? dom "totem" = some (.dict t))
    (hlegacy : (Dict.get? t "transport" = some (.str "udpu") ∧
        ∃ v es ids S, getPath dom "nodelist" "node" = .ok v ∧ v.elems = es.map .dict ∧
          UniformEntries es ids S) ∨
      ((Dict.get? t "transport" = some (.str "udp") ∨
          Dict.get? t "transport" = none ∧ Dict.hasKey dom "nodelist" = false) ∧
        cib ≠ [] ∧ ∃ k, ∀ node ∈ cib, ∀ v, memberInterfaces peers node.uname = .ok v → v.iter.length = k))
    (h : migrateCorosyncConfImpl cib peers dom = .ok d1) :
    totemTransport d1 = .ok (.str "knet") ∧
      ∃ es ids S, getPath d1 "nodelist" "node" = .ok (.list (es.map .dict)) ∧ UniformEntries es ids S ∧
        links d1 = interfaceOptions d1 (shapeSlots es ids (entryNames es) S) ∧
        ∀ ls, links d1 = .ok ls →
          rosters ls = (List.range knetLinkNumLimit).map (rosterOf es ids (entryNames es) S) := by
  rcases hlegacy with ⟨hudpu, v, es, ids, S, hnodes, hv, hu⟩ | ⟨hudp, hcib, k, hk⟩
  · obtain ⟨htr, hn⟩ := udpu_keeps_nodes ht hudpu hnodes hv hu.named h
    exact ⟨htr, es, ids, S, hn, hu, hu.links_eq hn htr⟩
  · obtain ⟨htr, es, hn, hu, -⟩ := multicast_uniform ht hudp hcib hk h
    exact ⟨htr, es, _, _, hn, hu, hu.links_eq hn htr⟩

/-- The tree of the migration below. -/
def twoMemberTree : Dict :=
  [("totem", .dict [("transport", .str "knet"), ("interface", .list [
      .dict [("mcastport", .str "5405"), ("linknumber", .str "0")], .dict [("linknumber", .str "1")]]),
    ("knet_compression_model", .str "none")]),
   ("nodelist", .dict [("node", .list [
     .dict [("nodeid", .str "1"), ("name", .str "alpha"), ("ring0_addr", .str "10.0.0.0"),
       ("ring1_addr", .str "10.1.0.0")],
     .dict [("nodeid", .str "2"), ("name", .str "beta"), ("ring0_addr", .str "10.0.0.0"),
       ("ring1_addr", .str "10.1.0.0")]])])]

/-- Two members whose configurations list the two networks of a two-ring multicast tree:
the migrated tree's node list has links 0 and 1 for both nodes. -/
theorem twoMember_multicast_links :
    migrateCorosyncConfImpl [⟨1, "alpha"⟩, ⟨2, "beta"⟩]
        (fun _ => .ok [("totem", .dict [("interface", .list [
          .dict [("bindnetaddr", .str "10.0.0.0")], .dict [("bindnetaddr", .str "10.1.0.0")]])])])
        [("totem", .dict [("transport", .str "udp"), ("interface", .list [
          .dict [("ringnumber", .str "0"), ("bindnetaddr", .str "10.0.0.0"), ("mcastport", .str "5405")],
          .dict [("ringnumber", .str "1"), ("bindnetaddr", .str "10.1.0.0")]])])] =
      .ok twoMemberTree ∧
    totemTransport twoMemberTree = .ok (.str "knet") ∧
      ∃ es ids S, getPath twoMemberTree "nodelist" "node" = .ok (.list (es.map .dict)) ∧
        UniformEntries es ids S ∧
        links twoMemberTree = interfaceOptions twoMemberTree (shapeSlots es ids (entryNames es) S) ∧
        ∀ ls, links twoMemberTree = .ok ls →
          rosters ls = (List.range knetLinkNumLimit).map (rosterOf es ids (entryNames es) S) :=
  (fun h => ⟨h, migration_links (by rfl) (.inr ⟨.inl (by rfl), by decide, 2, fun _ _ v hv => by
      obtain rfl : v = .list [.dict [("bindnetaddr", .str "10.0.0.0")],
          .dict [("bindnetaddr", .str "10.1.0.0")]] := Except.ok.inj (hv.symm.trans rfl)
      rfl⟩) h⟩) (by decide)

end Crmsh
