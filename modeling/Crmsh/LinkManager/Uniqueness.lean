import Crmsh.LinkManager.WellFormed

/-!
# Global address uniqueness

`__upsert_node_addr_impl` refuses an address already in use: it indexes the canonical
form of every address of every present link, and a node whose address changes must not
take one the index knows.  This file proves that the check keeps the addresses of the
tree pairwise distinct over every sequence of calls (`addrsUnique_run`).

The check reads its index off `links()`, and the tree is written only once the whole loop
has passed, so the proof reads the write loop as the pairs of `node_addresses` written
one after another (`writeAddr_cons`).  `AddrsUnique` is the property of the node entries,
and `Covers` says the index knows each of their addresses.  One pair the check lets
through keeps both (`AddrsUnique.writePair`); by induction over the pairs the tree the
loop leaves is unique (`upsertCheck_addrsUnique`), and the index the loop starts from
covers the tree (`existingAddrNodeMap_covers`).  Every operation keeps the invariant
`UniqueAddrs`, whether it returns or raises, so every tree of a run has it
(`UniqueAddrs.run`).
-/

namespace Crmsh

variable {α : Type}

/-! ## Canonical addresses -/

/-- A `ring{i}_addr` value as the check reads it: `none` for the empty address, which it
skips, and `utils.IP(a).ip_address` for any other, raising on one that is not valid. -/
def addrCanon (canon : String → Option α) (v : Value) : Except PyExc (Option α) :=
  if v = .str "" then .ok none else some <$> ipAddress canon v

/-- Entry `e`'s canonical address on link `i`; an absent `ring{i}_addr` reads as empty,
as in `links()`. -/
def ringCanon (canon : String → Option α) (e : Dict) (i : Nat) : Except PyExc (Option α) :=
  addrCanon canon ((Dict.get? e (ringKey i)).getD (.str ""))

/-- **Global address uniqueness** over the node entries `es`: every `ring{i}_addr`,
`i < 8`, is empty or a valid address, and a canonical address stands in one
(entry, link) slot at most. -/
structure AddrsUnique (canon : String → Option α) (es : List Dict) : Prop where
  valid : ∀ e ∈ es, ∀ i < knetLinkNumLimit, ∃ c, ringCanon canon e i = .ok c
  unique : ∀ {p q i j : Nat} {e e' : Dict} {c : α}, es[p]? = some e → es[q]? = some e' →
    i < knetLinkNumLimit → j < knetLinkNumLimit → ringCanon canon e i = .ok (some c) →
    ringCanon canon e' j = .ok (some c) → p = q ∧ i = j

/-- The index `m` of the check knows every address of the entries `es`. -/
def Covers (canon : String → Option α) (es : List Dict) (m : α → Option Int) : Prop :=
  ∀ e ∈ es, ∀ i < knetLinkNumLimit, ∀ c, ringCanon canon e i = .ok (some c) → (m c).isSome

/-- No two entries of `es` have the same id. -/
def IdsDistinct (es : List Dict) : Prop :=
  ∀ {p q : Nat} {e e' : Dict} {id : Int}, es[p]? = some e → es[q]? = some e' →
    entryNodeid (.dict e) = .ok id → entryNodeid (.dict e') = .ok id → p = q

variable {canon : String → Option α}

@[simp] theorem addrCanon_empty : addrCanon canon (.str "") = .ok none := rfl

theorem ringCanon_of_get?_none {e : Dict} {i : Nat} (h : Dict.get? e (ringKey i) = none) :
    ringCanon canon e i = .ok none := by
  simp [ringCanon, h]

theorem forall₂_getElem? {β γ : Type} {R : β → γ → Prop} {l₁ : List β} {l₂ : List γ}
    (h : List.Forall₂ R l₁ l₂) {p : Nat} {b : γ} (hb : l₂[p]? = some b) :
    ∃ a, l₁[p]? = some a ∧ R a b := by
  induction h generalizing p with
  | nil => cases hb
  | cons hab _ ih =>
    cases p with
    | zero =>
      simp only [List.getElem?_cons_zero, Option.some.injEq] at hb
      exact ⟨_, List.getElem?_cons_zero, hb ▸ hab⟩
    | succ p => simpa only [List.getElem?_cons_succ] using ih (by simpa using hb)

/-- Entries that keep their addresses or lose some stay unique. -/
theorem AddrsUnique.of_forall₂ {es es' : List Dict} (hu : AddrsUnique canon es)
    (h : List.Forall₂ (fun e e' => ∀ i < knetLinkNumLimit,
      ringCanon canon e' i = ringCanon canon e i ∨ ringCanon canon e' i = .ok none) es es') :
    AddrsUnique canon es' where
  valid e' he' i hi := by
    obtain ⟨p, hp⟩ := List.mem_iff_getElem?.1 he'
    obtain ⟨e, he, hr⟩ := forall₂_getElem? h hp
    rcases hr i hi with hr | hr
    · exact hr ▸ hu.valid e (List.getElem?_mem he) i hi
    · exact ⟨_, hr⟩
  unique hp hq hi hj hc hc' := by
    obtain ⟨e₁, he₁, hr₁⟩ := forall₂_getElem? h hp
    obtain ⟨e₂, he₂, hr₂⟩ := forall₂_getElem? h hq
    have kept : ∀ {e e₀ : Dict} {i : Nat} {c : α}, (∀ i < knetLinkNumLimit,
        ringCanon canon e i = ringCanon canon e₀ i ∨ ringCanon canon e i = .ok none) →
        i < knetLinkNumLimit → ringCanon canon e i = .ok (some c) →
        ringCanon canon e₀ i = .ok (some c) := fun hr hi hc =>
      (hr _ hi).elim (fun h => h.symm.trans hc) fun h => by rw [h] at hc; cases hc
    exact hu.unique he₁ he₂ hi hj (kept hr₁ hi hc) (kept hr₂ hj hc')

/-- The canonical addresses of the entries `es`, entry by entry and link by link. -/
def canonAddrs (canon : String → Option α) (es : List Dict) : List α :=
  es.flatMap fun e => (List.range knetLinkNumLimit).filterMap fun i => (ringCanon canon e i).toOption.join

/-- **A computable test of uniqueness**: every address is valid, and the list of the
canonical addresses has no repeats. -/
theorem AddrsUnique.of_nodup {es : List Dict}
    (hv : ∀ e ∈ es, ∀ i < knetLinkNumLimit, (ringCanon canon e i).isOk)
    (hnd : (canonAddrs canon es).Nodup) : AddrsUnique canon es where
  valid e he i hi := by
    have := hv e he i hi
    revert this
    cases ringCanon canon e i <;> simp [Except.isOk, Except.toBool]
  unique {p q i j e e' c} hp hq hi hj hc hc' := by
    induction es generalizing p q with
    | nil => cases hp
    | cons x es ih =>
      simp only [canonAddrs, List.flatMap_cons, List.nodup_append] at hnd
      have hmem : ∀ {k}, k < knetLinkNumLimit → ∀ {y}, ringCanon canon y k = .ok (some c) →
          c ∈ (List.range knetLinkNumLimit).filterMap fun i => (ringCanon canon y i).toOption.join :=
        fun hk _ hy => List.mem_filterMap.2 ⟨_, List.mem_range.2 hk, by simp [hy, Except.toOption]⟩
      rcases p with _ | p <;> rcases q with _ | q <;>
        simp only [List.getElem?_cons_zero, List.getElem?_cons_succ, Option.some.injEq] at hp hq
      · subst hp hq
        exact ⟨rfl, eq_of_mem_filterMap_nodup (b := c) hnd.1 (List.mem_range.2 hi)
          (List.mem_range.2 hj) (by simp [hc, Except.toOption]) (by simp [hc', Except.toOption])⟩
      · subst hp
        exact absurd (List.mem_flatMap.2 ⟨e', List.getElem?_mem hq, hmem hj hc'⟩) (hnd.2.2 (hmem hi hc))
      · subst hq
        exact absurd (List.mem_flatMap.2 ⟨e, List.getElem?_mem hp, hmem hi hc⟩) (hnd.2.2 (hmem hj hc'))
      · simpa using ih (fun y hy => hv y (List.mem_cons_of_mem _ hy)) hnd.2.1 hp hq

/-! ## Writing the pairs one at a time -/

/-- Entry `e` after the write of the pair `(nodeid, addr)` of `node_addresses`. -/
def writePair (n : Int) (pair : Int × String) (e : Dict) : Dict :=
  if entryNodeid (.dict e) = .ok pair.1 then Dict.set e (ringKey n) (.str pair.2) else e

theorem entryNodeid_set_ring {e : Dict} {n : Int} {v : Value} :
    entryNodeid (.dict (Dict.set e (ringKey n) v)) = entryNodeid (.dict e) := by
  rw [entryNodeid_dict, entryNodeid_dict, Dict.get?_set_ne (ringKey_ne_nodeid n).symm]

@[simp] theorem entryNodeid_writePair {n : Int} {pair : Int × String} {e : Dict} :
    entryNodeid (.dict (writePair n pair e)) = entryNodeid (.dict e) := by
  unfold writePair
  split <;> simp only [entryNodeid_set_ring]

/-- The write loop over `node_addresses` is the writes of its pairs, one after another. -/
theorem writeAddr_cons {n id : Int} {a : String} {rest : List (Int × String)}
    (h : (((id, a) :: rest).map Prod.fst).Nodup) :
    writeAddr n ⟨(id, a) :: rest, h⟩ =
      writeAddr n ⟨rest, (List.nodup_cons.1 h).2⟩ ∘ writePair n (id, a) := by
  funext e
  have hnot : rest.find? (fun p => p.1 = id) = none := List.find?_eq_none.2 fun p hp hpid =>
    (List.nodup_cons.1 h).1 (List.mem_map.2 ⟨p, hp, of_decide_eq_true hpid⟩)
  cases hid : entryNodeid (.dict e) with
  | error => simp [writeAddr, writePair, hid]
  | ok id' =>
    by_cases h' : id' = id
    · subst h'
      simp [writeAddr, writePair, hid, entryNodeid_set_ring, PyDict.get?, hnot]
    · simp [writeAddr, writePair, hid, PyDict.get?, h', Ne.symm h', List.find?_cons]

@[simp] theorem writeAddr_nil {n : Int} (h : (([] : List (Int × String)).map Prod.fst).Nodup) :
    writeAddr n ⟨[], h⟩ = id := by
  funext e
  unfold writeAddr
  split <;> rfl

theorem ringCanon_writePair {n i : Nat} {pair : Int × String} {e : Dict} :
    ringCanon canon (writePair n pair e) i =
      if i = n ∧ entryNodeid (.dict e) = .ok pair.1 then addrCanon canon (.str pair.2)
      else ringCanon canon e i := by
  unfold writePair
  by_cases hid : entryNodeid (.dict e) = .ok pair.1
  · by_cases hi : i = n
    · subst hi; simp [ringCanon, hid]
    · have : ringKey i ≠ ringKey n := fun h => hi (by exact_mod_cast ringKey_injective h)
      simp [ringCanon, hid, hi, this]
  · simp [hid]

theorem IdsDistinct.map {es : List Dict} {f : Dict → Dict}
    (hf : ∀ e, entryNodeid (.dict (f e)) = entryNodeid (.dict e)) (h : IdsDistinct es) :
    IdsDistinct (es.map f) := fun hp hq he he' => by
  rw [List.getElem?_map] at hp hq
  obtain ⟨e₁, he₁, rfl⟩ := Option.map_eq_some'.1 hp
  obtain ⟨e₂, he₂, rfl⟩ := Option.map_eq_some'.1 hq
  exact h he₁ he₂ ((hf _).symm.trans he) ((hf _).symm.trans he')

theorem addrCanon_str {a : String} {c : α} (hc : ipAddress canon (.str a) = .ok c) :
    addrCanon canon (.str a) = if a = "" then .ok none else .ok (some c) := by
  by_cases ha : a = ""
  · subst ha; rfl
  · simp [addrCanon, ha, hc, Functor.map, Except.map]

theorem ipAddress_str_ok {a : String} {c : α} : ipAddress canon (.str a) = .ok c ↔ canon a = some c := by
  unfold ipAddress
  cases h : canon a <;> simp [h]

/-! ## The nodes `links()` reads -/

/-- The nodes `links()` builds for link `i` are the entries, each with its id and its
`ring{i}_addr`. -/
theorem mem_zipWith3_ringValues {es : List Dict} {ids : List Int} {names : List Value} {i : Nat}
    (hids : (es.map Value.dict).mapM entryNodeid = .ok ids) (hn : names.length = es.length) :
    (∀ node ∈ List.zipWith3 LinkNode.mk ids names (ringValues es i), ∃ e ∈ es,
      entryNodeid (.dict e) = .ok node.nodeid ∧
        node.addr = (Dict.get? e (ringKey i)).getD (.str "")) ∧
    ∀ e ∈ es, ∃ node ∈ List.zipWith3 LinkNode.mk ids names (ringValues es i),
      node.addr = (Dict.get? e (ringKey i)).getD (.str "") := by
  induction es generalizing ids names with
  | nil => cases ids <;> cases names <;> simp [ringValues, List.zipWith3]
  | cons e es ih =>
    rw [List.map_cons, mapM_eq_ok] at hids
    cases hids with
    | cons hid hrest =>
    cases names with
    | nil => cases hn
    | cons nm names =>
    obtain ⟨ih₁, ih₂⟩ := ih (mapM_eq_ok.2 hrest) (Nat.succ.inj hn)
    refine ⟨fun node hnode => ?_, fun e' he' => ?_⟩
    · rcases List.mem_cons.1 hnode with rfl | hnode
      · exact ⟨e, List.mem_cons_self _ _, hid, rfl⟩
      · obtain ⟨e', he', h⟩ := ih₁ node hnode
        exact ⟨e', List.mem_cons_of_mem _ he', h⟩
    · rcases List.mem_cons.1 he' with rfl | he'
      · exact ⟨_, List.mem_cons_self _ _, rfl⟩
      · obtain ⟨node, hnode, h⟩ := ih₂ e' he'
        exact ⟨node, List.mem_cons_of_mem _ hnode, h⟩

theorem NodeListShape.idsDistinct {config : Dict} {es : List Dict} {ids : List Int}
    {S : Finset Nat} (hs : NodeListShape config es ids S) : IdsDistinct es := by
  intro p q e e' id hp hq he he'
  have hall := (mapM_eq_ok.1 hs.nodeids).flip
  have hid : ∀ {r e}, es[r]? = some e → entryNodeid (.dict e) = .ok id → ids[r]? = some id :=
    fun {r e} hr he => by
      obtain ⟨b, hb, hrel⟩ := forall₂_getElem? hall (by rw [List.getElem?_map, hr]; rfl)
      rw [he] at hrel
      cases hrel
      exact hb
  have hp' := hid hp he
  exact List.getElem?_inj (List.getElem?_eq_some_iff.1 hp').1 hs.distinct (hp'.trans (hid hq he').symm)

theorem IdsDistinct.eq_of_mem {es : List Dict} (h : IdsDistinct es) {e e' : Dict} {id : Int}
    (he : e ∈ es) (he' : e' ∈ es) (hid : entryNodeid (.dict e) = .ok id)
    (hid' : entryNodeid (.dict e') = .ok id) : e = e' := by
  obtain ⟨p, hp⟩ := List.mem_iff_getElem?.1 he
  obtain ⟨q, hq⟩ := List.mem_iff_getElem?.1 he'
  obtain rfl := h hp hq hid hid'
  exact Option.some.inj (hp.symm.trans hq)

/-- The nodes of a present link of a well-shaped tree are its entries, each with its
address on that link. -/
theorem slot_nodes_addr {config : Dict} {es : List Dict} {ids : List Int} {S : Finset Nat}
    {ls : List (Option Link)} (hs : NodeListShape config es ids S) (hl : links config = .ok ls)
    {i : Nat} {l : Link} (hsl : ls[i]? = some (some l)) :
    i ∈ S ∧ (∀ node ∈ l.nodes, ∃ e ∈ es, entryNodeid (.dict e) = .ok node.nodeid ∧
        node.addr = (Dict.get? e (ringKey i)).getD (.str "")) ∧
      ∀ e ∈ es, ∃ node ∈ l.nodes, node.addr = (Dict.get? e (ringKey i)).getD (.str "") := by
  obtain ⟨names, hn, hr⟩ := links_rosters hs hl
  have hiS : i ∈ S := (slot_isSome_iff hr hsl).1 rfl
  have hnodes := (slot_roster hr hsl).2
  simp only [rosterOf, hiS, if_true, Option.map_some', Option.some.injEq] at hnodes
  have hmem : ∀ node, node ∈ l.nodes ↔
      node ∈ List.zipWith3 LinkNode.mk ids names (ringValues es i) := fun node => by
    rw [hnodes]; exact (List.perm_insertionSort _ _).mem_iff
  obtain ⟨h₁, h₂⟩ := mem_zipWith3_ringValues (i := i) hs.nodeids hn
  exact ⟨hiS, fun node hnode => h₁ node ((hmem node).1 hnode),
    fun e he => (h₂ e he).imp fun node ⟨hnode, h⟩ => ⟨(hmem node).2 hnode, h⟩⟩

/-- Every address of a well-shaped tree is on a node of its link in `links()`. -/
theorem slot_node_of_ringCanon {config : Dict} {es : List Dict} {ids : List Int}
    {S : Finset Nat} {ls : List (Option Link)} (hs : NodeListShape config es ids S)
    (hl : links config = .ok ls) {e : Dict} (he : e ∈ es) {i : Nat} (hi : i < knetLinkNumLimit)
    {c : α} (hc : ringCanon canon e i = .ok (some c)) :
    i ∈ S ∧ ∃ l, ls[i]? = some (some l) ∧
      ∃ node ∈ l.nodes, addrCanon canon node.addr = .ok (some c) := by
  have hkey : Dict.hasKey e (ringKey i) := by
    cases hv : Dict.get? e (ringKey i) with
    | none => rw [ringCanon_of_get?_none hv] at hc; cases hc
    | some v => simp [hv]
  have hiS := (hs.rings e he i hi).1 hkey
  obtain ⟨names, -, hr⟩ := links_rosters hs hl
  have hlen : ls.length = knetLinkNumLimit := by simpa [rosters] using congrArg List.length hr
  obtain ⟨s, hsl⟩ : ∃ s, ls[i]? = some s := ⟨_, List.getElem?_eq_getElem (by omega)⟩
  obtain ⟨l, rfl⟩ := Option.isSome_iff_exists.1 ((slot_isSome_iff hr hsl).2 hiS)
  obtain ⟨node, hnode, haddr⟩ := (slot_nodes_addr hs hl hsl).2.2 e he
  exact ⟨hiS, l, hsl, node, hnode, haddr ▸ hc⟩

/-- A fold that only adds to the index keeps what it had, and ends up knowing what each
step put in. -/
theorem foldlM_index {β : Type} {g : (α → Option Int) → β → Except PyExc (α → Option Int)}
    {Q : β → α → Prop}
    (hg : ∀ m b m', g m b = .ok m' →
      (∀ c, (m c).isSome → (m' c).isSome) ∧ ∀ c, Q b c → (m' c).isSome) :
    ∀ {l : List β} {m m' : α → Option Int}, l.foldlM g m = .ok m' →
      (∀ c, (m c).isSome → (m' c).isSome) ∧ ∀ b ∈ l, ∀ c, Q b c → (m' c).isSome
  | [], m, m', h => by
    cases h
    exact ⟨fun _ => id, fun _ hb => nomatch hb⟩
  | b :: l, m, m', h => by
    obtain ⟨m₁, h₁, hl⟩ := Except.bind_eq_ok.1 h
    obtain ⟨hgrow, hput⟩ := hg m b m₁ h₁
    obtain ⟨hgrow', hput'⟩ := foldlM_index hg hl
    refine ⟨fun c hc => hgrow' c (hgrow c hc), fun b' hb' c hq => ?_⟩
    rcases List.mem_cons.1 hb' with rfl | hb'
    exacts [hgrow' c (hput c hq), hput' b' hb' c hq]

/-- A fold that adds to the index only what its steps put in knows nothing else. -/
theorem foldlM_index_sound {β : Type} {g : (α → Option Int) → β → Except PyExc (α → Option Int)}
    {Q : β → α → Prop} (hg : ∀ m b m', g m b = .ok m' → ∀ c, (m' c).isSome → (m c).isSome ∨ Q b c) :
    ∀ {l : List β} {m m' : α → Option Int}, l.foldlM g m = .ok m' →
      ∀ c, (m' c).isSome → (m c).isSome ∨ ∃ b ∈ l, Q b c
  | [], m, m', h => by cases h; exact fun c hc => .inl hc
  | b :: l, m, m', h => by
    obtain ⟨m₁, h₁, hl⟩ := Except.bind_eq_ok.1 h
    intro c hc
    rcases foldlM_index_sound hg hl c hc with hc | ⟨b', hb', hq⟩
    · exact (hg m b m₁ h₁ c hc).imp_right fun hq => ⟨b, List.mem_cons_self _ _, hq⟩
    · exact .inr ⟨b', List.mem_cons_of_mem _ hb', hq⟩

/-! ## What each operation leaves -/

theorem updateLink_raised {config c : Dict} {n : Int} {options : PyDict String (Option String)}
    {e : PyExc} (h : updateLink config n options = .raised e c) : c = config := by
  unfold updateLink at h
  repeat' (split at h <;> try (cases h; rfl))
  cases h

/-- `update_link` never writes the node list, whether it returns or raises. -/
theorem updateLink_nodes (config : Dict) (n : Int) (options : PyDict String (Option String)) :
    getPath (updateLink config n options).dom "nodelist" "node" =
      getPath config "nodelist" "node" := by
  cases h : updateLink config n options with
  | ok config' =>
    obtain ⟨-, -, -, -, -, -, -, -, -, -, -, -, -, -, rfl⟩ := updateLink_ok h
    exact getPath_set_ne (by decide)
  | raised e c => exact congrArg (getPath · "nodelist" "node") (updateLink_raised h)

theorem removeRecords_nodes (config : Dict) (n : Int) :
    getPath (removeRecords config n).dom "nodelist" "node" =
      getPath config "nodelist" "node" := by
  unfold removeRecords
  repeat' split
  all_goals first | rfl | exact getPath_set_ne (by decide)

theorem rosterAt_of_existingLink {ls : List (Option Link)} {n : Int} {link : Link}
    (h : existingLink ls n = .ok link) : rosterAt ls n = .ok link.nodes := by
  unfold existingLink at h
  unfold rosterAt
  split_ifs at h
  split at h <;> simp_all

/-- `del node[key]` over the entries takes the key out of some of them and leaves the
others. -/
theorem delItemAll_forall₂ (k : String) : ∀ es : List Dict, ∃ es',
    (delItemAll k (es.map .dict)).2 = es'.map .dict ∧
      List.Forall₂ (fun e e' => e' = e ∨ e' = Dict.erase e k) es es'
  | [] => ⟨[], rfl, .nil⟩
  | e :: es => by
    by_cases hk : Dict.hasKey e k
    · obtain ⟨es', h, hr⟩ := delItemAll_forall₂ k es
      exact ⟨Dict.erase e k :: es', by simp [delItemAll, hk, h], .cons (.inr rfl) hr⟩
    · exact ⟨e :: es, by simp [delItemAll, hk],
        .cons (.inl rfl) (List.forall₂_same.2 fun _ _ => .inl rfl)⟩

/-- What `remove_link` leaves in the node list: the list it was given, or the entries
after its delete loop, once the guard passed. -/
theorem removeLink_nodes {config : Dict} {n : Int} {es : List Dict}
    (hn : getPath config "nodelist" "node" = .ok (.list (es.map .dict))) :
    getPath (removeLink config n).dom "nodelist" "node" = getPath config "nodelist" "node" ∨
      ∃ ls link, links config = .ok ls ∧ existingLink ls n = .ok link ∧
        getPath (removeLink config n).dom "nodelist" "node" =
          .ok (.list (delItemAll (ringKey n) (es.map .dict)).2) := by
  unfold removeLink
  split
  · exact .inl rfl
  rename_i ls hls
  obtain ⟨ls, hl, hlink'⟩ := Except.bind_eq_ok.1 hls
  obtain ⟨link, hlink, rfl⟩ := Except.map_eq_ok.1 hlink'
  split
  · exact .inl rfl
  refine .inr ⟨ls, link, hl, hlink, ?_⟩
  simp only [hn]
  obtain ⟨r, nodes⟩ := delItemAll (ringKey n) (es.map .dict)
  cases r
  · rw [removeRecords_nodes]; exact getPath_setNodes_nodelist hn
  · exact getPath_setNodes_nodelist hn

theorem rosterAt_set {ls : List (Option Link)} {k : Nat} {l : Link} (hk : k < ls.length) :
    rosterAt (ls.set k (some l)) k = .ok l.nodes := by
  have h0 : ¬((k : Int) < 0) := by omega
  simp [rosterAt, pyIndex, h0, hk]

theorem forall₂_mem_right {β γ : Type} {R : β → γ → Prop} {l₁ : List β} {l₂ : List γ}
    (h : List.Forall₂ R l₁ l₂) {b : γ} (hb : b ∈ l₂) : ∃ a ∈ l₁, R a b := by
  obtain ⟨p, hp⟩ := List.mem_iff_getElem?.1 hb
  obtain ⟨a, ha, hr⟩ := forall₂_getElem? h hp
  exact ⟨a, List.getElem?_mem ha, hr⟩

theorem mapM_entryNodeid_forall₂ {es es' : List Dict} {n : Int}
    (h : List.Forall₂ (fun e e' => e' = e ∨ e' = Dict.erase e (ringKey n)) es es') :
    (es'.map Value.dict).mapM entryNodeid = (es.map Value.dict).mapM entryNodeid := by
  induction h with
  | nil => rfl
  | cons hr _ ih =>
    rcases hr with rfl | rfl <;>
      simp only [List.map_cons, List.mapM_cons, entryNodeid_dict,
        Dict.get?_erase_ne (ringKey_ne_nodeid n).symm, ih]

/-- Entries that lose a key naming no link `0..7`, here and there, keep the shape. -/
theorem NodeListShape.of_forall₂ {config config' : Dict} {es es' : List Dict} {ids : List Int}
    {S : Finset Nat} {n : Int} (hs : NodeListShape config es ids S)
    (hn : getPath config' "nodelist" "node" = .ok (.list (es'.map .dict)))
    (hk : ∀ i : Nat, ringKey i ≠ ringKey n)
    (h : List.Forall₂ (fun e e' => e' = e ∨ e' = Dict.erase e (ringKey n)) es es') :
    NodeListShape config' es' ids S where
  nodes := hn
  nonempty := by rintro rfl; exact hs.nonempty (List.forall₂_nil_right_iff.1 h)
  nodeids := (mapM_entryNodeid_forall₂ h).trans hs.nodeids
  distinct := hs.distinct
  named e' he' := by
    obtain ⟨e, he, rfl | rfl⟩ := forall₂_mem_right h he'
    · exact hs.named _ he
    · exact Dict.hasKey_erase.2 ⟨(ringKey_ne_name n).symm, hs.named _ he⟩
  rings e' he' i hi := by
    obtain ⟨e, he, rfl | rfl⟩ := forall₂_mem_right h he'
    · exact hs.rings _ he i hi
    · rw [Dict.hasKey_erase, ← hs.rings _ he i hi]
      exact and_iff_right (hk i)
  within := hs.within

/-! ## The invariant -/

/-- **The invariant of a run**: a well-shaped node list whose addresses are unique. -/
def UniqueAddrs (canon : String → Option α) (config : Dict) : Prop :=
  ∃ es ids S, NodeListShape config es ids S ∧ AddrsUnique canon es

theorem UniqueAddrs.of_getPath {config config' : Dict} (h : UniqueAddrs canon config)
    (hn : getPath config' "nodelist" "node" = getPath config "nodelist" "node") :
    UniqueAddrs canon config' :=
  let ⟨es, ids, S, hs, hu⟩ := h
  ⟨es, ids, S, hs.of_getPath hn, hu⟩

/-- On a tree with unique addresses every address of a present link is valid. -/
theorem UniqueAddrs.links_valid {config : Dict} {ls : List (Option Link)} (hu : UniqueAddrs canon config)
    (hl : links config = .ok ls) :
    ∀ l, some l ∈ ls → ∀ node ∈ l.nodes, ∃ o, addrCanon canon node.addr = .ok o := by
  obtain ⟨es, ids, S, hs, hU⟩ := hu
  obtain ⟨names, -, hr⟩ := links_rosters hs hl
  intro l hl' node hnode
  obtain ⟨j, hj⟩ := List.mem_iff_getElem?.1 hl'
  obtain ⟨e, he, -, haddr⟩ := (slot_nodes_addr hs hl hj).2.1 node hnode
  obtain ⟨c, hc⟩ := hU.valid e he j (slot_roster hr hj).1
  exact ⟨c, by rw [haddr]; exact hc⟩

theorem UniqueAddrs.updateLink {config : Dict} {n : Int}
    {options : PyDict String (Option String)} (h : UniqueAddrs canon config) :
    UniqueAddrs canon (updateLink config n options).dom :=
  h.of_getPath (updateLink_nodes config n options)

/-- `remove_link` keeps addresses unique: its delete loop only takes addresses away. -/
theorem UniqueAddrs.removeLink {config : Dict} {n : Int} (h : UniqueAddrs canon config) :
    UniqueAddrs canon (removeLink config n).dom := by
  obtain ⟨es, ids, S, hs, hu⟩ := h
  rcases removeLink_nodes (n := n) hs.nodes with hsame | ⟨ls, link, hl, hlink, hdom⟩
  · exact ⟨es, ids, S, hs.of_getPath hsame, hu⟩
  obtain ⟨es', hdel, hrel⟩ := delItemAll_forall₂ (ringKey n) es
  rw [hdel] at hdom
  have hu' : AddrsUnique canon es' := hu.of_forall₂ (hrel.imp fun {e e'} h i _ => by
    rcases h with rfl | rfl
    · exact .inl rfl
    · by_cases hk : ringKey i = ringKey n
      · exact .inr (ringCanon_of_get?_none (hk ▸ Dict.get?_erase_self))
      · exact .inl (by simp only [ringCanon, Dict.get?_erase_ne hk]))
  by_cases h0 : 0 ≤ n
  · have hn := existingLink_mem hs hl h0 hlink
    rw [delItemAll_dicts fun e he => hs.hasKey_ring h0 hn he] at hdel
    obtain rfl : es' = es.map (Dict.erase · (ringKey n)) :=
      (List.map_injective_iff.2 fun _ _ h => Value.dict.inj h) hdel.symm
    exact ⟨_, ids, _, (hs.setNodes_eraseRing h0).of_getPath
      (hdom.trans (getPath_setNodes_nodelist hs.nodes).symm), hu'⟩
  · exact ⟨es', ids, S, hs.of_forall₂ hdom (fun i h => h0 (by have := ringKey_injective h; omega))
      hrel, hu'⟩

variable [DecidableEq α]

/-! ## The check keeps the addresses unique -/

/-- **One pair of the check.**  Writing address `a`, canonical `c`, for node `id` on a link
`n < 8` keeps the entries unique, and the index with `c` added covers them, when the
check let the pair through: the address `old` the check saw for the node is `c` already,
or `c` is not in the index. -/
theorem AddrsUnique.writePair {es : List Dict} {m : α → Option Int} {n : Nat} {id : Int}
    {a : String} {c : α} {old : Except PyExc (Option α)} (hn : n < knetLinkNumLimit)
    (hu : AddrsUnique canon es) (hm : Covers canon es m) (hids : IdsDistinct es)
    (hc : ipAddress canon (.str a) = .ok c)
    (hold : ∀ e ∈ es, entryNodeid (.dict e) = .ok id → ringCanon canon e n = old)
    (hchk : old = .ok (some c) ∨ m c = none) :
    AddrsUnique canon (es.map (writePair n (id, a))) ∧
      Covers canon (es.map (writePair n (id, a)))
        (fun c' => if c' = c then some id else m c') := by
  -- the written slot holds `c` or nothing; every other slot is as it was
  have hnew : ∀ {e i c'}, ringCanon canon (Crmsh.writePair n (id, a) e) i = .ok (some c') →
      (i = n ∧ entryNodeid (.dict e) = .ok id) ∧ c' = c ∨
        ¬(i = n ∧ entryNodeid (.dict e) = .ok id) ∧ ringCanon canon e i = .ok (some c') := by
    intro e i c' h
    rw [ringCanon_writePair] at h
    split_ifs at h with hw
    · rw [addrCanon_str hc] at h
      split_ifs at h
      · cases h
      · simp only [Except.ok.injEq, Option.some.injEq] at h
        exact .inl ⟨hw, h.symm⟩
    · exact .inr ⟨hw, h⟩
  -- a written slot never shares its address with a slot left alone
  have hcross : ∀ {p q i j : Nat} {e e' : Dict}, es[p]? = some e → es[q]? = some e' →
      j < knetLinkNumLimit → (i = n ∧ entryNodeid (.dict e) = .ok id) →
      ¬(j = n ∧ entryNodeid (.dict e') = .ok id) → ringCanon canon e' j ≠ .ok (some c) := by
    intro p q i j e e' hp hq hj hw hw' hc'
    rcases hchk with hold' | hnone
    · obtain ⟨rfl, rfl⟩ := hu.unique hp hq hn hj
        ((hold e (List.getElem?_mem hp) hw.2).trans hold') hc'
      rw [hp] at hq
      cases hq
      exact hw' ⟨rfl, hw.2⟩
    · simpa [hnone] using hm e' (List.getElem?_mem hq) j hj c hc'
  refine ⟨⟨fun e' he' i hi => ?_, fun hp hq hi hj hc₁ hc₂ => ?_⟩, fun e' he' i hi c' hc' => ?_⟩
  · obtain ⟨e, he, rfl⟩ := List.mem_map.1 he'
    rw [ringCanon_writePair]
    split_ifs
    · rw [addrCanon_str hc]
      split_ifs <;> exact ⟨_, rfl⟩
    · exact hu.valid e he i hi
  · rw [List.getElem?_map] at hp hq
    obtain ⟨e₁, he₁, rfl⟩ := Option.map_eq_some'.1 hp
    obtain ⟨e₂, he₂, rfl⟩ := Option.map_eq_some'.1 hq
    rcases hnew hc₁ with ⟨hw₁, rfl⟩ | ⟨hw₁, hc₁⟩ <;>
      rcases hnew hc₂ with ⟨hw₂, hcc⟩ | ⟨hw₂, hc₂⟩
    · exact ⟨hids he₁ he₂ hw₁.2 hw₂.2, hw₁.1.trans hw₂.1.symm⟩
    · exact (hcross he₁ he₂ hj hw₁ hw₂ hc₂).elim
    · exact (hcross he₂ he₁ hi hw₂ hw₁ (hcc ▸ hc₁)).elim
    · exact hu.unique he₁ he₂ hi hj hc₁ hc₂
  · obtain ⟨e, he, rfl⟩ := List.mem_map.1 he'
    rcases hnew hc' with ⟨-, rfl⟩ | ⟨-, hc'⟩
    · simp
    · dsimp only
      split_ifs
      exacts [rfl, hm e he i hi c' hc']

/-- What the check's loop asks of one pair `(id, a)`: the node is on the link, `a` is a
valid address, and its canonical form `c` is the node's old address or is not yet in the
index, which then maps `c` to the node. -/
theorem upsertCheck_cons {R : List LinkNode} {m m' : α → Option Int} {id : Int} {a : String}
    {rest : List (Int × String)} (h : upsertCheck canon (.ok R) m ((id, a) :: rest) = .ok m') :
    ∃ found c, found ∈ R ∧ found.nodeid = id ∧ ipAddress canon (.str a) = .ok c ∧
      (addrCanon canon found.addr = .ok (some c) ∨ m c = none) ∧
      upsertCheck canon (.ok R) (fun c' => if c' = c then some id else m c') rest = .ok m' := by
  simp only [upsertCheck, bind, Except.bind, pure, Except.pure] at h
  split at h
  · rename_i found hfound
    have hid : found.nodeid = id := by simpa using List.find?_some hfound
    subst hid
    cases hc : ipAddress canon (.str a) with
    | error e => simp [hc] at h
    | ok c =>
      refine ⟨found, c, List.mem_of_find?_eq_some hfound, rfl, rfl, ?_⟩
      simp only [hc] at h
      -- a changed address must be new to the index
      have hnew : ∀ {x : Except PyExc (α → Option Int)}, (match m c with
          | some existing => Except.error (PyExc.duplicatedNodeAddress a found.nodeid existing)
          | _ => x) = .ok m' → m c = none ∧ x = .ok m' := by
        intro x hx
        cases hm : m c <;> simp only [hm] at hx
        · exact ⟨rfl, hx⟩
        · cases hx
      by_cases hempty : found.addr = .str ""
      · simp only [hempty, if_true] at h
        exact (hnew h).imp_left Or.inr
      · simp only [hempty, if_false] at h
        cases ho : ipAddress canon found.addr with
        | error => simp [ho] at h
        | ok c₀ =>
          simp only [ho] at h
          by_cases heq : c₀ = c
          · subst heq
            refine ⟨.inl ?_, by simpa using h⟩
            simp [addrCanon, hempty, ho, Functor.map, Except.map]
          · simp only [heq, ne_eq, not_false_eq_true, decide_True, if_true] at h
            exact (hnew h).imp_left Or.inr
  · simp at h

/-- **The check's loop makes the write safe.**  If the loop over the pairs `items` of
`node_addresses` passes, from an index that covers unique entries with distinct ids, and
the check sees each node it is given at the address its entry holds on link `n < 8`, then
the entries are unique after the write loop. -/
theorem upsertCheck_addrsUnique {R : List LinkNode} {n : Nat} (hn : n < knetLinkNumLimit)
    {items : List (Int × String)} (hnd : (items.map Prod.fst).Nodup) {es : List Dict}
    {m m' : α → Option Int} (hids : IdsDistinct es) (hu : AddrsUnique canon es)
    (hm : Covers canon es m)
    (hR : ∀ node ∈ R, node.nodeid ∈ items.map Prod.fst → ∀ e ∈ es,
      entryNodeid (.dict e) = .ok node.nodeid → ringCanon canon e n = addrCanon canon node.addr)
    (h : upsertCheck canon (.ok R) m items = .ok m') :
    AddrsUnique canon (es.map (writeAddr n ⟨items, hnd⟩)) := by
  induction items generalizing es m with
  | nil => simpa using hu
  | cons pair rest ih =>
    obtain ⟨id, a⟩ := pair
    obtain ⟨found, c, hmem, rfl, hc, hchk, hrest⟩ := upsertCheck_cons h
    obtain ⟨hu₁, hm₁⟩ := hu.writePair hn hm hids hc
      (fun e he hid => hR found hmem (List.mem_cons_self _ _) e he hid) hchk
    rw [writeAddr_cons, ← List.map_map]
    refine ih _ (hids.map fun _ => entryNodeid_writePair) hu₁ hm₁ (fun node hnode hin e he hid => ?_)
      hrest
    obtain ⟨e₀, he₀, rfl⟩ := List.mem_map.1 he
    rw [entryNodeid_writePair] at hid
    have hne : node.nodeid ≠ found.nodeid := fun h => (List.nodup_cons.1 hnd).1 (h ▸ hin)
    have hw : writePair n (found.nodeid, a) e₀ = e₀ := by simp [writePair, hid, hne]
    rw [hw]
    exact hR node hnode (List.mem_cons_of_mem _ hin) e₀ he₀ hid

/-- **The index covers the present links.**  Every address of a node of a present link is
in `existing_addr_node_map`. -/
theorem existingAddrNodeMap_covers {ls : List (Option Link)} {m : α → Option Int}
    (h : existingAddrNodeMap canon ls = .ok m) {l : Link} (hl : some l ∈ ls)
    {node : LinkNode} (hnode : node ∈ l.nodes) {c : α}
    (hc : addrCanon canon node.addr = .ok (some c)) : (m c).isSome := by
  unfold existingAddrNodeMap at h
  refine (foldlM_index (Q := fun l c => ∃ node ∈ l.nodes, addrCanon canon node.addr = .ok (some c))
    (fun m l m' hstep => ?_) h).2 l (List.mem_filterMap.2 ⟨_, hl, rfl⟩) c ⟨node, hnode, hc⟩
  obtain ⟨hgrow, hput⟩ := foldlM_index (Q := fun node c => addrCanon canon node.addr = .ok (some c))
    (fun m b m' h => by
      by_cases hb : b.addr = .str ""
      · simp only [hb, if_true, Except.pure_eq_ok] at h
        subst h
        exact ⟨fun _ => id, fun c hc => by simp [hb] at hc⟩
      · simp only [hb, if_false] at h
        obtain ⟨c', hc', h'⟩ := Except.bind_eq_ok.1 h
        rw [Except.pure_eq_ok] at h'
        subst h'
        refine ⟨fun c hc => ?_, fun c hq => ?_⟩
        · dsimp only
          split_ifs
          exacts [rfl, hc]
        · have : c = c' := by simpa [addrCanon, hb, hc', Functor.map, Except.map] using hq.symm
          simp [this]) hstep
  exact ⟨hgrow, fun c ⟨node, hnode, hq⟩ => hput node hnode c hq⟩

/-- A turn of `existing_addr_node_map`'s inner loop adds the node's address, if any. -/
theorem addrIndexStep_sound {m m' : α → Option Int} {node : LinkNode}
    (h : (if node.addr = .str "" then pure m else do
        let c ← ipAddress canon node.addr
        pure fun c' => if c' = c then some node.nodeid else m c' : Except PyExc _) = .ok m')
    (c : α) (hc : (m' c).isSome) : (m c).isSome ∨ addrCanon canon node.addr = .ok (some c) := by
  by_cases hb : node.addr = .str ""
  · simp only [hb, if_true, Except.pure_eq_ok] at h
    subst h
    exact .inl hc
  · simp only [hb, if_false] at h
    obtain ⟨c', hc', h'⟩ := Except.bind_eq_ok.1 h
    rw [Except.pure_eq_ok] at h'
    subst h'
    by_cases hcc : c = c'
    · subst hcc
      exact .inr (by simp [addrCanon, hb, hc', Functor.map, Except.map])
    · exact .inl (by simpa [hcc] using hc)

/-- **The index knows only the addresses of the present links.** -/
theorem existingAddrNodeMap_sound {ls : List (Option Link)} {m : α → Option Int}
    (h : existingAddrNodeMap canon ls = .ok m) {c : α} (hc : (m c).isSome) :
    ∃ l, some l ∈ ls ∧ ∃ node ∈ l.nodes, addrCanon canon node.addr = .ok (some c) := by
  unfold existingAddrNodeMap at h
  obtain hc | ⟨l, hl, hq⟩ := foldlM_index_sound
    (Q := fun l c => ∃ node ∈ l.nodes, addrCanon canon node.addr = .ok (some c))
    (fun _ _ _ hstep c hc => foldlM_index_sound (fun _ _ _ h => addrIndexStep_sound h) hstep c hc) h c hc
  · cases hc
  · exact ⟨l, by simpa using hl, hq⟩

/-- `existing_addr_node_map` returns when every address of a present link is valid. -/
theorem existingAddrNodeMap_ok {ls : List (Option Link)}
    (h : ∀ l, some l ∈ ls → ∀ node ∈ l.nodes, ∃ o, addrCanon canon node.addr = .ok o) :
    ∃ m, existingAddrNodeMap canon ls = .ok m := by
  refine foldlM_ok_of (fun l hl m => foldlM_ok_of (fun node hnode m => ?_) m) _
  obtain ⟨o, ho⟩ := h l (by simpa using hl) node hnode
  by_cases hb : node.addr = .str ""
  · exact ⟨m, by simp [hb, pure, Except.pure]⟩
  · cases hc : ipAddress canon node.addr with
    | error e => simp [addrCanon, hb, hc, Functor.map, Except.map] at ho
    | ok c => exact ⟨fun c' => if c' = c then some node.nodeid else m c', by
        simp [hb, hc, bind, Except.bind, pure, Except.pure]⟩

/-- `existing_addr_node_map` over the links of a well-shaped tree, or over those links
with an empty slot filled, covers the tree. -/
theorem covers_of_links {config : Dict} {es : List Dict} {ids : List Int} {S : Finset Nat}
    {ls ls' : List (Option Link)} {m : α → Option Int} (hs : NodeListShape config es ids S)
    (hl : links config = .ok ls) (hsub : ∀ i ∈ S, ∀ l, ls[i]? = some (some l) → some l ∈ ls')
    (hm : existingAddrNodeMap canon ls' = .ok m) : Covers canon es m := by
  intro e he i hi c hc
  obtain ⟨hiS, l, hsl, node, hnode, hq⟩ := slot_node_of_ringCanon hs hl he hi hc
  exact existingAddrNodeMap_covers hm (hsub i hiS l hsl) hnode hq

/-- On a well-shaped tree `__upsert_node_addr_impl` raises with the tree untouched, or
returns the tree its write loop wrote, its check having passed. -/
theorem upsertNodeAddrImpl_of_shape {config : Dict} {es : List Dict} {ids : List Int}
    {S : Finset Nat} (hs : NodeListShape config es ids S) (canon : String → Option α)
    (ls : List (Option Link)) (n : Int) (addrs : PyDict Int String) :
    (∃ e, upsertNodeAddrImpl canon config ls n addrs = .raised e config) ∨
      ∃ m m', existingAddrNodeMap canon ls = .ok m ∧
        upsertCheck canon (rosterAt ls n) m addrs.items = .ok m' ∧
        upsertNodeAddrImpl canon config ls n addrs =
          .ok (setNodes config ((es.map (writeAddr n addrs)).map .dict)) := by
  unfold upsertNodeAddrImpl
  split
  · exact .inl ⟨_, rfl⟩
  · rename_i m' hm
    obtain ⟨m, hm, hm'⟩ := Except.bind_eq_ok.1 hm
    simp only [hs.nodes, writeNodeAddrs_dicts fun e he => (hs.nodeid_mem he).imp fun _ h => h.2]
    exact .inr ⟨m, m', hm, hm', trivial⟩

/-- `update_node_addr` keeps addresses unique: on a link of `S` by the check, and at a
negative link number, which writes a key naming no link `0..7`, trivially. -/
theorem UniqueAddrs.updateNodeAddr {config : Dict} {n : Int} {addrs : PyDict Int String}
    (h : UniqueAddrs canon config) : UniqueAddrs canon (updateNodeAddr canon config n addrs).dom := by
  obtain ⟨es, ids, S, hs, hu⟩ := h
  unfold Crmsh.updateNodeAddr
  split
  · exact ⟨es, ids, S, hs, hu⟩
  rename_i ls hls
  obtain ⟨ls, hl, hlink'⟩ := Except.bind_eq_ok.1 hls
  obtain ⟨link, hlink, rfl⟩ := Except.map_eq_ok.1 hlink'
  obtain ⟨e, he⟩ | ⟨m, m', hm, hm', hup⟩ := upsertNodeAddrImpl_of_shape hs canon ls n addrs
  · rw [he]; exact ⟨es, ids, S, hs, hu⟩
  rw [hup]
  by_cases h0 : 0 ≤ n
  · obtain ⟨N, rfl⟩ := Int.eq_ofNat_of_zero_le h0
    have hsl : ls[N]? = some (some link) := by simpa using existingLink_getElem? h0 hlink
    obtain ⟨hNS, hnodes, -⟩ := slot_nodes_addr hs hl hsl
    rw [rosterAt_of_existingLink hlink] at hm'
    refine ⟨_, ids, S, hs.setNodes_writeAddr fun i _ hk => ?_,
      upsertCheck_addrsUnique (hs.within N hNS) addrs.nodup hs.idsDistinct hu
        (covers_of_links hs hl (fun _ _ _ hil => List.getElem?_mem hil) hm)
        (fun node hnode _ e he hid => ?_) hm'⟩
    · exact (show i = N by exact_mod_cast ringKey_injective hk) ▸ hNS
    · obtain ⟨e₀, he₀, hid₀, haddr⟩ := hnodes node hnode
      rw [IdsDistinct.eq_of_mem (NodeListShape.idsDistinct hs) he he₀ hid hid₀, haddr]
      rfl
  · have hk : ∀ i : Nat, ringKey n ≠ ringKey i := fun i h =>
      h0 (by have := ringKey_injective h; omega)
    refine ⟨_, ids, S, hs.setNodes_writeAddr fun i _ h => (hk i h.symm).elim, hu.of_forall₂ ?_⟩
    exact List.forall₂_map_right_iff.2 (List.forall₂_same.2 fun e _ i _ =>
      .inl (by simp only [ringCanon, get?_writeAddr_of_ne (hk i)]))

/-- `add_link` keeps addresses unique: the new link's addresses passed the check, and an
`update_link` that raises after the write leaves the written node list. -/
theorem UniqueAddrs.addLink {config : Dict} {addrs : PyDict Int String}
    {options : PyDict String (Option String)} (h : UniqueAddrs canon config) :
    UniqueAddrs canon (addLink canon config addrs options).dom := by
  obtain ⟨es, ids, S, hs, hu⟩ := h
  unfold Crmsh.addLink
  split
  · exact ⟨es, ids, S, hs, hu⟩
  rename_i ls hl
  split
  · exact ⟨es, ids, S, hs, hu⟩
  rename_i k hk
  split
  · exact ⟨es, ids, S, hs, hu⟩
  rename_i first hfirst
  dsimp only
  split
  · exact ⟨es, ids, S, hs, hu⟩
  rename_i hun
  obtain ⟨hkS, -, hs₁⟩ := hs.setNodes_addLink hl hk hfirst (isSome_of_unspecified_nil hun)
  have hk8 : k < knetLinkNumLimit := hs₁.within k (Finset.mem_insert_self _ _)
  obtain ⟨e, he⟩ | ⟨m, m', hm, hm', hup⟩ :=
    upsertNodeAddrImpl_of_shape hs canon (ls.set k (some (blankLink k first))) k addrs
  · rw [he]; exact ⟨es, ids, S, hs, hu⟩
  rw [hup]
  refine UniqueAddrs.of_getPath ⟨_, ids, _, hs₁, ?_⟩ (updateLink_nodes _ _ _)
  rw [rosterAt_set (List.findIdx?_eq_some_iff_getElem.1 hk).1] at hm'
  refine upsertCheck_addrsUnique hk8 addrs.nodup hs.idsDistinct hu
    (covers_of_links hs hl (fun i hi l hil => ?_) hm) (fun node hnode _ e he _ => ?_) hm'
  · have hik : i ≠ k := fun h => hkS (h ▸ hi)
    exact List.getElem?_mem (by rw [List.getElem?_set_ne (Ne.symm hik)]; exact hil)
  · obtain ⟨node₀, -, rfl⟩ := List.mem_map.1 hnode
    have hnone : Dict.get? e (ringKey k) = none := by
      by_contra hsome
      exact hkS ((hs.rings e he k hk8).1 (by simpa [Option.ne_none_iff_exists'] using hsome))
    rw [ringCanon_of_get?_none hnone]
    rfl

/-- Each call keeps the invariant, whether it returns or raises. -/
theorem UniqueAddrs.apply {config : Dict} (h : UniqueAddrs canon config) (op : LinkOp) :
    UniqueAddrs canon (op.apply canon config).dom := by
  cases op with
  | updateLink n options => exact h.updateLink
  | updateNodeAddr n addrs => exact h.updateNodeAddr
  | addLink addrs options => exact h.addLink
  | removeLink n => exact h.removeLink

/-- Every tree of a run that starts from the invariant has it. -/
theorem UniqueAddrs.run {config : Dict} (h : UniqueAddrs canon config) (ops : List LinkOp) :
    ∀ c ∈ runLinkOps canon config ops, UniqueAddrs canon c := by
  induction ops generalizing config with
  | nil => simpa [runLinkOps] using h
  | cons op ops ih =>
    intro c hc
    rcases List.mem_cons.1 hc with rfl | hc
    exacts [h, ih (h.apply op) c hc]

/-- **Global address uniqueness is an invariant of the link manager.**  From a node list of
the shape the link manager works on (non-empty, distinct integer ids, a name each, the same
links `S ⊆ 0..7` on every entry) whose canonical addresses are pairwise distinct, every tree
a sequence of calls passes through, after a call that returned or one that raised, still
has pairwise distinct canonical addresses: no two nodes share an address on any links,
and no node uses one address on two links. -/
theorem addrsUnique_run {config : Dict} {es : List Dict} {ids : List Int} {S : Finset Nat}
    (hs : NodeListShape config es ids S) (hu : AddrsUnique canon es) (ops : List LinkOp) :
    ∀ c ∈ runLinkOps canon config ops,
      ∃ es', getPath c "nodelist" "node" = .ok (.list (es'.map .dict)) ∧ AddrsUnique canon es' :=
  fun c hc =>
    let ⟨es', _, _, hs', hu'⟩ := UniqueAddrs.run ⟨es, ids, S, hs, hu⟩ ops c hc
    ⟨es', hs'.nodes, hu'⟩

/-- The two-node tree of link 0 has unique addresses, and keeps them through a change of
node 1's address and the addition of link 1 (canonical forms taken as the addresses'
text). -/
theorem twoNodeTree_addrs_stay_unique :
    NodeListShape twoNodeTree
        [[("ring0_addr", .str "10.0.0.1"), ("name", .str "alpha"), ("nodeid", .str "1")],
          [("ring0_addr", .str "10.0.0.2"), ("name", .str "beta"), ("nodeid", .str "2")]]
        [1, 2] {0} ∧
      AddrsUnique some
        [[("ring0_addr", .str "10.0.0.1"), ("name", .str "alpha"), ("nodeid", .str "1")],
          [("ring0_addr", .str "10.0.0.2"), ("name", .str "beta"), ("nodeid", .str "2")]] ∧
      ∀ c ∈ runLinkOps some twoNodeTree
          [.updateNodeAddr 0 ⟨[(1, "10.0.0.9")], by decide⟩,
            .addLink ⟨[(1, "10.0.1.1"), (2, "10.0.1.2")], by decide⟩ ⟨[], List.nodup_nil⟩],
        ∃ es', getPath c "nodelist" "node" = .ok (.list (es'.map .dict)) ∧ AddrsUnique some es' := by
  have hs : NodeListShape twoNodeTree
      [[("ring0_addr", .str "10.0.0.1"), ("name", .str "alpha"), ("nodeid", .str "1")],
        [("ring0_addr", .str "10.0.0.2"), ("name", .str "beta"), ("nodeid", .str "2")]]
      [1, 2] {0} := ⟨by decide, by decide, by decide, by decide, by decide, by decide, by decide⟩
  have hu : AddrsUnique some
      [[("ring0_addr", .str "10.0.0.1"), ("name", .str "alpha"), ("nodeid", .str "1")],
        [("ring0_addr", .str "10.0.0.2"), ("name", .str "beta"), ("nodeid", .str "2")]] :=
    AddrsUnique.of_nodup (by decide) (by decide)
  exact ⟨hs, hu, addrsUnique_run hs hu _⟩

end Crmsh
