import Crmsh.LinkManager.Ops

/-!
# What `links()` reads off a well-shaped node list

The invariants of the link manager speak about the tree; its operations decide by what
`links()` returns.  This file connects the two.  `NodeListShape` names the node list the
invariants assume: a non-empty list of sections with distinct integer ids and names,
where every entry has `ring{i}_addr` exactly for the links `i` in one set `S`.  On such a
list `links_rosters` says what every slot holds: slot `i` is present exactly for `i ∈ S`,
and lists every entry with its `ring{i}_addr`, sorted by id.
-/

namespace Crmsh

/-- The `ring{i}_addr` values of the entries, in order. -/
def ringValues (es : List Dict) (i : Nat) : List Value :=
  es.map fun e => (Dict.get? e (ringKey i)).getD (.str "")

/-- The node list the link manager's invariants speak about: `nodelist.node` lists the
sections `es`, non-empty, with pairwise distinct integer ids `ids` and a name each, and
every entry has `ring{i}_addr`, `i < 8`, exactly for the `i` in `S`. -/
structure NodeListShape (config : Dict) (es : List Dict) (ids : List Int) (S : Finset Nat) :
    Prop where
  nodes : getPath config "nodelist" "node" = .ok (.list (es.map .dict))
  nonempty : es ≠ []
  nodeids : (es.map .dict).mapM entryNodeid = .ok ids
  distinct : ids.Nodup
  named : ∀ e ∈ es, Dict.hasKey e "name"
  rings : ∀ e ∈ es, ∀ i < knetLinkNumLimit, Dict.hasKey e (ringKey i) ↔ i ∈ S
  within : ∀ i ∈ S, i < knetLinkNumLimit

/-- A tree has one node list: two shapes of it name the same entries. -/
theorem NodeListShape.entries_eq {config : Dict} {es es' : List Dict} {ids ids' : List Int}
    {S S' : Finset Nat} (hs : NodeListShape config es ids S) (hs' : NodeListShape config es' ids' S') :
    es' = es := by
  have := hs'.nodes.symm.trans hs.nodes
  simp only [Except.ok.injEq, Value.list.injEq] at this
  exact List.map_injective_iff.2 (fun _ _ h => by cases h; rfl) this

/-- The roster of slot `i` on a well-shaped node list. -/
def rosterOf (es : List Dict) (ids : List Int) (names : List Value) (S : Finset Nat) (i : Nat) :
    Option (List LinkNode) :=
  if i ∈ S then some (sortByNodeid (List.zipWith3 LinkNode.mk ids names (ringValues es i)))
  else none

/-! ## Inverting `links` -/

theorem links_of_nodes {config : Dict} {first : Value} {rest : List Value}
    {ls : List (Option Link)} (hn : getPath config "nodelist" "node" = .ok (.list (first :: rest)))
    (h : links config = .ok ls) :
    ∃ slots, linkSlots first rest = .ok slots ∧ interfaceOptions config slots = .ok ls := by
  unfold links at h
  simp only [hn] at h
  revert h
  cases totemTransport config with
  | error e => intro h; cases h
  | ok t =>
    by_cases ht : t = .str "knet"
    · subst ht; simp
    · intro h; simp [bind, Except.bind, ht] at h

theorem linkSlots_ok {first : Value} {rest : List Value} {slots : List (Option Link)}
    (h : linkSlots first rest = .ok slots) :
    ∃ ids names, (first :: rest).mapM entryNodeid = .ok ids ∧
      (first :: rest).mapM entryName = .ok names ∧
      List.Forall₂ (fun i s => linkSlot first (first :: rest) ids names i = .ok s)
        (List.range knetLinkNumLimit) slots := by
  unfold linkSlots at h
  dsimp only at h
  split at h
  · split at h
    · simp only [Except.bind_eq_ok, mapM_eq_ok] at h
      obtain ⟨_, -, _, -, ids, hids, names, hnames, hslots⟩ := h
      exact ⟨ids, names, mapM_eq_ok.2 hids, mapM_eq_ok.2 hnames, hslots⟩
    · simp at h
  · simp at h

theorem linkSlot_ok {first : Value} {nodelist : List Value} {ids : List Int}
    {names : List Value} {i : Nat} {s : Option Link}
    (h : linkSlot first nodelist ids names i = .ok s) :
    (s.isSome ↔ first.contains (ringKey i) = true) ∧
      ∀ l, s = some l → ∃ addrs, nodelist.mapM (·.getItem (ringKey i)) = .ok addrs ∧
        l.nodes = sortByNodeid (List.zipWith3 LinkNode.mk ids names addrs) := by
  unfold linkSlot at h
  split at h
  · obtain ⟨addrs, haddrs, rfl⟩ := Except.map_eq_ok.1 h
    simp_all
  · cases h
    simp_all

/-- Loading options changes no link's nodes. -/
theorem Link.loadOption_nodes {l l' : Link} {data : OptionSource} {f : LinkField}
    (h : l.loadOption data f = .ok l') : l'.nodes = l.nodes := by
  unfold Link.loadOption at h
  simp only [Except.bind_eq_ok] at h
  obtain ⟨v, -, h⟩ := h
  split at h <;>
    simp only [Except.bind_eq_ok, Except.pure_eq_ok, Except.throw_eq_ok] at h
  all_goals first
    | (subst h; rfl)
    | (obtain ⟨_, _, rfl⟩ := h; simp)

/-- A property that every loaded field keeps holds after the loop of `load_options`. -/
theorem Link.foldlM_loadOption_invariant {data : OptionSource} {P : Link → Prop}
    {fs : List LinkField} (hstep : ∀ f ∈ fs, ∀ l l', P l → l.loadOption data f = .ok l' → P l') :
    ∀ {l l' : Link}, P l → fs.foldlM (fun l f => l.loadOption data f) l = .ok l' → P l' := by
  induction fs with
  | nil => intro l l' hl h; simp only [List.foldlM_nil, Except.pure_eq_ok] at h; exact h ▸ hl
  | cons f fs ih =>
    intro l l' hl h
    simp only [List.foldlM_cons, Except.bind_eq_ok] at h
    obtain ⟨l₁, h₁, h₂⟩ := h
    exact ih (fun g hg => hstep g (List.mem_cons_of_mem _ hg))
      (hstep f (List.mem_cons_self _ _) _ _ hl h₁) h₂

theorem Link.loadOptions_nodes {l l' : Link} {data : OptionSource}
    (h : l.loadOptions data = .ok l') : l'.nodes = l.nodes :=
  Link.foldlM_loadOption_invariant (P := fun l' => l'.nodes = l.nodes)
    (fun _ _ _ _ h₁ h₂ => (Link.loadOption_nodes h₂).trans h₁) rfl h

/-- The roster of every slot, `none` for an empty one. -/
def rosters (ls : List (Option Link)) : List (Option (List LinkNode)) := ls.map (Option.map Link.nodes)

theorem forall₂_map_eq {α β γ : Type} {R : α → β → Prop} {f : α → γ} {g : β → γ}
    {l₁ : List α} {l₂ : List β} (h : List.Forall₂ R l₁ l₂)
    (hR : ∀ a ∈ l₁, ∀ b, R a b → f a = g b) : l₁.map f = l₂.map g := by
  induction h with
  | nil => rfl
  | cons hab _ ih =>
    simp only [List.map_cons, hR _ (List.mem_cons_self _ _) _ hab,
      ih fun a ha => hR a (List.mem_cons_of_mem _ ha)]

theorem mergeOptions_rosters {keyed : List (Int × Value)} {slots ls : List (Option Link)}
    (h : mergeOptions keyed slots = .ok ls) : rosters ls = rosters slots := by
  have hall := mapM_eq_ok.1 h
  have := forall₂_map_eq (f := fun p => p.2.map Link.nodes) (g := Option.map Link.nodes) hall <| by
    rintro ⟨i, s⟩ - l hl
    simp only [slotOptions] at hl ⊢
    split at hl
    · obtain ⟨l', hl', rfl⟩ := Except.map_eq_ok.1 hl
      simp [Link.loadOptions_nodes hl']
    · cases hl; rfl
  rw [rosters, rosters, ← this, ← List.enum_map_snd slots, List.map_map, List.enum_map_snd]
  rfl

theorem interfaceOptions_rosters {config : Dict} {slots ls : List (Option Link)}
    (h : interfaceOptions config slots = .ok ls) : rosters ls = rosters slots := by
  unfold interfaceOptions at h
  split at h
  · cases h; rfl
  · cases h
  · obtain ⟨keyed, -, hm⟩ := Except.bind_eq_ok.1 h
    exact mergeOptions_rosters hm
  · cases h

theorem mapM_getItem_dicts {es : List Dict} {k : String} {addrs : List Value}
    (h : (es.map Value.dict).mapM (·.getItem k) = .ok addrs) :
    addrs = es.map fun e => (Dict.get? e k).getD (.str "") := by
  induction es generalizing addrs with
  | nil => rw [List.map_nil, mapM_eq_ok] at h; cases h; rfl
  | cons e es ih =>
    rw [List.map_cons, mapM_eq_ok] at h
    cases h with
    | cons ha hrest =>
      rw [ih (mapM_eq_ok.2 hrest)]
      revert ha
      simp only [Value.getItem]
      split <;> simp_all

/-- **The slots of a well-shaped node list.**  Slot `i` of `links()` is present exactly
for `i ∈ S`, and then lists every entry with its `ring{i}_addr`, sorted by node id. -/
theorem links_rosters {config : Dict} {es : List Dict} {ids : List Int} {S : Finset Nat}
    {ls : List (Option Link)} (hs : NodeListShape config es ids S) (h : links config = .ok ls) :
    ∃ names, names.length = es.length ∧
      rosters ls = (List.range knetLinkNumLimit).map (rosterOf es ids names S) := by
  obtain ⟨e₀, es', rfl⟩ := List.exists_cons_of_ne_nil hs.nonempty
  obtain ⟨slots, hslots, hopts⟩ := links_of_nodes hs.nodes h
  obtain ⟨ids', names, hids, hnames, hall⟩ := linkSlots_ok hslots
  have hids' : ids' = ids := by
    have := hs.nodeids; rw [List.map_cons, hids] at this; exact Except.ok.inj this
  subst hids'
  refine ⟨names, by simpa using (mapM_eq_ok.1 hnames).length_eq.symm, ?_⟩
  rw [interfaceOptions_rosters hopts, rosters]
  refine (forall₂_map_eq hall fun i hi s hs' => ?_).symm
  obtain ⟨hsome, hnodes⟩ := linkSlot_ok hs'
  have hring : Value.contains (.dict e₀) (ringKey i) = true ↔ i ∈ S :=
    hs.rings e₀ (List.mem_cons_self _ _) i (List.mem_range.1 hi)
  cases s with
  | none =>
    have : i ∉ S := fun h => by simp_all
    simp [rosterOf, this]
  | some l =>
    obtain ⟨addrs, haddrs, hl⟩ := hnodes l rfl
    have : i ∈ S := hring.1 (hsome.1 rfl)
    rw [← List.map_cons] at haddrs
    simp [rosterOf, this, hl, mapM_getItem_dicts haddrs, ringValues]

/-! ## `links` on a well-shaped node list returns its rosters -/

/-- The names `links()` reads off the entries. -/
def entryNames (es : List Dict) : List Value :=
  es.map fun e => (Dict.get? e "name").getD (.str "")

/-- The slots of a well-shaped node list before the options are merged: link `i` with
roster `rosterOf … i` for `i ∈ S`. -/
def shapeSlots (es : List Dict) (ids : List Int) (names : List Value) (S : Finset Nat) :
    List (Option Link) :=
  (List.range knetLinkNumLimit).map fun i =>
    (rosterOf es ids names S i).map fun ns => { linknumber := i, nodes := ns }

@[simp] theorem rosters_shapeSlots (es : List Dict) (ids : List Int) (names : List Value)
    (S : Finset Nat) :
    rosters (shapeSlots es ids names S) = (List.range knetLinkNumLimit).map (rosterOf es ids names S) := by
  simp [rosters, shapeSlots, Function.comp_def]

theorem getItem_of_hasKey {e : Dict} {k : String} (h : Dict.hasKey e k) :
    (Value.dict e).getItem k = .ok ((Dict.get? e k).getD (.str "")) := by
  obtain ⟨v, hv⟩ := Dict.hasKey_iff.1 h
  simp [Value.getItem, hv]

/-- Reading a key every entry has returns normally. -/
theorem mapM_getItem_of_hasKey {es : List Dict} {k : String} (h : ∀ e ∈ es, Dict.hasKey e k) :
    (es.map Value.dict).mapM (·.getItem k) = .ok (es.map fun e => (Dict.get? e k).getD (.str "")) :=
  mapM_eq_ok.2 <| List.forall₂_map_left_iff.2 <| List.forall₂_map_right_iff.2 <|
    List.forall₂_same.2 fun e he => getItem_of_hasKey (h e he)

theorem hasKey_of_entryNodeid {e : Dict} {n : Int} (h : entryNodeid (.dict e) = .ok n) :
    Dict.hasKey e "nodeid" := by
  simp only [entryNodeid, Value.getItem, Except.bind_eq_ok] at h
  obtain ⟨v, hv, -⟩ := h
  split at hv <;> simp_all

/-- **The node-list half of `links` returns normally** on a non-empty list of entries with
integer ids and names that all have the ring keys of the same set `S`, with the slots
`shapeSlots`; what `links()` returns is then decided by the interface records alone. -/
theorem links_eq_of_entries {config : Dict} {es : List Dict} {ids : List Int} {S : Finset Nat}
    (hnodes : getPath config "nodelist" "node" = .ok (.list (es.map .dict))) (hne : es ≠ [])
    (hids : (es.map .dict).mapM entryNodeid = .ok ids) (hnamed : ∀ e ∈ es, Dict.hasKey e "name")
    (hrings : ∀ e ∈ es, ∀ i < knetLinkNumLimit, Dict.hasKey e (ringKey i) ↔ i ∈ S)
    (ht : totemTransport config = .ok (.str "knet")) :
    links config = interfaceOptions config (shapeSlots es ids (entryNames es) S) := by
  have hslot (i : Nat) (hi : i ∈ List.range knetLinkNumLimit) :
      linkSlot (.dict (es.head hne)) (es.map .dict) ids (entryNames es) i =
        .ok ((rosterOf es ids (entryNames es) S i).map fun ns => { linknumber := i, nodes := ns }) := by
    have hring := hrings _ (List.head_mem hne) i (List.mem_range.1 hi)
    by_cases hiS : i ∈ S
    · have hall : ∀ e ∈ es, Dict.hasKey e (ringKey i) :=
        fun e he => (hrings e he i (List.mem_range.1 hi)).2 hiS
      simp only [linkSlot, Value.contains, hring.2 hiS, if_true]
      rw [mapM_getItem_of_hasKey hall]
      simp only [rosterOf, hiS, if_true, ringValues]
      rfl
    · simp [linkSlot, Value.contains, hiS, rosterOf, mt hring.1 hiS]
  have hid : (es.map Value.dict).all (·.contains "nodeid") := by
    refine List.all_eq_true.2 fun x hx => ?_
    obtain ⟨e, he, rfl⟩ := List.mem_map.1 hx
    obtain ⟨n, -, hn⟩ := mapM_ok_of_mem hids (List.mem_map_of_mem _ he)
    exact hasKey_of_entryNodeid hn
  have hname : (es.map Value.dict).all (·.contains "name") := by
    simpa [List.all_map, Function.comp_def, Value.contains] using hnamed
  have hnames : (es.map Value.dict).mapM entryName = .ok (entryNames es) :=
    mapM_getItem_of_hasKey hnamed
  have hrange := mapM_eq_ok.2 <| List.forall₂_map_right_iff.2 <| List.forall₂_same.2 hslot
  obtain ⟨e₀, es', rfl⟩ := List.exists_cons_of_ne_nil hne
  rw [List.map_cons, List.head_cons] at hrange
  rw [List.map_cons] at hid hname hnames hids hnodes
  simp only [links, ht, hnodes, linkSlots, hid, hname, hids, hnames, ne_eq, not_true_eq_false,
    if_true, if_false, bind, Except.bind, pure, Except.pure, hrange]
  rfl

/-- The node-list half of `links` on a well-shaped node list. -/
theorem NodeListShape.links_eq {config : Dict} {es : List Dict} {ids : List Int} {S : Finset Nat}
    (hs : NodeListShape config es ids S) (ht : totemTransport config = .ok (.str "knet")) :
    links config = interfaceOptions config (shapeSlots es ids (entryNames es) S) :=
  links_eq_of_entries hs.nodes hs.nonempty hs.nodeids hs.named hs.rings ht

/-- Slot `i` of the slots `links_rosters` describes: `i < 8`, and its roster is
`rosterOf … i`. -/
theorem slot_roster {ls : List (Option Link)} {es : List Dict} {ids : List Int}
    {names : List Value} {S : Finset Nat}
    (hr : rosters ls = (List.range knetLinkNumLimit).map (rosterOf es ids names S))
    {i : Nat} {s : Option Link} (h : ls[i]? = some s) :
    i < knetLinkNumLimit ∧ s.map Link.nodes = rosterOf es ids names S i := by
  have := congrArg (·[i]?) hr
  simp only [rosters, List.getElem?_map, h, Option.map_some'] at this
  by_cases hi : i < knetLinkNumLimit
  · exact ⟨hi, by simpa [List.getElem?_range hi] using this⟩
  · rw [List.getElem?_eq_none (by simpa using hi)] at this; cases this

theorem slot_isSome_iff {ls : List (Option Link)} {es : List Dict} {ids : List Int}
    {names : List Value} {S : Finset Nat}
    (hr : rosters ls = (List.range knetLinkNumLimit).map (rosterOf es ids names S))
    {i : Nat} {s : Option Link} (h : ls[i]? = some s) : s.isSome ↔ i ∈ S := by
  have := (slot_roster hr h).2
  unfold rosterOf at this
  split at this <;> cases s <;> simp_all

/-- Python's `links[linknumber]` for `linknumber ≥ 0` is the plain index. -/
theorem existingLink_getElem? {ls : List (Option Link)} {n : Int} {link : Link} (h0 : 0 ≤ n)
    (h : existingLink ls n = .ok link) : ls[n.toNat]? = some (some link) := by
  simp only [existingLink, pyIndex, if_neg (not_lt.2 h0), if_pos h0] at h
  split at h; · cases h
  split at h <;> cases h
  rename_i h'
  simp only [List.get?_eq_getElem?] at h'
  split at h' <;> simp_all

/-- The number of present slots is the number of links in `S`. -/
theorem present_count {config : Dict} {es : List Dict} {ids : List Int} {S : Finset Nat}
    {ls : List (Option Link)} (hs : NodeListShape config es ids S) (h : links config = .ok ls) :
    (ls.filter Option.isSome).length = S.card := by
  obtain ⟨names, -, hr⟩ := links_rosters hs h
  have hcount : ls.countP Option.isSome = (List.range knetLinkNumLimit).countP (· ∈ S) := by
    simpa [rosters, List.countP_map, Function.comp_def, rosterOf, apply_ite]
      using congrArg (List.countP Option.isSome) hr
  have hnd : ((List.range knetLinkNumLimit).filter (· ∈ S)).Nodup := (List.nodup_range _).filter _
  rw [← List.countP_eq_length_filter, hcount, List.countP_eq_length_filter,
    ← List.toFinset_card_of_nodup hnd]
  congr 1
  ext i
  simp only [List.mem_toFinset, List.mem_filter, List.mem_range, decide_eq_true_eq]
  exact ⟨And.right, fun h => ⟨hs.within i h, h⟩⟩

theorem zipWith3_nodeid {ids : List Int} {names addrs : List Value}
    (h₁ : ids.length ≤ names.length) (h₂ : ids.length ≤ addrs.length) :
    (List.zipWith3 LinkNode.mk ids names addrs).map LinkNode.nodeid = ids := by
  induction ids generalizing names addrs with
  | nil => cases names <;> cases addrs <;> rfl
  | cons id ids ih =>
    cases names <;> cases addrs <;> simp_all [List.zipWith3]

/-- A present slot of a well-shaped tree lists every entry's id. -/
theorem slot_nodeids {config : Dict} {es : List Dict} {ids : List Int} {S : Finset Nat}
    {ls : List (Option Link)} {names : List Value} (hs : NodeListShape config es ids S)
    (hn : names.length = es.length)
    (hr : rosters ls = (List.range knetLinkNumLimit).map (rosterOf es ids names S))
    {i : Nat} {l : Link} (h : ls[i]? = some (some l)) :
    List.Perm (l.nodes.map LinkNode.nodeid) ids := by
  have hlen := (mapM_eq_ok.1 hs.nodeids).length_eq
  have := (slot_roster hr h).2
  unfold rosterOf at this
  split at this
  · simp only [Option.map_some', Option.some.injEq] at this
    rw [List.length_map] at hlen
    have hz : (List.zipWith3 LinkNode.mk ids names (ringValues es i)).map LinkNode.nodeid = ids :=
      zipWith3_nodeid (by omega) (by simp only [ringValues, List.length_map]; omega)
    have hp := (List.perm_insertionSort (fun a b : LinkNode => a.nodeid ≤ b.nodeid)
      (List.zipWith3 LinkNode.mk ids names (ringValues es i))).map LinkNode.nodeid
    rw [hz] at hp
    rwa [this]
  · cases this

/-- On a well-shaped tree a link number `n ≥ 0` that passes the guard is a link of `S`. -/
theorem existingLink_mem {config : Dict} {es : List Dict} {ids : List Int} {S : Finset Nat}
    {ls : List (Option Link)} {n : Int} {link : Link} (hs : NodeListShape config es ids S)
    (hl : links config = .ok ls) (h0 : 0 ≤ n) (h : existingLink ls n = .ok link) :
    n.toNat ∈ S := by
  obtain ⟨names, -, hr⟩ := links_rosters hs hl
  exact (slot_isSome_iff hr (existingLink_getElem? h0 h)).1 rfl

end Crmsh
