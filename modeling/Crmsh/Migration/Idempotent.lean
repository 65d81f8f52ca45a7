import Crmsh.Migration.Steps

/-!
# Migration is idempotent

A tree that `migrate_corosync_conf_impl` returned is one it leaves as it is, whatever the
CIB and the members' configurations are the second time.  `Migrated` says what such a
tree looks like in the terms the steps read: `totem` is a section, on knet or on a
transport the migration does not touch (with a node list and a probe that passes), its
interfaces and the node list's entries stand in lists, `crypto_hash` is not `sha1`, and a
two-ring node list has no `rrp_mode` left and an id and a name in every entry.

`migrated_fixed` shows that every step returns a `Migrated` tree unchanged;
`migrate_migrated` follows a first migration step by step to show that it leaves a
`Migrated` tree; **`migrateCorosyncConfImpl_idempotent`** puts the two together.
-/

namespace Crmsh

/-- A section whose `key`, when there, holds a list. -/
def ListedIn (d : Dict) (key : String) : Prop :=
  ∀ v, Dict.get? d key = some v → ∃ l, v = .list l

theorem listedIn_set_self (d : Dict) (key : String) (l : List Value) :
    ListedIn (Dict.set d key (.list l)) key := by
  intro v hv
  rw [Dict.get?_set_self] at hv
  exact ⟨l, (Option.some.inj hv).symm⟩

theorem ListedIn.set_ne {d : Dict} {key k : String} {v : Value} (h : ListedIn d key)
    (hk : key ≠ k) : ListedIn (Dict.set d k v) key := by
  intro w hw
  rw [Dict.get?_set_ne hk] at hw
  exact h w hw

/-- The tree as `transform_dom_with_list_schema` leaves it, where the later steps look: a
`totem` section holds its interfaces, and a `nodelist` section its nodes, in a list. -/
structure ListSchema (dom : Dict) : Prop where
  totem : ∀ t, Dict.get? dom "totem" = some (.dict t) → ListedIn t "interface"
  nodelist : ∀ n, Dict.get? dom "nodelist" = some (.dict n) → ListedIn n "node"

/-! ## The transform -/

theorem domQueryGet_single (i : Nat) (dom : Dict) (sec : String) :
    domQueryGet i (.dict dom) [sec] =
      match Dict.get? dom sec with
      | some w => selectIndex i w
      | none => .error (.keyError sec) := by
  show (match Dict.get? dom sec with
    | some w => domQueryGet i w []
    | none => throw (PyExc.keyError sec)) = _
  cases Dict.get? dom sec <;> rfl

/-- One path of the transform leaves a list under `key` where the section `sec` is a
section, and no other top-level key changes. -/
theorem wrapListSection_ok {dom dom' : Dict} {sec key : String}
    (h : wrapListSection dom sec key = .ok dom') :
    (∀ d, Dict.get? dom' sec = some (.dict d) → ListedIn d key) ∧
      ∀ k, k ≠ sec → Dict.get? dom' k = Dict.get? dom k := by
  unfold wrapListSection at h
  rw [domQueryGet_single] at h
  cases hg : Dict.get? dom sec with
  | none =>
    simp only [hg] at h
    cases h
    exact ⟨by simp [hg], fun _ _ => rfl⟩
  | some w =>
    simp only [hg] at h
    cases w with
    | str s => simp [selectIndex, Value.getItem] at h
    | dict d =>
      have hset : ∀ v, setFirst dom sec v = Dict.set dom sec v := by simp [setFirst, hg]
      simp only [selectIndex, Value.getItem] at h
      cases hk : Dict.get? d key with
      | none =>
        simp only [hk] at h
        cases h
        refine ⟨fun d' hd' => ?_, fun _ _ => rfl⟩
        rw [hg] at hd'
        cases hd'
        intro v hv; simp [hk] at hv
      | some node =>
        have hnew : ∀ node', dom' = Dict.set dom sec (.dict (Dict.set d key (.list [node']))) →
            (∀ d', Dict.get? dom' sec = some (.dict d') → ListedIn d' key) ∧
              ∀ k, k ≠ sec → Dict.get? dom' k = Dict.get? dom k := by
          rintro node' rfl
          refine ⟨fun d' hd' => ?_, fun k hk' => Dict.get?_set_ne hk'⟩
          simp only [Dict.get?_set_self, Option.some.injEq, Value.dict.injEq] at hd'
          subst hd'
          exact listedIn_set_self d key _
        cases node with
        | list l =>
          simp only [hk] at h
          cases h
          refine ⟨fun d' hd' => ?_, fun _ _ => rfl⟩
          rw [hg] at hd'
          cases hd'
          intro v hv; rw [hk] at hv; cases hv; exact ⟨_, rfl⟩
        | str s => simp only [hk, hset, Value.setItem, Except.ok.injEq] at h; exact hnew _ h.symm
        | dict c => simp only [hk, hset, Value.setItem, Except.ok.injEq] at h; exact hnew _ h.symm
    | list l =>
      have hlist : ∀ dom'' : Dict, (dom'' = dom ∨ ∃ l', dom'' = Dict.set dom sec (.list l')) →
          (∀ d, Dict.get? dom'' sec = some (.dict d) → ListedIn d key) ∧
            ∀ k, k ≠ sec → Dict.get? dom'' k = Dict.get? dom k := by
        rintro _ (rfl | ⟨l', rfl⟩)
        · exact ⟨fun d hd => (by rw [hg] at hd; cases hd), fun _ _ => rfl⟩
        · exact ⟨fun d hd => (by rw [Dict.get?_set_self] at hd; cases hd),
            fun k hk => Dict.get?_set_ne hk⟩
      apply hlist
      simp only [selectIndex, List.get?_eq_getElem?] at h
      cases hl : l[0]? with
      | none => simp [hl] at h
      | some p =>
        simp only [hl] at h
        cases p with
        | dict c =>
          simp only [Value.getItem] at h
          cases hk : Dict.get? c key with
          | none => simp only [hk] at h; cases h; exact .inl rfl
          | some node =>
            cases node <;> simp only [hk, Except.ok.injEq] at h <;> subst h <;>
              first | exact .inl rfl | exact .inr ⟨_, by rw [setFirst, hg]⟩
        | str s => simp [Value.getItem] at h
        | list l' => simp [Value.getItem] at h

theorem wrapListSection_of_none {dom : Dict} {sec key : String} (h : Dict.get? dom sec = none) :
    wrapListSection dom sec key = .ok dom := by
  unfold wrapListSection
  rw [domQueryGet_single, h]

/-- Where `sec` is a section, one path of the transform puts the elements under `key` in
a list, and changes no other key of it. -/
theorem wrapListSection_dict {dom dom' d : Dict} {sec key : String}
    (hd : Dict.get? dom sec = some (.dict d)) (h : wrapListSection dom sec key = .ok dom') :
    ∃ d', Dict.get? dom' sec = some (.dict d') ∧
      Dict.get? d' key = (Dict.get? d key).map (fun v => .list v.elems) ∧
      ∀ k, k ≠ key → Dict.get? d' k = Dict.get? d k := by
  unfold wrapListSection at h
  rw [domQueryGet_single, hd] at h
  simp only [selectIndex, Value.getItem] at h
  cases hk : Dict.get? d key with
  | none => simp only [hk] at h; cases h; exact ⟨d, hd, by simp [hk], fun _ _ => rfl⟩
  | some node =>
    cases node <;> simp only [hk, setFirst, hd, Value.setItem, Except.ok.injEq] at h <;> subst h <;>
      first
      | exact ⟨d, hd, by simp [hk, Value.elems], fun _ _ => rfl⟩
      | exact ⟨_, Dict.get?_set_self, by simp [Value.elems], fun k hk => Dict.get?_set_ne hk⟩

theorem ListedIn.congr {t t' : Dict} {key : String} (h : ListedIn t key)
    (he : Dict.get? t' key = Dict.get? t key) : ListedIn t' key := fun v hv => h v (he ▸ hv)

/-- **The transform** leaves both list-capable paths as lists, and no other top-level key
changes. -/
theorem transform_ok {dom dom' : Dict} (h : transformDomWithListSchema dom = .ok dom') :
    ListSchema dom' ∧ ∀ k, k ≠ "totem" → k ≠ "nodelist" → Dict.get? dom' k = Dict.get? dom k := by
  simp only [transformDomWithListSchema, knownSecNamesWithList, List.foldlM, List.headD,
    List.getLastD, List.getLast, Except.bind_eq_ok, Except.pure_eq_ok] at h
  obtain ⟨d₁, h₁, d₂, h₂, rfl⟩ := h
  obtain ⟨ht₁, hf₁⟩ := wrapListSection_ok h₁
  obtain ⟨hn₂, hf₂⟩ := wrapListSection_ok h₂
  refine ⟨⟨fun t ht => ht₁ t ?_, hn₂⟩, fun k hk hn => (hf₂ k hn).trans (hf₁ k hk)⟩
  rwa [← hf₂ _ (by simp)]

/-- The transform puts the interfaces of a `totem` section in a list, and changes no
other key of it. -/
theorem transform_totem {dom dom' t : Dict} (ht : Dict.get? dom "totem" = some (.dict t))
    (h : transformDomWithListSchema dom = .ok dom') :
    ∃ t', Dict.get? dom' "totem" = some (.dict t') ∧
      Dict.get? t' "interface" = (Dict.get? t "interface").map (fun v => .list v.elems) ∧
      ∀ k, k ≠ "interface" → Dict.get? t' k = Dict.get? t k := by
  simp only [transformDomWithListSchema, knownSecNamesWithList, List.foldlM, List.headD,
    List.getLastD, List.getLast, Except.bind_eq_ok, Except.pure_eq_ok] at h
  obtain ⟨d₁, h₁, d₂, h₂, rfl⟩ := h
  obtain ⟨t', ht', hi, hk⟩ := wrapListSection_dict ht h₁
  exact ⟨t', by rw [(wrapListSection_ok h₂).2 _ (by simp), ht'], hi, hk⟩

/-- The transform puts the entries of a `nodelist` section in a list, and changes no
other key of it. -/
theorem transform_nodelist {dom dom' n : Dict} (hn : Dict.get? dom "nodelist" = some (.dict n))
    (h : transformDomWithListSchema dom = .ok dom') :
    ∃ n', Dict.get? dom' "nodelist" = some (.dict n') ∧
      Dict.get? n' "node" = (Dict.get? n "node").map (fun v => .list v.elems) ∧
      ∀ k, k ≠ "node" → Dict.get? n' k = Dict.get? n k := by
  simp only [transformDomWithListSchema, knownSecNamesWithList, List.foldlM, List.headD,
    List.getLastD, List.getLast, Except.bind_eq_ok, Except.pure_eq_ok] at h
  obtain ⟨d₁, h₁, d₂, h₂, rfl⟩ := h
  exact wrapListSection_dict (by rw [(wrapListSection_ok h₁).2 _ (by simp), hn]) h₂

/-- The transform adds no node list. -/
theorem transform_nodelist_absent {dom dom' : Dict} (hn : Dict.hasKey dom "nodelist" = false)
    (h : transformDomWithListSchema dom = .ok dom') : Dict.hasKey dom' "nodelist" = false := by
  simp only [transformDomWithListSchema, knownSecNamesWithList, List.foldlM, List.headD,
    List.getLastD, List.getLast, Except.bind_eq_ok, Except.pure_eq_ok] at h
  obtain ⟨d₁, h₁, d₂, h₂, rfl⟩ := h
  have hn₁ : Dict.get? d₁ "nodelist" = none := by
    rw [(wrapListSection_ok h₁).2 _ (by simp)]
    simpa [Dict.hasKey] using hn
  rw [wrapListSection_of_none hn₁] at h₂
  cases h₂
  simp [Dict.hasKey, hn₁]

theorem selectIndex_error {i : Nat} {v : Value} {e : PyExc} (h : selectIndex i v = .error e) :
    e = .indexError := by
  cases v <;> simp only [selectIndex, reduceCtorEq] at h
  split at h <;> cases h
  rfl

/-- Where the first section found under `sec` holds a list under `key`, or nothing, a
path of the transform has nothing to do. -/
theorem wrapListSection_of_first {dom c : Dict} {sec key : String} {v : Value}
    (hv : Dict.get? dom sec = some v) (hc : selectIndex 0 v = .ok (.dict c))
    (hl : ListedIn c key) : wrapListSection dom sec key = .ok dom := by
  unfold wrapListSection
  rw [domQueryGet_single, hv]
  simp only [hc, Value.getItem]
  cases hk : Dict.get? c key with
  | none => rfl
  | some w => obtain ⟨l, rfl⟩ := hl w hk; rfl

/-- Writing a section back where `setFirst` puts it: it is the one the next query under
`sec` finds. -/
theorem setFirst_found {dom : Dict} {sec : String} {w p : Value}
    (hw : Dict.get? dom sec = some w) (hp : selectIndex 0 w = .ok p) (c : Dict) :
    ∃ v, Dict.get? (setFirst dom sec (.dict c)) sec = some v ∧
      selectIndex 0 v = .ok (.dict c) := by
  cases w with
  | list l =>
    refine ⟨_, by rw [setFirst, hw, Dict.get?_set_self], ?_⟩
    have hl : 0 < l.length := by
      cases l
      · cases hp
      · simp
    simp [selectIndex, List.getElem?_set, hl]
  | dict d => exact ⟨.dict c, by rw [setFirst, hw, Dict.get?_set_self], rfl⟩
  | str s => exact ⟨.dict c, by rw [setFirst, hw, Dict.get?_set_self], rfl⟩

/-- What one path of the transform leaves under `sec`: nothing, or a first section with a
list, or nothing, under `key`. -/
theorem wrapListSection_listed {dom dom' : Dict} {sec key : String}
    (h : wrapListSection dom sec key = .ok dom') :
    Dict.get? dom' sec = none ∨ ∃ v c, Dict.get? dom' sec = some v ∧
      selectIndex 0 v = .ok (.dict c) ∧ ListedIn c key := by
  unfold wrapListSection at h
  rw [domQueryGet_single] at h
  cases hg : Dict.get? dom sec with
  | none => simp only [hg] at h; cases h; exact .inl hg
  | some w =>
    simp only [hg] at h
    cases hp : selectIndex 0 w with
    | error e => rw [hp, selectIndex_error hp] at h; cases h
    | ok p =>
      rw [hp] at h
      cases p with
      | dict c =>
        simp only [Value.getItem] at h
        cases hk : Dict.get? c key with
        | none =>
          simp only [hk] at h; cases h
          exact .inr ⟨w, c, hg, hp, fun v hv => by rw [hk] at hv; cases hv⟩
        | some node =>
          have hset : ∀ node', dom' = setFirst dom sec (.dict (Dict.set c key (.list [node']))) →
              ∃ v c, Dict.get? dom' sec = some v ∧
                selectIndex 0 v = .ok (.dict c) ∧ ListedIn c key := by
            rintro node' rfl
            obtain ⟨v, hv, hc⟩ := setFirst_found hg hp (Dict.set c key (.list [node']))
            exact ⟨v, _, hv, hc, listedIn_set_self c key _⟩
          cases node with
          | list l =>
            simp only [hk] at h; cases h
            exact .inr ⟨w, c, hg, hp, fun v hv => by rw [hk] at hv; cases hv; exact ⟨l, rfl⟩⟩
          | str s => simp only [hk, Value.setItem, Except.ok.injEq] at h; exact .inr (hset _ h.symm)
          | dict d => simp only [hk, Value.setItem, Except.ok.injEq] at h; exact .inr (hset _ h.symm)
      | str s => simp [Value.getItem] at h
      | list l => simp [Value.getItem] at h

/-- A path of the transform has nothing to do on a tree whose section `sec` is the one a
pass of it left. -/
theorem wrapListSection_fixed {dom dom' d : Dict} {sec key : String}
    (h : wrapListSection dom sec key = .ok dom') (hsec : Dict.get? d sec = Dict.get? dom' sec) :
    wrapListSection d sec key = .ok d := by
  rcases wrapListSection_listed h with hn | ⟨v, c, hv, hc, hl⟩
  · exact wrapListSection_of_none (hsec.trans hn)
  · exact wrapListSection_of_first (hsec.trans hv) hc hl

/-- **The transform is idempotent**: a tree it returned is one it returns unchanged. -/
theorem transformDomWithListSchema_idempotent {dom d : Dict}
    (h : transformDomWithListSchema dom = .ok d) : transformDomWithListSchema d = .ok d := by
  simp only [transformDomWithListSchema, knownSecNamesWithList, List.foldlM, List.headD,
    List.getLastD, List.getLast, Except.bind_eq_ok, Except.pure_eq_ok] at h ⊢
  obtain ⟨d₁, h₁, d₂, h₂, rfl⟩ := h
  exact ⟨d₂, wrapListSection_fixed h₁ ((wrapListSection_ok h₂).2 _ (by simp)), d₂,
    wrapListSection_fixed h₂ rfl, rfl⟩

/-- A lone interface in a list-valued `totem`, and a lone node: the first pass wraps
both, the second has nothing to do. -/
theorem loneSections_transform_idempotent :
    ∃ d, transformDomWithListSchema
        [("totem", .list [.dict [("interface", .dict [("ringnumber", .str "0")])]]),
         ("nodelist", .dict [("node", .dict [("ring0_addr", .str "10.0.0.1")])])] = .ok d ∧
      transformDomWithListSchema d = .ok d :=
  have h : transformDomWithListSchema
      [("totem", .list [.dict [("interface", .dict [("ringnumber", .str "0")])]]),
       ("nodelist", .dict [("node", .dict [("ring0_addr", .str "10.0.0.1")])])] =
      .ok [("totem", .list [.dict [("interface", .list [.dict [("ringnumber", .str "0")]])]]),
       ("nodelist", .dict [("node", .list [.dict [("ring0_addr", .str "10.0.0.1")]])])] := by
    decide
  ⟨_, h, transformDomWithListSchema_idempotent h⟩

/-! ## The transport -/

/-- A loop over a list that changes each element in place leaves the list of what the body
made of each. -/
theorem forEachInPlace_list {body : Value → Except PyExc Value} {l : List Value} {v : Value}
    (h : forEachInPlace body (.list l) = .ok v) :
    ∃ l', v = .list l' ∧ List.Forall₂ (fun x y => body x = .ok y) l l' := by
  simp only [forEachInPlace, Except.map_eq_ok] at h
  obtain ⟨l', hl', rfl⟩ := h
  exact ⟨l', rfl, mapM_eq_ok.1 hl'⟩

/-- What the interface loop makes of a record: a section without `ringnumber` and the
udp-only keys, with `linknumber` for the `ringnumber` it had, and its other keys as they
were. -/
def RecordMigrated (x y : Value) : Prop :=
  ∃ d d', x = .dict d ∧ y = .dict d' ∧
    (∀ k ∈ "ringnumber" :: udpOnlyKeys, Dict.get? d' k = none) ∧
    (∀ r, Dict.get? d "ringnumber" = some r → Dict.get? d' "linknumber" = some r) ∧
    ∀ k, k ∉ "linknumber" :: "ringnumber" :: udpOnlyKeys → Dict.get? d' k = Dict.get? d k

theorem migrateInterface_ok {x y : Value} (h : migrateInterface x = .ok y) : RecordMigrated x y := by
  cases x with
  | dict d =>
    have hrn : Dict.get? (udpOnlyKeys.foldl Dict.erase d) "ringnumber" = Dict.get? d "ringnumber" := by
      simp [Dict.get?_foldl_erase, udpOnlyKeys]
    simp only [migrateInterface] at h
    split at h <;> cases h
    next r hr =>
      refine ⟨d, _, rfl, rfl, fun k hk => ?_, fun r' hr' => ?_, fun k hk => ?_⟩
      · simp only [udpOnlyKeys, List.mem_cons, List.not_mem_nil, or_false] at hk
        rcases hk with rfl | rfl | rfl | rfl | rfl <;> simp [Dict.get?_foldl_erase, udpOnlyKeys]
      · rw [hrn, hr'] at hr
        simp [← Option.some.inj hr]
      · simp only [List.mem_cons, not_or] at hk
        simp [Dict.get?_set_ne hk.1, Dict.get?_erase_ne hk.2.1, Dict.get?_foldl_erase, hk.2.2]
    next hr =>
      refine ⟨d, _, rfl, rfl, fun k hk => ?_, fun r' hr' => ?_, fun k hk => ?_⟩
      · rcases List.mem_cons.1 hk with rfl | hk
        exacts [hr, by simp [Dict.get?_foldl_erase, hk]]
      · rw [hrn, hr'] at hr; cases hr
      · simp only [List.mem_cons, not_or] at hk
        simp [Dict.get?_foldl_erase, hk.2.2]
  | list _ => cases h
  | str _ => cases h

/-- The interface loop over a list of records. -/
theorem interfaceLoop_ok {l : List Value} {v : Value}
    (h : forEachInPlace migrateInterface (.list l) = .ok v) :
    ∃ l', v = .list l' ∧ List.Forall₂ RecordMigrated l l' := by
  obtain ⟨l', rfl, hl'⟩ := forEachInPlace_list h
  exact ⟨l', rfl, hl'.imp fun _ _ => migrateInterface_ok⟩

/-- What the transport step makes of `totem.interface`: an absent key stays absent, and
the records under it become what the interface loop makes of each. -/
structure InterfacesMigrated (t t' : Dict) : Prop where
  absent : Dict.get? t "interface" = none → Dict.get? t' "interface" = none
  records : ∀ v, Dict.get? t "interface" = some v →
    ∃ l', Dict.get? t' "interface" = some (.list l') ∧ List.Forall₂ RecordMigrated v.elems l'

/-- `quorum.expected_votes` is absent. -/
def QuorumSettled (dom : Dict) : Prop :=
  ∀ q, Dict.get? dom "quorum" = some (.dict q) → Dict.get? q "expected_votes" = none

theorem dropExpectedVotes_ok {dom dom' : Dict} (h : dropExpectedVotes dom = .ok dom') :
    QuorumSettled dom' ∧ ∀ k, k ≠ "quorum" → Dict.get? dom' k = Dict.get? dom k := by
  unfold dropExpectedVotes at h
  split at h <;> cases h
  next hq => exact ⟨fun q h' => (by rw [hq] at h'; cases h'), fun _ _ => rfl⟩
  next =>
    refine ⟨fun q h' => ?_, fun k hk => Dict.get?_set_ne hk⟩
    simp only [Dict.get?_set_self, Option.some.injEq, Value.dict.injEq] at h'
    subst h'
    exact Dict.get?_erase_self

@[simp] theorem setKnet_transport (t : Dict) :
    Dict.get? (setKnet t) "transport" = some (.str "knet") := by
  simp [setKnet]

@[simp] theorem setKnet_interface (t : Dict) :
    Dict.get? (setKnet t) "interface" = Dict.get? t "interface" := by
  simp [setKnet]

theorem setKnet_get?_ne {t : Dict} {k : String} (h₁ : k ≠ "transport")
    (h₂ : k ≠ "knet_compression_model") : Dict.get? (setKnet t) k = Dict.get? t k := by
  simp [setKnet, h₁, h₂]

theorem bindnetaddrProbe_congr {t t' : Dict}
    (h : Dict.get? t' "interface" = Dict.get? t "interface") :
    bindnetaddrProbe t' = bindnetaddrProbe t := by
  simp only [bindnetaddrProbe, h]

/-- `migrate_udpu` puts `totem` on knet and migrates its interfaces, changing no other key
of it but `knet_compression_model`, and drops `quorum.expected_votes`; it changes `totem`
and `quorum` only. -/
theorem migrateUdpu_ok {t dom dom' : Dict} (hl : ListedIn t "interface")
    (h : migrateUdpu t dom = .ok dom') :
    ∃ t', Dict.get? dom' "totem" = some (.dict t') ∧
      Dict.get? t' "transport" = some (.str "knet") ∧ ListedIn t' "interface" ∧
      InterfacesMigrated t t' ∧
      (∀ k, k ≠ "transport" → k ≠ "knet_compression_model" → k ≠ "interface" →
        Dict.get? t' k = Dict.get? t k) ∧
      QuorumSettled dom' ∧
      ∀ k, k ≠ "totem" → k ≠ "quorum" → Dict.get? dom' k = Dict.get? dom k := by
  simp only [migrateUdpu, Except.bind_eq_ok] at h
  obtain ⟨t', ht', hq⟩ := h
  obtain ⟨hqs, hf⟩ := dropExpectedVotes_ok hq
  have hloop : (∀ k, k ≠ "interface" → Dict.get? t' k = Dict.get? (setKnet t) k) ∧
      ListedIn t' "interface" ∧ InterfacesMigrated t t' := by
    unfold udpuInterfaces at ht'
    split at ht'
    next v hv =>
      rw [setKnet_interface] at hv
      obtain ⟨l, rfl⟩ := hl v hv
      obtain ⟨w, hw, rfl⟩ := Except.map_eq_ok.1 ht'
      obtain ⟨l', rfl, hl'⟩ := interfaceLoop_ok hw
      refine ⟨fun k hk => Dict.get?_set_ne hk, listedIn_set_self _ _ l',
        fun h => (by rw [hv] at h; cases h), fun v' hv' => ?_⟩
      rw [hv] at hv'
      cases hv'
      exact ⟨l', Dict.get?_set_self, hl'⟩
    next hv =>
      cases ht'
      rw [setKnet_interface] at hv
      exact ⟨fun _ _ => rfl, hl.congr (setKnet_interface t),
        fun _ => by rw [setKnet_interface, hv], fun v hv' => by rw [hv] at hv'; cases hv'⟩
  obtain ⟨hsame, hlisted, hmig⟩ := hloop
  refine ⟨t', by rw [hf _ (by simp), Dict.get?_set_self], by rw [hsame _ (by simp)]; simp, hlisted,
    hmig, fun k h₁ h₂ h₃ => by rw [hsame k h₃, setKnet_get?_ne h₁ h₂], hqs,
    fun k hk hk' => by rw [hf k hk', Dict.get?_set_ne hk]⟩

/-- `migrate_multicast` puts `totem` on knet and migrates its interfaces, changing no other
key of it but `knet_compression_model`, sets the node list to the entries built for the
CIB's nodes, and drops `quorum.expected_votes`; it changes `totem`, `nodelist` and
`quorum` only. -/
theorem migrateMulticast_ok {cib : List CibNode} {peers : String → Except PyExc Dict}
    {t dom dom' : Dict} (hl : ListedIn t "interface")
    (h : migrateMulticast cib peers t dom = .ok dom') :
    ∃ t' es, Dict.get? dom' "totem" = some (.dict t') ∧
      Dict.get? t' "transport" = some (.str "knet") ∧ ListedIn t' "interface" ∧
      InterfacesMigrated t t' ∧
      (∀ k, k ≠ "transport" → k ≠ "knet_compression_model" → k ≠ "interface" →
        Dict.get? t' k = Dict.get? t k) ∧
      QuorumSettled dom' ∧
      cib.mapM (nodeEntry peers) = .ok es ∧
      Dict.get? dom' "nodelist" = some (.dict [("node", .list (es.map .dict))]) ∧
      ∀ k, k ≠ "totem" → k ≠ "nodelist" → k ≠ "quorum" → Dict.get? dom' k = Dict.get? dom k := by
  simp only [migrateMulticast, Except.bind_eq_ok] at h
  obtain ⟨v, hv, v', hv', h⟩ := h
  split_ifs at h
  · simp at h
  simp only [Except.bind_eq_ok, Except.pure_eq_ok] at h
  obtain ⟨-, -, es, hes, hq⟩ := h
  obtain ⟨hqs, hf⟩ := dropExpectedVotes_ok hq
  simp only [Value.getItem, setKnet_interface] at hv
  split at hv <;> cases hv
  rename_i hi
  obtain ⟨l, rfl⟩ := hl _ hi
  obtain ⟨l', rfl, hl'⟩ := interfaceLoop_ok hv'
  refine ⟨Dict.set (setKnet t) "interface" (.list l'), es, ?_, by simp, listedIn_set_self _ _ l',
    ⟨fun h => (by rw [hi] at h; cases h), fun v hv => ?_⟩, fun k h₁ h₂ h₃ => ?_, hqs, hes, ?_,
    fun k h₁ h₂ h₃ => ?_⟩
  · rw [hf _ (by simp), Dict.get?_set_ne (by simp), Dict.get?_set_self]
  · rw [hi] at hv
    cases hv
    exact ⟨l', Dict.get?_set_self, hl'⟩
  · rw [Dict.get?_set_ne h₃, setKnet_get?_ne h₁ h₂]
  · rw [hf _ (by simp), Dict.get?_set_self]
  · rw [hf k h₃, Dict.get?_set_ne h₂, Dict.get?_set_ne h₁]

/-- How `migrate_transport` leaves `totem`: on knet, or on a transport it does not
migrate, where its probe passes and a node list stands. -/
def TransportSettled (dom totem : Dict) : Prop :=
  Dict.get? totem "transport" = some (.str "knet") ∨
    Dict.get? totem "transport" ≠ some (.str "udpu") ∧
      Dict.get? totem "transport" ≠ some (.str "udp") ∧
      bindnetaddrProbe totem = .ok () ∧ Dict.hasKey dom "nodelist"

theorem TransportSettled.congr {dom dom' t t' : Dict} (h : TransportSettled dom t)
    (htr : Dict.get? t' "transport" = Dict.get? t "transport")
    (hi : Dict.get? t' "interface" = Dict.get? t "interface")
    (hn : Dict.hasKey dom' "nodelist" = Dict.hasKey dom "nodelist") : TransportSettled dom' t' := by
  unfold TransportSettled at *
  rwa [htr, bindnetaddrProbe_congr hi, hn]

/-- The transports the migration rewrites: `udpu`, `udp`, and no transport without a node
list. -/
def LegacyTransport (dom t : Dict) : Prop :=
  Dict.get? t "transport" = some (.str "udpu") ∨ Dict.get? t "transport" = some (.str "udp") ∨
    Dict.get? t "transport" = none ∧ Dict.hasKey dom "nodelist" = false

/-- **The transport step** leaves `totem` a section on a settled transport, with the
interfaces and the node list's entries still in lists.  Of `totem` it changes
`transport`, `knet_compression_model` and `interface` only; a legacy transport ends on
knet, with its interfaces migrated and no `quorum.expected_votes`. -/
theorem migrateTransport_ok {cib : List CibNode} {peers : String → Except PyExc Dict}
    {dom dom' : Dict} (hs : ListSchema dom) (h : migrateTransport cib peers dom = .ok dom') :
    ∃ t, Dict.get? dom' "totem" = some (.dict t) ∧ ListSchema dom' ∧ TransportSettled dom' t ∧
      ∀ t₀, Dict.get? dom "totem" = some (.dict t₀) →
        (∀ k, k ≠ "transport" → k ≠ "knet_compression_model" → k ≠ "interface" →
          Dict.get? t k = Dict.get? t₀ k) ∧
        (LegacyTransport dom t₀ →
          Dict.get? t "transport" = some (.str "knet") ∧ InterfacesMigrated t₀ t ∧ QuorumSettled dom') := by
  unfold migrateTransport at h
  split at h
  next t ht =>
    have hl := hs.totem t ht
    have same (P : Dict → Prop) (hP : P t) : ∀ t₀, Dict.get? dom "totem" = some (.dict t₀) → P t₀ := by
      intro t₀ ht₀
      rw [ht] at ht₀
      cases ht₀
      exact hP
    have multicast (h : migrateMulticast cib peers t dom = .ok dom') :
        ∃ t', Dict.get? dom' "totem" = some (.dict t') ∧ ListSchema dom' ∧ TransportSettled dom' t' ∧
          ∀ t₀, Dict.get? dom "totem" = some (.dict t₀) →
            (∀ k, k ≠ "transport" → k ≠ "knet_compression_model" → k ≠ "interface" →
              Dict.get? t' k = Dict.get? t₀ k) ∧
            (LegacyTransport dom t₀ → Dict.get? t' "transport" = some (.str "knet") ∧
              InterfacesMigrated t₀ t' ∧ QuorumSettled dom') := by
      obtain ⟨t', es, ht', hk, hl', hmig, hkeep, hq, -, hn, -⟩ := migrateMulticast_ok hl h
      refine ⟨t', ht', ⟨fun t'' h'' => ?_, fun n hn' => ?_⟩, .inl hk,
        same _ ⟨hkeep, fun _ => ⟨hk, hmig, hq⟩⟩⟩
      · rw [ht'] at h''; cases h''; exact hl'
      · rw [hn] at hn'; cases hn'; exact listedIn_set_self [] "node" _
    split at h
    next hknet =>
      cases h
      refine ⟨t, ht, hs, .inl hknet, same _ ⟨fun _ _ _ _ => rfl, fun hleg => ?_⟩⟩
      rcases hleg with h' | h' | ⟨h', -⟩ <;> rw [hknet] at h' <;> simp at h'
    next =>
      obtain ⟨t', ht', hk, hl', hmig, hkeep, hq, hf⟩ := migrateUdpu_ok hl h
      refine ⟨t', ht', ⟨fun t'' h'' => ?_, fun n hn => hs.nodelist n ?_⟩, .inl hk,
        same _ ⟨hkeep, fun _ => ⟨hk, hmig, hq⟩⟩⟩
      · rw [ht'] at h''; cases h''; exact hl'
      · rwa [← hf _ (by simp) (by simp)]
    next => exact multicast h
    next hknet hudpu hudp =>
      simp only [Except.bind_eq_ok] at h
      obtain ⟨⟨⟩, hp, h⟩ := h
      split at h
      next hn =>
        cases h
        refine ⟨t, ht, hs, .inr ⟨hudpu, hudp, hp, hn⟩, same _ ⟨fun _ _ _ _ => rfl, fun hleg => ?_⟩⟩
        rcases hleg with h' | h' | ⟨-, h'⟩
        exacts [absurd h' hudpu, absurd h' hudp, by rw [hn] at h'; cases h']
      next =>
        simp only [Except.bind_eq_ok, Except.pure_eq_ok] at h
        obtain ⟨⟨⟩, -, h⟩ := h
        exact multicast h
  next => cases h
  next => cases h

/-! ## Crypto and the redundant rings -/

/-- `migrate_crypto` turns a `crypto_hash` of `sha1` into `sha256`, leaves any other value
and its absence as they were, and changes nothing else. -/
theorem migrateCrypto_ok {dom dom' t : Dict} (ht : Dict.get? dom "totem" = some (.dict t))
    (h : migrateCrypto dom = .ok dom') :
    ∃ t', Dict.get? dom' "totem" = some (.dict t') ∧
      Dict.get? t' "crypto_hash" ≠ some (.str "sha1") ∧
      Dict.get? t' "crypto_hash" = (if Dict.get? t "crypto_hash" = some (.str "sha1")
        then some (.str "sha256") else Dict.get? t "crypto_hash") ∧
      (∀ k, k ≠ "crypto_hash" → Dict.get? t' k = Dict.get? t k) ∧
      ∀ k, k ≠ "totem" → Dict.get? dom' k = Dict.get? dom k := by
  simp only [migrateCrypto, ht] at h
  split_ifs at h with hs <;> cases h
  · exact ⟨_, Dict.get?_set_self, by simp, by simp [hs], fun k hk => Dict.get?_set_ne hk,
      fun k hk => Dict.get?_set_ne hk⟩
  · exact ⟨t, ht, hs, by simp [hs], fun _ _ => rfl, fun _ _ => rfl⟩

/-- `migrate_crypto` keeps the interfaces and the node's entries in their lists. -/
theorem ListSchema.migrateCrypto {dom dom' t : Dict} (hs : ListSchema dom)
    (ht : Dict.get? dom "totem" = some (.dict t)) (h : migrateCrypto dom = .ok dom') :
    ListSchema dom' := by
  obtain ⟨t', ht', -, -, hf, hd⟩ := migrateCrypto_ok ht h
  refine ⟨fun t'' h'' => ?_, fun n hn => hs.nodelist n (by rwa [hd _ (by simp)] at hn)⟩
  rw [ht'] at h''
  cases h''
  exact (hs.totem t ht).congr (hf _ (by simp))

/-- The `rrp_mode` part of `migrate_rrp` leaves no `rrp_mode`, turns `active` into
`link_mode: active`, and changes no other key of `totem` and nothing outside it. -/
theorem dropRrpMode_ok {dom dom' t : Dict} (ht : Dict.get? dom "totem" = some (.dict t))
    (h : dropRrpMode dom = .ok dom') :
    ∃ t', Dict.get? dom' "totem" = some (.dict t') ∧ Dict.get? t' "rrp_mode" = none ∧
      (Dict.get? t "rrp_mode" = some (.str "active") → Dict.get? t' "link_mode" = some (.str "active")) ∧
      (∀ k, k ≠ "rrp_mode" → k ≠ "link_mode" → Dict.get? t' k = Dict.get? t k) ∧
      ∀ k, k ≠ "totem" → Dict.get? dom' k = Dict.get? dom k := by
  simp only [dropRrpMode, ht] at h
  split at h <;> cases h
  next hm => exact ⟨t, ht, hm, fun h' => (by rw [hm] at h'; cases h'), fun _ _ _ => rfl, fun _ _ => rfl⟩
  next mode hm =>
    refine ⟨_, Dict.get?_set_self, ?_, fun h' => ?_, fun k h₁ h₂ => ?_, fun k hk => Dict.get?_set_ne hk⟩
    · split_ifs <;> simp
    · rw [hm, Option.some.injEq] at h'
      simp [h']
    · split_ifs <;> simp [Dict.get?_set_ne h₂, Dict.get?_erase_ne h₁]

/-- `populate_node_name` over a list names every entry, each a section. -/
theorem populateNodeName_ok {cib : List CibNode} {l : List Value} {v : Value}
    (h : populateNodeName cib (.list l) = .ok v) :
    ∃ l', v = .list l' ∧ List.Forall₂ (fun x y => ∃ e s, x = .dict e ∧
      y = .dict (Dict.set e "name" (.str s))) l l' := by
  simp only [populateNodeName, forEachInPlace, Except.map_eq_ok, mapM_eq_ok] at h
  obtain ⟨l', hl', rfl⟩ := h
  refine ⟨l', rfl, hl'.imp fun x y hxy => ?_⟩
  simp only [Except.bind_eq_ok] at hxy
  obtain ⟨nodeId, hid, hxy⟩ := hxy
  cases x with
  | dict e =>
    split at hxy
    · simp only [Except.pure_eq_ok] at hxy
      exact ⟨e, _, rfl, hxy.symm⟩
    · simp at hxy
  | str _ => simp [entryNodeid, Value.getItem] at hid
  | list _ => simp [entryNodeid, Value.getItem] at hid

/-- Naming the entries changes no other key they have. -/
theorem populated_all {l l' : List Value}
    (h : List.Forall₂ (fun x y => ∃ e s, x = .dict e ∧ y = .dict (Dict.set e "name" (.str s))) l l')
    {k : String} (hk : k ≠ "name") : l'.all (·.contains k) = l.all (·.contains k) := by
  induction h with
  | nil => rfl
  | cons hxy _ ih =>
    obtain ⟨e, s, rfl, rfl⟩ := hxy
    simp only [List.all_cons, ih]
    simp [Value.contains, Dict.hasKey, Dict.get?_set_ne hk]

theorem populated_named {l l' : List Value}
    (h : List.Forall₂ (fun x y => ∃ e s, x = .dict e ∧ y = .dict (Dict.set e "name" (.str s))) l l') :
    l'.all (·.contains "name") := by
  induction h with
  | nil => rfl
  | cons hxy _ ih =>
    obtain ⟨e, s, rfl, rfl⟩ := hxy
    simpa [Value.contains] using ih

/-- A node list that is a section holding its entries in a list, if there is one. -/
def NodelistSection (dom : Dict) : Prop :=
  ∀ v, Dict.get? dom "nodelist" = some v → ∃ n, v = .dict n ∧ ListedIn n "node"

/-- What `migrate_rrp` leaves: a node list with a second ring has no `rrp_mode` beside it,
and an id and a name in every entry. -/
def RrpSettled (dom totem : Dict) : Prop :=
  ∀ n l, Dict.get? dom "nodelist" = some (.dict n) → Dict.get? n "node" = some (.list l) →
    l.any (·.contains "ring1_addr") →
      Dict.get? totem "rrp_mode" = none ∧ l.all (·.contains "nodeid") ∧ l.all (·.contains "name")

/-- **The redundant-ring step** leaves the node list a section and settles the rings; of
`totem` it changes `rrp_mode` and `link_mode` only, and a dropped `rrp_mode: active` leaves
`link_mode: active`; it changes no top-level key but `totem` and `nodelist`. -/
theorem migrateRrp_ok {cib : List CibNode} {dom dom' t : Dict} (hs : ListSchema dom)
    (ht : Dict.get? dom "totem" = some (.dict t)) (h : migrateRrp cib dom = .ok dom') :
    ∃ t', Dict.get? dom' "totem" = some (.dict t') ∧
      (∀ k, k ≠ "rrp_mode" → k ≠ "link_mode" → Dict.get? t' k = Dict.get? t k) ∧
      Dict.hasKey dom' "nodelist" = Dict.hasKey dom "nodelist" ∧
      NodelistSection dom' ∧ RrpSettled dom' t' ∧
      (Dict.get? t "rrp_mode" = some (.str "active") → Dict.get? t' "rrp_mode" = none →
        Dict.get? t' "link_mode" = some (.str "active")) ∧
      ∀ k, k ≠ "totem" → k ≠ "nodelist" → Dict.get? dom' k = Dict.get? dom k := by
  have kept (h₁ : Dict.get? t "rrp_mode" = some (.str "active"))
      (h₂ : Dict.get? t "rrp_mode" = none) : Dict.get? t "link_mode" = some (.str "active") := by
    rw [h₁] at h₂; cases h₂
  unfold migrateRrp at h
  split at h
  next hn =>
    cases h
    exact ⟨t, ht, fun _ _ _ => rfl, rfl, fun v hv => by simp [hn] at hv,
      fun n l hv => by simp [hn] at hv, kept, fun _ _ _ => rfl⟩
  next nodelist hn =>
    cases nodelist with
    | str _ => simp [Value.getItem] at h
    | list _ => simp [Value.getItem] at h
    | dict n =>
      have hsec : NodelistSection dom := fun v hv =>
        ⟨n, by rw [hn] at hv; exact (Option.some.inj hv).symm, hs.nodelist n hn⟩
      have same_nodes {n' : Dict} (hv : Dict.get? dom "nodelist" = some (.dict n')) :
          n' = n := by rw [hn] at hv; cases hv; rfl
      simp only [Value.getItem] at h
      cases hnode : Dict.get? n "node" with
      | none =>
        simp only [hnode] at h
        cases h
        exact ⟨t, ht, fun _ _ _ => rfl, rfl, hsec, fun n' l hv hl => (by
          rw [same_nodes hv, hnode] at hl; cases hl), kept, fun _ _ _ => rfl⟩
      | some nodes =>
        obtain ⟨l, rfl⟩ := hs.nodelist n hn _ hnode
        simp only [hnode, Value.iter] at h
        split_ifs at h with hany hid hname
        · cases h
          refine ⟨t, ht, fun _ _ _ => rfl, rfl, hsec, fun n' l' hv hl' hany' => ?_, kept,
            fun _ _ _ => rfl⟩
          rw [same_nodes hv, hnode] at hl'
          cases hl'
          simp [hany'] at hany
        · simp only [Except.bind_eq_ok, Except.pure_eq_ok] at h
          obtain ⟨_, h₁, -, -, -, -, rfl⟩ := h
          obtain ⟨t₁, ht₁, hrrp, hlink, hft, hfd⟩ := dropRrpMode_ok ht h₁
          have hn₁ : Dict.get? dom' "nodelist" = some (.dict n) := by rw [hfd _ (by simp), hn]
          refine ⟨t₁, ht₁, hft, by simp only [Dict.hasKey, hn₁, hn], fun v hv => hsec v ?_,
            fun n' l' hv hl' _ => ?_, fun h' _ => hlink h', fun k hk _ => hfd k hk⟩
          · rwa [hfd _ (by simp)] at hv
          · rw [hn₁] at hv
            cases hv
            rw [hnode] at hl'
            cases hl'
            exact ⟨hrrp, hid, hname⟩
        · simp only [Except.bind_eq_ok, Except.pure_eq_ok] at h
          obtain ⟨dom₁, h₁, -, -, -, -, v, hv, rfl⟩ := h
          obtain ⟨t₁, ht₁, hrrp, hlink, hft, hfd⟩ := dropRrpMode_ok ht h₁
          obtain ⟨l', rfl, hl'⟩ := populateNodeName_ok hv
          refine ⟨t₁, by rw [Dict.get?_set_ne (by simp), ht₁], hft, ?_, fun v hv => ?_,
            fun n' l'' hv hl'' hany' => ?_, fun h' _ => hlink h',
            fun k h₁ h₂ => by rw [Dict.get?_set_ne h₂, hfd k h₁]⟩
          · simp [Dict.hasKey, hn]
          · rw [Dict.get?_set_self] at hv
            cases hv
            exact ⟨_, rfl, listedIn_set_self n "node" l'⟩
          · rw [Dict.get?_set_self] at hv
            cases hv
            simp only [Value.setItem, Dict.get?_set_self, Option.some.injEq, Value.list.injEq] at hl''
            subst hl''
            exact ⟨hrrp, by rw [populated_all hl' (by simp)]; exact hid, populated_named hl'⟩
        · simp at h
        · simp at h

/-! ## The migrated tree -/

/-- **A migrated tree**, with its `totem` section: what the steps of
`migrate_corosync_conf_impl` read in it leads each of them to leave it as it is. -/
structure Migrated (dom t : Dict) : Prop where
  totem : Dict.get? dom "totem" = some (.dict t)
  interface : ListedIn t "interface"
  nodelist : NodelistSection dom
  transport : TransportSettled dom t
  crypto : Dict.get? t "crypto_hash" ≠ some (.str "sha1")
  rrp : RrpSettled dom t

/-- **A migration leaves a migrated tree**, followed step by step. -/
theorem migrate_migrated {cib : List CibNode} {peers : String → Except PyExc Dict}
    {dom d1 : Dict} (h : migrateCorosyncConfImpl cib peers dom = .ok d1) : ∃ t, Migrated d1 t := by
  obtain ⟨dA, dB, dC, hA, hB, hC, hD⟩ := migrateCorosyncConfImpl_steps h
  obtain ⟨hsA, -⟩ := transform_ok hA
  obtain ⟨tB, htB, hsB, hsetB, -⟩ := migrateTransport_ok hsA hB
  obtain ⟨tC, htC, hcC, -, hfC, hdC⟩ := migrateCrypto_ok htB hC
  have hsC := hsB.migrateCrypto htB hC
  obtain ⟨t1, ht1, hf1, hk1, hsec1, hrrp1, -⟩ := migrateRrp_ok hsC htC hD
  have hkeep {k : String} (h₁ : k ≠ "crypto_hash") (h₂ : k ≠ "rrp_mode") (h₃ : k ≠ "link_mode") :
      Dict.get? t1 k = Dict.get? tB k := by
    rw [hf1 k h₂ h₃, hfC k h₁]
  refine ⟨t1, ht1, (hsC.totem tC htC).congr (hf1 _ (by simp) (by simp)), hsec1, ?_, ?_, hrrp1⟩
  · refine hsetB.congr (hkeep (by simp) (by simp) (by simp)) (hkeep (by simp) (by simp) (by simp)) ?_
    rw [hk1]
    simp only [Dict.hasKey, hdC _ (by simp : "nodelist" ≠ "totem")]
  · rw [hf1 _ (by simp) (by simp)]
    exact hcC

theorem wrapListSection_of_listed {dom d : Dict} {sec key : String}
    (hd : Dict.get? dom sec = some (.dict d)) (hl : ListedIn d key) :
    wrapListSection dom sec key = .ok dom := by
  unfold wrapListSection
  rw [domQueryGet_single, hd]
  simp only [selectIndex, Value.getItem]
  cases hk : Dict.get? d key with
  | none => rfl
  | some v => obtain ⟨l, rfl⟩ := hl v hk; rfl

section Fixed

variable {cib : List CibNode} {peers : String → Except PyExc Dict} {dom t : Dict}

theorem Migrated.transform_eq (hm : Migrated dom t) : transformDomWithListSchema dom = .ok dom := by
  have hn : wrapListSection dom "nodelist" "node" = .ok dom := by
    cases hv : Dict.get? dom "nodelist" with
    | none => exact wrapListSection_of_none hv
    | some v =>
      obtain ⟨n, rfl, hl⟩ := hm.nodelist v hv
      exact wrapListSection_of_listed hv hl
  simp [transformDomWithListSchema, knownSecNamesWithList, List.foldlM,
    wrapListSection_of_listed hm.totem hm.interface, hn]

theorem Migrated.migrateTransport_eq (hm : Migrated dom t) :
    migrateTransport cib peers dom = .ok dom := by
  unfold migrateTransport
  rw [hm.totem]
  dsimp only
  rcases hm.transport with hk | ⟨hu, hp, hprobe, hn⟩
  · simp only [hk]
  · split
    · rfl
    · contradiction
    · contradiction
    · simp [hprobe, hn]

theorem Migrated.migrateCrypto_eq (hm : Migrated dom t) : migrateCrypto dom = .ok dom := by
  simp [migrateCrypto, hm.totem, hm.crypto]

theorem Migrated.migrateRrp_eq (hm : Migrated dom t) : migrateRrp cib dom = .ok dom := by
  unfold migrateRrp
  cases hv : Dict.get? dom "nodelist" with
  | none => rfl
  | some v =>
    obtain ⟨n, rfl, hl⟩ := hm.nodelist v hv
    simp only [Value.getItem]
    cases hnode : Dict.get? n "node" with
    | none => rfl
    | some x =>
      obtain ⟨l, rfl⟩ := hl x hnode
      cases hany : l.any (·.contains "ring1_addr")
      · simp [Value.iter, hany]
      · obtain ⟨hrrp, hid, hname⟩ := hm.rrp n l hv hnode hany
        simp [Value.iter, hany, hid, hname, dropRrpMode, hm.totem, hrrp]

/-- **Every step leaves a migrated tree as it is.** -/
theorem migrated_fixed (hm : Migrated dom t) : migrateCorosyncConfImpl cib peers dom = .ok dom := by
  have ht : Dict.hasKey dom "totem" = true := by simp [Dict.hasKey, hm.totem]
  simp [migrateCorosyncConfImpl, ht, hm.transform_eq, hm.migrateTransport_eq,
    hm.migrateCrypto_eq, hm.migrateRrp_eq]

end Fixed

/-- **Migration is idempotent**: a tree that a migration returned is one a second
migration returns unchanged, whatever the CIB and the members' configurations. -/
theorem migrateCorosyncConfImpl_idempotent {cib cib' : List CibNode}
    {peers peers' : String → Except PyExc Dict} {dom d1 : Dict}
    (h : migrateCorosyncConfImpl cib peers dom = .ok d1) :
    migrateCorosyncConfImpl cib' peers' d1 = .ok d1 := by
  obtain ⟨t, hm⟩ := migrate_migrated h
  exact migrated_fixed hm

/-- The two-ring tree of the example above: migrated once, then again with an empty CIB
and no member reachable, it stays as the first migration left it. -/
theorem twoRing_migration_idempotent :
    migrateCorosyncConfImpl [⟨1, "alpha"⟩, ⟨2, "beta"⟩] (fun _ => .error .assertionError)
      [("totem", .dict [("transport", .str "knet"), ("rrp_mode", .str "active"),
        ("crypto_hash", .str "sha1")]),
       ("nodelist", .dict [("node", .list [
         .dict [("ring0_addr", .str "10.0.0.1"), ("ring1_addr", .str "10.1.0.1"),
           ("nodeid", .str "1")],
         .dict [("ring0_addr", .str "10.0.0.2"), ("ring1_addr", .str "10.1.0.2"),
           ("nodeid", .str "2"), ("name", .str "b")]])])] =
      .ok [("totem", .dict [("transport", .str "knet"), ("crypto_hash", .str "sha256"),
        ("link_mode", .str "active")]),
       ("nodelist", .dict [("node", .list [
         .dict [("ring0_addr", .str "10.0.0.1"), ("ring1_addr", .str "10.1.0.1"),
           ("nodeid", .str "1"), ("name", .str "alpha")],
         .dict [("ring0_addr", .str "10.0.0.2"), ("ring1_addr", .str "10.1.0.2"),
           ("nodeid", .str "2"), ("name", .str "beta")]])])] ∧
    migrateCorosyncConfImpl [] (fun _ => .error .assertionError)
      [("totem", .dict [("transport", .str "knet"), ("crypto_hash", .str "sha256"),
        ("link_mode", .str "active")]),
       ("nodelist", .dict [("node", .list [
         .dict [("ring0_addr", .str "10.0.0.1"), ("ring1_addr", .str "10.1.0.1"),
           ("nodeid", .str "1"), ("name", .str "alpha")],
         .dict [("ring0_addr", .str "10.0.0.2"), ("ring1_addr", .str "10.1.0.2"),
           ("nodeid", .str "2"), ("name", .str "beta")]])])] =
      .ok [("totem", .dict [("transport", .str "knet"), ("crypto_hash", .str "sha256"),
        ("link_mode", .str "active")]),
       ("nodelist", .dict [("node", .list [
         .dict [("ring0_addr", .str "10.0.0.1"), ("ring1_addr", .str "10.1.0.1"),
           ("nodeid", .str "1"), ("name", .str "alpha")],
         .dict [("ring0_addr", .str "10.0.0.2"), ("ring1_addr", .str "10.1.0.2"),
           ("nodeid", .str "2"), ("name", .str "beta")]])])] :=
  (fun h => ⟨h, migrateCorosyncConfImpl_idempotent h⟩) (by decide)

end Crmsh
