import Crmsh.LinkManager.WellFormed

/-!
# `update_link` changes its own link's options and nothing else

`update_link(n, options)` finds the record of link `n` by comparing `linknumber` with the
text `str(n)`; `links()` finds it by loading `linknumber` with `int`.  The two agree when
every record's `linknumber` is `str(j)` for its own `j` and the records' numbers are
distinct (`CanonicalRecords`).  Under that condition `updateLink_sets_own_options`: the
links after the call are the links before it, with link `n` replaced by its old value
with `options` loaded on top; the node list is untouched, and so are, in order, the
records of the other links.  The round trip of `Options.lean` carries the proof.

`updateLink_misses_padded_linknumber` shows that the condition is needed: a record
`linknumber: 01` is link 1's for `links()` but not for `update_link`, which then leaves
link 1's options as they were.
-/

namespace Crmsh

/-! ## Which record belongs to which link -/

/-- `x['linknumber'] == str(i)`: the test by which `update_link` finds the record of link
`i`. -/
def hasLinknumber (i : Int) (x : Value) : Bool :=
  decide (x.getItem "linknumber" = .ok (.str (pyStr i)))

theorem hasLinknumber_dict {i j : Int} {r : Dict}
    (hr : Dict.get? r "linknumber" = some (.str (pyStr j))) :
    hasLinknumber i (.dict r) = decide (j = i) := by
  simp [hasLinknumber, Value.getItem, hr, pyStr_injective.eq_iff]

/-- Sections each of whose `linknumber` is `str(j)` for some `j`. -/
def LinknumbersCanonical (rs : List Dict) : Prop :=
  ∀ r ∈ rs, ∃ j : Int, Dict.get? r "linknumber" = some (.str (pyStr j))

/-- The key `links()` gives a record whose `linknumber` is `str(j)` is `j`. -/
theorem recordKey_dict {r : Dict} {j : Int} {p : Int × Value}
    (hr : Dict.get? r "linknumber" = some (.str (pyStr j))) (h : recordKey (.dict r) = .ok p) :
    p = (j, .dict r) := by
  simp only [recordKey, Except.bind_eq_ok, Except.pure_eq_ok] at h
  obtain ⟨l, hl, rfl⟩ := h
  rw [Link.loadOptions_linknumber hr hl]

/-- A record that is a section with a canonical `linknumber`. -/
def CanonicalRecord (x : Value) : Prop :=
  ∃ r j, x = .dict r ∧ Dict.get? r "linknumber" = some (.str (pyStr j))

theorem hasLinknumber_eq {i j : Int} {x : Value} (hi : hasLinknumber i x) (hj : hasLinknumber j x) :
    i = j := by
  simp only [hasLinknumber, decide_eq_true_eq] at hi hj
  exact pyStr_injective (Value.str.inj (Except.ok.inj (hi.symm.trans hj)))

/-- **The record `links()` takes for link `i`** is the last record whose `linknumber` is
`str(i)`, when every `linknumber` is canonical. -/
theorem optionRecord_canonical {L : List Value} {keyed : List (Int × Value)}
    (hc : ∀ x ∈ L, CanonicalRecord x) (hk : L.mapM recordKey = .ok keyed) (i : Int) :
    optionRecord keyed i = (L.filter (hasLinknumber i)).getLast? := by
  have hf : keyed.filter (fun p => p.1 = i) = (L.filter (hasLinknumber i)).map ((i, ·)) := by
    have hall := mapM_eq_ok.1 hk
    clear hk
    induction hall with
    | nil => rfl
    | @cons x p L keyed hxp _ ih =>
      obtain ⟨r, j, rfl, hj⟩ := hc _ (List.mem_cons_self _ _)
      rw [recordKey_dict hj hxp, List.filter_cons, List.filter_cons, hasLinknumber_dict hj,
        ih fun x hx => hc x (List.mem_cons_of_mem _ hx)]
      by_cases hji : j = i <;> simp [hji]
  rw [optionRecord, ← List.filter_head?, List.filter_reverse, List.head?_reverse, hf,
    List.getLast?_map, Option.map_map]
  cases (L.filter (hasLinknumber i)).getLast? <;> rfl

/-! ## `links()` around a change of `totem.interface` -/

/-- `links()` returning a non-empty list went through a non-empty node list. -/
theorem links_ok_nodes {config : Dict} {ls : List (Option Link)} (h : links config = .ok ls)
    (hne : ls ≠ []) :
    ∃ first rest, totemTransport config = .ok (.str "knet") ∧
      getPath config "nodelist" "node" = .ok (.list (first :: rest)) := by
  unfold links at h
  cases ht : totemTransport config with
  | error e => simp [ht, bind, Except.bind] at h
  | ok t =>
    by_cases hk : t = .str "knet"
    · subst hk
      simp only [ht, bind, Except.bind, ne_eq, not_true_eq_false, if_false, pure, Except.pure] at h
      split at h
      all_goals first | (cases h; exact absurd rfl hne) | cases h | skip
      exact ⟨_, _, rfl, ‹_›⟩
    · simp [ht, bind, Except.bind, hk, throw, throwThe, MonadExceptOf.throw] at h

theorem links_eq_of_nodes {config : Dict} {first : Value} {rest : List Value}
    {slots : List (Option Link)} (ht : totemTransport config = .ok (.str "knet"))
    (hn : getPath config "nodelist" "node" = .ok (.list (first :: rest)))
    (hs : linkSlots first rest = .ok slots) : links config = interfaceOptions config slots := by
  simp [links, ht, hn, hs, bind, Except.bind, pure, Except.pure]

/-- Slot `i` of the node-list half of `links` is link `i` with no options. -/
theorem linkSlots_getElem? {first : Value} {rest : List Value} {slots : List (Option Link)}
    (h : linkSlots first rest = .ok slots) {i : Nat} {s : Link} (hs : slots[i]? = some (some s)) :
    s.linknumber = i ∧ ∀ f ∈ linkOptionsUpdatable, s.optionText f = none := by
  obtain ⟨ids, names, -, -, hall⟩ := linkSlots_ok h
  obtain ⟨hi, hsi⟩ := List.getElem?_eq_some_iff.1 hs
  have := (List.forall₂_iff_get.1 hall).2 i (by simpa [hall.length_eq] using hi) hi
  simp only [List.get_eq_getElem, List.getElem_range, hsi, linkSlot] at this
  split at this
  · obtain ⟨_, -, h⟩ := Except.map_eq_ok.1 this
    cases h
    exact ⟨rfl, fun f hf => by cases f <;> first | exact absurd hf (by decide) | rfl⟩
  · cases this

theorem mergeOptions_getElem? {keyed : List (Int × Value)} {slots ls : List (Option Link)}
    (h : mergeOptions keyed slots = .ok ls) {i : Nat} {b : Option Link} (hb : ls[i]? = some b) :
    ∃ a, slots[i]? = some a ∧ slotOptions keyed i a = .ok b := by
  rw [mergeOptions, mapM_eq_ok, List.forall₂_iff_get] at h
  obtain ⟨hi, hbi⟩ := List.getElem?_eq_some_iff.1 hb
  have hs : i < slots.length := by have := h.1; simp only [List.enum_length] at this; omega
  refine ⟨slots[i], List.getElem?_eq_getElem hs, ?_⟩
  have := h.2 i (by simpa using hs) hi
  simpa [List.getElem_enum, hbi] using this

theorem mergeOptions_nil (slots : List (Option Link)) : mergeOptions [] slots = .ok slots := by
  rw [mergeOptions, mapM_eq_ok, List.forall₂_iff_get]
  refine ⟨by simp, fun i h₁ h₂ => ?_⟩
  simp only [List.get_eq_getElem, List.getElem_enum]
  cases slots[i] <;> rfl

/-- `totem.interface` reads as the list `L`, an absent one as the empty list. -/
def InterfaceList (config : Dict) (L : List Value) : Prop :=
  getPath config "totem" "interface" = .ok (.list L) ∨
    L = [] ∧ ∃ k, getPath config "totem" "interface" = .error (.keyError k)

theorem interfaceOptions_eq {config : Dict} {L : List Value} {slots : List (Option Link)}
    (h : InterfaceList config L) :
    interfaceOptions config slots = L.mapM recordKey >>= fun keyed => mergeOptions keyed slots := by
  rcases h with h | ⟨rfl, k, h⟩
  · simp only [interfaceOptions, h]
  · rw [List.mapM_nil]
    simp [interfaceOptions, h, mergeOptions_nil, pure, Except.pure, bind, Except.bind]


/-! ## The records `update_link` leaves -/

theorem hasLinknumber_dict_eq (i : Int) (r : Dict) :
    hasLinknumber i (.dict r) = decide (Dict.get? r "linknumber" = some (.str (pyStr i))) := by
  cases h : Dict.get? r "linknumber" <;> simp [hasLinknumber, Value.getItem, h]

/-- **Where `update_link` puts link `n`'s record.**  With distinct `linknumber`s the list
splits into the records before and after link `n`'s, neither holding link `n`'s, around
the one record it finds (or none); the result has the rewritten record `w` there, or
nothing when `w` holds only its `linknumber`. -/
theorem placeRecord_split {rs : List Dict} {n : Int} {index : Option Nat} {w : Dict}
    (hd : (rs.map (Dict.get? · "linknumber")).Nodup)
    (hf : findRecord (pyStr n) (rs.map .dict) 0 = .ok index) :
    ∃ A B ys, rs.map Value.dict = A ++ ys ++ B ∧
      placeRecord (rs.map .dict) index w =
        A ++ (if Dict.len w == 1 then [] else [.dict w]) ++ B ∧
      (∀ x ∈ A ++ B, hasLinknumber n x = false) ∧ ∀ y ∈ ys, hasLinknumber n y = true := by
  rw [findRecord_dicts] at hf
  have hidx := Except.ok.inj hf
  cases index with
  | none =>
    rw [List.findIdx?_eq_none_iff] at hidx
    refine ⟨rs.map .dict, [], [], by simp, ?_, ?_, by simp⟩
    · cases h : Dict.len w == 1 <;> simp [placeRecord, h]
    · simp only [List.append_nil, List.mem_map]
      rintro _ ⟨r, hr, rfl⟩
      rw [hasLinknumber_dict_eq]
      exact hidx r hr
  | some i =>
    obtain ⟨hi, hp, hbefore⟩ := List.findIdx?_eq_some_iff_getElem.1 hidx
    have hsplit : rs = rs.take i ++ rs[i] :: rs.drop (i + 1) := by
      rw [← List.drop_eq_getElem_cons hi, List.take_append_drop]
    have hlen : i < (rs.map Value.dict).length := by simpa using hi
    refine ⟨(rs.take i).map .dict, (rs.drop (i + 1)).map .dict, [.dict rs[i]], ?_, ?_, ?_, ?_⟩
    · rw [List.append_assoc, List.singleton_append, ← List.map_cons, ← List.drop_eq_getElem_cons hi,
        ← List.map_append, List.take_append_drop]
    · cases h : Dict.len w == 1
      · simp only [placeRecord, h, List.set_eq_take_append_cons_drop, if_pos hlen]
        simp
      · simp only [placeRecord, h, List.eraseIdx_eq_take_drop_succ]
        simp
    · have hd' := hd
      rw [hsplit, List.map_append, List.map_cons, List.nodup_append, List.nodup_cons] at hd'
      simp only [List.mem_append, List.mem_map]
      rintro _ (⟨r, hr, rfl⟩ | ⟨r, hr, rfl⟩) <;> rw [hasLinknumber_dict_eq]
      · obtain ⟨j, hj, rfl⟩ := List.mem_take_iff_getElem.1 hr
        simpa using hbefore j (by omega)
      · have hpi : Dict.get? rs[i] "linknumber" = some (.str (pyStr n)) := by simpa using hp
        simp only [decide_eq_false_iff_not]
        intro hr'
        exact hd'.2.1.1 (List.mem_map.2 ⟨r, hr, hr'.trans hpi.symm⟩)
    · simp only [List.mem_singleton]
      rintro _ rfl
      rw [hasLinknumber_dict_eq]
      simpa using hp

/-- Rewriting link `n`'s records leaves, for every other link, the records `links()`
reads, and, in order, the records that are not link `n`'s. -/
theorem filter_split {n : Int} {A B ys zs : List Value}
    (hAB : ∀ x ∈ A ++ B, hasLinknumber n x = false) (hys : ∀ y ∈ ys, hasLinknumber n y = true)
    (hzs : ∀ z ∈ zs, hasLinknumber n z = true) :
    (∀ i, i ≠ n → (A ++ zs ++ B).filter (hasLinknumber i) = (A ++ ys ++ B).filter (hasLinknumber i)) ∧
      (A ++ zs ++ B).filter (hasLinknumber n) = zs ∧
      (A ++ zs ++ B).filter (fun x => !hasLinknumber n x) =
        (A ++ ys ++ B).filter (fun x => !hasLinknumber n x) := by
  have hother : ∀ i, i ≠ n → ∀ l : List Value, (∀ y ∈ l, hasLinknumber n y = true) →
      l.filter (hasLinknumber i) = [] := fun i hi l hl => List.filter_eq_nil_iff.2
    fun y hy hyi => hi (hasLinknumber_eq hyi (hl y hy))
  refine ⟨fun i hi => ?_, ?_, ?_⟩
  · simp only [List.filter_append, hother i hi ys hys, hother i hi zs hzs]
  · have hA : A.filter (hasLinknumber n) = [] := List.filter_eq_nil_iff.2 fun x hx hxn => by
      simp [hAB x (List.mem_append_left _ hx)] at hxn
    have hB : B.filter (hasLinknumber n) = [] := List.filter_eq_nil_iff.2 fun x hx hxn => by
      simp [hAB x (List.mem_append_right _ hx)] at hxn
    simp only [List.filter_append, hA, hB, List.filter_eq_self.2 hzs, List.nil_append,
      List.append_nil]
  · have hnil : ∀ l : List Value, (∀ y ∈ l, hasLinknumber n y = true) →
        l.filter (fun x => !hasLinknumber n x) = [] := fun l hl =>
      List.filter_eq_nil_iff.2 fun y hy => by simp [hl y hy]
    simp only [List.filter_append, hnil ys hys, hnil zs hzs]

/-- The record `update_link` edits for link `n` has `linknumber` `str(n)`. -/
theorem recordAt_linknumber {rs : List Dict} {n : Int} {index : Option Nat}
    (hf : findRecord (pyStr n) (rs.map .dict) 0 = .ok index) :
    Dict.get? (recordAt (rs.map .dict) index n) "linknumber" = some (.str (pyStr n)) := by
  rw [findRecord_dicts] at hf
  cases index with
  | none => simp [recordAt]
  | some i =>
    obtain ⟨hi, hp, -⟩ := List.findIdx?_eq_some_iff_getElem.1 (Except.ok.inj hf)
    simpa [recordAt, List.getElem?_eq_getElem hi] using hp

/-- A record `update_link` wrote that holds only its `linknumber` comes from a link with
no options. -/
theorem optionText_none_of_len {link : Link} {r : Dict} (hr : Dict.hasKey r "linknumber")
    (hlen : Dict.len (writeOptions link r) = 1) (f : LinkField) (hf : f ∈ linkOptionsUpdatable) :
    link.optionText f = none := by
  cases ht : link.optionText f with
  | none => rfl
  | some t =>
    have hne : "linknumber" ≠ f.name :=
      (by decide : ∀ f ∈ linkOptionsUpdatable, "linknumber" ≠ f.name) f hf
    have h₁ : Dict.hasKey (writeOptions link r) "linknumber" := by
      unfold Dict.hasKey at hr ⊢
      rwa [writeOptions_linknumber]
    have h₂ : Dict.hasKey (writeOptions link r) f.name := by
      unfold Dict.hasKey
      rw [get?_writeOptions hf, ht]
      rfl
    exact absurd hlen (Dict.len_ne_one_of_ne h₁ h₂ hne)

/-- A record `update_link` wrote loads in `links()` under its own number. -/
theorem recordKey_writeOptions {src : Link} {r : Dict} {j : Int} (hsrc : src.TransportText)
    (hr : Dict.get? r "linknumber" = some (.str (pyStr j))) :
    recordKey (.dict (writeOptions src r)) = .ok (j, .dict (writeOptions src r)) := by
  have hl : ∀ f ∈ linkOptionsUpdatable, ({} : Link).optionText f = none := fun f hf => by
    cases f <;> first | exact absurd hf (by decide) | rfl
  simp [recordKey, Link.loadOptions_writeOptions hl hsrc hr, bind, Except.bind, pure, Except.pure]

theorem getItem_storeInterfaces_ne {t : Dict} {L : List Value} {k : String}
    (hk : k ≠ "interface") : (storeInterfaces (.dict t) L).getItem k = (Value.dict t).getItem k := by
  unfold storeInterfaces
  split_ifs <;> simp [Value.getItem, Value.setItem, hk]

theorem InterfaceList.storeInterfaces {config t : Dict} (L : List Value) :
    InterfaceList (Dict.set config "totem" (storeInterfaces (.dict t) L)) L := by
  unfold InterfaceList
  rw [getPath_of_get? Dict.get?_set_self, getItem_storeInterfaces]
  split
  · exact .inr ⟨(‹_ ∧ _›).1, _, rfl⟩
  · exact .inl rfl

theorem interfaceList_of_totem {config t : Dict} {rs : List Dict}
    (ht : Dict.get? config "totem" = some (.dict t))
    (hi : (Dict.get? t "interface" = none ∧ rs = []) ∨
      Dict.get? t "interface" = some (.list (rs.map .dict))) :
    InterfaceList config (rs.map .dict) := by
  unfold InterfaceList
  rw [getPath_of_get? ht]
  rcases hi with ⟨h, rfl⟩ | h
  · exact .inr ⟨rfl, "interface", by simp [Value.getItem, h]⟩
  · exact .inl (by simp [Value.getItem, h])

/-- `update_link`'s reading of `totem.interface`: the records, or none when it is absent. -/
theorem interfacesOf_dict {t : Dict} {rs : List Dict}
    (hi : (Dict.get? t "interface" = none ∧ rs = []) ∨
      Dict.get? t "interface" = some (.list (rs.map .dict))) :
    interfacesOf (.dict t) = .ok (rs.map .dict) := by
  rcases hi with ⟨h, rfl⟩ | h <;> simp [interfacesOf, Value.getItem, h]

theorem recordSource_dict_eq_some {r : Dict} {k : String} {v : Value} :
    recordSource (.dict r) k = .ok (some (some v)) ↔ Dict.get? r k = some v := by
  cases hg : Dict.get? r k <;> simp [recordSource, Value.getItem, hg]

/-- The interface records of a tree whose records are well-shaped. -/
theorem RecordsShape.interfaceList {config : Dict} {S : Finset Nat} (h : RecordsShape config S) :
    ∃ rs, RecordsOf S rs ∧ InterfaceList config (rs.map .dict) := by
  rcases h with ⟨k, hk⟩ | ⟨rs, hrs, hR⟩
  exacts [⟨[], RecordsOf.nil S, .inr ⟨rfl, k, hk⟩⟩, ⟨rs, hR, .inl hrs⟩]

theorem totemTransport_storeInterfaces {config t : Dict} {L : List Value}
    (ht : Dict.get? config "totem" = some (.dict t)) :
    totemTransport (Dict.set config "totem" (storeInterfaces (.dict t) L)) =
      totemTransport config := by
  simp only [totemTransport, getPath_of_get? Dict.get?_set_self, getPath_of_get? ht,
    getItem_storeInterfaces_ne (by decide : "transport" ≠ "interface")]

/-- The records of `totem.interface` that are not link `n`'s, in order. -/
def otherRecords (n : Int) (config : Dict) : List Value :=
  match getPath config "totem" "interface" with
  | .ok (.list L) => L.filter fun x => !hasLinknumber n x
  | _ => []

theorem otherRecords_eq {n : Int} {config : Dict} {L : List Value} (h : InterfaceList config L) :
    otherRecords n config = L.filter fun x => !hasLinknumber n x := by
  rcases h with h | ⟨rfl, k, h⟩ <;> simp [otherRecords, h]

/-! ## Loading the caller's options -/

theorem Link.loadOption_none {l : Link} {data : OptionSource} {f : LinkField}
    (h : data f.name = .ok none) : l.loadOption data f = .ok l := by
  simp [Link.loadOption, h, bind, Except.bind, pure, Except.pure]

/-- Options named from `LINK_OPTIONS_UPDATABLE` leave a link's number alone. -/
theorem Link.loadOptions_options_linknumber {l l' : Link}
    {options : PyDict String (Option String)}
    (hnames : ∀ p ∈ options.items, p.1 ∈ linkOptionsUpdatable.map LinkField.name)
    (h : l.loadOptions (optionsSource options) = .ok l') : l'.linknumber = l.linknumber := by
  refine Link.foldlM_loadOption_invariant (P := fun l' => l'.linknumber = l.linknumber)
    (fun f _ l₁ l₂ h₁ h₂ => ?_) rfl h
  by_cases hf : f = .linknumber
  · subst hf
    have hnone : optionsSource options LinkField.linknumber.name = .ok none := by
      simp only [optionsSource, PyDict.get?, Except.ok.injEq, Option.map_eq_none']
      refine List.find?_eq_none.2 fun p hp hpn => absurd (hnames p hp) ?_
      simp only [decide_eq_true_eq] at hpn
      rw [hpn]
      decide
    rw [Link.loadOption_none hnone] at h₂
    cases h₂
    exact h₁
  · exact (Link.loadOption_linknumber_ne hf h₂).trans h₁

theorem optionsSource_transport (options : PyDict String (Option String)) (v : Value)
    (h : optionsSource options "knet_transport" = .ok (some (some v))) : ∃ s, v = .str s := by
  simp only [optionsSource, Except.ok.injEq, Option.map_eq_some'] at h
  obtain ⟨_, -, s, -, rfl⟩ := h
  exact ⟨s, rfl⟩

/-! ## Link `n` before and after -/

/-- A link with no options has no `knet_transport`. -/
theorem Link.transportText_of_none {l : Link}
    (h : ∀ f ∈ linkOptionsUpdatable, l.optionText f = none) : l.TransportText := fun v hv => by
  have := h .knetTransport (by decide)
  simp [Link.optionText, hv] at this

theorem slotOptions_eq_some {keyed : List (Int × Value)} {i : Nat} {a : Option Link} {l : Link}
    (h : slotOptions keyed i a = .ok (some l)) :
    ∃ s, a = some s ∧ ((optionRecord keyed i = none ∧ l = s) ∨
      ∃ x, optionRecord keyed i = some x ∧ s.loadOptions (recordSource x) = .ok l) := by
  unfold slotOptions at h
  split at h
  · rename_i s x hx
    obtain ⟨l', hl', h'⟩ := Except.map_eq_ok.1 h
    cases h'
    exact ⟨s, rfl, .inr ⟨x, hx, hl'⟩⟩
  · rename_i hne
    simp only [pure, Except.pure, Except.ok.injEq] at h
    subst h
    refine ⟨l, rfl, .inl ⟨?_, rfl⟩⟩
    cases hx : optionRecord keyed i with
    | none => rfl
    | some x => exact (hne l x rfl hx).elim

/-- **Link `n` of `links()`** with canonical records: slot `n` of the node list, which has
no options, with the options of link `n`'s record loaded on top; its number is `n` and its
`knet_transport` a string. -/
theorem link_of_slot {first : Value} {rest : List Value} {slots ls : List (Option Link)}
    {keyed : List (Int × Value)} {L : List Value} {n : Nat} {link : Link}
    (hslots : linkSlots first rest = .ok slots) (hcan : ∀ x ∈ L, CanonicalRecord x)
    (htr : ∀ x ∈ L, hasLinknumber n x → ∀ v, recordSource x "knet_transport" = .ok (some (some v)) →
      ∃ s, v = .str s)
    (hkeyed : L.mapM recordKey = .ok keyed) (hmerge : mergeOptions keyed slots = .ok ls)
    (hn : ls[n]? = some (some link)) :
    ∃ s, slots[n]? = some (some s) ∧ (∀ f ∈ linkOptionsUpdatable, s.optionText f = none) ∧
      s.nodes = link.nodes ∧ link.linknumber = n ∧ link.TransportText := by
  obtain ⟨a, ha, hslot⟩ := mergeOptions_getElem? hmerge hn
  obtain ⟨s, rfl, hcase⟩ := slotOptions_eq_some hslot
  obtain ⟨hsn, hsopt⟩ := linkSlots_getElem? hslots ha
  have hsT := Link.transportText_of_none hsopt
  refine ⟨s, ha, hsopt, ?_⟩
  rcases hcase with ⟨-, rfl⟩ | ⟨x, hx, hload⟩
  · exact ⟨rfl, hsn, hsT⟩
  · rw [optionRecord_canonical hcan hkeyed] at hx
    obtain ⟨hxL, hxn⟩ := List.mem_filter.1 (List.mem_of_getLast?_eq_some hx)
    have htrx := htr _ hxL hxn
    obtain ⟨r, j, rfl, hj⟩ := hcan _ hxL
    rw [hasLinknumber_dict hj, decide_eq_true_eq] at hxn
    subst hxn
    exact ⟨(Link.loadOptions_nodes hload).symm, Link.loadOptions_linknumber hj hload,
      Link.loadOptions_transportText htrx hsT hload⟩

/-- **Slot `n` after `update_link`.**  Loading the record `update_link` wrote for `link'`
into the slot, or taking the slot itself when the record held only its `linknumber` and
was dropped, gives `link'`. -/
theorem slotOptions_written {keyed' : List (Int × Value)} {n : Nat} {s link' : Link} {r₀ : Dict}
    (hs : ∀ f ∈ linkOptionsUpdatable, s.optionText f = none) (hsn : s.linknumber = n)
    (hT : link'.TransportText) (hln : link'.linknumber = n) (hnodes : link'.nodes = s.nodes)
    (hr₀ : Dict.get? r₀ "linknumber" = some (.str (pyStr n)))
    (hrec : optionRecord keyed' n = (if Dict.len (writeOptions link' r₀) == 1 then []
      else [Value.dict (writeOptions link' r₀)]).getLast?) :
    slotOptions keyed' n (some s) = .ok (some link') := by
  have hround := Link.loadOptions_writeOptions hs hT hr₀
  have heq : { link' with linknumber := (n : Int), nodes := s.nodes } = link' := by
    rw [← hln, ← hnodes]
  cases hlen : Dict.len (writeOptions link' r₀) == 1
  · simp only [hlen, Bool.false_eq_true, if_false, List.getLast?_singleton] at hrec
    simp [slotOptions, hrec, hround, heq, Functor.map, Except.map]
  · simp only [hlen, if_true, List.getLast?_nil] at hrec
    have hnone := optionText_none_of_len (show Dict.hasKey r₀ "linknumber" by simp [hr₀])
      (by simpa using hlen)
    have hsame : writeOptions link' r₀ = writeOptions s r₀ :=
      writeOptions_congr r₀ fun f hf => (hnone f hf).trans (hs f hf).symm
    have hround' := Link.loadOptions_writeOptions hs (Link.transportText_of_none hs) hr₀
    rw [← hsame, hround, heq, Except.ok.injEq] at hround'
    have hs' : { s with linknumber := (n : Int), nodes := s.nodes } = s := by rw [← hsn]
    rw [hs'] at hround'
    simp [slotOptions, hrec, hround', pure, Except.pure]

/-! ## The theorem -/

/-- What `placeRecord` leaves is the records around the one it rewrote, and that one. -/
theorem mem_of_mem_placed {A B : List Value} {c : Prop} [Decidable c] {v x : Value}
    (h : x ∈ A ++ (if c then [] else [v]) ++ B) : x ∈ A ++ B ∨ x = v := by
  by_cases hc : c <;>
    simp only [hc, if_true, if_false, List.mem_append, List.mem_singleton, List.not_mem_nil,
      or_false] at h ⊢ <;> tauto

/-- `totem.interface` as `update_link` and `links()` agree on it: absent, or sections whose
`linknumber`s are `str(j)` for pairwise distinct `j`, with a string `knet_transport` where
they have one. -/
def CanonicalRecords (config : Dict) : Prop :=
  InterfaceRecords (fun rs => LinknumbersCanonical rs ∧
    (rs.map (Dict.get? · "linknumber")).Nodup ∧
    ∀ r ∈ rs, ∀ v, Dict.get? r "knet_transport" = some v → ∃ s, v = .str s) config

/-- The records as `update_link` on link `n` needs them: as in `CanonicalRecords`, with
only link `n`'s own record held to a string `knet_transport`. -/
def RecordsFor (n : Int) (config : Dict) : Prop :=
  InterfaceRecords (fun rs => LinknumbersCanonical rs ∧
    (rs.map (Dict.get? · "linknumber")).Nodup ∧
    ∀ r ∈ rs, Dict.get? r "linknumber" = some (.str (pyStr n)) →
      ∀ v, Dict.get? r "knet_transport" = some v → ∃ s, v = .str s) config

theorem CanonicalRecords.recordsFor {config : Dict} (h : CanonicalRecords config) (n : Int) :
    RecordsFor n config :=
  h.mono fun _ ⟨hcan, hd, htr⟩ => ⟨hcan, hd, fun r hr _ => htr r hr⟩

theorem RecordsOf.canonical {S : Finset Nat} {rs : List Dict} (h : RecordsOf S rs) :
    ∀ x ∈ rs.map Value.dict, CanonicalRecord x := by
  simp only [List.mem_map]
  rintro _ ⟨r, hr, rfl⟩
  obtain ⟨i, -, hi⟩ := (h.each r hr).linknumber
  exact ⟨r, i, rfl, hi⟩

/-- No record of a well-formed tree belongs to a link outside its set. -/
theorem RecordsOf.not_linknumber {S : Finset Nat} {rs : List Dict} (h : RecordsOf S rs) {k : Nat}
    (hk : k ∉ S) {r : Dict} (hr : r ∈ rs) : Dict.get? r "linknumber" ≠ some (.str (pyStr k)) := by
  obtain ⟨i, hi, hri⟩ := (h.each r hr).linknumber
  intro hrk
  have : i = k := by exact_mod_cast pyStr_injective (Value.str.inj (Option.some.inj (hri.symm.trans hrk)))
  exact hk (this ▸ hi)

theorem RecordsShape.recordsFor {config : Dict} {S : Finset Nat} (h : RecordsShape config S) {k : Nat}
    (hk : k ∉ S) : RecordsFor k config :=
  InterfaceRecords.mono (fun _ hrs => ⟨fun r hr => let ⟨i, _, hi⟩ := (hrs.each r hr).linknumber; ⟨i, hi⟩,
    hrs.distinct, fun _ hr hrk => absurd hrk (hrs.not_linknumber hk hr)⟩) h

theorem optionRecord_eq_none_of_not_mem {S : Finset Nat} {rs : List Dict} {keyed : List (Int × Value)}
    (hrs : RecordsOf S rs) (hkeyed : (rs.map Value.dict).mapM recordKey = .ok keyed) {k : Nat}
    (hk : k ∉ S) : optionRecord keyed k = none := by
  rw [optionRecord_canonical hrs.canonical hkeyed, List.getLast?_eq_none_iff, List.filter_eq_nil_iff]
  simp only [List.mem_map]
  rintro _ ⟨r, hr, rfl⟩
  simpa [hasLinknumber_dict_eq] using hrs.not_linknumber hk hr

/-- `update_link` on records that hold only link `n`'s own record to a string
`knet_transport`: what `updateLink_sets_own_options` states. -/
theorem updateLink_sets_own_options_of {config config' : Dict} {ls : List (Option Link)}
    {n : Nat} {link : Link} {options : PyDict String (Option String)}
    (hl : links config = .ok ls) (hc : RecordsFor n config)
    (hn : ls[n]? = some (some link)) (h : updateLink config n options = .ok config') :
    ∃ link', link.loadOptions (optionsSource options) = .ok link' ∧ link'.nodes = link.nodes ∧
      links config' = .ok (ls.set n (some link')) ∧
      getPath config' "nodelist" "node" = getPath config "nodelist" "node" ∧
      otherRecords n config' = otherRecords n config := by
  obtain ⟨ls₀, link₀, link', totem, interfaces, index, hls, hlink, -, hnames, hload, htotem,
    hint, hfind, rfl⟩ := updateLink_ok h
  obtain rfl : ls₀ = ls := Except.ok.inj (hls.symm.trans hl)
  obtain rfl : link₀ = link := by
    have := existingLink_getElem? (Int.ofNat_nonneg n) hlink
    rw [Int.toNat_ofNat, hn] at this
    simpa using this.symm
  obtain ⟨t, rs, rfl, ⟨hcan, hd, htr⟩, hi⟩ :=
    InterfaceRecords.totem ⟨fun _ h => (nomatch h), List.nodup_nil, fun _ h => (nomatch h)⟩ hc htotem
  obtain rfl : interfaces = rs.map .dict := Except.ok.inj (hint.symm.trans (interfacesOf_dict hi))
  have hL := interfaceList_of_totem htotem hi
  have hcanL : ∀ x ∈ rs.map Value.dict, CanonicalRecord x := by
    simp only [List.mem_map]
    rintro _ ⟨r, hr, rfl⟩
    obtain ⟨j, hj⟩ := hcan r hr
    exact ⟨r, j, rfl, hj⟩
  have htrL : ∀ x ∈ rs.map Value.dict, hasLinknumber n x → ∀ v,
      recordSource x "knet_transport" = .ok (some (some v)) → ∃ s, v = .str s := by
    simp only [List.mem_map]
    rintro _ ⟨r, hr, rfl⟩ hrn v hv
    exact htr r hr (by simpa [hasLinknumber_dict_eq] using hrn) v (recordSource_dict_eq_some.1 hv)
  -- `links()` before the call, and link `n` in it
  obtain ⟨first, rest, ht, hnodes⟩ :=
    links_ok_nodes hl (by rintro rfl; simp at hn)
  obtain ⟨slots, hslots, hopts⟩ := links_of_nodes hnodes hl
  rw [interfaceOptions_eq hL] at hopts
  obtain ⟨keyed, hkeyed, hmerge⟩ := Except.bind_eq_ok.1 hopts
  obtain ⟨s, hs, hsopt, hsnodes, hlinkn, hlinkT⟩ :=
    link_of_slot hslots hcanL htrL hkeyed hmerge hn
  have hsn := (linkSlots_getElem? hslots hs).1
  have hln' : link'.linknumber = n :=
    (Link.loadOptions_options_linknumber hnames hload).trans hlinkn
  have hT' : link'.TransportText :=
    Link.loadOptions_transportText (optionsSource_transport options) hlinkT hload
  -- the records the call leaves
  have hr₀ := recordAt_linknumber hfind
  set r' := writeOptions link' (recordAt (rs.map .dict) index n)
  have hr' : Dict.get? r' "linknumber" = some (.str (pyStr n)) :=
    (writeOptions_linknumber link' _).trans hr₀
  obtain ⟨A, B, ys, hsplit, hplace, hAB, hys⟩ := placeRecord_split (w := r') hd hfind
  have hzs : ∀ z ∈ (if Dict.len r' == 1 then [] else [Value.dict r']),
      hasLinknumber n z = true := by
    intro z hz
    split at hz
    · cases hz
    · rw [List.mem_singleton.1 hz]
      simp [hasLinknumber_dict_eq, hr']
  obtain ⟨hother, hown, hnot⟩ := filter_split hAB hys hzs
  have hAB' : ∀ x ∈ A ++ B, x ∈ rs.map Value.dict := fun x hx => by
    rw [hsplit]
    rcases List.mem_append.1 hx with hx | hx
    exacts [List.mem_append_left _ (List.mem_append_left _ hx), List.mem_append_right _ hx]
  have hcan' : ∀ x ∈ A ++ (if Dict.len r' == 1 then [] else [Value.dict r']) ++ B,
      CanonicalRecord x := fun x hx => by
    rcases mem_of_mem_placed hx with hx | rfl
    · exact hcanL x (hAB' x hx)
    · exact ⟨r', n, rfl, hr'⟩
  obtain ⟨keyed', hkeyed'⟩ := mapM_ok_of_forall (f := recordKey)
      (l := A ++ (if Dict.len r' == 1 then [] else [Value.dict r']) ++ B) fun x hx => by
    rcases mem_of_mem_placed hx with hx | rfl
    · obtain ⟨p, -, hp⟩ := mapM_ok_of_mem hkeyed (hAB' x hx)
      exact ⟨p, hp⟩
    · exact ⟨_, recordKey_writeOptions hT' hr₀⟩
  refine ⟨link', hload, Link.loadOptions_nodes hload, ?_, getPath_set_ne (by decide), ?_⟩
  · rw [links_eq_of_nodes ((totemTransport_storeInterfaces htotem).trans ht)
      ((getPath_set_ne (by decide)).trans hnodes) hslots,
      interfaceOptions_eq (InterfaceList.storeInterfaces _), hplace, hkeyed']
    show slots.enum.mapM (fun p => slotOptions keyed' p.1 p.2) = _
    refine mapM_enum_set (f := fun i a => slotOptions keyed i a) (g := fun i a => slotOptions keyed' i a)
      hmerge (fun i x hin => ?_) fun x hx => ?_
    · have : optionRecord keyed' i = optionRecord keyed i := by
        rw [optionRecord_canonical hcan' hkeyed', optionRecord_canonical hcanL hkeyed, hsplit,
          hother i (by exact_mod_cast hin)]
      simp only [slotOptions, this]
    · rw [hs, Option.some.injEq] at hx
      subst hx
      exact slotOptions_written hsopt hsn hT' hln' ((Link.loadOptions_nodes hload).trans hsnodes.symm)
        hr₀ (by rw [optionRecord_canonical hcan' hkeyed', hown])
  · rw [otherRecords_eq (InterfaceList.storeInterfaces _), otherRecords_eq hL, hplace, hsplit]
    exact hnot

/-- **`update_link` changes its own link's options and nothing else.**  On a tree with
canonical records, `update_link(n, options)` for a present link `n` that returns leaves a
tree whose `links()` are those before with link `n` replaced by `link'`, its old value
with `options` loaded on top (the same nodes, `None` resetting a field); the node list and,
in order, the records of the other links are untouched. -/
theorem updateLink_sets_own_options {config config' : Dict} {ls : List (Option Link)}
    {n : Nat} {link : Link} {options : PyDict String (Option String)}
    (hl : links config = .ok ls) (hc : CanonicalRecords config)
    (hn : ls[n]? = some (some link)) (h : updateLink config n options = .ok config') :
    ∃ link', link.loadOptions (optionsSource options) = .ok link' ∧ link'.nodes = link.nodes ∧
      links config' = .ok (ls.set n (some link')) ∧
      getPath config' "nodelist" "node" = getPath config "nodelist" "node" ∧
      otherRecords n config' = otherRecords n config :=
  updateLink_sets_own_options_of hl (hc.recordsFor n) hn h

/-- Links 0 and 1 on two nodes, and one interface record, whose `linknumber` is the text
`ln`, giving a `mcastport` of 5405. -/
def portTree (ln : String) : Dict :=
  [("totem", .dict [("transport", .str "knet"),
      ("interface", .list [.dict [("linknumber", .str ln), ("mcastport", .str "5405")]])]),
    ("nodelist", .dict [("node", .list [
      .dict [("ring0_addr", .str "10.0.0.1"), ("ring1_addr", .str "10.1.0.1"),
        ("name", .str "alpha"), ("nodeid", .str "1")],
      .dict [("ring0_addr", .str "10.0.0.2"), ("ring1_addr", .str "10.1.0.2"),
        ("name", .str "beta"), ("nodeid", .str "2")]])])]

/-- The options `{'mcastport': None}`. -/
def resetMcastport : PyDict String (Option String) := ⟨[("mcastport", none)], by decide⟩

theorem portTree_reset_changes_only_link_one :
    ∃ ls link config', links (portTree "1") = .ok ls ∧ CanonicalRecords (portTree "1") ∧
      ls[1]? = some (some link) ∧ updateLink (portTree "1") (1 : Nat) resetMcastport = .ok config' ∧
      ∃ link', link.loadOptions (optionsSource resetMcastport) = .ok link' ∧
        link'.nodes = link.nodes ∧ links config' = .ok (ls.set 1 (some link')) ∧
        getPath config' "nodelist" "node" = getPath (portTree "1") "nodelist" "node" ∧
        otherRecords 1 config' = otherRecords 1 (portTree "1") := by
  have hc : CanonicalRecords (portTree "1") :=
    .inr ⟨[[("linknumber", .str "1"), ("mcastport", .str "5405")]], rfl,
      by simpa [LinknumbersCanonical] using ⟨1, rfl⟩, by decide, fun r hr v hv => by
        simp only [List.mem_singleton] at hr
        subst hr
        cases hv⟩
  exact ⟨_, _, _, rfl, hc, rfl, rfl, updateLink_sets_own_options rfl hc rfl rfl⟩

/-- **`update_link` misses a padded `linknumber`.**  `links()` reads the record `01` as
link 1's, with port 5405; `update_link(1, {'mcastport': None})` looks for the text `1`,
finds nothing, and writes nothing, since a record of only a `linknumber` is dropped.  Link
1 keeps its port, against the docstring's "Specify None value will reset the option to its
default value", and outside the law `updateLink_sets_own_options`, whose records carry
`str(j)`. -/
theorem updateLink_misses_padded_linknumber :
    updateLink (portTree "01") (1 : Nat) resetMcastport = .ok (portTree "01") ∧
      (links (portTree "01")).map (fun ls => ls[1]?.join.map Link.mcastport) =
        .ok (some (some 5405)) := by
  decide

end Crmsh
