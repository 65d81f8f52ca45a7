import Crmsh.LinkManager.Shape

/-!
# Writing a link's options and loading them back

`update_link` writes a link's options into its `totem.interface` record as text
(`writeOptions`), and `links()` loads them back the next time it runs
(`Link.loadOptions` on `recordSource`).  The round trip `Link.loadOptions_writeOptions`
says that loading the record `update_link` wrote, into a link that has no options yet,
gives the written link back, provided its `knet_transport` is a string: `str()` of any
other value is its `repr`, which loads back as a string.
-/

namespace Crmsh

/-! ## What `update_link`'s loop writes -/

theorem get?_writeOption_ne {link : Link} {r : Dict} {f : LinkField} {k : String}
    (h : k ≠ f.name) : Dict.get? (writeOption link r f) k = Dict.get? r k := by
  unfold writeOption
  split <;> simp [h]

/-- The loop leaves every key that is not the name of a field it visits. -/
theorem get?_foldl_writeOption {link : Link} {fs : List LinkField} {r : Dict} {k : String}
    (hk : k ∉ fs.map LinkField.name) :
    Dict.get? (fs.foldl (writeOption link) r) k = Dict.get? r k := by
  induction fs generalizing r with
  | nil => rfl
  | cons f fs ih =>
    simp only [List.map_cons, List.mem_cons, not_or] at hk
    rw [List.foldl_cons, ih hk.2, get?_writeOption_ne hk.1]

/-- `update_link` never writes the `linknumber` of the record it edits. -/
theorem writeOptions_linknumber (link : Link) (r : Dict) :
    Dict.get? (writeOptions link r) "linknumber" = Dict.get? r "linknumber" :=
  get?_foldl_writeOption (by decide)

/-- After the loop an updatable field's key holds `str` of the link's value, and is
absent for `None`. -/
theorem get?_writeOptions {link : Link} {r : Dict} {f : LinkField}
    (hf : f ∈ linkOptionsUpdatable) :
    Dict.get? (writeOptions link r) f.name = (link.optionText f).map .str := by
  unfold writeOptions
  have hnd : (linkOptionsUpdatable.map LinkField.name).Nodup := by decide
  generalize linkOptionsUpdatable = fs at hf hnd
  induction fs generalizing r with
  | nil => cases hf
  | cons g fs ih =>
    rw [List.map_cons, List.nodup_cons] at hnd
    rw [List.foldl_cons]
    rcases List.mem_cons.1 hf with rfl | hf
    · rw [get?_foldl_writeOption hnd.1]
      unfold writeOption
      split <;> simp_all
    · exact ih hf hnd.2

/-- The loop reads a link only through the text of its updatable fields. -/
theorem writeOptions_congr {l₁ l₂ : Link} (r : Dict)
    (h : ∀ f ∈ linkOptionsUpdatable, l₁.optionText f = l₂.optionText f) :
    writeOptions l₁ r = writeOptions l₂ r :=
  List.foldl_ext _ _ _ fun r f hf => by simp only [writeOption, h f hf]

/-! ## What `load_options` reads back -/

/-- A link whose `knet_transport`, where set, is a string. -/
def Link.TransportText (l : Link) : Prop := ∀ v, l.knetTransport = some v → ∃ s, v = .str s

/-- `l` with field `f` taken from `src`. -/
def Link.copyOption (l src : Link) : LinkField → Link
  | .knetTransport => { l with knetTransport := src.knetTransport }
  | f => l.setIntField f (src.intField f)

theorem Link.setIntField_intField (l : Link) (f : LinkField) : l.setIntField f (l.intField f) = l := by
  cases f <;> rfl

theorem Link.setIntField_none {l : Link} {f : LinkField} (h : l.intField f = none) :
    l.setIntField f none = l :=
  h ▸ l.setIntField_intField f

theorem Link.optionText_copyOption_ne {l src : Link} {f g : LinkField} (h : g ≠ f) :
    (l.copyOption src f).optionText g = l.optionText g := by
  cases f <;> cases g <;> first | exact absurd rfl h | rfl

/-- **One field loaded from a record `update_link` wrote.**  When the field's key holds
`str` of `src`'s value (and is absent for `None`), loading it into a link where it is unset
copies `src`'s value. -/
theorem Link.loadOption_text {l src : Link} {data : OptionSource} {f : LinkField}
    (hf : f ∈ linkOptionsUpdatable) (hsrc : src.TransportText)
    (hdata : data f.name = .ok ((src.optionText f).map fun t => some (.str t)))
    (hl : l.optionText f = none) :
    l.loadOption data f = .ok (l.copyOption src f) := by
  unfold Link.loadOption
  rw [hdata]
  cases f
  case linknumber => simp [linkOptionsUpdatable] at hf
  case knetTransport =>
    cases hv : src.knetTransport with
    | none =>
      cases l
      simp_all [Link.optionText, Link.copyOption, bind, Except.bind, pure, Except.pure]
    | some v =>
      obtain ⟨s, rfl⟩ := hsrc v hv
      simp [Link.optionText, Link.copyOption, hv, Value.toPyStr, bind, Except.bind, pure,
        Except.pure]
  all_goals
    simp only [Link.optionText, Link.copyOption, bind, Except.bind] at hdata hl ⊢
    split <;> simp_all [pure, Except.pure, Link.setIntField_none]
    obtain ⟨a, ha, rfl⟩ := ‹∃ a, _ ∧ _›
    simp [ha, Option.mapM, Functor.map, Except.map]

/-- The `linknumber` of a record that holds `str(j)` loads as `j`. -/
theorem Link.loadOption_linknumber_record {l : Link} {r : Dict} {j : Int}
    (hr : Dict.get? r "linknumber" = some (.str (pyStr j))) :
    l.loadOption (recordSource (.dict r)) .linknumber = .ok { l with linknumber := j } := by
  simp [Link.loadOption, recordSource, Value.getItem, LinkField.name, hr, bind, Except.bind,
    pure, Except.pure]

/-- Loading the updatable fields of a record `update_link` wrote, into a link where they
are unset, copies them from the link it wrote. -/
theorem Link.foldlM_loadOption_text {src : Link} {data : OptionSource}
    (hsrc : src.TransportText) {fs : List LinkField} (hsub : fs ⊆ linkOptionsUpdatable)
    (hnd : fs.Nodup)
    (hdata : ∀ f ∈ fs, data f.name = .ok ((src.optionText f).map fun t => some (.str t))) :
    ∀ {l : Link}, (∀ f ∈ fs, l.optionText f = none) →
      fs.foldlM (fun l f => l.loadOption data f) l = .ok (fs.foldl (·.copyOption src ·) l) := by
  induction fs with
  | nil => intro l _; rfl
  | cons f fs ih =>
    intro l hl
    rw [List.nodup_cons] at hnd
    have hf := List.mem_cons_self f fs
    rw [List.foldlM_cons, Link.loadOption_text (hsub hf) hsrc (hdata f hf) (hl f hf)]
    exact ih (fun g hg => hsub (List.mem_cons_of_mem _ hg)) hnd.2
      (fun g hg => hdata g (List.mem_cons_of_mem _ hg)) fun g hg => by
        rw [Link.optionText_copyOption_ne fun (h : g = f) => hnd.1 (h ▸ hg)]
        exact hl g (List.mem_cons_of_mem _ hg)

/-- **The round trip.**  Loading the record `update_link` wrote for `src`, with
`linknumber` `str(j)`, into a link with no options gives `src` back, with that link's nodes
and the number `j`. -/
theorem Link.loadOptions_writeOptions {l src : Link} {r : Dict} {j : Int}
    (hl : ∀ f ∈ linkOptionsUpdatable, l.optionText f = none) (hsrc : src.TransportText)
    (hr : Dict.get? r "linknumber" = some (.str (pyStr j))) :
    l.loadOptions (recordSource (.dict (writeOptions src r))) =
      .ok { src with linknumber := j, nodes := l.nodes } := by
  have hdata : ∀ f ∈ linkOptionsUpdatable, recordSource (.dict (writeOptions src r)) f.name =
      .ok ((src.optionText f).map fun t => some (.str t)) := by
    intro f hf
    simp only [recordSource, Value.getItem, get?_writeOptions hf]
    cases src.optionText f <;> rfl
  rw [Link.loadOptions, LinkField.all, List.foldlM_cons,
    Link.loadOption_linknumber_record ((writeOptions_linknumber src r).trans hr)]
  refine (Link.foldlM_loadOption_text hsrc (List.Subset.refl _) (by decide) hdata
    fun f hf => ?_).trans ?_
  · cases f <;> first | exact absurd hf (by decide) | exact hl _ hf
  · rfl

theorem Link.loadOption_linknumber_ne {l l' : Link} {data : OptionSource} {f : LinkField}
    (hf : f ≠ .linknumber) (h : l.loadOption data f = .ok l') : l'.linknumber = l.linknumber := by
  unfold Link.loadOption at h
  simp only [Except.bind_eq_ok] at h
  obtain ⟨v, -, h⟩ := h
  split at h <;>
    simp only [Except.bind_eq_ok, Except.pure_eq_ok, Except.throw_eq_ok] at h
  all_goals first
    | exact absurd rfl hf
    | (subst h; rfl)
    | (obtain ⟨_, _, rfl⟩ := h; simp)

theorem LinkField.ne_linknumber {f : LinkField} (hf : f ∈ linkOptionsUpdatable) :
    f ≠ .linknumber := by
  rintro rfl
  exact absurd hf (by decide)

/-- A record whose `linknumber` is `str(j)` loads as link `j`, from any link. -/
theorem Link.loadOptions_linknumber {l l' : Link} {r : Dict} {j : Int}
    (hr : Dict.get? r "linknumber" = some (.str (pyStr j)))
    (h : l.loadOptions (recordSource (.dict r)) = .ok l') : l'.linknumber = j := by
  rw [Link.loadOptions, LinkField.all, List.foldlM_cons, Link.loadOption_linknumber_record hr]
    at h
  exact Link.foldlM_loadOption_invariant (P := fun l => l.linknumber = j)
    (fun _ hf _ _ h₁ h₂ => (Link.loadOption_linknumber_ne (LinkField.ne_linknumber hf) h₂).trans h₁)
    rfl h

/-- Loading keeps `knet_transport` a string when the source gives one. -/
theorem Link.loadOptions_transportText {l l' : Link} {data : OptionSource}
    (hd : ∀ v, data "knet_transport" = .ok (some (some v)) → ∃ s, v = .str s)
    (hl : l.TransportText) (h : l.loadOptions data = .ok l') : l'.TransportText := by
  refine Link.foldlM_loadOption_invariant (fun f _ l l' hl h => ?_) hl h
  unfold Link.loadOption at h
  simp only [Except.bind_eq_ok] at h
  obtain ⟨x, hx, h⟩ := h
  split at h <;>
    simp only [Except.bind_eq_ok, Except.pure_eq_ok, Except.throw_eq_ok] at h
  all_goals first
    | (subst h; exact hl)
    | (obtain ⟨_, _, rfl⟩ := h; simpa [Link.TransportText] using hl)
    | skip
  subst h
  intro w hw
  simp only at hw
  subst hw
  exact hd w hx

end Crmsh
