import Mathlib

/-!
# The Python builtins the configuration code relies on

The corosync tooling keeps every number of the configuration tree as text and converts
on demand: `int(...)` when it reads a node id or a link number, `str(...)` when it writes
one back.  This file models the two conversions on base-10 text, the exceptions that
surface from the modelled code, and list indexing with negative indices.

The key fact is `pyInt_pyStr`: reading back what `str` wrote gives the number again,
whatever its sign.  Everything that writes a link number and later finds it by `int`
(`LinkManager.update_link` followed by `LinkManager.links`) rests on it, as does the
injectivity of the `ring{i}_addr` key names (`pyStr_injective`).
-/

namespace Crmsh

/-- The exceptions the modelled code raises or lets through.  The link manager's own
exception classes carry their payload. -/
inductive PyExc where
  | keyError (key : String)
  | indexError
  | typeError
  | attributeError
  | valueError (msg : String)
  | assertionError
  | stopIteration
  | nameError (name : String)
  | missingNodes (nodeids : List Int)
  | duplicatedNodeAddress (address : String) (node1 node2 : Int)
  deriving Repr, DecidableEq

/-- The value of an ASCII decimal digit. -/
def digitVal (c : Char) : Nat := c.toNat - '0'.toNat

/-- The digits of a numeral after its first one: a digit extends the number, and an
underscore must stand between two digits. -/
def readDigits (acc : Nat) : List Char → Option Nat
  | [] => some acc
  | c :: cs =>
    if c.isDigit then readDigits (acc * 10 + digitVal c) cs
    else if c = '_' then
      match cs with
      | d :: ds => if d.isDigit then readDigits (acc * 10 + digitVal d) ds else none
      | [] => none
    else none

/-- A numeral as `int` accepts it after the sign: a digit, then `readDigits`. -/
def readNumeral : List Char → Option Nat
  | c :: cs => if c.isDigit then readDigits (digitVal c) cs else none
  | [] => none

/-- Python's `str.strip()`: whitespace dropped at both ends. -/
def stripSpace (cs : List Char) : List Char :=
  ((cs.dropWhile Char.isWhitespace).reverse.dropWhile Char.isWhitespace).reverse

/-- Python's `int(s)` on a string: surrounding whitespace, an optional sign, then a
numeral; `none` where Python raises `ValueError`. -/
def pyInt (s : String) : Option Int :=
  match stripSpace s.toList with
  | c :: cs =>
    if c = '-' then (readNumeral cs).map fun n => -(n : Int)
    else if c = '+' then (readNumeral cs).map fun n => (n : Int)
    else (readNumeral (c :: cs)).map fun n => (n : Int)
  | [] => none

/-- Python's `str(n)` for an integer: its decimal digits, after a minus sign when
negative. -/
def pyStr : Int → String
  | .ofNat n => ⟨Nat.toDigits 10 n⟩
  | .negSucc n => ⟨'-' :: Nat.toDigits 10 (n + 1)⟩

/-- The pieces of `cs` between occurrences of `sep`, the current piece reversed in `cur`. -/
def splitChars (sep : Char) : List Char → List Char → List String
  | cur, [] => [String.mk cur.reverse]
  | cur, c :: cs =>
    if c = sep then String.mk cur.reverse :: splitChars sep [] cs else splitChars sep (c :: cur) cs

/-- Python's `s.split(sep)` for a one-character separator: always at least one piece,
empty pieces kept. -/
def pySplit (s : String) (sep : Char) : List String := splitChars sep [] s.toList

/-- Python's `xs[i]`: a negative index counts from the end, and an index out of range
raises `IndexError`. -/
def pyIndex {α : Type} (xs : List α) (i : Int) : Except PyExc α :=
  let j := if i < 0 then i + xs.length else i
  if 0 ≤ j then
    match xs.get? j.toNat with
    | some x => .ok x
    | none => .error .indexError
  else .error .indexError

/-- Results are compared when a model is run on a fixed input. -/
instance Except.decEq {ε α : Type} [DecidableEq ε] [DecidableEq α] : DecidableEq (Except ε α)
  | .ok a, .ok b => if h : a = b then isTrue (h ▸ rfl) else isFalse fun e => by cases e; exact h rfl
  | .error a, .error b =>
    if h : a = b then isTrue (h ▸ rfl) else isFalse fun e => by cases e; exact h rfl
  | .ok _, .error _ | .error _, .ok _ => isFalse fun e => by cases e

section Except

variable {ε α β : Type}

@[simp] theorem Except.bind_eq_ok {x : Except ε α} {f : α → Except ε β} {b : β} :
    (x >>= f) = .ok b ↔ ∃ a, x = .ok a ∧ f a = .ok b := by
  cases x <;> simp [bind, Except.bind]

@[simp] theorem Except.pure_eq_ok {a b : α} : (pure a : Except ε α) = .ok b ↔ a = b := by
  simp [pure, Except.pure]

@[simp] theorem Except.map_eq_ok {f : α → β} {x : Except ε α} {b : β} :
    (f <$> x) = .ok b ↔ ∃ a, x = .ok a ∧ f a = b := by
  cases x <;> simp [Functor.map, Except.map]

@[simp] theorem Except.throw_eq_ok {e : ε} {a : α} : (throw e : Except ε α) = .ok a ↔ False := by
  simp [throw, throwThe, MonadExceptOf.throw]

/-- A list comprehension that returns normally returned normally on every element. -/
theorem mapM_eq_ok {f : α → Except ε β} {l : List α} {r : List β} :
    l.mapM f = .ok r ↔ List.Forall₂ (fun a b => f a = .ok b) l r := by
  induction l generalizing r with
  | nil => rw [List.mapM_nil]; cases r <;> simp
  | cons a l ih =>
    rw [List.mapM_cons]
    cases r with
    | nil => simp only [Except.bind_eq_ok, Except.pure_eq_ok]; simp
    | cons b r =>
      simp only [Except.bind_eq_ok, Except.pure_eq_ok, ih, List.forall₂_cons]
      constructor
      · rintro ⟨b', hb', r', hr', h⟩
        obtain ⟨rfl, rfl⟩ := List.cons.inj h.symm
        exact ⟨hb', hr'⟩
      · rintro ⟨hb, hr⟩
        exact ⟨b, hb, r, hr, rfl⟩

/-- Every element of a list comprehension that returned normally returned normally. -/
theorem mapM_ok_of_mem {f : α → Except ε β} {l : List α} {r : List β} {a : α}
    (h : l.mapM f = .ok r) (ha : a ∈ l) : ∃ b ∈ r, f a = .ok b := by
  induction l generalizing r with
  | nil => cases ha
  | cons x l ih =>
    rw [mapM_eq_ok] at h
    cases h with
    | cons hx hrest =>
      rcases List.mem_cons.1 ha with rfl | ha
      · exact ⟨_, List.mem_cons_self _ _, hx⟩
      · obtain ⟨b, hb, hfb⟩ := ih (mapM_eq_ok.2 hrest) ha
        exact ⟨b, List.mem_cons_of_mem _ hb, hfb⟩

/-- Every element of the result of a list comprehension comes from an element of the
list. -/
theorem mapM_exists_of_mem {f : α → Except ε β} {l : List α} {r : List β} {b : β}
    (h : l.mapM f = .ok r) (hb : b ∈ r) : ∃ a ∈ l, f a = .ok b := by
  induction l generalizing r with
  | nil => rw [mapM_eq_ok, List.forall₂_nil_left_iff] at h; subst h; cases hb
  | cons x l ih =>
    rw [mapM_eq_ok] at h
    cases h with
    | cons hx hrest =>
      rcases List.mem_cons.1 hb with rfl | hb
      · exact ⟨x, List.mem_cons_self _ _, hx⟩
      · obtain ⟨a, ha, hfa⟩ := ih (mapM_eq_ok.2 hrest) hb
        exact ⟨a, List.mem_cons_of_mem _ ha, hfa⟩

/-- A comprehension that returns normally on every element returns normally. -/
theorem mapM_ok_of_forall {f : α → Except ε β} {l : List α} (h : ∀ a ∈ l, ∃ b, f a = .ok b) :
    ∃ r, l.mapM f = .ok r := by
  induction l with
  | nil => exact ⟨[], rfl⟩
  | cons a l ih =>
    obtain ⟨b, hb⟩ := h a (List.mem_cons_self _ _)
    obtain ⟨r, hr⟩ := ih fun a ha => h a (List.mem_cons_of_mem _ ha)
    exact ⟨b :: r, by rw [List.mapM_cons, hb, hr]; rfl⟩

/-- A comprehension over `enumerate(l)` that agrees with one returning `r` except at index
`n`, where it returns `b`, returns `r` with `b` at `n`. -/
theorem mapM_enum_set {f g : Nat → α → Except ε β} {l : List α} {r : List β} {n : Nat} {b : β}
    (h : l.enum.mapM (fun p => f p.1 p.2) = .ok r) (hne : ∀ i x, i ≠ n → g i x = f i x)
    (hn : ∀ x, l[n]? = some x → g n x = .ok b) :
    l.enum.mapM (fun p => g p.1 p.2) = .ok (r.set n b) := by
  rw [mapM_eq_ok, List.forall₂_iff_get] at h ⊢
  obtain ⟨hlen, hall⟩ := h
  refine ⟨by simpa using hlen, fun i h₁ h₂ => ?_⟩
  have := hall i h₁ (by simpa using h₂)
  simp only [List.get_eq_getElem, List.getElem_enum, List.getElem_set] at this ⊢
  split
  · subst_vars
    exact hn _ (List.getElem?_eq_getElem _)
  · rwa [hne _ _ (Ne.symm ‹_›)]

/-- The same for a list with element `n` replaced: the comprehension returns `b` there. -/
theorem mapM_enum_set_of {f g : Nat → α → Except ε β} {l : List α} {r : List β} {n : Nat}
    {x : α} {b : β} (h : l.enum.mapM (fun p => f p.1 p.2) = .ok r)
    (hne : ∀ i x, i ≠ n → g i x = f i x) (hn : g n x = .ok b) :
    (l.set n x).enum.mapM (fun p => g p.1 p.2) = .ok (r.set n b) := by
  rw [mapM_eq_ok, List.forall₂_iff_get] at h ⊢
  obtain ⟨hlen, hall⟩ := h
  refine ⟨by simpa using hlen, fun i h₁ h₂ => ?_⟩
  have := hall i (by simpa using h₁) (by simpa using h₂)
  simp only [List.get_eq_getElem, List.getElem_enum, List.getElem_set] at this ⊢
  split
  · subst_vars; exact hn
  · rwa [hne _ _ (Ne.symm ‹_›)]

/-- A comprehension over the elements a filter keeps returns the results a matching filter
keeps. -/
theorem mapM_filter_map {γ : Type} {g : γ → α} {f : α → Except ε β} {p : γ → Bool}
    {q : β → Bool} {l : List γ} {r : List β} (h : (l.map g).mapM f = .ok r)
    (hpq : ∀ c ∈ l, ∀ b, f (g c) = .ok b → p c = q b) :
    ((l.filter p).map g).mapM f = .ok (r.filter q) := by
  induction l generalizing r with
  | nil => rw [List.map_nil, mapM_eq_ok, List.forall₂_nil_left_iff] at h; subst h; rfl
  | cons c l ih =>
    rw [List.map_cons, mapM_eq_ok] at h
    cases h with
    | cons hc hrest =>
      have := ih (mapM_eq_ok.2 hrest) fun c' hc' => hpq c' (List.mem_cons_of_mem _ hc')
      rw [List.filter_cons, List.filter_cons, hpq c (List.mem_cons_self _ _) _ hc]
      split
      · rw [List.map_cons, List.mapM_cons, hc, this]; rfl
      · exact this

/-- A filter that keeps every element a search accepts does not change what it finds. -/
theorem find?_filter_of_imp {p q : α → Bool} {l : List α} (h : ∀ x ∈ l, p x → q x) :
    (l.filter q).find? p = l.find? p := by
  induction l with
  | nil => rfl
  | cons x l ih =>
    have ih := ih fun y hy => h y (List.mem_cons_of_mem _ hy)
    by_cases hp : p x
    · simp [List.filter_cons, h x (List.mem_cons_self _ _) hp, hp]
    · by_cases hq : q x <;> simp [List.filter_cons, hq, hp, ih]

/-- A `foldlM` whose every step returns normally returns normally. -/
theorem foldlM_ok_of {g : β → α → Except ε β} :
    ∀ {l : List α}, (∀ a ∈ l, ∀ b, ∃ b', g b a = .ok b') → ∀ b, ∃ b', l.foldlM g b = .ok b'
  | [], _, b => ⟨b, rfl⟩
  | a :: l, h, b => by
    obtain ⟨b₁, h₁⟩ := h a (List.mem_cons_self _ _) b
    obtain ⟨b', h'⟩ := foldlM_ok_of (fun a ha => h a (List.mem_cons_of_mem _ ha)) b₁
    exact ⟨b', by rw [List.foldlM_cons, h₁]; exact h'⟩

/-- A partial map that agrees with `g` wherever it is defined keeps `g`'s distinct values
distinct. -/
theorem nodup_filterMap_of {f g : α → Option β} (hfg : ∀ a b, f a = some b → g a = some b) :
    ∀ {l : List α}, (l.map g).Nodup → (l.filterMap f).Nodup
  | [], _ => List.nodup_nil
  | a :: l, h => by
    rw [List.map_cons, List.nodup_cons] at h
    have ih := nodup_filterMap_of hfg h.2
    cases hfa : f a with
    | none => rwa [List.filterMap_cons_none hfa]
    | some b =>
      rw [List.filterMap_cons_some hfa, List.nodup_cons]
      refine ⟨fun hb => h.1 ?_, ih⟩
      obtain ⟨a', ha', hfa'⟩ := List.mem_filterMap.1 hb
      rw [hfg a b hfa, ← hfg a' b hfa']
      exact List.mem_map_of_mem _ ha'

/-- A partial map whose values are distinct sends no two elements to one value. -/
theorem eq_of_mem_filterMap_nodup {f : α → Option β} {a a' : α} {b : β} :
    ∀ {l : List α}, (l.filterMap f).Nodup → a ∈ l → a' ∈ l → f a = some b → f a' = some b → a = a'
  | x :: l, hnd, ha, ha', hfa, hfa' => by
    have hb : ∀ y ∈ l, f y = some b → b ∈ l.filterMap f := fun y hy hfy =>
      List.mem_filterMap.2 ⟨y, hy, hfy⟩
    rcases List.mem_cons.1 ha with rfl | hal <;> rcases List.mem_cons.1 ha' with rfl | hal'
    · rfl
    · rw [List.filterMap_cons_some hfa] at hnd
      exact absurd (hb a' hal' hfa') (List.nodup_cons.1 hnd).1
    · rw [List.filterMap_cons_some hfa'] at hnd
      exact absurd (hb a hal hfa) (List.nodup_cons.1 hnd).1
    · cases hfx : f x with
      | none =>
        rw [List.filterMap_cons_none hfx] at hnd
        exact eq_of_mem_filterMap_nodup hnd hal hal' hfa hfa'
      | some _ =>
        rw [List.filterMap_cons_some hfx, List.nodup_cons] at hnd
        exact eq_of_mem_filterMap_nodup hnd.2 hal hal' hfa hfa'

/-- A filtering comprehension whose test returns normally with `p` on every element keeps
the elements `p` accepts. -/
theorem filterM_map_ok {γ : Type} {g : γ → α} {f : α → Except ε Bool} {p : γ → Bool}
    {l : List γ} (hf : ∀ c ∈ l, f (g c) = .ok (p c)) :
    (l.map g).filterM f = .ok ((l.filter p).map g) := by
  have aux : ∀ acc, List.filterAuxM f (l.map g) acc = .ok (((l.filter p).map g).reverse ++ acc) := by
    induction l with
    | nil => intro acc; rfl
    | cons c l ih =>
      intro acc
      simp only [List.map_cons, List.filterAuxM, hf c (List.mem_cons_self _ _), bind, Except.bind,
        ih fun c hc => hf c (List.mem_cons_of_mem _ hc)]
      cases hc : p c <;> simp [List.filter_cons, hc]
  simp [List.filterM, aux, bind, Except.bind, pure, Except.pure]

end Except

/-- A Python `dict` passed as an argument: its items in insertion order, keys pairwise
distinct. -/
structure PyDict (κ ν : Type) where
  items : List (κ × ν)
  nodup : (items.map Prod.fst).Nodup

/-- `m.get(k)`. -/
def PyDict.get? {κ ν : Type} [DecidableEq κ] (m : PyDict κ ν) (k : κ) : Option ν :=
  (m.items.find? fun p => p.1 = k).map Prod.snd

/-- `range(start, stop)`: the integers from `start` up to `stop`, excluded. -/
def pyRange (start stop : Int) : List Int :=
  (List.range (stop - start).toNat).map fun j : Nat => start + j

example : pySplit "a..b" '.' = ["a", "", "b"] ∧ pySplit "" '.' = [""] := by decide

example : pyInt " 01 " = some 1 ∧ pyInt "-1_0" = some (-10) ∧ pyInt "1__0" = none := by
  decide

/-! ## Reading back what `str` wrote -/

theorem digitChar_isDigit {k : Nat} (hk : k < 10) : (Nat.digitChar k).isDigit := by
  interval_cases k <;> decide

theorem digitVal_digitChar {k : Nat} (hk : k < 10) : digitVal (Nat.digitChar k) = k := by
  interval_cases k <;> decide

theorem isWhitespace_of_isDigit {c : Char} (h : c.isDigit) : c.isWhitespace = false := by
  by_contra hw
  unfold Char.isWhitespace at hw
  simp only [Bool.not_eq_false, Bool.or_eq_true, decide_eq_true_eq] at hw
  rcases hw with ((rfl | rfl) | rfl) | rfl <;> revert h <;> decide

@[simp] theorem readDigits_digit {acc : Nat} {c : Char} {cs : List Char} (h : c.isDigit) :
    readDigits acc (c :: cs) = readDigits (acc * 10 + digitVal c) cs := by
  rw [readDigits.eq_def]; simp only [if_pos h]

/-- Every character `toDigitsCore` adds is a decimal digit. -/
theorem toDigitsCore_isDigit (f n : Nat) (ds : List Char) (hds : ∀ c ∈ ds, c.isDigit) :
    ∀ c ∈ Nat.toDigitsCore 10 f n ds, c.isDigit := by
  induction f generalizing n ds with
  | zero => exact hds
  | succ f ih =>
    have hd : ∀ c ∈ Nat.digitChar (n % 10) :: ds, c.isDigit := by
      simpa [digitChar_isDigit (Nat.mod_lt n (by decide))] using hds
    unfold Nat.toDigitsCore; dsimp only
    split
    · exact hd
    · exact ih _ _ hd

theorem toDigitsCore_ne_nil (f n : Nat) (ds : List Char) :
    Nat.toDigitsCore 10 (f + 1) n ds ≠ [] := by
  induction f generalizing n ds with
  | zero => unfold Nat.toDigitsCore; dsimp only; split <;> simp [Nat.toDigitsCore]
  | succ f ih => unfold Nat.toDigitsCore; dsimp only; split <;> simp [ih]

/-- With enough fuel, the digits `toDigitsCore` prepends read back as `n`. -/
theorem readDigits_toDigitsCore (f n : Nat) (ds : List Char) (hn : n < f) :
    readDigits 0 (Nat.toDigitsCore 10 f n ds) = readDigits n ds := by
  induction f generalizing n ds with
  | zero => omega
  | succ f ih =>
    have hd := digitChar_isDigit (Nat.mod_lt n (show 10 > 0 by decide))
    have hv := digitVal_digitChar (Nat.mod_lt n (show 10 > 0 by decide))
    unfold Nat.toDigitsCore; dsimp only
    split
    · rw [readDigits_digit hd, hv]; congr 1; omega
    · rw [ih _ _ (by omega), readDigits_digit hd, hv, Nat.div_add_mod']

theorem toDigits_isDigit (n : Nat) : ∀ c ∈ Nat.toDigits 10 n, c.isDigit :=
  toDigitsCore_isDigit (n + 1) n [] (by simp)

/-- The decimal digits of `n` are a numeral with value `n`. -/
theorem toDigits_eq_cons (n : Nat) :
    ∃ c cs, Nat.toDigits 10 n = c :: cs ∧ c.isDigit ∧ readNumeral (c :: cs) = some n := by
  obtain ⟨c, cs, hcs⟩ := List.exists_cons_of_ne_nil (toDigitsCore_ne_nil n n [])
  have hc : c.isDigit := toDigits_isDigit n c (by simp [Nat.toDigits, hcs])
  have hread := readDigits_toDigitsCore (n + 1) n [] (by omega)
  rw [hcs, readDigits_digit hc] at hread
  exact ⟨c, cs, hcs, hc, by simpa [readNumeral, hc, readDigits] using hread⟩

theorem dropWhile_space_of_head {c : Char} {cs : List Char} (h : c.isWhitespace = false) :
    (c :: cs).dropWhile Char.isWhitespace = c :: cs := by
  simp [List.dropWhile_cons, h]

/-- **Round trip.**  `int(str(n)) == n` for every integer `n`. -/
theorem pyInt_pyStr (n : Int) : pyInt (pyStr n) = some n := by
  cases n with
  | ofNat n =>
    obtain ⟨c, cs, hcs, hc, hread⟩ := toDigits_eq_cons n
    have hlast : ∀ d ∈ (c :: cs).reverse, d.isDigit := by
      rw [← hcs]; simpa using toDigits_isDigit n
    obtain ⟨d, ds, hds⟩ := List.exists_cons_of_ne_nil (l := (c :: cs).reverse) (by simp)
    have hd : d.isDigit := hlast d (by simp [hds])
    have hstrip : stripSpace (c :: cs) = c :: cs := by
      rw [stripSpace, dropWhile_space_of_head (isWhitespace_of_isDigit hc), hds,
        dropWhile_space_of_head (isWhitespace_of_isDigit hd), ← hds, List.reverse_reverse]
    have hm : c ≠ '-' := by rintro rfl; revert hc; decide
    have hp : c ≠ '+' := by rintro rfl; revert hc; decide
    simp [pyInt, pyStr, String.toList, hcs, hstrip, hm, hp, hread]
  | negSucc n =>
    obtain ⟨c, cs, hcs, hc, hread⟩ := toDigits_eq_cons (n + 1)
    have hlast : ∀ d ∈ (c :: cs).reverse, d.isDigit := by
      rw [← hcs]; simpa using toDigits_isDigit (n + 1)
    obtain ⟨d, ds, hds⟩ := List.exists_cons_of_ne_nil (l := (c :: cs).reverse) (by simp)
    have hd : d.isDigit := hlast d (by simp [hds])
    have hstrip : stripSpace ('-' :: c :: cs) = '-' :: c :: cs := by
      rw [stripSpace, dropWhile_space_of_head (by decide), List.reverse_cons, hds,
        List.cons_append, dropWhile_space_of_head (isWhitespace_of_isDigit hd), ← List.cons_append,
        ← hds, ← List.reverse_cons, List.reverse_reverse]
    simp [pyInt, pyStr, String.toList, hcs, hstrip, hread, Int.negSucc_eq]

theorem pyStr_injective : Function.Injective pyStr := by
  intro a b h
  have := pyInt_pyStr a
  rw [h, pyInt_pyStr b] at this
  exact (Option.some.inj this).symm

/-! ## `range` -/

theorem find?_pyRange {p : Int → Bool} {a b : Int} :
    (pyRange a b).find? p =
      ((List.range (b - a).toNat).find? fun j : Nat => p (a + j)).map fun j : Nat => a + j := by
  simp [pyRange, List.find?_map, Function.comp_def]

/-- The first element of `range(a, b)` a test accepts: every earlier one fails it. -/
theorem find?_pyRange_eq_some {p : Int → Bool} {a b r : Int} (h : (pyRange a b).find? p = some r) :
    p r ∧ a ≤ r ∧ r < b ∧ ∀ j, a ≤ j → j < r → p j = false := by
  rw [find?_pyRange, Option.map_eq_some'] at h
  obtain ⟨k, hk, rfl⟩ := h
  obtain ⟨hp, hlt, hbefore⟩ := List.find?_range_eq_some.1 hk
  rw [List.mem_range] at hlt
  refine ⟨hp, by omega, by omega, fun j h₁ h₂ => ?_⟩
  have := hbefore (j - a).toNat (by omega)
  rw [show a + ((j - a).toNat : Int) = j by omega] at this
  simpa using this

/-- A test no element of `range(a, b)` passes fails on every integer from `a` to `b`. -/
theorem find?_pyRange_eq_none {p : Int → Bool} {a b : Int} (h : (pyRange a b).find? p = none)
    (j : Int) (h₁ : a ≤ j) (h₂ : j < b) : p j = false := by
  rw [find?_pyRange, Option.map_eq_none'] at h
  have := List.find?_range_eq_none.1 h (j - a).toNat (by omega)
  rw [show a + ((j - a).toNat : Int) = j by omega] at this
  simpa using this

/-! ## Indexing and dict lookup -/

theorem pyIndex_mem {β : Type} {xs : List β} {i : Int} {x : β} (h : pyIndex xs i = .ok x) :
    x ∈ xs := by
  unfold pyIndex at h
  dsimp only at h
  split_ifs at h
  all_goals split at h
  all_goals (cases h; try exact List.get?_mem ‹_›)

section PyDict

variable {κ ν : Type} [DecidableEq κ]

/-- With its keys distinct, a dict maps `k` to `v` exactly when `(k, v)` is one of its
items. -/
theorem PyDict.get?_eq_some {m : PyDict κ ν} {k : κ} {v : ν} :
    m.get? k = some v ↔ (k, v) ∈ m.items := by
  unfold PyDict.get?
  constructor
  · intro h
    obtain ⟨p, hp, rfl⟩ := Option.map_eq_some'.1 h
    have hk : p.1 = k := by simpa using List.find?_some hp
    exact hk ▸ List.mem_of_find?_eq_some hp
  · intro h
    have hs : (m.items.find? fun p => p.1 = k).isSome := List.find?_isSome.2 ⟨_, h, by simp⟩
    obtain ⟨p, hp⟩ := Option.isSome_iff_exists.1 hs
    have hk : p.1 = k := by simpa using List.find?_some hp
    rw [hp, List.inj_on_of_nodup_map m.nodup (List.mem_of_find?_eq_some hp) h hk]
    rfl

/-- The order of a dict's items does not change what `get` reads. -/
theorem PyDict.get?_perm {a b : PyDict κ ν} (hp : a.items.Perm b.items) (k : κ) :
    a.get? k = b.get? k :=
  Option.ext fun v => by rw [Option.mem_def, Option.mem_def, get?_eq_some, get?_eq_some, hp.mem_iff]

end PyDict

end Crmsh
