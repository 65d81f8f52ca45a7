import Crmsh.Python

/-!
# The configuration tree

`corosync_config_format.DomParser` turns corosync.conf into nested Python dicts: a key
holds a string, a nested section, or a list of sections for a key that repeats.  The
tree is modelled here as `Value`.  A Python `dict` is an association list in insertion
order (`Dict`), and the dict operations the code uses (`d[k]`, `d[k] = v`, `del d[k]`,
`d.pop(k, None)`, `k in d`, `len(d)`) are defined on it with Python's meaning: `Dict.set`
overwrites a key in place and appends a new one, `Dict.len` counts distinct keys.

A mutating call changes the tree in place and may raise halfway through; `Outcome`
records both the tree it leaves and the exception, so that partial writes stay visible.
-/

namespace Crmsh

/-- A node of the configuration tree: a scalar, a section, or a list. -/
inductive Value where
  | str (s : String)
  | dict (d : List (String × Value))
  | list (l : List Value)
  deriving Repr, Inhabited

/-- A Python `dict` of the tree: its items in insertion order. -/
abbrev Dict := List (String × Value)

mutual
/-- Structural equality of trees, decided key by key and element by element. -/
def Value.decEq : (a b : Value) → Decidable (a = b)
  | .str s, .str t => if h : s = t then isTrue (h ▸ rfl) else isFalse fun e => by cases e; exact h rfl
  | .dict d, .dict e =>
    match Value.decEqDict d e with
    | isTrue h => isTrue (h ▸ rfl)
    | isFalse h => isFalse fun e => by cases e; exact h rfl
  | .list l, .list m =>
    match Value.decEqList l m with
    | isTrue h => isTrue (h ▸ rfl)
    | isFalse h => isFalse fun e => by cases e; exact h rfl
  | .str _, .dict _ | .str _, .list _ | .dict _, .str _ | .dict _, .list _
  | .list _, .str _ | .list _, .dict _ => isFalse fun e => by cases e
/-- Equality of two sections' item lists. -/
def Value.decEqDict : (a b : Dict) → Decidable (a = b)
  | [], [] => isTrue rfl
  | [], _ :: _ | _ :: _, [] => isFalse fun e => by cases e
  | (k, v) :: r, (k', v') :: r' =>
    if hk : k = k' then
      match Value.decEq v v', Value.decEqDict r r' with
      | isTrue h1, isTrue h2 => isTrue (by subst hk h1 h2; rfl)
      | isFalse h1, _ => isFalse fun e => by cases e; exact h1 rfl
      | _, isFalse h2 => isFalse fun e => by cases e; exact h2 rfl
    else isFalse fun e => by cases e; exact hk rfl
/-- Equality of two lists of trees. -/
def Value.decEqList : (a b : List Value) → Decidable (a = b)
  | [], [] => isTrue rfl
  | [], _ :: _ | _ :: _, [] => isFalse fun e => by cases e
  | v :: r, v' :: r' =>
    match Value.decEq v v', Value.decEqList r r' with
    | isTrue h1, isTrue h2 => isTrue (by subst h1 h2; rfl)
    | isFalse h1, _ => isFalse fun e => by cases e; exact h1 rfl
    | _, isFalse h2 => isFalse fun e => by cases e; exact h2 rfl
end

instance : DecidableEq Value := Value.decEq

namespace Dict

/-- `d.get(k)`: the value stored under `k`. -/
def get? : Dict → String → Option Value
  | [], _ => none
  | (k', v) :: d, k => if k' = k then some v else get? d k

/-- `d[k] = v`: an existing key keeps its position, a new key goes last. -/
def set : Dict → String → Value → Dict
  | [], k, v => [(k, v)]
  | (k', v') :: d, k, v => if k' = k then (k, v) :: d else (k', v') :: set d k v

/-- `del d[k]` once the key is known to be there, and `d.pop(k, None)`. -/
def erase : Dict → String → Dict
  | [], _ => []
  | (k', v) :: d, k => if k' = k then erase d k else (k', v) :: erase d k

/-- `k in d`. -/
def hasKey (d : Dict) (k : String) : Bool := (get? d k).isSome

/-- `len(d)`: the number of keys. -/
def len (d : Dict) : Nat := (d.map Prod.fst).dedup.length

variable {d : Dict} {k k' : String} {v : Value}

@[simp] theorem get?_nil : get? [] k = none := rfl

@[simp] theorem get?_cons : get? ((k', v) :: d) k = if k' = k then some v else get? d k := rfl

@[simp] theorem get?_set_self : get? (set d k v) k = some v := by
  induction d with
  | nil => simp [set]
  | cons p d ih => obtain ⟨k', v'⟩ := p; by_cases h : k' = k <;> simp [set, h, ih]

@[simp] theorem get?_set_ne (h : k' ≠ k) : get? (set d k v) k' = get? d k' := by
  induction d with
  | nil => simp [set, Ne.symm h]
  | cons p d ih =>
    obtain ⟨j, w⟩ := p
    by_cases hj : j = k
    · subst hj; simp [set, Ne.symm h]
    · simp [set, hj, ih]

/-- Writing back the value a key holds changes nothing. -/
theorem set_of_get? (h : get? d k = some v) : set d k v = d := by
  induction d with
  | nil => cases h
  | cons p d ih =>
    obtain ⟨k', v'⟩ := p
    by_cases hk : k' = k
    · subst hk
      simp only [get?_cons, if_true, Option.some.injEq] at h
      simp [set, h]
    · simp only [get?_cons, if_neg hk] at h
      simp [set, hk, ih h]

@[simp] theorem get?_erase_self : get? (erase d k) k = none := by
  induction d with
  | nil => rfl
  | cons p d ih => obtain ⟨j, w⟩ := p; by_cases hj : j = k <;> simp [erase, hj, ih]

@[simp] theorem get?_erase_ne (h : k' ≠ k) : get? (erase d k) k' = get? d k' := by
  induction d with
  | nil => rfl
  | cons p d ih =>
    obtain ⟨j, w⟩ := p
    by_cases hj : j = k
    · subst hj; simp [erase, Ne.symm h, ih]
    · simp [erase, hj, ih]

/-- `d.pop(k, None)` for each key of `ks` in turn. -/
theorem get?_foldl_erase (ks : List String) (d : Dict) (k : String) :
    get? (ks.foldl erase d) k = if k ∈ ks then none else get? d k := by
  induction ks generalizing d with
  | nil => simp
  | cons j ks ih =>
    rw [List.foldl_cons, ih]
    by_cases hj : k = j
    · subst hj; simp
    · by_cases hk : k ∈ ks <;> simp [hj, hk]

@[simp] theorem hasKey_iff : hasKey d k ↔ ∃ v, get? d k = some v := by
  simp [hasKey, Option.isSome_iff_exists]

@[simp] theorem hasKey_set : hasKey (set d k v) k' ↔ k' = k ∨ hasKey d k' := by
  by_cases h : k' = k
  · subst h; simp
  · simp [h]

@[simp] theorem hasKey_erase : hasKey (erase d k) k' ↔ k' ≠ k ∧ hasKey d k' := by
  by_cases h : k' = k
  · subst h; simp
  · simp [h]

theorem hasKey_iff_mem : hasKey d k ↔ k ∈ d.map Prod.fst := by
  induction d with
  | nil => simp
  | cons p d ih =>
    obtain ⟨k', v'⟩ := p
    by_cases h : k' = k
    · simp [hasKey, h]
    · simp only [hasKey, get?_cons, if_neg h, List.map_cons, List.mem_cons, Ne.symm h, false_or]
      exact ih

/-- A section with two distinct keys does not have `len` one. -/
theorem len_ne_one_of_ne (h₁ : hasKey d k) (h₂ : hasKey d k') (hne : k ≠ k') : len d ≠ 1 := by
  rw [hasKey_iff_mem] at h₁ h₂
  intro hl
  obtain ⟨a, ha⟩ := List.length_eq_one.1 hl
  have hk := List.mem_dedup.2 h₁
  have hk' := List.mem_dedup.2 h₂
  rw [ha, List.mem_singleton] at hk hk'
  exact hne (hk.trans hk'.symm)

/-- A section with key `k` whose `len` is not one has a key other than `k`. -/
theorem exists_other_key (hk : hasKey d k) (hl : len d ≠ 1) : ∃ k', k' ≠ k ∧ hasKey d k' := by
  by_contra hne
  rw [hasKey_iff_mem] at hk
  have hrep : d.map Prod.fst = List.replicate (d.map Prod.fst).length k :=
    List.eq_replicate_iff.2 ⟨rfl, fun k' hk' => by_contra fun h => hne ⟨k', h, hasKey_iff_mem.2 hk'⟩⟩
  exact hl (by rw [len, hrep, List.replicate_dedup (List.length_pos_of_mem hk).ne']; rfl)

end Dict

/-- Python's `v[k]` on a tree node: a section looks the key up, raising `KeyError` when
it is absent; a string or a list raises `TypeError`. -/
def Value.getItem : Value → String → Except PyExc Value
  | .dict d, k =>
    match Dict.get? d k with
    | some v => .ok v
    | none => .error (.keyError k)
  | _, _ => .error .typeError

/-- Python's `v[k] = x` on a section; the code only does it where `v` is one. -/
def Value.setItem : Value → String → Value → Value
  | .dict d, k, x => .dict (Dict.set d k x)
  | v, _, _ => v

/-- Python's `k in v`: a key of a section, an element of a list, a substring of a
string. -/
def Value.contains : Value → String → Bool
  | .dict d, k => Dict.hasKey d k
  | .list l, k => l.contains (.str k)
  | .str s, k => decide (k.toList <:+: s.toList)

/-- Python's `int(v)` on a tree value: `ValueError` for text that is not a numeral,
`TypeError` for a section or a list. -/
def Value.toInt : Value → Except PyExc Int
  | .str s =>
    match pyInt s with
    | some n => .ok n
    | none => .error (.valueError ("invalid literal for int() with base 10: '" ++ s ++ "'"))
  | _ => .error .typeError

mutual
/-- Python's `repr` of a tree value (a string always in single quotes, unescaped). -/
def Value.repr : Value → String
  | .str s => "'" ++ s ++ "'"
  | .dict d => "\x7b" ++ Value.reprItems d ++ "\x7d"
  | .list l => "[" ++ Value.reprList l ++ "]"
/-- The items of a section's `repr`, separated by commas. -/
def Value.reprItems : Dict → String
  | [] => ""
  | [(k, v)] => "'" ++ k ++ "': " ++ Value.repr v
  | (k, v) :: d => "'" ++ k ++ "': " ++ Value.repr v ++ ", " ++ Value.reprItems d
/-- The elements of a list's `repr`, separated by commas. -/
def Value.reprList : List Value → String
  | [] => ""
  | [v] => Value.repr v
  | v :: l => Value.repr v ++ ", " ++ Value.reprList l
end

/-- Python's `str(v)`: a string is itself, a section or a list prints as its `repr`. -/
def Value.toPyStr : Value → String
  | .str s => s
  | v => v.repr

/-- The elements of a value read as a list: a value that is not a list stands alone. -/
def Value.elems : Value → List Value
  | .list l => l
  | v => [v]

/-- What a mutating call leaves: the tree as the call ends, and the exception it raised,
if it raised one. -/
inductive Outcome where
  | ok (d : Dict)
  | raised (e : PyExc) (d : Dict)
  deriving Repr, DecidableEq

/-- The same call made one level down: the enclosing section is rebuilt around the
subtree the call left, and the exception, if any, passes through. -/
def Outcome.mapDom (f : Dict → Dict) : Outcome → Outcome
  | .ok d => .ok (f d)
  | .raised e d => .raised e (f d)

/-- The tree a call leaves, whether it returned or raised. -/
def Outcome.dom : Outcome → Dict
  | .ok d => d
  | .raised _ d => d

@[simp] theorem Value.toInt_str (n : Int) : (Value.str (pyStr n)).toInt = .ok n := by
  simp [Value.toInt, pyInt_pyStr]

end Crmsh
