import Crmsh.ConfParser

/-!
# Setting a value by its dotted path

`ConfParser.set` followed by `ConfParser.get` at the same path and index should give the
value back, and the write should leave the rest of the tree as it was.  The loop of
`_raw_set` has no case for a string met before the last key: the walk then stays in the
section it is in and goes on with the next key there, so that `set("a.b", v)` on a tree
where `a` holds a string returns normally having written `b` beside `a`, and `get("a.b")`
raises (`confParserSet_walks_past_string`).  `set` turns a `KeyError` of the walk into
"Invalid path", a handler no path reaches: such a segment was meant to be reported.  The
last key, for its part, receives the value whatever it held before, so the scalars of a
section stored there are gone.

A scalar is addressed by the keys that lead to it and the position taken among the
elements under each (`scalarAt`); a value that is not a list stands at position 0, so a
lone section that the walk promotes to a two-element list keeps its address.  The main
result is **`confParserSet_lands`**: when the walk of `_raw_set` meets no string before
the last key (`walkMeetsString`), `get` returns the value, and every scalar whose address
does not extend the one the value now stands at (`walkAddr`) keeps its value.  It follows
from **`rawSetWalk_lands`**, proved by induction along the path with one case per branch
of the loop.
-/

namespace Crmsh

/-- The position `DomQuery.get` takes among a value's elements. -/
def Value.slot (index : Nat) : Value → Nat
  | .list _ => index
  | _ => 0

/-- The scalar at an address: each step names a key of a section and a position among
the elements of the value stored under it. -/
def scalarAt : Value → List (String × Nat) → Option String
  | .str s, [] => some s
  | .dict d, (key, p) :: a => (Dict.get? d key).bind fun w => w.elems[p]?.bind (scalarAt · a)
  | _, _ => none

/-- The address at which `DomQuery.get` reads the keys, down to the last section it
enters; read in the tree that `ConfParser.set` leaves, it is where the value stands. -/
def walkAddr (index : Nat) (d : Dict) : List String → List (String × Nat)
  | [] => []
  | key :: keys =>
    match Dict.get? d key with
    | some w =>
      (key, w.slot index) :: match w.elems[w.slot index]? with
        | some (.dict c) => walkAddr index c keys
        | _ => []
    | none => [(key, 0)]

/-- Whether the walk of `_raw_set` along the keys before the last meets a key that holds a
string, where its loop has no case.  It follows the loop: into a section that is there,
and into element `index` of a list; where the loop creates, promotes or appends a section
it goes on in a new empty one, which holds no string. -/
def walkMeetsString (index : Nat) : List String → Dict → List String → Bool
  | stack, node, key :: next :: keys =>
    match Dict.get? node key with
    | some (.str _) => true
    | some (.dict c) =>
      if index > 0 ∧ stack ++ [key] ∈ knownSecNamesWithList then false
      else walkMeetsString index (stack ++ [key]) c (next :: keys)
    | some (.list l) =>
      match l[index]? with
      | some (.dict c) => walkMeetsString index (stack ++ [key]) c (next :: keys)
      | _ => false
    | none => false
  | _, _, _ => false

/-- The walk of `set("a.b", v)` where `a` holds a string writes `b` beside `a`, and `get`
along `a.b` indexes the string and raises. -/
theorem confParserSet_walks_past_string :
    confParserSet [("a", .str "x")] "a.b" (.str "v") 0 = .ok [("a", .str "x"), ("b", .str "v")] ∧
      confParserGet [("a", .str "x"), ("b", .str "v")] "a.b" 0 = .error .typeError := by
  decide

section Lemmas

variable {i : Nat} {s key : String} {d c : Dict} {w : Value}

theorem splitChars_ne_nil (sep : Char) : ∀ cur cs, splitChars sep cur cs ≠ []
  | _, [] => by simp [splitChars]
  | _, c :: cs => by unfold splitChars; split_ifs <;> simp [splitChars_ne_nil]

theorem pySplit_ne_nil (path : String) (sep : Char) : pySplit path sep ≠ [] :=
  splitChars_ne_nil sep [] _

@[simp] theorem walkMeetsString_nil (i : Nat) (stack : List String) :
    ∀ keys, walkMeetsString i stack [] keys = false
  | _ :: _ :: _ | [_] | [] => rfl

theorem Outcome.mapDom_eq_ok {o : Outcome} {f : Dict → Dict} {d : Dict} (h : o.mapDom f = .ok d) :
    ∃ c, o = .ok c ∧ d = f c := by
  cases o <;> simp_all [Outcome.mapDom]

/-- `ConfParser.set` returns normally exactly when its walk does. -/
theorem rawSetWalk_of_confParserSet {dom d : Dict} {path : String} {v : Value} {index : Int}
    (h : confParserSet dom path v index = .ok d) : rawSetWalk index v [] dom (pySplit path '.') = .ok d := by
  unfold confParserSet at h
  split at h <;> simp_all

theorem pyIndex_natCast {l : List Value} {x : Value} (h : pyIndex l (i : Int) = .ok x) : l[i]? = some x := by
  have h0 : ¬ (i : Int) < 0 := by omega
  simp only [pyIndex, h0, if_false, Int.natCast_nonneg, if_true, Int.toNat_ofNat] at h
  split at h <;> simp_all

/-- One key of `DomQuery.get` in a section that has it. -/
theorem domQueryGet_dict_cons (ks : List String) (hg : Dict.get? d key = some w) :
    domQueryGet i (.dict d) (key :: ks) = domQueryGet i w ks := by
  show (match Dict.get? d key with
    | some w => domQueryGet i w ks
    | none => throw (PyExc.keyError key)) = _
  rw [hg]

/-- `DomQuery.get` goes on in the section at the position it takes. -/
theorem domQueryGet_select (ks : List String) (hc : w.elems[w.slot i]? = some (.dict c)) :
    domQueryGet i w ks = domQueryGet i (.dict c) ks := by
  cases w with
  | str => cases hc
  | dict => cases hc; rfl
  | list l =>
    simp only [Value.elems, Value.slot] at hc
    cases ks <;> simp only [domQueryGet, selectIndex, List.get?_eq_getElem?, hc]

/-- At the end of the path `DomQuery.get` returns the element at the position it takes. -/
theorem domQueryGet_nil_of_elems (hs : w.elems[w.slot i]? = some (.str s)) :
    domQueryGet i w [] = .ok (.str s) := by
  cases w with
  | str => cases hs; rfl
  | dict => cases hs
  | list l =>
    simp only [Value.elems, Value.slot] at hs
    simp only [domQueryGet, selectIndex, List.get?_eq_getElem?, hs]

theorem scalarAt_set_ne {k : String} (h : k ≠ key) (p : Nat) (a : List (String × Nat)) :
    scalarAt (.dict (Dict.set d key w)) ((k, p) :: a) = scalarAt (.dict d) ((k, p) :: a) := by
  simp [scalarAt, Dict.get?_set_ne h]

/-- A write of `w` under `key` keeps every scalar the old value kept at a position that
`w` keeps, and every scalar under another key. -/
theorem scalarAt_set_keeps {p₀ : Nat} {A : List (String × Nat)}
    (hkeep : ∀ p a t, ((Dict.get? d key).bind fun u => u.elems[p]?.bind (scalarAt · a)) = some t →
      ¬ (p₀ = p ∧ A <+: a) → (w.elems[p]?).bind (scalarAt · a) = some t) :
    ∀ a t, scalarAt (.dict d) a = some t → ¬ (key, p₀) :: A <+: a →
      scalarAt (.dict (Dict.set d key w)) a = some t
  | [], _, h, _ => by simp [scalarAt] at h
  | (k, p) :: a, t, h, hpre => by
    by_cases hk : k = key
    · subst hk
      simpa [scalarAt] using hkeep p a t h (by simpa using hpre)
    · rwa [scalarAt_set_ne hk]

/-- What a write of `w` under the first key gives, once the rest of the walk has landed
the value in the section `c` at the position taken. -/
theorem lands_step {ks : List String} (hc : w.elems[w.slot i]? = some (.dict c))
    (hget : domQueryGet i (.dict c) ks = .ok (.str s))
    (hkeep : ∀ p a t, ((Dict.get? d key).bind fun u => u.elems[p]?.bind (scalarAt · a)) = some t →
      ¬ (w.slot i = p ∧ walkAddr i c ks <+: a) → (w.elems[p]?).bind (scalarAt · a) = some t) :
    domQueryGet i (.dict (Dict.set d key w)) (key :: ks) = .ok (.str s) ∧
      ∀ a t, scalarAt (.dict d) a = some t → ¬ walkAddr i (Dict.set d key w) (key :: ks) <+: a →
        scalarAt (.dict (Dict.set d key w)) a = some t := by
  refine ⟨by rw [domQueryGet_dict_cons ks Dict.get?_set_self, domQueryGet_select ks hc, hget], ?_⟩
  simpa only [walkAddr, Dict.get?_set_self, hc] using scalarAt_set_keeps hkeep

/-- What a write of `w` under the last key gives, where `w` shows the value at the
position taken. -/
theorem lands_last (hs : w.elems[w.slot i]? = some (.str s))
    (hkeep : ∀ p a t, ((Dict.get? d key).bind fun u => u.elems[p]?.bind (scalarAt · a)) = some t →
      w.slot i ≠ p → (w.elems[p]?).bind (scalarAt · a) = some t) :
    domQueryGet i (.dict (Dict.set d key w)) [key] = .ok (.str s) ∧
      ∀ a t, scalarAt (.dict d) a = some t → ¬ walkAddr i (Dict.set d key w) [key] <+: a →
        scalarAt (.dict (Dict.set d key w)) a = some t := by
  refine ⟨by rw [domQueryGet_dict_cons [] Dict.get?_set_self, domQueryGet_nil_of_elems hs], ?_⟩
  simpa only [walkAddr, Dict.get?_set_self, hs] using
    scalarAt_set_keeps fun p a t h hp => hkeep p a t h fun he => hp ⟨he, List.nil_prefix⟩

theorem pySetIndex_natCast {l l' : List Value} {v : Value} (h : pySetIndex l (i : Int) v = .ok l') :
    i < l.length ∧ l' = l.set i v := by
  have h0 : ¬ (i : Int) < 0 := by omega
  simp only [pySetIndex, h0, if_false, Int.toNat_ofNat] at h
  split_ifs at h with h1
  cases h
  exact ⟨by omega, rfl⟩

/-- Appending to a list keeps the scalars of its elements. -/
theorem bind_getElem?_append {li : List Value} {x : Value} {p : Nat} {a : List (String × Nat)}
    {t : String} (h : (li[p]?).bind (scalarAt · a) = some t) :
    ((li ++ [x])[p]?).bind (scalarAt · a) = some t := by
  cases hx : li[p]? with
  | none => simp [hx] at h
  | some y => rwa [List.getElem?_append_left (List.getElem?_eq_some_iff.1 hx).1]

/-- **The last step** puts the value under the last key, in a list at the position the
index names. -/
theorem rawSetWalk_last {stack : List String} {node node' : Dict}
    (h : rawSetWalk i (.str s) stack node [key] = .ok node') :
    domQueryGet i (.dict node') [key] = .ok (.str s) ∧
      ∀ a t, scalarAt (.dict node) a = some t → ¬ walkAddr i node' [key] <+: a →
        scalarAt (.dict node') a = some t := by
  simp only [rawSetWalk] at h
  split at h
  next li hg =>
    split_ifs at h with h1 h2
    · cases h
      have hi : i = li.length := by omega
      refine lands_last (by simp [Value.elems, Value.slot, hi, List.getElem?_concat_length])
        fun p a t hp hne => ?_
      rw [hg] at hp
      exact bind_getElem?_append hp
    · split at h
      next li' hset =>
        cases h
        obtain ⟨hi, rfl⟩ := pySetIndex_natCast hset
        refine lands_last (by simp [Value.elems, Value.slot, hi]) fun p a t hp hne => ?_
        simp only [hg, Option.some_bind, Value.elems, Value.slot] at hp hne ⊢
        rwa [List.getElem?_set_ne hne]
      next => cases h
  next hg =>
    cases h
    refine lands_last rfl fun p a t hp hne => ?_
    obtain _ | p := p
    · exact absurd rfl hne
    · cases hu : Dict.get? node key with
      | none => simp [hu] at hp
      | some u =>
        have hel : u.elems = [u] := by
          cases u
          case list li => exact absurd hu (hg li)
          all_goals rfl
        simp [hu, hel] at hp

theorem rawSetWalk_lands {i : Nat} {s : String} :
    ∀ {keys stack : List String} {node node' : Dict}, keys ≠ [] →
      walkMeetsString i stack node keys = false →
      rawSetWalk i (.str s) stack node keys = .ok node' →
      domQueryGet i (.dict node') keys = .ok (.str s) ∧
        ∀ a t, scalarAt (.dict node) a = some t → ¬ walkAddr i node' keys <+: a →
          scalarAt (.dict node') a = some t
  | [], _, _, _, h, _, _ => absurd rfl h
  | [_], _, _, _, _, _, h => rawSetWalk_last h
  | key :: k2 :: rest, stack, node, node', _, hw, h => by
    simp only [rawSetWalk] at h
    simp only [walkMeetsString] at hw
    split at h
    next hg =>
      obtain ⟨c, hc, rfl⟩ := Outcome.mapDom_eq_ok h
      refine lands_step rfl (rawSetWalk_lands (by simp) (walkMeetsString_nil i _ _) hc).1
        fun p a t hp _ => ?_
      simp [hg] at hp
    next next hg =>
      simp only [hg] at hw
      split_ifs at h with hpromo hone
      · obtain ⟨c, hc, rfl⟩ := Outcome.mapDom_eq_ok h
        obtain rfl : i = 1 := by omega
        refine lands_step rfl (rawSetWalk_lands (by simp) (walkMeetsString_nil 1 _ _) hc).1
          fun p a t hp _ => ?_
        cases p
        · simpa only [hg, Option.some_bind, Value.elems, List.getElem?_cons_zero] using hp
        · simp [hg, Value.elems] at hp
      · obtain ⟨c, hc, rfl⟩ := Outcome.mapDom_eq_ok h
        rw [if_neg fun ⟨h1, h2⟩ => hpromo ⟨by exact_mod_cast h1, h2⟩] at hw
        have ih := rawSetWalk_lands (by simp) hw hc
        refine lands_step rfl ih.1 fun p a t hp hne => ?_
        cases p
        · simp only [hg, Option.some_bind, Value.elems, List.getElem?_cons_zero] at hp ⊢
          exact ih.2 a t hp fun hpre => hne ⟨rfl, hpre⟩
        · simp [hg, Value.elems] at hp
    next li hg =>
      have h0 : ¬ (i : Int) < 0 := by omega
      rw [if_neg h0, Int.toNat_ofNat] at h
      split_ifs at h with h1 h2
      · obtain ⟨c, hc, rfl⟩ := Outcome.mapDom_eq_ok h
        have hi : i = li.length := by omega
        refine lands_step (by simp [Value.elems, Value.slot, hi, List.getElem?_concat_length])
          (rawSetWalk_lands (by simp) (walkMeetsString_nil i _ _) hc).1 fun p a t hp _ => ?_
        rw [hg] at hp
        exact bind_getElem?_append hp
      · split at h
        next c0 hc0 =>
          obtain ⟨c, hc, rfl⟩ := Outcome.mapDom_eq_ok h
          have hl := pyIndex_natCast hc0
          have hi : i < li.length := (List.getElem?_eq_some_iff.1 hl).1
          simp only [hg, hl] at hw
          have ih := rawSetWalk_lands (by simp) hw hc
          refine lands_step (by simp [Value.elems, Value.slot, hi]) ih.1 fun p a t hp hne => ?_
          simp only [hg, Option.some_bind, Value.elems, Value.slot] at hp hne ⊢
          by_cases hpi : i = p
          · subst hpi
            simp only [hl, Option.some_bind, List.getElem?_set_self hi] at hp ⊢
            exact ih.2 a t hp fun hpre => hne ⟨rfl, hpre⟩
          · rwa [List.getElem?_set_ne hpi]
        next => cases h
        next => cases h
    next hg =>
      simp [hg] at hw

end Lemmas

/-- **Set, then get.**  When the walk of `_raw_set` meets no string before the last
key, a `ConfParser.set` that returns normally leaves the value where `ConfParser.get`
finds it, and every scalar whose address does not extend the value's keeps its value. -/
theorem confParserSet_lands {dom dom' : Dict} {path s : String} {i : Nat}
    (hw : walkMeetsString i [] dom (pySplit path '.') = false)
    (h : confParserSet dom path (.str s) i = .ok dom') :
    confParserGet dom' path i = .ok (some (.str s)) ∧
      ∀ a t, scalarAt (.dict dom) a = some t →
        ¬ walkAddr i dom' (pySplit path '.') <+: a → scalarAt (.dict dom') a = some t := by
  obtain ⟨hget, hkeep⟩ :=
    rawSetWalk_lands (pySplit_ne_nil path '.') hw (rawSetWalk_of_confParserSet h)
  exact ⟨by simp [confParserGet, hget], hkeep⟩

/-- The walk of `_raw_set` does not look into a section it promotes: at index 1 it writes
`foo.bar` into the new second interface, whatever the first one holds under `foo`. -/
example : walkMeetsString 1 [] [("totem", .dict [("interface", .dict [("foo", .str "x")])])]
    (pySplit "totem.interface.foo.bar" '.') = false := by
  decide

/-- A second address for a lone node: the set at index 1 promotes `nodelist.node` to a
list, the new node holds the address, and the first node keeps its own. -/
theorem lone_node_promoted_lands :
    walkMeetsString 1 [] [("nodelist", .dict [("node", .dict [("ring0_addr", .str "10.0.0.1"),
        ("nodeid", .str "1")])])] (pySplit "nodelist.node.ring0_addr" '.') = false ∧
    confParserSet [("nodelist", .dict [("node", .dict [("ring0_addr", .str "10.0.0.1"),
        ("nodeid", .str "1")])])] "nodelist.node.ring0_addr" (.str "10.0.0.2") ((1 : Nat) : Int) =
      .ok [("nodelist", .dict [("node", .list [.dict [("ring0_addr", .str "10.0.0.1"),
        ("nodeid", .str "1")], .dict [("ring0_addr", .str "10.0.0.2")]])])] ∧
    (confParserGet [("nodelist", .dict [("node", .list [.dict [("ring0_addr", .str "10.0.0.1"),
        ("nodeid", .str "1")], .dict [("ring0_addr", .str "10.0.0.2")]])])]
        "nodelist.node.ring0_addr" 1 = .ok (some (.str "10.0.0.2")) ∧
      ∀ a t, scalarAt (.dict [("nodelist", .dict [("node", .dict [("ring0_addr", .str "10.0.0.1"),
          ("nodeid", .str "1")])])]) a = some t →
        ¬ walkAddr 1 [("nodelist", .dict [("node", .list [.dict [("ring0_addr", .str "10.0.0.1"),
          ("nodeid", .str "1")], .dict [("ring0_addr", .str "10.0.0.2")]])])]
          (pySplit "nodelist.node.ring0_addr" '.') <+: a →
        scalarAt (.dict [("nodelist", .dict [("node", .list [.dict [("ring0_addr", .str "10.0.0.1"),
          ("nodeid", .str "1")], .dict [("ring0_addr", .str "10.0.0.2")]])])]) a = some t) :=
  ⟨by decide, by decide, confParserSet_lands (by decide) (by decide)⟩

/-! ## A raising `set` leaves the tree as it was

The walk of `_raw_set` writes into the tree only where it creates, promotes or appends a
node, and from there on it walks a fresh empty section, where no step raises.  So a walk
that raises has written nothing: **`confParserSet_atomic`**. -/

section Atomic

variable {index : Int} {value : Value}

theorem Outcome.mapDom_eq_raised {o : Outcome} {f : Dict → Dict} {e : PyExc} {d : Dict}
    (h : o.mapDom f = .raised e d) : ∃ c, o = .raised e c ∧ d = f c := by
  cases o <;> simp_all [Outcome.mapDom]

/-- Writing back the element `li[index]` read changes nothing. -/
theorem pyIndex_set_self {li : List Value} {x : Value} (h : pyIndex li index = .ok x) :
    li.set (if index < 0 then index + li.length else index).toNat x = li := by
  unfold pyIndex at h
  generalize (if index < 0 then index + (li.length : Int) else index) = j at h ⊢
  dsimp only at h
  split_ifs at h
  split at h
  next x' hx =>
    cases h
    rw [List.get?_eq_getElem?, List.getElem?_eq_some_iff] at hx
    obtain ⟨hlt, rfl⟩ := hx
    exact List.ext_getElem (by simp) fun n _ _ => by
      rw [List.getElem_set]
      split <;> simp_all
  next => cases h

/-- A walk in a fresh empty section never raises. -/
theorem rawSetWalk_fresh : ∀ (keys stack : List String), ∃ d, rawSetWalk index value stack [] keys = .ok d
  | [], _ => ⟨[], rfl⟩
  | [_], _ => ⟨_, rfl⟩
  | key :: k2 :: rest, stack => by
    obtain ⟨d, hd⟩ := rawSetWalk_fresh (k2 :: rest) (stack ++ [key])
    exact ⟨_, by simp only [rawSetWalk, Dict.get?_nil, hd]; rfl⟩

/-- **A walk that raises has written nothing**: it leaves the section it started from. -/
theorem rawSetWalk_raised :
    ∀ {keys stack : List String} {node d : Dict} {e : PyExc},
      rawSetWalk index value stack node keys = .raised e d → d = node
  | [], _, _, _, _, h => by cases h
  | [key], _, node, _, _, h => by
    simp only [rawSetWalk] at h
    split at h
    · split at h
      · cases h; rfl
      · split at h
        · cases h
        · split at h
          · cases h
          · cases h; rfl
    · cases h
  | key :: k2 :: rest, stack, node, d, e, h => by
    simp only [rawSetWalk] at h
    have fresh (f : Dict → Dict) (s : List String) :
        (rawSetWalk index value s [] (k2 :: rest)).mapDom f ≠ .raised e d := by
      obtain ⟨c, hc⟩ := @rawSetWalk_fresh index value (k2 :: rest) s
      rw [hc]
      exact fun h => by cases h
    split at h
    next => exact absurd h (fresh _ _)
    next next hg =>
      split at h
      · split at h
        · exact absurd h (fresh _ _)
        · cases h; rfl
      · obtain ⟨c, hc, rfl⟩ := Outcome.mapDom_eq_raised h
        rw [rawSetWalk_raised hc]
        exact Dict.set_of_get? hg
    next li hg =>
      split at h
      · cases h; rfl
      · split at h
        · exact absurd h (fresh _ _)
        · split at h
          next c hc0 =>
            obtain ⟨c', hc, rfl⟩ := Outcome.mapDom_eq_raised h
            rw [rawSetWalk_raised hc, pyIndex_set_self hc0]
            exact Dict.set_of_get? hg
          next => cases h; rfl
          next => cases h; rfl
    next => exact rawSetWalk_raised h

/-- **`ConfParser.set` is atomic on error**: when it raises, the tree is as it was before
the call, whatever the path, the value and the index. -/
theorem confParserSet_atomic {dom d : Dict} {path : String} {e : PyExc}
    (h : confParserSet dom path value index = .raised e d) : d = dom := by
  unfold confParserSet at h
  split at h
  next hr => cases h; exact rawSetWalk_raised hr
  next hr => cases h; exact rawSetWalk_raised hr
  next => exact rawSetWalk_raised h

end Atomic

/-- Index 2 of a one-entry node list is out of range: `set` raises and leaves the tree
as it was. -/
theorem nodelist_index_out_of_range_atomic :
    confParserSet [("nodelist", .dict [("node", .list [.dict [("nodeid", .str "1")]])])]
        "nodelist.node.ring0_addr" (.str "10.0.0.1") 2 =
      .raised (.valueError "Index 2 out of range at path \"nodelist.node.ring0_addr\"")
        [("nodelist", .dict [("node", .list [.dict [("nodeid", .str "1")]])])] ∧
    [("nodelist", .dict [("node", .list [.dict [("nodeid", .str "1")]])])] =
      ([("nodelist", .dict [("node", .list [.dict [("nodeid", .str "1")]])])] : Dict) :=
  (fun h => ⟨h, confParserSet_atomic h⟩) (by decide)

end Crmsh
