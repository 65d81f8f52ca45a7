import Crmsh.LinkManager.Uniqueness

/-!
# The verdict of `__upsert_node_addr_impl`'s check

The loop of `__upsert_node_addr_impl` checks the pairs of `node_addresses` one after
another against an index of the addresses in use.  It adds each pair's address to the
index and never takes one out, so an address a node leaves stays taken for the rest of
the call, and the loop could pass for one order of the pairs and raise for another.

It does not.  A turn of the loop first does the work that reads no index (`pairCheck`:
the node is on the link, and its old and new addresses are valid).  Provided the index
already knows each address a pair keeps, as the index built from `links()` does, the loop
passes exactly when every pair passes that part, every address that changes is new to the
index, and no two changed addresses coincide (**`upsertCheck_passes_iff`**).  That
verdict mentions no order.  The write loop reads the map only through `get`.  So
`update_node_addr` leaves the same tree, and raises or returns alike, for any two orderings
of one map (**`updateNodeAddr_order_independent`**).
-/

namespace Crmsh

variable {α : Type} [DecidableEq α] {canon : String → Option α}

/-- The write loop reads `node_addresses` only through `get`. -/
theorem writeNodeAddrs_congr {a b : PyDict Int String} (h : ∀ k, a.get? k = b.get? k)
    (n : Int) : ∀ nodes, writeNodeAddrs n a nodes = writeNodeAddrs n b nodes
  | [] => rfl
  | .dict node :: nodes => by simp only [writeNodeAddrs, h, writeNodeAddrs_congr h n nodes]
  | .str _ :: _ | .list _ :: _ => rfl

/-! ## One turn of the loop -/

/-- What a turn of the check's loop computes for the pair `(nodeid, addr)` before it
reads the index: the canonical form of `addr`, and whether it changes the node's address
(the old one is empty or has another canonical form). -/
def pairCheck (canon : String → Option α) (roster : Except PyExc (List LinkNode))
    (pair : Int × String) : Except PyExc (α × Bool) := do
  let some found := (← roster).find? (·.nodeid = pair.1)
    | throw (.valueError ("Unknown nodeid " ++ pyStr pair.1 ++ "."))
  let c ← ipAddress canon (.str pair.2)
  let changed ← if found.addr = .str "" then pure true
    else do pure (decide ((← ipAddress canon found.addr) ≠ c))
  return (c, changed)

theorem pairCheck_eq_ok {R : List LinkNode} {pair : Int × String} {c : α} {changed : Bool} :
    pairCheck canon (.ok R) pair = .ok (c, changed) ↔
      ∃ found, R.find? (·.nodeid = pair.1) = some found ∧ ipAddress canon (.str pair.2) = .ok c ∧
        ∃ o, addrCanon canon found.addr = .ok o ∧ changed = decide (o ≠ some c) := by
  unfold pairCheck
  cases hf : R.find? (·.nodeid = pair.1) with
  | none => simp [bind, Except.bind, hf, throw, throwThe, MonadExceptOf.throw]
  | some found =>
    cases hc : ipAddress canon (.str pair.2) with
    | error e => simp [bind, Except.bind, hf, hc]
    | ok c' =>
      by_cases hempty : found.addr = .str ""
      · simp [bind, Except.bind, hf, hc, hempty, pure, Except.pure, addrCanon]
      · cases ho : ipAddress canon found.addr <;>
          simp [bind, Except.bind, hf, hc, hempty, ho, pure, Except.pure, addrCanon, Functor.map,
            Except.map]
        rintro rfl
        cases changed <;> simp

/-- A turn of the loop passes when its pair passes `pairCheck` and, if the pair changes
its node's address, the index does not know the new one; the index then maps that
address to the node. -/
theorem upsertCheck_cons_ok {roster : Except PyExc (List LinkNode)} {m : α → Option Int}
    {pair : Int × String} {rest : List (Int × String)} :
    (∃ m', upsertCheck canon roster m (pair :: rest) = .ok m') ↔
      ∃ c changed, pairCheck canon roster pair = .ok (c, changed) ∧ (changed → m c = none) ∧
        ∃ m', upsertCheck canon roster (fun c' => if c' = c then some pair.1 else m c') rest =
          .ok m' := by
  obtain ⟨id, a⟩ := pair
  cases roster with
  | error e => simp [upsertCheck, pairCheck, bind, Except.bind]
  | ok R =>
    cases hf : R.find? (·.nodeid = id) with
    | none => simp [upsertCheck, pairCheck, bind, Except.bind, hf, throw, throwThe, MonadExceptOf.throw]
    | some found =>
      have hid : found.nodeid = id := by simpa using List.find?_some hf
      cases hc : ipAddress canon (.str a) with
      | error e => simp [upsertCheck, pairCheck, bind, Except.bind, hf, hc]
      | ok c =>
        by_cases hempty : found.addr = .str ""
        · cases hm : m c <;> simp [upsertCheck, pairCheck, bind, Except.bind, hf, hc, hid, hempty,
            hm, pure, Except.pure, throw, throwThe, MonadExceptOf.throw]
        · cases ho : ipAddress canon found.addr with
          | error e => simp [upsertCheck, pairCheck, bind, Except.bind, hf, hc, hempty, ho]
          | ok c₀ =>
            by_cases heq : c₀ = c
            · simp [upsertCheck, pairCheck, bind, Except.bind, hf, hc, hid, hempty, ho, heq, pure,
                Except.pure]
            · cases hm : m c <;> simp [upsertCheck, pairCheck, bind, Except.bind, hf, hc, hid,
                hempty, ho, heq, hm, pure, Except.pure, throw, throwThe, MonadExceptOf.throw]

/-- A turn of the check's loop raises whatever follows, or hands an index on to the rest. -/
theorem upsertCheck_cons_cases (roster : Except PyExc (List LinkNode)) (m : α → Option Int)
    (pair : Int × String) :
    (∃ e, ∀ rest, upsertCheck canon roster m (pair :: rest) = .error e) ∨
      ∃ m', ∀ rest, upsertCheck canon roster m (pair :: rest) = upsertCheck canon roster m' rest := by
  obtain ⟨id, a⟩ := pair
  cases roster with
  | error e => exact .inl ⟨e, fun _ => rfl⟩
  | ok R =>
    simp only [upsertCheck, bind, Except.bind, pure, Except.pure]
    split
    · rename_i found hf
      cases hc : ipAddress canon (.str a) with
      | error e => exact .inl ⟨e, fun _ => by simp [hc]⟩
      | ok c =>
        simp only [hc]
        by_cases hempty : found.addr = .str ""
        · cases hm : m c with
          | none => exact .inr ⟨fun c' => if c' = c then some found.nodeid else m c', fun _ => by
              simp [hempty, hm]⟩
          | some existing => exact .inl ⟨.duplicatedNodeAddress a id existing, fun _ => by simp [hempty, hm]⟩
        · cases ho : ipAddress canon found.addr with
          | error e => exact .inl ⟨e, fun _ => by simp [hempty, ho]⟩
          | ok c₀ =>
            by_cases heq : c₀ = c
            · exact .inr ⟨fun c' => if c' = c then some found.nodeid else m c', fun _ => by
                simp [hempty, ho, heq]⟩
            · cases hm : m c with
              | none => exact .inr ⟨fun c' => if c' = c then some found.nodeid else m c', fun _ => by
                  simp [hempty, ho, heq, hm]⟩
              | some existing =>
                exact .inl ⟨.duplicatedNodeAddress a id existing, fun _ => by simp [hempty, ho, heq, hm]⟩
    · exact .inl ⟨_, fun _ => rfl⟩

/-- The loop over a prefix that passes hands its index on to the rest. -/
theorem upsertCheck_append_of_ok {roster : Except PyExc (List LinkNode)} :
    ∀ {m m₁ : α → Option Int} {pre : List (Int × String)},
      upsertCheck canon roster m pre = .ok m₁ →
        ∀ rest, upsertCheck canon roster m (pre ++ rest) = upsertCheck canon roster m₁ rest
  | m, m₁, [], h, rest => by cases h; rfl
  | m, m₁, q :: pre, h, rest => by
    rcases upsertCheck_cons_cases roster m q with ⟨e, he⟩ | ⟨m', hm'⟩
    · rw [he] at h; cases h
    · rw [hm'] at h
      rw [List.cons_append, hm', upsertCheck_append_of_ok h]

/-! ## The verdict without the order -/

/-- The address a pair moves its node to, if it moves it. -/
def newAddr (canon : String → Option α) (roster : Except PyExc (List LinkNode))
    (pair : Int × String) : Option α :=
  match pairCheck canon roster pair with
  | .ok (c, true) => some c
  | _ => none

theorem newAddr_eq_some {roster : Except PyExc (List LinkNode)} {pair : Int × String} {c : α} :
    newAddr canon roster pair = some c ↔ pairCheck canon roster pair = .ok (c, true) := by
  unfold newAddr
  split <;> simp_all

/-- **The check's verdict**, said of the pairs as a set: each passes `pairCheck`, each
address that changes is new to the index `m`, and no two changed addresses coincide. -/
structure CheckPasses (canon : String → Option α) (roster : Except PyExc (List LinkNode))
    (m : α → Option Int) (items : List (Int × String)) : Prop where
  steps : ∀ pair ∈ items, ∃ r, pairCheck canon roster pair = .ok r
  fresh : ∀ pair ∈ items, ∀ c, pairCheck canon roster pair = .ok (c, true) → m c = none
  distinct : (items.filterMap (newAddr canon roster)).Nodup

theorem CheckPasses.perm {roster : Except PyExc (List LinkNode)} {m : α → Option Int}
    {items items' : List (Int × String)} (h : CheckPasses canon roster m items)
    (hp : items.Perm items') : CheckPasses canon roster m items' where
  steps pair hq := h.steps pair (hp.mem_iff.2 hq)
  fresh pair hq := h.fresh pair (hp.mem_iff.2 hq)
  distinct := (hp.filterMap _).nodup_iff.1 h.distinct

/-- **The loop passes exactly on the verdict**, from an index that knows every address a
pair keeps.  A changed address another pair keeps is known to the index, and of two pairs
moving to one address the later one raises: so the loop's first-come order does not
matter. -/
theorem upsertCheck_passes_iff {roster : Except PyExc (List LinkNode)} :
    ∀ {m : α → Option Int} {items : List (Int × String)},
    (∀ pair ∈ items, ∀ c, pairCheck canon roster pair = .ok (c, false) → (m c).isSome) →
    ((∃ m', upsertCheck canon roster m items = .ok m') ↔ CheckPasses canon roster m items)
  | m, [], _ => ⟨fun _ => ⟨nofun, nofun, List.nodup_nil⟩, fun _ => ⟨m, rfl⟩⟩
  | m, pair :: rest, hk => by
    have hk' : ∀ c, ∀ q ∈ rest, ∀ c', pairCheck canon roster q = .ok (c', false) →
        ((fun c'' => if c'' = c then some pair.1 else m c'') c').isSome := fun c q hq c' h => by
      dsimp only; split_ifs <;> simp [hk q (List.mem_cons_of_mem _ hq) c' h]
    rw [upsertCheck_cons_ok]
    simp only [upsertCheck_passes_iff (hk' _)]
    constructor
    · rintro ⟨c, changed, hp, hfresh, hrest⟩
      refine ⟨fun q hq => ?_, fun q hq c' hq' => ?_, ?_⟩
      · rcases List.mem_cons.1 hq with rfl | hq
        exacts [⟨_, hp⟩, hrest.steps q hq]
      · rcases List.mem_cons.1 hq with rfl | hq
        · rw [hp] at hq'; cases hq'; exact hfresh rfl
        · have := hrest.fresh q hq c' hq'; split_ifs at this; exact this
      · rw [List.filterMap_cons]
        cases changed
        · simpa [newAddr, hp] using hrest.distinct
        · simp only [newAddr, hp, List.nodup_cons, hrest.distinct, and_true]
          intro hc
          obtain ⟨q, hq, hq'⟩ := List.mem_filterMap.1 hc
          simpa using hrest.fresh q hq c (newAddr_eq_some.1 hq')
    · intro h
      obtain ⟨⟨c, changed⟩, hp⟩ := h.steps pair (List.mem_cons_self _ _)
      have hnd := h.distinct
      rw [List.filterMap_cons] at hnd
      refine ⟨c, changed, hp, fun hch => h.fresh pair (List.mem_cons_self _ _) c (hch ▸ hp),
        fun q hq => h.steps q (List.mem_cons_of_mem _ hq), fun q hq c' hq' => ?_, ?_⟩
      · have hm' := h.fresh q (List.mem_cons_of_mem _ hq) c' hq'
        -- the address `q` moves to is not the one `pair` takes
        have hne : c' ≠ c := by
          rintro rfl
          cases changed
          · simpa [hm'] using hk pair (List.mem_cons_self _ _) _ hp
          · simp only [newAddr, hp, List.nodup_cons] at hnd
            exact hnd.1 (List.mem_filterMap.2 ⟨q, hq, newAddr_eq_some.2 hq'⟩)
        simp [hne, hm']
      · cases changed <;> simp only [newAddr, hp] at hnd
        exacts [hnd, hnd.of_cons]

/-- Two orderings of the pairs pass or fail the check together. -/
theorem upsertCheck_perm_ok {roster : Except PyExc (List LinkNode)} {m : α → Option Int}
    {items items' : List (Int × String)}
    (hk : ∀ pair ∈ items, ∀ c, pairCheck canon roster pair = .ok (c, false) → (m c).isSome)
    (hp : items.Perm items') :
    (∃ m', upsertCheck canon roster m items = .ok m') ↔
      ∃ m', upsertCheck canon roster m items' = .ok m' := by
  rw [upsertCheck_passes_iff hk, upsertCheck_passes_iff fun q hq => hk q (hp.mem_iff.2 hq)]
  exact ⟨fun h => h.perm hp, fun h => h.perm hp.symm⟩

/-- **The check raises at the first unknown node.**  When the pairs before the first key
that is not a node of the roster pass, the check raises the `ValueError` naming a key that
is not a node. -/
theorem upsertCheck_unknown {roster : Except PyExc (List LinkNode)} {R : List LinkNode}
    {m : α → Option Int} {items : List (Int × String)} (hR : roster = .ok R)
    (hk : ∀ pair ∈ items, ∀ c, pairCheck canon roster pair = .ok (c, false) → (m c).isSome)
    (hpre : CheckPasses canon roster m (items.takeWhile fun p => p.1 ∈ R.map LinkNode.nodeid))
    (hp : ∃ p ∈ items, p.1 ∉ R.map LinkNode.nodeid) :
    ∃ id ∉ R.map LinkNode.nodeid,
      upsertCheck canon roster m items = .error (.valueError ("Unknown nodeid " ++ pyStr id ++ ".")) := by
  let member : Int × String → Bool := fun p => p.1 ∈ R.map LinkNode.nodeid
  obtain ⟨p, hp, hnot⟩ := hp
  obtain ⟨q, post, hdrop⟩ : ∃ q post, items.dropWhile member = q :: post := by
    cases h : items.dropWhile member with
    | nil => exact absurd (of_decide_eq_true (List.dropWhile_eq_nil_iff.1 h p hp)) hnot
    | cons q post => exact ⟨q, post, rfl⟩
  have hq : q.1 ∉ R.map LinkNode.nodeid := by
    have := List.head?_dropWhile_not member items
    rw [hdrop] at this
    exact of_decide_eq_false this
  have hfind : R.find? (·.nodeid = q.1) = none :=
    List.find?_eq_none.2 fun node hnode h => hq (List.mem_map.2 ⟨node, hnode, by simpa using h⟩)
  obtain ⟨m₁, hm₁⟩ := (upsertCheck_passes_iff fun pair hp' =>
    hk pair ((List.takeWhile_sublist _).subset hp')).2 hpre
  refine ⟨q.1, hq, ?_⟩
  rw [← List.takeWhile_append_dropWhile member items, hdrop, upsertCheck_append_of_ok hm₁]
  obtain ⟨id, a⟩ := q
  simp [upsertCheck, hR, hfind, bind, Except.bind]
  rfl

/-- `existing_addr_node_map` knows the address of every node of the link the loop reads,
so it knows each address a pair keeps. -/
theorem existingAddrNodeMap_knows_kept {ls : List (Option Link)} {m : α → Option Int}
    (h : existingAddrNodeMap canon ls = .ok m) {n : Int} {pair : Int × String} {c : α}
    (hp : pairCheck canon (rosterAt ls n) pair = .ok (c, false)) : (m c).isSome := by
  unfold rosterAt at hp
  split at hp
  · rename_i l hl
    obtain ⟨found, hf, -, o, ho, hch⟩ := pairCheck_eq_ok.1 hp
    have : o = some c := by simpa using hch
    exact existingAddrNodeMap_covers h (pyIndex_mem hl) (List.mem_of_find?_eq_some hf) (this ▸ ho)
  all_goals cases hp

/-! ## The order of `node_addresses` -/

theorem upsertNodeAddrImpl_perm {config : Dict} {ls : List (Option Link)} {n : Int}
    {a b : PyDict Int String} (hp : a.items.Perm b.items) :
    (upsertNodeAddrImpl canon config ls n a).dom = (upsertNodeAddrImpl canon config ls n b).dom ∧
      ((∃ d, upsertNodeAddrImpl canon config ls n a = .ok d) ↔
        ∃ d, upsertNodeAddrImpl canon config ls n b = .ok d) := by
  unfold upsertNodeAddrImpl
  cases hm : existingAddrNodeMap canon ls with
  | error e => simp [bind, Except.bind]
  | ok m =>
    have hiff := upsertCheck_perm_ok (fun _ _ _ hc => existingAddrNodeMap_knows_kept hm (n := n) hc) hp
    simp only [bind, Except.bind, writeNodeAddrs_congr (PyDict.get?_perm hp)]
    cases ha : upsertCheck canon (rosterAt ls n) m a.items <;>
      cases hb : upsertCheck canon (rosterAt ls n) m b.items <;> simp_all [Outcome.dom]

/-- **`update_node_addr` does not depend on the order of its map.**  For two orderings of
one map, the call leaves the same tree, and it returns for one exactly when it returns for
the other. -/
theorem updateNodeAddr_order_independent {config : Dict} {n : Int} {a b : PyDict Int String}
    (hp : a.items.Perm b.items) :
    (updateNodeAddr canon config n a).dom = (updateNodeAddr canon config n b).dom ∧
      ((∃ d, updateNodeAddr canon config n a = .ok d) ↔
        ∃ d, updateNodeAddr canon config n b = .ok d) := by
  unfold updateNodeAddr
  split
  · simp
  · exact upsertNodeAddrImpl_perm hp

/-- Moving node 1 to a fresh address while node 2 keeps its own, in either order. -/
theorem moveAndKeep_order_independent :
    List.Perm [(1, "10.0.0.5"), (2, "10.0.0.2")] [(2, "10.0.0.2"), (1, "10.0.0.5")] ∧
    (updateNodeAddr some twoNodeTree 0 ⟨[(1, "10.0.0.5"), (2, "10.0.0.2")], by decide⟩).dom =
      (updateNodeAddr some twoNodeTree 0 ⟨[(2, "10.0.0.2"), (1, "10.0.0.5")], by decide⟩).dom ∧
    ((∃ d, updateNodeAddr some twoNodeTree 0 ⟨[(1, "10.0.0.5"), (2, "10.0.0.2")], by decide⟩ =
        .ok d) ↔
      ∃ d, updateNodeAddr some twoNodeTree 0 ⟨[(2, "10.0.0.2"), (1, "10.0.0.5")], by decide⟩ =
        .ok d) :=
  ⟨List.Perm.swap _ _ _, updateNodeAddr_order_independent (List.Perm.swap _ _ _)⟩

end Crmsh
