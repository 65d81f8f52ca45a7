import Crmsh.LinkManager.Ops

/-!
# What the link manager writes

The link manager edits the tree it was given in place, and the rest of the configuration
(`quorum`, `logging`, the other keys of `totem` and `nodelist`) lives in the same tree.
Its operations write in two places only: the list `totem.interface` of per-link option
records, and the `ring{i}_addr` keys of the node list's entries.  This holds for a call
that raises halfway as well, whose writes stay in the tree (`add_link` after its
addresses, `remove_link` after some entries): the raising calls are where a frame
property is worth stating, since the tree they leave is not one the caller asked for.

`Kept keep R` relates a value to what a write may make of it: the same value, or a
section with the same value under every key `keep` holds of, the other keys' values
related by `R`.  `LinkWrites config d` says that `d` is `config` but for what the link
manager may write, and it is a preorder.  **`runLinkOps_writes`** shows that every tree a
sequence of calls passes through, from any tree and whatever each call returns or raises,
is the first one but for what the link manager may write.
-/

namespace Crmsh

/-- `v'` is `v`, or both are sections that agree on every key `keep` holds of, the values
under the other keys related by `R`. -/
def Kept (keep : String → Prop) (R : Option Value → Option Value → Prop) (v v' : Value) :
    Prop :=
  v = v' ∨ ∃ t t', v = .dict t ∧ v' = .dict t' ∧
    (∀ k, keep k → Dict.get? t' k = Dict.get? t k) ∧ ∀ k, ¬ keep k → R (Dict.get? t k) (Dict.get? t' k)

/-- A key that is not `ring{i}_addr` for any `i`. -/
def NotRingKey (k : String) : Prop := ∀ i : Int, k ≠ ringKey i

/-- A node entry as the link manager may leave it: its keys other than the ring addresses
keep their values. -/
def EntryKept : Value → Value → Prop := Kept NotRingKey fun _ _ => True

/-- `nodelist.node` as the link manager may leave it: the same value, or a list of as many
entries, each kept but for its ring addresses. -/
def NodesKept (v v' : Value) : Prop :=
  v = v' ∨ ∃ es es', v = .list es ∧ v' = .list es' ∧ List.Forall₂ EntryKept es es'

/-- **What the link manager may write**: `d` is `config` but for `totem.interface` and the
ring addresses of the node list's entries. -/
structure LinkWrites (config d : Dict) : Prop where
  other : ∀ k, k ≠ "totem" → k ≠ "nodelist" → Dict.get? d k = Dict.get? config k
  totem : Option.Rel (Kept (· ≠ "interface") fun _ _ => True)
    (Dict.get? config "totem") (Dict.get? d "totem")
  nodelist : Option.Rel (Kept (· ≠ "node") (Option.Rel NodesKept))
    (Dict.get? config "nodelist") (Dict.get? d "nodelist")

/-! ## A preorder -/

section Preorder

variable {keep : String → Prop} {R : Option Value → Option Value → Prop}

theorem optionRel_refl {r : Value → Value → Prop} (hr : ∀ a, r a a) : ∀ x, Option.Rel r x x
  | none => .none
  | some a => .some (hr a)

theorem optionRel_trans {r : Value → Value → Prop} (hr : ∀ {a b c}, r a b → r b c → r a c) :
    ∀ {x y z}, Option.Rel r x y → Option.Rel r y z → Option.Rel r x z
  | _, _, _, .none, .none => .none
  | _, _, _, .some h, .some h' => .some (hr h h')

theorem Kept.refl (v : Value) : Kept keep R v v := .inl rfl

theorem Kept.trans (hR : ∀ {a b c}, R a b → R b c → R a c) {u v w : Value} :
    Kept keep R u v → Kept keep R v w → Kept keep R u w
  | .inl rfl, h => h
  | h, .inl rfl => h
  | .inr ⟨t, t', hu, hv, hk, hr⟩, .inr ⟨s, s', hv', hw, hk', hr'⟩ => by
    obtain rfl : t' = s := Value.dict.inj (hv.symm.trans hv')
    exact .inr ⟨t, s', hu, hw, fun k h => (hk' k h).trans (hk k h),
      fun k h => hR (hr k h) (hr' k h)⟩

theorem NodesKept.trans {u v w : Value} : NodesKept u v → NodesKept v w → NodesKept u w
  | .inl rfl, h => h
  | h, .inl rfl => h
  | .inr ⟨es, es', hu, hv, hk⟩, .inr ⟨fs, fs', hv', hw, hk'⟩ => by
    obtain rfl : es' = fs := Value.list.inj (hv.symm.trans hv')
    exact .inr ⟨es, fs', hu, hw, forall₂_trans hk hk'⟩
where
  forall₂_trans : ∀ {as bs cs : List Value}, List.Forall₂ EntryKept as bs →
      List.Forall₂ EntryKept bs cs → List.Forall₂ EntryKept as cs
    | _, _, _, .nil, .nil => .nil
    | _, _, _, .cons h hs, .cons h' hs' =>
      .cons (Kept.trans (fun _ _ => trivial) h h') (forall₂_trans hs hs')

theorem nodesKept_rel_trans {x y z : Option Value} :
    Option.Rel NodesKept x y → Option.Rel NodesKept y z → Option.Rel NodesKept x z :=
  optionRel_trans (r := NodesKept) NodesKept.trans

theorem LinkWrites.refl (config : Dict) : LinkWrites config config :=
  ⟨fun _ _ _ => rfl, optionRel_refl Kept.refl _, optionRel_refl Kept.refl _⟩

theorem LinkWrites.trans {c₁ c₂ c₃ : Dict} (h₁ : LinkWrites c₁ c₂) (h₂ : LinkWrites c₂ c₃) :
    LinkWrites c₁ c₃ where
  other k ht hn := (h₂.other k ht hn).trans (h₁.other k ht hn)
  totem := optionRel_trans (r := Kept (· ≠ "interface") fun _ _ => True)
    (Kept.trans fun _ _ => trivial) h₁.totem h₂.totem
  nodelist := optionRel_trans (r := Kept (· ≠ "node") (Option.Rel NodesKept))
    (Kept.trans (R := Option.Rel NodesKept) nodesKept_rel_trans) h₁.nodelist h₂.nodelist

end Preorder

/-! ## The writes -/

/-- Writing `key` of a section keeps every other key. -/
theorem kept_setItem (v : Value) (key : String) (x : Value) :
    Kept (· ≠ key) (fun _ _ => True) v (v.setItem key x) := by
  cases v with
  | dict t => exact .inr ⟨t, _, rfl, rfl, fun k hk => Dict.get?_set_ne hk, fun _ _ => trivial⟩
  | _ => exact .inl rfl

theorem kept_storeInterfaces (totem : Value) (interfaces : List Value) :
    Kept (· ≠ "interface") (fun _ _ => True) totem (storeInterfaces totem interfaces) := by
  unfold storeInterfaces
  split
  · split
    · exact .inr ⟨_, _, rfl, rfl, fun k hk => Dict.get?_erase_ne hk, fun _ _ => trivial⟩
    · exact .inl rfl
  · exact kept_setItem _ _ _

theorem entryKept_set (n : Dict) (i : Int) (x : Value) :
    EntryKept (.dict n) (.dict (Dict.set n (ringKey i) x)) :=
  .inr ⟨n, _, rfl, rfl, fun _ hk => Dict.get?_set_ne (hk i), fun _ _ => trivial⟩

theorem entryKept_erase (n : Dict) (i : Int) :
    EntryKept (.dict n) (.dict (Dict.erase n (ringKey i))) :=
  .inr ⟨n, _, rfl, rfl, fun _ hk => Dict.get?_erase_ne (hk i), fun _ _ => trivial⟩

theorem forall₂_entryKept_refl (es : List Value) : List.Forall₂ EntryKept es es :=
  List.forall₂_same.2 fun _ _ => Kept.refl _

/-- The write loop of `__upsert_node_addr_impl` changes ring addresses only, whether it
stops early or not. -/
theorem writeNodeAddrs_kept (n : Int) (addrs : PyDict Int String) :
    ∀ nodes, List.Forall₂ EntryKept nodes (writeNodeAddrs n addrs nodes).2
  | [] => .nil
  | .dict node :: nodes => by
    unfold writeNodeAddrs
    split
    · exact forall₂_entryKept_refl _
    · refine .cons ?_ (writeNodeAddrs_kept n addrs nodes)
      split
      · exact entryKept_set _ _ _
      · exact Kept.refl _
  | .str _ :: _ => forall₂_entryKept_refl _
  | .list _ :: _ => forall₂_entryKept_refl _

/-- The deletion loop of `remove_link` removes ring addresses only, whether it stops early
or not. -/
theorem delItemAll_kept (i : Int) : ∀ nodes, List.Forall₂ EntryKept nodes (delItemAll (ringKey i) nodes).2
  | [] => .nil
  | .dict node :: nodes => by
    unfold delItemAll
    split
    · exact .cons (entryKept_erase node i) (delItemAll_kept i nodes)
    · exact forall₂_entryKept_refl _
  | .str _ :: _ => forall₂_entryKept_refl _
  | .list _ :: _ => forall₂_entryKept_refl _

/-- Where `config['nodelist']['node']` reads a list, the node list is a section holding
it. -/
theorem getPath_nodes {config : Dict} {es : List Value}
    (hg : getPath config "nodelist" "node" = .ok (.list es)) :
    ∃ n, Dict.get? config "nodelist" = some (.dict n) ∧ Dict.get? n "node" = some (.list es) := by
  cases hnl : Dict.get? config "nodelist" with
  | none => simp [getPath, Value.getItem, hnl] at hg
  | some nl =>
    cases nl with
    | dict n =>
      cases hn : Dict.get? n "node" <;>
        simp [getPath, Value.getItem, hnl, hn, bind, Except.bind] at hg ⊢
      exact hg
    | _ => simp [getPath, Value.getItem, hnl, bind, Except.bind] at hg

theorem LinkWrites.setNodes {config : Dict} {es es' : List Value}
    (hg : getPath config "nodelist" "node" = .ok (.list es)) (hk : List.Forall₂ EntryKept es es') :
    LinkWrites config (setNodes config es') := by
  obtain ⟨n, hnl, hnode⟩ := getPath_nodes hg
  have hset : Dict.get? (Crmsh.setNodes config es') "nodelist" =
      some (.dict (Dict.set n "node" (.list es'))) := by
    simp [Crmsh.setNodes, hnl, Value.setItem]
  refine ⟨fun k _ hk => ?_, ?_, ?_⟩
  · simp [Crmsh.setNodes, hnl, Dict.get?_set_ne hk]
  · simp only [Crmsh.setNodes, hnl, Dict.get?_set_ne (show "totem" ≠ "nodelist" by decide)]
    exact optionRel_refl Kept.refl _
  · rw [hnl, hset]
    refine .some (.inr ⟨n, _, rfl, rfl, fun k hk' => Dict.get?_set_ne hk', fun k hk' => ?_⟩)
    rw [not_not.1 hk', hnode, Dict.get?_set_self]
    exact .some (.inr ⟨es, es', rfl, rfl, hk⟩)

theorem LinkWrites.setTotem {config : Dict} {totem totem' : Value}
    (ht : Dict.get? config "totem" = some totem)
    (hk : Kept (· ≠ "interface") (fun _ _ => True) totem totem') :
    LinkWrites config (Dict.set config "totem" totem') := by
  refine ⟨fun k hk _ => Dict.get?_set_ne hk, ?_, ?_⟩
  · rw [ht, Dict.get?_set_self]
    exact .some hk
  · rw [Dict.get?_set_ne (by decide)]
    exact optionRel_refl Kept.refl _

/-! ## The operations -/

variable {α : Type} [DecidableEq α] {canon : String → Option α}

theorem updateLink_writes (config : Dict) (n : Int) (options : PyDict String (Option String)) :
    LinkWrites config (updateLink config n options).dom := by
  unfold updateLink
  repeat' split
  all_goals first
    | exact LinkWrites.refl config
    | exact LinkWrites.setTotem ‹_› (kept_storeInterfaces _ _)

theorem upsertNodeAddrImpl_writes {config : Dict} {ls : List (Option Link)} {n : Int}
    {addrs : PyDict Int String} {o : Outcome} (h : upsertNodeAddrImpl canon config ls n addrs = o) :
    LinkWrites config o.dom := by
  subst h
  unfold upsertNodeAddrImpl
  split
  · exact .refl config
  · split
    next es hg =>
      have hk := writeNodeAddrs_kept n addrs es
      split <;> rename_i heq <;> rw [heq] at hk <;> exact .setNodes hg hk
    all_goals exact .refl config

theorem updateNodeAddr_writes (config : Dict) (n : Int) (addrs : PyDict Int String) :
    LinkWrites config (updateNodeAddr canon config n addrs).dom := by
  unfold updateNodeAddr
  split
  · exact .refl config
  · exact upsertNodeAddrImpl_writes rfl

theorem addLink_writes (config : Dict) (addrs : PyDict Int String)
    (options : PyDict String (Option String)) :
    LinkWrites config (addLink canon config addrs options).dom := by
  unfold addLink
  dsimp only
  repeat' split
  all_goals try exact .refl config
  · exact upsertNodeAddrImpl_writes ‹_›
  · rename_i heq
    exact (upsertNodeAddrImpl_writes heq).trans (updateLink_writes _ _ _)

theorem removeRecords_writes (config : Dict) (n : Int) :
    LinkWrites config (removeRecords config n).dom := by
  unfold removeRecords
  repeat' split
  all_goals first
    | exact LinkWrites.refl config
    | exact LinkWrites.setTotem ‹_› (kept_setItem _ _ _)

theorem removeLink_writes (config : Dict) (n : Int) :
    LinkWrites config (removeLink config n).dom := by
  unfold removeLink
  split
  · exact .refl config
  · split
    · exact .refl config
    · split
      next es hg =>
        have hk := delItemAll_kept n es
        split <;> rename_i heq <;> rw [heq] at hk
        · exact (LinkWrites.setNodes hg hk).trans (removeRecords_writes _ n)
        · exact .setNodes hg hk
      all_goals exact .refl config

theorem LinkOp.apply_writes (config : Dict) (op : LinkOp) :
    LinkWrites config (op.apply canon config).dom := by
  cases op with
  | updateLink n options => exact updateLink_writes config n options
  | updateNodeAddr n addrs => exact updateNodeAddr_writes config n addrs
  | addLink addrs options => exact addLink_writes config addrs options
  | removeLink n => exact removeLink_writes config n

/-- **The link manager writes nowhere else**: every tree a sequence of calls passes
through, each call on the tree the previous one left whether it returned or raised, is
the first tree but for `totem.interface` and the ring addresses of the node list's
entries.  In particular the node list keeps its length, and each entry its `nodeid` and
`name`. -/
theorem runLinkOps_writes :
    ∀ (config : Dict) (ops : List LinkOp), ∀ d ∈ runLinkOps canon config ops, LinkWrites config d
  | config, [], d, hd => List.mem_singleton.1 hd ▸ .refl config
  | config, op :: ops, d, hd => by
    rcases List.mem_cons.1 hd with rfl | hd
    · exact .refl d
    · exact (op.apply_writes config).trans (runLinkOps_writes _ ops d hd)

/-- `add_link` with an unknown option, which raises after writing the new addresses, and
then `remove_link(0)`. -/
def bogusOptionCalls : List LinkOp :=
  [.addLink ⟨[(1, "10.0.1.1"), (2, "10.0.1.2")], by decide⟩ ⟨[("bogus", some "1")], by decide⟩,
    .removeLink 0]

/-- The tree the raising `add_link` leaves is the first one but for what the link manager
may write. -/
theorem bogusOption_run_writes :
    let d := (addLink some twoNodeTree ⟨[(1, "10.0.1.1"), (2, "10.0.1.2")], by decide⟩
      ⟨[("bogus", some "1")], by decide⟩).dom
    d ∈ runLinkOps some twoNodeTree bogusOptionCalls ∧ LinkWrites twoNodeTree d := by
  intro d
  have h : d ∈ runLinkOps some twoNodeTree bogusOptionCalls :=
    List.mem_cons_of_mem _ (List.mem_cons_self _ _)
  exact ⟨h, runLinkOps_writes _ _ _ h⟩

end Crmsh
