import Crmsh.LinkManager.Shape

/-!
# What a call that returned normally did

One inversion lemma per operation: from `op config = .ok config'` it names every
intermediate value the call computed and says how `config'` is built from them.  The
invariant proofs use these and never unfold an operation again.
-/

namespace Crmsh

variable {α : Type} [DecidableEq α]

theorem updateLink_ok {config config' : Dict} {n : Int} {options : PyDict String (Option String)}
    (h : updateLink config n options = .ok config') :
    ∃ ls link link' totem interfaces index,
      links config = .ok ls ∧ existingLink ls n = .ok link ∧
      (options.get? "nodes").isSome = false ∧
      (∀ p ∈ options.items, p.1 ∈ linkOptionsUpdatable.map LinkField.name) ∧
      link.loadOptions (optionsSource options) = .ok link' ∧
      Dict.get? config "totem" = some totem ∧ interfacesOf totem = .ok interfaces ∧
      findRecord (pyStr n) interfaces 0 = .ok index ∧
      config' = Dict.set config "totem" (storeInterfaces totem
        (placeRecord interfaces index (writeOptions link' (recordAt interfaces index n)))) := by
  unfold updateLink at h
  split at h
  · cases h
  rename_i link hl
  obtain ⟨ls, hls, hlink⟩ := Except.bind_eq_ok.1 hl
  split at h
  · cases h
  rename_i hnodes
  split at h
  · cases h
  rename_i hfind
  split at h
  · cases h
  rename_i link' hlink'
  split at h
  · cases h
  rename_i totem htotem
  split at h
  · cases h
  rename_i interfaces index hint
  obtain ⟨l, hl, hfr⟩ := Except.bind_eq_ok.1 hint
  obtain ⟨index', hidx, hpair⟩ := Except.map_eq_ok.1 hfr
  cases hpair
  cases h
  refine ⟨ls, link, link', totem, interfaces, index, hls, hlink, by simpa using hnodes, ?_,
    hlink', htotem, hl, hidx, rfl⟩
  intro p hp
  have := List.find?_eq_none.1 hfind p hp
  simpa using this

theorem upsertNodeAddrImpl_ok {canon : String → Option α} {config config' : Dict}
    {ls : List (Option Link)} {n : Int} {addrs : PyDict Int String}
    (h : upsertNodeAddrImpl canon config ls n addrs = .ok config') :
    ∃ m m' nodes nodes', existingAddrNodeMap canon ls = .ok m ∧
      upsertCheck canon (rosterAt ls n) m addrs.items = .ok m' ∧
      getPath config "nodelist" "node" = .ok (.list nodes) ∧
      writeNodeAddrs n addrs nodes = (none, nodes') ∧ config' = setNodes config nodes' := by
  unfold upsertNodeAddrImpl at h
  split at h
  · cases h
  rename_i m' hm
  obtain ⟨m, hm, hm'⟩ := Except.bind_eq_ok.1 hm
  split at h <;> try cases h
  rename_i nodes hnodes
  split at h <;> rename_i hw <;> cases h
  exact ⟨m, m', nodes, _, hm, hm', hnodes, hw, rfl⟩

theorem updateNodeAddr_ok {canon : String → Option α} {config config' : Dict} {n : Int}
    {addrs : PyDict Int String} (h : updateNodeAddr canon config n addrs = .ok config') :
    ∃ ls link, links config = .ok ls ∧ existingLink ls n = .ok link ∧
      upsertNodeAddrImpl canon config ls n addrs = .ok config' := by
  unfold updateNodeAddr at h
  split at h
  · cases h
  rename_i ls hls
  obtain ⟨ls', hls', hl⟩ := Except.bind_eq_ok.1 hls
  obtain ⟨link, hlink, rfl⟩ := Except.map_eq_ok.1 hl
  exact ⟨ls', link, hls', hlink, h⟩

/-- An empty `unspecified_nodes`: every node of the link has an address in
`node_addresses`. -/
theorem isSome_of_unspecified_nil {addrs : PyDict Int String} {nodes : List LinkNode}
    (h : ¬(nodes.map LinkNode.nodeid).filter (fun id => (addrs.get? id).isNone) ≠ []) :
    ∀ node ∈ nodes, (addrs.get? node.nodeid).isSome := fun node hnode => by
  by_contra hnone
  exact h (List.ne_nil_of_mem (a := node.nodeid)
    (List.mem_filter.2 ⟨List.mem_map_of_mem _ hnode, by simpa using hnone⟩))

theorem addLink_ok {canon : String → Option α} {config config' : Dict}
    {addrs : PyDict Int String} {options : PyDict String (Option String)}
    (h : addLink canon config addrs options = .ok config') :
    ∃ ls k first config₁, links config = .ok ls ∧ ls.findIdx? Option.isNone = some k ∧
      ls.findSome? id = some first ∧
      (∀ node ∈ first.nodes, (addrs.get? node.nodeid).isSome) ∧
      upsertNodeAddrImpl canon config (ls.set k (some (blankLink k first))) k addrs =
        .ok config₁ ∧
      updateLink config₁ k options = .ok config' := by
  unfold addLink at h
  split at h
  · cases h
  rename_i ls hls
  split at h
  · cases h
  rename_i k hk
  split at h
  · cases h
  rename_i first hfirst
  dsimp only at h
  split at h
  · cases h
  rename_i hun
  split at h
  · cases h
  rename_i config₁ hup
  exact ⟨ls, k, first, config₁, hls, hk, hfirst, isSome_of_unspecified_nil hun, hup, h⟩

theorem removeRecords_ok {config config' : Dict} {n : Int}
    (h : removeRecords config n = .ok config') :
    ∃ totem, Dict.get? config "totem" = some totem ∧
      ((totem.contains "interface" = false ∧ config' = config) ∨
        ∃ interfaces kept, totem.getItem "interface" = .ok (.list interfaces) ∧
          keepOtherRecords n interfaces = .ok kept ∧
          config' = Dict.set config "totem" (totem.setItem "interface" (.list kept))) := by
  unfold removeRecords at h
  split at h
  · cases h
  rename_i totem htotem
  refine ⟨totem, htotem, ?_⟩
  split at h
  · rename_i hc; cases h; exact .inl ⟨by simpa using hc, rfl⟩
  split at h <;> try cases h
  rename_i interfaces hint
  split at h <;> try cases h
  rename_i kept hkept
  exact .inr ⟨interfaces, kept, hint, hkept, rfl⟩

theorem removeLink_ok {config config' : Dict} {n : Int}
    (h : removeLink config n = .ok config') :
    ∃ ls link nodes nodes', links config = .ok ls ∧ existingLink ls n = .ok link ∧
      1 < (ls.filter Option.isSome).length ∧
      getPath config "nodelist" "node" = .ok (.list nodes) ∧
      delItemAll (ringKey n) nodes = (none, nodes') ∧
      removeRecords (setNodes config nodes') n = .ok config' := by
  unfold removeLink at h
  split at h
  · cases h
  rename_i ls hls
  obtain ⟨ls', hls', hl⟩ := Except.bind_eq_ok.1 hls
  obtain ⟨link, hlink, rfl⟩ := Except.map_eq_ok.1 hl
  split at h
  · cases h
  rename_i hcount
  split at h <;> try cases h
  rename_i nodes hnodes
  split at h <;> rename_i hdel <;> try cases h
  exact ⟨ls', link, nodes, _, hls', hlink, by omega, hnodes, hdel, h⟩

end Crmsh
