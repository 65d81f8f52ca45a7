import Crmsh.Corosync
import Crmsh.LinkManager.Table
import Crmsh.LinkManager.Frame

/-!
# Adding and deleting a node entry

`add_node_config` and `del_node` keep the node list as members join and leave.  Both
work through `ConfParser` by dotted path: `add_node_config` counts the entries with
`get_all('nodelist.node')` and writes the new member's ring addresses, name and id at
that index, one `set` at a time; `del_node` finds a member by the position of its address
in `get_all('nodelist.node.ring0_addr')` and removes the entry at that position.

`DomQuery.get_all` and `DomQuery.remove` live outside this repository and are modelled
from their description in the spec; `find_configured_ip` reads the file's text, the
host's interfaces and the address family from outside, and takes them as parameters.

* **`addNodeConfig_appends`** — `add_node_config` appends one entry, with the ring
  addresses, the name and the free id, and changes nothing outside `nodelist`;
* **`delNode_fails_without_link_zero`** — on a well-formed tree without link 0, `del_node`
  finds no node;
* **`delNode_undoes_addNodeConfig`** — `del_node` of the new node's first address gives the
  node list back.
-/

namespace Crmsh

/-! ## Reading and removing by path -/

/-- Modelled from the spec: `corosync_config_format.DomQuery.get_all`, which is not in
this repository.  It returns every value the path leads to, in order: a list met on the
way, the last value included, stands for each of its elements, and a missing key
contributes nothing. -/
def domQueryGetAll : List String → Value → List Value
  | [], v => v.elems
  | key :: keys, v => v.elems.flatMap fun
    | .dict d =>
      match Dict.get? d key with
      | some w => domQueryGetAll keys w
      | none => []
    | _ => []

/-- `ConfParser.get_all`: `DomQuery.get_all`, whose `KeyError` it turns into `[]`. -/
def confParserGetAll (dom : Dict) (path : String) : List Value :=
  domQueryGetAll (pySplit path '.') (.dict dom)

/-- Modelled from the spec: `corosync_config_format.DomQuery.remove`, which is not in this
repository.  It descends like `DomQuery.get`, a list on the way indexed by `index`; under
the last key it deletes element `index` of a list, or the value itself at index 0.  A
missing key raises `KeyError`, a missing element `IndexError`. -/
def domQueryRemove (index : Nat) (d : Dict) : List String → Except PyExc Dict
  | [] => .ok d
  | [key] =>
    match Dict.get? d key with
    | some (.list l) =>
      if index < l.length then .ok (Dict.set d key (.list (l.eraseIdx index)))
      else .error .indexError
    | some _ => if index = 0 then .ok (Dict.erase d key) else .error .indexError
    | none => .error (.keyError key)
  | key :: k₂ :: keys =>
    match Dict.get? d key with
    | some (.dict c) => (domQueryRemove index c (k₂ :: keys)).map fun c => Dict.set d key (.dict c)
    | some (.list l) =>
      match l[index]? with
      | some (.dict c) =>
        (domQueryRemove index c (k₂ :: keys)).map fun c => Dict.set d key (.list (l.set index (.dict c)))
      | some _ => .error .typeError
      | none => .error .indexError
    | some (.str _) => .error .typeError
    | none => .error (.keyError key)

/-- `ConfParser.remove`: `KeyError` and `IndexError` become a `ValueError` naming the path
and the index. -/
def confParserRemove (dom : Dict) (path : String) (index : Nat) : Except PyExc Dict :=
  match domQueryRemove index dom (pySplit path '.') with
  | .error (.keyError _) | .error .indexError =>
    .error (.valueError ("Cannot find value on path \"" ++ path ++ ":" ++ pyStr index ++ "\""))
  | r => r

/-! ## Paths under `nodelist.node` -/

theorem splitChars_of_not_mem {sep : Char} :
    ∀ {cur cs : List Char}, sep ∉ cs → splitChars sep cur cs = [String.mk (cur.reverse ++ cs)]
  | _, [], _ => by simp [splitChars]
  | cur, c :: cs, h => by
    have hc : c ≠ sep := fun e => h (e ▸ List.mem_cons_self _ _)
    rw [splitChars, if_neg hc, splitChars_of_not_mem fun h' => h (List.mem_cons_of_mem _ h')]
    simp

/-- A key of a node entry, after `nodelist.node.`, is the path's third key. -/
theorem pySplit_nodePath {k : String} (hk : '.' ∉ k.toList) :
    pySplit ("nodelist.node." ++ k) '.' = ["nodelist", "node", k] := by
  have hpre : ("nodelist.node." ++ k).toList =
      ['n', 'o', 'd', 'e', 'l', 'i', 's', 't', '.', 'n', 'o', 'd', 'e', '.'] ++ k.toList := rfl
  have hk' : '.' ∉ k.data := hk
  rw [pySplit, hpre]
  simp only [List.cons_append, List.nil_append, splitChars]
  simp [splitChars_of_not_mem hk']

theorem dot_not_mem_ringKey (i : Nat) : '.' ∉ (ringKey i).toList := by
  have hdigits : ∀ c ∈ (pyStr i).toList, c.isDigit := toDigits_isDigit i
  rw [ringKey_toList]
  intro h
  simp only [List.mem_append, List.mem_cons, List.not_mem_nil, or_false] at h
  rcases h with (h | h) | h
  · simp at h
  · exact absurd (hdigits _ h) (by decide)
  · simp at h

/-! ## Where the new entry goes -/

/-- Where `add_node_config` can append an entry: the node list is missing, or a section
whose `node` is missing, a lone entry or a list of entries. -/
def nodeSlot (dom : Dict) : Bool :=
  match Dict.get? dom "nodelist" with
  | none => true
  | some (.dict n) =>
    match Dict.get? n "node" with
    | some (.str _) => false
    | _ => true
  | some _ => false

/-- The tree with the entry `e` after the others: a missing node list or entry leaves `e`
the lone entry, and entries that are there, a lone one included, are followed by `e` in a
list. -/
def appendEntry (dom e : Dict) : Dict :=
  match Dict.get? dom "nodelist" with
  | some (.dict n) =>
    match Dict.get? n "node" with
    | some (.dict c) => Dict.set dom "nodelist" (.dict (Dict.set n "node" (.list [.dict c, .dict e])))
    | some (.list l) => Dict.set dom "nodelist" (.dict (Dict.set n "node" (.list (l ++ [.dict e]))))
    | _ => Dict.set dom "nodelist" (.dict (Dict.set n "node" (.dict e)))
  | _ => Dict.set dom "nodelist" (.dict [("node", .dict e)])

theorem Dict.set_set (d : Dict) (k : String) (v w : Value) :
    Dict.set (Dict.set d k v) k w = Dict.set d k w := by
  induction d with
  | nil => simp [Dict.set]
  | cons p d ih =>
    obtain ⟨k', v'⟩ := p
    by_cases hk : k' = k <;> simp [Dict.set, hk, ih]

theorem pySplit_nodelist_node : pySplit "nodelist.node" '.' = ["nodelist", "node"] := rfl

theorem confParserGetAll_nodes_of_none {dom : Dict} (h : Dict.get? dom "nodelist" = none) :
    confParserGetAll dom "nodelist.node" = [] := by
  simp [confParserGetAll, pySplit_nodelist_node, domQueryGetAll, Value.elems, h]

theorem confParserGetAll_nodes_of_dict {dom n : Dict} (h : Dict.get? dom "nodelist" = some (.dict n)) :
    confParserGetAll dom "nodelist.node" = ((Dict.get? n "node").map Value.elems).getD [] := by
  cases hn : Dict.get? n "node" <;>
    simp [confParserGetAll, pySplit_nodelist_node, domQueryGetAll, Value.elems, h, hn]

/-- **The entry comes last** in what `get_all('nodelist.node')` reads. -/
theorem confParserGetAll_appendEntry {dom : Dict} (hs : nodeSlot dom = true) (e : Dict) :
    confParserGetAll (appendEntry dom e) "nodelist.node" =
      confParserGetAll dom "nodelist.node" ++ [.dict e] := by
  unfold nodeSlot at hs
  unfold appendEntry
  cases hnl : Dict.get? dom "nodelist" with
  | none =>
    simp [confParserGetAll_nodes_of_none hnl, confParserGetAll_nodes_of_dict Dict.get?_set_self,
      Value.elems]
  | some w =>
    rw [hnl] at hs
    cases w with
    | dict n =>
      have hget := @confParserGetAll_nodes_of_dict
      cases hn : Dict.get? n "node" with
      | none => simp [hn, hget hnl, hget Dict.get?_set_self, Value.elems]
      | some x =>
        cases x with
        | dict c => simp [hn, hget hnl, hget Dict.get?_set_self, Value.elems]
        | list l => simp [hn, hget hnl, hget Dict.get?_set_self, Value.elems]
        | str s => simp [hn] at hs
    | _ => simp at hs

theorem get?_appendEntry_ne {dom : Dict} {k : String} (hk : k ≠ "nodelist") (e : Dict) :
    Dict.get? (appendEntry dom e) k = Dict.get? dom k := by
  unfold appendEntry
  repeat' split
  all_goals exact Dict.get?_set_ne hk

theorem rawSetWalk_last_key {index : Int} {v : Value} {stack : List String} {e : Dict}
    {key : String} (he : ∀ l, Dict.get? e key ≠ some (.list l)) :
    rawSetWalk index v stack e [key] = .ok (Dict.set e key v) := by
  unfold rawSetWalk
  split
  · exact absurd ‹_› (he _)
  · rfl

theorem confParserSet_of_walk {dom d : Dict} {path : String} {v : Value} {index : Int}
    (h : rawSetWalk index v [] dom (pySplit path '.') = .ok d) :
    confParserSet dom path v index = .ok d := by
  simp [confParserSet, h]

/-- The first write of `add_node_config` makes the new entry, with its first key. -/
theorem confParserSet_newEntry {dom : Dict} {key : String} (v : Value)
    (hs : nodeSlot dom = true) (hk : '.' ∉ key.toList) :
    confParserSet dom ("nodelist.node." ++ key) v (confParserGetAll dom "nodelist.node").length =
      .ok (appendEntry dom [(key, v)]) := by
  apply confParserSet_of_walk
  rw [pySplit_nodePath hk]
  unfold nodeSlot at hs
  unfold appendEntry
  cases hnl : Dict.get? dom "nodelist" with
  | none =>
    simp [rawSetWalk, hnl, confParserGetAll_nodes_of_none hnl, Outcome.mapDom, Dict.set]
  | some w =>
    rw [hnl] at hs
    cases w with
    | dict n =>
      cases hn : Dict.get? n "node" with
      | none =>
        simp [rawSetWalk, hnl, hn, confParserGetAll_nodes_of_dict hnl, Outcome.mapDom, Dict.set]
      | some x =>
        cases x with
        | dict c =>
          simp [rawSetWalk, hnl, hn, confParserGetAll_nodes_of_dict hnl, Outcome.mapDom, Dict.set,
            knownSecNamesWithList, Value.elems]
        | list l =>
          simp [rawSetWalk, hnl, hn, confParserGetAll_nodes_of_dict hnl, Outcome.mapDom, Dict.set,
            knownSecNamesWithList, Value.elems]
        | str s => simp [hn] at hs
    | _ => simp at hs

/-- A later write of `add_node_config` adds its key to the new entry. -/
theorem confParserSet_entryKey {dom e : Dict} {key : String} (v : Value)
    (hs : nodeSlot dom = true) (hk : '.' ∉ key.toList) (he : ∀ l, Dict.get? e key ≠ some (.list l)) :
    confParserSet (appendEntry dom e) ("nodelist.node." ++ key) v
        (confParserGetAll dom "nodelist.node").length =
      .ok (appendEntry dom (Dict.set e key v)) := by
  apply confParserSet_of_walk
  rw [pySplit_nodePath hk]
  unfold nodeSlot at hs
  unfold appendEntry
  cases hnl : Dict.get? dom "nodelist" with
  | none =>
    simp [rawSetWalk.eq_3, hnl, confParserGetAll_nodes_of_none hnl, Outcome.mapDom, Dict.set,
      rawSetWalk_last_key he, Dict.set_set]
  | some w =>
    rw [hnl] at hs
    cases w with
    | dict n =>
      cases hn : Dict.get? n "node" with
      | none =>
        simp [rawSetWalk.eq_3, hnl, hn, confParserGetAll_nodes_of_dict hnl, Outcome.mapDom,
          rawSetWalk_last_key he, Dict.set_set]
      | some x =>
        cases x with
        | dict c =>
          simp [rawSetWalk.eq_3, hnl, hn, confParserGetAll_nodes_of_dict hnl, Outcome.mapDom,
            knownSecNamesWithList, Value.elems, pyIndex, rawSetWalk_last_key he, Dict.set_set]
        | list l =>
          have h0 : ¬ ((l.length : Int) < 0) := by omega
          simp [rawSetWalk.eq_3, hnl, hn, confParserGetAll_nodes_of_dict hnl, Outcome.mapDom,
            knownSecNamesWithList, Value.elems, pyIndex, h0, List.getElem?_concat_length,
            rawSetWalk_last_key he, Dict.set_set]
        | str s => simp [hn] at hs
    | _ => simp at hs

/-- An entry none of whose keys holds a list, as one written from strings. -/
def NoListValues (e : Dict) : Prop := ∀ k l, Dict.get? e k ≠ some (.list l)

theorem noListValues_nil : NoListValues [] := fun _ _ h => by simp at h

theorem NoListValues.set_str {e : Dict} (he : NoListValues e) (k s : String) :
    NoListValues (Dict.set e k (.str s)) := by
  intro k' l
  by_cases hk : k' = k
  · subst hk
    simp
  · rw [Dict.get?_set_ne hk]
    exact he k' l

theorem NoListValues.foldl_rings :
    ∀ {e : Dict}, NoListValues e → ∀ qs : List (Nat × String),
      NoListValues (qs.foldl (fun e p => Dict.set e (ringKey p.1) (.str p.2)) e)
  | _, he, [] => he
  | _, he, p :: qs => NoListValues.foldl_rings (he.set_str _ p.2) qs

/-- The loop over `enumerate(ip_list)` writes one ring address into the new entry per
turn. -/
theorem foldlM_appendEntry {dom : Dict} {g : Dict → Nat × String → Except NodeConfigError Dict}
    (hg : ∀ e i a, NoListValues e →
      g (appendEntry dom e) (i, a) = .ok (appendEntry dom (Dict.set e (ringKey i) (.str a)))) :
    ∀ (qs : List (Nat × String)) (e : Dict), NoListValues e →
      qs.foldlM g (appendEntry dom e) =
        .ok (appendEntry dom (qs.foldl (fun e p => Dict.set e (ringKey p.1) (.str p.2)) e))
  | [], _, _ => rfl
  | (i, a) :: qs, e, he => by
    rw [List.foldlM_cons, hg e i a he]
    exact foldlM_appendEntry hg qs _ (he.set_str _ _)

theorem Dict.set_of_not_mem {k : String} {v : Value} :
    ∀ {e : Dict}, k ∉ e.map Prod.fst → Dict.set e k v = e ++ [(k, v)]
  | [], _ => rfl
  | (k', v') :: e, h => by
    simp only [List.map_cons, List.mem_cons, not_or] at h
    simp [Dict.set, Ne.symm h.1, Dict.set_of_not_mem h.2]

/-- Writing keys that are not there, one after the other, lists them in that order. -/
theorem foldl_set_of_nodup :
    ∀ (ps : List (String × Value)) (e : Dict), (e.map Prod.fst ++ ps.map Prod.fst).Nodup →
      ps.foldl (fun e p => Dict.set e p.1 p.2) e = e ++ ps
  | [], e, _ => by simp
  | (k, v) :: ps, e, h => by
    have hk : k ∉ e.map Prod.fst := fun hk => (List.nodup_append.1 h).2.2 hk (List.mem_cons_self _ _)
    rw [List.foldl_cons, Dict.set_of_not_mem hk, foldl_set_of_nodup ps _ (by simpa using h)]
    simp

/-- The ring addresses of the entry `add_node_config` writes: `ring{i}_addr` for the `i`-th
address of `ip_list`. -/
def ringEntries (ipList : List String) : Dict :=
  ipList.enum.map fun p => (ringKey p.1, .str p.2)

/-- The entry `add_node_config` writes: the ring addresses, then the name and the id. -/
def newEntry (ipList : List String) (thisNode : String) (nodeid : Int) : Dict :=
  ringEntries ipList ++ [("name", .str thisNode), ("nodeid", .str (pyStr nodeid))]

theorem ringEntries_keys (ipList : List String) :
    (ringEntries ipList).map Prod.fst = (List.range ipList.length).map fun i : Nat => ringKey i := by
  simp only [ringEntries, List.map_map]
  rw [← List.enum_map_fst ipList, List.map_map]
  rfl

theorem ringEntries_nodup (ipList : List String) : ((ringEntries ipList).map Prod.fst).Nodup := by
  rw [ringEntries_keys]
  exact (List.nodup_range _).map fun a b h => by exact_mod_cast ringKey_injective h

theorem not_mem_ringEntries {k : String} (hk : k.toList.take 4 ≠ ['r', 'i', 'n', 'g'])
    (ipList : List String) : k ∉ (ringEntries ipList).map Prod.fst := by
  rw [ringEntries_keys]
  simp only [List.mem_map, List.mem_range, not_exists, not_and]
  exact fun i _ => ringKey_ne hk i

/-- The writes of `add_node_config`, from an empty entry, make `newEntry`. -/
theorem newEntry_writes (ipList : List String) (thisNode : String) (nodeid : Int) :
    Dict.set (Dict.set (ipList.enum.foldl (fun e p => Dict.set e (ringKey p.1) (.str p.2)) [])
      "name" (.str thisNode)) "nodeid" (.str (pyStr nodeid)) = newEntry ipList thisNode nodeid := by
  have hrings : ipList.enum.foldl (fun e p => Dict.set e (ringKey p.1) (.str p.2)) [] =
      ringEntries ipList := by
    have h := foldl_set_of_nodup (ringEntries ipList) [] (by simpa using ringEntries_nodup ipList)
    simpa [ringEntries, List.foldl_map] using h
  have hname := not_mem_ringEntries (k := "name") (by decide) ipList
  have hid : "nodeid" ∉ (ringEntries ipList ++ [("name", Value.str thisNode)]).map Prod.fst := by
    simpa using not_mem_ringEntries (k := "nodeid") (by decide) ipList
  rw [hrings, Dict.set_of_not_mem hname, Dict.set_of_not_mem hid, newEntry, List.append_assoc]
  rfl

/-! ## `add_node_config` -/

/-- What `add_node_config` raises: `IPAlreadyConfiguredError` for the addresses already
configured (its message joins them with commas, in the order of a Python set, which the
model does not fix), or an exception of the code it calls. -/
inductive NodeConfigError where
  | ipAlreadyConfigured (ips : List String)
  | py (e : PyExc)
  deriving Repr, DecidableEq

/-- `find_configured_ip`, with what it reads from outside given: the addresses that the
pattern `ring[0-7]_addr:\s*(.*?)\n` finds in the text of the configuration file, whether
an address is IPv6 (`utils.IP.is_ipv6`), and the local addresses of a family
(`utils.InterfacesInfo.get_local_ip_list`).  When `ip_list` has a local address, every
local address counts as one the new node would use. -/
def findConfiguredIp (corosyncIplist : List String) (isIpv6 : String → Bool)
    (localIpList : Bool → List String) (ipList : List String) : Except NodeConfigError Unit := do
  let first ← (pyIndex ipList 0).mapError .py
  let localIps := localIpList (isIpv6 first)
  let allPossibleIp := if ipList.any (· ∈ localIps) then ipList ++ localIps else ipList
  let configuredIp := (allPossibleIp.filter (· ∈ corosyncIplist)).dedup
  if configuredIp ≠ [] then throw (.ipAlreadyConfigured configuredIp)

/-- `inst.set(path, value, index)` inside `add_node_config`: the exception gets out, and
the instance, never saved, goes with it. -/
def setOrRaise (dom : Dict) (path : String) (value : Value) (index : Int) :
    Except NodeConfigError Dict :=
  match confParserSet dom path value index with
  | .ok d => .ok d
  | .raised e _ => .error (.py e)

/-- `add_node_config`, returning the tree it saves; `this_node` is `utils.this_node()`.
`get_free_nodeid()` reads the file, which nothing has changed yet, so it sees the ids of
`dom`; the id is written as the text the file will hold. -/
def addNodeConfig (corosyncIplist : List String) (isIpv6 : String → Bool)
    (localIpList : Bool → List String) (thisNode : String) (ipList : List String) (dom : Dict) :
    Except NodeConfigError Dict := do
  findConfiguredIp corosyncIplist isIpv6 localIpList ipList
  let nodeIndex : Int := (confParserGetAll dom "nodelist.node").length
  let inst ← ipList.enum.foldlM (fun inst (i, addr) =>
    setOrRaise inst ("nodelist.node." ++ ringKey i) (.str addr) nodeIndex) dom
  let inst ← setOrRaise inst "nodelist.node.name" (.str thisNode) nodeIndex
  let nodeid ← (getFreeNodeid (confParserGetAll dom "nodelist.node.nodeid")).mapError .py
  setOrRaise inst "nodelist.node.nodeid" (.str (pyStr nodeid)) nodeIndex

/-- What `add_node_config` saves, where its node list can take an entry and its two
checks pass: the tree with `newEntry` appended. -/
theorem addNodeConfig_eq {corosyncIplist : List String} {isIpv6 : String → Bool}
    {localIpList : Bool → List String} {thisNode : String} {ipList : List String} {dom : Dict}
    {nodeid : Int} (hfind : findConfiguredIp corosyncIplist isIpv6 localIpList ipList = .ok ())
    (hs : nodeSlot dom = true)
    (hid : getFreeNodeid (confParserGetAll dom "nodelist.node.nodeid") = .ok nodeid) :
    addNodeConfig corosyncIplist isIpv6 localIpList thisNode ipList dom =
      .ok (appendEntry dom (newEntry ipList thisNode nodeid)) := by
  obtain ⟨a0, rest, rfl⟩ : ∃ a0 rest, ipList = a0 :: rest := by
    cases ipList with
    | nil => simp [findConfiguredIp, pyIndex, Except.mapError, bind, Except.bind] at hfind
    | cons a0 rest => exact ⟨a0, rest, rfl⟩
  -- the first address makes the entry, each later write adds its key to it
  have hfirst : setOrRaise dom ("nodelist.node." ++ ringKey ((0 : Nat) : Int)) (.str a0)
      (confParserGetAll dom "nodelist.node").length =
      .ok (appendEntry dom (Dict.set [] (ringKey ((0 : Nat) : Int)) (.str a0))) := by
    simp only [setOrRaise, confParserSet_newEntry _ hs (dot_not_mem_ringKey 0)]
    rfl
  have hnext {e : Dict} {key : String} (v : String) (hk : '.' ∉ key.toList) (he : NoListValues e) :
      setOrRaise (appendEntry dom e) ("nodelist.node." ++ key) (.str v)
        (confParserGetAll dom "nodelist.node").length =
      .ok (appendEntry dom (Dict.set e key (.str v))) := by
    simp only [setOrRaise, confParserSet_entryKey _ hs hk (he key)]
  have hrings := foldlM_appendEntry
    (g := fun inst (x : Nat × String) => setOrRaise inst ("nodelist.node." ++ ringKey ↑x.1)
      (.str x.2) (confParserGetAll dom "nodelist.node").length)
    (fun _ i a he => hnext a (dot_not_mem_ringKey i) he) (List.enumFrom 1 rest)
    (Dict.set [] (ringKey ((0 : Nat) : Int)) (.str a0)) (noListValues_nil.set_str _ a0)
  have hentry : NoListValues ((List.enumFrom 1 rest).foldl
      (fun e p => Dict.set e (ringKey p.1) (.str p.2)) (Dict.set [] (ringKey ((0 : Nat) : Int)) (.str a0))) :=
    (noListValues_nil.set_str _ a0).foldl_rings _
  simp only [addNodeConfig, hfind, bind, Except.bind, List.enum_cons, List.foldlM_cons, hfirst,
    hrings, hid, Except.mapError]
  rw [show "nodelist.node.name" = "nodelist.node." ++ "name" from rfl, hnext _ (by decide) hentry]
  dsimp only
  rw [show "nodelist.node.nodeid" = "nodelist.node." ++ "nodeid" from rfl,
    hnext _ (by decide) (hentry.set_str _ _), ← newEntry_writes]
  rfl

/-- **`add_node_config` appends one entry.**  On a tree whose node list can take an entry,
when `find_configured_ip` passes and `get_free_nodeid` returns an id, `add_node_config`
returns normally and saves the tree with the new entry after the others: a lone entry
becomes the first of a two-element list, and a missing node list or entry gets the new
one as its lone entry.  The entry holds `ring{i}_addr` for the `i`-th address of
`ip_list`, the node's name and the id; `get_all('nodelist.node')` then reads the entries
it read before, followed by the new one, and no top-level key but `nodelist` changes. -/
theorem addNodeConfig_appends {corosyncIplist : List String} {isIpv6 : String → Bool}
    {localIpList : Bool → List String} {thisNode : String} {ipList : List String} {dom : Dict}
    {nodeid : Int} (hfind : findConfiguredIp corosyncIplist isIpv6 localIpList ipList = .ok ())
    (hs : nodeSlot dom = true)
    (hid : getFreeNodeid (confParserGetAll dom "nodelist.node.nodeid") = .ok nodeid) :
    addNodeConfig corosyncIplist isIpv6 localIpList thisNode ipList dom =
        .ok (appendEntry dom (newEntry ipList thisNode nodeid)) ∧
      confParserGetAll (appendEntry dom (newEntry ipList thisNode nodeid)) "nodelist.node" =
        confParserGetAll dom "nodelist.node" ++ [.dict (newEntry ipList thisNode nodeid)] ∧
      ∀ k, k ≠ "nodelist" → Dict.get? (appendEntry dom (newEntry ipList thisNode nodeid)) k = Dict.get? dom k :=
  ⟨addNodeConfig_eq hfind hs hid, confParserGetAll_appendEntry hs _, fun _ hk => get?_appendEntry_ne hk _⟩

/-- A third node joins the two-node tree with two addresses, neither configured: it takes
the free id 3. -/
theorem gamma_joins_twoNodeTree :
    findConfiguredIp [] (fun _ => false) (fun _ => []) ["10.0.0.3", "10.1.0.3"] = .ok () ∧
      nodeSlot twoNodeTree = true ∧
      getFreeNodeid (confParserGetAll twoNodeTree "nodelist.node.nodeid") = .ok 3 ∧
      addNodeConfig [] (fun _ => false) (fun _ => []) "gamma" ["10.0.0.3", "10.1.0.3"] twoNodeTree =
        .ok (appendEntry twoNodeTree (newEntry ["10.0.0.3", "10.1.0.3"] "gamma" 3)) ∧
      confParserGetAll (appendEntry twoNodeTree (newEntry ["10.0.0.3", "10.1.0.3"] "gamma" 3))
          "nodelist.node" = confParserGetAll twoNodeTree "nodelist.node" ++
        [.dict (newEntry ["10.0.0.3", "10.1.0.3"] "gamma" 3)] ∧
      ∀ k, k ≠ "nodelist" → Dict.get? (appendEntry twoNodeTree
        (newEntry ["10.0.0.3", "10.1.0.3"] "gamma" 3)) k = Dict.get? twoNodeTree k :=
  have h₁ : findConfiguredIp [] (fun _ => false) (fun _ => []) ["10.0.0.3", "10.1.0.3"] = .ok () := by
    decide
  have h₂ : nodeSlot twoNodeTree = true := rfl
  have h₃ : getFreeNodeid (confParserGetAll twoNodeTree "nodelist.node.nodeid") = .ok 3 := by
    decide
  ⟨h₁, h₂, h₃, addNodeConfig_appends h₁ h₂ h₃⟩

/-- A lone entry becomes the first of two. -/
example : appendEntry [("nodelist", .dict [("node", .dict [("nodeid", .str "1")])])] [("nodeid", .str "2")] =
    [("nodelist", .dict [("node", .list [.dict [("nodeid", .str "1")], .dict [("nodeid", .str "2")]])])] := by
  decide

/-! ## `del_node` -/

/-- Python's `l.index(x)`: the first position of `x`, and `ValueError` when it is not
there. -/
def pyListIndex (l : List Value) (x : Value) : Except PyExc Nat :=
  match l.findIdx? (· = x) with
  | some i => .ok i
  | none => .error (.valueError (x.repr ++ " is not in list"))

/-- `del_node`, returning the tree it saves. -/
def delNode (addr : String) (dom : Dict) : Except PyExc Dict := do
  let nameList := confParserGetAll dom "nodelist.node.ring0_addr"
  let index ← pyListIndex nameList (.str addr)
  confParserRemove dom "nodelist.node" index

/-! ## What `del_node` finds -/

/-- What `get_all` reads under `nodelist.node.` where the entries stand in a list: what
the entries hold under the key. -/
theorem confParserGetAll_entryKey {config : Dict} {es : List Value} {key : String}
    (hg : getPath config "nodelist" "node" = .ok (.list es)) (hk : '.' ∉ key.toList) :
    confParserGetAll config ("nodelist.node." ++ key) = domQueryGetAll [key] (.list es) := by
  obtain ⟨n, hn, hnode⟩ := getPath_nodes hg
  rw [confParserGetAll, pySplit_nodePath hk]
  simp [domQueryGetAll, Value.elems, hn, hnode]

theorem domQueryGetAll_key_cons (key : String) (v : Value) (es : List Value) :
    domQueryGetAll [key] (.list (v :: es)) =
      domQueryGetAll [key] (.list [v]) ++ domQueryGetAll [key] (.list es) := by
  simp [domQueryGetAll, Value.elems]

theorem domQueryGetAll_key_append (key : String) (es es' : List Value) :
    domQueryGetAll [key] (.list (es ++ es')) =
      domQueryGetAll [key] (.list es) ++ domQueryGetAll [key] (.list es') := by
  simp [domQueryGetAll, Value.elems]

theorem domQueryGetAll_key {d : Dict} {key v : String} (h : Dict.get? d key = some (.str v)) :
    domQueryGetAll [key] (.list [.dict d]) = [.str v] := by
  simp [domQueryGetAll, Value.elems, h]

/-- **`del_node` cannot find a node without link 0.**  On a well-formed tree without link 0,
such as one `remove_link(0)` returned, no entry has `ring0_addr`: `del_node` raises
`ValueError` for every address, and the node cannot be removed. -/
theorem delNode_fails_without_link_zero {config : Dict} {S : Finset Nat} (hwf : WellFormed config S)
    (h0 : 0 ∉ S) (addr : String) :
    delNode addr config = .error (.valueError ((Value.str addr).repr ++ " is not in list")) := by
  obtain ⟨es, ids, hs⟩ := hwf.shape
  have hnone : confParserGetAll config "nodelist.node.ring0_addr" = [] := by
    rw [show "nodelist.node.ring0_addr" = "nodelist.node." ++ "ring0_addr" from rfl,
      confParserGetAll_entryKey hs.nodes (by decide)]
    simp only [domQueryGetAll, Value.elems, List.flatMap_eq_nil_iff, List.mem_map]
    rintro _ ⟨e, he, rfl⟩
    have hring := (hs.rings e he 0 (by decide)).not.2 h0
    simp only [Dict.hasKey_iff, not_exists] at hring
    cases hr : Dict.get? e "ring0_addr" with
    | none => simp [hr]
    | some w => exact absurd hr (hring w)
  simp [delNode, hnone, pyListIndex, bind, Except.bind]

/-- After `remove_link(0)` on the two-link tree, `del_node` does not find `alpha` by its
former link-0 address. -/
theorem portTree_delNode_after_removeLink_zero :
    ∃ d, removeLink (portTree "1") 0 = .ok d ∧ WellFormed d (({0, 1} : Finset Nat).erase 0) ∧
      0 ∉ ({0, 1} : Finset Nat).erase 0 ∧
      delNode "10.0.0.1" d = .error (.valueError ((Value.str "10.0.0.1").repr ++ " is not in list")) :=
  have h : removeLink (portTree "1") 0 = .ok (removeLink (portTree "1") 0).dom := by decide
  have hwf : WellFormed (removeLink (portTree "1") 0).dom (({0, 1} : Finset Nat).erase 0) :=
    (portTree_tracked.removeLink le_rfl h).wellFormed
  have h0 : 0 ∉ ({0, 1} : Finset Nat).erase 0 := by simp
  ⟨_, h, hwf, h0, delNode_fails_without_link_zero hwf h0 "10.0.0.1"⟩

/-- `nodelist.node` holds entries: a lone section or a list. -/
def hasNodeEntries (dom : Dict) : Bool :=
  match Dict.get? dom "nodelist" with
  | some (.dict n) =>
    match Dict.get? n "node" with
    | some (.dict _) | some (.list _) => true
    | _ => false
  | _ => false

/-- Where entries stand, the new entry joins them in a list. -/
theorem appendEntry_of_entries {dom : Dict} (h : hasNodeEntries dom = true) (e : Dict) :
    ∃ n, Dict.get? dom "nodelist" = some (.dict n) ∧ nodeSlot dom = true ∧
      appendEntry dom e = Dict.set dom "nodelist"
        (.dict (Dict.set n "node" (.list (confParserGetAll dom "nodelist.node" ++ [.dict e])))) := by
  unfold hasNodeEntries at h
  cases hnl : Dict.get? dom "nodelist" with
  | none => simp [hnl] at h
  | some w =>
    cases w with
    | dict n =>
      refine ⟨n, rfl, ?_⟩
      cases hn : Dict.get? n "node" with
      | none => simp [hnl, hn] at h
      | some x =>
        cases x <;> simp [hnl, hn, nodeSlot, appendEntry, confParserGetAll_nodes_of_dict hnl,
          Value.elems] at h ⊢
    | _ => simp [hnl] at h

theorem pyListIndex_last {l : List Value} {x : Value} (h : x ∉ l) :
    pyListIndex (l ++ [x]) x = .ok l.length := by
  have hnone : l.findIdx? (fun y => decide (y = x)) = none :=
    List.findIdx?_eq_none_iff.2 fun y hy => by simpa using fun hyx : y = x => h (hyx ▸ hy)
  simp [pyListIndex, hnone]

/-- Entries that each hold a `ring0_addr` other than `a`: `get_all` reads one address per
entry, and not `a`. -/
theorem ring0s_of_entries {a : String} :
    ∀ {es : List Value}, (∀ v ∈ es, ∃ d b, v = .dict d ∧ Dict.get? d "ring0_addr" = some (.str b) ∧ b ≠ a) →
      (domQueryGetAll ["ring0_addr"] (.list es)).length = es.length ∧
        Value.str a ∉ domQueryGetAll ["ring0_addr"] (.list es)
  | [], _ => by simp [domQueryGetAll, Value.elems]
  | v :: es, h => by
    obtain ⟨d, b, rfl, hb, hba⟩ := h v (List.mem_cons_self _ _)
    obtain ⟨hlen, hnot⟩ := ring0s_of_entries fun w hw => h w (List.mem_cons_of_mem _ hw)
    rw [domQueryGetAll_key_cons, domQueryGetAll_key hb]
    exact ⟨by simp [hlen], by simp [hnot, Ne.symm hba]⟩

/-- **`del_node` undoes `add_node_config`.**  On a tree with node entries, each holding a
`ring0_addr` other than the new node's first address, when `find_configured_ip` passes and
`get_free_nodeid` returns, `add_node_config` returns, `del_node` of that address on its
result returns, and `get_all('nodelist.node')` reads the entries it read before; no
top-level key but `nodelist` has changed. -/
theorem delNode_undoes_addNodeConfig {corosyncIplist : List String} {isIpv6 : String → Bool}
    {localIpList : Bool → List String} {thisNode a0 : String} {rest : List String} {dom : Dict}
    {nodeid : Int} (hfind : findConfiguredIp corosyncIplist isIpv6 localIpList (a0 :: rest) = .ok ())
    (hid : getFreeNodeid (confParserGetAll dom "nodelist.node.nodeid") = .ok nodeid)
    (he : hasNodeEntries dom = true)
    (hring0 : ∀ v ∈ confParserGetAll dom "nodelist.node",
      ∃ d b, v = .dict d ∧ Dict.get? d "ring0_addr" = some (.str b) ∧ b ≠ a0) :
    ∃ d₁ d₂, addNodeConfig corosyncIplist isIpv6 localIpList thisNode (a0 :: rest) dom = .ok d₁ ∧
      delNode a0 d₁ = .ok d₂ ∧
      confParserGetAll d₂ "nodelist.node" = confParserGetAll dom "nodelist.node" ∧
      ∀ k, k ≠ "nodelist" → Dict.get? d₂ k = Dict.get? dom k := by
  obtain ⟨n, hnl, hs, happ⟩ := appendEntry_of_entries he (newEntry (a0 :: rest) thisNode nodeid)
  set es := confParserGetAll dom "nodelist.node"
  set entry := newEntry (a0 :: rest) thisNode nodeid
  have hpath : getPath (appendEntry dom entry) "nodelist" "node" = .ok (.list (es ++ [.dict entry])) := by
    simp [happ, getPath, Value.getItem, bind, Except.bind]
  have hfirst : Dict.get? entry "ring0_addr" = some (.str a0) := by
    simp [entry, newEntry, ringEntries, List.enum_cons, show ringKey 0 = "ring0_addr" by decide]
  obtain ⟨hlen, hnot⟩ := ring0s_of_entries hring0
  have hindex : pyListIndex (confParserGetAll (appendEntry dom entry) "nodelist.node.ring0_addr")
      (.str a0) = .ok es.length := by
    rw [show "nodelist.node.ring0_addr" = "nodelist.node." ++ "ring0_addr" from rfl,
      confParserGetAll_entryKey hpath (by decide), domQueryGetAll_key_append,
      domQueryGetAll_key hfirst, pyListIndex_last hnot, hlen]
  have hremove : confParserRemove (appendEntry dom entry) "nodelist.node" es.length =
      .ok (Dict.set dom "nodelist" (.dict (Dict.set n "node" (.list es)))) := by
    have herase : (es ++ [Value.dict entry]).eraseIdx es.length = es := by
      simp [List.eraseIdx_append_of_length_le]
    simp [confParserRemove, pySplit_nodelist_node,
      domQueryRemove, happ, herase, Dict.set_set, Except.map]
  refine ⟨_, Dict.set dom "nodelist" (.dict (Dict.set n "node" (.list es))),
    addNodeConfig_eq hfind hs hid, by simp [delNode, hindex, hremove, bind, Except.bind],
    ?_, fun k hk => by simp [Dict.get?_set_ne hk]⟩
  rw [confParserGetAll_nodes_of_dict Dict.get?_set_self]
  simp [Value.elems]

/-- `gamma` joins the two-node tree and is deleted again by its first address. -/
theorem gamma_joins_and_leaves :
    findConfiguredIp [] (fun _ => false) (fun _ => []) ["10.0.0.3", "10.1.0.3"] = .ok () ∧
      getFreeNodeid (confParserGetAll twoNodeTree "nodelist.node.nodeid") = .ok 3 ∧
      hasNodeEntries twoNodeTree = true ∧
      (∀ v ∈ confParserGetAll twoNodeTree "nodelist.node",
        ∃ d b, v = .dict d ∧ Dict.get? d "ring0_addr" = some (.str b) ∧ b ≠ "10.0.0.3") ∧
      ∃ d₁ d₂, addNodeConfig [] (fun _ => false) (fun _ => []) "gamma" ["10.0.0.3", "10.1.0.3"]
          twoNodeTree = .ok d₁ ∧ delNode "10.0.0.3" d₁ = .ok d₂ ∧
        confParserGetAll d₂ "nodelist.node" = confParserGetAll twoNodeTree "nodelist.node" ∧
        ∀ k, k ≠ "nodelist" → Dict.get? d₂ k = Dict.get? twoNodeTree k :=
  have h₁ : findConfiguredIp [] (fun _ => false) (fun _ => []) ["10.0.0.3", "10.1.0.3"] = .ok () := by
    decide
  have h₂ : getFreeNodeid (confParserGetAll twoNodeTree "nodelist.node.nodeid") = .ok 3 := by
    decide
  have h₃ : hasNodeEntries twoNodeTree = true := rfl
  have h₄ : ∀ v ∈ confParserGetAll twoNodeTree "nodelist.node",
      ∃ d b, v = .dict d ∧ Dict.get? d "ring0_addr" = some (.str b) ∧ b ≠ "10.0.0.3" := by
    intro v hv
    rw [show confParserGetAll twoNodeTree "nodelist.node" = [
      .dict [("ring0_addr", .str "10.0.0.1"), ("name", .str "alpha"), ("nodeid", .str "1")],
      .dict [("ring0_addr", .str "10.0.0.2"), ("name", .str "beta"), ("nodeid", .str "2")]] by rfl] at hv
    rcases List.mem_pair.1 hv with rfl | rfl
    · exact ⟨_, "10.0.0.1", rfl, rfl, by decide⟩
    · exact ⟨_, "10.0.0.2", rfl, rfl, by decide⟩
  ⟨h₁, h₂, h₃, h₄, delNode_undoes_addNodeConfig h₁ h₂ h₃ h₄⟩

end Crmsh
