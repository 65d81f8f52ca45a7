import Crmsh.LinkManager.Links

/-!
# The link manager's operations

`update_link`, `update_node_addr`, `add_link` and `remove_link` each call `links()`,
check their arguments against it, and then write into the tree in place.  Each is
modelled as a function from the tree to an `Outcome`: the tree it leaves and the
exception it raised, if any.  Writes made before an exception stay in the outcome, as they
stay in the Python dicts.

`utils.IP(a).ip_address`, the canonical form used for address uniqueness, lives outside
this repository; it is the parameter `canon`, `none` standing for the `ValueError` of an
invalid address.  `runLinkOps` strings calls together, each on the tree the previous one
left, whether it returned or raised.
-/

namespace Crmsh

variable {α : Type} [DecidableEq α]

/-- The message of the guard shared by the operations on one link. -/
def linkNotExist (linknumber : Int) : PyExc :=
  .valueError ("Link " ++ pyStr linknumber ++ " does not exist.")

/-- The guard `update_link`, `update_node_addr` and `remove_link` share:
`linknumber >= KNET_LINK_NUM_LIMIT or links[linknumber] is None` raises, and otherwise
`links[linknumber]` is the link.  Python's indexing takes a negative `linknumber` from
the end. -/
def existingLink (links : List (Option Link)) (linknumber : Int) : Except PyExc Link :=
  if linknumber ≥ knetLinkNumLimit then .error (linkNotExist linknumber) else
  match pyIndex links linknumber with
  | .ok (some l) => .ok l
  | .ok none => .error (linkNotExist linknumber)
  | .error e => .error e

/-- `config['nodelist']['node'] = nodes` where that list already stands. -/
def setNodes (config : Dict) (nodes : List Value) : Dict :=
  match Dict.get? config "nodelist" with
  | some nodelist => Dict.set config "nodelist" (nodelist.setItem "node" (.list nodes))
  | none => config

/-! ## `update_link` -/

/-- The index of the first record `x` with `x.get('linknumber', -1) == s`; a record that
is not a section has no `get` and raises. -/
def findRecord (s : String) : List Value → Nat → Except PyExc (Option Nat)
  | [], _ => .ok none
  | .dict r :: rest, i =>
    if Dict.get? r "linknumber" = some (.str s) then .ok (some i) else findRecord s rest (i + 1)
  | _ :: _, _ => .error .attributeError

/-- One turn of `update_link`'s loop over `dataclasses.asdict(link)`: `interface[k] =
str(v)`, or `interface.pop(k, None)` when `v` is `None`. -/
def writeOption (link : Link) (record : Dict) (f : LinkField) : Dict :=
  match link.optionText f with
  | some t => Dict.set record f.name (.str t)
  | none => Dict.erase record f.name

/-- The loop of `update_link` over `dataclasses.asdict(link)`, on the updatable fields. -/
def writeOptions (link : Link) (record : Dict) : Dict :=
  linkOptionsUpdatable.foldl (writeOption link) record

/-- The `totem.interface` list after `update_link` has merged `link`'s options into the
record of `linknumber_str` at `index` (or a new one): a record left with only its
`linknumber` is deleted or never added, any other is kept in place or appended. -/
def placeRecord (interfaces : List Value) (index : Option Nat) (record : Dict) : List Value :=
  match index, Dict.len record == 1 with
  | some i, true => interfaces.eraseIdx i
  | some i, false => interfaces.set i (.dict record)
  | none, true => interfaces
  | none, false => interfaces ++ [.dict record]

/-- The error `update_link` raises for the first option it does not know. -/
def unsupportedOption (option : String) : PyExc :=
  .valueError ("Updating option \"" ++ option ++ "\" is not supported. Updatable options: " ++
    ", ".intercalate (linkOptionsUpdatable.map LinkField.name))

/-- `self._config['totem']['interface']` as `update_link` reads it: a missing key is a
fresh empty list. -/
def interfacesOf (totem : Value) : Except PyExc (List Value) :=
  match totem.getItem "interface" with
  | .ok (.list l) => .ok l
  | .ok _ => .error .assertionError
  | .error (.keyError _) => .ok []
  | .error e => .error e

/-- The record `update_link` edits: the one found at `index`, or a new
`{'linknumber': str(linknumber)}`. -/
def recordAt (interfaces : List Value) (index : Option Nat) (linknumber : Int) : Dict :=
  match index.bind interfaces.get? with
  | some (.dict r) => r
  | _ => [("linknumber", .str (pyStr linknumber))]

/-- The last statement of `update_link`: an empty list deletes a `totem.interface` that
was there; any other list is stored. -/
def storeInterfaces (totem : Value) (interfaces : List Value) : Value :=
  if interfaces = [] ∧ totem.contains "interface" then
    match totem with
    | .dict t => .dict (Dict.erase t "interface")
    | t => t
  else totem.setItem "interface" (.list interfaces)

/-- `LinkManager.update_link`. -/
def updateLink (config : Dict) (linknumber : Int) (options : PyDict String (Option String)) :
    Outcome :=
  match links config >>= fun ls => existingLink ls linknumber with
  | .error e => .raised e config
  | .ok link =>
  if (options.get? "nodes").isSome then .raised (.valueError "Unknown option \"nodes\".") config
  else match options.items.find? fun p => p.1 ∉ linkOptionsUpdatable.map LinkField.name with
  | some (option, _) => .raised (unsupportedOption option) config
  | none =>
  match link.loadOptions (optionsSource options) with
  | .error e => .raised e config
  | .ok link =>
  match Dict.get? config "totem" with
  | none => .raised .assertionError config
  | some totem =>
  match interfacesOf totem >>= fun l => (findRecord (pyStr linknumber) l 0).map (l, ·) with
  | .error e => .raised e config
  | .ok (interfaces, index) =>
  let record := writeOptions link (recordAt interfaces index linknumber)
  .ok (Dict.set config "totem" (storeInterfaces totem (placeRecord interfaces index record)))

/-- A two-node knet tree with link 0 only and no `totem.interface`. -/
def twoNodeTree : Dict :=
  [("totem", .dict [("transport", .str "knet")]),
    ("nodelist", .dict [("node", .list [
      .dict [("ring0_addr", .str "10.0.0.1"), ("name", .str "alpha"), ("nodeid", .str "1")],
      .dict [("ring0_addr", .str "10.0.0.2"), ("name", .str "beta"), ("nodeid", .str "2")]])])]

/-- Resetting the options of a link that has no record, in a tree without
`totem.interface`, leaves `totem.interface` behind as an empty list: the clean-up only
deletes a key that was there before. -/
theorem updateLink_leaves_empty_interface :
    updateLink twoNodeTree 0 ⟨[], List.nodup_nil⟩ =
      .ok (Dict.set twoNodeTree "totem"
        (.dict [("transport", .str "knet"), ("interface", .list [])])) := by
  decide

/-! ## `update_node_addr` -/

/-- `utils.IP(a).ip_address`: the canonical form of an address, `ValueError` for one that
is not an IP address. -/
def ipAddress (canon : String → Option α) (a : Value) : Except PyExc α :=
  match a with
  | .str s =>
    match canon s with
    | some c => .ok c
    | none => .error (.valueError (a.repr ++ " does not appear to be an IPv4 or IPv6 address"))
  | _ => .error (.valueError (a.repr ++ " does not appear to be an IPv4 or IPv6 address"))

/-- `existing_addr_node_map`: the canonical form of every non-empty address of every
present link, mapped to its node; a later node wins a shared address. -/
def existingAddrNodeMap (canon : String → Option α) (links : List (Option Link)) :
    Except PyExc (α → Option Int) :=
  (links.filterMap id).foldlM (fun m link =>
    link.nodes.foldlM (fun m node =>
      if node.addr = .str "" then pure m
      else do
        let c ← ipAddress canon node.addr
        pure fun c' => if c' = c then some node.nodeid else m c') m) fun _ => none

/-- `links[linknumber].nodes`, as the loop of `__upsert_node_addr_impl` reads it. -/
def rosterAt (links : List (Option Link)) (linknumber : Int) : Except PyExc (List LinkNode) :=
  match pyIndex links linknumber with
  | .ok (some l) => .ok l.nodes
  | .ok none => .error .attributeError
  | .error e => .error e

/-- The loop of `__upsert_node_addr_impl` over `node_addresses.items()`: every node must
be on the link, and an address that changes must not be in the index, which then maps
it to its node.  (The loop also sets `found.addr`; nothing reads it afterwards.) -/
def upsertCheck (canon : String → Option α) (roster : Except PyExc (List LinkNode)) :
    (α → Option Int) → List (Int × String) → Except PyExc (α → Option Int)
  | m, [] => .ok m
  | m, (nodeid, addr) :: rest => do
    let some found := (← roster).find? (·.nodeid = nodeid)
      | throw (.valueError ("Unknown nodeid " ++ pyStr nodeid ++ "."))
    let c ← ipAddress canon (.str addr)
    let changed ← if found.addr = .str "" then pure true
      else do pure (decide ((← ipAddress canon found.addr) ≠ c))
    if changed then
      if let some existing := m c then throw (.duplicatedNodeAddress addr nodeid existing)
    upsertCheck canon roster (fun c' => if c' = c then some found.nodeid else m c') rest

/-- The write loop of `__upsert_node_addr_impl`: each node entry whose id is in
`node_addresses` gets `ring{linknumber}_addr`.  It stops at an entry whose `nodeid` does
not convert, with the entries before it already written. -/
def writeNodeAddrs (linknumber : Int) (addrs : PyDict Int String) :
    List Value → Option PyExc × List Value
  | [] => (none, [])
  | .dict node :: nodes =>
    match (Value.dict node).getItem "nodeid" >>= Value.toInt with
    | .error e => (some e, .dict node :: nodes)
    | .ok id =>
      let node := match addrs.get? id with
        | some a => Dict.set node (ringKey linknumber) (.str a)
        | none => node
      let (e, nodes) := writeNodeAddrs linknumber addrs nodes
      (e, .dict node :: nodes)
  | node :: nodes => (some .typeError, node :: nodes)

/-- `LinkManager.__upsert_node_addr_impl`. -/
def upsertNodeAddrImpl (canon : String → Option α) (config : Dict)
    (links : List (Option Link)) (linknumber : Int) (addrs : PyDict Int String) : Outcome :=
  match existingAddrNodeMap canon links >>=
      fun m => upsertCheck canon (rosterAt links linknumber) m addrs.items with
  | .error e => .raised e config
  | .ok _ =>
  match getPath config "nodelist" "node" with
  | .ok (.list nodes) =>
    match writeNodeAddrs linknumber addrs nodes with
    | (none, nodes) => .ok (setNodes config nodes)
    | (some e, nodes) => .raised e (setNodes config nodes)
  | .ok _ => .raised .assertionError config
  | .error e => .raised e config

/-- `LinkManager.update_node_addr`. -/
def updateNodeAddr (canon : String → Option α) (config : Dict) (linknumber : Int)
    (addrs : PyDict Int String) : Outcome :=
  match links config >>= fun ls => (existingLink ls linknumber).map fun _ => ls with
  | .error e => .raised e config
  | .ok ls => upsertNodeAddrImpl canon config ls linknumber addrs

/-- A two-node knet tree with links 0 and 7. -/
def edgeLinkTree : Dict :=
  [("totem", .dict [("transport", .str "knet")]),
    ("nodelist", .dict [("node", .list [
      .dict [("ring0_addr", .str "10.0.0.1"), ("ring7_addr", .str "10.7.0.1"),
        ("name", .str "alpha"), ("nodeid", .str "1")],
      .dict [("ring0_addr", .str "10.0.0.2"), ("ring7_addr", .str "10.7.0.2"),
        ("name", .str "beta"), ("nodeid", .str "2")]])])]

/-- Link number `-1` names no link, yet with link 7 present it passes the guard, as
`links[-1]` is slot 7: `update_link` writes a record with `linknumber: -1`, and
`update_node_addr` writes `ring-1_addr` (canonical forms taken as the addresses'
text, which are distinct valid IPv4 addresses). -/
theorem negative_linknumber_passes_guard :
    updateLink edgeLinkTree (-1) ⟨[("mcastport", some "5405")], by decide⟩ =
      .ok (Dict.set edgeLinkTree "totem" (.dict [("transport", .str "knet"),
        ("interface", .list [.dict [("linknumber", .str "-1"), ("mcastport", .str "5405")]])])) ∧
    updateNodeAddr some edgeLinkTree (-1) ⟨[(1, "10.9.0.1")], by decide⟩ =
      .ok (setNodes edgeLinkTree [
        .dict [("ring0_addr", .str "10.0.0.1"), ("ring7_addr", .str "10.7.0.1"),
          ("name", .str "alpha"), ("nodeid", .str "1"), ("ring-1_addr", .str "10.9.0.1")],
        .dict [("ring0_addr", .str "10.0.0.2"), ("ring7_addr", .str "10.7.0.2"),
          ("name", .str "beta"), ("nodeid", .str "2")]]) := by
  decide

/-! ## `add_link` and `remove_link` -/

/-- `Link(next_linknumber, [dataclasses.replace(node, addr='') for node in nodes])`: the
new link, with the nodes of an existing one and no addresses yet. -/
def blankLink (k : Nat) (first : Link) : Link :=
  { linknumber := k, nodes := first.nodes.map fun node => { node with addr := .str "" } }

/-- `LinkManager.add_link`: the lowest empty slot gets a link with every node of an
existing link, at the addresses given, and then the options. -/
def addLink (canon : String → Option α) (config : Dict) (addrs : PyDict Int String)
    (options : PyDict String (Option String)) : Outcome :=
  match links config with
  | .error e => .raised e config
  | .ok ls =>
  match ls.findIdx? Option.isNone with
  | none => .raised (.valueError ("Cannot add a new link. The maximum number of links " ++
      "supported is " ++ pyStr knetLinkNumLimit ++ ".")) config
  | some k =>
  match ls.findSome? id with
  | none => .raised .stopIteration config
  | some first =>
  let unspecified := (first.nodes.map LinkNode.nodeid).filter fun id => (addrs.get? id).isNone
  if unspecified ≠ [] then .raised (.missingNodes unspecified) config
  else
  let ls := ls.set k (some (blankLink k first))
  match upsertNodeAddrImpl canon config ls k addrs with
  | .raised e config => .raised e config
  | .ok config => updateLink config k options

/-- `add_link` writes the new link's addresses into every node entry before
`update_link` rejects an unknown option, so the call raises on a changed tree
(canonical forms taken as the addresses' text, all distinct valid IPv4 addresses). -/
theorem addLink_raises_after_writing :
    addLink some twoNodeTree ⟨[(1, "10.0.1.1"), (2, "10.0.1.2")], by decide⟩
        ⟨[("bogus", some "1")], by decide⟩ =
      .raised (unsupportedOption "bogus") (setNodes twoNodeTree [
        .dict [("ring0_addr", .str "10.0.0.1"), ("name", .str "alpha"), ("nodeid", .str "1"),
          ("ring1_addr", .str "10.0.1.1")],
        .dict [("ring0_addr", .str "10.0.0.2"), ("name", .str "beta"), ("nodeid", .str "2"),
          ("ring1_addr", .str "10.0.1.2")]]) := by
  rfl

/-- `for node in nodes: del node[key]`: it stops at the first entry without the key,
with the entries before it already changed. -/
def delItemAll (key : String) : List Value → Option PyExc × List Value
  | [] => (none, [])
  | .dict node :: nodes =>
    if Dict.hasKey node key then
      let (e, nodes) := delItemAll key nodes
      (e, .dict (Dict.erase node key) :: nodes)
    else (some (.keyError key), .dict node :: nodes)
  | node :: nodes => (some .typeError, node :: nodes)

/-- `[x for x in interfaces if int(x['linknumber']) != linknumber]`. -/
def keepOtherRecords (linknumber : Int) (interfaces : List Value) : Except PyExc (List Value) :=
  interfaces.filterM fun x => do
    let n ← x.getItem "linknumber" >>= Value.toInt
    pure (n ≠ linknumber)

/-- The second half of `remove_link`, on the tree whose entries have lost the ring:
the link's interface records go. -/
def removeRecords (config : Dict) (linknumber : Int) : Outcome :=
  match Dict.get? config "totem" with
  | none => .raised .assertionError config
  | some totem =>
  if !totem.contains "interface" then .ok config else
  match totem.getItem "interface" with
  | .ok (.list interfaces) =>
    match keepOtherRecords linknumber interfaces with
    | .ok kept => .ok (Dict.set config "totem" (totem.setItem "interface" (.list kept)))
    | .error e => .raised e config
  | .ok _ => .raised .assertionError config
  | .error e => .raised e config

/-- `LinkManager.remove_link`. -/
def removeLink (config : Dict) (linknumber : Int) : Outcome :=
  match links config >>= fun ls => (existingLink ls linknumber).map fun _ => ls with
  | .error e => .raised e config
  | .ok ls =>
  if (ls.filter Option.isSome).length ≤ 1 then
    .raised (.valueError "Cannot remove the last link.") config
  else
  match getPath config "nodelist" "node" with
  | .ok (.list nodes) =>
    match delItemAll (ringKey linknumber) nodes with
    | (none, nodes) => removeRecords (setNodes config nodes) linknumber
    | (some e, nodes) => .raised e (setNodes config nodes)
  | .ok _ => .raised .assertionError config
  | .error e => .raised e config

/-! ## Runs -/

/-- A call of the link manager's public interface. -/
inductive LinkOp where
  | updateLink (linknumber : Int) (options : PyDict String (Option String))
  | updateNodeAddr (linknumber : Int) (addrs : PyDict Int String)
  | addLink (addrs : PyDict Int String) (options : PyDict String (Option String))
  | removeLink (linknumber : Int)

/-- One call on the tree. -/
def LinkOp.apply (canon : String → Option α) (config : Dict) : LinkOp → Outcome
  | .updateLink n options => Crmsh.updateLink config n options
  | .updateNodeAddr n addrs => Crmsh.updateNodeAddr canon config n addrs
  | .addLink addrs options => Crmsh.addLink canon config addrs options
  | .removeLink n => Crmsh.removeLink config n

/-- The trees a sequence of calls passes through, starting from `config`: each call runs
on the tree the previous one left, whether that one returned or raised. -/
def runLinkOps (canon : String → Option α) : Dict → List LinkOp → List Dict
  | config, [] => [config]
  | config, op :: ops => config :: runLinkOps canon (op.apply canon config).dom ops

end Crmsh
