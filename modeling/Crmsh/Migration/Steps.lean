import Crmsh.LinkManager.Links
import Crmsh.ConfParser

/-!
# Migrating corosync.conf to knet

`migration.migrate_corosync_conf_impl` rewrites a corosync 2 tree in place into the knet
schema of corosync 3, in four steps: `ConfParser.transform_dom_with_list_schema`, then the
transport (`migrate_transport`, which for multicast rebuilds the node list from the CIB
and the members' own corosync.conf), the hash algorithm (`migrate_crypto`) and the
redundant rings (`migrate_rrp`).

Each step is modelled as a function from the tree to the tree it leaves, or the exception
it raises.  A raise aborts `migrate_corosync_conf` before it writes anything, so the
half-migrated tree is never seen and is not kept.  The CIB's node list and the members'
configurations are the inputs of the migration: a `CibNode` is an entry of `Cib.nodes()`,
and `peers uname` is what fetching and parsing that member's corosync.conf gives, or the
exception it raises.

`migration_output_rejected_by_links` shows four migrations that return normally with a
tree the link manager rejects.
-/

namespace Crmsh

/-- `Cib.Node`: a node of the CIB, with its id and name. -/
structure CibNode where
  nodeId : Int
  uname : String
  deriving Repr, DecidableEq

/-- Python's `for x in v`: the elements of a list, the keys of a section, the characters
of a string. -/
def Value.iter : Value → List Value
  | .list l => l
  | .dict d => d.map fun p => .str p.1
  | .str s => s.toList.map fun c => .str (String.singleton c)

/-- A loop `for x in v` whose body changes `x` in place.  Over a list every element
becomes what the body makes of it; over a section or a string the body sees strings,
which it cannot change. -/
def forEachInPlace (body : Value → Except PyExc Value) : Value → Except PyExc Value
  | .list l => .list <$> l.mapM body
  | v => do
    let _ ← v.iter.mapM body
    return v

/-! ## `transform_dom_with_list_schema` -/

/-- Puts back the section `DomQuery.get` read at `[sec]`: the value under `sec`, or the
first element of the list there. -/
def setFirst (dom : Dict) (sec : String) (parent : Value) : Dict :=
  match Dict.get? dom sec with
  | some (.list l) => Dict.set dom sec (.list (l.set 0 parent))
  | _ => Dict.set dom sec parent

/-- One list-capable path `sec.key` of `transform_dom_with_list_schema`:
`query.get((sec,))` finds the parent section, and a lone node under `key` there is
wrapped in a one-element list, in place.  A `KeyError` on the way is caught; any other
exception gets out. -/
def wrapListSection (dom : Dict) (sec key : String) : Except PyExc Dict :=
  match domQueryGet 0 (.dict dom) [sec] with
  | .error (.keyError _) => .ok dom
  | .error e => .error e
  | .ok parent =>
    match parent.getItem key with
    | .error (.keyError _) => .ok dom
    | .error e => .error e
    | .ok (.list _) => .ok dom
    | .ok node => .ok (setFirst dom sec (parent.setItem key (.list [node])))

/-- `ConfParser.transform_dom_with_list_schema`, over the list-capable paths in the order
they are written (each has two keys). -/
def transformDomWithListSchema (dom : Dict) : Except PyExc Dict :=
  knownSecNamesWithList.foldlM
    (fun dom item => wrapListSection dom (item.headD "") (item.getLastD "")) dom

/-! ## `migrate_transport` -/

/-- The keys only udp uses, which every interface loses. -/
def udpOnlyKeys : List String := ["mcastaddr", "bindnetaddr", "broadcast", "ttl"]

/-- The loop body over `totem.interface` in `migrate_udpu` and `migrate_multicast`: the
udp-only keys go, and `ringnumber` becomes `linknumber`.  A string has no `pop`, and a
list's `pop` takes no default. -/
def migrateInterface : Value → Except PyExc Value
  | .dict d =>
    let d := udpOnlyKeys.foldl Dict.erase d
    match Dict.get? d "ringnumber" with
    | some r => .ok (.dict (Dict.set (Dict.erase d "ringnumber") "linknumber" r))
    | none => .ok (.dict d)
  | .list _ => .error .typeError
  | .str _ => .error .attributeError

/-- `if 'quorum' in dom: dom['quorum'].pop('expected_votes', None)`. -/
def dropExpectedVotes (dom : Dict) : Except PyExc Dict :=
  match Dict.get? dom "quorum" with
  | none => .ok dom
  | some (.dict q) => .ok (Dict.set dom "quorum" (.dict (Dict.erase q "expected_votes")))
  | some (.list _) => .error .typeError
  | some (.str _) => .error .attributeError

/-- The first lines of `migrate_udpu` and `migrate_multicast`: knet, without compression. -/
def setKnet (totem : Dict) : Dict :=
  Dict.set (Dict.set totem "transport" (.str "knet")) "knet_compression_model" (.str "none")

/-- The interface loop of `migrate_udpu`, run when `totem` has interfaces. -/
def udpuInterfaces (totem : Dict) : Except PyExc Dict :=
  match Dict.get? totem "interface" with
  | some interfaces => (Dict.set totem "interface" ·) <$> forEachInPlace migrateInterface interfaces
  | none => .ok totem

/-- `migrate_udpu`, on the section `totem` of `dom`. -/
def migrateUdpu (totem dom : Dict) : Except PyExc Dict := do
  let totem ← udpuInterfaces (setKnet totem)
  dropExpectedVotes (Dict.set dom "totem" (.dict totem))

/-- `root['totem']['interface']` of a member's own configuration, after
`transform_dom_with_list_schema`. -/
def memberInterfaces (peers : String → Except PyExc Dict) (uname : String) :
    Except PyExc Value := do
  let root ← transformDomWithListSchema (← peers uname)
  getPath root "totem" "interface"

/-- The node-list entry `migrate_multicast` builds for a CIB node: its id and name, and
`ring{i}_addr` for the `bindnetaddr` of the `i`-th interface of the member's own
configuration. -/
def nodeEntry (peers : String → Except PyExc Dict) (node : CibNode) : Except PyExc Dict := do
  let interfaces ← memberInterfaces peers node.uname
  let addresses ← interfaces.iter.enum.mapM fun (i, x) => do
    return (ringKey i, ← x.getItem "bindnetaddr")
  return [("nodeid", .str (pyStr node.nodeId)), ("name", .str node.uname)] ++ addresses

/-- `migrate_multicast`, on the section `totem` of `dom`. -/
def migrateMulticast (cib : List CibNode) (peers : String → Except PyExc Dict)
    (totem dom : Dict) : Except PyExc Dict := do
  let totem := setKnet totem
  let interfaces ← (Value.dict totem).getItem "interface"
  let interfaces ← forEachInPlace migrateInterface interfaces
  let dom := Dict.set dom "totem" (.dict (Dict.set totem "interface" interfaces))
  if Dict.hasKey dom "nodelist" then throw .assertionError
  let nodelist ← cib.mapM (nodeEntry peers)
  dropExpectedVotes (Dict.set dom "nodelist" (.dict [("node", .list (nodelist.map .dict))]))

/-- The probe `dom['totem']['interface'][0]['bindnetaddr']` of `migrate_transport`, whose
`KeyError` is caught: indexing an empty list or string, or a string by a key, still
raises. -/
def bindnetaddrProbe (totem : Dict) : Except PyExc Unit :=
  match Dict.get? totem "interface" with
  | some (.list []) => .error .indexError
  | some (.list (.dict _ :: _)) => .ok ()
  | some (.list (_ :: _)) => .error .typeError
  | some (.str s) => if s.isEmpty then .error .indexError else .error .typeError
  | _ => .ok ()

/-- `migrate_transport`: knet is left as it is, udpu and udp are migrated, and without a
known transport a tree with no node list is taken for multicast. -/
def migrateTransport (cib : List CibNode) (peers : String → Except PyExc Dict) (dom : Dict) :
    Except PyExc Dict :=
  match Dict.get? dom "totem" with
  | some (.dict totem) =>
    match Dict.get? totem "transport" with
    | some (.str "knet") => .ok dom
    | some (.str "udpu") => migrateUdpu totem dom
    | some (.str "udp") => migrateMulticast cib peers totem dom
    | _ => do
      bindnetaddrProbe totem
      if Dict.hasKey dom "nodelist" then return dom
      migrateMulticast cib peers totem dom
  | some _ => .error .attributeError
  | none => .error (.keyError "totem")

/-! ## `migrate_crypto` and `migrate_rrp` -/

/-- `migrate_crypto`: a `crypto_hash` of `sha1` becomes `sha256`.  Its `except KeyError`
is reached only without a `totem` section, where its own write raises again. -/
def migrateCrypto (dom : Dict) : Except PyExc Dict :=
  match Dict.get? dom "totem" with
  | some (.dict totem) =>
    if Dict.get? totem "crypto_hash" = some (.str "sha1") then
      .ok (Dict.set dom "totem" (.dict (Dict.set totem "crypto_hash" (.str "sha256"))))
    else .ok dom
  | some _ => .error .attributeError
  | none => .error (.keyError "totem")

/-- The `rrp_mode` part of `migrate_rrp`: the key goes, and `active` becomes
`link_mode: active`; a missing key is a caught `KeyError`. -/
def dropRrpMode (dom : Dict) : Except PyExc Dict :=
  match Dict.get? dom "totem" with
  | some (.dict totem) =>
    match Dict.get? totem "rrp_mode" with
    | none => .ok dom
    | some mode =>
      let totem := Dict.erase totem "rrp_mode"
      .ok (Dict.set dom "totem" (.dict
        (if mode = .str "active" then Dict.set totem "link_mode" (.str "active") else totem)))
  | some _ => .error .typeError
  | none => .ok dom

/-- `populate_node_name`: every entry takes the name the CIB gives its id, the last CIB
node with that id winning, as in the dict comprehension. -/
def populateNodeName (cib : List CibNode) (nodes : Value) : Except PyExc Value :=
  forEachInPlace (fun node => do
    let nodeId ← entryNodeid node
    match cib.reverse.find? (·.nodeId = nodeId) with
    | some c => return node.setItem "name" (.str c.uname)
    | none => throw (.keyError (pyStr nodeId))) nodes

/-- `migrate_rrp`: for a node list with a second ring, `rrp_mode` goes, and the entries
are named from the CIB when one of them has no name. -/
def migrateRrp (cib : List CibNode) (dom : Dict) : Except PyExc Dict :=
  match Dict.get? dom "nodelist" with
  | none => .ok dom
  | some nodelist =>
    match nodelist.getItem "node" with
    | .error (.keyError _) => .ok dom
    | .error e => .error e
    | .ok nodes =>
      if !nodes.iter.any (·.contains "ring1_addr") then .ok dom else do
        let dom ← dropRrpMode dom
        unless nodes.iter.all (·.contains "nodeid") do throw .assertionError
        if nodes.iter.all (·.contains "name") then return dom
        return Dict.set dom "nodelist" (nodelist.setItem "node" (← populateNodeName cib nodes))

/-- `migrate_corosync_conf_impl`. -/
def migrateCorosyncConfImpl (cib : List CibNode) (peers : String → Except PyExc Dict)
    (config : Dict) : Except PyExc Dict := do
  unless Dict.hasKey config "totem" do throw .assertionError
  let config ← transformDomWithListSchema config
  let config ← migrateTransport cib peers config
  let config ← migrateCrypto config
  migrateRrp cib config

/-- A migration that returns has returned from each of its four steps. -/
theorem migrateCorosyncConfImpl_steps {cib : List CibNode} {peers : String → Except PyExc Dict}
    {dom d1 : Dict} (h : migrateCorosyncConfImpl cib peers dom = .ok d1) :
    ∃ dA dB dC, transformDomWithListSchema dom = .ok dA ∧ migrateTransport cib peers dA = .ok dB ∧
      migrateCrypto dB = .ok dC ∧ migrateRrp cib dC = .ok d1 := by
  unfold migrateCorosyncConfImpl at h
  dsimp only at h
  split_ifs at h
  swap; · simp at h
  simp only [Except.bind_eq_ok, Except.pure_eq_ok] at h
  obtain ⟨-, -, dA, hA, dB, hB, dC, hC, hD⟩ := h
  exact ⟨dA, dB, dC, hA, hB, hC, hD⟩

/-- A udpu tree: knet without compression, interfaces without their udp keys and with
`linknumber`, and no `expected_votes`. -/
example : migrateCorosyncConfImpl [] (fun _ => .error .assertionError)
    [("totem", .dict [("transport", .str "udpu"), ("interface", .list [
        .dict [("ringnumber", .str "0"), ("mcastport", .str "5405"), ("ttl", .str "1")],
        .dict [("ringnumber", .str "1"), ("bindnetaddr", .str "10.1.0.0")]])]),
     ("quorum", .dict [("provider", .str "corosync_votequorum"), ("expected_votes", .str "2")])] =
    .ok [("totem", .dict [("transport", .str "knet"), ("interface", .list [
        .dict [("mcastport", .str "5405"), ("linknumber", .str "0")],
        .dict [("linknumber", .str "1")]]), ("knet_compression_model", .str "none")]),
     ("quorum", .dict [("provider", .str "corosync_votequorum")])] := by
  decide

/-- A two-ring node list with `rrp_mode: active`: the mode becomes `link_mode`, `sha1`
becomes `sha256`, and since one entry has no name every entry is named from the CIB. -/
example : migrateCorosyncConfImpl [⟨1, "alpha"⟩, ⟨2, "beta"⟩] (fun _ => .error .assertionError)
    [("totem", .dict [("transport", .str "knet"), ("rrp_mode", .str "active"),
      ("crypto_hash", .str "sha1")]),
     ("nodelist", .dict [("node", .list [
       .dict [("ring0_addr", .str "10.0.0.1"), ("ring1_addr", .str "10.1.0.1"), ("nodeid", .str "1")],
       .dict [("ring0_addr", .str "10.0.0.2"), ("ring1_addr", .str "10.1.0.2"), ("nodeid", .str "2"),
         ("name", .str "b")]])])] =
    .ok [("totem", .dict [("transport", .str "knet"), ("crypto_hash", .str "sha256"),
      ("link_mode", .str "active")]),
     ("nodelist", .dict [("node", .list [
       .dict [("ring0_addr", .str "10.0.0.1"), ("ring1_addr", .str "10.1.0.1"), ("nodeid", .str "1"),
         ("name", .str "alpha")],
       .dict [("ring0_addr", .str "10.0.0.2"), ("ring1_addr", .str "10.1.0.2"), ("nodeid", .str "2"),
         ("name", .str "beta")]])])] := by
  decide

/-- Four migrations that return normally with a tree `links()` rejects.  Multicast members
whose own configurations declare two and one interfaces give entries with different
rings, and `links()` misses `ring1_addr` on the second; a udpu tree keeps its node list
as it was, here a lone entry without a name; an empty CIB gives an empty node list; and
an interface record keeps a `mcastport` that does not read as an integer. -/
theorem migration_output_rejected_by_links :
    (migrateCorosyncConfImpl [⟨1, "alpha"⟩, ⟨2, "beta"⟩]
        (fun u => .ok [("totem", .dict [("interface", .list
          ((if u = "alpha" then ["10.0.0.1", "10.1.0.1"] else ["10.0.0.2"]).map fun a =>
            .dict [("bindnetaddr", .str a)]))])])
        [("totem", .dict [("transport", .str "udp"),
          ("interface", .dict [("ringnumber", .str "0"), ("bindnetaddr", .str "10.0.0.0")])])]).map
      links = .ok (.error (.keyError "ring1_addr")) ∧
    (migrateCorosyncConfImpl [] (fun _ => .error .assertionError)
        [("totem", .dict [("transport", .str "udpu")]),
         ("nodelist", .dict [("node", .dict [("ring0_addr", .str "10.0.0.1"),
           ("nodeid", .str "1")])])]).map links =
      .ok (.error .assertionError) ∧
    (migrateCorosyncConfImpl [] (fun _ => .error .assertionError)
        [("totem", .dict [("transport", .str "udp"),
          ("interface", .dict [("ringnumber", .str "0"), ("bindnetaddr", .str "10.0.0.0")])])]).map
      links = .ok (.error .assertionError) ∧
    (migrateCorosyncConfImpl [⟨1, "alpha"⟩]
        (fun _ => .ok [("totem", .dict [("interface", .dict [("bindnetaddr", .str "10.0.0.1")])])])
        [("totem", .dict [("transport", .str "udp"), ("interface", .dict [("ringnumber", .str "0"),
          ("bindnetaddr", .str "10.0.0.0"), ("mcastport", .str "x")])])]).map links =
      .ok (.error (.valueError "invalid literal for int() with base 10: 'x'")) := by
  decide

end Crmsh
