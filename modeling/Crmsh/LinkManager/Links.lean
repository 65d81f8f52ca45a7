import Crmsh.LinkManager.Link

/-!
# Deriving the links from the tree

`LinkManager.links` reconstructs the knet links from the tree on every call: slot `i` of
its eight is present when the *first* node entry has `ring{i}_addr`, and then lists every
entry's id, name and address on that ring, sorted by node id; the options of the
`totem.interface` record whose `linknumber` loads as `i` are merged in.  The operations
of the next file all start from this list.
-/

namespace Crmsh

/-- `KNET_LINK_NUM_LIMIT`. -/
def knetLinkNumLimit : Nat := 8

/-- The key `f'ring{i}_addr'` under which a node entry holds its address on link `i`. -/
def ringKey (i : Int) : String := "ring" ++ pyStr i ++ "_addr"

theorem ringKey_toList (i : Int) :
    (ringKey i).toList = ['r', 'i', 'n', 'g'] ++ (pyStr i).toList ++ ['_', 'a', 'd', 'd', 'r'] := by
  simp [ringKey, String.toList, String.append]

/-- Distinct links have distinct address keys. -/
theorem ringKey_injective : Function.Injective ringKey := by
  intro a b h
  have := congrArg String.toList h
  rw [ringKey_toList, ringKey_toList] at this
  simp only [List.append_assoc, List.append_cancel_left_eq, List.append_cancel_right_eq] at this
  exact pyStr_injective (String.ext this)

/-- An address key is no key that does not start with `ring`, such as `nodeid`. -/
theorem ringKey_ne {k : String} (hk : k.toList.take 4 ≠ ['r', 'i', 'n', 'g']) (i : Int) :
    ringKey i ≠ k := by
  rintro rfl
  rw [ringKey_toList] at hk
  simp at hk

/-- `config[a][b]`, the two-level lookup the link manager makes into its tree. -/
def getPath (config : Dict) (a b : String) : Except PyExc Value :=
  (Value.dict config).getItem a >>= (·.getItem b)

/-- `LinkManager.totem_transport`: `totem.transport`, and `'knet'` when a key on the
way is missing. -/
def totemTransport (config : Dict) : Except PyExc Value :=
  match getPath config "totem" "transport" with
  | .error (.keyError _) => .ok (.str "knet")
  | r => r

/-- `link_nodes.sort(key=lambda node: node.nodeid)`: a stable sort by node id. -/
def sortByNodeid (ns : List LinkNode) : List LinkNode :=
  ns.insertionSort fun a b => a.nodeid ≤ b.nodeid

/-- Slot `i` of `links` before options are merged: present when the first entry has
`ring{i}_addr`, and then every entry's `(id, name, ring{i}_addr)`, sorted by id. -/
def linkSlot (first : Value) (nodelist : List Value) (ids : List Int) (names : List Value)
    (i : Nat) : Except PyExc (Option Link) :=
  if first.contains (ringKey i) then
    (nodelist.mapM fun node : Value => node.getItem (ringKey i)).map fun addrs =>
      some { linknumber := i, nodes := sortByNodeid (List.zipWith3 LinkNode.mk ids names addrs) }
  else .ok none

/-- `links_option_dict[i]`: the record whose `linknumber` loads as `i`, the last one when
several do. -/
def optionRecord (keyed : List (Int × Value)) (i : Int) : Option Value :=
  (keyed.reverse.find? fun p => p.1 = i).map Prod.snd

/-- Slot `i` of the result of `links`: a present link loads the options of its record. -/
def slotOptions (keyed : List (Int × Value)) (i : Nat) (link : Option Link) :
    Except PyExc (Option Link) :=
  match link, optionRecord keyed i with
  | some l, some x => some <$> l.loadOptions (recordSource x)
  | link, _ => pure link

/-- The last step of `links`: each present link loads the options of its record. -/
def mergeOptions (keyed : List (Int × Value)) (slots : List (Option Link)) :
    Except PyExc (List (Option Link)) :=
  slots.enum.mapM fun (i, link) => slotOptions keyed i link

/-- A node entry's `int(node['nodeid'])`. -/
def entryNodeid (node : Value) : Except PyExc Int :=
  node.getItem "nodeid" >>= Value.toInt

/-- A node entry's `node['name']`. -/
def entryName (node : Value) : Except PyExc Value := node.getItem "name"

/-- The node-list half of `links`: the entries' ids and names, and the eight slots. -/
def linkSlots (first : Value) (rest : List Value) : Except PyExc (List (Option Link)) := do
  let nodelist := first :: rest
  unless nodelist.all (·.contains "nodeid") do throw .assertionError
  unless nodelist.all (·.contains "name") do throw .assertionError
  let ids ← nodelist.mapM entryNodeid
  let names ← nodelist.mapM entryName
  (List.range knetLinkNumLimit).mapM (linkSlot first nodelist ids names)

/-- A record's entry in `links_option_dict`: `Link().load_options(x).linknumber`, and the
record. -/
def recordKey (x : Value) : Except PyExc (Int × Value) := do
  return ((← ({} : Link).loadOptions (recordSource x)).linknumber, x)

/-- The interface half of `links`: every record of `totem.interface` is loaded for its
`linknumber`, and the slots take the options of theirs. -/
def interfaceOptions (config : Dict) (slots : List (Option Link)) :
    Except PyExc (List (Option Link)) :=
  match getPath config "totem" "interface" with
  | .error (.keyError _) => .ok slots
  | .error e => .error e
  | .ok (.list interfaces) => do
    let keyed ← interfaces.mapM recordKey
    mergeOptions keyed slots
  | .ok _ => .error .assertionError

/-- `LinkManager.links`: the eight link slots of a knet tree, or `[]` when it has no
node list. -/
def links (config : Dict) : Except PyExc (List (Option Link)) := do
  if (← totemTransport config) ≠ .str "knet" then throw .assertionError
  match getPath config "nodelist" "node" with
  | .error (.keyError _) => return []
  | .error e => throw e
  | .ok (.list (first :: rest)) => linkSlots first rest >>= interfaceOptions config
  | .ok _ => throw .assertionError

example : links [("totem", .dict [("transport", .str "knet"),
      ("interface", .list [.dict [("linknumber", .str "1"), ("mcastport", .str "5405")]])]),
    ("nodelist", .dict [("node", .list [
      .dict [("ring0_addr", .str "10.0.0.2"), ("ring1_addr", .str "10.1.0.2"),
        ("name", .str "beta"), ("nodeid", .str "2")],
      .dict [("ring0_addr", .str "10.0.0.1"), ("ring1_addr", .str "10.1.0.1"),
        ("name", .str "alpha"), ("nodeid", .str "1")]])])] =
    .ok [some { linknumber := 0, nodes := [⟨1, .str "alpha", .str "10.0.0.1"⟩,
                                           ⟨2, .str "beta", .str "10.0.0.2"⟩] },
         some { linknumber := 1, mcastport := some 5405,
                nodes := [⟨1, .str "alpha", .str "10.1.0.1"⟩, ⟨2, .str "beta", .str "10.1.0.2"⟩] },
         none, none, none, none, none, none] := by decide

end Crmsh
