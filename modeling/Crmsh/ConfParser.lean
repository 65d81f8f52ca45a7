import Crmsh.Dom

/-!
# Dotted paths into the tree

`ConfParser` reads and writes the tree by dotted paths such as `nodelist.node.ring0_addr`
with an index that selects among repeated sections.  `ConfParser.set` walks the keys
before the last one, creating missing sections, promoting a lone section of a
list-capable path (`totem.interface`, `nodelist.node`) to a two-element list at index 1,
and appending to a list at its length; the last key then receives the value.

The walk is modelled with the tree it leaves at every exit, so that an `IndexError`
raised deep in the walk keeps whatever the walk had already created.
-/

namespace Crmsh

/-- `COROSYNC_KNOWN_SEC_NAMES_WITH_LIST`: the paths whose sections may repeat. -/
def knownSecNamesWithList : List (List String) := [["totem", "interface"], ["nodelist", "node"]]

/-- Python's `li[index] = value`, a negative index counting from the end. -/
def pySetIndex (li : List Value) (index : Int) (value : Value) : Except PyExc (List Value) :=
  let j := if index < 0 then index + li.length else index
  if 0 ≤ j ∧ j < li.length then .ok (li.set j.toNat value) else .error .indexError

/-- The loop of `ConfParser._raw_set`, from section `node` with `stack` the keys already
walked, and its last step.  A key holding a string matches no case of the loop's
`match`, and the walk stays in `node`. -/
def rawSetWalk (index : Int) (value : Value) : List String → Dict → List String → Outcome
  | _, node, [] => .ok node
  | _, node, [key] =>
    match Dict.get? node key with
    | some (.list li) =>
      if index > li.length then .raised .indexError node
      else if index = li.length then .ok (Dict.set node key (.list (li ++ [value])))
      else match pySetIndex li index value with
        | .ok li => .ok (Dict.set node key (.list li))
        | .error e => .raised e node
    | _ => .ok (Dict.set node key value)
  | stack, node, key :: rest =>
    let stack := stack ++ [key]
    match Dict.get? node key with
    | none => (rawSetWalk index value stack [] rest).mapDom fun c => Dict.set node key (.dict c)
    | some (.dict next) =>
      if index > 0 ∧ stack ∈ knownSecNamesWithList then
        if index = 1 then
          (rawSetWalk index value stack [] rest).mapDom
            fun c => Dict.set node key (.list [.dict next, .dict c])
        else .raised .indexError node
      else (rawSetWalk index value stack next rest).mapDom fun c => Dict.set node key (.dict c)
    | some (.list li) =>
      if index > li.length then .raised .indexError node
      else if index = li.length then
        (rawSetWalk index value stack [] rest).mapDom
          fun c => Dict.set node key (.list (li ++ [.dict c]))
      else match pyIndex li index with
        | .ok (.dict c) =>
          (rawSetWalk index value stack c rest).mapDom fun c =>
            Dict.set node key (.list (li.set (if index < 0 then index + li.length else index).toNat
              (.dict c)))
        | .ok _ => .raised .typeError node
        | .error e => .raised e node
    | some (.str _) => rawSetWalk index value stack node rest

/-- `ConfParser.set`: `_raw_set` on the path's keys, with `KeyError` and `IndexError`
turned into configuration errors. -/
def confParserSet (dom : Dict) (path : String) (value : Value) (index : Int) : Outcome :=
  match rawSetWalk index value [] dom (pySplit path '.') with
  | .raised (.keyError _) d => .raised (.valueError ("Invalid path \"" ++ path ++ "\"")) d
  | .raised .indexError d =>
    .raised (.valueError ("Index " ++ pyStr index ++ " out of range at path \"" ++ path ++ "\"")) d
  | r => r

/-- A list met by `DomQuery.get` is indexed by `index`; other values are taken as they
are. -/
def selectIndex (index : Nat) : Value → Except PyExc Value
  | .list l =>
    match l.get? index with
    | some v => .ok v
    | none => .error .indexError
  | v => .ok v

/-- Modelled from the spec: `corosync_config_format.DomQuery.get`, which is not in this
repository.  It descends the tree key by key; a list met on the way, the last value
included, is indexed by `index`. -/
def domQueryGet (index : Nat) (v : Value) : List String → Except PyExc Value
  | [] => selectIndex index v
  | key :: keys => do
    match ← selectIndex index v with
    | .dict d =>
      match Dict.get? d key with
      | some w => domQueryGet index w keys
      | none => throw (.keyError key)
    | _ => throw .typeError

/-- `ConfParser.get`: `None` for a path that is absent or an index out of range. -/
def confParserGet (dom : Dict) (path : String) (index : Nat) : Except PyExc (Option Value) :=
  match domQueryGet index (.dict dom) (pySplit path '.') with
  | .ok v => .ok (some v)
  | .error (.keyError _) | .error .indexError => .ok none
  | .error e => .error e

end Crmsh
