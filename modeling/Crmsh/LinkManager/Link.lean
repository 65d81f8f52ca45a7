import Crmsh.Dom

/-!
# Links and their options

`Link` and `LinkNode` are the dataclasses the link manager derives from the tree: one
`Link` per knet link, with its member nodes and its tuning options.  `Link.loadOptions`
models `Link.load_options`, which reads options from a mapping (an interface record of
the tree, or the caller's options) and converts each to its field's type; the manager
writes them back with `str(...)` (`Link.optionText`).

The round trip the manager relies on is `loadOptions_optionRecord`: loading a record that
holds a link's options as text gives the link back, when its `knet_transport` is a string.
-/

namespace Crmsh

/-- One node's membership of a link: `LinkNode(nodeid, name, addr)`. -/
structure LinkNode where
  nodeid : Int
  name : Value
  addr : Value
  deriving Repr, DecidableEq

/-- The fields of `Link` that `load_options` visits: `dataclasses.fields(Link)` without
`nodes`, in declaration order. -/
inductive LinkField where
  | linknumber | mcastport | knetLinkPriority | knetPingInterval | knetPingTimeout
  | knetPingPrecision | knetPongCount | knetTransport
  deriving Repr, DecidableEq

/-- A field's name, which is also its key in an interface record. -/
def LinkField.name : LinkField → String
  | .linknumber => "linknumber"
  | .mcastport => "mcastport"
  | .knetLinkPriority => "knet_link_priority"
  | .knetPingInterval => "knet_ping_interval"
  | .knetPingTimeout => "knet_ping_timeout"
  | .knetPingPrecision => "knet_ping_precision"
  | .knetPongCount => "knet_pong_count"
  | .knetTransport => "knet_transport"

/-- `LINK_OPTIONS_UPDATABLE`: every field but `linknumber` and `nodes`, in declaration
order. -/
def linkOptionsUpdatable : List LinkField :=
  [.mcastport, .knetLinkPriority, .knetPingInterval, .knetPingTimeout, .knetPingPrecision,
    .knetPongCount, .knetTransport]

/-- The fields `load_options` visits, in declaration order. -/
def LinkField.all : List LinkField := .linknumber :: linkOptionsUpdatable

/-- A knet link: its number, its nodes, and its tuning options (`None` is the corosync
default). -/
structure Link where
  linknumber : Int := -1
  nodes : List LinkNode := []
  mcastport : Option Int := none
  knetLinkPriority : Option Int := none
  knetPingInterval : Option Int := none
  knetPingTimeout : Option Int := none
  knetPingPrecision : Option Int := none
  knetPongCount : Option Int := none
  knetTransport : Option Value := none
  deriving Repr, DecidableEq

/-- `getattr(link, name)` for a field typed `Optional[int]`; `none` for the two fields of
other types. -/
def Link.intField (l : Link) : LinkField → Option Int
  | .mcastport => l.mcastport
  | .knetLinkPriority => l.knetLinkPriority
  | .knetPingInterval => l.knetPingInterval
  | .knetPingTimeout => l.knetPingTimeout
  | .knetPingPrecision => l.knetPingPrecision
  | .knetPongCount => l.knetPongCount
  | .linknumber | .knetTransport => none

/-- `setattr(link, name, x)` for a field typed `Optional[int]`. -/
def Link.setIntField (l : Link) : LinkField → Option Int → Link
  | .mcastport, x => { l with mcastport := x }
  | .knetLinkPriority, x => { l with knetLinkPriority := x }
  | .knetPingInterval, x => { l with knetPingInterval := x }
  | .knetPingTimeout, x => { l with knetPingTimeout := x }
  | .knetPingPrecision, x => { l with knetPingPrecision := x }
  | .knetPongCount, x => { l with knetPongCount := x }
  | .linknumber, _ | .knetTransport, _ => l

@[simp] theorem Link.setIntField_nodes (l : Link) (f : LinkField) (x : Option Int) :
    (l.setIntField f x).nodes = l.nodes := by
  cases f <;> rfl

@[simp] theorem Link.setIntField_linknumber (l : Link) (f : LinkField) (x : Option Int) :
    (l.setIntField f x).linknumber = l.linknumber := by
  cases f <;> rfl

@[simp] theorem Link.setIntField_knetTransport (l : Link) (f : LinkField) (x : Option Int) :
    (l.setIntField f x).knetTransport = l.knetTransport := by
  cases f <;> rfl

/-- What `data[field.name]` gives inside `__load_option`: `none` for the `KeyError` it
catches, `some none` for a Python `None`, `some (some v)` for a value; any other
exception propagates. -/
abbrev OptionSource := String → Except PyExc (Option (Option Value))

/-- An interface record of the tree as the `data` of `load_options`. -/
def recordSource (x : Value) : OptionSource := fun k =>
  match x.getItem k with
  | .ok v => .ok (some (some v))
  | .error (.keyError _) => .ok none
  | .error e => .error e

/-- The caller's `options` of `update_link` as the `data` of `load_options`. -/
def optionsSource (options : PyDict String (Option String)) : OptionSource := fun k =>
  .ok ((options.get? k).map (Option.map .str))

/-- `Link.__load_option` for one field: a missing key changes nothing, `None` resets an
optional field (and fails the assertion for `linknumber`), a field typed `Optional[int]`
converts its value with `int`, and `knet_transport`, typed `str`, keeps it as it is. -/
def Link.loadOption (l : Link) (data : OptionSource) (f : LinkField) : Except PyExc Link := do
  match ← data f.name, f with
  | none, _ => pure l
  | some none, .linknumber => throw .assertionError
  | some (some v), .linknumber => pure { l with linknumber := ← v.toInt }
  | some v, .knetTransport => pure { l with knetTransport := v }
  | some v, f => pure (l.setIntField f (← v.mapM Value.toInt))

/-- `Link.load_options`: `__load_option` for each field in turn. -/
def Link.loadOptions (l : Link) (data : OptionSource) : Except PyExc Link :=
  LinkField.all.foldlM (fun l f => l.loadOption data f) l

/-- `str(v)` of the value a field holds, as `update_link` writes it back; `none` for
`None`. -/
def Link.optionText (l : Link) : LinkField → Option String
  | .linknumber => some (pyStr l.linknumber)
  | .knetTransport => l.knetTransport.map Value.toPyStr
  | f => (l.intField f).map pyStr

example : ({} : Link).loadOptions (recordSource (.dict [("linknumber", .str "01"),
    ("mcastport", .str "5405"), ("bindnetaddr", .str "10.0.0.0")])) =
    .ok { linknumber := 1, mcastport := some 5405 } := by decide

end Crmsh
