import ConfigTree.Error
import ConfigTree.Text.Quoted

/-!
# Host storage

The nine types that a linked scalar can be backed by.  `StorageType.Raw t` is what storage of type
`t` holds.  Values go in through `ofValue?`, which converts and then checks the range, and come out
through `toValue?`, which fails only for a large unsigned integer.
-/

namespace ConfigTree

/-- The types of host storage. -/
inductive StorageType where
  /-- Truth values. -/
  | bool
  /-- Machine integers. -/
  | int (t : IntType)
  /-- Floating-point numbers of four bytes. -/
  | single
  /-- Floating-point numbers of eight bytes. -/
  | double
  /-- Texts. -/
  | string
deriving DecidableEq, Repr

namespace StorageType

/-- What storage of a type holds. -/
abbrev Raw : StorageType → Type
  | bool => Bool
  | int t => Word t
  | single => Single
  | double => Double
  | string => String

instance : (t : StorageType) → DecidableEq t.Raw
  | bool => inferInstanceAs (DecidableEq Bool)
  | int t => inferInstanceAs (DecidableEq (Word t))
  | single => inferInstanceAs (DecidableEq Single)
  | double => inferInstanceAs (DecidableEq Double)
  | string => inferInstanceAs (DecidableEq String)

/-- The name of a `StorageType` in messages. -/
def name : StorageType → String
  | bool => "bool"
  | int .int32 => "int32"
  | int .int64 => "int64"
  | int .uint32 => "uint32"
  | int .uint64 => "uint64"
  | int .size => "size_t"
  | single => "float"
  | double => "double"
  | string => "string"

/-- The `Value.Kind` that storage of a type shows. -/
def kind : StorageType → Value.Kind
  | bool => .bool
  | int _ => .int
  | single | double => .double
  | string => .string

/-- What storage of the type holds at first. -/
def initial : (t : StorageType) → t.Raw
  | bool => false
  | int _ => Word.zero
  | single | double => Binary.zero
  | string => ""

/-- What is stored, as a `Value`; `none` for an integer above the range of `int64`. -/
def toValue? : (t : StorageType) → t.Raw → Option Value
  | bool, b => some (.bool b)
  | int _, n => (IntType.int64.ofInt? n.val).map .int
  | single, x => some (.double (x.convert .double))
  | double, x => some (.double x)
  | string, s => some (.string s)

/-- A `Value` as storage of a type holds it, if it converts and is in range. -/
def ofValue? : (t : StorageType) → Value → Option t.Raw
  | bool, v => v.toBool?
  | int t, v => v.toInt?.bind fun n => t.ofInt? n.val
  | single, v => v.toDouble?.map (Binary.convert .single)
  | double, v => v.toDouble?
  | string, v => some v.display

/-- What is stored, as a dump shows it. -/
def dump : (t : StorageType) → t.Raw → String
  | bool, b => if b then "true" else "false"
  | int _, n => toString n.val
  | single, x => x.dump
  | double, x => x.dump
  | string, s => Text.quote s

/-- What is stored, as `toValue?` has it; a failure names it. -/
def read (t : StorageType) (raw : t.Raw) : Except AccessError Value :=
  match t.toValue? raw with
  | some v => .ok v
  | none => .error (.conversion (t.dump raw) t.kind)

/-- The value `v` as `ofValue?` has it; a failure names the value. -/
def accept (t : StorageType) (v : Value) : Except AccessError t.Raw :=
  match t.ofValue? v with
  | some raw => .ok raw
  | none => .error (.conversion v.display t.kind)

end StorageType

end ConfigTree
