import ConfigTree.Binary.Notation
import ConfigTree.Text.Blank
import ConfigTree.Text.Numeral
import ConfigTree.Word

/-!
# Values

A configuration value is a truth value, an integer, a number or a text, and it can be converted to
any of these kinds where the conversion makes sense.  Numbers convert to each other (a double loses
its fraction), truth values are zero and one, everything has a text, and texts are read back.
No integer is ever clamped: what is out of range has no conversion.
-/

namespace ConfigTree

/-! ## §1. Values and kinds. -/

/-- What a value is. -/
inductive Value.Kind where
  /-- A truth value. -/
  | bool
  /-- An integer of 64 bits. -/
  | int
  /-- A floating-point number of eight bytes. -/
  | double
  /-- A text. -/
  | string
deriving DecidableEq, Repr

/-- A configuration value. -/
inductive Value where
  /-- A truth value. -/
  | bool (b : Bool)
  /-- An integer. -/
  | int (n : Word .int64)
  /-- A floating-point number. -/
  | double (d : Double)
  /-- A text. -/
  | string (s : String)
deriving DecidableEq, Repr

namespace Value

/-- The name of a `Kind` in messages. -/
def Kind.name : Kind → String
  | bool => "bool"
  | int => "int"
  | double => "double"
  | string => "string"

/-- The `Kind` of a value. -/
def kind : Value → Kind
  | bool _ => .bool
  | int _ => .int
  | double _ => .double
  | string _ => .string

/-- The text of a value.  Every value has one. -/
def display : Value → String
  | bool b => if b then "true" else "false"
  | int n => toString n.val
  | double d => d.display
  | string s => s

/-- The truth value, if the value is one. -/
def bool? : Value → Option Bool
  | bool b => some b
  | _ => none

/-- The integer, if the value is one. -/
def int? : Value → Option (Word .int64)
  | int n => some n
  | _ => none

/-- The floating-point number, if the value is one. -/
def double? : Value → Option Double
  | double d => some d
  | _ => none

/-- The text, if the value is one. -/
def string? : Value → Option String
  | string s => some s
  | _ => none

/-! ## §2. Conversions. -/

/-- The truth value that the trimmed text `cs` spells. -/
def readBool? (cs : List Char) : Option Bool :=
  let text := String.ofList cs
  if text = "true" ∨ text = "1" then some true
  else if text = "false" ∨ text = "0" then some false
  else none

/-- The value as a truth value: a number is true unless it is zero. -/
def toBool? : Value → Option Bool
  | bool b => some b
  | int n => some (n.val ≠ 0)
  | double d => some !d.isZero
  | string s => readBool? (Text.trim s.toList)

/-- The value as an integer: a double loses its fraction. -/
def toInt? : Value → Option (Word .int64)
  | bool b => IntType.int64.ofInt? (if b then 1 else 0)
  | int n => some n
  | double d => d.truncate?.bind IntType.int64.ofInt?
  | string s => (Text.integer? (Text.trim s.toList)).bind IntType.int64.ofInt?

/-- The value as a `Double`, the nearest one if it is an integer. -/
def toDouble? : Value → Option Double
  | bool b => some (.ofBool b)
  | int n => some (.ofInt n.val)
  | double d => some d
  | string s => Text.real? .double (Text.trim s.toList)

/-- The value `v` converted to a `Kind`, if it has a sensible result. -/
def convert (v : Value) : Kind → Option Value
  | .bool => v.toBool?.map .bool
  | .int => v.toInt?.map .int
  | .double => v.toDouble?.map .double
  | .string => some (.string v.display)

/-- The value `v?` after each of a row of conversions; `none` from the first that fails on. -/
def conversions (v? : Option Value) : List Kind → List (Option Value)
  | [] => []
  | k :: ks =>
    let next := v?.bind (·.convert k)
    next :: conversions next ks

theorem kind_of_convert {v w : Value} {k : Kind} (h : v.convert k = some w) : w.kind = k := by
  cases k <;> simp only [convert, Option.map_eq_some_iff, Option.some.injEq] at h
  case string => rw [← h]; rfl
  all_goals
    obtain ⟨x, -, rfl⟩ := h
    rfl

theorem convert_kind (v : Value) : v.convert v.kind = some v := by
  cases v <;> rfl

end Value

end ConfigTree
