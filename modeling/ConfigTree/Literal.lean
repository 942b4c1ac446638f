import ConfigTree.StorageType
import ConfigTree.Text.Hex

/-!
# Literals

How a host writes down what storage holds: a truth value as a flag and everything else as a text.
An integer is written in decimal, a text as it is, and a floating-point number by its bits, so that
nothing is lost; the NaNs share one spelling.  `StorageType.parse?` reads what `StorageType.literal`
writes.
-/

namespace ConfigTree

/-- What a host writes down for the content of storage. -/
inductive Literal where
  /-- A truth value. -/
  | flag (b : Bool)
  /-- Anything else. -/
  | text (s : String)
deriving DecidableEq, Repr

namespace Binary

variable {f : Format}

/-- How many hexadecimal digits the bits of the format `f` take. -/
def hexWidth (f : Format) : Nat := (f.exponentBits + f.fractionBits + 1) / 4

/-- The `bits` of a number in hexadecimal digits, or the common spelling of the NaNs. -/
def hex (x : Binary f) : String :=
  if x.isNaN then "nan" else String.ofList (Text.Hex.fixed (hexWidth f) x.bits)

/-- The number that `hex` writes in a given way. -/
def ofHex? (s : String) : Option (Binary f) :=
  if s = "nan" then some (nan false)
  else if s.toList.length = hexWidth f then (Text.Hex.value? s.toList).bind ofBits?
  else none

theorem ofBits?_bits (x : Binary f) : ofBits? x.bits = some x := by
  obtain ⟨negative, code, h⟩ := x
  cases negative
  · simp [bits, ofBits?, h]
  · simp [bits, ofBits?, h, Nat.not_lt.mpr (Nat.le_add_right _ _)]

end Binary

namespace StorageType

/-- What storage of a type holds, as a host writes it down. -/
def literal : (t : StorageType) → t.Raw → Literal
  | bool, b => .flag b
  | int _, n => .text (toString n.val)
  | single, x => .text x.hex
  | double, x => .text x.hex
  | string, s => .text s

/-- What storage of a type holds by a `Literal`. -/
def parse? : (t : StorageType) → Literal → Option t.Raw
  | bool, .flag b => some b
  | int t, .text s => (Text.integer? s.toList).bind t.ofInt?
  | single, .text s => Binary.ofHex? s
  | double, .text s => Binary.ofHex? s
  | string, .text s => some s
  | _, _ => none

end StorageType

end ConfigTree
