import ConfigTree.Hash
import ConfigTree.Text.Hex

/-!
# Type identities

A native type is identified by a hash of the name it is registered under, so that the identity needs
no registry and does not depend on the order of registration.  Zero is the identity of no type.
-/

namespace ConfigTree

/-- The identity of a native type. -/
structure TypeHash where
  /-- The hash. -/
  val : UInt64
deriving DecidableEq, Repr

namespace TypeHash

/-- Keeps the hashes of types apart from other hashes of the same names. -/
def marker : UInt64 := 0x2fac10b63a6cc57c

/-- The identity of no type. -/
def empty : TypeHash := ⟨0⟩

/-- The identity of the type registered under `name`. -/
def ofName (name : String) : TypeHash :=
  ⟨marker ^^^ Hash.ofBytes name.toUTF8.toList 0⟩

/-- Whether `h` identifies no type. -/
def isEmpty (h : TypeHash) : Bool := h.val == 0

/-- Sixteen hexadecimal digits behind `0x`. -/
def display (h : TypeHash) : String :=
  String.ofList ('0' :: 'x' :: Text.Hex.fixed 16 h.val.toNat)

/-- The identity as a dump shows it. -/
def dump (h : TypeHash) : String := s!"TypeHash({h.display})"

end TypeHash

end ConfigTree
