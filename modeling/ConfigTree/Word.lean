/-!
# Machine integers

The five integer types that host storage can have.  A `Word t` is an integer together with the proof
that it lies in the range of `t`, so arithmetic is that of `Int` and only `IntType.ofInt?` decides
what fits.
-/

namespace ConfigTree

/-- The integer types of host storage. -/
inductive IntType where
  /-- 32 bits, signed. -/
  | int32
  /-- 64 bits, signed. -/
  | int64
  /-- 32 bits, unsigned. -/
  | uint32
  /-- 64 bits, unsigned. -/
  | uint64
  /-- The type of sizes: 64 bits, unsigned. -/
  | size
deriving DecidableEq, Repr

namespace IntType

/-- The least integer of an `IntType`. -/
def min : IntType → Int
  | int32 => -2147483648
  | int64 => -9223372036854775808
  | uint32 | uint64 | size => 0

/-- The greatest integer of an `IntType`. -/
def max : IntType → Int
  | int32 => 2147483647
  | int64 => 9223372036854775807
  | uint32 => 4294967295
  | uint64 | size => 18446744073709551615

theorem min_le_zero (t : IntType) : t.min ≤ 0 := by
  cases t <;> decide

theorem zero_le_max (t : IntType) : 0 ≤ t.max := by
  cases t <;> decide

theorem one_le_max (t : IntType) : 1 ≤ t.max := by
  cases t <;> decide

end IntType

/-- An integer in the range of `t`. -/
structure Word (t : IntType) where
  /-- The integer. -/
  val : Int
  /-- It is not below the range. -/
  min_le : t.min ≤ val
  /-- It is not above the range. -/
  le_max : val ≤ t.max
deriving DecidableEq, Repr

namespace IntType

/-- The integer `n` as a `Word t`, if it is in range. -/
def ofInt? (t : IntType) (n : Int) : Option (Word t) :=
  if h : t.min ≤ n ∧ n ≤ t.max then some ⟨n, h.1, h.2⟩ else none

/-- The `Word t` that differs from `n` by a multiple of the size of the range. -/
def wrap (t : IntType) (n : Int) : Word t where
  val := t.min + (n - t.min) % (t.max - t.min + 1)
  min_le := by
    have := t.min_le_zero
    have := t.zero_le_max
    have := Int.emod_nonneg (n - t.min) (b := t.max - t.min + 1) (by omega)
    omega
  le_max := by
    have := t.min_le_zero
    have := t.zero_le_max
    have := Int.emod_lt_of_pos (n - t.min) (b := t.max - t.min + 1) (by omega)
    omega

end IntType

namespace Word

variable {t : IntType}

/-- The zero of `t`. -/
def zero : Word t := ⟨0, t.min_le_zero, t.zero_le_max⟩

/-- The one of `t`. -/
def one : Word t := ⟨1, Int.le_trans t.min_le_zero (by decide), t.one_le_max⟩

@[simp] theorem ofInt?_val (w : Word t) : t.ofInt? w.val = some w := by
  simp [IntType.ofInt?, w.min_le, w.le_max]

end Word

end ConfigTree
