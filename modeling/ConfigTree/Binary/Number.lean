import ConfigTree.Binary.Shortest

/-!
# Floating-point numbers

`Binary f` is a number of the format `f`: a sign and a code.  Arithmetic on machine floats is not
needed anywhere in this library; conversions are exact computations on codes, rounded once.
-/

namespace ConfigTree

/-- A number of the format `f`, with its sign apart from its magnitude. -/
structure Binary (f : Format) where
  /-- Whether the sign bit is set. -/
  negative : Bool
  /-- The code of the magnitude. -/
  code : Nat
  /-- A code leaves the sign bit free. -/
  code_lt : code < f.signBit
deriving DecidableEq, Repr

/-- Numbers of eight bytes. -/
abbrev Double := Binary .double

/-- Numbers of four bytes. -/
abbrev Single := Binary .single

namespace Format

/-- The fraction field has room for at least one value. -/
theorem fraction_pos (f : Format) : 0 < Nat.pow 2 f.fractionBits := Nat.two_pow_pos _

theorem infinity_add (f : Format) : f.infinity + Nat.pow 2 f.fractionBits = f.signBit := by
  have h : 0 < Nat.pow 2 f.exponentBits := Nat.two_pow_pos _
  have hsplit : Nat.pow 2 (f.exponentBits + f.fractionBits) =
      Nat.pow 2 f.exponentBits * Nat.pow 2 f.fractionBits := Nat.pow_add 2 _ _
  have := Nat.le_mul_of_pos_left (Nat.pow 2 f.fractionBits) h
  rw [infinity, signBit, hsplit, Nat.sub_mul, Nat.one_mul]
  omega

theorem infinity_lt (f : Format) : f.infinity < f.signBit := by
  have := f.infinity_add
  have := f.fraction_pos
  omega

theorem round_le (f : Format) (num den : Nat) : f.round num den ≤ f.infinity :=
  Nat.min_le_left _ _

theorem ofDecimal_le (f : Format) (digits : Nat) (exponent : Int) :
    f.ofDecimal digits exponent ≤ f.infinity := by
  unfold ofDecimal
  split
  · exact Nat.zero_le _
  split
  · exact Nat.le_refl _
  split
  · exact Nat.zero_le _
  split <;> exact f.round_le _ _

end Format

namespace Binary

variable {f : Format}

/-! ## §1. Classes. -/

/-- The number `x` is neither infinite nor a NaN. -/
def isFinite (x : Binary f) : Bool := x.code < f.infinity

/-- The number `x` is not a number. -/
def isNaN (x : Binary f) : Bool := f.infinity < x.code

/-- The number `x` is one of the two zeros. -/
def isZero (x : Binary f) : Bool := x.code = 0

/-! ## §2. Making numbers. -/

/-- The number with the sign `negative` and a `code` no greater than that of infinity. -/
def ofCode (negative : Bool) (code : Nat) (h : code ≤ f.infinity) : Binary f :=
  ⟨negative, code, Nat.lt_of_le_of_lt h f.infinity_lt⟩

/-- The positive zero. -/
def zero : Binary f := ofCode false 0 (Nat.zero_le _)

/-- The infinity with the sign `negative`. -/
def infinity (negative : Bool) : Binary f := ofCode negative f.infinity (Nat.le_refl _)

/-- The quiet NaN with the sign `negative`. -/
def nan (negative : Bool) : Binary f where
  negative := negative
  code := f.infinity + Nat.pow 2 f.fractionBits / 2
  code_lt := by
    have := f.infinity_add
    have := f.fraction_pos
    omega

/-- The number nearest to `± num / den`. -/
def ofRatio (negative : Bool) (num den : Nat) : Binary f :=
  ofCode negative (f.round num den) (f.round_le num den)

/-- The number nearest to the integer `n`. -/
def ofInt (n : Int) : Binary f := ofRatio (decide (n < 0)) n.natAbs 1

/-- The number nearest to `± digits * 10 ^ exponent`. -/
def ofDecimal (negative : Bool) (digits : Nat) (exponent : Int) : Binary f :=
  ofCode negative (f.ofDecimal digits exponent) (f.ofDecimal_le digits exponent)

/-- One if `b` is true, and else zero. -/
def ofBool (b : Bool) : Binary f := ofInt (if b then 1 else 0)

/-! ## §3. Conversions. -/

/-- The number of the format `g` nearest to `x`; too large a magnitude becomes infinite. -/
def convert (g : Format) (x : Binary f) : Binary g :=
  if x.isNaN then nan x.negative
  else if x.isFinite then ofCode x.negative (f.convert g x.code) (g.round_le _ _)
  else infinity x.negative

/-- The integer part of `x`, if it is finite. -/
def truncate? (x : Binary f) : Option Int :=
  if x.isFinite then
    let n : Int := (f.units x.code / Nat.pow 2 f.scale : Nat)
    some (if x.negative then -n else n)
  else none

/-! ## §4. Bits. -/

/-- The bits of `x`, read as one natural number. -/
def bits (x : Binary f) : Nat :=
  if x.negative then f.signBit + x.code else x.code

/-- The number with the bits of `n`. -/
def ofBits? (n : Nat) : Option (Binary f) :=
  if h : n < f.signBit then some ⟨false, n, h⟩
  else if h : n - f.signBit < f.signBit then some ⟨true, n - f.signBit, h⟩
  else none

end Binary

end ConfigTree
