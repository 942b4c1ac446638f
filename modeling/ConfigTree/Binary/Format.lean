/-!
# Binary floating-point formats

A format is given by the widths of its exponent and fraction fields.  A nonnegative number of the
format is named by its *code*, the natural number that its bits spell without the sign: codes are
ordered as the numbers are, and consecutive codes are neighbours.  So one function, `Format.round`,
rounds an exact quotient to the format, and everything else (reading decimals, widening, narrowing,
integers) is that function at a particular quotient.
-/

namespace ConfigTree

/-- The widths of the two magnitude fields of a binary interchange format. -/
structure Format where
  /-- The width of the fraction field. -/
  fractionBits : Nat
  /-- The width of the exponent field. -/
  exponentBits : Nat
deriving DecidableEq, Repr

/-- The quotient `num / den` rounded to a natural number, a half going to the even neighbour. -/
def roundHalfEven (num den : Nat) : Nat :=
  let q := num / den
  let r := num % den
  if 2 * r < den then q
  else if den < 2 * r then q + 1
  else q + q % 2

namespace Format

/-! ## §1. Codes and what they stand for. -/

/-- Eight bytes: 52 fraction bits, 11 exponent bits. -/
def double : Format := ⟨52, 11⟩

/-- Four bytes: 23 fraction bits, 8 exponent bits. -/
def single : Format := ⟨23, 8⟩

/-- The code of infinity in the format `f`; larger codes are not numbers. -/
def infinity (f : Format) : Nat :=
  (Nat.pow 2 f.exponentBits - 1) * Nat.pow 2 f.fractionBits

/-- The code of the sign bit in the format `f`. -/
def signBit (f : Format) : Nat :=
  Nat.pow 2 (f.exponentBits + f.fractionBits)

/-- The least positive number of the format is `2 ^ (-scale)`. -/
def scale (f : Format) : Nat :=
  Nat.pow 2 (f.exponentBits - 1) - 2 + f.fractionBits

/-- The number with the given finite code, counted in multiples of the least positive one. -/
def units (f : Format) (code : Nat) : Nat :=
  let e := code / Nat.pow 2 f.fractionBits
  let m := code % Nat.pow 2 f.fractionBits
  if e = 0 then m else (Nat.pow 2 f.fractionBits + m) * Nat.pow 2 (e - 1)

/-! ## §2. Rounding to the format. -/

/-- The code nearest to `num / den`, ties going to the even code; infinity from the largest number
and half a unit on. -/
def round (f : Format) (num den : Nat) : Nat :=
  let n := num * Nat.pow 2 f.scale
  -- the number of low bits that the format cannot hold at this magnitude
  let k := (n / den).log2 - f.fractionBits
  min f.infinity (k * Nat.pow 2 f.fractionBits + roundHalfEven n (den * Nat.pow 2 k))

/-- The code nearest to `digits * 10 ^ exponent`.  The two bounds keep the powers of ten small:
beyond them the answer is infinity, or zero, whatever the digits are. -/
def ofDecimal (f : Format) (digits : Nat) (exponent : Int) : Nat :=
  if digits = 0 then 0
  else if 400 < exponent then f.infinity
  else if exponent + digits.log2 < -400 then 0
  else if 0 ≤ exponent then f.round (digits * Nat.pow 10 exponent.toNat) 1
  else f.round digits (Nat.pow 10 (-exponent).toNat)

/-- The code of the format `g` that is nearest to a finite `code` of the format `f`. -/
def convert (f g : Format) (code : Nat) : Nat :=
  g.round (f.units code) (Nat.pow 2 f.scale)

end Format

end ConfigTree
