import ConfigTree.Binary.Format

/-!
# The shortest decimal that reads back

`Format.shortest` chooses, for a finite nonzero number, a decimal with as few digits as possible
among those that round to it, and of those the nearest.  The search is the definition made into a
loop: for one digit, two digits and so on it tests the two neighbours of the number on that decimal
grid, and the test is `Format.ofDecimal` itself, so what is chosen reads back by construction.
-/

namespace ConfigTree

/-- The number `digits * 10 ^ exponent`. -/
structure Decimal where
  /-- The significant digits, as one number. -/
  digits : Nat
  /-- The power of ten they are counted in. -/
  exponent : Int
deriving DecidableEq, Repr

namespace Decimal

/-- The decimal digits of `n`, most significant first; zero has one digit. -/
def digitChars (n : Nat) : List Char :=
  Nat.toDigits 10 n

/-- The number `d` without trailing zeros in its digits. -/
def strip (d : Decimal) : Decimal :=
  go d.digits d.digits d.exponent
where
  -- the first argument only bounds the number of steps
  go : Nat → Nat → Int → Decimal
    | 0, n, e => ⟨n, e⟩
    | fuel + 1, n, e => if n ≠ 0 ∧ n % 10 = 0 then go fuel (n / 10) (e + 1) else ⟨n, e⟩

/-- The exponent of ten of the leading digit of `d`. -/
def leading (d : Decimal) : Int :=
  d.exponent + (digitChars d.digits).length - 1

end Decimal

namespace Format

/-- The least `k` with `num < 10 ^ k * den`, for a positive quotient. -/
def magnitude (num den : Nat) : Int :=
  if den ≤ num then (Decimal.digitChars (num / den)).length
  else -(zeros (den.log2 + 1) num : Int)
where
  -- how many zeros follow the point; each step multiplies by ten, so the bound is never reached
  zeros : Nat → Nat → Nat
    | 0, _ => 0
    | fuel + 1, n => if den ≤ n * 10 then 0 else zeros fuel (n * 10) + 1

/-- The neighbours of `num / den` on the grid of step `10 ^ e`: the quotient rounded down, and
whether the point above it is at least as near. -/
def neighbour (num den : Nat) (e : Int) : Nat × Bool :=
  let n := num * Nat.pow 10 (-e).toNat
  let d := den * Nat.pow 10 e.toNat
  (n / d, d ≤ 2 * (n % d))

/-- The nearest point with `n` digits that reads back to `code`, if there is one; of two that are
equally near the larger. -/
def candidate? (f : Format) (code : Nat) (n : Nat) : Option Decimal :=
  let num := f.units code
  let den := Nat.pow 2 f.scale
  let e := magnitude num den - n
  let (lo, upper) := neighbour num den e
  let readsBack (d : Nat) : Bool := f.ofDecimal d e == code
  let (near, far) := if upper then (lo + 1, lo) else (lo, lo + 1)
  if readsBack near then some ⟨near, e⟩
  else if readsBack far then some ⟨far, e⟩
  else none

/-- The fewest digits that read back to a finite nonzero code.  Seventeen always suffice for the two
formats in use; the exact value stands behind them. -/
def shortest (f : Format) (code : Nat) : Decimal :=
  ((List.range' 1 17).findSome? (f.candidate? code)).getD
    ⟨f.units code * Nat.pow 5 f.scale, -(f.scale : Int)⟩ |>.strip

end Format

end ConfigTree
