import ConfigTree.Proofs.RationalRounding
import Mathlib.Algebra.Order.Field.Power

/-!
# Decimals and the numbers they read back to

Reading a decimal rounds the rational number that it is: the bounds that keep the powers of ten
small never change the answer.  So two decimals for one rational number are read alike, and the
decimal that is written for a finite number reads back to it.

Main results:
  * `Format.round_congr` — rounding depends on the quotient only;
  * `Format.ofDecimal_eq_round` — reading a decimal rounds it, without any bounds;
  * `Format.ofDecimal_congr` — decimals for one rational number are read alike;
  * `Format.shortest_readsBack` — what is written for a finite number reads back to it.
-/

namespace ConfigTree

/-! ## §1. Rounding depends on the quotient only. -/

theorem roundHalfEven_mul_mul (num den : Nat) {c : Nat} (hc : 0 < c) :
    roundHalfEven (num * c) (den * c) = roundHalfEven num den := by
  have hscale (n : Nat) : 2 * (n * c) = 2 * n * c := (Nat.mul_assoc 2 n c).symm
  unfold roundHalfEven
  simp only [Nat.mul_div_mul_right _ _ hc, Nat.mul_mod_mul_right, hscale,
    Nat.mul_lt_mul_right hc]

namespace Format

variable {f : Format}

theorem round_mul_mul (num den : Nat) {c : Nat} (hc : 0 < c) :
    f.round (num * c) (den * c) = f.round num den := by
  unfold round
  have hnum : num * c * Nat.pow 2 f.scale = num * Nat.pow 2 f.scale * c := Nat.mul_right_comm ..
  simp only [hnum, Nat.mul_div_mul_right _ _ hc]
  generalize (num * Nat.pow 2 f.scale / den).log2 - f.fractionBits = k
  rw [Nat.mul_right_comm den, roundHalfEven_mul_mul _ _ hc]

/-- **Equal quotients `num / den` and `num' / den'` are rounded alike by `round`.** -/
theorem round_congr {num num' den den' : Nat} (hden : 0 < den) (hden' : 0 < den')
    (h : num * den' = num' * den) : f.round num den = f.round num' den' := by
  rw [← f.round_mul_mul num den hden', ← f.round_mul_mul num' den' hden, h, Nat.mul_comm den]

/-- Less than half of the least positive number is rounded to zero by `round`. -/
theorem round_eq_zero {num den : Nat} (h : 2 * (num * Nat.pow 2 f.scale) < den) :
    f.round num den = 0 := by
  have hdiv : num * Nat.pow 2 f.scale / den = 0 := Nat.div_eq_of_lt (by omega)
  have hround : roundHalfEven (num * Nat.pow 2 f.scale) den = 0 := by
    unfold roundHalfEven
    simp only [hdiv, Nat.mod_eq_of_lt (show num * Nat.pow 2 f.scale < den by omega)]
    rw [if_pos h]
  unfold round
  simp only [hdiv, Nat.log2_zero, Nat.zero_sub]
  show min f.infinity (0 * _ + roundHalfEven _ (den * 1)) = 0
  rw [Nat.mul_one, hround, Nat.zero_mul, Nat.add_zero, Nat.min_zero]

end Format

/-! ## §2. Reading a decimal. -/

namespace Decimal

/-- The numerator of the decimal `d`. -/
def num (d : Decimal) : Nat := d.digits * Nat.pow 10 d.exponent.toNat

/-- The denominator of the decimal `d`, a power of ten. -/
def den (d : Decimal) : Nat := Nat.pow 10 (-d.exponent).toNat

/-- The rational number that the decimal `d` is. -/
def toRat (d : Decimal) : ℚ := d.digits * 10 ^ d.exponent

theorem den_pos (d : Decimal) : 0 < d.den := Nat.pow_pos (by omega)

theorem toRat_eq_div (d : Decimal) : d.toRat = (d.num : ℚ) / d.den := by
  obtain ⟨n, e⟩ := d
  have hpow (k : Nat) : ((Nat.pow 10 k : Nat) : ℚ) = 10 ^ k := Nat.cast_pow 10 k
  unfold toRat num den
  simp only [Nat.cast_mul, hpow]
  rcases Int.eq_nat_or_neg e with ⟨k, rfl | rfl⟩
  · simp
  · rw [zpow_neg, zpow_natCast, neg_neg, Int.toNat_natCast, Int.toNat_of_nonpos (by omega)]
    rw [pow_zero, mul_one, div_eq_mul_inv]

end Decimal

namespace Format

/-- Beyond the bounds of `Format.ofDecimal` there are no numbers of the format. -/
structure InBounds (f : Format) : Prop where
  /-- The power of ten `10 ^ k` within the bounds is too large, and one divided by it is too
  small. -/
  power : ∃ k ≤ 401, f.units f.infinity ≤ Nat.pow 10 k * Nat.pow 2 f.scale ∧
    4 * Nat.pow 2 f.scale < Nat.pow 10 k
  /-- There are odd codes, since there are `fractionBits`. -/
  fraction : 0 < f.fractionBits
  /-- There are finite numbers, below `infinity`. -/
  infinity_pos : 0 < f.infinity

theorem double_inBounds : double.InBounds where
  power := ⟨326, by omega, by decide +kernel, by decide +kernel⟩
  fraction := by decide
  infinity_pos := by decide

variable {f : Format}

theorem pow_ten_add_le {k m n : Nat} (h : n + k ≤ m) :
    Nat.pow 10 n * Nat.pow 10 k ≤ Nat.pow 10 m := by
  have hpow : Nat.pow 10 n * Nat.pow 10 k = Nat.pow 10 (n + k) := (Nat.pow_add 10 n k).symm
  rw [hpow]
  exact Nat.pow_le_pow_right (by omega) h

/-- What is too large for the bounds, `digits * 10 ^ m`, is too large for the format. -/
theorem round_of_large (h : f.InBounds) {digits m : Nat} (hdigits : digits ≠ 0) (hm : 400 < m) :
    f.round (digits * Nat.pow 10 m) 1 = f.infinity := by
  obtain ⟨k, hk, hlarge, -⟩ := h.power
  have hle := f.round_le (digits * Nat.pow 10 m) 1
  by_contra hne
  have hlt := (round_lt_infinity_iff h.fraction h.infinity_pos _ Nat.one_pos).1
    (show f.round (digits * Nat.pow 10 m) 1 < f.infinity by omega)
  have hlast := f.units_lt_units (Nat.sub_one_lt (Nat.ne_of_gt h.infinity_pos))
  have hpow : Nat.pow 10 k ≤ digits * Nat.pow 10 m :=
    (Nat.pow_le_pow_right (by omega) (by omega)).trans
      (Nat.le_mul_of_pos_left _ (Nat.pos_of_ne_zero hdigits))
  have := Nat.mul_le_mul_right (Nat.pow 2 f.scale) hpow
  omega

/-- What is too small for the bounds, `digits / 10 ^ m`, is too small for the format. -/
theorem round_of_small (h : f.InBounds) {digits m : Nat} (hm : 400 + digits.log2 < m) :
    f.round digits (Nat.pow 10 m) = 0 := by
  obtain ⟨k, hk, -, hsmall⟩ := h.power
  refine round_eq_zero ?_
  have hdigits : digits < 2 ^ digits.log2 * 2 := Nat.lt_log2_self.trans_eq (Nat.pow_succ ..)
  have hpow : 2 ^ digits.log2 ≤ Nat.pow 10 digits.log2 := Nat.pow_le_pow_left (by omega) _
  calc 2 * (digits * Nat.pow 2 f.scale)
      ≤ 2 * (2 ^ digits.log2 * 2 * Nat.pow 2 f.scale) :=
        Nat.mul_le_mul_left 2 (Nat.mul_le_mul_right _ hdigits.le)
    _ = 2 ^ digits.log2 * (4 * Nat.pow 2 f.scale) := by
        rw [Nat.mul_assoc, ← Nat.mul_assoc 2 _, Nat.mul_comm 2, Nat.mul_assoc, ← Nat.mul_assoc 2 2]
    _ < 2 ^ digits.log2 * Nat.pow 10 k := Nat.mul_lt_mul_of_pos_left hsmall (Nat.two_pow_pos _)
    _ ≤ Nat.pow 10 digits.log2 * Nat.pow 10 k := Nat.mul_le_mul_right _ hpow
    _ ≤ Nat.pow 10 m := pow_ten_add_le (by omega)

/-- **Reading a decimal by `ofDecimal` rounds the quotient that it is**, `d.num / d.den`. -/
theorem ofDecimal_eq_round (h : f.InBounds) (d : Decimal) :
    f.ofDecimal d.digits d.exponent = f.round d.num d.den := by
  obtain ⟨n, e⟩ := d
  unfold ofDecimal Decimal.num Decimal.den
  dsimp only
  split
  · rename_i hzero
    rw [hzero, Nat.zero_mul, round_eq_zero]
    rw [Nat.zero_mul]
    exact Nat.pow_pos (by omega)
  · rename_i hdigits
    split
    · rename_i hlarge
      have hden : (-e).toNat = 0 := by omega
      rw [hden, ← round_of_large h hdigits (m := e.toNat) (by omega)]
    · split
      · rename_i hsmall
        have hnum : e.toNat = 0 := by omega
        rw [hnum]
        show 0 = f.round (n * 1) _
        rw [Nat.mul_one, round_of_small h (by omega)]
      · split
        · have hden : (-e).toNat = 0 := by omega
          rw [hden]
        · have hnum : e.toNat = 0 := by omega
          rw [hnum]
          show _ = f.round (n * 1) _
          rw [Nat.mul_one]

/-- **Decimals `d` and `d'` for one rational number are read alike by `ofDecimal`.** -/
theorem ofDecimal_congr (h : f.InBounds) {d d' : Decimal} (hrat : d.toRat = d'.toRat) :
    f.ofDecimal d.digits d.exponent = f.ofDecimal d'.digits d'.exponent := by
  have hpos : (d.den : ℚ) ≠ 0 := Nat.cast_ne_zero.2 d.den_pos.ne'
  have hpos' : (d'.den : ℚ) ≠ 0 := Nat.cast_ne_zero.2 d'.den_pos.ne'
  rw [d.toRat_eq_div, d'.toRat_eq_div, div_eq_div_iff hpos hpos'] at hrat
  rw [ofDecimal_eq_round h, ofDecimal_eq_round h]
  exact round_congr d.den_pos d'.den_pos (by exact_mod_cast hrat)

end Format

/-! ## §3. What is written for a number. -/

namespace Decimal

/-- A digit of `n` that is zero at the end is one place more. -/
theorem toRat_div_ten {n : Nat} (e : Int) (h : n % 10 = 0) :
    toRat ⟨n / 10, e + 1⟩ = toRat ⟨n, e⟩ := by
  have hn : n = n / 10 * 10 := by omega
  unfold toRat
  dsimp only
  rw [zpow_add_one₀ (by norm_num), mul_comm ((10 : ℚ) ^ e), ← mul_assoc]
  congr 1
  exact_mod_cast hn.symm

/-- **Without its trailing zeros, by `strip`, a decimal is the same number.** -/
theorem toRat_strip (d : Decimal) : d.strip.toRat = d.toRat := by
  have hgo (fuel n : Nat) (e : Int) : (strip.go fuel n e).toRat = toRat ⟨n, e⟩ := by
    induction fuel generalizing n e with
    | zero => rfl
    | succ fuel ih =>
      unfold strip.go
      split
      · rename_i h
        rw [ih, toRat_div_ten e h.2]
      · rfl
  exact hgo d.digits d.digits d.exponent

end Decimal

namespace Format

variable {f : Format} {code : Nat}

/-- A decimal `d` that `candidate?` returns has passed the test that it reads back. -/
theorem readsBack_of_candidate? {n : Nat} {d : Decimal} (h : f.candidate? code n = some d) :
    f.ofDecimal d.digits d.exponent = code := by
  unfold candidate? at h
  dsimp only at h
  split at h
  all_goals
    split at h
    · rename_i hnear
      cases h
      exact eq_of_beq hnear
    · split at h
      · rename_i hfar
        cases h
        exact eq_of_beq hfar
      · cases h

/-- The exact value of a number, of its `units`, reads back by `ofDecimal`. -/
theorem readsBack_exact (h : f.InBounds) (hcode : code ≤ f.infinity) :
    f.ofDecimal (f.units code * Nat.pow 5 f.scale) (-(f.scale : Int)) = code := by
  have hten : Nat.pow 5 f.scale * Nat.pow 2 f.scale = Nat.pow 10 f.scale := (Nat.mul_pow 5 2 _).symm
  have hden : 0 < Nat.pow 10 f.scale := Nat.pow_pos (by omega)
  rw [ofDecimal_eq_round h ⟨f.units code * Nat.pow 5 f.scale, -(f.scale : Int)⟩]
  unfold Decimal.num Decimal.den
  dsimp only
  rw [neg_neg, Int.toNat_natCast, Int.toNat_of_nonpos (by omega)]
  show f.round (f.units code * Nat.pow 5 f.scale * 1) _ = code
  rw [f.round_exact hden (by rw [Nat.mul_one, Nat.mul_assoc, hten]) (f.holds_units code),
    f.code_units]
  exact Nat.min_eq_right hcode

/-- **What `shortest` writes for a number reads back to it by `ofDecimal`.** -/
theorem shortest_readsBack (h : f.InBounds) (hcode : code ≤ f.infinity) :
    f.ofDecimal (f.shortest code).digits (f.shortest code).exponent = code := by
  unfold shortest
  rw [ofDecimal_congr h (Decimal.toRat_strip _)]
  cases hfound : (List.range' 1 17).findSome? (f.candidate? code) with
  | none => exact readsBack_exact h hcode
  | some d =>
    obtain ⟨n, -, hn⟩ := List.exists_of_findSome?_eq_some hfound
    exact readsBack_of_candidate? hn

end Format

end ConfigTree
