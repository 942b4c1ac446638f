import ConfigTree.Proofs.Rounding
import Mathlib.Data.Rat.Floor
import Mathlib.Tactic.FieldSimp
import Mathlib.Tactic.Linarith
import Mathlib.Tactic.Positivity

/-!
# Numbers as rational numbers

What a floating-point number is, as a rational number, and what rounding does to a rational number:
it finds the nearest number of the format, of two that are equally near the one with an even code,
and infinity exactly from the middle between the largest number and the one that would follow it.

Main results:
  * `Format.round_even` — of two codes that are equally near the even one is taken;
  * `Format.round_lt_infinity_iff` — which quotients are in the range of a format;
  * `Binary.isNearest_ofRatio`, `Binary.isNearest_convert` — a rounded number is the nearest one;
  * `Binary.isFinite_ofRatio_iff`, `Binary.isFinite_convert_iff` — when it is finite;
  * `Binary.truncate?_eq` — the integer part is the rational number cut off toward zero.
-/

namespace ConfigTree

/-! ## §1. Of two equally near. -/

/-- Of two multiples of `den` that are equally near to `num`, `roundHalfEven` takes the even one. -/
theorem roundHalfEven_even (num i : Nat) {den : Nat} (hden : 0 < den)
    (hne : i ≠ roundHalfEven num den)
    (hnear : Nat.dist (i * den) num = Nat.dist (roundHalfEven num den * den) num) :
    roundHalfEven num den % 2 = 0 := by
  have hsplit := Nat.div_add_mod num den
  have hrest := Nat.mod_lt num hden
  rw [Nat.mul_comm] at hsplit
  have hnext : (num / den + 1) * den = num / den * den + den := Nat.succ_mul _ _
  -- another multiple is at least one step away from the one that is taken
  have hbelow (q : Nat) (h : i < q) : i * den + den ≤ q * den := by
    rw [← Nat.succ_mul]
    exact Nat.mul_le_mul_right _ h
  have habove (q : Nat) (h : q < i) : q * den + den ≤ i * den := by
    rw [← Nat.succ_mul]
    exact Nat.mul_le_mul_right _ h
  unfold roundHalfEven Nat.dist at *
  dsimp only at *
  split at hne
  · rename_i hlow
    rw [if_pos hlow] at hnear
    have := hbelow (num / den)
    have := habove (num / den)
    omega
  · rename_i hlow
    rw [if_neg hlow] at hnear ⊢
    split at hne
    · rename_i hhigh
      rw [if_pos hhigh] at hnear
      have := hbelow (num / den + 1)
      have := habove (num / den + 1)
      omega
    · rename_i hhigh
      rw [if_neg hhigh]
      omega

namespace Format

variable (f : Format)

/-- A number of an earlier row is below the first number of the row `k`. -/
theorem units_lt_of_surplus_lt {c k : Nat} (h : f.surplus (f.units c) < k) :
    f.units c < Nat.pow 2 f.fractionBits * Nat.pow 2 k := by
  have hlog : (f.units c).log2 + 1 ≤ f.fractionBits + k := by
    unfold surplus at h
    omega
  have hlt : f.units c < 2 ^ ((f.units c).log2 + 1) := Nat.lt_log2_self
  have hpow : 2 ^ ((f.units c).log2 + 1) ≤ 2 ^ (f.fractionBits + k) :=
    Nat.pow_le_pow_right (by omega) hlog
  have hsum : 2 ^ (f.fractionBits + k) = Nat.pow 2 f.fractionBits * Nat.pow 2 k :=
    Nat.pow_add 2 _ _
  omega

variable {f}

/-- A row has an even number of codes, so a code is even if its place `q` in the row is. -/
theorem even_row_add (hf : 0 < f.fractionBits) (k : Nat) {q : Nat} (hq : q % 2 = 0) :
    (k * Nat.pow 2 f.fractionBits + q) % 2 = 0 := by
  obtain ⟨n, hn⟩ := Nat.exists_eq_succ_of_ne_zero (Nat.ne_of_gt hf)
  have hrow : Nat.pow 2 f.fractionBits = 2 * Nat.pow 2 n := by
    rw [hn]
    exact Nat.pow_succ'
  rw [hrow, Nat.mul_left_comm, Nat.mul_add_mod]
  exact hq

theorem infinity_even (hf : 0 < f.fractionBits) : f.infinity % 2 = 0 := by
  have := even_row_add hf (Nat.pow 2 f.exponentBits - 1) (Nat.zero_mod 2)
  rwa [Nat.add_zero] at this

/-- Before the range is looked at, of two codes that are equally near the even one is taken; `k` is
the `surplus`. -/
theorem rounded_even (hf : 0 < f.fractionBits) {num den k c : Nat} (hden : 0 < den)
    (hk : k = f.surplus (num / den))
    (hne : c ≠ k * Nat.pow 2 f.fractionBits + roundHalfEven num (den * Nat.pow 2 k))
    (hnear : Nat.dist (f.units c * den) num = Nat.dist
      (f.units (k * Nat.pow 2 f.fractionBits + roundHalfEven num (den * Nat.pow 2 k)) * den) num) :
    (k * Nat.pow 2 f.fractionBits + roundHalfEven num (den * Nat.pow 2 k)) % 2 = 0 := by
  have hstep : 0 < den * Nat.pow 2 k := Nat.mul_pos hden (Nat.two_pow_pos k)
  have hunits (i : Nat) : i * Nat.pow 2 k * den = i * (den * Nat.pow 2 k) := by
    rw [Nat.mul_assoc, Nat.mul_comm den]
  have hrounded := f.units_rounded num den hk
  rw [hrounded, hunits] at hnear
  by_cases hrow : k ≤ f.surplus (f.units c)
  · -- both are multiples of the step
    obtain ⟨i, hi⟩ := Nat.dvd_trans (Nat.pow_dvd_pow 2 hrow) (f.holds_units c)
    have hi : f.units c = i * Nat.pow 2 k := hi.trans (Nat.mul_comm _ _)
    have hother : i ≠ roundHalfEven num (den * Nat.pow 2 k) := by
      rintro rfl
      refine hne ?_
      rw [← f.code_units c, hi, ← hrounded, f.code_units]
    rw [hi, hunits] at hnear
    exact even_row_add hf k (roundHalfEven_even num i hstep hother hnear)
  · -- a number of an earlier row is farther away than the first one of this row
    exfalso
    have hfirst : Nat.pow 2 f.fractionBits * (den * Nat.pow 2 k) ≤ num := by
      have hlow := (f.div_surplus_bounds (n := num / den) (by omega)).1
      rw [← hk, Nat.div_div_eq_div_mul, Nat.le_div_iff_mul_le hstep] at hlow
      exact hlow
    have hearlier : f.units c * den < Nat.pow 2 f.fractionBits * (den * Nat.pow 2 k) := by
      rw [← hunits]
      exact Nat.mul_lt_mul_of_pos_right (f.units_lt_of_surplus_lt (by omega)) hden
    have hle := dist_roundHalfEven_le num (Nat.pow 2 f.fractionBits) hstep
    unfold Nat.dist at hnear hle
    omega

/-- **Of two codes that are equally near `round` takes the even one.** -/
theorem round_even (hf : 0 < f.fractionBits) (num : Nat) {den c : Nat} (hden : 0 < den)
    (hne : c ≠ f.round num den)
    (hnear : Nat.dist (f.units c * den) (num * Nat.pow 2 f.scale) =
      Nat.dist (f.units (f.round num den) * den) (num * Nat.pow 2 f.scale)) :
    f.round num den % 2 = 0 := by
  have heven (c : Nat) := @rounded_even f hf (num * Nat.pow 2 f.scale) den _ c hden rfl
  unfold round at hne hnear ⊢
  dsimp only at hne hnear ⊢
  unfold surplus at heven
  generalize num * Nat.pow 2 f.scale = n at *
  generalize (n / den).log2 - f.fractionBits = k at *
  generalize k * Nat.pow 2 f.fractionBits + roundHalfEven n (den * Nat.pow 2 k) = r at *
  by_cases hr : r ≤ f.infinity
  · rw [Nat.min_eq_right hr] at hne hnear ⊢
    exact heven c hne hnear
  · rw [Nat.min_eq_left (by omega)]
    exact infinity_even hf

/-! ## §2. The range. -/

/-- **A quotient `num / den` is in the range of a format if it is below the middle between the
largest number and the one that would follow it**, which has the code `infinity`. -/
theorem round_lt_infinity_iff (hf : 0 < f.fractionBits) (hinf : 0 < f.infinity) (num : Nat)
    {den : Nat} (hden : 0 < den) : f.round num den < f.infinity ↔
      2 * (num * Nat.pow 2 f.scale) < (f.units (f.infinity - 1) + f.units f.infinity) * den := by
  have hlargest := Nat.mul_lt_mul_of_pos_right
    (f.units_lt_units (show f.infinity - 1 < f.infinity by omega)) hden
  rw [Nat.add_mul]
  constructor
  · -- the code that is taken is no farther than infinity, and not even if it is as far
    intro hlt
    have hle := Nat.mul_le_mul_right den
      (f.units_le_units (show f.round num den ≤ f.infinity - 1 by omega))
    have hnearest := round_nearest (f := f) num hden (Nat.le_refl f.infinity)
    by_contra hge
    have hround : f.round num den = f.infinity - 1 := by
      by_contra hne
      have := Nat.mul_lt_mul_of_pos_right
        (f.units_lt_units (show f.round num den < f.infinity - 1 by omega)) hden
      unfold Nat.dist at hnearest
      omega
    have heven := round_even (c := f.infinity) hf num hden (by omega) (by
      rw [hround] at hnearest ⊢
      unfold Nat.dist at hnearest ⊢
      omega)
    have := infinity_even hf
    omega
  · intro hlow
    have hnearest := round_nearest (f := f) num hden (show f.infinity - 1 ≤ f.infinity by omega)
    have hle := f.round_le num den
    by_contra hge
    have hround : f.round num den = f.infinity := by omega
    rw [hround] at hnearest
    unfold Nat.dist at hnearest
    omega

end Format

/-! ## §3. Rational numbers. -/

/-- The rational number `q` with a sign. -/
def signedRat (negative : Bool) (q : ℚ) : ℚ := if negative then -q else q

theorem abs_signedRat (negative : Bool) (q : ℚ) : |signedRat negative q| = |q| := by
  cases negative
  · rfl
  · exact abs_neg q

/-- Numbers `p` and `q` of one sign are as far apart as their magnitudes, numbers of different signs
farther. -/
theorem abs_signedRat_sub (negative other : Bool) {p q : ℚ} (hp : 0 ≤ p) (hq : 0 ≤ q) :
    |p - q| ≤ |signedRat other p - signedRat negative q| ∧
      |signedRat negative p - signedRat negative q| = |p - q| := by
  constructor
  · have h := abs_abs_sub_abs_le_abs_sub (signedRat other p) (signedRat negative q)
    rwa [abs_signedRat, abs_signedRat, abs_of_nonneg hp, abs_of_nonneg hq] at h
  · cases negative
    · rfl
    · show |-p - -q| = |p - q|
      rw [neg_sub_neg, abs_sub_comm]

/-- A rational number `q` without its fraction. -/
def towardZero (q : ℚ) : ℤ := if 0 ≤ q then ⌊q⌋ else ⌈q⌉

theorem towardZero_neg (q : ℚ) : towardZero (-q) = -towardZero q := by
  unfold towardZero
  rcases lt_trichotomy q 0 with h | rfl | h
  · rw [if_pos (by linarith), if_neg (by linarith), Int.floor_neg]
  · simp
  · rw [if_neg (by linarith), if_pos h.le, Int.ceil_neg]

@[simp] theorem towardZero_intCast (n : ℤ) : towardZero n = n := by
  unfold towardZero
  split
  · exact Int.floor_intCast n
  · exact Int.ceil_intCast n

theorem towardZero_div (num den : Nat) : towardZero ((num : ℚ) / den) = (num / den : Nat) := by
  unfold towardZero
  rw [if_pos (by positivity), Rat.floor_natCast_div_natCast]
  rfl

/-- Distances of quotients, in natural numbers by `Nat.dist`. -/
theorem abs_div_sub_div (u num : Nat) {p den : Nat} (hp : 0 < p) (hden : 0 < den) :
    |(u : ℚ) / p - num / den| = Nat.dist (u * den) (num * p) / (p * den : Nat) := by
  have hp' : (0 : ℚ) < p := Nat.cast_pos.2 hp
  have hden' : (0 : ℚ) < den := Nat.cast_pos.2 hden
  have hpos : (0 : ℚ) < (p * den : Nat) := Nat.cast_pos.2 (Nat.mul_pos hp hden)
  have hsub : (u : ℚ) / p - num / den = ((u * den : Nat) - (num * p : Nat)) / (p * den : Nat) := by
    push_cast
    field_simp
  rw [hsub, abs_div, abs_of_pos hpos]
  congr 1
  unfold Nat.dist
  rcases Nat.le_total (u * den) (num * p) with h | h
  · have hcast : ((u * den : Nat) : ℚ) ≤ (num * p : Nat) := Nat.cast_le.2 h
    rw [Nat.sub_eq_zero_of_le h, Nat.zero_add, Nat.cast_sub h, abs_of_nonpos (by linarith)]
    ring
  · have hcast : ((num * p : Nat) : ℚ) ≤ (u * den : Nat) := Nat.cast_le.2 h
    rw [Nat.sub_eq_zero_of_le h, Nat.add_zero, Nat.cast_sub h, abs_of_nonneg (by linarith)]

namespace Binary

variable {f g : Format}

/-- The magnitude of the number `x`; infinity is the first number beyond the format. -/
def magnitude (x : Binary f) : ℚ := (f.units x.code : ℚ) / (Nat.pow 2 f.scale : Nat)

/-- The number `x` as a rational number, its `magnitude` with its sign. -/
def toRat (x : Binary f) : ℚ := signedRat x.negative x.magnitude

theorem magnitude_nonneg (x : Binary f) : 0 ≤ x.magnitude := by
  unfold magnitude
  positivity

theorem abs_toRat (x : Binary f) : |x.toRat| = x.magnitude := by
  rw [toRat, abs_signedRat, abs_of_nonneg x.magnitude_nonneg]

/-- The number `x` is what the rational number `q` is rounded to: no finite number is nearer, and of
two that are equally near it is the one with the even code. -/
structure IsNearest (x : Binary f) (q : ℚ) : Prop where
  /-- No finite number `y` is nearer. -/
  nearest : ∀ y : Binary f, y.isFinite = true → |x.toRat - q| ≤ |y.toRat - q|
  /-- If a number `y` of another magnitude is as near, the last bit of `x` is zero. -/
  even : ∀ y : Binary f, y.isFinite = true → y.code ≠ x.code →
    |y.toRat - q| = |x.toRat - q| → x.code % 2 = 0

/-- **What a quotient is rounded to by `ofRatio` is the nearest number (`IsNearest`).** -/
theorem isNearest_ofRatio (hf : 0 < f.fractionBits) (negative : Bool) (num : Nat) {den : Nat}
    (hden : 0 < den) :
    (ofRatio negative num den : Binary f).IsNearest (signedRat negative ((num : ℚ) / den)) := by
  have hscale : 0 < Nat.pow 2 f.scale := Nat.two_pow_pos _
  have hpos : (0 : ℚ) < (Nat.pow 2 f.scale * den : Nat) :=
    Nat.cast_pos.2 (Nat.mul_pos hscale hden)
  have hq : (0 : ℚ) ≤ num / den := by positivity
  have hsame : |(ofRatio negative num den : Binary f).toRat - signedRat negative ((num : ℚ) / den)| =
      |(ofRatio negative num den : Binary f).magnitude - num / den| :=
    (abs_signedRat_sub negative negative (magnitude_nonneg _) hq).2
  have hother (y : Binary f) : |y.magnitude - num / den| ≤
      |y.toRat - signedRat negative ((num : ℚ) / den)| :=
    (abs_signedRat_sub negative y.negative y.magnitude_nonneg hq).1
  -- distances of magnitudes are distances of codes
  have hdist (y : Binary f) : |y.magnitude - num / den| =
      Nat.dist (f.units y.code * den) (num * Nat.pow 2 f.scale) /
        (Nat.pow 2 f.scale * den : Nat) :=
    abs_div_sub_div _ _ hscale hden
  have hnearest (y : Binary f) (hy : y.isFinite = true) :
      |(ofRatio negative num den : Binary f).magnitude - num / den| ≤ |y.magnitude - num / den| := by
    have hcode : y.code < f.infinity := by simpa [isFinite] using hy
    rw [hdist, hdist]
    exact div_le_div_of_nonneg_right
      (Nat.cast_le.2 (Format.round_nearest num hden hcode.le)) hpos.le
  constructor
  · intro y hy
    rw [hsame]
    exact (hnearest y hy).trans (hother y)
  · intro y hy hne heq
    rw [hsame] at heq
    have htie := le_antisymm ((hother y).trans heq.le) (hnearest y hy)
    rw [hdist, hdist, div_left_inj' hpos.ne', Nat.cast_inj] at htie
    exact Format.round_even hf num hden hne htie

/-- The middle between the largest number of the format `f` and the one that would follow it. -/
def overflow (f : Format) : ℚ :=
  ((f.units (f.infinity - 1) + f.units f.infinity : Nat) : ℚ) / (2 * Nat.pow 2 f.scale : Nat)

theorem overflow_eq {n : Nat} (h : f.units (f.infinity - 1) + f.units f.infinity =
    n * (2 * Nat.pow 2 f.scale)) : overflow f = n := by
  have hpos : (0 : ℚ) < (2 * Nat.pow 2 f.scale : Nat) :=
    Nat.cast_pos.2 (Nat.mul_pos Nat.two_pos (Nat.two_pow_pos _))
  rw [overflow, h, Nat.cast_mul, mul_div_cancel_right₀ _ hpos.ne']

theorem overflow_double : overflow .double = (2 ^ 1024 - 2 ^ 970 : Nat) :=
  overflow_eq (by decide +kernel)

theorem overflow_single : overflow .single = (2 ^ 128 - 2 ^ 103 : Nat) :=
  overflow_eq (by decide +kernel)

/-- **Which quotients `ofRatio` rounds to finite numbers**: those below `overflow`. -/
theorem isFinite_ofRatio_iff (hf : 0 < f.fractionBits) (hinf : 0 < f.infinity) (negative : Bool)
    (num : Nat) {den : Nat} (hden : 0 < den) :
    (ofRatio negative num den : Binary f).isFinite = true ↔ (num : ℚ) / den < overflow f := by
  have hscale : (0 : ℚ) < (2 * Nat.pow 2 f.scale : Nat) :=
    Nat.cast_pos.2 (Nat.mul_pos Nat.two_pos (Nat.two_pow_pos _))
  have hden' : (0 : ℚ) < den := Nat.cast_pos.2 hden
  have hround := Format.round_lt_infinity_iff hf hinf num hden
  show decide (f.round num den < f.infinity) = true ↔ _
  rw [decide_eq_true_eq, hround, overflow, div_lt_div_iff₀ hden' hscale, ← Nat.cast_mul,
    ← Nat.cast_mul, Nat.cast_lt, Nat.mul_left_comm]

/-! ## §4. Conversions. -/

theorem convert_eq_ofRatio {x : Binary f} (h : x.isFinite = true) :
    x.convert g = ofRatio x.negative (f.units x.code) (Nat.pow 2 f.scale) :=
  convert_of_isFinite h

/-- **A number that was converted by `convert` is the nearest one (`IsNearest`).** -/
theorem isNearest_convert (hg : 0 < g.fractionBits) {x : Binary f} (h : x.isFinite = true) :
    (x.convert g).IsNearest x.toRat := by
  rw [convert_eq_ofRatio h]
  exact isNearest_ofRatio hg _ _ (Nat.two_pow_pos _)

/-- **Which numbers are in the range of another format `g`**: those below its `overflow`. -/
theorem isFinite_convert_iff (hg : 0 < g.fractionBits) (hinf : 0 < g.infinity) {x : Binary f}
    (h : x.isFinite = true) : (x.convert g).isFinite = true ↔ |x.toRat| < overflow g := by
  rw [convert_eq_ofRatio h, abs_toRat]
  exact isFinite_ofRatio_iff hg hinf _ _ (Nat.two_pow_pos _)

theorem signedRat_natAbs (n : ℤ) : signedRat (decide (n < 0)) (n.natAbs : ℚ) = n := by
  unfold signedRat
  rw [Nat.cast_natAbs]
  by_cases h : n < 0
  · simp [h, abs_of_neg h]
  · simp [h, abs_of_nonneg (not_lt.1 h)]

/-- **An integer `n` becomes by `ofInt` the nearest number (`IsNearest`).** -/
theorem isNearest_ofInt (hf : 0 < f.fractionBits) (n : ℤ) : (ofInt n : Binary f).IsNearest n := by
  have h := isNearest_ofRatio hf (decide (n < 0)) n.natAbs Nat.one_pos
  rwa [Nat.cast_one, div_one, signedRat_natAbs] at h

/-- **The integer part of a number by `truncate?` is the number cut off `towardZero`.** -/
theorem truncate?_eq {x : Binary f} (h : x.isFinite = true) :
    x.truncate? = some (towardZero x.toRat) := by
  unfold truncate?
  rw [if_pos h]
  refine congrArg some ?_
  have hcut : towardZero x.magnitude = (f.units x.code / Nat.pow 2 f.scale : Nat) :=
    towardZero_div _ _
  unfold toRat signedRat
  cases x.negative
  · exact hcut.symm
  · show -_ = towardZero (-_)
    rw [towardZero_neg, hcut]

theorem truncate?_of_not_isFinite {x : Binary f} (h : ¬ x.isFinite = true) : x.truncate? = none :=
  if_neg h

end Binary

end ConfigTree
