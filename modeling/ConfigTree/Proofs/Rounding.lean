import ConfigTree.Proofs.Widening
import Mathlib.Data.Nat.Dist

/-!
# Rounding finds the nearest number

No number of a format is nearer to a quotient than the one that rounding finds, where infinity
stands for the first number beyond the format.  So a number that is converted to a format becomes
the nearest number of that format.

Main results:
  * `Format.units_lt_units` — codes are ordered as the numbers are;
  * `Format.round_nearest` — no code is nearer than the rounded one;
  * `Binary.convert_nearest` — no number of a format is nearer than the converted one.
-/

namespace ConfigTree

/-! ## §1. Rounding to a natural number. -/

theorem roundHalfEven_bounds (num den : Nat) :
    num / den ≤ roundHalfEven num den ∧ roundHalfEven num den ≤ num / den + 1 := by
  have := Nat.mod_lt (num / den) Nat.two_pos
  unfold roundHalfEven
  dsimp only
  split
  · omega
  · split <;> omega

/-- No multiple `q * den` of the denominator is nearer than the one that `roundHalfEven` gives. -/
theorem dist_roundHalfEven_le (num q : Nat) {den : Nat} (hden : 0 < den) :
    Nat.dist (roundHalfEven num den * den) num ≤ Nat.dist (q * den) num := by
  have hsplit := Nat.div_add_mod num den
  have hrest := Nat.mod_lt num hden
  rw [Nat.mul_comm] at hsplit
  -- the multiples next to the quotient are the nearest below and above
  have hnext : (num / den + 1) * den = num / den * den + den := Nat.succ_mul _ _
  have hq : q * den ≤ num / den * den ∨ (num / den + 1) * den ≤ q * den := by
    by_cases h : q ≤ num / den
    · exact .inl (Nat.mul_le_mul_right _ h)
    · exact .inr (Nat.mul_le_mul_right _ (by omega))
  unfold roundHalfEven Nat.dist
  dsimp only
  split
  · omega
  · split
    · omega
    · -- at the midpoint both are as near
      have hparity : num / den % 2 = 0 ∨ num / den % 2 = 1 := by omega
      rcases hparity with h | h
      · rw [h, Nat.add_zero]
        omega
      · rw [h]
        omega

namespace Format

variable (f : Format)

/-! ## §2. Codes are ordered as the numbers are. -/

theorem surplus_le_surplus {n m : Nat} (h : n ≤ m) : f.surplus n ≤ f.surplus m := by
  have hlog : n.log2 ≤ m.log2 := by
    by_cases hn : n = 0
    · rw [hn, Nat.log2_zero]
      exact Nat.zero_le _
    · have hlow : 2 ^ n.log2 ≤ n := Nat.log2_self_le hn
      have hhigh : m < 2 ^ (m.log2 + 1) := Nat.lt_log2_self
      have hpow : 2 ^ n.log2 < 2 ^ (m.log2 + 1) := by omega
      have := (Nat.pow_lt_pow_iff_right (by omega)).1 hpow
      omega
  unfold surplus
  omega

theorem code_le_code {n m : Nat} (h : n ≤ m) : f.code n ≤ f.code m := by
  have hsurplus := f.surplus_le_surplus h
  unfold code
  by_cases hrow : f.surplus n = f.surplus m
  · rw [hrow]
    exact Nat.add_le_add_left (Nat.div_le_div_right h) _
  · -- the code of the greater one is in a later row
    have hn := f.div_surplus_lt n
    have hm := (f.div_surplus_bounds (n := m) (by omega)).1
    have hrows := Nat.mul_le_mul_right (Nat.pow 2 f.fractionBits)
      (show f.surplus n + 1 ≤ f.surplus m by omega)
    rw [Nat.succ_mul] at hrows
    omega

/-- **Codes are ordered as the numbers are**: `units` is strictly monotone. -/
theorem units_lt_units {c d : Nat} (h : c < d) : f.units c < f.units d := by
  by_contra hle
  have := f.code_le_code (Nat.le_of_not_lt hle)
  rw [code_units, code_units] at this
  omega

theorem units_le_units {c d : Nat} (h : c ≤ d) : f.units c ≤ f.units d := by
  rcases Nat.lt_or_eq_of_le h with h | rfl
  · exact Nat.le_of_lt (f.units_lt_units h)
  · exact Nat.le_refl _

/-! ## §3. Rounding to the format. -/

/-- The number in `units` of a code in the row `k + 1`. -/
theorem units_row (k : Nat) {m : Nat} (hm : m < Nat.pow 2 f.fractionBits) :
    f.units ((k + 1) * Nat.pow 2 f.fractionBits + m) =
      (Nat.pow 2 f.fractionBits + m) * Nat.pow 2 k := by
  have hdiv : ((k + 1) * Nat.pow 2 f.fractionBits + m) / Nat.pow 2 f.fractionBits = k + 1 := by
    rw [Nat.mul_comm, Nat.mul_add_div f.fraction_pos, Nat.div_eq_of_lt hm, Nat.add_zero]
  have hmod : ((k + 1) * Nat.pow 2 f.fractionBits + m) % Nat.pow 2 f.fractionBits = m := by
    rw [Nat.mul_comm, Nat.mul_add_mod, Nat.mod_eq_of_lt hm]
  unfold units
  simp only [hdiv, hmod]
  rfl

/-- The number in `units` of a code that is counted from the row `k` before, up to the first of the
row after. -/
theorem units_add {k q : Nat} (hlow : 0 < k → Nat.pow 2 f.fractionBits ≤ q)
    (hhigh : q ≤ 2 * Nat.pow 2 f.fractionBits) :
    f.units (k * Nat.pow 2 f.fractionBits + q) = q * Nat.pow 2 k := by
  have hpos := f.fraction_pos
  by_cases hfirst : q < Nat.pow 2 f.fractionBits
  · -- without a row before, the number is its own code
    have hk : k = 0 := by
      by_contra hk
      have := hlow (Nat.pos_of_ne_zero hk)
      omega
    rw [hk, Nat.zero_mul, Nat.zero_add]
    unfold units
    rw [Nat.div_eq_of_lt hfirst, Nat.mod_eq_of_lt hfirst]
    simp
  · by_cases hlast : q = 2 * Nat.pow 2 f.fractionBits
    · have hcode : k * Nat.pow 2 f.fractionBits + q =
          (k + 1 + 1) * Nat.pow 2 f.fractionBits + 0 := by
        rw [hlast, Nat.succ_mul (k + 1), Nat.succ_mul k]
        omega
      have hrow : Nat.pow 2 (k + 1) = 2 * Nat.pow 2 k := Nat.pow_succ'
      rw [hcode, f.units_row (k + 1) hpos, hlast, hrow, Nat.add_zero]
      ac_rfl
    · have hcode : k * Nat.pow 2 f.fractionBits + q =
          (k + 1) * Nat.pow 2 f.fractionBits + (q - Nat.pow 2 f.fractionBits) := by
        rw [Nat.succ_mul]
        omega
      rw [hcode, f.units_row k (by omega)]
      congr 1
      omega

/-- The number that a quotient `num / den`, counted in units, is rounded to before the range is
looked at; `k` is the `surplus`. -/
theorem units_rounded (num den : Nat) {k : Nat} (hk : k = f.surplus (num / den)) :
    f.units (k * Nat.pow 2 f.fractionBits + roundHalfEven num (den * Nat.pow 2 k)) =
      roundHalfEven num (den * Nat.pow 2 k) * Nat.pow 2 k := by
  have hbounds := roundHalfEven_bounds num (den * Nat.pow 2 k)
  rw [← Nat.div_div_eq_div_mul] at hbounds
  have hlt := f.div_surplus_lt (num / den)
  rw [← hk] at hlt
  refine f.units_add (fun hpos => ?_) (Nat.le_trans hbounds.2 hlt)
  rw [hk] at hpos
  have hlow := (f.div_surplus_bounds hpos).1
  rw [← hk] at hlow
  exact Nat.le_trans hlow hbounds.1

/-- No number of the format is nearer to `num / den` than that one. -/
theorem dist_rounded_le (num : Nat) {den k : Nat} (hden : 0 < den)
    (hk : k = f.surplus (num / den)) (c : Nat) :
    Nat.dist (f.units (k * Nat.pow 2 f.fractionBits + roundHalfEven num (den * Nat.pow 2 k)) * den)
      num ≤ Nat.dist (f.units c * den) num := by
  have hstep : 0 < den * Nat.pow 2 k := Nat.mul_pos hden (Nat.two_pow_pos k)
  have hunits (i : Nat) : i * Nat.pow 2 k * den = i * (den * Nat.pow 2 k) := by
    rw [Nat.mul_assoc, Nat.mul_comm den]
  rw [f.units_rounded num den hk, hunits]
  by_cases hrow : k ≤ f.surplus (f.units c)
  · -- a number of this row or a later one is a multiple of the step
    obtain ⟨i, hi⟩ := Nat.dvd_trans (Nat.pow_dvd_pow 2 hrow) (f.holds_units c)
    have hmultiple : f.units c * den = i * (den * Nat.pow 2 k) := by
      rw [hi, ← hunits]
      show 2 ^ k * i * den = i * 2 ^ k * den
      rw [Nat.mul_comm (2 ^ k)]
    rw [hmultiple]
    exact dist_roundHalfEven_le num i hstep
  · -- the first number of this row is nearer than a number of an earlier one
    have hpos : 0 < f.surplus (num / den) := by omega
    have hfirst : Nat.pow 2 f.fractionBits * (den * Nat.pow 2 k) ≤ num := by
      have hlow := (f.div_surplus_bounds hpos).1
      rw [← hk, Nat.div_div_eq_div_mul, Nat.le_div_iff_mul_le hstep] at hlow
      exact hlow
    have hearlier : f.units c ≤ Nat.pow 2 f.fractionBits * Nat.pow 2 k := by
      have hlog : (f.units c).log2 + 1 ≤ f.fractionBits + k := by
        unfold surplus at hrow
        omega
      have hlt : f.units c < 2 ^ ((f.units c).log2 + 1) := Nat.lt_log2_self
      have hpow : 2 ^ ((f.units c).log2 + 1) ≤ 2 ^ (f.fractionBits + k) :=
        Nat.pow_le_pow_right (by omega) hlog
      have hsum : 2 ^ (f.fractionBits + k) = Nat.pow 2 f.fractionBits * Nat.pow 2 k :=
        Nat.pow_add 2 _ _
      omega
    have hbelow := Nat.mul_le_mul_right den hearlier
    rw [hunits] at hbelow
    refine Nat.le_trans (dist_roundHalfEven_le num (Nat.pow 2 f.fractionBits) hstep) ?_
    unfold Nat.dist
    omega

/-- **No code `c` is nearer to `num / den` than the one that `round` gives.** -/
theorem round_nearest {f : Format} (num : Nat) {den c : Nat} (hden : 0 < den)
    (hc : c ≤ f.infinity) :
    Nat.dist (f.units (f.round num den) * den) (num * Nat.pow 2 f.scale) ≤
      Nat.dist (f.units c * den) (num * Nat.pow 2 f.scale) := by
  have hnearest (c : Nat) := dist_rounded_le f (num * Nat.pow 2 f.scale) hden rfl c
  unfold round
  dsimp only
  unfold surplus at hnearest
  generalize num * Nat.pow 2 f.scale = n at hnearest ⊢
  generalize (n / den).log2 - f.fractionBits = k at hnearest ⊢
  generalize k * Nat.pow 2 f.fractionBits + roundHalfEven n (den * Nat.pow 2 k) = r at hnearest ⊢
  by_cases hr : r ≤ f.infinity
  · rw [Nat.min_eq_right hr]
    exact hnearest c
  · -- what is rounded beyond infinity is beyond infinity
    rw [Nat.min_eq_left (by omega)]
    have hinf := hnearest f.infinity
    have hbeyond := Nat.mul_lt_mul_of_pos_right (f.units_lt_units (Nat.lt_of_not_le hr)) hden
    have hle := Nat.mul_le_mul_right den (f.units_le_units hc)
    unfold Nat.dist at hinf ⊢
    omega

end Format

namespace Binary

variable {f g : Format}

/-! ## §4. Conversions. -/

/-- The number of `x` counted in the `units` of its format; infinity is the first number beyond the
format. -/
def signedUnits (x : Binary f) : Int :=
  if x.negative then -(f.units x.code : Int) else f.units x.code

/-- How far apart the numbers `x` and `y` are, counted in the product of the units of their
formats. -/
def distance (x : Binary f) (y : Binary g) : Nat :=
  (y.signedUnits * Nat.pow 2 f.scale - x.signedUnits * Nat.pow 2 g.scale).natAbs

/-- Numbers of one sign are as far apart in `distance` as their magnitudes, numbers of different
signs farther. -/
theorem le_distance (x : Binary f) (y : Binary g) :
    Nat.dist (g.units y.code * Nat.pow 2 f.scale) (f.units x.code * Nat.pow 2 g.scale) ≤
        x.distance y ∧
      (y.negative = x.negative → x.distance y =
        Nat.dist (g.units y.code * Nat.pow 2 f.scale) (f.units x.code * Nat.pow 2 g.scale)) := by
  unfold distance signedUnits Nat.dist
  generalize g.units y.code = a
  generalize f.units x.code = b
  generalize Nat.pow 2 f.scale = p
  generalize Nat.pow 2 g.scale = q
  have hap : (a : Int) * p = (a * p : Nat) := (Int.natCast_mul _ _).symm
  have hbq : (b : Int) * q = (b * q : Nat) := (Int.natCast_mul _ _).symm
  constructor
  · cases x.negative <;> cases y.negative <;>
      simp only [if_true, if_false, reduceCtorEq, Int.neg_mul, hap, hbq] <;> omega
  · intro hsign
    rw [hsign]
    cases x.negative <;>
      simp only [if_true, if_false, reduceCtorEq, Int.neg_mul, hap, hbq] <;> omega

/-- **No number `y` of a format is nearer to `x` than `x.convert g`.** -/
theorem convert_nearest {x : Binary f} (hx : x.isFinite = true) {y : Binary g}
    (hy : ¬ y.isNaN = true) : x.distance (x.convert g) ≤ x.distance y := by
  have hden : 0 < Nat.pow 2 f.scale := Nat.two_pow_pos _
  have hcode : y.code ≤ g.infinity := by
    simpa [isNaN] using hy
  have hnearest := Format.round_nearest (f.units x.code) hden hcode
  rw [convert_of_isFinite hx]
  -- the sign is kept
  have hsame := (x.le_distance (ofCode x.negative (f.convert g x.code) (g.round_le _ _))).2 rfl
  rw [hsame]
  exact Nat.le_trans hnearest (x.le_distance y).1

end Binary

end ConfigTree
