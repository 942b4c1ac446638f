import ConfigTree.Binary.Number
import Mathlib.Tactic.Common

/-!
# Widening loses nothing

A number of four bytes becomes a number of eight bytes and comes back as it was.  Rounding is exact
wherever the quotient is a number of the format, and a number of a narrow format is one of every
format that has at least as many fraction bits and at least its range.

Main results:
  * `Format.code_units`, `Format.units_code` — codes and the numbers they stand for are two names of
    one thing;
  * `Format.round_exact` — rounding a number of the format finds its code;
  * `Format.convert_convert` — a finite code goes to a wider format and back;
  * `Binary.convert_convert` — so does every number, except that NaNs are made one.
-/

namespace ConfigTree

/-- A quotient without remainder is not changed by `roundHalfEven`. -/
theorem roundHalfEven_mul (q : Nat) {d : Nat} (hd : 0 < d) : roundHalfEven (q * d) d = q := by
  unfold roundHalfEven
  simp only [Nat.mul_div_cancel q hd, Nat.mul_mod_left]
  rw [if_pos (by omega)]

/-- A factor of two is one more bit of `Nat.log2`. -/
theorem log2_mul_two_pow {n : Nat} (hn : n ≠ 0) (k : Nat) :
    (n * Nat.pow 2 k).log2 = n.log2 + k := by
  have hpos : 0 < 2 ^ k := Nat.two_pow_pos k
  have hlow : 2 ^ n.log2 ≤ n := Nat.log2_self_le hn
  have hhigh : n < 2 ^ (n.log2 + 1) := Nat.lt_log2_self
  show (n * 2 ^ k).log2 = n.log2 + k
  rw [Nat.log2_eq_iff (Nat.mul_ne_zero hn (Nat.ne_of_gt hpos))]
  constructor
  · rw [Nat.pow_add]
    exact Nat.mul_le_mul_right _ hlow
  · rw [Nat.add_right_comm, Nat.pow_add]
    exact Nat.mul_lt_mul_of_pos_right hhigh hpos

namespace Format

variable (f g : Format)

/-! ## §1. Codes and numbers. -/

/-- How many low bits of the number `n`, counted in units, the format `f` cannot hold. -/
def surplus (n : Nat) : Nat := n.log2 - f.fractionBits

/-- The format `f` holds the number `n`: the `surplus` bits that it has no room for are zero. -/
def Holds (n : Nat) : Prop := Nat.pow 2 (f.surplus n) ∣ n

/-- The code of a number `n` that the format `f` `Holds`. -/
def code (n : Nat) : Nat := f.surplus n * Nat.pow 2 f.fractionBits + n / Nat.pow 2 (f.surplus n)

/-- The bits of a number `n` that a format can hold fill the fraction field, if any are left out
(`0 < f.surplus n`). -/
theorem div_surplus_bounds {n : Nat} (h : 0 < f.surplus n) :
    Nat.pow 2 f.fractionBits ≤ n / Nat.pow 2 (f.surplus n) ∧
      n / Nat.pow 2 (f.surplus n) < 2 * Nat.pow 2 f.fractionBits := by
  have hn : n ≠ 0 := by
    intro hn
    subst hn
    simp [surplus] at h
  have hsum : f.fractionBits + f.surplus n = n.log2 := by
    unfold surplus at h ⊢
    omega
  have hlow : 2 ^ (f.fractionBits + f.surplus n) ≤ n := hsum ▸ Nat.log2_self_le hn
  have hhigh : n < 2 ^ (f.fractionBits + f.surplus n + 1) := hsum ▸ Nat.lt_log2_self
  constructor
  · show 2 ^ f.fractionBits ≤ n / 2 ^ f.surplus n
    rw [Nat.le_div_iff_mul_le (Nat.two_pow_pos _), ← Nat.pow_add]
    exact hlow
  · show n / 2 ^ f.surplus n < 2 * 2 ^ f.fractionBits
    rw [Nat.div_lt_iff_lt_mul (Nat.two_pow_pos _), Nat.mul_assoc, ← Nat.pow_add, Nat.mul_comm,
      ← Nat.pow_succ]
    exact hhigh

/-- A number `n` that no bit of has to be left out is shorter than two rows of `fractionBits`. -/
theorem lt_of_surplus_eq_zero {n : Nat} (h : f.surplus n = 0) :
    n < 2 * Nat.pow 2 f.fractionBits := by
  have hlog : n.log2 ≤ f.fractionBits := by
    unfold surplus at h
    omega
  have hpow : 2 ^ (n.log2 + 1) ≤ 2 ^ (f.fractionBits + 1) :=
    Nat.pow_le_pow_right (by omega) (by omega)
  have hlt : n < 2 ^ (n.log2 + 1) := Nat.lt_log2_self
  have hsucc : 2 ^ (f.fractionBits + 1) = 2 * Nat.pow 2 f.fractionBits := Nat.pow_succ'
  omega

/-- The bits of `n` that the format can hold fit into two rows of `fractionBits`. -/
theorem div_surplus_lt (n : Nat) : n / Nat.pow 2 (f.surplus n) < 2 * Nat.pow 2 f.fractionBits := by
  by_cases hk : f.surplus n = 0
  · rw [hk]
    show n / 1 < _
    rw [Nat.div_one]
    exact f.lt_of_surplus_eq_zero hk
  · exact (f.div_surplus_bounds (Nat.pos_of_ne_zero hk)).2

/-- **The `code` of a number stands for the number** `n` in `units`. -/
theorem units_code {n : Nat} (h : f.Holds n) : f.units (f.code n) = n := by
  have hpos := f.fraction_pos
  by_cases hk : f.surplus n = 0
  · -- a short number is its own code, in the first or the second row of the format
    have hlt := f.lt_of_surplus_eq_zero hk
    have hcode : f.code n = n := by
      unfold code
      rw [hk]
      show 0 * _ + n / 1 = n
      omega
    rw [hcode]
    unfold units
    by_cases hsmall : n < Nat.pow 2 f.fractionBits
    · simp only [Nat.div_eq_of_lt hsmall, Nat.mod_eq_of_lt hsmall, if_true]
    · have hdiv : n / Nat.pow 2 f.fractionBits = 1 := by
        rw [Nat.div_eq_iff hpos]
        omega
      have hmod : n % Nat.pow 2 f.fractionBits = n - Nat.pow 2 f.fractionBits := by
        rw [Nat.mod_eq_sub_mod (by omega), Nat.mod_eq_of_lt (by omega)]
      simp only [hdiv, hmod]
      show (Nat.pow 2 f.fractionBits + (n - Nat.pow 2 f.fractionBits)) * 1 = n
      omega
  · -- otherwise the code is in the row that the surplus says
    obtain ⟨hlow, hhigh⟩ := f.div_surplus_bounds (Nat.pos_of_ne_zero hk)
    obtain ⟨m, hm⟩ : ∃ m, n / Nat.pow 2 (f.surplus n) = Nat.pow 2 f.fractionBits + m :=
      ⟨_, (Nat.add_sub_of_le hlow).symm⟩
    have hcode : f.code n = m + Nat.pow 2 f.fractionBits * (f.surplus n + 1) := by
      unfold code
      rw [hm, Nat.mul_succ, Nat.mul_comm]
      omega
    have hdiv : f.code n / Nat.pow 2 f.fractionBits = f.surplus n + 1 := by
      rw [hcode, Nat.add_mul_div_left _ _ hpos, Nat.div_eq_of_lt (by omega)]
      omega
    have hmod : f.code n % Nat.pow 2 f.fractionBits = m := by
      rw [hcode, Nat.add_mul_mod_self_left, Nat.mod_eq_of_lt (by omega)]
    unfold units
    simp only [hdiv, hmod]
    show (Nat.pow 2 f.fractionBits + m) * Nat.pow 2 (f.surplus n) = n
    rw [← hm]
    exact Nat.div_mul_cancel h

/-- Which bits the number of a code `c` leaves out, its `surplus`, is a matter of the row of `c`. -/
theorem surplus_units (c : Nat) :
    f.surplus (f.units c) = c / Nat.pow 2 f.fractionBits - 1 := by
  have hpos := f.fraction_pos
  have hmod := Nat.mod_lt c hpos
  unfold units surplus
  by_cases he : c / Nat.pow 2 f.fractionBits = 0
  · simp only [he, if_true]
    by_cases hzero : c % Nat.pow 2 f.fractionBits = 0
    · rw [hzero, Nat.log2_zero, Nat.zero_sub]
    · have := (Nat.log2_lt hzero).2 hmod
      omega
  · simp only [he, if_false]
    generalize c / Nat.pow 2 f.fractionBits - 1 = j
    generalize hm : c % Nat.pow 2 f.fractionBits = m at hmod
    have hne : Nat.pow 2 f.fractionBits + m ≠ 0 := by omega
    have hlog : (Nat.pow 2 f.fractionBits + m).log2 = f.fractionBits := by
      rw [Nat.log2_eq_iff hne]
      refine ⟨Nat.le_add_right _ _, ?_⟩
      have hsucc : 2 ^ (f.fractionBits + 1) = 2 * Nat.pow 2 f.fractionBits := Nat.pow_succ'
      omega
    rw [log2_mul_two_pow hne, hlog]
    omega

/-- The format `Holds` the numbers that its codes stand for in `units`. -/
theorem holds_units (c : Nat) : f.Holds (f.units c) := by
  unfold Holds
  rw [surplus_units]
  unfold units
  by_cases he : c / Nat.pow 2 f.fractionBits = 0
  · rw [he]
    exact Nat.one_dvd _
  · simp only [he, if_false]
    exact Nat.dvd_mul_left _ _

/-- **The number of a code `c` has that `code`.** -/
theorem code_units (c : Nat) : f.code (f.units c) = c := by
  have hpos := f.fraction_pos
  have hsplit := Nat.div_add_mod c (Nat.pow 2 f.fractionBits)
  unfold code
  rw [surplus_units]
  unfold units
  by_cases he : c / Nat.pow 2 f.fractionBits = 0
  · simp only [he, if_true] at hsplit ⊢
    show 0 * _ + c % Nat.pow 2 f.fractionBits / 1 = c
    omega
  · simp only [he, if_false]
    obtain ⟨j, hj⟩ := Nat.exists_eq_succ_of_ne_zero he
    rw [hj] at hsplit ⊢
    have hrow : 0 < Nat.pow 2 j := Nat.two_pow_pos j
    rw [Nat.succ_sub_one, Nat.mul_div_cancel _ hrow]
    rw [Nat.mul_succ, Nat.mul_comm] at hsplit
    omega

/-! ## §2. Rounding what needs no rounding. -/

/-- **Rounding a number that the format `Holds` finds its code**: `round` of `num / den` is the
`code` of the same number in units, or `infinity`. -/
theorem round_exact {num den n : Nat} (hden : 0 < den) (hn : num * Nat.pow 2 f.scale = n * den)
    (h : f.Holds n) : f.round num den = min f.infinity (f.code n) := by
  unfold round
  simp only [hn, Nat.mul_div_cancel n hden]
  congr 2
  -- the low bits that would be cut off are zero
  have hcut : n * den = n / Nat.pow 2 (f.surplus n) * (den * Nat.pow 2 (f.surplus n)) := by
    rw [Nat.mul_left_comm, Nat.div_mul_cancel h, Nat.mul_comm]
  show roundHalfEven (n * den) (den * Nat.pow 2 (f.surplus n)) = n / Nat.pow 2 (f.surplus n)
  rw [hcut]
  exact roundHalfEven_mul _ (Nat.mul_pos hden (Nat.two_pow_pos _))

/-! ## §3. Wider formats. -/

/-- The second format `g` has room for all that the first, `f`, can write. -/
structure FitsIn : Prop where
  /-- No `fractionBits` are missing. -/
  fraction : f.fractionBits ≤ g.fractionBits
  /-- No `exponentBits` are missing. -/
  exponent : f.exponentBits ≤ g.exponentBits
  /-- There are exponents of `f` besides those of zero and of infinity. -/
  rows : 2 ≤ f.exponentBits

theorem single_fitsIn_double : single.FitsIn double :=
  ⟨by decide, by decide, by decide⟩

variable {f g}

/-- The least positive number of a format is also one of a wider format, so `scale` only grows, and
the rows that the wide format has in addition make up for the finer units. -/
theorem FitsIn.scale (h : f.FitsIn g) : f.scale ≤ g.scale ∧ Nat.pow 2 f.exponentBits +
    (g.scale - f.scale) + f.fractionBits ≤ Nat.pow 2 g.exponentBits + g.fractionBits := by
  obtain ⟨hfraction, hexponent, hrows⟩ := h
  obtain ⟨i, hi⟩ : ∃ i, f.exponentBits = i + 2 := ⟨_, (Nat.sub_add_cancel hrows).symm⟩
  obtain ⟨j, hj⟩ : ∃ j, g.exponentBits = j + 2 := ⟨_, (Nat.sub_add_cancel (by omega)).symm⟩
  have hpow : Nat.pow 2 i ≤ Nat.pow 2 j := Nat.pow_le_pow_right (by omega) (by omega)
  have hpos : 0 < Nat.pow 2 i := Nat.two_pow_pos i
  have hf : Nat.pow 2 (i + 1) = Nat.pow 2 i * 2 := rfl
  have hf' : Nat.pow 2 (i + 2) = Nat.pow 2 i * 2 * 2 := rfl
  have hg : Nat.pow 2 (j + 1) = Nat.pow 2 j * 2 := rfl
  have hg' : Nat.pow 2 (j + 2) = Nat.pow 2 j * 2 * 2 := rfl
  have hfs : f.scale = Nat.pow 2 i * 2 - 2 + f.fractionBits := by
    rw [Format.scale, hi, ← hf]
    rfl
  have hgs : g.scale = Nat.pow 2 j * 2 - 2 + g.fractionBits := by
    rw [Format.scale, hj, ← hg]
    rfl
  rw [hi, hj, hf', hg', hfs, hgs]
  generalize Nat.pow 2 i = a at *
  generalize Nat.pow 2 j = b at *
  omega

variable {c : Nat}

/-- The `surplus` of a number of the narrow format `f`, counted in the units of the wide one,
`g`. -/
theorem surplus_widened (h : f.FitsIn g) :
    g.surplus (f.units c * Nat.pow 2 (g.scale - f.scale)) ≤
      f.surplus (f.units c) + (g.scale - f.scale) + f.fractionBits - g.fractionBits := by
  have hfraction := h.fraction
  unfold surplus
  by_cases hzero : f.units c = 0
  · simp [hzero]
  · rw [log2_mul_two_pow hzero]
    omega

/-- The wide format `g` `Holds` the numbers of the narrow one. -/
theorem holds_widened (h : f.FitsIn g) :
    g.Holds (f.units c * Nat.pow 2 (g.scale - f.scale)) := by
  have hbound := surplus_widened (c := c) h
  have hfraction := h.fraction
  -- the zero bits of the number and those of the change of units together suffice
  have hdvd : Nat.pow 2 (f.surplus (f.units c)) * Nat.pow 2 (g.scale - f.scale) ∣
      f.units c * Nat.pow 2 (g.scale - f.scale) := Nat.mul_dvd_mul_right (f.holds_units c) _
  refine Nat.dvd_trans ?_ hdvd
  show 2 ^ _ ∣ 2 ^ _ * 2 ^ _
  rw [← Nat.pow_add]
  exact Nat.pow_dvd_pow 2 (by omega)

/-- A finite number of the narrow format, `c < f.infinity`, is finite in the wide one. -/
theorem code_widened_lt (h : f.FitsIn g) (hc : c < f.infinity) :
    g.code (f.units c * Nat.pow 2 (g.scale - f.scale)) < g.infinity := by
  have hbound := surplus_widened (c := c) h
  have hrange := h.scale.2
  have hfraction := h.fraction
  have hrows : Nat.pow 2 2 ≤ Nat.pow 2 f.exponentBits := Nat.pow_le_pow_right (by omega) h.rows
  have hwide : Nat.pow 2 f.exponentBits ≤ Nat.pow 2 g.exponentBits :=
    Nat.pow_le_pow_right (by omega) h.exponent
  rw [show Nat.pow 2 2 = 4 from rfl] at hrows
  -- the row of the code is below that of infinity
  have hrow : c / Nat.pow 2 f.fractionBits < Nat.pow 2 f.exponentBits - 1 := by
    rw [Nat.div_lt_iff_lt_mul f.fraction_pos]
    exact hc
  rw [f.surplus_units c] at hbound
  generalize f.units c * Nat.pow 2 (g.scale - f.scale) = n at hbound
  have hquotient := g.div_surplus_lt n
  have hrows : g.surplus n + 2 ≤ Nat.pow 2 g.exponentBits - 1 := by
    omega
  have hmul := Nat.mul_le_mul_right (Nat.pow 2 g.fractionBits) hrows
  rw [Nat.add_mul] at hmul
  unfold code infinity
  omega

/-- **Widening keeps the number**: `convert` from `f` to a wider `g` gives the `code` of the same
number. -/
theorem convert_widened (h : f.FitsIn g) (hc : c < f.infinity) :
    f.convert g c = g.code (f.units c * Nat.pow 2 (g.scale - f.scale)) := by
  have hscale : f.units c * Nat.pow 2 g.scale =
      f.units c * Nat.pow 2 (g.scale - f.scale) * Nat.pow 2 f.scale := by
    rw [Nat.mul_assoc]
    congr 1
    show 2 ^ g.scale = 2 ^ _ * 2 ^ _
    rw [← Nat.pow_add, Nat.sub_add_cancel h.scale.1]
  have hden : 0 < Nat.pow 2 f.scale := Nat.two_pow_pos _
  unfold convert
  rw [g.round_exact hden hscale (holds_widened h)]
  exact Nat.min_eq_right (Nat.le_of_lt (code_widened_lt h hc))

/-- **A finite code `c` goes to a wider format and comes back**: `convert` there and `convert` back
is `c`. -/
theorem convert_convert (h : f.FitsIn g) (hc : c < f.infinity) :
    g.convert f (f.convert g c) = c := by
  have hscale : f.units c * Nat.pow 2 (g.scale - f.scale) * Nat.pow 2 f.scale =
      f.units c * Nat.pow 2 g.scale := by
    rw [Nat.mul_assoc]
    congr 1
    show 2 ^ _ * 2 ^ _ = 2 ^ g.scale
    rw [← Nat.pow_add, Nat.sub_add_cancel h.scale.1]
  have hden : 0 < Nat.pow 2 g.scale := Nat.two_pow_pos _
  rw [convert_widened h hc]
  unfold convert
  rw [g.units_code (holds_widened h), f.round_exact hden hscale (f.holds_units c), f.code_units]
  exact Nat.min_eq_right (Nat.le_of_lt hc)

end Format

namespace Binary

variable {f g : Format}

variable {x : Binary f}

@[simp] theorem isNaN_nan (h : 0 < f.fractionBits) (negative : Bool) :
    (nan negative : Binary f).isNaN = true := by
  have hhalf : 2 ^ 1 ≤ 2 ^ f.fractionBits := Nat.pow_le_pow_right (by omega) h
  have hpow : 2 ^ f.fractionBits = Nat.pow 2 f.fractionBits := rfl
  show decide (f.infinity < f.infinity + Nat.pow 2 f.fractionBits / 2) = true
  rw [decide_eq_true_eq]
  omega

theorem not_isNaN_of_isFinite (h : x.isFinite = true) : ¬ x.isNaN = true := by
  simp only [isFinite, isNaN, decide_eq_true_eq] at h ⊢
  omega

theorem convert_of_isNaN (h : x.isNaN = true) : x.convert g = nan x.negative := by
  unfold convert
  rw [if_pos h]

theorem convert_of_isFinite (h : x.isFinite = true) :
    x.convert g = ofCode x.negative (f.convert g x.code) (g.round_le _ _) := by
  unfold convert
  rw [if_neg (not_isNaN_of_isFinite h), if_pos h]

/-- **A number `x` goes to a wider format and comes back as it was**, except that of a NaN only the
sign is kept (`nan x.negative`). -/
theorem convert_convert (h : f.FitsIn g) (hf : 0 < f.fractionBits) (x : Binary f) :
    (x.convert g).convert f = if x.isNaN then nan x.negative else x := by
  by_cases hnan : x.isNaN = true
  · rw [if_pos hnan, convert_of_isNaN hnan,
      convert_of_isNaN (isNaN_nan (Nat.lt_of_lt_of_le hf h.fraction) _)]
    rfl
  · rw [if_neg hnan]
    by_cases hfinite : x.isFinite = true
    · -- the code goes there and back, and the sign is kept
      have hlt : x.code < f.infinity := by simpa [isFinite] using hfinite
      have hwidened : f.convert g x.code < g.infinity := by
        rw [Format.convert_widened h hlt]
        exact Format.code_widened_lt h hlt
      have hback : f.convert g x.code < g.infinity → (ofCode x.negative (f.convert g x.code)
          (g.round_le _ _) : Binary g).isFinite = true := fun hlt => decide_eq_true hlt
      rw [convert_of_isFinite hfinite, convert_of_isFinite (hback hwidened)]
      show ofCode x.negative (g.convert f (f.convert g x.code)) _ = x
      obtain ⟨negative, c, hsign⟩ := x
      simp only [Format.convert_convert h hlt, ofCode]
    · -- what is neither finite nor a NaN is infinite in every format
      obtain ⟨negative, c, hsign⟩ := x
      have hinf : c = f.infinity := by
        simp only [isNaN, isFinite, decide_eq_true_eq] at hnan hfinite
        omega
      subst hinf
      simp [convert, isNaN, isFinite, infinity, ofCode]

end Binary

end ConfigTree
