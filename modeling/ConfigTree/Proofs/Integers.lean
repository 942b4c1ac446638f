import ConfigTree.Value
import ConfigTree.Proofs.Conversion
import ConfigTree.Proofs.RationalRounding
import Mathlib.Tactic.IntervalCases

/-!
# Integers and doubles

A double becomes the integer that is left when its fraction is cut off, if that integer has 64 bits,
and nothing else.  An integer becomes the nearest double; up to `2 ^ 53` that is the integer itself,
beyond it is at most 512 away, and the last 512 integers become `2 ^ 63`, which is no integer of 64
bits any more.

Main results:
  * `Value.toInt?_double` — what a double becomes as an integer;
  * `Double.toRat_ofInt`, `Double.abs_toRat_ofInt_sub_le` — how near the double of an integer is;
  * `Double.le_toRat_ofInt_iff` — which integers become `2 ^ 63`;
  * `Value.int_double_exact` — what is lost between the two kinds.
-/

namespace ConfigTree

/-! ## §1. Cutting off stays between integers. -/

theorem le_towardZero {n : ℤ} {q : ℚ} (h : (n : ℚ) ≤ q) : n ≤ towardZero q := by
  unfold towardZero
  split
  · exact Int.le_floor.2 h
  · exact Int.cast_le.1 (h.trans (Int.le_ceil q))

theorem towardZero_le {n : ℤ} {q : ℚ} (h : q ≤ n) : towardZero q ≤ n := by
  unfold towardZero
  split
  · exact Int.cast_le.1 ((Int.floor_le q).trans h)
  · exact Int.ceil_le.2 h

theorem towardZero_lt {n : ℤ} (hn : 0 < n) {q : ℚ} (h : q < n) : towardZero q < n := by
  unfold towardZero
  split
  · exact Int.floor_lt.2 h
  · rename_i hneg
    exact (Int.ceil_le.2 (show q ≤ (0 : ℤ) by push_cast; linarith)).trans_lt hn

theorem le_towardZero_iff {n : ℤ} (hn : 0 < n) {q : ℚ} : n ≤ towardZero q ↔ (n : ℚ) ≤ q := by
  constructor
  · intro h
    by_contra hlt
    have := towardZero_lt hn (not_le.1 hlt)
    omega
  · exact le_towardZero

/-! ## §2. Integers that a format holds. -/

namespace Format

variable {f : Format}

/-- A short number `a` with zeros behind it: the format `Holds` it. -/
theorem holds_mul_two_pow {a : Nat} (ha : a < 2 * Nat.pow 2 f.fractionBits) (m : Nat) :
    f.Holds (a * 2 ^ m) := by
  by_cases hzero : a = 0
  · rw [hzero, Nat.zero_mul]
    exact Nat.dvd_zero _
  have hlog : a.log2 ≤ f.fractionBits := by
    have hsucc : 2 ^ (f.fractionBits + 1) = 2 * Nat.pow 2 f.fractionBits := Nat.pow_succ'
    have := (Nat.log2_lt hzero (k := f.fractionBits + 1)).2 (by omega)
    omega
  have hlogs : (a * 2 ^ m).log2 = a.log2 + m := log2_mul_two_pow hzero m
  unfold Holds surplus
  rw [hlogs]
  exact Nat.dvd_trans (Nat.pow_dvd_pow 2 (show _ ≤ m by omega)) (Nat.dvd_mul_left _ _)

/-- A short number `a` with zeros behind it, counted in units; the first power of two that is not
short is itself a one with zeros behind it. -/
theorem holds_units_mul_two_pow {a : Nat} (ha : a ≤ 2 * Nat.pow 2 f.fractionBits) (m : Nat) :
    f.Holds (a * 2 ^ m * Nat.pow 2 f.scale) := by
  have hsum (i : Nat) : 2 ^ i * Nat.pow 2 f.scale = 2 ^ (i + f.scale) := (Nat.pow_add 2 _ _).symm
  rcases Nat.lt_or_eq_of_le ha with hlt | heq
  · rw [Nat.mul_assoc, hsum]
    exact holds_mul_two_pow hlt _
  · have hpow : a = 2 ^ (f.fractionBits + 1) := heq.trans Nat.pow_succ'.symm
    have hone : 1 < 2 * Nat.pow 2 f.fractionBits := by
      have := f.fraction_pos
      omega
    rw [hpow, ← Nat.pow_add, hsum, ← Nat.one_mul (2 ^ _)]
    exact holds_mul_two_pow hone _

end Format

namespace Binary

variable {f : Format}

/-- Numbers of greater `code` are of greater `magnitude`. -/
theorem magnitude_le_magnitude {x y : Binary f} (h : x.code ≤ y.code) :
    x.magnitude ≤ y.magnitude := by
  unfold magnitude
  exact div_le_div_of_nonneg_right (Nat.cast_le.2 (f.units_le_units h)) (Nat.cast_nonneg _)

theorem magnitude_eq {x : Binary f} {n : Nat} (h : f.units x.code = n * Nat.pow 2 f.scale) :
    x.magnitude = n := by
  have hscale : ((Nat.pow 2 f.scale : Nat) : ℚ) ≠ 0 :=
    Nat.cast_ne_zero.2 (Nat.ne_of_gt (Nat.two_pow_pos _))
  rw [magnitude, h, Nat.cast_mul, mul_div_cancel_right₀ _ hscale]

/-- A number `n` that the format `Holds` is not changed by the rounding of `ofRatio`. -/
theorem toRat_ofRatio_of_holds {negative : Bool} {n : Nat} (h : f.Holds (n * Nat.pow 2 f.scale))
    (hfinite : (ofRatio negative n 1 : Binary f).isFinite = true) :
    (ofRatio negative n 1 : Binary f).toRat = signedRat negative n := by
  have hround : f.round n 1 = min f.infinity (f.code (n * Nat.pow 2 f.scale)) :=
    f.round_exact Nat.one_pos (Nat.mul_one _).symm h
  have hcode : f.round n 1 < f.infinity := of_decide_eq_true hfinite
  refine congrArg (signedRat negative) (magnitude_eq ?_)
  show f.units (f.round n 1) = n * Nat.pow 2 f.scale
  rw [hround] at hcode ⊢
  rw [Nat.min_eq_right (by omega), f.units_code h]

end Binary

/-! ## §3. The double of an integer. -/

namespace Double

open Binary (IsNearest)

/-- An integer of 64 bits, `n`, is in the range of doubles: `ofRatio` is finite. -/
theorem isFinite_ofRatio {negative : Bool} {n : Nat} (h : n ≤ 2 ^ 63) :
    (Binary.ofRatio negative n 1 : Double).isFinite = true := by
  rw [Binary.isFinite_ofRatio_iff (by decide) (by decide) negative n Nat.one_pos,
    Binary.overflow_double, Nat.cast_one, div_one, Nat.cast_lt]
  have hlarge : 2 ^ 63 < 2 ^ 1024 - 2 ^ 970 := by decide +kernel
  exact Nat.lt_of_le_of_lt h hlarge

theorem isFinite_ofInt {n : ℤ} (h : n.natAbs ≤ 2 ^ 63) : (Binary.ofInt n : Double).isFinite = true :=
  isFinite_ofRatio h

/-- There is a double `y` for a short number `a` with zeros behind it. -/
theorem exists_toRat_eq (negative : Bool) {a m : Nat} (ha : a ≤ 2 ^ 53)
    (h : a * 2 ^ m ≤ 2 ^ 63) :
    ∃ y : Double, y.isFinite = true ∧ y.toRat = signedRat negative (a * 2 ^ m : Nat) := by
  have hrow : 2 * Nat.pow 2 Format.double.fractionBits = 2 ^ 53 := by decide
  exact ⟨.ofRatio negative (a * 2 ^ m) 1, isFinite_ofRatio h,
    Binary.toRat_ofRatio_of_holds (Format.holds_units_mul_two_pow (by omega) m)
      (isFinite_ofRatio h)⟩

/-- **A short integer `n` is a double**: `ofInt` does not round it. -/
theorem toRat_ofInt {n : ℤ} (h : n.natAbs ≤ 2 ^ 53) : (Binary.ofInt n : Double).toRat = n := by
  obtain ⟨y, hy, hrat⟩ := exists_toRat_eq (decide (n < 0)) (m := 0) h (by omega)
  rw [Nat.pow_zero, Nat.mul_one, Binary.signedRat_natAbs] at hrat
  have hle := (Binary.isNearest_ofInt (f := .double) (by decide) n).nearest y hy
  rw [hrat, sub_self, abs_zero] at hle
  exact sub_eq_zero.1 (abs_eq_zero.1 (le_antisymm hle (abs_nonneg _)))

/-- **The double `ofInt n` is at most 512 away from the integer.** -/
theorem abs_toRat_ofInt_sub_le {n : ℤ} (h : n.natAbs ≤ 2 ^ 63) :
    |(Binary.ofInt n : Double).toRat - n| ≤ 512 := by
  -- a multiple of 1024 is near
  obtain ⟨y, hy, hrat⟩ := exists_toRat_eq (decide (n < 0)) (a := (n.natAbs + 512) / 1024)
    (m := 10) (by omega) (by omega)
  refine ((Binary.isNearest_ofInt (by decide) n).nearest y hy).trans ?_
  have hsame := (abs_signedRat_sub (decide (n < 0)) false
    (Nat.cast_nonneg (α := ℚ) ((n.natAbs + 512) / 1024 * 2 ^ 10)) (Nat.cast_nonneg n.natAbs)).2
  rw [hrat, ← Binary.signedRat_natAbs n, hsame, abs_le]
  constructor
  · have : n.natAbs ≤ (n.natAbs + 512) / 1024 * 2 ^ 10 + 512 := by omega
    have : (n.natAbs : ℚ) ≤ ((n.natAbs + 512) / 1024 * 2 ^ 10 : Nat) + 512 := by exact_mod_cast this
    linarith
  · have : (n.natAbs + 512) / 1024 * 2 ^ 10 ≤ n.natAbs + 512 := by omega
    have : (((n.natAbs + 512) / 1024 * 2 ^ 10 : Nat) : ℚ) ≤ n.natAbs + 512 := by exact_mod_cast this
    linarith

/-- The number `k` codes before that of `2 ^ 63`. -/
def beforeEdge (k : Nat) : Double where
  negative := false
  code := 0x43E0000000000000 - k
  code_lt := Nat.lt_of_le_of_lt (Nat.sub_le _ _) (by decide)

/-- Before the edge numbers are 1024 apart, those of `beforeEdge k`. -/
theorem magnitude_beforeEdge {k : Nat} (hk : k ≤ 2) :
    (beforeEdge k).magnitude = (2 ^ 63 - 1024 * k : Nat) := by
  interval_cases k <;> exact Binary.magnitude_eq (by decide +kernel)

/-- A double `x` that is not negative is its `magnitude`. -/
theorem toRat_of_not_negative {x : Double} (h : x.negative = false) : x.toRat = x.magnitude := by
  rw [Binary.toRat, h]
  rfl

theorem toRat_beforeEdge {k : Nat} (hk : k ≤ 2) : (beforeEdge k).toRat = 2 ^ 63 - 1024 * k := by
  rw [toRat_of_not_negative rfl, magnitude_beforeEdge hk, Nat.cast_sub (by omega)]
  push_cast
  rfl

/-- Only one number `x` is that close before the edge, `beforeEdge 1`. -/
theorem code_of_before_edge {x : Double} (hsign : x.negative = false)
    (hlow : 2 ^ 63 - 2048 < x.toRat) (hlt : x.toRat < 2 ^ 63) : x.code = (beforeEdge 1).code := by
  rw [toRat_of_not_negative hsign] at hlow hlt
  by_contra hne
  rcases Nat.lt_or_ge x.code (beforeEdge 0).code with hbefore | hafter
  · have hfar : x.magnitude ≤ (beforeEdge 2).magnitude := by
      refine Binary.magnitude_le_magnitude ?_
      simp only [beforeEdge] at hbefore hne ⊢
      omega
    rw [magnitude_beforeEdge (by omega)] at hfar
    norm_num at hfar
    linarith
  · have hbeyond := Binary.magnitude_le_magnitude hafter
    rw [magnitude_beforeEdge (by omega)] at hbeyond
    norm_num at hbeyond
    linarith

/-- Half way from the last number to the edge `ofInt` takes the edge, for its code is even. -/
theorem le_toRat_ofInt {n : ℤ} (h : n.natAbs ≤ 2 ^ 63) (hn : 2 ^ 63 - 512 ≤ n) :
    2 ^ 63 ≤ (Binary.ofInt n : Double).toRat := by
  have hnearest := Binary.isNearest_ofInt (f := .double) (by decide) n
  have hsign : (Binary.ofInt n : Double).negative = false := by
    show decide (n < 0) = false
    rw [decide_eq_false_iff_not]
    omega
  generalize (Binary.ofInt n : Double) = x at *
  have hedge : (beforeEdge 0).toRat = 2 ^ 63 := (toRat_beforeEdge (by omega)).trans (by norm_num)
  have hcast : (2 ^ 63 - 512 : ℚ) ≤ n := by exact_mod_cast hn
  have hupper : (n : ℚ) ≤ 2 ^ 63 := by
    have : n ≤ 2 ^ 63 := by omega
    exact_mod_cast this
  by_contra hlt
  have hle := hnearest.nearest (beforeEdge 0) (by decide)
  rw [hedge, abs_of_nonneg (show (0 : ℚ) ≤ 2 ^ 63 - n by linarith)] at hle
  -- only the last number before the edge could be as near
  have hcode := code_of_before_edge hsign (by linarith [(abs_le.1 hle).1]) (not_le.1 hlt)
  have hlast : x.toRat = 2 ^ 63 - 1024 := by
    rw [toRat_of_not_negative hsign, Binary.magnitude, hcode]
    exact (magnitude_beforeEdge (k := 1) (by omega)).trans (by norm_num)
  rw [hlast, abs_of_nonpos (by linarith)] at hle
  have hhalf : (n : ℚ) = 2 ^ 63 - 512 := by linarith
  have heven := hnearest.even (beforeEdge 0) (by decide) (by rw [hcode]; decide) (by
    rw [hedge, hlast, hhalf]
    norm_num)
  rw [hcode] at heven
  exact absurd heven (by decide)

/-- **The last 512 integers become `2 ^ 63` by `ofInt`**, and no other. -/
theorem le_toRat_ofInt_iff {n : ℤ} (h : n.natAbs ≤ 2 ^ 63) :
    2 ^ 63 ≤ (Binary.ofInt n : Double).toRat ↔ 2 ^ 63 - 512 ≤ n := by
  refine ⟨fun hle => ?_, le_toRat_ofInt h⟩
  have hnear := (abs_le.1 (abs_toRat_ofInt_sub_le h)).2
  have : (2 ^ 63 - 512 : ℚ) ≤ n := by linarith
  exact_mod_cast this

/-- The double `ofInt n` of an integer of 64 bits is not below them. -/
theorem neg_le_toRat_ofInt {n : ℤ} (h : n.natAbs ≤ 2 ^ 63) :
    -2 ^ 63 ≤ (Binary.ofInt n : Double).toRat := by
  obtain ⟨y, hy, hrat⟩ := exists_toRat_eq true (a := 1) (m := 63) (by omega) (by omega)
  have hrat : y.toRat = -2 ^ 63 := by
    rw [hrat]
    norm_num [signedRat]
  have hle := (Binary.isNearest_ofInt (f := .double) (by decide) n).nearest y hy
  have hlow : (-2 ^ 63 : ℚ) ≤ n := by
    have : -2 ^ 63 ≤ n := by omega
    exact_mod_cast this
  rw [hrat, abs_of_nonpos (show (-2 ^ 63 - n : ℚ) ≤ 0 by linarith), abs_le] at hle
  linarith [hle.1]

end Double

/-! ## §4. Conversions of values. -/

namespace IntType

theorem ofInt?_isSome_iff {t : IntType} {n : ℤ} :
    (t.ofInt? n).isSome ↔ t.min ≤ n ∧ n ≤ t.max := by
  unfold ofInt?
  split <;> simp [*]

theorem ofInt?_int64_isSome_iff {n : ℤ} :
    (IntType.int64.ofInt? n).isSome ↔ -2 ^ 63 ≤ n ∧ n < 2 ^ 63 := by
  rw [ofInt?_isSome_iff, show int64.min = -2 ^ 63 by decide, show int64.max = 2 ^ 63 - 1 by decide]
  omega

theorem ofInt?_eq_some_iff {t : IntType} {n : ℤ} {x : Word t} :
    t.ofInt? n = some x ↔ x.val = n := by
  constructor
  · exact val_of_ofInt?
  · rintro rfl
    exact Word.ofInt?_val x

end IntType

/-- The range of an integer `i` of 64 bits. -/
theorem Word.bounds (i : Word .int64) : -2 ^ 63 ≤ i.val ∧ i.val < 2 ^ 63 := by
  rw [← IntType.ofInt?_int64_isSome_iff, Word.ofInt?_val]
  rfl

namespace Value

/-- **A double `d` becomes by `toInt?` the integer that is left without its fraction**,
`towardZero`, if that is in range. -/
theorem toInt?_double (d : Double) : (double d).toInt? =
    if d.isFinite = true then IntType.int64.ofInt? (towardZero d.toRat) else none := by
  simp only [toInt?]
  by_cases h : d.isFinite = true
  · rw [if_pos h, Binary.truncate?_eq h]
    rfl
  · rw [if_neg h, Binary.truncate?_of_not_isFinite h]
    rfl

/-- The integer `i` as a double and back. -/
def thereAndBack (i : Word .int64) : Option Value :=
  ((int i).convert .double).bind (·.convert .int)

theorem thereAndBack_eq (i : Word .int64) : thereAndBack i =
    (IntType.int64.ofInt? (towardZero (Binary.ofInt i.val : Double).toRat)).map .int := by
  have hbounds := i.bounds
  have hfinite := Double.isFinite_ofInt (n := i.val) (by omega)
  unfold thereAndBack convert toDouble?
  rw [Option.map_some, Option.bind_some]
  dsimp only
  rw [toInt?_double, if_pos hfinite]

theorem convert_double_eq_some_iff (d : Double) (n : Word .int64) :
    (double d).convert .int = some (.int n) ↔ d.isFinite = true ∧ n.val = towardZero d.toRat := by
  simp only [convert, toInt?_double, Option.map_eq_some_iff, Value.int.injEq]
  split
  case isTrue hfinite => simp [hfinite, IntType.ofInt?_eq_some_iff]
  case isFalse hfinite => simp [hfinite]

theorem convert_double_eq_none_iff (d : Double) : (double d).convert .int = none ↔
    ¬ (d.isFinite = true ∧ -2 ^ 63 ≤ towardZero d.toRat ∧ towardZero d.toRat < 2 ^ 63) := by
  simp only [convert, toInt?_double, Option.map_eq_none_iff]
  split
  case isTrue hfinite =>
    rw [← IntType.ofInt?_int64_isSome_iff]
    simp [hfinite]
  case isFalse hfinite => simp [hfinite]

/-- Only the last 512 integers are lost by `thereAndBack`. -/
theorem thereAndBack_eq_none_iff (i : Word .int64) :
    thereAndBack i = none ↔ 2 ^ 63 - 512 ≤ i.val := by
  have hbounds := i.bounds
  have hlow := le_towardZero (n := -2 ^ 63) (q := (Binary.ofInt i.val : Double).toRat)
    (by exact_mod_cast Double.neg_le_toRat_ofInt (n := i.val) (by omega))
  have hhigh := le_towardZero_iff (n := 2 ^ 63) (q := (Binary.ofInt i.val : Double).toRat)
    (by omega)
  have hedge := Double.le_toRat_ofInt_iff (n := i.val) (by omega)
  rw [Int.cast_pow, Int.cast_ofNat] at hhigh
  rw [thereAndBack_eq, Option.map_eq_none_iff, ← Option.not_isSome_iff_eq_none,
    IntType.ofInt?_int64_isSome_iff, ← hedge, ← hhigh]
  omega

/-- Cutting off in `thereAndBack` does not leave the 512 integers on either side. -/
theorem near_of_thereAndBack {i j : Word .int64} (h : thereAndBack i = some (.int j)) :
    |j.val - i.val| ≤ 512 := by
  have hbounds := i.bounds
  rw [thereAndBack_eq, Option.map_eq_some_iff] at h
  obtain ⟨_, hj, ⟨⟩⟩ := h
  have hnear := Double.abs_toRat_ofInt_sub_le (n := i.val) (by omega)
  rw [abs_le] at hnear
  rw [IntType.val_of_ofInt? hj, abs_le]
  have hlow := le_towardZero (n := i.val - 512) (q := (Binary.ofInt i.val : Double).toRat)
    (by push_cast; linarith)
  have hhigh := towardZero_le (n := i.val + 512) (q := (Binary.ofInt i.val : Double).toRat)
    (by push_cast; linarith)
  omega

/-- What comes back by `thereAndBack` is an integer `j`. -/
theorem exists_int_of_thereAndBack {i : Word .int64} (h : thereAndBack i ≠ none) :
    ∃ j, thereAndBack i = some (.int j) := by
  rw [thereAndBack_eq] at h ⊢
  generalize IntType.int64.ofInt? _ = word at h ⊢
  cases word with
  | none => exact absurd rfl h
  | some j => exact ⟨j, rfl⟩

/-- A short integer `i` comes back by `thereAndBack` as it was. -/
theorem thereAndBack_of_short {i : Word .int64} (h : |i.val| ≤ 2 ^ 53) :
    thereAndBack i = some (.int i) := by
  rw [abs_le] at h
  rw [thereAndBack_eq, Double.toRat_ofInt (by omega), towardZero_intCast, Word.ofInt?_val]
  rfl

/-- **Integers and doubles become each other exactly as far as they can.** A double `d` becomes an
integer if it is finite and what is left of it without its fraction, `towardZero`, has 64 bits, and
it becomes that integer.  An integer `i` that became a double becomes an integer again
(`thereAndBack`), unless it is one of the last 512; it is at most 512 away from what it was, and up
to `2 ^ 53` it is what it was. -/
theorem int_double_exact :
    (∀ (d : Double) (n : Word .int64), (double d).convert .int = some (.int n) ↔
      d.isFinite = true ∧ n.val = towardZero d.toRat) ∧
    (∀ d : Double, (double d).convert .int = none ↔
      ¬ (d.isFinite = true ∧ -2 ^ 63 ≤ towardZero d.toRat ∧ towardZero d.toRat < 2 ^ 63)) ∧
    (∀ i : Word .int64, thereAndBack i = none ↔ 2 ^ 63 - 512 ≤ i.val) ∧
    (∀ i : Word .int64, i.val < 2 ^ 63 - 512 →
      ∃ j : Word .int64, thereAndBack i = some (.int j) ∧ |j.val - i.val| ≤ 512) ∧
    (∀ i : Word .int64, |i.val| ≤ 2 ^ 53 → thereAndBack i = some (.int i)) := by
  refine ⟨convert_double_eq_some_iff, convert_double_eq_none_iff, thereAndBack_eq_none_iff,
    fun i hi => ?_, fun i hi => thereAndBack_of_short hi⟩
  have hback : thereAndBack i ≠ none := fun hnone => by
    have := (thereAndBack_eq_none_iff i).1 hnone
    omega
  obtain ⟨j, hj⟩ := exists_int_of_thereAndBack hback
  exact ⟨j, hj, near_of_thereAndBack hj⟩

theorem int_double_exact_at_edge :
    thereAndBack ⟨2 ^ 63 - 512, by decide, by decide⟩ = none ∧
    (∃ j, thereAndBack ⟨2 ^ 63 - 513, by decide, by decide⟩ = some (.int j) ∧
      |j.val - (2 ^ 63 - 513)| ≤ 512) ∧
    thereAndBack ⟨2 ^ 53, by decide, by decide⟩ = some (.int ⟨2 ^ 53, by decide, by decide⟩) :=
  ⟨(int_double_exact.2.2.1 _).2 (by decide), int_double_exact.2.2.2.1 _ (by decide),
    int_double_exact.2.2.2.2 _ (by decide)⟩

end Value

end ConfigTree
