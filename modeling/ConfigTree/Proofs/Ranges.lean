import ConfigTree.Proofs.Integers
import ConfigTree.Proofs.Scalars

/-!
# Numbers in host storage

What a number is when it is stored, for each type that numbers can be stored in.  Integers lose
their fraction and have to be in range; doubles take every number; storage of four bytes takes the
nearest number that it has, and what is beyond its range becomes infinite.  What is refused leaves
the storage as it was.

Main results:
  * `StorageType.ofValue?_int_eq_some_iff` — which numbers storage of integers accepts;
  * `Value.toDouble?_of_number` — an integer or a double is stored as the nearest double;
  * `StorageType.numbers_stored` — what each type does with a number;
  * `StorageType.huge_number_stored` — a number that is stored as an infinity.
-/

namespace ConfigTree

namespace Binary

variable {f : Format}

/-- Numbers `x` and `y` of one `magnitude` have one `code`. -/
theorem code_eq_of_magnitude_eq {x y : Binary f} (h : x.magnitude = y.magnitude) :
    x.code = y.code := by
  have hscale : ((Nat.pow 2 f.scale : Nat) : ℚ) ≠ 0 :=
    Nat.cast_ne_zero.2 (Nat.ne_of_gt (Nat.two_pow_pos _))
  unfold magnitude at h
  rw [div_left_inj' hscale, Nat.cast_inj] at h
  rw [← f.code_units x.code, h, f.code_units]

/-- A number `x` is the nearest one to itself (`IsNearest`). -/
theorem isNearest_toRat (x : Binary f) : x.IsNearest x.toRat := by
  constructor
  · intro y _
    rw [sub_self, abs_zero]
    exact abs_nonneg _
  · intro y _ hne heq
    rw [sub_self, abs_zero, abs_eq_zero, sub_eq_zero] at heq
    exact absurd (code_eq_of_magnitude_eq (by rw [← abs_toRat, ← abs_toRat, heq])) hne

/-- What is too large for another format `g` becomes by `convert` the `infinity` of its sign. -/
theorem convert_of_overflow {g : Format} {x : Binary f} (h : x.isFinite = true)
    (hover : ¬ (x.convert g).isFinite = true) : x.convert g = infinity x.negative := by
  rw [convert_of_isFinite h] at hover ⊢
  have hle : f.convert g x.code ≤ g.infinity := g.round_le _ _
  have hge : ¬ f.convert g x.code < g.infinity := fun hlt => hover (decide_eq_true hlt)
  unfold infinity ofCode
  congr 1
  omega

end Binary

/-! ## §1. Numbers as integers and as doubles. -/

/-- No type of storage `t` has integers below those of values. -/
theorem IntType.le_min (t : IntType) : -2 ^ 63 ≤ t.min := by
  cases t <;> decide

namespace Value

/-- The rational number that an integer or a finite double is. -/
def number? : Value → Option ℚ
  | int n => some n.val
  | double d => if d.isFinite = true then some d.toRat else none
  | bool _ | string _ => none

variable {v : Value} {q : ℚ}

/-- What `number?` finds, `q`, is an integer `n` or a finite double `d`. -/
theorem number?_cases (h : v.number? = some q) : (∃ n, v = int n ∧ q = n.val) ∨
    ∃ d, v = double d ∧ d.isFinite = true ∧ q = d.toRat := by
  cases v with
  | int n => exact .inl ⟨n, rfl, (Option.some.inj h).symm⟩
  | double d =>
    by_cases hfinite : d.isFinite = true
    · refine .inr ⟨d, rfl, hfinite, ?_⟩
      rw [number?, if_pos hfinite] at h
      exact (Option.some.inj h).symm
    · rw [number?, if_neg hfinite] at h
      cases h
  | bool b => cases h
  | string s => cases h

theorem toInt?_of_number (h : v.number? = some q) :
    v.toInt? = IntType.int64.ofInt? (towardZero q) := by
  obtain ⟨n, rfl, rfl⟩ | ⟨d, rfl, hfinite, rfl⟩ := number?_cases h
  · rw [towardZero_intCast, Word.ofInt?_val]
    rfl
  · rw [toInt?_double, if_pos hfinite]

/-- **A number `q` is the nearest double to itself**: `toDouble?` gives it. -/
theorem toDouble?_of_number (h : v.number? = some q) :
    ∃ d, v.toDouble? = some d ∧ d.isFinite = true ∧ d.IsNearest q := by
  obtain ⟨n, rfl, rfl⟩ | ⟨d, rfl, hfinite, rfl⟩ := number?_cases h
  · have hbounds := n.bounds
    exact ⟨_, rfl, Double.isFinite_ofInt (by omega), Binary.isNearest_ofInt (by decide) _⟩
  · exact ⟨d, rfl, hfinite, d.isNearest_toRat⟩

end Value

/-! ## §2. Storage. -/

namespace StorageType

variable {v : Value} {q : ℚ}

/-- **Storage of integers accepts a number `q` by `ofValue?` if its integer part is in range**, of
the type and of the values that there are, and holds that integer then, `towardZero q`. -/
theorem ofValue?_int_eq_some_iff (h : v.number? = some q) {t : IntType} {x : Word t} :
    (int t).ofValue? v = some x ↔ x.val = towardZero q ∧ towardZero q < 2 ^ 63 := by
  have hmin := t.le_min
  have hlow := x.min_le
  show (v.toInt?.bind fun n => t.ofInt? n.val) = some x ↔ _
  rw [Value.toInt?_of_number h]
  constructor
  · intro hx
    obtain ⟨n, hn, hx⟩ := Option.bind_eq_some_iff.1 hx
    rw [IntType.ofInt?_eq_some_iff] at hn hx
    exact ⟨hx.trans hn, hn ▸ n.bounds.2⟩
  · rintro ⟨hx, hhigh⟩
    obtain ⟨n, hn⟩ := Option.isSome_iff_exists.1
      (IntType.ofInt?_int64_isSome_iff.2 ⟨by omega, hhigh⟩)
    rw [hn, Option.bind_some, IntType.ofInt?_eq_some_iff, hx, IntType.val_of_ofInt? hn]

/-- What storage of integers refuses by `ofValue?`. -/
theorem ofValue?_int_eq_none_iff (h : v.number? = some q) (t : IntType) :
    (int t).ofValue? v = none ↔
      ¬ (t.min ≤ towardZero q ∧ towardZero q ≤ t.max ∧ towardZero q < 2 ^ 63) := by
  rw [← not_iff_not, not_not, ← ne_eq, Option.ne_none_iff_exists']
  constructor
  · rintro ⟨x, hx⟩
    obtain ⟨hval, hhigh⟩ := (ofValue?_int_eq_some_iff h).1 hx
    exact ⟨hval ▸ x.min_le, hval ▸ x.le_max, hhigh⟩
  · rintro ⟨hmin, hmax, hhigh⟩
    exact ⟨⟨towardZero q, hmin, hmax⟩, (ofValue?_int_eq_some_iff h).2 ⟨rfl, hhigh⟩⟩

/-- **Storage of type `single` takes by `ofValue?` the nearest number `x` that it has**, and an
`infinity` if there is none. -/
theorem ofValue?_single {d : Double} (hd : v.toDouble? = some d) (hfinite : d.isFinite = true) :
    ∃ x : Single, single.ofValue? v = some x ∧ x.negative = d.negative ∧ x.IsNearest d.toRat ∧
      (x.isFinite = true ↔ |d.toRat| < (2 ^ 128 - 2 ^ 103 : Nat)) ∧
      (¬ x.isFinite = true → x = .infinity d.negative) := by
  refine ⟨d.convert .single, ?_, ?_, Binary.isNearest_convert (by decide) hfinite, ?_,
    Binary.convert_of_overflow hfinite⟩
  · show v.toDouble?.map (Binary.convert .single) = _
    rw [hd]
    rfl
  · rw [Binary.convert_of_isFinite hfinite]
    rfl
  · rw [Binary.isFinite_convert_iff (by decide) (by decide) hfinite, Binary.overflow_single]

/-- A value `v` that `ofValue?` refuses is not assigned by `set` through a link to the storage. -/
theorem set_of_refused {t : StorageType} (h : t.ofValue? v = none) {x : Scalar} {l : Link}
    {w : Surroundings} (hx : x.storage = .linked l) (ht : l.type? w.store = some t) :
    let e := SymbolError.conversion x.info.label v.display t.kind
    (x.set v).run w = (⟨x, some e⟩, w.emit (.reported e)) := by
  obtain ⟨info, storage⟩ := x
  cases hx
  have hunfit : ¬ (Scalar.mk info (.linked l)).Fits w.store v := by
    rw [Scalar.fits_linked]
    intro hall
    have := hall t ht
    rw [h] at this
    cases this
  have hkind : (Scalar.mk info (.linked l)).kind w.store = t.kind := Link.kind_of_type? ht
  rw [Scalar.run_set, Scalar.write_of_unfit hunfit, hkind]

/-- **What each type of storage does with a number `q`.** Storage of integers holds the integer
part, `towardZero q`, and refuses a number whose integer part is out of range.  Storage of type
`double` holds the nearest double `d`, which is always finite.  Storage of type `single` holds the
nearest number to `d`; it refuses none, and from the middle between its largest number and the next
one on it holds an `infinity`.  A number that is refused cannot be assigned through a link, and
nothing changes. -/
theorem numbers_stored (h : v.number? = some q) :
    (∀ (t : IntType) (x : Word t),
      (int t).ofValue? v = some x ↔ x.val = towardZero q ∧ towardZero q < 2 ^ 63) ∧
    (∀ t : IntType, (int t).ofValue? v = none ↔
      ¬ (t.min ≤ towardZero q ∧ towardZero q ≤ t.max ∧ towardZero q < 2 ^ 63)) ∧
    (∃ d : Double, v.convert .double = some (.double d) ∧ d.isFinite = true ∧ d.IsNearest q ∧
      double.ofValue? v = some d ∧
      ∃ x : Single, single.ofValue? v = some x ∧ x.negative = d.negative ∧ x.IsNearest d.toRat ∧
        (x.isFinite = true ↔ |d.toRat| < (2 ^ 128 - 2 ^ 103 : Nat)) ∧
        (¬ x.isFinite = true → x = .infinity d.negative)) ∧
    (∀ (t : StorageType) (x : Scalar) (l : Link) (w : Surroundings), t.ofValue? v = none →
      x.storage = .linked l → l.type? w.store = some t →
      let out := (x.set v).run w
      out.1 = ⟨x, some (.conversion x.info.label v.display t.kind)⟩ ∧
        out.2.store = w.store ∧ l.content? out.2.store = l.content? w.store) := by
  obtain ⟨d, hd, hfinite, hnearest⟩ := Value.toDouble?_of_number h
  refine ⟨fun t x => ofValue?_int_eq_some_iff h, ofValue?_int_eq_none_iff h,
    ⟨d, ?_, hfinite, hnearest, hd, ofValue?_single hd hfinite⟩, fun t x l w hnone hx ht => ?_⟩
  · show v.toDouble?.map Value.double = _
    rw [hd]
    rfl
  · dsimp only
    rw [set_of_refused hnone hx ht]
    exact ⟨rfl, rfl, rfl⟩

/-- The integer `-1` is refused by storage of unsigned integers and taken by the others. -/
theorem numbers_stored_minus_one :
    let v := Value.int ⟨-1, by decide, by decide⟩
    v.number? = some (-1 : ℤ) ∧ (int .uint32).ofValue? v = none ∧
      (∃ x, (int .int32).ofValue? v = some x ∧ x.val = -1) ∧
      ∃ d x, double.ofValue? v = some d ∧ single.ofValue? v = some x ∧ d.IsNearest (-1 : ℤ) := by
  obtain ⟨hsome, hnone, ⟨d, -, -, hnearest, hd, x, hx, -⟩, -⟩ :=
    numbers_stored (v := .int ⟨-1, by decide, by decide⟩) (q := (-1 : ℤ)) rfl
  refine ⟨rfl, (hnone _).2 ?_, ⟨⟨-1, by decide, by decide⟩, (hsome _ _).2 ?_, rfl⟩, d, x, hd, hx,
    hnearest⟩
  · rw [towardZero_intCast]
    decide
  · rw [towardZero_intCast]
    decide

/-- The double nearest to `10 ^ 39`. -/
def huge : Double := ⟨false, 0x48078287F49C4A1D, by decide⟩

/-- **A number that is out of range is stored**: storage of type `single` has no number near `huge`,
and holds the `infinity` then. -/
theorem huge_number_stored :
    huge.isFinite = true ∧ (2 ^ 128 - 2 ^ 103 : Nat) ≤ |huge.toRat| ∧
      single.ofValue? (.double huge) = some (.infinity false) ∧
      ¬ (Binary.infinity false : Single).isFinite = true := by
  have hfinite : huge.isFinite = true := by decide
  have hconvert : huge.convert .single = .infinity false := by decide +kernel
  have hover : ¬ (huge.convert .single).isFinite = true := by
    rw [hconvert]
    decide
  refine ⟨hfinite, ?_, congrArg some hconvert, by decide⟩
  rw [Binary.isFinite_convert_iff (by decide) (by decide) hfinite, Binary.overflow_single,
    not_lt] at hover
  exact hover

end StorageType

end ConfigTree
