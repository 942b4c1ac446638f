import ConfigTree.StorageType
import ConfigTree.Proofs.Rounding

/-!
# Storage and the values it shows

Each of the nine types of storage has a reader and a writer.  They are inverse to each other as far
as they can be: what a reader shows is accepted again and leaves the content as it is, and what a
writer accepts is shown as the value that it was converted to.  Two things are lost on the way, both
in storage of four bytes: a double is rounded, and of a NaN only the sign is kept.

Main results:
  * `StorageType.nearest_shown` — what is shown of a value is the nearest that there is;
  * `StorageType.ofValue?_toValue?` — what is shown is accepted;
  * `StorageType.toValue?_ofValue?` — what is accepted is shown;
  * `StorageType.ofValue?_isSome_iff` — a value is accepted if it converts and is in range.
-/

namespace ConfigTree

/-- A word `x` is the integer `n` that `ofInt?` made it of. -/
theorem IntType.val_of_ofInt? {t : IntType} {n : Int} {x : Word t} (h : t.ofInt? n = some x) :
    x.val = n := by
  unfold ofInt? at h
  split at h
  · cases h
    rfl
  · cases h

namespace StorageType

/-! ## §1. What is lost in four bytes. -/

/-- The content after it was shown by `toValue?` and written back by `ofValue?`: in four bytes there
is one NaN of each sign. -/
def settled : (t : StorageType) → t.Raw → t.Raw
  | single, x => if x.isNaN then .nan x.negative else x
  | bool, x => x
  | int _, x => x
  | double, x => x
  | string, x => x

/-- What storage shows of a value of its kind: in storage of type `single` a double is rounded. -/
def shown : StorageType → Value → Value
  | single, .double d => .double ((d.convert .single).convert .double)
  | _, v => v

/-- Of two values of the kind of the storage, the second is one that the storage can show, and there
is no nearer one to the first: in storage of type `single` no `y` is nearer in `distance`, elsewhere
it is the value itself. -/
def Nearest : StorageType → Value → Value → Prop
  | single, .double d, v => ∃ x : Single, v = .double (x.convert .double) ∧
      (d.isFinite = true → ∀ y : Single, ¬ y.isNaN = true → d.distance x ≤ d.distance y)
  | _, u, v => v = u

/-- A value of the right kind is in the range of the storage, from `IntType.min` to `IntType.max`
for integers. -/
def InRange : StorageType → Value → Prop
  | int t, .int n => t.min ≤ n.val ∧ n.val ≤ t.max
  | _, _ => True

/-- A content of type `single` that is not a number. -/
def IsNarrowNaN : (t : StorageType) → t.Raw → Prop
  | single, x => x.isNaN = true
  | _, _ => False

/-- **Storage shows the `Nearest` value that it can**, by `shown`. -/
theorem nearest_shown (t : StorageType) (u : Value) : t.Nearest u (t.shown u) := by
  cases t with
  | single =>
    cases u with
    | double d =>
      exact ⟨d.convert .single, rfl, fun hfinite y hy => Binary.convert_nearest hfinite hy⟩
    | bool _ | int _ | string _ => rfl
  | bool => rfl
  | int t => rfl
  | double => rfl
  | string => rfl

/-- A content `x` that is no NaN of four bytes (`IsNarrowNaN`) is what it was once it is
`settled`. -/
theorem settled_eq {t : StorageType} {x : t.Raw} (h : ¬ t.IsNarrowNaN x) : t.settled x = x := by
  cases t with
  | single => exact if_neg h
  | bool => rfl
  | int t => rfl
  | double => rfl
  | string => rfl

/-! ## §2. Readers and writers. -/

/-- What is shown of a content that is `settled` is what was shown before. -/
theorem toValue?_settled (t : StorageType) (x : t.Raw) :
    t.toValue? (t.settled x) = t.toValue? x := by
  cases t with
  | single =>
    show some (Value.double (Binary.convert .double (if x.isNaN then .nan x.negative else x))) =
      some (.double (x.convert .double))
    by_cases hnan : x.isNaN = true
    · rw [if_pos hnan, Binary.convert_of_isNaN hnan,
        Binary.convert_of_isNaN (Binary.isNaN_nan (by decide) _)]
      rfl
    · rw [if_neg hnan]
  | bool => rfl
  | int t => rfl
  | double => rfl
  | string => rfl

/-- **What `toValue?` shows of a content `x`, `ofValue?` accepts**, as the content `settled`. -/
theorem ofValue?_toValue? {t : StorageType} {x : t.Raw} {v : Value} (h : t.toValue? x = some v) :
    t.ofValue? v = some (t.settled x) := by
  cases t with
  | int t =>
    obtain ⟨n, hn, rfl⟩ := Option.map_eq_some_iff.1 h
    -- an integer that could be shown is the integer that is stored
    have hval : n.val = x.val := IntType.val_of_ofInt? hn
    show t.ofInt? n.val = some x
    rw [hval]
    exact Word.ofInt?_val x
  | single =>
    cases h
    show some (Binary.convert .single (x.convert .double)) = some _
    rw [Binary.convert_convert Format.single_fitsIn_double (by decide)]
    rfl
  | bool | double | string =>
    cases h
    rfl

/-- **What `ofValue?` accepts, `toValue?` shows**, as the value `u` of its kind that `v` was
converted to, and as far as it can be `shown`. -/
theorem toValue?_ofValue? {t : StorageType} {x : t.Raw} {v : Value} (h : t.ofValue? v = some x) :
    ∃ u, v.convert t.kind = some u ∧ t.toValue? x = some (t.shown u) := by
  cases t with
  | int t =>
    obtain ⟨n, hn, hx⟩ := Option.bind_eq_some_iff.1 h
    refine ⟨.int n, ?_, ?_⟩
    · show v.toInt?.map Value.int = some (.int n)
      rw [hn]
      rfl
    · show (IntType.int64.ofInt? x.val).map Value.int = some (.int n)
      rw [IntType.val_of_ofInt? hx, Word.ofInt?_val]
      rfl
  | single =>
    obtain ⟨d, hd, rfl⟩ := Option.map_eq_some_iff.1 h
    refine ⟨.double d, ?_, rfl⟩
    show v.toDouble?.map Value.double = some (.double d)
    rw [hd]
    rfl
  | bool =>
    refine ⟨.bool x, ?_, rfl⟩
    show v.toBool?.map Value.bool = some (.bool x)
    rw [show v.toBool? = some x from h]
    rfl
  | double =>
    refine ⟨.double x, ?_, rfl⟩
    show v.toDouble?.map Value.double = some (.double x)
    rw [show v.toDouble? = some x from h]
    rfl
  | string =>
    refine ⟨.string v.display, rfl, ?_⟩
    rw [show x = v.display from (Option.some.inj h).symm]
    rfl

/-- **Storage accepts what converts to its kind and is `InRange`.** -/
theorem ofValue?_isSome_iff (t : StorageType) (v : Value) :
    (t.ofValue? v).isSome ↔ ∃ u, v.convert t.kind = some u ∧ t.InRange u := by
  constructor
  · intro h
    obtain ⟨x, hx⟩ := Option.isSome_iff_exists.1 h
    obtain ⟨u, hu, hshown⟩ := toValue?_ofValue? hx
    refine ⟨u, hu, ?_⟩
    cases t with
    | int t =>
      -- the integer that is shown is the one that was stored as a word
      obtain ⟨n, hn, rfl⟩ := Option.map_eq_some_iff.1 hshown
      show t.min ≤ n.val ∧ n.val ≤ t.max
      rw [IntType.val_of_ofInt? hn]
      exact ⟨x.min_le, x.le_max⟩
    | bool | single | double | string => trivial
  · rintro ⟨u, hu, hrange⟩
    cases t with
    | int t =>
      obtain ⟨n, hn, rfl⟩ := Option.map_eq_some_iff.1 hu
      show (v.toInt?.bind fun n => t.ofInt? n.val).isSome
      simp only [hn, Option.bind_some, IntType.ofInt?]
      rw [dif_pos (show t.min ≤ n.val ∧ n.val ≤ t.max from hrange)]
      rfl
    | string => rfl
    | bool | single | double =>
      obtain ⟨d, hd, rfl⟩ := Option.map_eq_some_iff.1 hu
      simp [ofValue?, hd]

/-! ## §3. Through the checks of a link. -/

theorem read_eq_ok {t : StorageType} {x : t.Raw} {v : Value} :
    t.read x = .ok v ↔ t.toValue? x = some v := by
  unfold read
  cases t.toValue? x <;> simp

theorem accept_of_some {t : StorageType} {x : t.Raw} {v : Value} (h : t.ofValue? v = some x) :
    t.accept v = .ok x := by
  unfold accept
  rw [h]

theorem accept_of_none {t : StorageType} {v : Value} (h : t.ofValue? v = none) :
    t.accept v = .error (.conversion v.display t.kind) := by
  unfold accept
  rw [h]

end StorageType

end ConfigTree
