import ConfigTree.Literal
import ConfigTree.Proofs.Decimals
import Mathlib.Tactic.IntervalCases

/-!
# Values and their texts

The text of a value is read back to the value, with white space around it or without: an integer to
itself, a double to the same bits, of a NaN only that it is one.  Writing and reading meet in the
digits: what is written is a sign, digits and at most one point, and each of the two steps of
reading, finding the decimal and rounding it, is undone by writing.

Main results:
  * `Text.trim_padded` — trimming takes away exactly the padding;
  * `Text.integer?_toString` — the text of an integer is the integer;
  * `Text.decimal?_positional` — the digits of a decimal are the decimal;
  * `Text.real?_display` — the text of a number is the number;
  * `Value.texts_read_back` — every value is read back from its text;
  * `StorageType.parse?_literal` — so is what storage holds, from what a host writes down for it.
-/

namespace ConfigTree

namespace Text

/-! ## §1. Trimming. -/

/-- There is no white space in the text `cs`, by `isBlank`. -/
def Solid (cs : List Char) : Prop := ∀ c ∈ cs, isBlank c = false

/-- There is nothing but white space in the text `cs`, by `isBlank`. -/
def Blank (cs : List Char) : Prop := ∀ c ∈ cs, isBlank c = true

-- looking through the characters of the text, and not through all there are
instance (cs : List Char) : Decidable (Solid cs) := List.decidableBAll (isBlank · = false) cs

instance (cs : List Char) : Decidable (Blank cs) := List.decidableBAll (isBlank · = true) cs

theorem dropWhile_of_solid {cs : List Char} (h : Solid cs) (hne : cs ≠ []) (rest : List Char) :
    (cs ++ rest).dropWhile isBlank = cs ++ rest := by
  obtain ⟨c, cs, rfl⟩ := List.exists_cons_of_ne_nil hne
  rw [List.cons_append, List.dropWhile_cons_of_neg]
  rw [h c List.mem_cons_self]
  exact Bool.false_ne_true

/-- **`trim` takes away exactly the padding**, what is `Blank`. -/
theorem trim_padded {before cs after : List Char} (hbefore : Blank before) (hcs : Solid cs)
    (hafter : Blank after) : trim (before ++ cs ++ after) = cs := by
  have hreverse : ∀ c ∈ after.reverse, isBlank c = true := fun c hc =>
    hafter c (List.mem_reverse.1 hc)
  unfold trim
  rw [List.append_assoc, List.dropWhile_append_of_pos hbefore]
  by_cases hne : cs = []
  · have hnone : (after ++ []).dropWhile isBlank = [] := List.dropWhile_append_of_pos hafter
    rw [List.append_nil] at hnone
    rw [hne, List.nil_append, hnone]
    rfl
  · rw [dropWhile_of_solid hcs hne _, List.reverse_append, List.dropWhile_append_of_pos hreverse]
    have hsolid : Solid cs.reverse := fun c hc => hcs c (List.mem_reverse.1 hc)
    have hdrop := dropWhile_of_solid hsolid (by simpa using hne) []
    rw [List.append_nil] at hdrop
    rw [hdrop, List.reverse_reverse]

/-! ## §2. Digits. -/

/-- There are ten digits, by `Char.isDigit`. -/
theorem mem_of_isDigit {c : Char} (h : c.isDigit = true) :
    c ∈ ['0', '1', '2', '3', '4', '5', '6', '7', '8', '9'] := by
  have hrange : 48 ≤ c.toNat ∧ c.toNat ≤ 57 := by
    simpa [Char.isDigit, UInt32.le_iff_toNat_le] using h
  obtain ⟨hlow, hhigh⟩ := hrange
  rw [← Char.ofNat_toNat c]
  generalize c.toNat = n at *
  interval_cases n <;> decide

theorem isBlank_of_isDigit {c : Char} (h : c.isDigit = true) : isBlank c = false := by
  have hall : Solid ['0', '1', '2', '3', '4', '5', '6', '7', '8', '9'] := by decide
  exact hall c (mem_of_isDigit h)

theorem toLower_of_isDigit {c : Char} (h : c.isDigit = true) : c.toLower = c := by
  have hall : ['0', '1', '2', '3', '4', '5', '6', '7', '8', '9'].all fun c => c.toLower = c := by
    decide
  simpa using List.all_eq_true.1 hall c (mem_of_isDigit h)

/-- There is nothing but digits in the text `cs`, by `Char.isDigit`. -/
def Digits (cs : List Char) : Prop := ∀ c ∈ cs, c.isDigit = true

theorem Digits.solid {cs : List Char} (h : Digits cs) : Solid cs := fun c hc =>
  isBlank_of_isDigit (h c hc)

theorem Digits.append {cs ds : List Char} (hcs : Digits cs) (hds : Digits ds) :
    Digits (cs ++ ds) := by
  intro c hc
  rcases List.mem_append.1 hc with hc | hc
  · exact hcs c hc
  · exact hds c hc

theorem digits_replicate (k : Nat) : Digits (List.replicate k '0') := by
  intro c hc
  rw [List.eq_of_mem_replicate hc]
  rfl

theorem digits_digitChars (n : Nat) : Digits (Decimal.digitChars n) := fun _ hc =>
  Nat.isDigit_of_mem_toDigits (by omega) (by omega) hc

theorem digitChars_ne_nil (n : Nat) : Decimal.digitChars n ≠ [] := Nat.toDigits_ne_nil

/-- **The digits of the number `n` spell it**, as `natural` reads them. -/
theorem natural_digitChars (n : Nat) : natural (Decimal.digitChars n) = n :=
  Nat.ofDigitChars_toDigits (by omega) (by omega)

theorem natural_append (cs ds : List Char) :
    natural (cs ++ ds) = 10 ^ ds.length * natural cs + natural ds := by
  have happend : natural (cs ++ ds) = Nat.ofDigitChars 10 ds (natural cs) :=
    Nat.ofDigitChars_append 0
  rw [happend, Nat.ofDigitChars_eq_ofDigitChars_zero]
  rfl

theorem natural_zeros (k : Nat) : natural (List.replicate k '0') = 0 := by
  induction k with
  | zero => rfl
  | succ k ih =>
    rw [List.replicate_succ', natural_append, ih]
    rfl

/-! ## §3. Signs and integers. -/

/-- The text `cs` with a minus in front, or as it is. -/
def withSign (negative : Bool) (cs : List Char) : List Char := if negative then '-' :: cs else cs

/-- What is behind a sign, `withSign`, does not itself begin with one. -/
theorem sign_withSign (negative : Bool) {c : Char} (cs : List Char) (hminus : c ≠ '-')
    (hplus : c ≠ '+') : sign (withSign negative (c :: cs)) = (negative, c :: cs) := by
  cases negative with
  | true => rfl
  | false =>
    show sign (c :: cs) = _
    unfold sign
    split
    · rename_i heq
      exact absurd (List.cons.inj heq).1 hminus
    · rename_i heq
      exact absurd (List.cons.inj heq).1 hplus
    · rfl

theorem sign_of_digits (negative : Bool) {cs : List Char} (h : Digits cs) (hne : cs ≠ []) :
    sign (withSign negative cs) = (negative, cs) := by
  obtain ⟨c, cs, rfl⟩ := List.exists_cons_of_ne_nil hne
  have hc := h c List.mem_cons_self
  refine sign_withSign negative cs ?_ ?_
  · rintro rfl
    cases hc
  · rintro rfl
    cases hc

theorem solid_withSign (negative : Bool) {cs : List Char} (h : Solid cs) :
    Solid (withSign negative cs) := by
  cases negative with
  | false => exact h
  | true =>
    intro c hc
    rcases List.mem_cons.1 hc with rfl | hc
    · decide
    · exact h c hc

/-- An integer `n` is written by `toString` with its sign and its digits. -/
theorem toList_toString (n : Int) :
    (toString n).toList = withSign (decide (n < 0)) (Decimal.digitChars n.natAbs) := by
  rw [Int.toString_eq_repr]
  cases n with
  | ofNat n =>
    have hn : ¬ Int.ofNat n < 0 := Int.not_lt.2 (Int.natCast_nonneg n)
    show n.repr.toList = _
    rw [Nat.toList_repr, decide_eq_false hn]
    rfl
  | negSucc n =>
    show ("-" ++ n.succ.repr).toList = _
    rw [String.toList_append, Nat.toList_repr, decide_eq_true (Int.negSucc_lt_zero n)]
    rfl

/-- **The text of an integer `n` is the integer**, as `integer?` reads it. -/
theorem integer?_toString (n : Int) : integer? (toString n).toList = some n := by
  have hdigits := digits_digitChars n.natAbs
  have hne := digitChars_ne_nil n.natAbs
  unfold integer?
  rw [toList_toString, sign_of_digits _ hdigits hne]
  dsimp only
  rw [if_pos ⟨hne, List.all_eq_true.2 hdigits⟩, natural_digitChars]
  by_cases hn : n < 0
  · rw [decide_eq_true hn, if_pos rfl]
    exact congrArg some (by omega)
  · rw [decide_eq_false hn, if_neg Bool.false_ne_true]
    exact congrArg some (by omega)

/-! ## §4. Decimals. -/

theorem takeWhile_digits {cs : List Char} (h : Digits cs) (rest : List Char)
    (hrest : rest.takeWhile Char.isDigit = []) : (cs ++ rest).takeWhile Char.isDigit = cs := by
  rw [List.takeWhile_append_of_pos h, hrest, List.append_nil]

/-- Digits alone are a natural number, as `decimal?` reads them. -/
theorem decimal?_digits {cs : List Char} (h : Digits cs) (hne : cs ≠ []) :
    decimal? cs = some ⟨natural cs, 0⟩ := by
  have htake := takeWhile_digits h [] rfl
  have hdrop : (cs ++ []).dropWhile Char.isDigit = [] := List.dropWhile_append_of_pos h
  rw [List.append_nil] at htake hdrop
  unfold decimal?
  rw [htake, hdrop]
  simp [hne, exponent?]

/-- Digits with a point among them, `cs` before it and `ds` behind it, count as many places as there
are behind the point. -/
theorem decimal?_point {cs ds : List Char} (hcs : Digits cs) (hne : cs ≠ []) (hds : Digits ds) :
    decimal? (cs ++ '.' :: ds) = some ⟨natural (cs ++ ds), -(ds.length : Int)⟩ := by
  have htake := takeWhile_digits hcs ('.' :: ds) rfl
  have hdrop : (cs ++ '.' :: ds).dropWhile Char.isDigit = ('.' :: ds).dropWhile Char.isDigit :=
    List.dropWhile_append_of_pos hcs
  have htake' := takeWhile_digits hds [] rfl
  have hdrop' : (ds ++ []).dropWhile Char.isDigit = [] := List.dropWhile_append_of_pos hds
  rw [List.append_nil] at htake' hdrop'
  unfold decimal?
  rw [htake, hdrop, List.dropWhile_cons_of_neg (by decide)]
  simp [hne, htake', hdrop', exponent?]

/-- What is written for a decimal `d` by `positional` is digits, with a point and more digits behind
them or not. -/
theorem positional_cases (d : Decimal) :
    (0 ≤ d.exponent ∧ Digits d.positional ∧ d.positional ≠ [] ∧
      natural d.positional = d.digits * 10 ^ d.exponent.toNat) ∨
    (d.exponent < 0 ∧ ∃ cs ds, d.positional = cs ++ '.' :: ds ∧ Digits cs ∧ cs ≠ [] ∧ Digits ds ∧
      natural (cs ++ ds) = d.digits ∧ -(ds.length : Int) = d.exponent) := by
  have hdigits := digits_digitChars d.digits
  have hne := digitChars_ne_nil d.digits
  unfold Decimal.positional
  dsimp only
  by_cases hexponent : 0 ≤ d.exponent
  · rw [if_pos hexponent]
    refine .inl ⟨hexponent, hdigits.append (digits_replicate _),
      List.append_ne_nil_of_left_ne_nil hne _, ?_⟩
    rw [natural_append, natural_zeros, natural_digitChars, List.length_replicate, Nat.add_zero,
      Nat.mul_comm]
  · rw [if_neg hexponent]
    refine .inr ⟨by omega, ?_⟩
    by_cases hplaces : (-d.exponent).toNat < (Decimal.digitChars d.digits).length
    · -- the point is among the digits
      rw [if_pos hplaces]
      refine ⟨_, _, rfl, fun c hc => hdigits c (List.mem_of_mem_take hc), ?_,
        fun c hc => hdigits c (List.mem_of_mem_drop hc), ?_, ?_⟩
      · rw [ne_eq, List.take_eq_nil_iff]
        simp only [hne, or_false]
        omega
      · rw [List.take_append_drop, natural_digitChars]
      · rw [List.length_drop]
        omega
    · -- the point is before the digits, and zeros fill the places between
      rw [if_neg hplaces]
      refine ⟨['0'], List.replicate ((-d.exponent).toNat - (Decimal.digitChars d.digits).length) '0' ++
        Decimal.digitChars d.digits, rfl, digits_replicate 1, List.cons_ne_nil _ _,
        (digits_replicate _).append hdigits, ?_, ?_⟩
      · rw [natural_append, natural_append, natural_zeros, natural_digitChars]
        show _ * 0 + _ = _
        omega
      · rw [List.length_append, List.length_replicate]
        omega

/-- **What is written for a decimal `d` by `positional` is read by `decimal?` as the same
number.** -/
theorem decimal?_positional (d : Decimal) :
    ∃ d', decimal? d.positional = some d' ∧ d'.toRat = d.toRat := by
  obtain ⟨hexponent, hdigits, hne, hnatural⟩ |
    ⟨-, cs, ds, hcs, hdigits, hne, hds, hnatural, hlength⟩ := positional_cases d
  · refine ⟨_, decimal?_digits hdigits hne, ?_⟩
    obtain ⟨k, hk⟩ := Int.eq_ofNat_of_zero_le hexponent
    unfold Decimal.toRat
    rw [hnatural, hk]
    simp
  · refine ⟨_, hcs ▸ decimal?_point hdigits hne hds, ?_⟩
    rw [hnatural, hlength]

/-- What is written for a decimal `d` by `positional` begins with a digit, and is `Solid`. -/
theorem positional_solid (d : Decimal) :
    (∃ c cs, d.positional = c :: cs ∧ c.isDigit = true) ∧ Solid d.positional := by
  obtain ⟨-, hdigits, hne, -⟩ | ⟨-, cs, ds, hcs, hdigits, hne, hds, -⟩ := positional_cases d
  · obtain ⟨c, cs, hcs⟩ := List.exists_cons_of_ne_nil hne
    exact ⟨⟨c, cs, hcs, hdigits c (hcs ▸ List.mem_cons_self)⟩, hdigits.solid⟩
  · rw [hcs]
    obtain ⟨c, cs, rfl⟩ := List.exists_cons_of_ne_nil hne
    refine ⟨⟨c, cs ++ '.' :: ds, rfl, hdigits c List.mem_cons_self⟩, fun e he => ?_⟩
    rcases List.mem_append.1 he with he | he
    · exact hdigits.solid e he
    · rcases List.mem_cons.1 he with rfl | he
      · decide
      · exact hds.solid e he

/-! ## §5. Numbers. -/

variable {f : Format}

/-- What begins with a digit `c` is none of the words that `real?` knows. -/
theorem real?_of_digit (negative : Bool) {c : Char} {cs : List Char} (hc : c.isDigit = true) :
    real? f (withSign negative (c :: cs)) =
      (decimal? (c :: cs)).map fun d => .ofDecimal negative d.digits d.exponent := by
  have hword (e : Char) (es : List Char) (he : e.isDigit = false) :
      String.ofList ((c :: cs).map Char.toLower) ≠ String.ofList (e :: es) := by
    intro heq
    have hhead := (List.cons.inj (String.ofList_injective heq)).1
    rw [toLower_of_isDigit hc] at hhead
    rw [hhead, he] at hc
    cases hc
  have hminus : c ≠ '-' := by
    rintro rfl
    cases hc
  have hplus : c ≠ '+' := by
    rintro rfl
    cases hc
  unfold real?
  rw [sign_withSign negative cs hminus hplus]
  dsimp only
  rw [if_neg, if_neg]
  · exact hword 'n' ['a', 'n'] rfl
  · rw [not_or]
    exact ⟨hword 'i' ['n', 'f'] rfl, hword 'i' ['n', 'f', 'i', 'n', 'i', 't', 'y'] rfl⟩

/-- Numbers of one sign are equal if their codes, `a` and `b`, are. -/
theorem ofCode_congr {negative : Bool} {a b : Nat} (ha : a ≤ f.infinity) (hb : b ≤ f.infinity)
    (h : a = b) : (Binary.ofCode negative a ha : Binary f) = Binary.ofCode negative b hb := by
  subst h
  rfl

/-- The magnitude of a number `x` that is not a NaN, as a value shows it. -/
def magnitudeText (x : Binary f) : List Char :=
  if x.isFinite then if x.code = 0 then ['0'] else (f.shortest x.code).positional
  else ['i', 'n', 'f']

theorem toList_display (x : Binary f) : x.display.toList =
    if x.isNaN then ['N', 'a', 'N'] else withSign x.negative (magnitudeText x) := by
  show (String.ofList _).toList = _
  rw [String.toList_ofList]
  rfl

theorem solid_display (x : Binary f) : Solid x.display.toList := by
  rw [toList_display]
  split
  · decide
  · refine solid_withSign _ ?_
    unfold magnitudeText
    split
    · split
      · decide
      · exact (positional_solid _).2
    · decide

/-- **The text of a number `x` is the number**: `real?` reads back what `display` shows. -/
theorem real?_display (hf : f.InBounds) (x : Binary f) :
    real? f x.display.toList = some (if x.isNaN then .nan false else x) := by
  rw [toList_display]
  by_cases hnan : x.isNaN = true
  · rw [if_pos hnan, if_pos hnan]
    rfl
  · rw [if_neg hnan, if_neg hnan]
    have hle : x.code ≤ f.infinity := by simpa [Binary.isNaN] using hnan
    unfold magnitudeText
    by_cases hfinite : x.isFinite = true
    · rw [if_pos hfinite]
      by_cases hzero : x.code = 0
      · rw [if_pos hzero, real?_of_digit _ rfl]
        exact congrArg some (ofCode_congr _ hle hzero.symm)
      · rw [if_neg hzero]
        obtain ⟨⟨c, cs, hcs, hc⟩, -⟩ := positional_solid (f.shortest x.code)
        obtain ⟨d, hd, hrat⟩ := decimal?_positional (f.shortest x.code)
        rw [hcs] at hd ⊢
        rw [real?_of_digit _ hc, hd]
        refine congrArg some (ofCode_congr _ hle ?_)
        rw [Format.ofDecimal_congr hf hrat, Format.shortest_readsBack hf hle]
    · rw [if_neg hfinite]
      have hinf : f.infinity = x.code := by
        simp only [Binary.isFinite, decide_eq_true_eq] at hfinite
        omega
      have hreal : real? f (withSign x.negative ['i', 'n', 'f']) = some (.infinity x.negative) := by
        cases x.negative <;> rfl
      rw [hreal]
      exact congrArg some (ofCode_congr _ hle hinf)

end Text

/-! ## §6. Values. -/

namespace Value

/-- The value is a double that is not a number. -/
def isNaN : Value → Bool
  | double d => d.isNaN
  | bool _ | int _ | string _ => false

theorem solid_display_int (n : Word .int64) : Text.Solid (int n).display.toList := by
  show Text.Solid (toString n.val).toList
  rw [Text.toList_toString]
  exact Text.solid_withSign _ (Text.digits_digitChars _).solid

/-- **The text of an integer `n` is read by `real?` as the double that the integer becomes by
`ofInt`.** -/
theorem real?_toString (n : Int) : Text.real? .double (toString n).toList = some (.ofInt n) := by
  have hdigits := Text.digits_digitChars n.natAbs
  have hne := Text.digitChars_ne_nil n.natAbs
  have hdecimal := Text.decimal?_digits hdigits hne
  rw [Text.natural_digitChars] at hdecimal
  rw [Text.toList_toString]
  obtain ⟨c, cs, hcs⟩ := List.exists_cons_of_ne_nil hne
  rw [hcs] at hdigits hdecimal ⊢
  rw [Text.real?_of_digit _ (hdigits c List.mem_cons_self), hdecimal]
  have hround := Format.ofDecimal_eq_round Format.double_inBounds ⟨n.natAbs, 0⟩
  have hnum : Decimal.num ⟨n.natAbs, 0⟩ = n.natAbs := Nat.mul_one _
  rw [hnum] at hround
  exact congrArg some (Text.ofCode_congr _ (Format.double.round_le _ _) hround)

section

variable {before after : List Char}

/-- The text `cs` with the white space `before` and `after` it. -/
def padded (before cs after : List Char) : Value := string (String.ofList (before ++ cs ++ after))

variable (hbefore : Text.Blank before) (hafter : Text.Blank after)

include hbefore hafter

theorem convert_padded_bool (b : Bool) :
    (padded before (bool b).display.toList after).convert .bool = some (bool b) := by
  have hsolid : Text.Solid (bool b).display.toList := by cases b <;> decide
  have hread : readBool? (bool b).display.toList = some b := by cases b <;> rfl
  simp only [padded, convert, toBool?, String.toList_ofList,
    Text.trim_padded hbefore hsolid hafter, hread, Option.map_some]

theorem convert_padded_int (n : Word .int64) :
    (padded before (int n).display.toList after).convert .int = some (int n) := by
  have hread : Text.integer? (int n).display.toList = some n.val := Text.integer?_toString n.val
  simp only [padded, convert, toInt?, String.toList_ofList,
    Text.trim_padded hbefore (solid_display_int n) hafter, hread, Option.bind_some,
    Word.ofInt?_val, Option.map_some]

theorem convert_padded_double (d : Double) :
    (padded before (double d).display.toList after).convert .double =
      some (double (if d.isNaN then .nan false else d)) := by
  have hsolid : Text.Solid (double d).display.toList := Text.solid_display d
  have hread : Text.real? .double (double d).display.toList = _ :=
    Text.real?_display Format.double_inBounds d
  simp only [padded, convert, toDouble?, String.toList_ofList,
    Text.trim_padded hbefore hsolid hafter, hread, Option.map_some]

theorem convert_padded_int_double (n : Word .int64) :
    (padded before (int n).display.toList after).convert .double = (int n).convert .double := by
  have hread : Text.real? .double (int n).display.toList = _ := real?_toString n.val
  simp only [padded, convert, toDouble?, String.toList_ofList,
    Text.trim_padded hbefore (solid_display_int n) hafter, hread]

end

theorem padded_nil (s : String) : padded [] s.toList [] = string s := by
  rw [padded, List.nil_append, List.append_nil, String.ofList_toList]

/-- **Every value `v` is read back from its text**, also `padded` with white space around it, unless
the value is itself a text: to the same value, only of a NaN to some NaN.  And the text of an
integer `i` is read as the double that the integer is converted to. -/
theorem texts_read_back :
    (∀ (v : Value) (before after : List Char), Text.Blank before → Text.Blank after →
      (v.kind = .string → before = [] ∧ after = []) →
      ∃ t w, v.convert .string = some (.string t) ∧
        (padded before t.toList after).convert v.kind = some w ∧
        (v.isNaN = false → w = v) ∧ (v.isNaN = true → w.isNaN = true)) ∧
    (∀ i : Word .int64,
      ((int i).convert .string).bind (·.convert .double) = (int i).convert .double) := by
  constructor
  · intro v before after hbefore hafter hstring
    cases v with
    | bool b =>
      exact ⟨_, bool b, rfl, convert_padded_bool hbefore hafter b, fun _ => rfl, fun h => by cases h⟩
    | int n =>
      exact ⟨_, int n, rfl, convert_padded_int hbefore hafter n, fun _ => rfl, fun h => by cases h⟩
    | double d =>
      refine ⟨_, _, rfl, convert_padded_double hbefore hafter d, fun h => ?_, fun h => ?_⟩
      · have hnan : d.isNaN = false := h
        rw [hnan, if_neg Bool.false_ne_true]
      · have hnan : d.isNaN = true := h
        rw [hnan, if_pos rfl]
        exact Binary.isNaN_nan (by decide) false
    | string s =>
      obtain ⟨rfl, rfl⟩ := hstring rfl
      refine ⟨s, string s, rfl, ?_, fun _ => rfl, fun h => by cases h⟩
      rw [padded_nil]
      exact convert_kind (string s)
  · intro i
    have hempty : Text.Blank [] := fun _ hc => absurd hc List.not_mem_nil
    have hdouble := convert_padded_int_double hempty hempty i
    have htext : (int i).convert .string = some (.string (int i).display) := rfl
    rw [padded_nil] at hdouble
    rw [htext, Option.bind_some, hdouble]

/-- The negative zero, `padded` with an ideographic space and a line feed. -/
theorem texts_read_back_negative_zero :
    ∃ t, (double ⟨true, 0, by decide⟩).convert .string = some (.string t) ∧
      (padded ['\u3000'] t.toList ['\n']).convert .double =
        some (.double ⟨true, 0, by decide⟩) := by
  obtain ⟨t, w, ht, hw, hsame, -⟩ := texts_read_back.1 (double ⟨true, 0, by decide⟩) ['\u3000']
    ['\n'] (by decide) (by decide) fun h => by cases h
  refine ⟨t, ht, ?_⟩
  rw [← hsame (by decide)]
  exact hw

end Value

/-! ## §7. Literals. -/

namespace Binary

variable {f : Format}

theorem bits_lt (x : Binary f) : x.bits < 2 * f.signBit := by
  have hcode := x.code_lt
  unfold bits
  split <;> omega

/-- **The digits of a number `x` are the number**: `ofHex?` reads what `hex` writes, if there are
digits enough for all bits, and more of them than letters in the spelling of the NaNs. -/
theorem ofHex?_hex (hwidth : 3 < hexWidth f)
    (hbits : 2 * f.signBit ≤ Nat.pow 16 (hexWidth f)) (x : Binary f) :
    ofHex? x.hex = some (if x.isNaN then .nan false else x) := by
  by_cases hnan : x.isNaN = true
  · rw [hex, if_pos hnan, if_pos hnan, ofHex?, if_pos rfl]
  · have hlength := Text.Hex.length_fixed (hexWidth f) x.bits
    have hdigits : String.ofList (Text.Hex.fixed (hexWidth f) x.bits) ≠ "nan" := by
      intro heq
      have hthree := congrArg (·.toList.length) heq
      simp only [String.toList_ofList, hlength] at hthree
      exact absurd hthree (Nat.ne_of_gt hwidth)
    have hlt : x.bits < Nat.pow 16 (hexWidth f) := Nat.lt_of_lt_of_le x.bits_lt hbits
    rw [hex, if_neg hnan, if_neg hnan, ofHex?, if_neg hdigits, String.toList_ofList,
      if_pos hlength, Text.Hex.value?_fixed, Nat.mod_eq_of_lt hlt, Option.bind_some, ofBits?_bits]

end Binary

namespace StorageType

/-- The content as a host can write it down: the NaNs share one spelling. -/
def written : (t : StorageType) → t.Raw → t.Raw
  | single, x => if x.isNaN then .nan false else x
  | double, x => if x.isNaN then .nan false else x
  | bool, b => b
  | int _, n => n
  | string, s => s

/-- **What storage of type `t` holds is read back from what a host writes down for it**: `parse?`
undoes `literal`, but for the NaNs. -/
theorem parse?_literal (t : StorageType) (x : t.Raw) :
    t.parse? (t.literal x) = some (t.written x) := by
  cases t with
  | bool | string => rfl
  | int t =>
    show (Text.integer? (toString x.val).toList).bind t.ofInt? = some x
    rw [Text.integer?_toString, Option.bind_some, Word.ofInt?_val]
  | single => exact Binary.ofHex?_hex (by decide) (by decide) x
  | double => exact Binary.ofHex?_hex (by decide) (by decide) x

end StorageType

end ConfigTree
