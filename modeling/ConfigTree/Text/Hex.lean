/-!
# Hexadecimal digits

Bit patterns are written with a fixed number of hexadecimal digits, and read back.
-/

namespace ConfigTree.Text.Hex

/-- The last hexadecimal digits of a number, as many as asked for. -/
def fixed : Nat → Nat → List Char
  | 0, _ => []
  | width + 1, n => fixed width (n / 16) ++ [Nat.digitChar (n % 16)]

/-- The value of the hexadecimal digit `c`. -/
def digitValue? (c : Char) : Option Nat :=
  if '0' ≤ c ∧ c ≤ '9' then some (c.toNat - '0'.toNat)
  else if 'a' ≤ c ∧ c ≤ 'f' then some (c.toNat - 'a'.toNat + 10)
  else none

/-- The number that the hexadecimal digits `cs` spell. -/
def value? (cs : List Char) : Option Nat :=
  cs.foldlM (fun n c => (digitValue? c).map (16 * n + ·)) 0

theorem digitValue?_digitChar : ∀ n < 16, digitValue? (Nat.digitChar n) = some n := by
  decide

theorem length_fixed (width n : Nat) : (fixed width n).length = width := by
  induction width generalizing n with
  | zero => rfl
  | succ w ih => simp [fixed, ih]

theorem value?_fixed (width n : Nat) : value? (fixed width n) = some (n % Nat.pow 16 width) := by
  induction width generalizing n with
  | zero => exact congrArg some (Nat.mod_one n).symm
  | succ w ih =>
    have hdigit := digitValue?_digitChar (n % 16) (Nat.mod_lt _ (by decide))
    have hvalue := ih (n / 16)
    simp only [value?] at hvalue ⊢
    simp only [fixed, List.foldlM_append, hvalue, Option.bind_eq_bind, Option.bind_some,
      List.foldlM_cons, List.foldlM_nil, hdigit, Option.map_some, Option.pure_def]
    have hsplit : Nat.pow 16 (w + 1) = 16 * Nat.pow 16 w := Nat.pow_succ'
    rw [hsplit, Nat.mod_mul, Nat.add_comm]

end ConfigTree.Text.Hex
