import ConfigTree.Binary.Number

/-!
# Reading numbers

What texts are numbers, and which.  An integer is an optional sign and digits.  A real number is an
optional sign and then one of the words for infinity and NaN in any case, or digits with an optional
point among them and an optional exponent.  Only ASCII digits count.
-/

namespace ConfigTree.Text

/-- The value of the decimal digit `c`. -/
def digitValue (c : Char) : Nat := c.toNat - '0'.toNat

/-- The number that `digits` spell. -/
def natural (digits : List Char) : Nat :=
  digits.foldl (fun n c => 10 * n + digitValue c) 0

/-- Whether a sign in front is a minus, and the text behind the sign. -/
def sign : List Char → Bool × List Char
  | '-' :: cs => (true, cs)
  | '+' :: cs => (false, cs)
  | cs => (false, cs)

/-- The integer that `cs` spells: at least one digit and nothing else behind the `sign`. -/
def integer? (cs : List Char) : Option Int :=
  let (negative, digits) := sign cs
  if digits ≠ [] ∧ digits.all Char.isDigit then
    some (if negative then -(natural digits : Int) else natural digits)
  else none

/-- An exponent: nothing, or a mark followed by an integer. -/
def exponent? : List Char → Option Int
  | [] => some 0
  | c :: cs => if c = 'e' ∨ c = 'E' then integer? cs else none

/-- The unsigned decimal that `cs` spells: digits with an optional point and an optional
exponent. -/
def decimal? (cs : List Char) : Option Decimal :=
  let whole := cs.takeWhile Char.isDigit
  let rest := cs.dropWhile Char.isDigit
  let (places, rest) := match rest with
    | '.' :: tail => (tail.takeWhile Char.isDigit, tail.dropWhile Char.isDigit)
    | _ => ([], rest)
  if whole ++ places = [] then none
  else (exponent? rest).map fun e => ⟨natural (whole ++ places), e - places.length⟩

/-- The real number that `cs` spells, rounded to the format `f`. -/
def real? (f : Format) (cs : List Char) : Option (Binary f) :=
  let (negative, cs) := sign cs
  let word := String.ofList (cs.map Char.toLower)
  if word = "inf" ∨ word = "infinity" then some (.infinity negative)
  else if word = "nan" then some (.nan negative)
  else (decimal? cs).map fun d => .ofDecimal negative d.digits d.exponent

end ConfigTree.Text
