import ConfigTree.Binary.Number

/-!
# Writing floating-point numbers

Both notations write the fewest digits that read back.  `Binary.display` is for values: always
positional, an integral number without a point.  `Binary.dump` is for debug dumps: a point is always
there, and very large and very small magnitudes have an exponent.
-/

namespace ConfigTree

namespace Decimal

/-- The digits with the point in its place and no exponent; an integer has no point. -/
def positional (d : Decimal) : List Char :=
  let cs := digitChars d.digits
  if 0 ≤ d.exponent then cs ++ List.replicate d.exponent.toNat '0'
  else
    let places := (-d.exponent).toNat
    if places < cs.length then
      cs.take (cs.length - places) ++ '.' :: cs.drop (cs.length - places)
    else '0' :: '.' :: List.replicate (places - cs.length) '0' ++ cs

/-- One digit before the point, the others after it, and the power of ten behind an `e`. -/
def scientific (d : Decimal) : List Char :=
  let mark := 'e' :: (toString d.leading).toList
  match digitChars d.digits with
  | c :: [] => c :: mark
  | c :: cs => c :: '.' :: cs ++ mark
  | [] => mark

end Decimal

namespace Binary

variable {f : Format}

/-- The text of a number, where `finite` writes a finite magnitude. -/
private def signed (x : Binary f) (finite : Nat → List Char) : List Char :=
  if x.isNaN then ['N', 'a', 'N']
  else
    let magnitude := if x.isFinite then finite x.code else ['i', 'n', 'f']
    if x.negative then '-' :: magnitude else magnitude

/-- A number as a `Value` shows it. -/
def display (x : Binary f) : String :=
  String.ofList (x.signed fun code =>
    if code = 0 then ['0'] else (f.shortest code).positional)

/-- A number as a dump shows it: positional from `0.0001` up to `10 ^ 16`. -/
def dump (x : Binary f) : String :=
  String.ofList (x.signed fun code =>
    if code = 0 then ['0', '.', '0']
    else
      let d := f.shortest code
      if -4 ≤ d.leading ∧ d.leading < 16 then
        if 0 ≤ d.exponent then d.positional ++ ['.', '0'] else d.positional
      else d.scientific)

end Binary

end ConfigTree
