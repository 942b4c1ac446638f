import ConfigTree.Text.Shapeless

/-!
# Quoted text

How a dump writes a text: between quotation marks, with a backslash before what would end it, and
with the code point of each character that has no shape of its own.
-/

namespace ConfigTree.Text

/-- The character `c` as it stands between quotation marks. -/
def escape (c : Char) : List Char :=
  match c with
  | '\x00' => ['\\', '0']
  | '\t' => ['\\', 't']
  | '\n' => ['\\', 'n']
  | '\r' => ['\\', 'r']
  | '\\' => ['\\', '\\']
  | '"' => ['\\', '"']
  | c =>
    if isShapeless c then ['\\', 'u', '\x7b'] ++ Nat.toDigits 16 c.toNat ++ ['\x7d']
    else [c]

/-- The text `s` between quotation marks, each character by `escape`. -/
def quote (s : String) : String :=
  String.ofList ('"' :: s.toList.flatMap escape ++ ['"'])

end ConfigTree.Text
