import ConfigTree.Text.Quoted

/-!
# Dump notation

How a dump is put together: a record is its name and its fields between braces, a case is its name
and its content between parentheses, and sequences and maps stand between brackets and braces.
-/

namespace ConfigTree.Text.Dump

/-- A field of a record. -/
structure Part where
  /-- What the field is called. -/
  label : String
  /-- What it holds. -/
  content : String

/-- The parts of something with commas between them. -/
def commas (texts : List String) : String := ", ".intercalate texts

/-- The text of the part `p`. -/
def Part.text (p : Part) : String := s!"{p.label}: {p.content}"

/-- A record `name` with all its fields. -/
def record (name : String) (parts : List Part) : String :=
  let body := commas (parts.map Part.text)
  s!"{name} \x7b {body} \x7d"

/-- A record `name` with some of its fields. -/
def openRecord (name : String) (parts : List Part) : String :=
  let body := commas (parts.map Part.text ++ [".."])
  s!"{name} \x7b {body} \x7d"

/-- A case `name` with its `content`. -/
def case (name content : String) : String := s!"{name}({content})"

/-- What may be absent. -/
def option : Option String → String
  | some content => case "Some" content
  | none => "None"

/-- A truth value. -/
def flag (b : Bool) : String := if b then "true" else "false"

/-- A sequence. -/
def list (texts : List String) : String :=
  let body := commas texts
  s!"[{body}]"

/-- A map from texts. -/
def map (entries : List (String × String)) : String :=
  let body := commas (entries.map fun (key, content) => Part.text ⟨quote key, content⟩)
  s!"\x7b{body}\x7d"

end ConfigTree.Text.Dump
