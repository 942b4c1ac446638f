/-!
# Paths

A path leads from a root to a symbol, one name after the other, and is written with dots between the
names.  Reading drops empty names, so not every list of names is written in a form that reads back.
-/

namespace ConfigTree

/-- A way down a tree, from the root. -/
structure Path where
  /-- The names on the way. -/
  segments : List String
deriving DecidableEq, Repr

namespace Path

/-! ## §1. Going down and up. -/

/-- The empty path. -/
def root : Path := ⟨[]⟩

/-- The path `p` continued by `name`. -/
def child (p : Path) (name : String) : Path := ⟨p.segments ++ [name]⟩

/-- Whether `p` is the `root`. -/
def isRoot (p : Path) : Bool := p.segments.isEmpty

/-- The number of names in `p`. -/
def depth (p : Path) : Nat := p.segments.length

/-- The last name of `p`. -/
def name? (p : Path) : Option String := p.segments.getLast?

/-- The path `p` without its last name, and that name. -/
def splitLast? (p : Path) : Option (Path × String) :=
  p.segments.getLast?.map fun name => (⟨p.segments.dropLast⟩, name)

/-- The path `p` without its last name. -/
def parent? (p : Path) : Option Path :=
  p.splitLast?.map (·.1)

/-- The proper prefixes of `p`, longest first. -/
def ancestors (p : Path) : List Path :=
  (List.range p.depth).reverse.map fun n => ⟨p.segments.take n⟩

/-- Whether `q` is `p` or goes on from it. -/
def isPrefixOf (p q : Path) : Bool := p.segments.isPrefixOf q.segments

@[simp] theorem splitLast?_child (p : Path) (name : String) :
    (p.child name).splitLast? = some (p, name) := by
  simp [splitLast?, child]

/-! ## §2. The dotted form. -/

/-- The pieces of a text between its dots; one more than there are dots. -/
def pieces : List Char → List (List Char)
  | [] => [[]]
  | c :: cs =>
    if c = '.' then [] :: pieces cs
    else match pieces cs with
      | [] => [[c]]
      | p :: ps => (c :: p) :: ps

/-- The path that the text `s` spells: its nonempty `pieces`. -/
def ofDotted (s : String) : Path :=
  ⟨((pieces s.toList).filter (· ≠ [])).map String.ofList⟩

/-- The `segments` of `p` with dots between them. -/
def display (p : Path) : String := ".".intercalate p.segments

/-- Whether `name` can be a segment of a path that reads back. -/
def validName (name : String) : Bool := name ≠ "" && !name.toList.contains '.'

end Path

end ConfigTree
