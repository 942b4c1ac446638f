import ConfigTree.Symbol.Copy
import ConfigTree.Symbol.Descent

/-!
# Assignment

One symbol of a tree takes over the value of another of the same tree.  The target is taken out
while the source is looked up in what remains, and put back at its old place afterwards, whatever
came of the copy.  Neither side may contain the other.
-/

namespace ConfigTree.Symbol

/-- A symbol taken out of its tree. -/
structure Detached where
  /-- What remains of the tree. -/
  rest : Symbol
  /-- The place of the symbol among its siblings. -/
  index : Nat
  /-- The symbol. -/
  symbol : Symbol

/-- Takes the symbol called `name` out of the scope at `parent`. -/
def detach? (x : Symbol) (parent : Path) (name : String) : Option Detached := do
  let p ← x.descend? parent.segments
  let i ← p.children.findIdx? (·.name = name)
  let found ← p.children[i]?
  let rest ← x.replace? parent.segments (p.withChildren (p.children.eraseIdx i))
  return ⟨rest, i, found⟩

/-- Puts `new` into the scope at `parent`, as number `index` among its siblings. -/
def attach? (x : Symbol) (parent : Path) (index : Nat) (new : Symbol) : Option Symbol := do
  let p ← x.descend? parent.segments
  x.replace? parent.segments (p.withChildren (p.children.insertIdx index new))

/-- Reports that the path `p` leads nowhere. -/
def reportMissing (p : Path) : Effect SymbolError :=
  Effect.report (.notFound p.display)

/-- The symbol that was taken out, after it takes over the value at `source` in what remains. -/
def Detached.copyFrom (d : Detached) (source : Path) : Effect (Attempt Symbol) := do
  match d.rest.resolve? source with
  | some src => d.symbol.copyFrom src
  | none => return ⟨d.symbol, some (← reportMissing source)⟩

/-- Copies the value at `source` into the symbol at `target`. -/
def assign (x : Symbol) (target source : Path) : Effect (Attempt Symbol) := do
  Effect.emit (.assigning target.display source.display)
  if target = source then
    match x.resolve? target with
    | some _ => return ⟨x, none⟩
    | none => return ⟨x, some (← reportMissing target)⟩
  else if target.isPrefixOf source || source.isPrefixOf target then
    let e := .overlappingAssignment target.display source.display
    return ⟨x, some (← Effect.report e)⟩
  else
    match target.splitLast?.bind fun (parent, name) => (x.detach? parent name).map (parent, ·) with
    | none => return ⟨x, some (← reportMissing target)⟩
    | some (parent, d) =>
      let copied ← d.copyFrom source
      -- the parent is still there: the copy did not touch the rest of the tree
      return ⟨(d.rest.attach? parent d.index copied.value).getD x, copied.error?⟩

/-- Writes the value `v` into the scalar at `target`. -/
def assignValue (x : Symbol) (target : Path) (v : Value) : Effect (Attempt Symbol) := do
  Effect.emit (.assigningValue target.display v.display)
  match x.resolve? target with
  | none => return ⟨x, some (← reportMissing target)⟩
  | some (.scalar s) =>
    let written ← s.set v
    return written.map fun s => (x.replace? target.segments (.scalar s)).getD x
  | some other =>
    let e := .typeMismatch other.info.label v.display other.kind.article
    return ⟨x, some (← Effect.report e)⟩

end ConfigTree.Symbol
