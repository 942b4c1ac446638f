import ConfigTree.Symbol.Basic

/-!
# Descending a tree

Finding a symbol by the names that lead to it, putting another one in its place, and lexical lookup.
Every name but the last must lead to a scope or an object.
-/

namespace ConfigTree

namespace Symbol

/-- The child of `x` that is called `name`. -/
def child? (x : Symbol) (name : String) : Option Symbol :=
  x.children.find? (·.name = name)

/-- The symbol that a list of names leads to; the empty list leads to the symbol itself. -/
def descend? : Symbol → List String → Option Symbol
  | x, [] => some x
  | x, k :: ks => (x.child? k).bind fun c => c.descend? ks

/-- The symbols with the first that is called `name` replaced by `new`. -/
def replaceNamed (name : String) (new : Symbol) : List Symbol → List Symbol
  | [] => []
  | c :: cs => if c.name = name then new :: cs else c :: replaceNamed name new cs

/-- The tree with the symbol `new` where a list of names leads to. -/
def replace? : Symbol → List String → Symbol → Option Symbol
  | _, [], new => some new
  | x, k :: ks, new => do
    let c ← x.child? k
    let c ← c.replace? ks new
    return x.withChildren (replaceNamed k c x.children)

/-- The symbol at the path `p` below `x`; the `root` names none. -/
def resolve? (x : Symbol) (p : Path) : Option Symbol :=
  if p.isRoot then none else x.descend? p.segments

/-- The scope at the path `p` below `x`; the `root` names that of `x` itself. -/
def scopeAt? (x : Symbol) (p : Path) : Option Scope :=
  (x.descend? p.segments).bind scope?

/-- The first symbol called `name` in the scopes from `start` outward; other symbols are passed
over. -/
def lexical? (x : Symbol) (start : Path) (name : String) : Option Symbol :=
  (start :: start.ancestors).findSome? fun p => (x.scopeAt? p).bind (·.lookup? name)

end Symbol

end ConfigTree
