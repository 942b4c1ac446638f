import ConfigTree.Effect

/-!
# Symbols

A configuration tree is made of symbols: scalars and functions at its leaves, and scopes and objects
that hold further symbols.  A scope and an object differ only in the role that the branch plays, so
all that concerns children is said once, for branches.  `Scope` and `ObjectBinding` are the views of
a branch that the operations work on.
-/

namespace ConfigTree

/-! ## §1. The pieces of a symbol. -/

/-- A hold on a native object. -/
structure Handle where
  /-- Which object. -/
  id : ObjectId
  /-- Whether the object is destroyed with the holder. -/
  owned : Bool
deriving DecidableEq, Repr

/-- Where a scalar keeps its value. -/
inductive Storage where
  /-- In the scalar itself. -/
  | value (v : Value)
  /-- Outside the tree. -/
  | linked (l : Link)
deriving DecidableEq, Repr

/-- A symbol that holds one value. -/
structure Scalar where
  /-- Name and place. -/
  info : Info
  /-- Where the value is kept. -/
  storage : Storage
deriving DecidableEq, Repr

/-- What a function does with its arguments. -/
inductive Callable where
  /-- The sum of the integers among them, wrapping around. -/
  | sum
  /-- How many there are. -/
  | count
  /-- Their texts in a row. -/
  | concat
  /-- The first of them. -/
  | first
  /-- Always fails. -/
  | fail
deriving DecidableEq, Repr

/-- A symbol that can be called. -/
structure Function where
  /-- Name and place. -/
  info : Info
  /-- What it does. -/
  callable : Callable
  /-- How many arguments it takes; any number if nothing is said. -/
  arity? : Option Nat := none
deriving DecidableEq, Repr

/-- What a branch of the tree is. -/
inductive Role where
  /-- A scope and nothing more. -/
  | scope
  /-- An object, bound through a handle unless it is unbound. -/
  | object (handle? : Option Handle)
deriving DecidableEq, Repr

/-- A node of a configuration tree. -/
inductive Symbol where
  /-- Holds one value. -/
  | scalar (s : Scalar)
  /-- Can be called. -/
  | function (f : Function)
  /-- Holds other symbols, in the order in which they were registered. -/
  | branch (role : Role) (info : Info) (policy : CopyPolicy) (children : List Symbol)

/-- The part of a branch that all branches have. -/
structure Scope where
  /-- Name and place. -/
  info : Info
  /-- How it is copied into. -/
  policy : CopyPolicy := .matchingNames
  /-- The children, oldest first. -/
  children : List Symbol := []

/-- A branch that is an object. -/
structure ObjectBinding where
  /-- Its children and their scope. -/
  scope : Scope
  /-- The hold on its object. -/
  handle? : Option Handle := none

namespace Role

/-- The object that is destroyed with a branch of this `Role`. -/
def owned? : Role → Option ObjectId
  | scope => none
  | object handle? => handle?.bind fun h => if h.owned then some h.id else none

/-- The `Kind` of a branch of this `Role`. -/
def kind : Role → Symbol.Kind
  | scope => .scope
  | object _ => .object

end Role

namespace Symbol

/-! ## §2. Looking at a symbol. -/

/-- The name and place of a symbol. -/
def info : Symbol → Info
  | scalar s => s.info
  | function f => f.info
  | branch _ info _ _ => info

/-- The name of the symbol `x`. -/
def name (x : Symbol) : String := x.info.name

/-- The `Kind` of a symbol. -/
def kind : Symbol → Kind
  | scalar _ => .scalar
  | function _ => .function
  | branch role _ _ _ => role.kind

/-- The children of a symbol; a leaf has none. -/
def children : Symbol → List Symbol
  | branch _ _ _ children => children
  | _ => []

/-- The symbol as a `Scope`, if it holds symbols. -/
def scope? : Symbol → Option Scope
  | branch _ info policy children => some ⟨info, policy, children⟩
  | _ => none

/-- The symbol as an `ObjectBinding`, if it is an object. -/
def object? : Symbol → Option ObjectBinding
  | branch (.object handle?) info policy children => some ⟨⟨info, policy, children⟩, handle?⟩
  | _ => none

/-- The symbol as a `Scalar`, if it is one. -/
def scalar? : Symbol → Option Scalar
  | scalar s => some s
  | _ => none

/-- The symbol as a `Function`, if it is one. -/
def function? : Symbol → Option Function
  | function f => some f
  | _ => none

/-! ## §3. Making and changing symbols. -/

/-- The branch that is the scope `s` and nothing more. -/
def ofScope (s : Scope) : Symbol := .branch .scope s.info s.policy s.children

/-- The branch that is the object `o`. -/
def ofObject (o : ObjectBinding) : Symbol :=
  .branch (.object o.handle?) o.scope.info o.scope.policy o.scope.children

/-- The branch `x` with the content of `s` in the same role; a leaf stays as it is. -/
def withScope (x : Symbol) (s : Scope) : Symbol :=
  match x with
  | branch role _ _ _ => .branch role s.info s.policy s.children
  | leaf => leaf

/-- The branch `x` with the children `cs`; a leaf stays as it is. -/
def withChildren (x : Symbol) (cs : List Symbol) : Symbol :=
  match x with
  | branch role info policy _ => .branch role info policy cs
  | leaf => leaf

mutual

/-- The symbol below the parent `parent?`, with the parent paths of all that it holds up to date. -/
def reroot (parent? : Option Path) : Symbol → Symbol
  | scalar s => .scalar { s with info := s.info.withParent parent? }
  | function f => .function { f with info := f.info.withParent parent? }
  | branch role info policy cs =>
    .branch role (info.withParent parent?) policy (rerootAll (info.withParent parent?).path cs)

/-- The symbols below a parent with the given `path`, each by `reroot`. -/
def rerootAll (path : Path) : List Symbol → List Symbol
  | [] => []
  | c :: cs => c.reroot (some path) :: rerootAll path cs

end

mutual

/-- The symbol with all links to the object `old` pointed at `new`. -/
def rebind (old new : ObjectId) : Symbol → Symbol
  | scalar s => match s.storage with
    | .value _ => .scalar s
    | .linked l => .scalar { s with storage := .linked (l.rebind old new) }
  | function f => .function f
  | branch role info policy cs => .branch role info policy (rebindAll old new cs)

/-- The symbols with all links to the object `old` pointed at `new`. -/
def rebindAll (old new : ObjectId) : List Symbol → List Symbol
  | [] => []
  | c :: cs => c.rebind old new :: rebindAll old new cs

end

/-! ## §4. Walking the tree. -/

mutual

/-- A symbol and all that it holds, each with the names that lead to it from `here`, parents before
children. -/
def preorder (here : Path) : Symbol → List (Path × Symbol)
  | scalar s => [(here, .scalar s)]
  | function f => [(here, .function f)]
  | branch role info policy cs => (here, .branch role info policy cs) :: preorderAll here cs

/-- The symbols below the path `here` and all that they hold. -/
def preorderAll (here : Path) : List Symbol → List (Path × Symbol)
  | [] => []
  | c :: cs => c.preorder (here.child c.name) ++ preorderAll here cs

end

end Symbol

namespace Scope

/-- The child called `name`. -/
def lookup? (s : Scope) (name : String) : Option Symbol :=
  s.children.find? (·.name = name)

/-- Whether there is a child called `name`. -/
def contains (s : Scope) (name : String) : Bool := (s.lookup? name).isSome

/-- The names of the children, oldest first. -/
def names (s : Scope) : List String := s.children.map Symbol.name

/-- The scope `s` with `x` behind its other children. -/
def append (s : Scope) (x : Symbol) : Scope := { s with children := s.children ++ [x] }

end Scope

namespace ObjectBinding

/-- The name and place of an object symbol. -/
def info (o : ObjectBinding) : Info := o.scope.info

/-- How messages call the object symbol. -/
def label (o : ObjectBinding) : String := o.info.label

/-- Whether the object is destroyed with `o`. -/
def owns (o : ObjectBinding) : Bool := (Role.object o.handle?).owned?.isSome

/-- The object symbol `o` below the parent `parent?`, with the parent paths of its children up to
date. -/
def reroot (o : ObjectBinding) (parent? : Option Path) : ObjectBinding :=
  let info := o.scope.info.withParent parent?
  { o with scope := ⟨info, o.scope.policy, Symbol.rerootAll info.path o.scope.children⟩ }

/-- What the object bound by `o` says of its type; `void` if there is none. -/
def describe (o : ObjectBinding) (s : Store) : Descriptor :=
  match o.handle? with
  | some h => s.describe h.id
  | none => .void

end ObjectBinding

end ConfigTree
