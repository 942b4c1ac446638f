import ConfigTree.Session.Basic
import ConfigTree.Symbol.Descent
import ConfigTree.Symbol.Release

/-!
# Requests

A `Request α` computes an `α` from a session and changes the session on the way; what it changed
before a failure stays changed.  All requests are made of a few steps: finding something by its name
or place, putting a symbol where one is, filling a slot, and doing something to what surrounds the
trees.
-/

namespace ConfigTree

/-- A computation on a `Session` that may fail, and keeps what it has changed by then. -/
abbrev Request := ExceptT Failure (StateM Session)

namespace Request

variable {α : Type}

/-- Does `e` to the surroundings of the trees. -/
def perform (e : Effect α) : Request α := do
  let s ← get
  let (a, w) := e.run s.surroundings
  set { s with surroundings := w }
  return a

/-- The store of the session. -/
def store : Request Store := do return (← get).surroundings.store

/-- What `x?` holds; a request that finds nothing fails with `missing what`. -/
def require (x? : Option α) (what : Noun) : Request α :=
  match x? with
  | some x => return x
  | none => throw (.missing what)

/-- The outcome `r` of an operation on a tree. -/
def accept (r : Except SymbolError α) : Request α :=
  match r with
  | .ok a => return a
  | .error e => throw (.symbol e)

/-- The outcome `r` of an access to a bound object as one of a type. -/
def acceptTyped (r : Except SymbolError (Except Mistyped α)) : Request α := do
  match ← accept r with
  | .ok a => return a
  | .error m => throw (.mistyped m)

/-! ## §1. Finding things. -/

/-- The symbol in the slot `name`. -/
def slot (name : String) : Request Symbol := do
  require ((← get).slots.get? name) .slot

/-- The symbol at `p`. -/
def symbol (p : Place) : Request Symbol := do
  require ((← slot p.slot).descend? p.path.segments) .symbol

/-- The symbol at `p`, which must hold symbols. -/
def branch (p : Place) : Request Symbol := do
  require (((← slot p.slot).descend? p.path.segments).filter (·.kind.isScope)) .scope

/-- The scope at `p`. -/
def scope (p : Place) : Request Scope := do
  require ((← slot p.slot).scopeAt? p.path) .scope

/-- The object symbol at `p`. -/
def object (p : Place) : Request ObjectBinding := do
  require (← symbol p).object? .object

/-- The scalar at `p`. -/
def scalar (p : Place) : Request Scalar := do
  require (← symbol p).scalar? .scalar

/-- The function at `p`. -/
def function (p : Place) : Request Function := do
  require (← symbol p).function? .function

/-- The object that the host calls `name`. -/
def host (name : String) : Request ObjectId := do
  require ((← get).hosts.get? name) .host

/-- The object that the host calls `name`, and what is kept of it. -/
def resident (name : String) : Request (ObjectId × Resident) := do
  let id ← host name
  let r ← require ((← store).object? id) .host
  return (id, r)

/-- The cell that the host calls `name`. -/
def cell (name : String) : Request CellId := do
  require ((← get).cells.get? name) .cell

/-- The cell that the host calls `name`, and what it holds. -/
def content (name : String) : Request (CellId × Cell) := do
  let id ← cell name
  let c ← require ((← store).cell? id) .cell
  return (id, c)

/-! ## §2. Changing things. -/

/-- Puts `x` in place of the symbol at `p`. -/
def put (p : Place) (x : Symbol) : Request Unit :=
  modify fun s =>
    match (s.slots.get? p.slot).bind (·.replace? p.path.segments x) with
    | some tree => { s with slots := s.slots.insert p.slot tree }
    | none => s

/-- Puts `new` in place of the scope at `p`, in the same role. -/
def putScope (p : Place) (new : Scope) : Request Unit := do
  put p ((← branch p).withScope new)

/-- Puts `x` into the slot `name`; the symbol that was there is dropped. -/
def fill (name : String) (x : Symbol) : Request Unit := do
  let old? := (← get).slots.get? name
  modify fun s => { s with slots := s.slots.insert name x }
  match old? with
  | some old => perform old.release
  | none => return

/-- Changes the symbol `x` at `p` by `f`, which may stop before its end. -/
def change (p : Place) (x : Symbol) (f : Symbol → Effect (Attempt Symbol)) : Request Unit := do
  let out ← perform (f x)
  put p out.value
  accept out.result

/-- How messages call the child that `s` got last. -/
def newestLabel (s : Scope) : String :=
  (s.children.getLast?.map (·.info.label)).getD ""

/-- Registers something in the scope at `p` by `f` and answers with its label. -/
def register (p : Place) (f : Scope → Effect (Except SymbolError Scope)) : Request String := do
  let s ← accept (← perform (f (← scope p)))
  putScope p s
  return newestLabel s

end Request

end ConfigTree
