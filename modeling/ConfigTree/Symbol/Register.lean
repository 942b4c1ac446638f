import ConfigTree.Symbol.Object
import ConfigTree.Symbol.Release

/-!
# Registering symbols

A symbol enters a scope at its end, under a name that a path can spell and that is not taken.  A
refused symbol is dropped and the scope stays as it was.  A linked scalar gets its default before it
enters, so one whose default cannot be written does not enter at all.
-/

namespace ConfigTree

namespace Scope

/-! ## §1. Entering a scope. -/

/-- Why `s` takes no symbol called `name`: no path can spell it, or it is taken. -/
def refusal? (s : Scope) (name : String) : Option SymbolError :=
  if !Path.validName name then some (.invalidName s.info.label name)
  else if s.contains name then some (.nameCollision s.info.label name)
  else none

/-- Lets `x` into `s`, or drops it if the scope refuses it. -/
def receive (s : Scope) (x : Symbol) : Effect (Except SymbolError Unit) := do
  match s.refusal? x.name with
  | some e =>
    let e ← Effect.report e
    x.release
    return .error e
  | none =>
    Effect.emit (.registered s.info.label x.name x.kind)
    return .ok ()

/-- Registers `x` in `s`. -/
def insert (s : Scope) (x : Symbol) : Effect (Except SymbolError Scope) := do
  return (← s.receive x).map fun () => s.append (x.reroot (some s.info.path))

/-- Lets in an object bound through `h`; it takes its copy policy from `s`. -/
def receiveObject (s : Scope) (name description : String) (h : Handle) :
    Effect (Except SymbolError ObjectBinding) := do
  let typeName := ((← Effect.store).describe h.id).name
  Effect.emit (.binding name h.owned typeName)
  let o : ObjectBinding := ⟨⟨⟨name, description, none⟩, s.policy, []⟩, some h⟩
  return (← s.receive (.ofObject o)).map fun () => o.reroot (some s.info.path)

/-- Registers an empty scope, which takes over the copy policy of `s`. -/
def addScope (s : Scope) (name description : String) : Effect (Except SymbolError Scope) :=
  s.insert (.ofScope ⟨⟨name, description, none⟩, s.policy, []⟩)

/-- Registers a scalar that holds the value `v` itself. -/
def addScalar (s : Scope) (name description : String) (v : Value) :
    Effect (Except SymbolError Scope) :=
  s.insert (.scalar ⟨⟨name, description, none⟩, .value v⟩)

/-- Registers a function that does what `c` does. -/
def addFunction (s : Scope) (name description : String) (c : Callable) (arity? : Option Nat) :
    Effect (Except SymbolError Scope) :=
  s.insert (.function ⟨⟨name, description, none⟩, c, arity?⟩)

/-- Registers an object bound through `h`. -/
def addObject (s : Scope) (name description : String) (h : Handle) :
    Effect (Except SymbolError Scope) := do
  return (← s.receiveObject name description h).map fun o => s.append (.ofObject o)

/-- Registers an object that is bound to nothing; it keeps the plain `CopyPolicy`. -/
def addUnbound (s : Scope) (name description : String) : Effect (Except SymbolError Scope) :=
  s.insert (.ofObject ⟨⟨⟨name, description, none⟩, .matchingNames, []⟩, none⟩)

/-! ## §2. Linked scalars. -/

/-- Reports the `refusal?` of `name`, if there is one. -/
def ensureVacant (s : Scope) (name : String) : Effect (Except SymbolError Unit) := do
  match s.refusal? name with
  | some e => return .error (← Effect.report e)
  | none => return .ok ()

/-- Registers a scalar linked through `l` once its `default`, read as a value, is written to the
target. -/
def addLinked (s : Scope) (name description : String) (l : Link)
    (default : Except AccessError Value) : Effect (Except SymbolError Scope) := do
  match ← s.ensureVacant name with
  | .error e => return .error e
  | .ok () =>
    match default.bind (l.write (← Effect.store)) with
    | .error e => return .error (← Effect.report (.access (s.info.childLabel name) e))
    | .ok store =>
      Effect.putStore store
      s.insert (.scalar ⟨⟨name, description, none⟩, .linked l⟩)

/-- Registers a scalar that is kept in the shared cell `cell`. -/
def linkCell (s : Scope) (name description : String) (cell : CellId) (t : StorageType)
    (default : t.Raw) : Effect (Except SymbolError Scope) :=
  s.addLinked name description (.cell cell) (t.read default)

/-! ## §3. Leaving a scope. -/

/-- Detaches the child called `name`; the symbol that comes out has no parent. -/
def remove (s : Scope) (name : String) : Effect (Option (Symbol × Scope)) := do
  match s.lookup? name with
  | none => return none
  | some x =>
    Effect.emit (.removed s.info.label name)
    return some (x.reroot none, { s with children := s.children.eraseP (·.name = name) })

end Scope

/-- Registers a scalar that is kept in the field `f` of the object that `o` is bound to. -/
def ObjectBinding.linkField (o : ObjectBinding) (name description : String) (f : Field)
    (default : f.type.Raw) : Effect (Except SymbolError ObjectBinding) := do
  match ← o.live with
  | .error e => return .error e
  | .ok h =>
    return (← o.scope.addLinked name description (.field h.id f) (f.type.read default)).map
      fun s => { o with scope := s }

end ConfigTree
