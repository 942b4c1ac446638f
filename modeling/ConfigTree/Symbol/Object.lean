import ConfigTree.Symbol.Basic

/-!
# Access to bound objects

An object symbol reaches its object through its handle.  It counts as bound only while the object is
alive.  `ObjectBinding.peek` says what is found; the other operations report what stands in the way.
Asking for the object as a type that it is not is a fault of the host and no error of the
configuration: `Mistyped` is that fault.
-/

namespace ConfigTree

namespace ObjectBinding

/-- The handle of `o`, while its object is alive in the store `s`. -/
def live? (o : ObjectBinding) (s : Store) : Option Handle :=
  o.handle?.filter fun h => s.isLive h.id

/-- Whether `o` is bound to an object that is alive in the store `s`. -/
def isBound (o : ObjectBinding) (s : Store) : Bool := (o.live? s).isSome

/-- How a failing access to the object of `o` is put to the author: an object that is gone is not
bound. -/
def accessError (o : ObjectBinding) : AccessError → SymbolError
  | .dangling => .unbound o.label
  | e => .access o.label e

/-- The object that `o` is bound to, and which one it is. -/
def peek (o : ObjectBinding) (s : Store) : Except SymbolError (ObjectId × Native) :=
  match o.live? s with
  | none => .error (.unbound o.label)
  | some h => ((s.read h.id).mapError o.accessError).map fun n => (h.id, n)

/-- The handle of `o`, which is reported as `unbound` if its object is not alive. -/
def live (o : ObjectBinding) : Effect (Except SymbolError Handle) := do
  match o.live? (← Effect.store) with
  | some h => return .ok h
  | none => return .error (← Effect.report (.unbound o.label))

/-- Reads the object that `o` is bound to. -/
def object (o : ObjectBinding) : Effect (Except SymbolError (ObjectId × Native)) := do
  match o.peek (← Effect.store) with
  | .ok found => return .ok found
  | .error e => return .error (← Effect.report e)

end ObjectBinding

/-- A host asked for a bound object as a type that it is not. -/
structure Mistyped where
  /-- How messages call the object symbol. -/
  label : String
  /-- The registered name that the object gives of its type. -/
  holds : String
  /-- The type that was asked for. -/
  asked : NativeType
deriving DecidableEq, Repr

namespace ObjectBinding

/-- Reads the object that `o` is bound to as one of type `t`. -/
def objectAs (o : ObjectBinding) (t : NativeType) :
    Effect (Except SymbolError (Except Mistyped Native)) := do
  return (← o.object).map fun (_, n) =>
    if n.type = t then .ok n else .error ⟨o.label, n.describe.name, t⟩

/-- Changes the object that `o` is bound to by `f`, which computes something on the way. -/
def updateObject (o : ObjectBinding) {α : Type} (f : Native → α × Native) :
    Effect (Except SymbolError α) := do
  match ← o.object with
  | .error e => return .error e
  | .ok (id, n) =>
    let (a, n) := f n
    Effect.putStore ((← Effect.store).setNative id n)
    return .ok a

/-- Changes the object that `o` is bound to as one of type `t`.  The lock does not survive the
attempt if the object is of another type. -/
def updateObjectAs (o : ObjectBinding) (t : NativeType) {α : Type} (f : Native → α × Native) :
    Effect (Except SymbolError (Except Mistyped α)) := do
  match ← o.object with
  | .error e => return .error e
  | .ok (id, n) =>
    if n.type = t then
      let (a, n) := f n
      Effect.putStore ((← Effect.store).setNative id n)
      return .ok (.ok a)
    else
      Effect.putStore ((← Effect.store).poisonObject id)
      return .ok (.error ⟨o.label, n.describe.name, t⟩)

end ObjectBinding

end ConfigTree
