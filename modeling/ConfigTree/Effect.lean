import ConfigTree.Event
import ConfigTree.Link

/-!
# Effects

Operations on trees also change what surrounds the trees: the store, the record of events, and the
list of destroyed objects.  An `Effect α` computes an `α` and changes the surroundings on the way.
An operation that may stop on the way leaves an `Attempt`: what there is by then, and the error.
-/

namespace ConfigTree

/-! ## §1. Surroundings. -/

/-- An object `id` that was destroyed, with its last content. -/
structure Destruction where
  /-- Which object it was. -/
  id : ObjectId
  /-- Its last content. -/
  native : Native
deriving DecidableEq, Repr

/-- All that an operation can change besides the tree it works on. -/
structure Surroundings where
  /-- Objects and cells. -/
  store : Store := {}
  /-- What happened, in order. -/
  events : Array Event := #[]
  /-- Which objects were destroyed, in order. -/
  destroyed : Array Destruction := #[]
deriving DecidableEq

namespace Surroundings

/-- The surroundings after the event `e`. -/
def emit (w : Surroundings) (e : Event) : Surroundings := { w with events := w.events.push e }

/-- The surroundings with `s` for a `store`. -/
def withStore (w : Surroundings) (s : Store) : Surroundings := { w with store := s }

/-- The surroundings after the object `id` is destroyed; one that is gone is not destroyed again. -/
def destroy (w : Surroundings) (id : ObjectId) : Surroundings :=
  match w.store.object? id with
  | none => w
  | some r =>
    { w with store := w.store.removeObject id, destroyed := w.destroyed.push ⟨id, r.native⟩ }

end Surroundings

/-! ## §2. Effects. -/

/-- A computation of an `α` that changes the `Surroundings`. -/
abbrev Effect := StateM Surroundings

namespace Effect

/-- The `store` of the `Surroundings` as it is. -/
def store : Effect Store := do return (← get).store

/-- Puts the store `s` in place. -/
def putStore (s : Store) : Effect Unit := modify (·.withStore s)

/-- Records the event `e`. -/
def emit (e : Event) : Effect Unit := modify (·.emit e)

/-- Reports the error `e` at the point where it arises, and hands it on. -/
def report (e : SymbolError) : Effect SymbolError := do
  emit (.reported e)
  return e

/-- Destroys the object `id`. -/
def destroy (id : ObjectId) : Effect Unit := modify (·.destroy id)

/-- Brings the object `n` to life under the next `ObjectId`. -/
def create (n : Native) : Effect ObjectId := do
  let s ← store
  putStore (s.addObject n)
  return s.nextObject

end Effect

/-- What is left of an `α` after an operation that may stop on the way, and the error that stopped
it. -/
structure Attempt (α : Type) where
  /-- What is left. -/
  value : α
  /-- Why the operation stopped, if it did not reach its end. -/
  error? : Option SymbolError := none

namespace Attempt

variable {α β : Type}

/-- The same outcome with what is left seen through `f`. -/
def map (f : α → β) (a : Attempt α) : Attempt β := ⟨f a.value, a.error?⟩

/-- The outcome `a` without what is left. -/
def result (a : Attempt α) : Except SymbolError Unit :=
  match a.error? with
  | some e => .error e
  | none => .ok ()

end Attempt

end ConfigTree
