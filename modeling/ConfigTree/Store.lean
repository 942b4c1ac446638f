import ConfigTree.Native.Basic

/-!
# The store

Everything that lives outside the trees: native objects and shared cells, each behind a lock that
can be poisoned.  Objects and cells are named by identities that are never used again, so an
identity whose object is gone stays recognisably dangling.  A cell stays as long as the store, since
a link to it keeps it alive.
-/

namespace ConfigTree

/-- The identity of a native object. -/
structure ObjectId where
  /-- Its place in the store. -/
  index : Nat
deriving DecidableEq, Repr

/-- The identity of a shared cell. -/
structure CellId where
  /-- Its place in the store. -/
  index : Nat
deriving DecidableEq, Repr

/-- An object that is alive, behind its lock. -/
structure Resident where
  /-- The object. -/
  native : Native
  /-- Whether the lock is poisoned. -/
  poisoned : Bool := false
deriving DecidableEq, Repr

/-- A shared cell, behind its lock. -/
structure Cell where
  /-- The type of the cell. -/
  type : StorageType
  /-- What it holds. -/
  content : type.Raw
  /-- Whether the lock is poisoned. -/
  poisoned : Bool := false
deriving DecidableEq

/-- The objects and cells outside the trees. -/
structure Store where
  /-- The objects by identity; nothing where one was destroyed. -/
  objects : Array (Option Resident) := #[]
  /-- The cells by identity. -/
  cells : Array Cell := #[]
deriving DecidableEq

namespace Store

/-! ## §1. Objects. -/

/-- The object `id`, if it is alive. -/
def object? (s : Store) (id : ObjectId) : Option Resident :=
  s.objects[id.index]?.join

/-- Whether the object `id` is alive. -/
def isLive (s : Store) (id : ObjectId) : Bool := (s.object? id).isSome

/-- The object `id`, read through its lock. -/
def read (s : Store) (id : ObjectId) : Except AccessError Native :=
  match s.object? id with
  | none => .error .dangling
  | some r => if r.poisoned then .error .lockFailed else .ok r.native

/-- What the object `id` says of its type; through a failing lock that is `void`. -/
def describe (s : Store) (id : ObjectId) : Descriptor :=
  match s.read id with
  | .ok n => n.describe
  | .error _ => .void

/-- The identity of the next object.  It has not been used before. -/
def nextObject (s : Store) : ObjectId := ⟨s.objects.size⟩

/-- The store `s` with the object `n` under the identity `s.nextObject`. -/
def addObject (s : Store) (n : Native) : Store :=
  { s with objects := s.objects.push (some ⟨n, false⟩) }

/-- The store `s` after `f` is applied to what is kept of the object `id`. -/
def modifyObject (s : Store) (id : ObjectId) (f : Resident → Option Resident) : Store :=
  { s with objects := s.objects.modify id.index (·.bind f) }

/-- The store `s` after the content of the object `id` becomes `n`. -/
def setNative (s : Store) (id : ObjectId) (n : Native) : Store :=
  s.modifyObject id fun r => some { r with native := n }

/-- The store `s` after the lock of the object `id` is poisoned. -/
def poisonObject (s : Store) (id : ObjectId) : Store :=
  s.modifyObject id fun r => some { r with poisoned := true }

/-- The store `s` after the object `id` is destroyed. -/
def removeObject (s : Store) (id : ObjectId) : Store :=
  s.modifyObject id fun _ => none

/-- The store `s` after the object `src` is copied into the object `dst` as the descriptor `d` of
`dst` demands; `none` if the copy is refused. -/
def copyObject (s : Store) (d : Descriptor) (dst src : ObjectId) :
    Except AccessError (Option Store) := do
  let a ← s.read dst
  let b ← s.read src
  pure ((Native.copyAs? d a b).map (s.setNative dst))

/-! ## §2. Cells. -/

/-- The cell `id`. -/
def cell? (s : Store) (id : CellId) : Option Cell := s.cells[id.index]?

/-- The identity of the next cell. -/
def nextCell (s : Store) : CellId := ⟨s.cells.size⟩

/-- The store `s` with the cell `c` under the identity `s.nextCell`. -/
def addCell (s : Store) (c : Cell) : Store := { s with cells := s.cells.push c }

/-- The store `s` after the cell `id` becomes `c`. -/
def setCell (s : Store) (id : CellId) (c : Cell) : Store :=
  { s with cells := s.cells.setIfInBounds id.index c }

/-! ## §3. Small laws. -/

theorem object?_modifyObject (s : Store) (id other : ObjectId) (f : Resident → Option Resident) :
    (s.modifyObject id f).object? other =
      if other = id then (s.object? other).bind f else s.object? other := by
  have hidx : id.index = other.index ↔ other = id := by
    cases id; cases other; simp [eq_comm]
  simp only [object?, modifyObject, Array.getElem?_modify, hidx]
  split
  · cases s.objects[other.index]? <;> rfl
  · rfl

@[simp] theorem object?_addObject_next (s : Store) (n : Native) :
    (s.addObject n).object? s.nextObject = some ⟨n, false⟩ := by
  simp [object?, addObject, nextObject]

theorem object?_addObject_of_ne (s : Store) (n : Native) {id : ObjectId} (h : id ≠ s.nextObject) :
    (s.addObject n).object? id = s.object? id := by
  have : id.index ≠ s.objects.size := fun e => h (by cases id; simp_all [nextObject])
  simp only [object?, addObject, Array.getElem?_push, if_neg this]

end Store

end ConfigTree
