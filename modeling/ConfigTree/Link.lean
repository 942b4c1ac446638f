import ConfigTree.Store

/-!
# Links

A linked scalar keeps its value outside the tree: in a shared cell, or in a field of a native
object.  A link names its target and never keeps an object alive.  Writing converts first, so a
value that does not fit is reported as such whatever the state of the target.
-/

namespace ConfigTree

/-- Where a linked scalar keeps its value. -/
inductive Link where
  /-- In a shared cell. -/
  | cell (id : CellId)
  /-- In a field of an object. -/
  | field (target : ObjectId) (field : Field)
deriving DecidableEq, Repr

/-- The content of the field `f` in `n`, if `n` is of the type `f.owner`. -/
def Native.project? (n : Native) (f : Field) : Option f.type.Raw :=
  if n.type = f.owner then n.get? f.name else none

/-- The object `n` after `x` is written to its field `f`, if `n` is of the type `f.owner`. -/
def Native.embed? (n : Native) (f : Field) (x : f.type.Raw) : Option Native :=
  if n.type = f.owner then n.set? f.name x else none

namespace Link

/-- The kind of value that the target shows in the store `s`. -/
def kind (s : Store) : Link → Value.Kind
  | cell id => match s.cell? id with
    | some c => c.type.kind
    | none => .string
  | field _ f => f.type.kind

/-- Why the field `f` cannot be used in `n`, which is of another type than `f.owner`. -/
def mismatch (f : Field) (n : Native) : AccessError :=
  .typeMismatch f.owner.registeredName n.describe.name

/-- The value that the target holds in the store `s`. -/
def read (s : Store) : Link → Except AccessError Value
  | cell id => match s.cell? id with
    | none => .error .dangling
    | some c => if c.poisoned then .error .lockFailed else c.type.read c.content
  | field target f => do
    let n ← s.read target
    match n.project? f with
    | some x => f.type.read x
    | none => .error (mismatch f n)

/-- The store `s` after `v` is written to the target.  The value is converted first. -/
def write (s : Store) (v : Value) : Link → Except AccessError Store
  | cell id => match s.cell? id with
    | none => .error .dangling
    | some c => do
      let x ← c.type.accept v
      if c.poisoned then .error .lockFailed else .ok (s.setCell id { c with content := x })
  | field target f => do
    let x ← f.type.accept v
    let n ← s.read target
    match n.embed? f x with
    | some m => .ok (s.setNative target m)
    | none => .error (mismatch f n)

/-- The link `l`, pointed at `new` if it points at `old`. -/
def rebind (l : Link) (old new : ObjectId) : Link :=
  match l with
  | cell id => .cell id
  | field target f => .field (if target = old then new else target) f

end Link

end ConfigTree
