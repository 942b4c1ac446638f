import ConfigTree.Session.Operation
import ConfigTree.Session.Request

/-!
# Requests on objects and cells

What a host does with its own objects and cells, and with the objects that are bound in a tree, once
it has found them.  Everything stored goes through its lock, and a poisoned lock stops it.
-/

namespace ConfigTree

/-- The object `n` after the literal `x` is written to a field, or the `Fault` of the request. -/
def Native.writeLiteral (n : Native) (field? : Option FieldName) (x : Literal) :
    Except Fault Native := do
  let some f := field? | .error .field
  if n.type.hasField f then
    let some raw := f.type.parse? x | .error .literal
    match n.set? f raw with
    | some m => .ok m
    | none => .error .field
  else .error .field

namespace Request

/-- The object `n` after the literal `x` is written to a field; it stays as it is if the request
makes no sense. -/
def writing (field? : Option FieldName) (x : Literal) (n : Native) : Except Fault Unit × Native :=
  match n.writeLiteral field? x with
  | .ok m => (.ok (), m)
  | .error e => (.error e, n)

/-- The outcome `r` of a request that may have made no sense. -/
def acceptSense {α : Type} (r : Except Fault α) : Request α :=
  match r with
  | .ok a => return a
  | .error e => throw (.senseless e)

/-- The outcome `r` of an access to an object of the host. -/
def acceptAccess {α : Type} (r : Except AccessError α) : Request α :=
  match r with
  | .ok a => return a
  | .error e => throw (.access e)

/-! ## §1. Bound objects. -/

/-- Reads the object bound at `p` as one of type `t`. -/
def nativeGet (p : Place) (t : NativeType) : Request Native := do
  acceptTyped (← perform ((← object p).objectAs t))

/-- Writes a field of the object bound at `p` as one of type `t`. -/
def nativeSet (p : Place) (t : NativeType) (field? : Option FieldName) (x : Literal) :
    Request Unit := do
  acceptSense (← acceptTyped (← perform ((← object p).updateObjectAs t (writing field? x))))

/-- Writes a field of the object bound at `p`. -/
def objectSet (p : Place) (field? : Option FieldName) (x : Literal) : Request Unit := do
  acceptSense (← accept (← perform ((← object p).updateObject (writing field? x))))

/-- The value of the variable `name` of an organism, and the organism with `v` for it. -/
def settingVar (name : String) (v : Value) : Native → Option Value × Native
  | .organism o => (o.var? name, .organism (o.setVar name v))
  | n => (none, n)

/-- Sets the variable `name` of the organism bound at `p`; the answer is the value before. -/
def setVar (p : Place) (name : String) (v : Value) : Request (Option Value) := do
  acceptTyped (← perform ((← object p).updateObjectAs .organism (settingVar name v)))

/-- Reads the variable `name` of the organism bound at `p`. -/
def getVar (p : Place) (name : String) : Request (Option Value) := do
  match ← nativeGet p .organism with
  | .organism o => return o.var? name
  | _ => return none

/-! ## §2. Objects of the host. -/

/-- Makes the object `n` of the host; one of the same name is destroyed. -/
def newHost (name : String) (n : Native) : Request Unit := do
  let old? := (← get).hosts.get? name
  let id ← perform (Effect.create n)
  modify fun s => { s with hosts := s.hosts.insert name id }
  match old? with
  | some old => perform (Effect.destroy old)
  | none => return

/-- Destroys the object that the host calls `name`. -/
def dropHost (name : String) : Request Unit := do
  let id ← host name
  modify fun s => { s with hosts := s.hosts.erase name }
  perform (Effect.destroy id)

/-- Writes a field of the object that the host calls `name`. -/
def hostSet (name : String) (field? : Option FieldName) (x : Literal) : Request Unit := do
  let (id, r) ← resident name
  if r.poisoned then throw (.missing .lock)
  let n ← acceptSense (r.native.writeLiteral field? x)
  perform (Effect.putStore ((← store).setNative id n))

/-- Poisons the lock of the object that the host calls `name`. -/
def poisonHost (name : String) : Request Unit := do
  let id ← host name
  perform (Effect.putStore ((← store).poisonObject id))

/-- Copies the object `source` of the host into `name`; nothing is answered where a `custom`
strategy is asked for and the object has none. -/
def hostCopy (name source : String) (custom : Bool) : Request (Option Bool) := do
  let dst ← host name
  let src ← host source
  let s ← store
  let a ← acceptAccess (s.read dst)
  let b ← acceptAccess (s.read src)
  if custom then
    match a.describe.strategy? with
    | none => return none
    | some strategy => replace dst (a.copyCustom? strategy b)
  else replace dst (a.copyDefault? b)
where
  -- puts a copy in place and says whether there is one
  replace (id : ObjectId) : Option Native → Request (Option Bool)
    | none => return some false
    | some n => do
      perform (Effect.putStore ((← store).setNative id n))
      return some true

/-! ## §3. Cells of the host. -/

/-- Makes a cell of the host, of type `t` and with the content `x`. -/
def newCell (name : String) (t : StorageType) (x : t.Raw) : Request Unit := do
  let s ← store
  perform (Effect.putStore (s.addCell ⟨t, x, false⟩))
  modify fun session => { session with cells := session.cells.insert name s.nextCell }

/-- Lets go of the cell `name`; scalars on it keep it. -/
def dropCell (name : String) : Request Unit := do
  let _ ← cell name
  modify fun s => { s with cells := s.cells.erase name }

/-- Writes the literal `x` to the cell `name`. -/
def cellSet (name : String) (x : Literal) : Request Unit := do
  let (id, c) ← content name
  if c.poisoned then throw (.missing .lock)
  match c.type.parse? x with
  | some raw => perform (Effect.putStore ((← store).setCell id { c with content := raw }))
  | none => throw (.senseless .literal)

/-- Poisons the lock of the cell `name`. -/
def poisonCell (name : String) : Request Unit := do
  let (id, c) ← content name
  perform (Effect.putStore ((← store).setCell id { c with poisoned := true }))

end Request

end ConfigTree
