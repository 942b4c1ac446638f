import ConfigTree.Module
import ConfigTree.Session.Operation
import ConfigTree.Session.Request
import ConfigTree.Symbol.Assign
import ConfigTree.Symbol.Clone
import ConfigTree.Symbol.Dump

/-!
# Requests on trees

What a session does with the symbols in its slots: it makes them, registers, moves, reads, assigns,
copies and clones them.  Each request finds everything it needs before it changes a tree.
-/

namespace ConfigTree.Request

/-! ## §1. Slots. -/

/-- An `Info` for a symbol that is not in a tree yet. -/
def detached (name description : String) : Info := ⟨name, description, none⟩

/-- A `Handle` on an object of the given `Origin`. -/
def handle : Origin → Request Handle
  | .own n => do return ⟨← perform (Effect.create n), true⟩
  | .host name => do return ⟨← host name, false⟩
  | .boundAt p => do
    let h ← require (← object p).handle? .handle
    return { h with owned := false }

/-- Lets go of the handle `h` that found no symbol. -/
def discard (h : Handle) : Request Unit := do
  if h.owned then perform (Effect.destroy h.id)

/-- Puts a scalar on the cell `cellName` into a slot. -/
def newLinked (slot name description cellName : String) : Request Unit := do
  let id ← cell cellName
  fill slot (.scalar ⟨detached name description, .linked (.cell id)⟩)

/-- Puts an object symbol into a slot, bound as `origin?` says. -/
def newObject (slot name description : String) (origin? : Option Origin) : Request Unit := do
  let handle? ← origin?.mapM handle
  fill slot (.ofObject ⟨⟨detached name description, .matchingNames, []⟩, handle?⟩)

/-- Drops what is in the slot `name`. -/
def dropSlot (name : String) : Request Unit := do
  let x ← slot name
  modify fun s => { s with slots := s.slots.erase name }
  perform x.release

/-! ## §2. Registration. -/

/-- The scope at `p`; if there is none, `undo` is done. -/
def scopeOr (p : Place) (undo : Request Unit) : Request Scope :=
  tryCatch (scope p) fun e => do
    undo
    throw e

/-- Registers an object symbol at `p`.  The object is there before the scope is looked for. -/
def addObject (p : Place) (name description : String) (origin? : Option Origin) :
    Request String := do
  match ← origin?.mapM handle with
  | none => register p (·.addUnbound name description)
  | some h =>
    let _ ← scopeOr p (discard h)
    register p (·.addObject name description h)

/-- Registers a scalar on the cell `cellName` at `p`. -/
def linkCell (p : Place) (name description cellName : String) (default : Literal) :
    Request String := do
  let (id, c) ← content cellName
  match c.type.parse? default with
  | some x => register p (·.linkCell name description id c.type x)
  | none => throw (.senseless .literal)

/-- Registers a scalar on the field `f` of the object bound at `p`. -/
def linkField (p : Place) (name description : String) (f : Field) (default : f.type.Raw) :
    Request Unit := do
  let o ← object p
  put p (.ofObject (← accept (← perform (o.linkField name description f default))))

/-- Links `settings` to the object symbol at `p`. -/
def setupConfig (p : Place) (settings : List Setting) : Request Unit := do
  let out ← perform ((← object p).linkSettings settings)
  put p (.ofObject out.value)
  accept out.result

/-- Registers the object that the host calls `hostName` as a module at `p`. -/
def registerModule (hostName : String) (p : Place) : Request String := do
  let (id, r) ← resident hostName
  match r.native.type.settings? with
  | none => throw (.senseless .host)
  | some settings =>
    let out ← perform ((← scope p).registerModule id r.native.type settings)
    putScope p out.value
    accept out.result
    return newestLabel out.value

/-- Moves the symbol in the slot `source` into the scope at `p`.  The slot is empty while the scope
is looked for. -/
def insert (source : String) (p : Place) : Request String := do
  let x ← slot source
  modify fun s => { s with slots := s.slots.erase source }
  let _ ← scopeOr p (modify fun s => { s with slots := s.slots.insert source x })
  register p (·.insert x)

/-- Moves the child `name` of the scope at `p` into the slot `into?`, or drops it. -/
def remove (p : Place) (name : String) (into? : Option String) : Request (Option Found) := do
  match ← perform ((← scope p).remove name) with
  | none => return none
  | some (x, rest) =>
    putScope p rest
    match into? with
    | some slot => fill slot x
    | none => perform x.release
    return some x.found

/-- Changes how the scope at `p` is copied into. -/
def setPolicy (p : Place) (policy : CopyPolicy) : Request Unit := do
  putScope p { ← scope p with policy := policy }

/-! ## §3. Looking around. -/

/-- What is told of the scope at `p`. -/
def listing (p : Place) : Request Listing := do
  let s ← scope p
  return ⟨s.names, s.info.path.display, s.info.description⟩

/-- What is told of the object symbol at `p`. -/
def binding (p : Place) : Request BindingReport := do
  let o ← object p
  let s ← store
  return ⟨o.owns, o.isBound s, (o.describe s).dump, o.handle?.map (Handle.dump s)⟩

/-- Whether the object symbols at `a` and `b` have one object. -/
def sameObject (a b : Place) : Request Bool := do
  let x ← require (← object a).handle? .handle
  let y ← require (← object b).handle? .handle
  return x.id = y.id

/-! ## §4. Assigning, copying, cloning. -/

/-- Assigns the symbol at `source` below `p` to that at `target`. -/
def assign (p : Place) (target source : Path) : Request Unit := do
  change p (← branch p) (·.assign target source)

/-- Assigns the value `v` to the symbol at `target` below `p`. -/
def assignValue (p : Place) (target : Path) (v : Value) : Request Unit := do
  change p (← branch p) (·.assignValue target v)

/-- Writes `v` to the scalar at `p`. -/
def set (p : Place) (v : Value) : Request Unit := do
  let out ← perform ((← scalar p).set v)
  put p (.scalar out.value)
  accept out.result

/-- Refuses to copy between `dst` and `src` within one slot. -/
def ensureApart (dst src : Place) : Request Unit := do
  if dst.slot = src.slot then throw (.senseless .sameSlot)

/-- Copies the value of the symbol at `src` into that at `dst` of another slot. -/
def copy (dst src : Place) : Request Unit := do
  ensureApart dst src
  let x ← symbol dst
  let y ← symbol src
  change dst x (·.copyFrom y)

/-- Copies the children of the scope at `src` into those of the scope at `dst` of another slot. -/
def copyScope (dst src : Place) : Request Unit := do
  ensureApart dst src
  let x ← symbol dst
  let y ← symbol src
  let a ← require x.scope? .scope
  let b ← require y.scope? .scope
  change dst x fun x => do return (← a.copyFrom b).map x.withScope

/-- Clones the symbol at `p` into the slot `into`. -/
def clone (p : Place) (into : String) : Request Unit := do
  fill into (← accept (← perform (← symbol p).tryClone))

/-- Moves the content of the object symbol at `p` into the slot `into`. -/
def take (p : Place) (into : String) : Request Unit := do
  let (taken, emptied) ← perform (← object p).take
  put p (.ofObject emptied)
  fill into (.ofObject taken)

end ConfigTree.Request
