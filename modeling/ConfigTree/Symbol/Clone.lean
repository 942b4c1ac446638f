import ConfigTree.Symbol.Object
import ConfigTree.Symbol.Release

/-!
# Cloning and taking

A clone has the structure and the local values of what it is made from, and shares nothing that this
owns: owned objects are duplicated, and field links into a duplicated object are pointed at the
duplicate.  Borrowed objects stay borrowed.  If an owned object cannot be duplicated, all that was
built is dropped.
-/

namespace ConfigTree

/-- Duplicates the handle `h`; nothing comes out if the object cannot be duplicated. -/
def Handle.duplicate (h : Handle) : Effect (Except AccessError (Option Handle)) := do
  if h.owned then
    match (← Effect.store).read h.id with
    | .error e => return .error e
    | .ok n =>
      match n.duplicate with
      | .fresh copy =>
        let id ← Effect.create copy
        Effect.emit (.duplicatedOwned true)
        return .ok (some ⟨id, true⟩)
      | .unsupported | .unowned =>
        Effect.emit (.duplicatedOwned false)
        return .ok none
  else
    Effect.emit .duplicatedBorrowed
    return .ok (some h)

namespace ObjectBinding

/-- Duplicates the handle of `o`, if it has one. -/
def duplicateHandle (o : ObjectBinding) : Effect (Except SymbolError (Option Handle)) := do
  match o.handle? with
  | none => return .ok none
  | some h =>
    match ← h.duplicate with
    | .ok (some copy) => return .ok (some copy)
    | .ok none =>
      let typeName := ((← Effect.store).describe h.id).name
      return .error (← Effect.report (.cloneUnsupported o.label typeName))
    | .error e => return .error (← Effect.report (o.accessError e))

/-- The children `cs` of a clone: their links follow the object from `old?` to its duplicate
`copy?`. -/
def followLinks (old? copy? : Option Handle) (cs : List Symbol) : List Symbol :=
  match old?, copy? with
  | some old, some copy =>
    if old.id = copy.id then cs else Symbol.rebindAll old.id copy.id cs
  | _, _ => cs

/-- Clones `o`, its children by `cloneChildren`. -/
def cloneWith (o : ObjectBinding) (cloneChildren : Effect (Attempt (List Symbol))) :
    Effect (Except SymbolError Symbol) := do
  match ← o.duplicateHandle with
  | .error e => return .error e
  | .ok copy? =>
    let built ← cloneChildren
    let role : Role := .object copy?
    match built.error? with
    | some e =>
      Symbol.releaseAll built.value
      match role.owned? with
      | some id => Effect.destroy id
      | none => pure ()
      return .error e
    | none =>
      Effect.emit (.cloned o.label role.owned?.isSome)
      let children := followLinks o.handle? copy? built.value
      return .ok (.branch role o.scope.info o.scope.policy children)

/-- Moves the children and the handle of `o` into a new object symbol; what stays behind is empty
and unbound. -/
def take (o : ObjectBinding) : Effect (ObjectBinding × ObjectBinding) := do
  Effect.emit (.moved o.label o.owns)
  return (o, ⟨{ o.scope with children := [] }, none⟩)

end ObjectBinding

mutual

/-- Clones a symbol and all that it holds, or fails and drops what was cloned by then. -/
def Symbol.tryClone : Symbol → Effect (Except SymbolError Symbol)
  | .scalar s => return .ok (.scalar s)
  | .function f => return .ok (.function f)
  | .branch .scope info policy cs => do
    let built ← Symbol.cloneChildren cs
    match built.error? with
    | some e =>
      Symbol.releaseAll built.value
      return .error e
    | none => return .ok (.branch .scope info policy built.value)
  | .branch (.object handle?) info policy cs =>
    ObjectBinding.cloneWith ⟨⟨info, policy, cs⟩, handle?⟩ (Symbol.cloneChildren cs)

/-- Clones symbols in their order, up to the first that fails. -/
def Symbol.cloneChildren : List Symbol → Effect (Attempt (List Symbol))
  | [] => return ⟨[], none⟩
  | c :: cs => do
    match ← c.tryClone with
    | .error e => return ⟨[], some e⟩
    | .ok copy => return (← Symbol.cloneChildren cs).map (copy :: ·)

end

end ConfigTree
