import ConfigTree.Symbol.Object
import ConfigTree.Symbol.Scalar

/-!
# Copying values

A symbol takes over the value of another: a scalar its value, a function what it does, a scope the
values of the children of the same name, and an object those and then the content of the bound
object.  Nothing is ever added or removed.  A scope stops at the first child that fails and keeps
what was copied before; an object goes on, and only the copy of the bound object decides how it
ends.
-/

namespace ConfigTree

namespace Scope

/-! ## §1. Shapes. -/

/-- The first name in `s` that `other` does not have. -/
def firstMissing? (s other : Scope) : Option String :=
  s.names.find? fun name => !other.contains name

/-- A name that only one of two scopes has: the first in `dst` that `src` lacks, else the first in
`src` that `dst` lacks. -/
def difference? (dst src : Scope) : Option String :=
  (dst.firstMissing? src).or (src.firstMissing? dst)

/-- The `shapeMismatch` by which a difference of names is put to the author. -/
def shapeError (dst src : Scope) (entry : String) : SymbolError :=
  .shapeMismatch dst.info.label src.info.label entry

end Scope

mutual

/-- The first difference of names inside a symbol and a symbol of the same name, if both hold
symbols. -/
def Symbol.shapeMismatch? : Symbol → Symbol → Option SymbolError
  | .branch _ info policy cs, src =>
    src.scope?.bind fun src =>
      let dst : Scope := ⟨info, policy, cs⟩
      match dst.difference? src with
      | some entry => some (dst.shapeError src entry)
      | none => Symbol.shapeMismatchAll? cs src
  | _, _ => none

/-- The first difference of names inside symbols and the children of a scope of the same names. -/
def Symbol.shapeMismatchAll? : List Symbol → Scope → Option SymbolError
  | [], _ => none
  | c :: cs, src =>
    ((src.lookup? c.name).bind c.shapeMismatch?).or (Symbol.shapeMismatchAll? cs src)

end

namespace Scope

/-- The first difference of names between `dst` and `src`, from the outside in. -/
def shapeMismatch? (dst src : Scope) : Option SymbolError :=
  match dst.difference? src with
  | some entry => some (dst.shapeError src entry)
  | none => Symbol.shapeMismatchAll? dst.children src

/-- Copies the children of `src` into those of `dst` by `copyChildren`, unless the policy of `dst`
asks for a shape that `src` does not have. -/
def copyWith (dst src : Scope) (copyChildren : Effect (Attempt (List Symbol))) :
    Effect (Attempt (List Symbol)) := do
  match if dst.policy = .sameShape then dst.shapeMismatch? src else none with
  | some e => return ⟨dst.children, some (← Effect.report e)⟩
  | none =>
    Effect.emit (.copyingScope dst.info.label src.info.label dst.policy)
    copyChildren

end Scope

namespace ObjectBinding

/-! ## §2. Objects. -/

/-- The live handles of both sides of a copy and the `Descriptor` of the target, if the types
fit. -/
def copyParties (dst src : ObjectBinding) :
    Effect (Except SymbolError (Descriptor × Handle)) := do
  match ← dst.live with
  | .error e => return .error e
  | .ok d =>
    let dstType := (← Effect.store).describe d.id
    match ← src.live with
    | .error e => return .error e
    | .ok s =>
      let srcType := (← Effect.store).describe s.id
      if dstType.accepts srcType then return .ok (dstType, s)
      else
        let e := .incompatibleNativeType dst.label src.label dstType.name srcType.name
        return .error (← Effect.report e)

/-- Copies the object of `src`, behind the handle `s`, into that of `dst` as `dstType` demands. -/
def copyObject (dst src : ObjectBinding) (dstType : Descriptor) (s : Handle) :
    Effect (Option SymbolError) := do
  match ← dst.live with
  | .error e => return some e
  | .ok d =>
    if d.id = s.id then
      Effect.emit (.sameObject dst.label)
      return none
    else
      match (← Effect.store).copyObject dstType d.id s.id with
      | .error e => return some (← Effect.report (dst.accessError e))
      | .ok none =>
        Effect.emit (.copiedObject dst.label src.label dstType.strategy?.isSome false)
        return some (← Effect.report (.copyRejected dst.label src.label))
      | .ok (some store) =>
        Effect.putStore store
        Effect.emit (.copiedObject dst.label src.label dstType.strategy?.isSome true)
        return none

/-- Copies `src` into `dst`, the children by `copyChildren`.  That a child fails is recorded and
does not stop the copy of the object. -/
def copyWith (dst src : ObjectBinding) (copyChildren : Effect (Attempt (List Symbol))) :
    Effect (Attempt (List Symbol)) := do
  match ← dst.copyParties src with
  | .error e => return ⟨dst.scope.children, some e⟩
  | .ok (dstType, s) =>
    let portion ← dst.scope.copyWith src.scope copyChildren
    match portion.error? with
    | some e => Effect.emit (.partialCopy dst.label src.label e)
    | none => pure ()
    return ⟨portion.value, ← dst.copyObject src dstType s⟩

end ObjectBinding

/-! ## §3. Symbols. -/

/-- Reports that `src` is not of the kind `expected` that the target needs. -/
def Symbol.refuseSource (info : Info) (src : Symbol) (expected : Symbol.Kind) :
    Effect SymbolError :=
  Effect.report (.typeMismatch info.label src.info.label expected.article)

mutual

/-- The symbol after it takes over the value of another. -/
def Symbol.copyFrom : Symbol → Symbol → Effect (Attempt Symbol)
  | .scalar s, src => do
    Effect.emit (.copying s.info.label src.info.label)
    return (← s.copyFrom src).map .scalar
  | .function f, src => do
    Effect.emit (.copying f.info.label src.info.label)
    return (← f.copyFrom src).map .function
  | .branch .scope info policy cs, src => do
    Effect.emit (.copying info.label src.info.label)
    match src.scope? with
    | some from_ =>
      let copied ← Scope.copyWith ⟨info, policy, cs⟩ from_ (Symbol.copyChildren cs from_)
      return copied.map (.branch .scope info policy)
    | none =>
      return ⟨.branch .scope info policy cs, some (← Symbol.refuseSource info src .scope)⟩
  | .branch (.object handle?) info policy cs, src => do
    Effect.emit (.copying info.label src.info.label)
    match src.object? with
    | some from_ =>
      let dst : ObjectBinding := ⟨⟨info, policy, cs⟩, handle?⟩
      let copied ← dst.copyWith from_ (Symbol.copyChildren cs from_.scope)
      return copied.map (.branch (.object handle?) info policy)
    | none =>
      return ⟨.branch (.object handle?) info policy cs,
        some (← Symbol.refuseSource info src .object)⟩

/-- The children after they take over the values of the children of the same names, in order, up to
the first that fails. -/
def Symbol.copyChildren : List Symbol → Scope → Effect (Attempt (List Symbol))
  | [], _ => return ⟨[], none⟩
  | c :: cs, src =>
    match src.lookup? c.name with
    | none => do return (← Symbol.copyChildren cs src).map (c :: ·)
    | some x => do
      let copied ← c.copyFrom x
      match copied.error? with
      | some e => return ⟨copied.value :: cs, some e⟩
      | none => return (← Symbol.copyChildren cs src).map (copied.value :: ·)

end

/-- The scope `dst` after its children take over the values of those of `src`. -/
def Scope.copyFrom (dst src : Scope) : Effect (Attempt Scope) := do
  let copied ← dst.copyWith src (Symbol.copyChildren dst.children src)
  return copied.map fun cs => { dst with children := cs }

end ConfigTree
