import ConfigTree.Symbol.Register

/-!
# Modules

A module is an object of the host with settings: fields that the author of a configuration may
change.  Registering a module binds it into a scope without owning it and links each setting in
turn.  The settings are data, so registration is one function for every module;
`NativeType.settings?` says what the modules of this library show.
-/

namespace ConfigTree

/-! ## §1. Settings. -/

/-- A field that a module shows as a scalar. -/
structure Setting where
  /-- The name of the scalar. -/
  name : String
  /-- What the scalar is for. -/
  description : String
  /-- The field behind it. -/
  field : Field
  /-- What the field holds after registration. -/
  default : field.type.Raw

namespace NativeType

/-- The settings of an `EliteSelection`. -/
def eliteSettings : List Setting :=
  [⟨"target_pop", "Which population should we select parents from?",
      ⟨.elite, .popId, rfl⟩, Word.zero⟩,
    ⟨"top_count", "Number of top-fitness orgs to be replicated",
      ⟨.elite, .topCount, rfl⟩, Word.one⟩,
    ⟨"copy_count", "Number of copies to make of replicated organisms",
      ⟨.elite, .copyCount, rfl⟩, Word.one⟩,
    ⟨"fitness_trait", "Which trait provides the fitness value to use?",
      ⟨.elite, .fitnessTrait, rfl⟩, "fitness"⟩]

/-- The settings of a counter.  Two have one name, so the second of them is never accepted. -/
def counterSettings : List Setting :=
  [⟨"count", "first", ⟨.record .counter, .record (.int .int64), rfl⟩, ⟨5, by decide, by decide⟩⟩,
    ⟨"count", "second", ⟨.record .counter, .record (.int .uint32), rfl⟩, ⟨6, by decide, by decide⟩⟩,
    ⟨"flag", "never", ⟨.record .counter, .record .bool, rfl⟩, true⟩]

/-- The settings of a genome. -/
def genomeSettings : List Setting :=
  [⟨"length", "genome length",
      ⟨.record .genome, .record (.int .int64), rfl⟩, ⟨-1, by decide, by decide⟩⟩,
    ⟨"rate", "", ⟨.record .genome, .record .single, rfl⟩, .ofRatio false 1 4⟩]

/-- The settings of a `NativeType` whose objects are modules. -/
def settings? : NativeType → Option (List Setting)
  | elite => some eliteSettings
  | record .counter => some counterSettings
  | record .genome => some genomeSettings
  | _ => none

end NativeType

/-- The name and the description that an object registers under as a module, if it is one. -/
def Native.title? : Native → Option (String × String)
  | .elite m => some (m.name, m.description)
  | .record .counter r => some (r.id, "broken module")
  | .record .genome r => some (r.id, r.fields.string)
  | _ => none

/-! ## §2. Registration. -/

namespace ObjectBinding

/-- Links `Setting`s in turn, up to the first that fails; those before it stay. -/
def linkSettings (o : ObjectBinding) : List Setting → Effect (Attempt ObjectBinding)
  | [] => return ⟨o, none⟩
  | x :: rest => do
    match ← o.linkField x.name x.description x.field x.default with
    | .error e => return ⟨o, some e⟩
    | .ok o => o.linkSettings rest

end ObjectBinding

namespace Scope

/-- Binds the module `id` under its own name and links its `settings`.  Once it is bound it stays,
even if a setting fails. -/
def registerModule (s : Scope) (id : ObjectId) (t : NativeType) (settings : List Setting) :
    Effect (Attempt Scope) := do
  match (← Effect.store).read id with
  | .error e => return ⟨s, some (.access t.registeredName e)⟩
  | .ok n =>
    let (name, description) := n.title?.getD (t.registeredName, "")
    match ← s.receiveObject name description ⟨id, false⟩ with
    | .error e => return ⟨s, some e⟩
    | .ok o =>
      let linked ← o.linkSettings settings
      if linked.error?.isNone then
        Effect.emit (.moduleRegistered o.label t.registeredName linked.value.scope.children.length)
      return linked.map fun o => s.append (.ofObject o)

end Scope

end ConfigTree
