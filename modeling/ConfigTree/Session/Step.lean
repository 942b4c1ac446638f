import ConfigTree.Session.Hosts
import ConfigTree.Session.Trees

/-!
# Steps of a session

`Request.answer` says what each operation does, `Session.step` does one and reports what came of it,
and `Session.close` tears a session down: its slots, then its objects, each in the order of their
names.
-/

namespace ConfigTree

namespace Request

/-- Does `r` and answers that it is done. -/
def done (r : Request Unit) : Request Answer := do
  r
  return .done

/-- What an `Operation` does and answers. -/
def answer : Operation → Request Answer
  | .newScope slot name description policy =>
    done (fill slot (.ofScope ⟨detached name description, policy, []⟩))
  | .newScalar slot name description v =>
    done (fill slot (.scalar ⟨detached name description, .value v⟩))
  | .newLinked slot name description cell => done (newLinked slot name description cell)
  | .newFunction slot name description c arity? =>
    done (fill slot (.function ⟨detached name description, c, arity?⟩))
  | .newObject slot name description origin? => done (newObject slot name description origin?)
  | .dropSlot slot => done (dropSlot slot)
  | .addScope p name description => .text <$> register p (·.addScope name description)
  | .addScalar p name description v => .text <$> register p (·.addScalar name description v)
  | .addFunction p name description c arity? =>
    .text <$> register p (·.addFunction name description c arity?)
  | .addObject p name description origin? => .text <$> addObject p name description origin?
  | .linkCell p name description cell default =>
    .text <$> linkCell p name description cell default
  | .linkField p name description f default => done (linkField p name description f default)
  | .insert source p => .text <$> insert source p
  | .remove p name into? => .found <$> remove p name into?
  | .setPolicy p policy => done (setPolicy p policy)
  | .lookup p name => do
    let s ← scope p
    return .child ((s.lookup? name).map Symbol.found) (s.contains name)
  | .resolve p path => do
    let x ← branch p
    return .resolved ((x.resolve? path).map Symbol.found) ((x.scopeAt? path).map (·.info.label))
  | .lexical p start name => do
    return .found (((← branch p).lexical? start name).map Symbol.found)
  | .names p => .listing <$> listing p
  | .get p => do return .value (some (← accept (← perform (← scalar p).value)))
  | .kindOf p => do return .kind (← symbol p).kind
  | .dump p => do return .text ((← symbol p).dump (← store))
  | .assign p target source => done (assign p target source)
  | .assignValue p target v => done (assignValue p target v)
  | .set p v => done (set p v)
  | .copy dst src => done (copy dst src)
  | .copyScope dst src => done (copyScope dst src)
  | .clone p into => done (clone p into)
  | .take p into => done (take p into)
  | .call p args => do return .value (some (← accept (← perform ((← function p).call args))))
  | .nativeGet p t => .native <$> nativeGet p t
  | .nativeSet p t field? x => done (nativeSet p t field? x)
  | .objectSet p field? x => done (objectSet p field? x)
  | .setVar p name v => .value <$> setVar p name v
  | .getVar p name => .value <$> getVar p name
  | .describe p => .binding <$> binding p
  | .sameObject a b => .flag <$> sameObject a b
  | .newHost name n => done (newHost name n)
  | .dropHost name => done (dropHost name)
  | .hostSet name field? x => done (hostSet name field? x)
  | .poisonHost name => done (poisonHost name)
  | .hostCopy name source custom => .optionalFlag <$> hostCopy name source custom
  | .newCell name t x => done (newCell name t x)
  | .dropCell name => done (dropCell name)
  | .cellSet name x => done (cellSet name x)
  | .poisonCell name => done (poisonCell name)
  | .registerModule name p => .text <$> registerModule name p
  | .setupConfig p t => done (setupConfig p (t.settings?.getD []))

end Request

namespace Session

/-- What a host is told of a step. -/
structure Report where
  /-- The answer, or why there is none. -/
  result : Except Failure Answer
  /-- What the host calls the watched objects that were destroyed, in order. -/
  destroyed : List String
  /-- What happened, in order. -/
  events : List Event

/-- Handles the request `r` and reports what came of it. -/
def handle (s : Session) (r : Request Answer) : Report × Session :=
  let quiet := { s.surroundings with events := #[], destroyed := #[] }
  let (result, s) := (r.run { s with surroundings := quiet }).run
  let destroyed := s.surroundings.destroyed.toList.filterMap (·.native.watchedId?)
  (⟨result, destroyed, s.surroundings.events.toList⟩, s)

/-- Does the operation `op`. -/
def step (s : Session) (op : Operation) : Report × Session := s.handle (Request.answer op)

/-- Drops the symbols and destroys the objects of a session, and lets go of its cells. -/
def teardown : Request Unit := do
  Request.perform ((← get).slots.values.forM Symbol.release)
  Request.perform ((← get).hosts.values.forM Effect.destroy)
  modify fun s => { s with slots := .empty, hosts := .empty, cells := .empty }

/-- Tears the session `s` down. -/
def close (s : Session) : Report × Session :=
  s.handle (do teardown; return .done)

end Session

end ConfigTree
