import ConfigTree.Proofs.StoreDifferences
import ConfigTree.Proofs.ScopeOffers

/-!
# The settings of modules

Registering a module binds it into a scope and links its settings in turn.  Each link writes a
default into the module before its scalar enters the object symbol, and the first that fails ends
the registration; what was bound, linked and written by then stays.  Which settings are linked is
settled by their names, their defaults and the type of the module: nothing that is written on the
way has a say in it.

Main results:
  * `Setting.refusal?` — why a setting cannot be linked;
  * `ObjectBinding.run_linkField_setting` — what linking one setting does;
  * `Native.Configured.cons`, `Setting.Splits.cons` — what one more setting in front adds;
  * `Native.Configured.unique` — the settings that were linked settle what becomes of the module;
  * `ObjectBinding.run_linkSettings` — what linking settings in turn does;
  * `Scope.registerModule_outcome` — what registering a module does.
-/

namespace ConfigTree

open Surroundings (Written)

/-! ## §1. What settings make of a module. -/

namespace Native

variable {n m n' : Native}

theorem type_bare (n : Native) : n.bare.type = n.type := rfl

/-- **An object is what its type's fields show by `project?` and what no field shows, `bare`.** -/
theorem eq_of_projections (hbare : m.bare = n.bare) (hfields : ∀ f, m.project? f = n.project? f) :
    m = n := by
  have htype : m.type = n.type := by rw [← type_bare m, hbare, type_bare]
  refine eq_of_bare hbare fun f => ?_
  cases hf : n.type.hasField f with
  | true =>
    have hshown := hfields ⟨n.type, f, hf⟩
    rwa [project?, project?, if_pos htype, if_pos rfl] at hshown
  | false =>
    have hm := m.isSome_get? f
    have hn := n.isSome_get? f
    rw [htype, hf, Option.isSome_eq_false_iff, Option.isNone_iff_eq_none] at hm
    rw [hf, Option.isSome_eq_false_iff, Option.isNone_iff_eq_none] at hn
    rw [hm, hn]

/-- The second object, `n'`, is the first, `n`, after the settings `linked` were linked to it in
turn. -/
structure Configured (n : Native) (linked : List Setting) (n' : Native) : Prop where
  /-- A field holds the default of the last setting `x` that names it, `settled`. -/
  last : ∀ before x after, linked = before ++ x :: after → (∀ y ∈ after, y.field ≠ x.field) →
    n'.project? x.field = some (x.field.type.settled x.default)
  /-- A field `f` that no setting names holds what it held. -/
  other : ∀ f : Field, (∀ x ∈ linked, x.field ≠ f) → n'.project? f = n.project? f
  /-- What no field shows, `bare`, is as it was. -/
  rest : n'.bare = n.bare

theorem Configured.refl (n : Native) : n.Configured [] n :=
  ⟨fun before x after h => by simp at h, fun _ _ => rfl, rfl⟩

/-- **One more setting `x` in front** writes its default first. -/
theorem Configured.cons {x : Setting} {linked : List Setting} (htype : n.type = x.field.owner)
    (hset : n.set? x.field.name (x.field.type.settled x.default) = some m)
    (h : m.Configured linked n') : n.Configured (x :: linked) n' := by
  have hm : m.type = x.field.owner := (type_set? hset).trans htype
  refine ⟨?_, fun f hf => ?_, h.rest.trans (bare_set? hset)⟩
  · intro before y after hsplit hafter
    cases before with
    | cons z before =>
      obtain ⟨-, hsplit⟩ := List.cons.inj hsplit
      exact h.last before y after hsplit hafter
    | nil =>
      -- no later setting names the field, so its default stays
      obtain ⟨rfl, rfl⟩ := List.cons.inj hsplit
      rw [h.other x.field hafter, project?, if_pos hm, get?_set? hset]
  · rw [h.other f fun y hy => hf y (List.mem_cons_of_mem _ hy)]
    unfold project?
    rw [hm, htype]
    by_cases howner : x.field.owner = f.owner
    · rw [if_pos howner, if_pos howner]
      refine get?_set?_of_ne hset fun hname => hf x List.mem_cons_self ?_
      obtain ⟨_, _, _⟩ := f
      obtain ⟨_, _, ⟨_, _, _⟩, _⟩ := x
      cases hname
      cases howner
      rfl
    · rw [if_neg howner, if_neg howner]

/-- Of the settings in `linked` that name the field `f`, one is the last. -/
theorem exists_last {f : Field} {linked : List Setting} (h : ∃ x ∈ linked, x.field = f) :
    ∃ before x after, linked = before ++ x :: after ∧ x.field = f ∧ ∀ y ∈ after, y.field ≠ f := by
  induction linked with
  | nil =>
    obtain ⟨x, hx, -⟩ := h
    cases hx
  | cons z linked ih =>
    by_cases hlater : ∃ x ∈ linked, x.field = f
    · obtain ⟨before, x, after, rfl, hx, hafter⟩ := ih hlater
      exact ⟨z :: before, x, after, rfl, hx, hafter⟩
    · obtain ⟨x, hx, hxf⟩ := h
      rcases List.mem_cons.1 hx with rfl | hx
      · exact ⟨[], x, linked, rfl, hxf, fun y hy hyf => hlater ⟨y, hy, hyf⟩⟩
      · exact absurd ⟨x, hx, hxf⟩ hlater

/-- **The settings that were linked settle what the object is**: `Configured` has one outcome. -/
theorem Configured.unique {linked : List Setting} (h : n.Configured linked n')
    (k : n.Configured linked m) : n' = m := by
  refine eq_of_projections (h.rest.trans k.rest.symm) fun f => ?_
  by_cases hf : ∃ x ∈ linked, x.field = f
  · obtain ⟨before, x, after, hsplit, rfl, hafter⟩ := exists_last hf
    rw [h.last before x after hsplit hafter, k.last before x after hsplit hafter]
  · have hnone : ∀ x ∈ linked, x.field ≠ f := fun x hx hxf => hf ⟨x, hx, hxf⟩
    rw [h.other f hnone, k.other f hnone]

end Native

/-! ## §2. Which settings are linked. -/

/-- Why a new child of a scope cannot have the given `name`: no path can spell it, or it is
`taken`. -/
def Info.nameRefusal? (scope : Info) (taken : List String) (name : String) : Option SymbolError :=
  if name = "" ∨ '.' ∈ name.toList then some (.invalidName scope.label name)
  else if name ∈ taken then some (.nameCollision scope.label name)
  else none

theorem Scope.refusal?_eq_nameRefusal? (c : Scope) (name : String) :
    c.refusal? name = c.info.nameRefusal? c.names name := by
  rw [refusal?_eq, Info.nameRefusal?]
  simp only [names, List.mem_map]

namespace Setting

variable {x : Setting} {binding : Info} {taken : List String} {t : NativeType}

/-- Why the default of the setting `x` cannot be written to an object of type `t`: it is no value,
or the field is one of another type. -/
def defaultRefusal? (x : Setting) (t : NativeType) : Option AccessError :=
  match x.field.type.toValue? x.default with
  | none => some (.conversion (x.field.type.dump x.default) x.field.type.kind)
  | some _ =>
    if t = x.field.owner then none
    else some (.typeMismatch x.field.owner.registeredName t.descriptor.name)

/-- Why the setting `x` cannot be linked below an object symbol whose children have the names
`taken`, and whose object is of type `t`: by `Info.nameRefusal?` first, then by
`defaultRefusal?`. -/
def refusal? (x : Setting) (binding : Info) (taken : List String) (t : NativeType) :
    Option SymbolError :=
  (binding.nameRefusal? taken x.name).or
    ((x.defaultRefusal? t).map (.access (binding.childLabel x.name)))

/-- The scalar that the setting `x` becomes below an object symbol with the path `binding`. -/
def entry (x : Setting) (binding : Path) (id : ObjectId) : Symbol :=
  .scalar ⟨⟨x.name, x.description, some binding⟩, .linked (.field id x.field)⟩

theorem name_entry (x : Setting) (binding : Path) (id : ObjectId) :
    (x.entry binding id).name = x.name := rfl

/-- The `settings` are split into those that are `linked`, none of which is refused after the ones
before it, and the `rest` from the first that is refused. -/
structure Splits (settings : List Setting) (binding : Info) (taken : List String)
    (t : NativeType) (linked rest : List Setting) (error? : Option SymbolError) : Prop where
  /-- The `settings` in order. -/
  split : settings = linked ++ rest
  /-- A linked setting `x` has no `refusal?` after those before it. -/
  accepted : ∀ before x after, linked = before ++ x :: after →
    x.refusal? binding (taken ++ before.map (·.name)) t = none
  /-- The first of the `rest` is refused after all that are `linked`, and that is the error. -/
  stopped : error? = rest.head?.bind (·.refusal? binding (taken ++ linked.map (·.name)) t)
  /-- There is an error exactly if there is a `rest`. -/
  ended : error? = none ↔ rest = []

theorem splits_nil (binding : Info) (taken : List String) (t : NativeType) :
    Splits [] binding taken t [] [] none :=
  ⟨rfl, fun before x after h => by simp at h, rfl, by simp⟩

/-- A setting `x` that is refused for `e` ends the run. -/
theorem splits_of_refused {settings : List Setting} {e : SymbolError}
    (h : x.refusal? binding taken t = some e) :
    Splits (x :: settings) binding taken t [] (x :: settings) (some e) := by
  refine ⟨rfl, fun before y after h => by simp at h, ?_, by simp⟩
  rw [List.map_nil, List.append_nil, List.head?_cons, Option.bind_some, h]

/-- **One more setting `x` in front** that is not refused takes its name away from the others. -/
theorem Splits.cons {settings linked rest : List Setting} {error? : Option SymbolError}
    (hx : x.refusal? binding taken t = none)
    (h : Splits settings binding (taken ++ [x.name]) t linked rest error?) :
    Splits (x :: settings) binding taken t (x :: linked) rest error? := by
  refine ⟨?_, fun before y after hsplit => ?_, ?_, h.ended⟩
  · rw [h.split, List.cons_append]
  · cases before with
    | nil =>
      obtain ⟨rfl, -⟩ := List.cons.inj hsplit
      rwa [List.map_nil, List.append_nil]
    | cons z before =>
      obtain ⟨rfl, htail⟩ := List.cons.inj hsplit
      have haccepted := h.accepted before y after htail
      rwa [List.append_assoc, List.singleton_append] at haccepted
  · rw [h.stopped, List.append_assoc, List.singleton_append, List.map_cons]

end Setting

/-! ## §3. Linking settings. -/

namespace ObjectBinding

variable {o : ObjectBinding} {h : Handle} {n : Native} {w : Surroundings}

/-- An object symbol with the children `cs` behind its own. -/
def extend (o : ObjectBinding) (cs : List Symbol) : ObjectBinding :=
  { o with scope := { o.scope with children := o.scope.children ++ cs } }

theorem extend_nil (o : ObjectBinding) : o.extend [] = o := by
  rw [extend, List.append_nil]

theorem extend_extend (o : ObjectBinding) (cs ds : List Symbol) :
    (o.extend cs).extend ds = o.extend (cs ++ ds) := by
  simp only [extend, List.append_assoc]

/-- **Linking one setting `x`** of a live module by `linkField` fails and changes nothing, or writes
the default and adds the `entry`. -/
theorem run_linkField_setting (hhandle : o.handle? = some h)
    (hn : w.store.object? h.id = some ⟨n, false⟩) (x : Setting) :
    let out := (o.linkField x.name x.description x.field x.default).run w
    (∀ e, x.refusal? o.info o.scope.names n.type = some e → out = (.error e, w.emit (.reported e))) ∧
    (x.refusal? o.info o.scope.names n.type = none →
      out.1 = .ok (o.extend [x.entry o.info.path h.id]) ∧ n.type = x.field.owner ∧
      ∃ m, n.set? x.field.name (x.field.type.settled x.default) = some m ∧
        out.2.store.object? h.id = some ⟨m, false⟩ ∧ Written [h.id] [] w out.2) := by
  have hlive : o.live? w.store = some h := by
    rw [live?, hhandle, Option.filter_some, if_pos]
    rw [Store.isLive, hn]
    rfl
  have hrun := o.run_linkField_eq x.name x.description x.field x.default w
  rw [hlive] at hrun
  dsimp only at hrun
  rw [Scope.run_addLinked_eq, Scope.refusal?_eq_nameRefusal?] at hrun
  intro out
  rw [show out = _ from hrun]
  unfold Setting.refusal? Setting.defaultRefusal? info
  cases o.scope.info.nameRefusal? o.scope.names x.name with
  | some e =>
    refine ⟨?_, fun hnone => by cases hnone⟩
    rintro error ⟨⟩
    rfl
  | none =>
    rw [Option.none_or]
    cases hvalue : x.field.type.toValue? x.default with
    | none =>
      have hread : x.field.type.read x.default =
          .error (.conversion (x.field.type.dump x.default) x.field.type.kind) := by
        rw [StorageType.read, hvalue]
      rw [hread]
      refine ⟨?_, fun hnone => by cases hnone⟩
      rintro error ⟨⟩
      rfl
    | some v =>
      have hl : (Link.field h.id x.field).type? w.store = some x.field.type := rfl
      rw [StorageType.read_eq_ok.2 hvalue]
      by_cases htype : n.type = x.field.owner
      · rw [if_pos htype]
        refine ⟨fun e he => (by cases he), fun _ => ?_⟩
        -- what the default shows fits the field, and an object of the type has the field
        have hfield : (n.set? x.field.name (x.field.type.settled x.default)).isSome = true := by
          rw [Native.isSome_set?, htype, x.field.valid]
        obtain ⟨m, hm⟩ := Option.isSome_iff_exists.1 hfield
        have hwrite : (Link.field h.id x.field).write w.store v = .ok (w.store.setNative h.id m) :=
          Link.write_eq_ok.2 (.inr ⟨_, _, n, _, m, rfl, hn, htype,
            StorageType.ofValue?_toValue? hvalue, hm, rfl⟩)
        simp only [Except.bind, hwrite]
        refine ⟨rfl, htype, m, hm, ?_, ?_⟩
        · show (w.store.setNative h.id m).object? h.id = _
          rw [Store.object?_setNative, if_pos rfl, hn]
          rfl
        · exact IsTrans.trans _ _ _ (Link.write_written hwrite) (.of_eq rfl rfl)
      · rw [if_neg htype]
        refine ⟨?_, fun hnone => by cases hnone⟩
        rintro error ⟨⟩
        have hbarrier : (Link.field h.id x.field).barrier? w.store =
            some (Link.mismatch x.field n) := by
          simp [Link.barrier?, hn, htype]
        have hwrite := Link.write_of_barrier (Link.fits_of_shown hl hvalue) hbarrier
        simp only [Except.bind, hwrite]
        rfl

/-- One setting `x` is linked, and the others by `linkSettings` unless it fails. -/
theorem run_linkSettings_cons (o : ObjectBinding) (x : Setting) (settings : List Setting)
    (w : Surroundings) : (o.linkSettings (x :: settings)).run w =
      match (o.linkField x.name x.description x.field x.default).run w with
      | (.error e, w') => (⟨o, some e⟩, w')
      | (.ok o', w') => (o'.linkSettings settings).run w' := by
  rw [linkSettings, Effect.run_bind]
  generalize (o.linkField x.name x.description x.field x.default).run w = out
  obtain ⟨e | o', w'⟩ := out <;> rfl

/-- **Linking `settings` in turn** to a live module by `linkSettings` links those before the first
that is refused (`Splits`), each with its default written, by induction on the settings.  The names
that are taken are those of the children, so each setting that is linked takes its own name away
from those that follow. -/
theorem run_linkSettings (hhandle : o.handle? = some h)
    (hn : w.store.object? h.id = some ⟨n, false⟩) (settings : List Setting) :
    let out := (o.linkSettings settings).run w
    ∃ linked rest n', Setting.Splits settings o.info o.scope.names n.type linked rest out.1.error? ∧
      out.1.value = o.extend (linked.map (·.entry o.info.path h.id)) ∧
      out.2.store.object? h.id = some ⟨n', false⟩ ∧ n.Configured linked n' ∧
      Written [h.id] [] w out.2 := by
  induction settings generalizing o n w with
  | nil =>
    refine ⟨[], [], n, Setting.splits_nil _ _ _, ?_, hn, .refl n, .of_eq rfl rfl⟩
    rw [List.map_nil, extend_nil]
    rfl
  | cons x settings ih =>
    obtain ⟨hrefused, hlinked⟩ := run_linkField_setting hhandle hn x
    have hrun := o.run_linkSettings_cons x settings w
    cases hx : x.refusal? o.info o.scope.names n.type with
    | some e =>
      rw [hrefused e hx] at hrun
      rw [hrun]
      refine ⟨[], x :: settings, n, ?_, ?_, ?_, .refl n, ?_⟩
      · exact Setting.splits_of_refused hx
      · rw [List.map_nil, extend_nil]
      · exact hn
      · exact .of_eq rfl rfl
    | none =>
      obtain ⟨hvalue, htype, m, hm, hobject, hwritten⟩ := hlinked hx
      generalize (o.linkField x.name x.description x.field x.default).run w = first
        at hrun hvalue hobject hwritten
      obtain ⟨_, w₁⟩ := first
      cases hvalue
      obtain ⟨linked, rest, n', hsplits, hchildren, hlast, hconfigured, hlater⟩ :=
        ih (o := o.extend [x.entry o.info.path h.id]) hhandle hobject
      rw [hrun]
      refine ⟨x :: linked, rest, n', ?_, ?_, hlast, hconfigured.cons htype hm,
        IsTrans.trans _ _ _ hwritten hlater⟩
      · -- the name of the setting is that of the last child now
        rw [Native.type_set? hm] at hsplits
        refine Setting.Splits.cons hx ?_
        have hnames : (o.extend [x.entry o.info.path h.id]).scope.names =
            o.scope.names ++ [x.name] := by
          simp [extend, Scope.names, Setting.name_entry]
        rwa [hnames] at hsplits
      · dsimp only
        rw [hchildren, List.map_cons, extend_extend]
        rfl

end ObjectBinding

/-! ## §4. Registering a module. -/

namespace Scope

variable {c : Scope} {id : ObjectId} {n : Native} {w : Surroundings}

/-- A borrowed object `id` is let in by `receiveObject` under a name that is free.  A refusal drops
the symbol, which owns nothing. -/
theorem run_receiveObject_borrowed (c : Scope) (name description : String) (id : ObjectId)
    (w : Surroundings) :
    ∃ w', w'.store = w.store ∧ w'.destroyed = w.destroyed ∧
      (c.receiveObject name description ⟨id, false⟩).run w =
        (match c.info.nameRefusal? c.names name with
          | some e => .error e
          | none => .ok ((c.newBinding name description ⟨id, false⟩).reroot (some c.info.path)),
        w') := by
  have hname : (Symbol.ofObject
    ⟨⟨⟨name, description, none⟩, c.policy, []⟩, some ⟨id, false⟩⟩).name = name := rfl
  rw [← refusal?_eq_nameRefusal?]
  unfold receiveObject receive
  simp only [Effect.run_bind, Effect.run_store, hname]
  cases c.refusal? name with
  | none => refine ⟨_, ?_, ?_, rfl⟩ <;> rfl
  | some e => refine ⟨_, ?_, ?_, rfl⟩ <;> rfl

/-- What `registerModule` does with a live module: the object symbol is let in by `receiveObject`,
then the settings are linked by `linkSettings`. -/
theorem run_registerModule (hn : w.store.object? id = some ⟨n, false⟩) {name description : String}
    (htitle : n.title? = some (name, description)) (t : NativeType) (settings : List Setting) :
    (c.registerModule id t settings).run w =
      match (c.receiveObject name description ⟨id, false⟩).run w with
      | (.error e, w₁) => (⟨c, some e⟩, w₁)
      | (.ok o, w₁) =>
        let out := (o.linkSettings settings).run w₁
        (out.1.map fun o => c.append (.ofObject o),
          if out.1.error?.isNone then
            out.2.emit (.moduleRegistered o.label t.registeredName
              out.1.value.scope.children.length)
          else out.2) := by
  unfold registerModule
  rw [Effect.run_bind, Effect.run_store, Store.read_eq_ok.2 hn]
  dsimp only
  rw [htitle, Option.getD_some]
  dsimp only
  rw [Effect.run_bind]
  generalize (c.receiveObject name description ⟨id, false⟩).run w = received
  obtain ⟨e | o, w₁⟩ := received
  · rfl
  · dsimp only
    rw [Effect.run_bind]
    generalize (o.linkSettings settings).run w₁ = linked
    obtain ⟨⟨o', _ | e⟩, w₂⟩ := linked <;> rfl

/-- **What registering a module does.** For every scope `c`, module `n` and list of `settings`: a
module whose lock is poisoned, or whose name no path can spell or is taken (`Info.nameRefusal?`), is
refused, and nothing changes but the events.  Otherwise an object symbol that borrows the module and
has the copy policy of the scope is appended under the name of the module; its children are the
settings before the first that is refused (`Splits`), in their order, and the module is `Configured`
by them: each field holds the default of the last of those that names it, if there is one, and else
what it held; a default is held as it is, but for a NaN of four bytes.  Nothing else of the module
changes, which settles what it is, and no other object or cell.  The registration succeeds exactly
if no setting is refused, and otherwise it fails with the error of that setting. -/
theorem registerModule_outcome (c : Scope) (id : ObjectId) (n : Native) (poisoned : Bool)
    (name description : String) (settings : List Setting) (w : Surroundings)
    (hn : w.store.object? id = some ⟨n, poisoned⟩) (htitle : n.title? = some (name, description)) :
    let out := (c.registerModule id n.type settings).run w
    let binding : Info := ⟨name, description, some c.info.path⟩
    (poisoned = true → out = (⟨c, some (.access n.type.registeredName .lockFailed)⟩, w)) ∧
    (∀ e, poisoned = false → c.info.nameRefusal? c.names name = some e →
      out.1 = ⟨c, some e⟩ ∧ out.2.store = w.store ∧ out.2.destroyed = w.destroyed) ∧
    (poisoned = false → c.info.nameRefusal? c.names name = none → ∃ linked rest n',
      Setting.Splits settings binding [] n.type linked rest out.1.error? ∧
      out.1.value = c.append (.ofObject
        ⟨⟨binding, c.policy, linked.map (·.entry binding.path id)⟩, some ⟨id, false⟩⟩) ∧
      out.2.store.object? id = some ⟨n', false⟩ ∧ n.Configured linked n' ∧
      (∀ m, n.Configured linked m → m = n') ∧
      (∀ before x after, linked = before ++ x :: after → (∀ y ∈ after, y.field ≠ x.field) →
        ¬ x.field.type.IsNarrowNaN x.default → n'.project? x.field = some x.default) ∧
      Written [id] [] w out.2) := by
  intro out binding
  obtain ⟨w₁, hstore, hdestroyed, hreceived⟩ := c.run_receiveObject_borrowed name description id w
  refine ⟨fun hp => ?poisoned, fun e hp he => ?refused, fun hp hnone => ?registered⟩
  case poisoned =>
    have hread : w.store.read id = .error .lockFailed := by
      rw [Store.read, hn, hp]
      rfl
    show (c.registerModule id n.type settings).run w = _
    rw [registerModule, Effect.run_bind, Effect.run_store, hread]
    rfl
  case refused =>
    subst hp
    have hrun := run_registerModule hn htitle n.type settings (c := c)
    rw [hreceived, he] at hrun
    rw [show out = _ from hrun]
    exact ⟨rfl, hstore, hdestroyed⟩
  case registered =>
    subst hp
    have hrun := run_registerModule hn htitle n.type settings (c := c)
    rw [hreceived, hnone] at hrun
    let o := (c.newBinding name description ⟨id, false⟩).reroot (some c.info.path)
    obtain ⟨linked, rest, n', hsplits, hchildren, hlast, hconfigured, hwritten⟩ :=
      ObjectBinding.run_linkSettings (o := o) (h := ⟨id, false⟩) rfl (hstore ▸ hn) settings
    dsimp only at hrun
    generalize (o.linkSettings settings).run w₁ = after at hrun hsplits hchildren hlast hwritten
    have hevents : out.2.store = after.2.store ∧ out.2.destroyed = after.2.destroyed := by
      rw [show out = _ from hrun]
      dsimp only
      split <;> exact ⟨rfl, rfl⟩
    refine ⟨linked, rest, n', ?_, ?_, ?_, hconfigured, fun m hm => hm.unique hconfigured, ?_, ?_⟩
    · rw [show out = _ from hrun]
      exact hsplits
    · rw [show out = _ from hrun]
      show c.append (.ofObject after.1.value) = _
      rw [hchildren]
      rfl
    · rw [hevents.1, hlast]
    · intro before x after hsplit hafter hnan
      rw [hconfigured.last before x after hsplit hafter, StorageType.settled_eq hnan]
    · have hquiet : Written [id] [] w w₁ := .of_eq hstore hdestroyed
      have hlate : Written [id] [] after.2 out.2 := .of_eq hevents.1 hevents.2
      exact IsTrans.trans _ _ _ hquiet (IsTrans.trans _ _ _ hwritten hlate)

/-- A store with one `counter`. -/
def counting : Surroundings := { store := Store.addObject {} (.record .counter { id := "k" }) }

/-- In the store `counting` a counter shows two settings of one name.  The first of them is linked
and its default written; the second fails and ends the registration, and what was done by then
stays. -/
theorem registerModule_outcome_counting :
    let c : Scope := ⟨⟨"root", "", none⟩, .sameShape, []⟩
    let out := (c.registerModule ⟨0⟩ (.record .counter) NativeType.counterSettings).run counting
    out.1.error? = some (.nameCollision "k" "count") ∧
    ∃ linked rest n', Setting.Splits NativeType.counterSettings
        ⟨"k", "broken module", some .root⟩ [] (.record .counter) linked rest out.1.error? ∧
      linked.map (·.name) = ["count"] ∧ rest ≠ [] ∧
      out.2.store.object? ⟨0⟩ = some ⟨n', false⟩ ∧
      n'.get? (.record (.int .int64)) = some ⟨5, by decide, by decide⟩ := by
  intro c out
  have herror : out.1.error? = some (.nameCollision "k" "count") := by decide +kernel
  have hnames : out.1.value.children.map (fun x => x.children.map Symbol.name) = [["count"]] := by
    decide +kernel
  have hfield : (out.2.store.object? ⟨0⟩).bind (fun r => r.native.get? (.record (.int .int64))) =
      some ⟨5, by decide, by decide⟩ := by decide +kernel
  obtain ⟨-, -, hregistered⟩ := c.registerModule_outcome ⟨0⟩ (.record .counter { id := "k" }) false
    "k" "broken module" NativeType.counterSettings counting (by decide +kernel) rfl
  obtain ⟨linked, rest, n', hsplits, hvalue, hn', -⟩ := hregistered rfl (by decide +kernel)
  refine ⟨herror, linked, rest, n', hsplits, ?_, fun hrest => ?_, hn', ?_⟩
  · rw [show out.1.value = _ from hvalue] at hnames
    have hlinked : [(linked.map (·.entry ⟨["k"]⟩ ⟨0⟩)).map Symbol.name] = [["count"]] := hnames
    rw [List.map_map, List.singleton_inj] at hlinked
    exact hlinked
  · exact absurd (herror.symm.trans (hsplits.ended.2 hrest)) nofun
  · rw [show out.2.store.object? ⟨0⟩ = _ from hn'] at hfield
    exact hfield

end Scope

end ConfigTree
