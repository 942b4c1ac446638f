import ConfigTree.Proofs.Settings
import ConfigTree.Symbol.Assign
import ConfigTree.Symbol.Clone

/-!
# Warnings

The author of a configuration reads warnings.  An effect is candid if it warns of the error that it
returns, of that alone, and of nothing if it returns none.  Reading, writing, registering, assigning
a value and cloning are candid.  Calling a function is, as far as the function does not take the
arguments; and registering a module is, unless its lock is poisoned: that error is returned without
a warning.

Main results:
  * `Effect.Candid.bind`, `Effect.Candid.after`, `Effect.Candid.on_ok` — candid effects in a row;
  * `Function.run_call` — who answers a call;
  * `Scope.warnings_registerModule` — what is told of the registration of a module;
  * `Symbol.tryClone_candid` — cloning is candid.
-/

namespace ConfigTree

/-! ## §1. Warnings among the events. -/

namespace Event

theorem level_copying_ne {dst src : String} : (copying dst src).level ≠ .warn := nofun

theorem level_dropping_ne {name : String} : (dropping name).level ≠ .warn := nofun

end Event

namespace Surroundings

variable (w : Surroundings)

/-- The warnings among the events of `w`, in order. -/
def warnings : List Event := w.events.toList.filter (·.level = .warn)

theorem warnings_emit (event : Event) : (w.emit event).warnings =
    w.warnings ++ if event.level = .warn then [event] else [] := by
  unfold warnings emit
  rw [Array.toList_push, List.filter_append, List.filter_singleton]
  simp

theorem warnings_reported (e : SymbolError) :
    (w.emit (.reported e)).warnings = w.warnings ++ [.reported e] := warnings_emit w _

theorem warnings_emit_of_ne {event : Event} (h : event.level ≠ .warn) :
    (w.emit event).warnings = w.warnings := by
  rw [warnings_emit, if_neg h, List.append_nil]

theorem warnings_destroy (id : ObjectId) : (w.destroy id).warnings = w.warnings := by
  unfold destroy
  cases w.store.object? id <;> rfl

/-- None has been added to the `warnings`. -/
def Calm (w w' : Surroundings) : Prop := w'.warnings = w.warnings

instance : IsPreorder Surroundings Calm where
  refl _ := rfl
  trans _ _ _ h h' := Eq.trans h' h

end Surroundings

/-! ## §2. Candid effects. -/

namespace Effect

open Surroundings (Calm)

variable {α β : Type} {error? : α → Option SymbolError} {err? : β → Option SymbolError}

/-- The effect `e` warns of the error that it returns, by `error?`, and of nothing else. -/
def Candid (e : Effect α) (error? : α → Option SymbolError) : Prop :=
  ∀ w, (e.run w).2.warnings = w.warnings ++ (error? (e.run w).1).toList.map .reported

/-- The error of an outcome, if it is one. -/
def failure? : Except SymbolError α → Option SymbolError
  | .error e => some e
  | .ok _ => none

theorem keeps_emit {event : Event} (h : event.level ≠ .warn) : Keeps Calm (emit event) :=
  fun w => w.warnings_emit_of_ne h

theorem keeps_destroy (id : ObjectId) : Keeps Calm (destroy id) := fun w => w.warnings_destroy id

theorem keeps_putStore (s : Store) : Keeps Calm (putStore s) := fun _ => rfl

theorem keeps_store : Keeps Calm store := fun _ => rfl

theorem keeps_create (n : Native) : Keeps Calm (create n) := fun _ => rfl

/-- An effect `e` that neither fails nor warns is `Candid`. -/
theorem Candid.of_keeps {e : Effect α} (h : Keeps Calm e)
    (hnone : ∀ w, error? (e.run w).1 = none) : Candid e error? := by
  intro w
  rw [hnone w]
  exact (h w).trans (List.append_nil _).symm

theorem Candid.pure {a : α} (h : error? a = none) : Candid (pure a : Effect α) error? :=
  .of_keeps (.pure a) fun _ => h

theorem candid_report (e : SymbolError) : Candid (report e) some := fun w => w.warnings_reported e

/-- What comes before without a warning, `e`, makes no difference. -/
theorem Candid.after {e : Effect α} {f : α → Effect β} (he : Keeps Calm e)
    (hf : ∀ a, Candid (f a) err?) : Candid (e >>= f) err? := by
  intro w
  rw [run_bind, hf, he w]

/-- The effect `e` ends with the error `x`, of which the author has been told before. -/
def HandsOn (e : Effect α) (error? : α → Option SymbolError) (x : SymbolError) : Prop :=
  Keeps Calm e ∧ ∀ w, error? (e.run w).1 = some x

theorem HandsOn.pure {a : α} {x : SymbolError} (h : error? a = some x) :
    HandsOn (pure a : Effect α) error? x := ⟨.pure a, fun _ => h⟩

theorem HandsOn.after {e : Effect α} {f : α → Effect β} {x : SymbolError} (he : Keeps Calm e)
    (hf : ∀ a, HandsOn (f a) err? x) : HandsOn (e >>= f) err? x :=
  ⟨he.bind fun a => (hf a).1, fun w => (hf (e.run w).1).2 (e.run w).2⟩

/-- **Effects `e` and `f` in a row are `Candid` if each of them is.** Once the first has failed,
what follows `HandsOn` its error. -/
theorem Candid.bind {e : Effect α} {f : α → Effect β} (he : Candid e error?)
    (hok : ∀ a, error? a = none → Candid (f a) err?)
    (herr : ∀ a x, error? a = some x → HandsOn (f a) err? x) : Candid (e >>= f) err? := by
  intro w
  have hfirst := he w
  rw [run_bind]
  cases hx : error? (e.run w).1 with
  | none =>
    rw [hx, Option.toList_none, List.map_nil, List.append_nil] at hfirst
    rw [hok _ hx, hfirst]
  | some x =>
    obtain ⟨hcalm, hsame⟩ := herr _ x hx
    rw [hsame, hcalm, hfirst, hx]

/-- An outcome seen otherwise, by `f`, fails as before. -/
theorem Candid.map {e : Effect α} (he : Candid e error?) {f : α → β}
    (hf : ∀ a, err? (f a) = error? a) : Candid (f <$> e) err? := by
  intro w
  rw [run_map, hf]
  exact he w

/-- The author is told of the error `e` by `report`, and the effect ends with it. -/
theorem candid_reporting {e : SymbolError} {f : SymbolError → β} (hf : err? (f e) = some e) :
    Candid (report e >>= fun e => Pure.pure (f e)) err? := by
  intro w
  show (w.emit (.reported e)).warnings = w.warnings ++ (err? (f e)).toList.map .reported
  rw [hf]
  exact w.warnings_reported e

theorem failure?_map (r : Except SymbolError α) (f : α → β) :
    failure? (r.map f) = failure? r := by
  cases r <;> rfl

/-- Going on by `f` after a success, and handing an error on. -/
theorem Candid.on_ok {e : Effect (Except SymbolError α)} {f : Except SymbolError α → Effect β}
    (he : Candid e failure?) (hok : ∀ a, Candid (f (.ok a)) err?)
    (herr : ∀ x, HandsOn (f (.error x)) err? x) : Candid (e >>= f) err? := by
  refine he.bind (fun r hr => ?_) fun r x hr => ?_
  · cases r with
    | ok a => exact hok a
    | error x => cases hr
  · cases r with
    | ok a => cases hr
    | error x' =>
      cases hr
      exact herr x

end Effect

open Effect (Candid Keeps failure?)
open Surroundings (Calm)

/-! ## §3. Scalars, functions and bound objects. -/

namespace Scalar

theorem value_candid (x : Scalar) : Candid x.value failure? := by
  intro w
  rw [run_value]
  cases x.peek w.store with
  | ok v => exact (List.append_nil _).symm
  | error e => exact w.warnings_reported e

theorem set_candid (x : Scalar) (v : Value) : Candid (x.set v) Attempt.error? := by
  intro w
  rw [run_set]
  cases x.write w.store v with
  | ok written => exact (List.append_nil _).symm
  | error e => exact w.warnings_reported e

theorem copyFrom_candid (x : Scalar) (src : Symbol) : Candid (x.copyFrom src) Attempt.error? := by
  unfold copyFrom
  split
  case h_1 y => exact y.value_candid.on_ok x.set_candid fun _ => .pure rfl
  case h_2 => exact Effect.candid_reporting rfl

end Scalar

namespace Function

theorem copyFrom_candid (f : Function) (src : Symbol) :
    Candid (f.copyFrom src) Attempt.error? := by
  unfold copyFrom
  split
  case h_1 => exact .pure rfl
  case h_2 => exact Effect.candid_reporting rfl

/-- The function `f` takes as many arguments as `args` has. -/
def Fits (f : Function) (args : List Value) : Prop := ∀ n, f.arity? = some n → n = args.length

/-- Calling a function with too few or too many arguments by `call` reports that; otherwise (`Fits`)
the answer is that of the host, and nothing is added to it. -/
theorem run_call (f : Function) (args : List Value) (w : Surroundings) :
    (f.Fits args → (f.call args).run w = (f.callable.apply args, w)) ∧
    (¬ f.Fits args → ∃ e, (f.call args).run w = (.error e, w.emit (.reported e))) := by
  unfold Fits call
  cases f.arity? with
  | none => exact ⟨fun _ => rfl, fun h => absurd nofun h⟩
  | some n =>
    dsimp only
    by_cases hn : n = args.length
    · refine ⟨fun _ => ?_, fun h => absurd (fun m hm => ?_) h⟩
      · rw [if_pos hn]
        rfl
      · cases hm
        exact hn
    · refine ⟨fun h => absurd (h n rfl) hn, fun _ => ?_⟩
      rw [if_neg hn]
      exact ⟨.arityMismatch f.info.label n args.length, rfl⟩

end Function

namespace ObjectBinding

variable {α : Type}

theorem live_candid (o : ObjectBinding) : Candid o.live failure? := by
  refine .after Effect.keeps_store fun s => ?_
  cases o.live? s with
  | some h => exact .pure rfl
  | none => exact Effect.candid_reporting rfl

theorem object_candid (o : ObjectBinding) : Candid o.object failure? := by
  refine .after Effect.keeps_store fun s => ?_
  cases o.peek s with
  | ok found => exact .pure rfl
  | error e => exact Effect.candid_reporting rfl

theorem objectAs_candid (o : ObjectBinding) (t : NativeType) : Candid (o.objectAs t) failure? :=
  o.object_candid.map fun r => Effect.failure?_map r _

theorem updateObject_candid (o : ObjectBinding) (f : Native → α × Native) :
    Candid (o.updateObject f) failure? :=
  o.object_candid.on_ok (fun _ => .of_keeps (fun _ => rfl) fun _ => rfl)
    fun _ => .pure rfl

theorem updateObjectAs_candid (o : ObjectBinding) (t : NativeType) (f : Native → α × Native) :
    Candid (o.updateObjectAs t f) failure? := by
  refine o.object_candid.on_ok (fun (id, n) => ?_) fun _ => .pure rfl
  dsimp only
  split
  case isTrue => exact .of_keeps (fun _ => rfl) fun _ => rfl
  case isFalse => exact .of_keeps (fun _ => rfl) fun _ => rfl

theorem take_calm (o : ObjectBinding) : Keeps Calm o.take :=
  .bind (Effect.keeps_emit nofun) fun _ => .pure _

end ObjectBinding

namespace Symbol

/-- Assigning a value `v` by `assignValue` is `Candid`. -/
theorem assignValue_candid (x : Symbol) (target : Path) (v : Value) :
    Candid (x.assignValue target v) Attempt.error? := by
  refine .after (Effect.keeps_emit nofun) fun _ => ?_
  cases x.resolve? target with
  | none => exact Effect.candid_reporting rfl
  | some y =>
    cases y with
    | scalar s => exact (s.set_candid v).map fun _ => rfl
    | _ => exact Effect.candid_reporting rfl

end Symbol

/-! ## §4. Registering. -/

namespace Symbol

theorem releaseAll_calm {cs : List Symbol} (h : ∀ c ∈ cs, Keeps Calm c.release) :
    Keeps Calm (releaseAll cs) := by
  induction cs with
  | nil => exact .pure ()
  | cons c cs ih =>
    exact .bind (h c List.mem_cons_self) fun _ => ih fun d hd => h d (List.mem_cons_of_mem c hd)

/-- Dropping a symbol `x` by `release` is `Calm`. -/
theorem release_calm (x : Symbol) : Keeps Calm x.release := by
  induction x with
  | scalar s => exact .pure ()
  | function f => exact .pure ()
  | branch role info policy cs ih =>
    rw [release]
    cases role.owned? with
    | none => exact releaseAll_calm ih
    | some id =>
      refine .bind (Effect.keeps_emit Event.level_dropping_ne) fun _ => ?_
      exact .bind (releaseAll_calm ih) fun _ => Effect.keeps_destroy id

end Symbol

namespace Scope

variable (c : Scope) (name description : String)

theorem receive_candid (x : Symbol) : Candid (c.receive x) failure? := by
  unfold receive
  cases c.refusal? x.name with
  | none => exact .after (Effect.keeps_emit nofun) fun _ => .pure rfl
  | some e =>
    -- the symbol is dropped after the report, which hands the error on
    refine (Effect.candid_report e).bind (fun _ h => nomatch h) fun e' x' h => ?_
    cases h
    exact .after x.release_calm fun _ => .pure rfl

theorem insert_candid (x : Symbol) : Candid (c.insert x) failure? :=
  (c.receive_candid x).map fun r => Effect.failure?_map r _

theorem receiveObject_candid (h : Handle) :
    Candid (c.receiveObject name description h) failure? := by
  refine .after Effect.keeps_store fun s => .after (Effect.keeps_emit nofun) fun _ => ?_
  exact (c.receive_candid _).map fun r => Effect.failure?_map r _

theorem addObject_candid (h : Handle) : Candid (c.addObject name description h) failure? :=
  (c.receiveObject_candid name description h).map fun r => Effect.failure?_map r _

theorem ensureVacant_candid : Candid (c.ensureVacant name) failure? := by
  unfold ensureVacant
  cases c.refusal? name with
  | none => exact .pure rfl
  | some e => exact Effect.candid_reporting rfl

theorem addLinked_candid (l : Link) (default : Except AccessError Value) :
    Candid (c.addLinked name description l default) failure? := by
  refine (c.ensureVacant_candid name).on_ok (fun _ => ?_) fun _ => .pure rfl
  refine .after Effect.keeps_store fun s => ?_
  cases default.bind (l.write s) with
  | error e => exact Effect.candid_reporting rfl
  | ok s => exact .after (Effect.keeps_putStore s) fun _ => c.insert_candid _

theorem remove_calm : Keeps Calm (c.remove name) := by
  unfold remove
  cases c.lookup? name with
  | none => exact .pure none
  | some x => exact .bind (Effect.keeps_emit nofun) fun _ => .pure _

end Scope

namespace ObjectBinding

theorem linkField_candid (o : ObjectBinding) (name description : String) (f : Field)
    (default : f.type.Raw) : Candid (o.linkField name description f default) failure? := by
  refine o.live_candid.on_ok (fun h => ?_) fun _ => .pure rfl
  exact (o.scope.addLinked_candid name description _ _).map fun r => Effect.failure?_map r _

theorem linkSettings_candid (o : ObjectBinding) (settings : List Setting) :
    Candid (o.linkSettings settings) Attempt.error? := by
  induction settings generalizing o with
  | nil => exact .pure rfl
  | cons x rest ih =>
    exact (o.linkField_candid x.name x.description x.field x.default).on_ok ih
      fun _ => .pure rfl

end ObjectBinding

/-- **Registering a module by `registerModule` warns of its error unless the lock of the module is
poisoned**; then it returns an error and warns of nothing. -/
theorem Scope.warnings_registerModule (c : Scope) (id : ObjectId) (t : NativeType)
    (settings : List Setting) (w : Surroundings) :
    let out := (c.registerModule id t settings).run w
    (∀ e, w.store.read id = .error e → out = (⟨c, some (.access t.registeredName e)⟩, w)) ∧
    (∀ n, w.store.read id = .ok n →
      out.2.warnings = w.warnings ++ out.1.error?.toList.map .reported) := by
  intro out
  have hout : out = (c.registerModule id t settings).run w := rfl
  unfold registerModule at hout
  rw [Effect.run_bind, Effect.run_store] at hout
  refine ⟨fun e he => ?locked, fun n hn => ?found⟩
  case locked =>
    rw [he] at hout
    exact hout
  case found =>
    rw [hn] at hout
    rw [hout]
    suffices hcandid : Candid _ Attempt.error? from hcandid w
    refine (c.receiveObject_candid _ _ _).on_ok (fun o => ?_) fun _ => .pure rfl
    refine (o.linkSettings_candid settings).bind (fun linked h => ?_) fun linked e h => ?_
    · rw [h]
      exact .after (Effect.keeps_emit nofun) fun _ => .pure h
    · rw [h]
      exact .pure h

/-! ## §5. Cloning. -/

theorem Handle.duplicate_calm (h : Handle) : Keeps Calm h.duplicate := by
  unfold duplicate
  split
  case isFalse => exact .bind (Effect.keeps_emit nofun) fun _ => .pure _
  case isTrue =>
    refine .bind Effect.keeps_store fun s => ?_
    cases s.read h.id with
    | error e => exact .pure _
    | ok n =>
      dsimp only
      split
      case h_1 =>
        refine .bind (Effect.keeps_create _) fun _ => ?_
        exact .bind (Effect.keeps_emit nofun) fun _ => .pure _
      all_goals exact .bind (Effect.keeps_emit nofun) fun _ => .pure _

namespace ObjectBinding

theorem duplicateHandle_candid (o : ObjectBinding) : Candid o.duplicateHandle failure? := by
  unfold duplicateHandle
  cases o.handle? with
  | none => exact .pure rfl
  | some h =>
    refine .after h.duplicate_calm fun r => ?_
    rcases r with e | _ | copy
    · exact Effect.candid_reporting rfl
    · exact .after Effect.keeps_store fun s => Effect.candid_reporting rfl
    · exact .pure rfl

/-- Cloning an object symbol by `cloneWith` is `Candid` if cloning its children by `e` is. -/
theorem cloneWith_candid (o : ObjectBinding) {e : Effect (Attempt (List Symbol))}
    (he : Candid e Attempt.error?) : Candid (o.cloneWith e) failure? := by
  refine o.duplicateHandle_candid.on_ok (fun copy? => ?_) fun _ => .pure rfl
  refine he.bind (fun built h => ?_) fun built x h => ?_
  · rw [h]
    exact .after (Effect.keeps_emit nofun) fun _ => .pure rfl
  · rw [h]
    dsimp only
    -- what was built is dropped, and the duplicate with it
    have hdrop : Keeps Calm (Symbol.releaseAll built.value) :=
      Symbol.releaseAll_calm fun c _ => c.release_calm
    cases (Role.object copy?).owned? with
    | none => exact .after hdrop fun _ => .pure rfl
    | some id => exact .after hdrop fun _ => .after (Effect.keeps_destroy id) fun _ => .pure rfl

end ObjectBinding

namespace Symbol

theorem cloneChildren_candid {cs : List Symbol} (h : ∀ c ∈ cs, Candid c.tryClone failure?) :
    Candid (cloneChildren cs) Attempt.error? := by
  induction cs with
  | nil => exact .pure rfl
  | cons c cs ih =>
    refine (h c List.mem_cons_self).on_ok (fun copy => ?_) fun _ => .pure rfl
    exact (ih fun d hd => h d (List.mem_cons_of_mem c hd)).map fun _ => rfl

/-- **Cloning by `tryClone` is `Candid`.** -/
theorem tryClone_candid (x : Symbol) : Candid x.tryClone failure? := by
  induction x with
  | scalar s => exact .pure rfl
  | function f => exact .pure rfl
  | branch role info policy cs ih =>
    have hchildren := cloneChildren_candid ih
    cases role with
    | object handle? => exact ObjectBinding.cloneWith_candid _ hchildren
    | scope =>
      refine hchildren.bind (fun built h => ?_) fun built x h => ?_
      · rw [h]
        exact .pure rfl
      · rw [h]
        exact .after (releaseAll_calm fun c _ => c.release_calm) fun _ => .pure rfl

end Symbol

end ConfigTree
