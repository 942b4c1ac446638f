import ConfigTree.Proofs.RequestWarnings
import ConfigTree.Proofs.PoisonedLocks
import ConfigTree.Proofs.SoundSteps

/-!
# What the author of a configuration is told

Every operation of a session warns of the error that it returns, with two exceptions: what a
function of the host returns is the host's own, and a module that cannot be registered because its
lock is poisoned is refused in silence.  An operation that succeeds warns of nothing, unless it
copies an object and passes over the failure of something inside.

Main results:
  * `Request.answer_tells` — what each operation tells, one after another;
  * `Session.errors_warned` — which errors are warned of, and which successes are silent;
  * `Session.locked_module_unreported` — the error of a poisoned module is not among them.
-/

namespace ConfigTree

/-! ## §1. What operations may leave untold. -/

namespace Operation

/-- Whatever the operation copies goes through (`Symbol.CopiesThrough`, `Scope.CopiesThrough`): the
whole of it for `copy` and `copyScope`, the target of `assign`; other operations copy nothing. -/
def CopiesThrough (s : Session) : Operation → Prop
  | .copy dst src => ∀ x y, s.symbol? dst = some x → s.symbol? src = some y →
    x.CopiesThrough y s.surroundings.store
  | .copyScope dst src => ∀ x y, s.scope? dst = some x → s.scope? src = some y →
    x.CopiesThrough y s.surroundings.store
  | .assign p target source => target ≠ source → ∀ x y z, s.symbol? p = some x →
    x.resolve? target = some y → x.resolve? source = some z →
      y.CopiesThrough z s.surroundings.store
  | _ => True

/-- The operation is a `call` of a function, and the host answers the arguments with the error
`e`. -/
def CalledBack (s : Session) (e : SymbolError) : Operation → Prop
  | .call p args => ∃ f, s.symbol? p = some (.function f) ∧ f.Fits args ∧
    f.callable.apply args = .error e
  | _ => False

/-- The operation is a `registerModule` of a module whose lock is poisoned, in a scope that is
there, and `e` is the error that says so. -/
def LockedOut (s : Session) (e : SymbolError) : Operation → Prop
  | .registerModule host p => ∃ id n, s.resident? host = some (id, ⟨n, true⟩) ∧
    n.type.settings?.isSome ∧ (s.scope? p).isSome ∧ e = .access n.type.registeredName .lockFailed
  | _ => False

end Operation

namespace Request

variable {α β : Type} {s : Session} {Exempt : SymbolError → Prop} {Through : Prop}

theorem Candid.done {r : Request Unit} (h : r.Candid) : (done r).Candid :=
  h.bind fun _ => (discreet_pure _).candid

theorem Tells.done {r : Request Unit} (h : r.Tells s Exempt Through) :
    (done r).Tells s Exempt Through := by
  have hdone : Request.done r = (fun _ => .done) <$> r := (map_eq_pure_bind _ _).symm
  rw [hdone]
  exact h.map _

/-! ## §2. What each operation tells. -/

theorem assign_tells (p : Place) (target source : Path) (s : Session) :
    (assign p target source).Tells s Exempt
      (Operation.CopiesThrough s (.assign p target source)) := by
  refine (finds_branch p).tells fun x hx =>
    tells_put (x.assign_warns target source _) (fun h => ?_) p _
  have hx := (Option.filter_eq_some_iff.1 hx).1
  refine ⟨fun hP hne x' y z hx' => ?_, fun hQ => ⟨h, fun hne y z => hQ hne x y z hx⟩⟩
  cases hx.symm.trans hx'
  exact hP.2 hne y z

/-- Copies between slots only are looked at, since `ensureApart` comes first; the request `r` after
it `Tells` the same. -/
theorem apart_tells {r : Request α} (h : r.Tells s Exempt Through) (dst src : Place) :
    (ensureApart dst src >>= fun _ => r).Tells s Exempt Through := by
  unfold ensureApart
  by_cases hslot : dst.slot = src.slot
  · rw [if_pos hslot]
    exact ⟨[], (List.append_nil _).symm, nofun, nofun⟩
  · rw [if_neg hslot]
    exact h

theorem copy_tells (dst src : Place) (s : Session) :
    (copy dst src).Tells s Exempt (Operation.CopiesThrough s (.copy dst src)) := by
  refine apart_tells ?_ dst src
  refine (finds_symbol dst).tells fun x hx => (finds_symbol src).tells fun y hy => ?_
  refine tells_put (x.copyFrom_warns y _) (fun _ => ⟨fun h x' y' hx' hy' => ?_, fun h => ?_⟩) dst _
  · cases hx.symm.trans hx'
    cases hy.symm.trans hy'
    exact h
  · exact h x y hx hy

theorem copyScope_tells (dst src : Place) (s : Session) :
    (copyScope dst src).Tells s Exempt (Operation.CopiesThrough s (.copyScope dst src)) := by
  refine apart_tells ?_ dst src
  refine (finds_symbol dst).tells fun x hx => (finds_symbol src).tells fun y hy => ?_
  refine (finds_require _ _).tells fun a ha => (finds_require _ _).tells fun b hb => ?_
  have hcopy : Effect.Warns (do return (← a.copyFrom b).map x.withScope) s.surroundings
    (a.CopiesThrough b s.surroundings.store) := a.copyFrom_warns b _
  refine tells_put hcopy (fun _ => ⟨fun h a' b' ha' hb' => ?_, fun h => ?_⟩) dst _
  · cases (Session.scope?_eq_some.2 ⟨x, hx, ha⟩).symm.trans ha'
    cases (Session.scope?_eq_some.2 ⟨y, hy, hb⟩).symm.trans hb'
    exact h
  · exact h a b (Session.scope?_eq_some.2 ⟨x, hx, ha⟩) (Session.scope?_eq_some.2 ⟨y, hy, hb⟩)

/-- A function that takes the arguments answers with what the host answers, so a `call` is exempt
where it is `CalledBack`. -/
theorem call_tells (p : Place) (args : List Value) (s : Session) :
    (answer (.call p args)).Tells s (fun e => Operation.CalledBack s e (.call p args)) True := by
  have hfunction : (function p).Finds s ((s.symbol? p).bind Symbol.function?) :=
    (finds_symbol p).bind fun _ _ => finds_require _ _
  refine hfunction.tells fun f hf => ?_
  obtain ⟨x, hx, hf⟩ := Option.bind_eq_some_iff.1 hf
  have hx : s.symbol? p = some (.function f) := by
    cases x with
    | function g => cases hf; exact hx
    | _ => cases hf
  obtain ⟨hfits, hunfit⟩ := f.run_call args s.surroundings
  by_cases h : f.Fits args
  · cases happly : f.callable.apply args with
    | error e =>
      refine tells_of_error (List.append_nil _).symm ?_ (.inr ⟨f, hx, h, happly⟩)
      rw [outcome_bind_ok (outcome_perform _ s), hfits h, happly]
      rfl
    | ok v =>
      unfold Tells
      rw [outcome_bind_ok (outcome_perform _ s), hfits h, happly]
      exact (discreet_pure _).tells trivial
  · obtain ⟨e, hrun⟩ := hunfit h
    refine tells_of_error (s.surroundings.warnings_reported e) ?_
      (.inl (List.mem_singleton_self _))
    rw [outcome_bind_ok (outcome_perform _ s), hrun]
    rfl

/-- **A module whose lock is poisoned (`LockedOut`) is refused without a warning**: `registerModule`
fails with `e`, and the `warnings` are as they were. -/
theorem registerModule_of_lockedOut {host : String} {p : Place} {e : SymbolError}
    (h : Operation.LockedOut s e (.registerModule host p)) :
    ((registerModule host p).outcome s).1 = .error (.symbol e) ∧
      ((registerModule host p).outcome s).2.warnings = s.warnings := by
  obtain ⟨id, n, hfound, hsettings, hscope, rfl⟩ := h
  obtain ⟨settings, hsettings⟩ := Option.isSome_iff_exists.1 hsettings
  obtain ⟨c, hc⟩ := Option.isSome_iff_exists.1 hscope
  obtain ⟨x, hx, hxc⟩ := Session.scope?_eq_some.1 hc
  have hresident := finds_resident (s := s) host
  have hscope := finds_scope (s := s) p
  rw [hfound] at hresident
  rw [hc] at hscope
  have hread := Store.read_of_poisoned (Session.object?_of_resident? hfound)
  have hrun := (c.warnings_registerModule id n.type settings s.surroundings).1 _ hread
  rw [registerModule, outcome_bind_ok hresident]
  dsimp only
  rw [hsettings]
  dsimp only
  rw [outcome_bind_ok hscope, outcome_bind_ok (outcome_perform _ s), hrun]
  -- what is left is the scope as it was, which is put back before the error is handed on
  rw [putScope, bind_assoc, outcome_bind_ok (outcome_branch hx hxc)]
  exact ⟨rfl, (discreet_put p (x.withScope c) s).1⟩

theorem registerModule_tells (host : String) (p : Place) (s : Session) :
    (registerModule host p).Tells s (fun e => Operation.LockedOut s e (.registerModule host p))
      True := by
  by_cases hlocked : ∃ e, Operation.LockedOut s e (.registerModule host p)
  · obtain ⟨e, he⟩ := hlocked
    obtain ⟨hresult, hkept⟩ := registerModule_of_lockedOut he
    unfold Tells
    rw [hresult, hkept]
    refine ⟨[], (List.append_nil _).symm, nofun, fun e' he' => .inr ?_⟩
    cases he'
    exact he
  refine (finds_resident host).tells fun found hfound => ?_
  obtain ⟨id, n, poisoned⟩ := found
  dsimp only
  cases hsettings : n.type.settings? with
  | none => exact Discreet.tells (fun _ => ⟨rfl, nofun⟩) trivial
  | some settings =>
    refine (finds_scope p).tells fun c hc => ?_
    have hlive : poisoned = false := by
      refine Bool.eq_false_iff.2 fun h => hlocked ⟨_, id, n, ?_, ?_, ?_, rfl⟩
      · rw [hfound, h]
      · rw [hsettings]
        rfl
      · rw [hc]
        rfl
    have hread := Store.read_eq_ok.2 (hlive ▸ Session.object?_of_resident? hfound)
    have hwarnings := (c.warnings_registerModule id n.type settings s.surroundings).2 n hread
    refine tells_settling (Effect.warns_of_warnings hwarnings) (fun a h => ?_) (fun a x h => ?_)
      fun h => iff_of_true h trivial
    · exact (discreet_putScope p a.value).bind fun _ => (discreet_accept h).bind fun _ =>
        discreet_pure _
    · exact (discreet_putScope p a.value).fails fun _ => (fails_accept h).bind _

/-- **What each operation `Tells`**, one after another: exempt are the errors by which it is
`CalledBack` or `LockedOut`, and a success is silent if it `CopiesThrough`. -/
theorem answer_tells (op : Operation) (s : Session) :
    (answer op).Tells s (fun e => op.CalledBack s e ∨ op.LockedOut s e) (op.CopiesThrough s) := by
  cases op with
  | newScope slot name description policy => exact (discreet_fill slot _).candid.done.tells s
  | newScalar slot name description v => exact (discreet_fill slot _).candid.done.tells s
  | newLinked slot name description cell =>
    exact (newLinked_discreet slot name description cell).candid.done.tells s
  | newFunction slot name description c arity? => exact (discreet_fill slot _).candid.done.tells s
  | newObject slot name description origin? =>
    exact (newObject_discreet slot name description origin?).candid.done.tells s
  | dropSlot slot => exact (dropSlot_discreet slot).candid.done.tells s
  | addScope p name description =>
    exact ((register_candid p fun c => c.insert_candid _).map _).tells s
  | addScalar p name description v =>
    exact ((register_candid p fun c => c.insert_candid _).map _).tells s
  | addFunction p name description f arity? =>
    exact ((register_candid p fun c => c.insert_candid _).map _).tells s
  | addObject p name description origin? =>
    exact ((addObject_candid p name description origin?).map _).tells s
  | linkCell p name description cell default =>
    exact ((linkCell_candid p name description cell default).map _).tells s
  | linkField p name description f default =>
    exact (linkField_candid p name description f default).done.tells s
  | insert source p => exact ((insert_candid source p).map _).tells s
  | remove p name into? => exact ((remove_discreet p name into?).candid.map _).tells s
  | setPolicy p policy => exact (setPolicy_discreet p policy).candid.done.tells s
  | lookup p name => exact ((discreet_scope p).bind fun _ => discreet_pure _).candid.tells s
  | resolve p path => exact ((discreet_branch p).bind fun _ => discreet_pure _).candid.tells s
  | lexical p start name => exact ((discreet_branch p).bind fun _ => discreet_pure _).candid.tells s
  | names p =>
    have hlisting : (listing p).Discreet := (discreet_scope p).bind fun _ => discreet_pure _
    exact (hlisting.map _).candid.tells s
  | get p =>
    refine Candid.tells ((discreet_scalar p).candid.bind fun x => ?_) s
    exact candid_handing x.value_candid (fun _ => (discreet_pure _).candid) fun _ _ => rfl
  | kindOf p => exact ((discreet_symbol p).bind fun _ => discreet_pure _).candid.tells s
  | dump p =>
    refine Candid.tells (Discreet.candid ((discreet_symbol p).bind fun _ => ?_)) s
    exact discreet_store.bind fun _ => discreet_pure _
  | assign p target source => exact (assign_tells p target source s).done
  | assignValue p target v => exact (assignValue_candid p target v).done.tells s
  | set p v => exact (set_candid p v).done.tells s
  | copy dst src => exact (copy_tells dst src s).done
  | copyScope dst src => exact (copyScope_tells dst src s).done
  | clone p into => exact (clone_candid p into).done.tells s
  | take p into => exact (take_discreet p into).candid.done.tells s
  | call p args => exact (call_tells p args s).mono fun e he => .inl he
  | nativeGet p t => exact ((nativeGet_candid p t).map _).tells s
  | nativeSet p t field? x => exact (nativeSet_candid p t field? x).done.tells s
  | objectSet p field? x => exact (objectSet_candid p field? x).done.tells s
  | setVar p name v => exact ((setVar_candid p name v).map _).tells s
  | getVar p name => exact ((getVar_candid p name).map _).tells s
  | describe p => exact ((binding_discreet p).map _).candid.tells s
  | sameObject a b => exact ((sameObject_discreet a b).map _).candid.tells s
  | newHost name n => exact (newHost_discreet name n).candid.done.tells s
  | dropHost name => exact (dropHost_discreet name).candid.done.tells s
  | hostSet name field? x => exact (hostSet_discreet name field? x).candid.done.tells s
  | poisonHost name => exact (poisonHost_discreet name).candid.done.tells s
  | hostCopy name source custom =>
    exact ((hostCopy_discreet name source custom).map _).candid.tells s
  | newCell name t x => exact (newCell_discreet name t x).candid.done.tells s
  | dropCell name => exact (dropCell_discreet name).candid.done.tells s
  | cellSet name x => exact (cellSet_discreet name x).candid.done.tells s
  | poisonCell name => exact (poisonCell_discreet name).candid.done.tells s
  | registerModule name p =>
    exact ((registerModule_tells name p s).map _).mono fun e he => .inr he
  | setupConfig p t => exact (setupConfig_candid p _).done.tells s

end Request

/-! ## §3. Steps. -/

namespace Session

theorem mem_warnings {s : Session} {event : Event} :
    event ∈ s.warnings ↔ event ∈ s.surroundings.events.toList ∧ event.level = .warn := by
  rw [warnings, Surroundings.warnings, List.mem_filter, decide_eq_true_iff]

theorem warnings_eq_nil {s : Session} :
    s.warnings = [] ↔ ∀ event ∈ s.surroundings.events.toList, event.level ≠ .warn := by
  simp [warnings, Surroundings.warnings]

/-- **Which errors are warned of, and which successes are silent.** Whatever the session `s` and the
operation `op`: an error `e` of the configuration is warned of by an event of level `warn` during
the operation, with the text `e.message`, unless it is the answer of a function of the host
(`CalledBack`) or the refusal of a module whose lock is poisoned (`LockedOut`).  Such a module is
refused without any warning.  And an operation that succeeds warns of nothing just if it
`CopiesThrough`, that is if whatever it copies goes through. -/
theorem errors_warned (s : Session) (op : Operation) :
    let out := (s.step op).1
    (∀ e, out.result = .error (.symbol e) → ¬ op.CalledBack s e → ¬ op.LockedOut s e →
      ∃ event ∈ out.events, event.level = .warn ∧ event.message = e.message) ∧
    (∀ e, op.LockedOut s e →
      out.result = .error (.symbol e) ∧ ∀ event ∈ out.events, event.level ≠ .warn) ∧
    (∀ a, out.result = .ok a →
      ((∀ event ∈ out.events, event.level ≠ .warn) ↔ op.CopiesThrough s)) := by
  intro out
  -- the operation finds the session with nothing recorded, which is no matter to what it needs
  have hquiet : s.quiet.warnings = [] := rfl
  obtain ⟨told, hrun, hok, herror⟩ := Request.answer_tells op s.quiet
  rw [hquiet, List.nil_append] at hrun
  refine ⟨fun e he hcalled hlocked => ?warned, fun e he => ?locked, fun a ha => ?silent⟩
  case warned =>
    have hmem := (herror e he).resolve_right fun h => ?_
    · rw [← hrun] at hmem
      exact ⟨_, (mem_warnings.1 hmem).1, rfl, rfl⟩
    · cases op with
      | call p args => exact h.elim hcalled id
      | registerModule host p => exact h.elim id hlocked
      | _ => exact h.elim id id
  case locked =>
    cases op with
    | registerModule host p =>
      have he : Operation.LockedOut s.quiet e (.registerModule host p) := he
      obtain ⟨hresult, hkept⟩ := Request.registerModule_of_lockedOut he
      have hanswer := Request.outcome_map (Request.registerModule host p) Answer.text s.quiet
      rw [hresult] at hanswer
      refine ⟨congrArg Prod.fst hanswer, warnings_eq_nil.1 ?_⟩
      exact (congrArg (·.2.warnings) hanswer).trans (hkept.trans hquiet)
    | _ => exact he.elim
  case silent =>
    have hsilent := hok a ha
    rw [← hrun, warnings_eq_nil] at hsilent
    refine hsilent.trans ?_
    cases op <;> exact Iff.rfl

/-- A session with a counter whose lock is poisoned, a scope, and a truth value by itself. -/
def lockedOut : Session :=
  after [.newHost "h" (.record .counter { id := "h" }), .newScope "root" "root" "" .matchingNames,
    .newScalar "flag" "flag" "" (.bool true), .poisonHost "h"]

/-- In the session `lockedOut` the counter is not registered, and nobody is warned; a text that is
no truth value is refused with a warning, and a truth value is accepted without. -/
theorem errors_warned_locked_out :
    let registered := (lockedOut.step (.registerModule "h" ⟨"root", .root⟩)).1
    let refused := (lockedOut.step (.set ⟨"flag", .root⟩ (.string "maybe"))).1
    let accepted := (lockedOut.step (.set ⟨"flag", .root⟩ (.bool false))).1
    (registered.result = .error (.symbol (.access "Counter" .lockFailed)) ∧
      ∀ event ∈ registered.events, event.level ≠ .warn) ∧
    (∃ event ∈ refused.events, event.level = .warn ∧
      event.message = "cannot assign 'maybe' to 'flag': expected bool") ∧
    ∀ event ∈ accepted.events, event.level ≠ .warn := by
  refine ⟨?registered, ?refused, ?accepted⟩
  case registered =>
    refine (errors_warned lockedOut (.registerModule "h" ⟨"root", .root⟩)).2.1 _ ?_
    exact ⟨⟨0⟩, .record .counter { id := "h" }, by decide +kernel, rfl, by decide +kernel, rfl⟩
  case refused =>
    obtain ⟨event, hmem, hlevel, hmessage⟩ :=
      (errors_warned lockedOut (.set ⟨"flag", .root⟩ (.string "maybe"))).1
        (.conversion "flag" "maybe" .bool) (by decide +kernel) id id
    exact ⟨event, hmem, hlevel, hmessage.trans (by decide +kernel)⟩
  case accepted =>
    exact ((errors_warned lockedOut (.set ⟨"flag", .root⟩ (.bool false))).2.2 .done
      (by decide +kernel)).2 trivial

/-- **A module whose lock is poisoned is refused in silence**, as in the session `lockedOut`, though
its error is one of the configuration and no function of the host has made it (`CalledBack`). -/
theorem locked_module_unreported :
    ¬ ∀ (s : Session) (op : Operation) (e : SymbolError),
      (s.step op).1.result = .error (.symbol e) → ¬ op.CalledBack s e →
        ∃ event ∈ (s.step op).1.events, event.level = .warn ∧ event.message = e.message := by
  intro h
  have hsilent : ∀ event ∈ (lockedOut.step (.registerModule "h" ⟨"root", .root⟩)).1.events,
      event.level ≠ .warn := by
    decide +kernel
  obtain ⟨event, hmem, hlevel, -⟩ := h lockedOut (.registerModule "h" ⟨"root", .root⟩)
    (.access "Counter" .lockFailed) (by decide +kernel) id
  exact hsilent event hmem hlevel

end Session

end ConfigTree
