import ConfigTree.Proofs.RequestLookups
import ConfigTree.Proofs.PartialCopies
import ConfigTree.Session.Hosts

/-!
# Requests that warn of their errors

A request is discreet if it adds no warning and fails for no error of the configuration, and candid
if it warns of every error of the configuration that it fails for, and of nothing if it succeeds.
Most requests on a session are one or the other.  `Request.Tells` is what is left for the others:
some errors may be exempt, and a success may have warnings unless something is so.

Main results:
  * `Request.Discreet.bind`, `Request.Candid.bind`, `Request.Finds.tells` — requests in a row;
  * `Request.candid_handing`, `Request.tells_settling` — an effect and what is made of its outcome;
  * `Request.register_candid` and its like — operations that warn of their errors;
  * `Request.discreet_fill`, `Request.remove_discreet` and their like — operations that warn of
    nothing.
-/

namespace ConfigTree

open Effect (Keeps failure?)
open Surroundings (Calm)

/-- The warnings among the events around a session, in order. -/
def Session.warnings (s : Session) : List Event := s.surroundings.warnings

namespace Request

variable {α β : Type} {s : Session}

/-! ## §1. Requests that warn of nothing. -/

/-- The request `r` adds none of the `warnings`, and fails for no error of the configuration. -/
def Discreet (r : Request α) : Prop :=
  ∀ s, (r.outcome s).2.warnings = s.warnings ∧ ∀ e, (r.outcome s).1 ≠ .error (.symbol e)

theorem Discreet.bind {r : Request α} {f : α → Request β} (hr : r.Discreet)
    (hf : ∀ a, (f a).Discreet) : (r >>= f).Discreet := by
  intro s
  obtain ⟨hkept, hfails⟩ := hr s
  rw [outcome_bind]
  generalize r.outcome s = out at hkept hfails
  obtain ⟨e | a, s'⟩ := out
  · refine ⟨hkept, fun e' h => hfails e' ?_⟩
    cases h
    rfl
  · exact ⟨(hf a s').1.trans hkept, (hf a s').2⟩

theorem Discreet.map {r : Request α} (hr : r.Discreet) (f : α → β) : (f <$> r).Discreet := by
  rw [map_eq_pure_bind]
  exact hr.bind fun _ _ => ⟨rfl, nofun⟩

theorem discreet_pure (a : α) : (pure a : Request α).Discreet := fun _ => ⟨rfl, nofun⟩

theorem discreet_get : (get : Request Session).Discreet := fun _ => ⟨rfl, nofun⟩

theorem discreet_store : store.Discreet := fun _ => ⟨rfl, nofun⟩

theorem discreet_modify {f : Session → Session} (hf : ∀ s, (f s).warnings = s.warnings) :
    (modify f : Request Unit).Discreet := fun s => ⟨hf s, nofun⟩

theorem discreet_slots (f : Names Symbol → Names Symbol) :
    (modify fun s : Session => { s with slots := f s.slots } : Request Unit).Discreet :=
  discreet_modify fun _ => rfl

theorem discreet_perform {e : Effect α} (he : Keeps Calm e) : (perform e).Discreet :=
  fun s => ⟨he s.surroundings, nofun⟩

theorem discreet_require (x? : Option α) (what : Noun) : (require x? what).Discreet := by
  cases x? <;> exact fun _ => ⟨rfl, nofun⟩

theorem discreet_acceptSense (r : Except Fault α) : (acceptSense r).Discreet := by
  cases r <;> exact fun _ => ⟨rfl, nofun⟩

theorem discreet_acceptAccess (r : Except AccessError α) : (acceptAccess r).Discreet := by
  cases r <;> exact fun _ => ⟨rfl, nofun⟩

theorem discreet_slot (name : String) : (slot name).Discreet :=
  discreet_get.bind fun _ => discreet_require _ _

theorem discreet_symbol (p : Place) : (symbol p).Discreet :=
  (discreet_slot _).bind fun _ => discreet_require _ _

theorem discreet_branch (p : Place) : (branch p).Discreet :=
  (discreet_slot _).bind fun _ => discreet_require _ _

theorem discreet_scope (p : Place) : (scope p).Discreet :=
  (discreet_slot _).bind fun _ => discreet_require _ _

theorem discreet_object (p : Place) : (object p).Discreet :=
  (discreet_symbol p).bind fun _ => discreet_require _ _

theorem discreet_scalar (p : Place) : (scalar p).Discreet :=
  (discreet_symbol p).bind fun _ => discreet_require _ _

theorem discreet_host (name : String) : (host name).Discreet :=
  discreet_get.bind fun _ => discreet_require _ _

theorem discreet_resident (name : String) : (resident name).Discreet :=
  (discreet_host name).bind fun _ => discreet_store.bind fun _ =>
    (discreet_require _ _).bind fun _ => discreet_pure _

theorem discreet_cell (name : String) : (cell name).Discreet :=
  discreet_get.bind fun _ => discreet_require _ _

theorem discreet_content (name : String) : (content name).Discreet :=
  (discreet_cell name).bind fun _ => discreet_store.bind fun _ =>
    (discreet_require _ _).bind fun _ => discreet_pure _

/-- Undoing something by the request `undo` where there is no scope. -/
theorem discreet_scopeOr (p : Place) {undo : Request Unit} (h : undo.Discreet) :
    (scopeOr p undo).Discreet := by
  intro s
  obtain ⟨hkept, hfails⟩ := discreet_scope p s
  unfold scopeOr
  rw [outcome_tryCatch]
  generalize (scope p).outcome s = out at hkept hfails
  obtain ⟨e | c, s'⟩ := out
  · dsimp only
    have hthrow : (throw e : Request Scope).outcome = fun s => (.error e, s) := rfl
    obtain ⟨hkept', hfails'⟩ := h s'
    rw [outcome_bind, hthrow]
    generalize undo.outcome s' = undone at hkept' hfails'
    obtain ⟨e' | u, s''⟩ := undone
    · refine ⟨hkept'.trans hkept, fun x hx => hfails' x ?_⟩
      cases hx
      rfl
    · refine ⟨hkept'.trans hkept, fun x hx => hfails x ?_⟩
      cases hx
      rfl
  · exact ⟨hkept, nofun⟩

theorem discreet_put (p : Place) (x : Symbol) : (put p x).Discreet := by
  refine discreet_modify fun s => ?_
  cases (s.slots.get? p.slot).bind (·.replace? p.path.segments x) <;> rfl

theorem discreet_putScope (p : Place) (c : Scope) : (putScope p c).Discreet :=
  (discreet_branch p).bind fun _ => discreet_put p _

theorem discreet_fill (name : String) (x : Symbol) : (fill name x).Discreet := by
  refine discreet_get.bind fun s => (discreet_slots (·.insert name x)).bind fun _ => ?_
  cases s.slots.get? name with
  | none => exact discreet_pure ()
  | some old => exact discreet_perform old.release_calm

theorem discreet_handle (o : Origin) : (handle o).Discreet := by
  cases o with
  | own n => exact (discreet_perform (Effect.keeps_create n)).bind fun _ => discreet_pure _
  | host name => exact (discreet_host name).bind fun _ => discreet_pure _
  | boundAt p =>
    exact (discreet_object p).bind fun _ => (discreet_require _ _).bind fun _ => discreet_pure _

theorem discreet_discard (h : Handle) : (discard h).Discreet := by
  unfold discard
  split
  case isTrue => exact discreet_perform (Effect.keeps_destroy h.id)
  case isFalse => exact discreet_pure ()

theorem discreet_mapM_handle (o? : Option Origin) : (o?.mapM handle).Discreet := by
  cases o? with
  | none => exact discreet_pure none
  | some o => exact (discreet_handle o).map some

/-! ## §2. Requests that warn of their errors. -/

/-- The request `r` warns of the error of the configuration that it fails for, if it is not
`Exempt`, and succeeds without a warning just if `Through` holds. -/
def Tells (r : Request α) (s : Session) (Exempt : SymbolError → Prop) (Through : Prop) : Prop :=
  ∃ told, (r.outcome s).2.warnings = s.warnings ++ told ∧
    (∀ a, (r.outcome s).1 = .ok a → (told = [] ↔ Through)) ∧
    ∀ e, (r.outcome s).1 = .error (.symbol e) → .reported e ∈ told ∨ Exempt e

/-- The request `r` warns of every error of the configuration that it fails for, and of nothing if
it succeeds. -/
def Candid (r : Request α) : Prop := ∀ s, r.Tells s (fun _ => False) True

variable {Exempt : SymbolError → Prop} {Through : Prop}

theorem Discreet.tells {r : Request α} (h : r.Discreet) (hThrough : Through) :
    r.Tells s Exempt Through := by
  obtain ⟨hkept, hfails⟩ := h s
  exact ⟨[], hkept.trans (List.append_nil _).symm, fun _ _ => iff_of_true rfl hThrough,
    fun e he => absurd he (hfails e)⟩

theorem Discreet.candid {r : Request α} (h : r.Discreet) : r.Candid := fun _ => h.tells trivial

theorem Tells.mono {r : Request α} {Exempt' : SymbolError → Prop} (h : r.Tells s Exempt Through)
    (he : ∀ e, Exempt e → Exempt' e) : r.Tells s Exempt' Through := by
  obtain ⟨told, hrun, hok, herror⟩ := h
  exact ⟨told, hrun, hok, fun e hx => (herror e hx).imp_right (he e)⟩

theorem Candid.tells {r : Request α} (h : r.Candid) (s : Session) : r.Tells s Exempt True :=
  (h s).mono fun _ => False.elim

/-- **Candid requests `r` and `f` in a row.** Where the first succeeds it has added no warning. -/
theorem Candid.bind {r : Request α} {f : α → Request β} (hr : r.Candid) (hf : ∀ a, (f a).Candid) :
    (r >>= f).Candid := by
  intro s
  obtain ⟨told, hrun, hok, herror⟩ := hr s
  unfold Tells
  rw [outcome_bind]
  generalize r.outcome s = out at hrun hok herror
  obtain ⟨e | a, s'⟩ := out
  · refine ⟨told, hrun, nofun, fun x hx => herror x ?_⟩
    cases hx
    rfl
  · obtain rfl := (hok a rfl).2 trivial
    rw [List.append_nil] at hrun
    rw [← hrun]
    exact hf a s'

theorem Candid.map {r : Request α} (hr : r.Candid) (f : α → β) : (f <$> r).Candid := by
  rw [map_eq_pure_bind]
  exact hr.bind fun _ => (discreet_pure _).candid

theorem Tells.map {r : Request α} (h : r.Tells s Exempt Through) (f : α → β) :
    (f <$> r).Tells s Exempt Through := by
  unfold Tells at h ⊢
  rw [outcome_map]
  generalize r.outcome s = out at h
  obtain ⟨told, hrun, hok, herror⟩ := h
  obtain ⟨e | a, s'⟩ := out
  · refine ⟨told, hrun, nofun, fun x hx => herror x ?_⟩
    cases hx
    rfl
  · exact ⟨told, hrun, fun _ _ => hok a rfl, nofun⟩

/-- What is looked up before by a request that `Finds` it makes no difference to what `f` tells. -/
theorem Finds.tells {r : Request α} {x? : Option α} {f : α → Request β} (h : r.Finds s x?)
    (hf : ∀ x, x? = some x → (f x).Tells s Exempt Through) :
    (r >>= f).Tells s Exempt Through := by
  cases x? with
  | some x =>
    unfold Tells
    rw [outcome_bind_ok h]
    exact hf x rfl
  | none =>
    obtain ⟨what, hmiss⟩ := Misses.bind h f
    unfold Tells
    rw [hmiss]
    exact ⟨[], (List.append_nil _).symm, nofun, nofun⟩

/-- A request `r` that has failed for an error `x` of the configuration `Tells` it. -/
theorem tells_of_error {r : Request α} {x : SymbolError} {w : Surroundings} {told : List Event}
    (hwarnings : w.warnings = s.warnings ++ told)
    (h : r.outcome s = (.error (.symbol x), { s with surroundings := w }))
    (hx : .reported x ∈ told ∨ Exempt x) : r.Tells s Exempt Through := by
  unfold Tells
  rw [h]
  refine ⟨told, hwarnings, nofun, fun x' hx' => ?_⟩
  cases hx'
  exact hx

/-- **A `Candid` effect `e` whose error is handed on** by `k`. -/
theorem candid_handing {e : Effect (Except SymbolError α)} {k : Except SymbolError α → Request β}
    (he : Effect.Candid e failure?) (hok : ∀ a, (k (.ok a)).Candid)
    (herror : ∀ x s, (k (.error x)).outcome s = (.error (.symbol x), s)) :
    (perform e >>= k).Candid := by
  intro s
  have hrun := he s.surroundings
  unfold Tells
  rw [outcome_bind_ok (outcome_perform e s)]
  generalize e.run s.surroundings = out at hrun
  obtain ⟨x | a, w⟩ := out
  · rw [herror]
    refine ⟨_, hrun, nofun, fun x' hx => .inl ?_⟩
    cases hx
    exact List.mem_singleton_self _
  · have hkept : { s with surroundings := w }.warnings = s.warnings :=
      hrun.trans (List.append_nil _)
    rw [← hkept]
    exact hok a _

/-- The request `r` fails for the error `x` of the configuration, unless something that it needs on
the way is not there. -/
def Fails (r : Request α) (x : SymbolError) : Prop :=
  ∀ s, (r.outcome s).2.warnings = s.warnings ∧
    ∃ e, (r.outcome s).1 = .error e ∧ ∀ x', e = .symbol x' → x' = x

theorem fails_accept {r : Attempt α} {x : SymbolError} (h : r.error? = some x) :
    (accept r.result).Fails x := by
  intro s
  unfold Attempt.result
  rw [h]
  exact ⟨rfl, _, rfl, fun _ hx => by cases hx; rfl⟩

theorem Fails.bind {r : Request α} {x : SymbolError} (hr : r.Fails x) (f : α → Request β) :
    (r >>= f).Fails x := by
  intro s
  obtain ⟨hkept, e, he, hx⟩ := hr s
  rw [outcome_bind]
  generalize r.outcome s = out at hkept he
  obtain ⟨_, s'⟩ := out
  cases he
  exact ⟨hkept, e, rfl, hx⟩

theorem Discreet.fails {r : Request α} (hr : r.Discreet) {f : α → Request β} {x : SymbolError}
    (hf : ∀ a, (f a).Fails x) : (r >>= f).Fails x := by
  intro s
  obtain ⟨hkept, hfails⟩ := hr s
  rw [outcome_bind]
  generalize r.outcome s = out at hkept hfails
  obtain ⟨e | a, s'⟩ := out
  · exact ⟨hkept, e, rfl, fun x' hx => absurd (congrArg _ hx) (hfails x')⟩
  · exact ⟨(hf a s').1.trans hkept, (hf a s').2⟩

/-- **An effect `e` that may stop on the way**, whose error is handed on by `k` once what is left
has been put in place. -/
theorem tells_settling {e : Effect (Attempt α)} {k : Attempt α → Request β} {P : Prop}
    (he : e.Warns s.surroundings P) (hok : ∀ a, a.error? = none → (k a).Discreet)
    (herror : ∀ a x, a.error? = some x → (k a).Fails x)
    (hP : (e.run s.surroundings).1.error? = none → (P ↔ Through)) :
    (perform e >>= k).Tells s Exempt Through := by
  obtain ⟨told, hrun, hreported, hthrough⟩ := he
  unfold Tells
  rw [outcome_bind_ok (outcome_perform e s)]
  generalize e.run s.surroundings = out at hrun hreported hP
  obtain ⟨⟨value, _ | x⟩, w⟩ := out
  · obtain ⟨hkept, hfails⟩ := hok ⟨value, none⟩ rfl { s with surroundings := w }
    exact ⟨told, hkept.trans hrun, fun _ _ => hthrough.trans (hP rfl),
      fun x hx => absurd hx (hfails x)⟩
  · obtain ⟨hkept, failure, hfailure, hx⟩ :=
      herror ⟨value, some x⟩ x rfl { s with surroundings := w }
    refine ⟨told, hkept.trans hrun, fun a ha => ?_, fun x' hx' => .inl ?_⟩
    · cases hfailure.symm.trans ha
    · cases hfailure.symm.trans hx'
      obtain rfl := hx x' rfl
      exact hreported x' rfl

theorem discreet_accept {r : Attempt α} (h : r.error? = none) : (accept r.result).Discreet := by
  unfold Attempt.result
  rw [h]
  exact discreet_pure ()

/-- What is left is put in place by `put`, and the error handed on by `accept`. -/
theorem tells_put {e : Effect (Attempt α)} {P : Prop} (he : e.Warns s.surroundings P)
    (hP : (e.run s.surroundings).1.error? = none → (P ↔ Through)) (p : Place)
    (y : Attempt α → Symbol) :
    Tells (do
      let out ← perform e
      put p (y out)
      accept out.result) s Exempt Through :=
  tells_settling he (fun _ h => (discreet_put p _).bind fun _ => discreet_accept h)
    (fun _ _ h => (discreet_put p _).fails fun _ => fails_accept h) hP

theorem candid_put {e : Effect (Attempt α)} (he : Effect.Candid e Attempt.error?) (p : Place)
    (y : Attempt α → Symbol) :
    Candid (do
      let out ← perform e
      put p (y out)
      accept out.result) :=
  fun s => tells_put (he.warns s.surroundings) (fun h => iff_of_true h trivial) p y

/-! ## §3. Operations that warn of their errors. -/

theorem register_candid (p : Place) {f : Scope → Effect (Except SymbolError Scope)}
    (hf : ∀ c, Effect.Candid (f c) failure?) : (register p f).Candid := by
  refine (discreet_scope p).candid.bind fun c => ?_
  refine candid_handing (hf c) (fun d => Discreet.candid ?_) fun _ _ => rfl
  exact (discreet_putScope p d).bind fun _ => discreet_pure _

theorem addObject_candid (p : Place) (name description : String) (origin? : Option Origin) :
    (addObject p name description origin?).Candid := by
  refine (discreet_mapM_handle origin?).candid.bind fun h? => ?_
  cases h? with
  | none => exact register_candid p fun c => c.insert_candid _
  | some h =>
    refine (discreet_scopeOr p (discreet_discard h)).candid.bind fun _ => ?_
    exact register_candid p fun c => c.addObject_candid name description h

theorem linkCell_candid (p : Place) (name description cell : String) (default : Literal) :
    (linkCell p name description cell default).Candid := by
  refine (discreet_content cell).candid.bind fun (id, c) => ?_
  dsimp only
  cases c.type.parse? default with
  | none => exact Discreet.candid fun _ => ⟨rfl, nofun⟩
  | some x => exact register_candid p fun c => c.addLinked_candid name description _ _

theorem linkField_candid (p : Place) (name description : String) (f : Field)
    (default : f.type.Raw) : (linkField p name description f default).Candid := by
  refine (discreet_object p).candid.bind fun o => ?_
  exact candid_handing (o.linkField_candid name description f default)
    (fun o => (discreet_put p (.ofObject o)).candid) fun _ _ => rfl

theorem setupConfig_candid (p : Place) (settings : List Setting) :
    (setupConfig p settings).Candid :=
  (discreet_object p).candid.bind fun o => candid_put (o.linkSettings_candid settings) p _

theorem insert_candid (source : String) (p : Place) : (insert source p).Candid := by
  refine (discreet_slot source).candid.bind fun x => ?_
  refine (discreet_slots (·.erase source)).candid.bind fun _ => ?_
  refine (discreet_scopeOr p (discreet_slots (·.insert source x))).candid.bind fun _ => ?_
  exact register_candid p fun c => c.insert_candid x

theorem set_candid (p : Place) (v : Value) : (set p v).Candid :=
  (discreet_scalar p).candid.bind fun x => candid_put (x.set_candid v) p _

theorem assignValue_candid (p : Place) (target : Path) (v : Value) :
    (assignValue p target v).Candid :=
  (discreet_branch p).candid.bind fun x => candid_put (x.assignValue_candid target v) p _

theorem clone_candid (p : Place) (into : String) : (clone p into).Candid := by
  refine (discreet_symbol p).candid.bind fun x => ?_
  exact candid_handing x.tryClone_candid (fun y => (discreet_fill into y).candid) fun _ _ => rfl

theorem nativeGet_candid (p : Place) (t : NativeType) : (nativeGet p t).Candid := by
  refine (discreet_object p).candid.bind fun o => ?_
  refine candid_handing (o.objectAs_candid t) (fun r => Discreet.candid ?_) fun _ _ => rfl
  cases r <;> exact fun _ => ⟨rfl, nofun⟩

theorem nativeSet_candid (p : Place) (t : NativeType) (field? : Option FieldName) (x : Literal) :
    (nativeSet p t field? x).Candid := by
  refine (discreet_object p).candid.bind fun o => ?_
  refine candid_handing (o.updateObjectAs_candid t _) (fun r => Discreet.candid ?_) fun _ _ => rfl
  cases r with
  | error m => exact fun _ => ⟨rfl, nofun⟩
  | ok r => exact discreet_acceptSense r

theorem objectSet_candid (p : Place) (field? : Option FieldName) (x : Literal) :
    (objectSet p field? x).Candid := by
  refine (discreet_object p).candid.bind fun o => ?_
  exact candid_handing (o.updateObject_candid _) (fun r => (discreet_acceptSense r).candid)
    fun _ _ => rfl

theorem setVar_candid (p : Place) (name : String) (v : Value) : (setVar p name v).Candid := by
  refine (discreet_object p).candid.bind fun o => ?_
  refine candid_handing (o.updateObjectAs_candid .organism _) (fun r => Discreet.candid ?_)
    fun _ _ => rfl
  cases r <;> exact fun _ => ⟨rfl, nofun⟩

theorem getVar_candid (p : Place) (name : String) : (getVar p name).Candid := by
  refine (nativeGet_candid p .organism).bind fun n => Discreet.candid ?_
  obtain ⟨_ | _ | _, _⟩ := n <;> exact discreet_pure _

/-! ## §4. Operations that warn of nothing. -/

theorem newLinked_discreet (slot name description cellName : String) :
    (newLinked slot name description cellName).Discreet :=
  (discreet_cell cellName).bind fun _ => discreet_fill slot _

theorem newObject_discreet (slot name description : String) (origin? : Option Origin) :
    (newObject slot name description origin?).Discreet :=
  (discreet_mapM_handle origin?).bind fun _ => discreet_fill slot _

theorem dropSlot_discreet (name : String) : (dropSlot name).Discreet :=
  (discreet_slot name).bind fun x => (discreet_slots (·.erase name)).bind fun _ =>
    discreet_perform x.release_calm

theorem remove_discreet (p : Place) (name : String) (into? : Option String) :
    (remove p name into?).Discreet := by
  refine (discreet_scope p).bind fun c => (discreet_perform (c.remove_calm name)).bind fun out? => ?_
  cases out? with
  | none => exact discreet_pure none
  | some out =>
    refine (discreet_putScope p out.2).bind fun _ => ?_
    cases into? with
    | some slot => exact (discreet_fill slot out.1).bind fun _ => discreet_pure _
    | none => exact (discreet_perform out.1.release_calm).bind fun _ => discreet_pure _

theorem setPolicy_discreet (p : Place) (policy : CopyPolicy) : (setPolicy p policy).Discreet :=
  (discreet_scope p).bind fun _ => discreet_putScope p _

theorem binding_discreet (p : Place) : (binding p).Discreet :=
  (discreet_object p).bind fun _ => discreet_store.bind fun _ => discreet_pure _

theorem sameObject_discreet (a b : Place) : (sameObject a b).Discreet := by
  refine (discreet_object a).bind fun _ => (discreet_require _ _).bind fun _ => ?_
  exact (discreet_object b).bind fun _ => (discreet_require _ _).bind fun _ => discreet_pure _

theorem take_discreet (p : Place) (into : String) : (take p into).Discreet := by
  refine (discreet_object p).bind fun o => (discreet_perform o.take_calm).bind fun out => ?_
  exact (discreet_put p _).bind fun _ => discreet_fill into _

/-- Putting another store in place by `putStore` is `Discreet`. -/
theorem discreet_putStore (f : Store → Store) :
    (store >>= fun s => perform (Effect.putStore (f s))).Discreet :=
  discreet_store.bind fun _ => discreet_perform (Effect.keeps_putStore _)

theorem newHost_discreet (name : String) (n : Native) : (newHost name n).Discreet := by
  refine discreet_get.bind fun s => (discreet_perform (Effect.keeps_create n)).bind fun id => ?_
  refine Discreet.bind (fun _ => ⟨rfl, nofun⟩) fun _ => ?_
  cases s.hosts.get? name with
  | none => exact discreet_pure ()
  | some old => exact discreet_perform (Effect.keeps_destroy old)

theorem dropHost_discreet (name : String) : (dropHost name).Discreet :=
  (discreet_host name).bind fun id => Discreet.bind (fun _ => ⟨rfl, nofun⟩) fun _ =>
    discreet_perform (Effect.keeps_destroy id)

theorem hostSet_discreet (name : String) (field? : Option FieldName) (x : Literal) :
    (hostSet name field? x).Discreet := by
  refine (discreet_resident name).bind fun (id, r) => ?_
  dsimp only
  split
  case isTrue => exact fun _ => ⟨rfl, nofun⟩
  case isFalse =>
    exact (discreet_acceptSense _).bind fun n => discreet_putStore (·.setNative id n)

theorem poisonHost_discreet (name : String) : (poisonHost name).Discreet :=
  (discreet_host name).bind fun id => discreet_putStore (·.poisonObject id)

theorem hostCopy_discreet (name source : String) (custom : Bool) :
    (hostCopy name source custom).Discreet := by
  have hreplace (id : ObjectId) (n? : Option Native) : (hostCopy.replace id n?).Discreet := by
    cases n? with
    | none => exact discreet_pure _
    | some n => exact discreet_store.bind fun _ =>
        (discreet_perform (Effect.keeps_putStore _)).bind fun _ => discreet_pure _
  refine (discreet_host name).bind fun dst => (discreet_host source).bind fun src => ?_
  refine discreet_store.bind fun s => (discreet_acceptAccess _).bind fun a => ?_
  refine (discreet_acceptAccess _).bind fun b => ?_
  split
  case isFalse => exact hreplace dst _
  case isTrue =>
    cases a.describe.strategy? with
    | none => exact discreet_pure none
    | some strategy => exact hreplace dst _

theorem newCell_discreet (name : String) (t : StorageType) (x : t.Raw) :
    (newCell name t x).Discreet :=
  discreet_store.bind fun _ => (discreet_perform (Effect.keeps_putStore _)).bind fun _ =>
    fun _ => ⟨rfl, nofun⟩

theorem dropCell_discreet (name : String) : (dropCell name).Discreet :=
  (discreet_cell name).bind fun _ _ => ⟨rfl, nofun⟩

theorem cellSet_discreet (name : String) (x : Literal) : (cellSet name x).Discreet := by
  refine (discreet_content name).bind fun (id, c) => ?_
  dsimp only
  split
  case isTrue => exact fun _ => ⟨rfl, nofun⟩
  case isFalse =>
    cases c.type.parse? x with
    | none => exact fun _ => ⟨rfl, nofun⟩
    | some raw => exact discreet_putStore (·.setCell id _)

theorem poisonCell_discreet (name : String) : (poisonCell name).Discreet :=
  (discreet_content name).bind fun (id, _) => discreet_putStore (·.setCell id _)

end Request

end ConfigTree
