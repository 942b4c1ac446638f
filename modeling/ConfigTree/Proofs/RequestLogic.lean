import ConfigTree.Proofs.Tree
import ConfigTree.Session.Request

/-!
# Reasoning about requests

A request may fail at any point and keeps what it has changed by then.  `Request.Leads` says where a
request leads from a session: to sessions with a property that may speak of the answer if it
succeeds, and to sessions with another property if it fails.  There is a rule for each of the steps
that requests are made of, so that a fact about a request is proved along its text.

Main results:
  * `Request.Leads.bind` — requests in a row;
  * `Request.leads_symbol`, `Request.leads_scope` and their like — what is known of what is found;
  * `Request.Silent.bind` — requests that only ask change nothing.
-/

namespace ConfigTree

namespace Request

variable {α β : Type} {s : Session} {Q : α → Session → Prop} {E : Session → Prop}

/-! ## §1. Where a request leads. -/

/-- The outcome of the request `r` and the session after it. -/
def outcome (r : Request α) (s : Session) : Except Failure α × Session := (ExceptT.run r).run s

/-- The request `r` leads from `s` to a session with `Q` if it succeeds and to one with `E` if it
fails. -/
def Leads (r : Request α) (s : Session) (Q : α → Session → Prop) (E : Session → Prop) : Prop :=
  match r.outcome s with
  | (.ok a, s') => Q a s'
  | (.error _, s') => E s'

theorem outcome_bind (r : Request α) (f : α → Request β) (s : Session) :
    (r >>= f).outcome s = match r.outcome s with
      | (.ok a, s') => (f a).outcome s'
      | (.error e, s') => (.error e, s') := by
  unfold outcome
  rw [ExceptT.run_bind, StateT.run_bind]
  generalize (ExceptT.run r).run s = out
  obtain ⟨e | a, s'⟩ := out <;> rfl

/-- **Requests in a row**: what `r` answers goes on into `f`. -/
theorem Leads.bind {r : Request α} {f : α → Request β} {Q : β → Session → Prop}
    (h : r.Leads s (fun a s' => (f a).Leads s' Q E) E) : (r >>= f).Leads s Q E := by
  unfold Leads at h ⊢
  rw [outcome_bind]
  generalize r.outcome s = out at h
  obtain ⟨e | a, s'⟩ := out <;> exact h

theorem Leads.map {r : Request α} {f : α → β} {Q : β → Session → Prop}
    (h : r.Leads s (fun a s' => Q (f a) s') E) : (f <$> r).Leads s Q E := by
  rw [map_eq_pure_bind]
  exact Leads.bind h

theorem Leads.mono {r : Request α} {Q' : α → Session → Prop} {E' : Session → Prop}
    (h : r.Leads s Q E) (hQ : ∀ a s', Q a s' → Q' a s') (hE : ∀ s', E s' → E' s') :
    r.Leads s Q' E' := by
  unfold Leads at h ⊢
  generalize r.outcome s = out at h
  obtain ⟨e | a, s'⟩ := out
  · exact hE s' h
  · exact hQ a s' h

theorem leads_modify {f : Session → Session} {Q : Unit → Session → Prop} (h : Q () (f s)) :
    (modify f : Request Unit).Leads s Q E := h

theorem leads_get {Q : Session → Session → Prop} (h : Q s s) :
    (get : Request Session).Leads s Q E := h

theorem leads_store {Q : Store → Session → Prop} (h : Q s.surroundings.store s) :
    store.Leads s Q E := h

theorem leads_perform {e : Effect α}
    (h : Q (e.run s.surroundings).1 { s with surroundings := (e.run s.surroundings).2 }) :
    (perform e).Leads s Q E := h

/-- In this stack a failure keeps the session, so the rescue `f` goes on from there. -/
theorem outcome_tryCatch (r : Request α) (f : Failure → Request α) (s : Session) :
    (tryCatch r f).outcome s = match r.outcome s with
      | (.ok a, s') => (.ok a, s')
      | (.error e, s') => (f e).outcome s' := by
  show (ExceptT.run (ExceptT.tryCatch r f)).run s = _
  unfold outcome ExceptT.tryCatch
  show StateT.run (ExceptT.run r >>= _) s = _
  rw [StateT.run_bind]
  generalize (ExceptT.run r).run s = out
  obtain ⟨e | a, s'⟩ := out <;> rfl

/-- What `f` does on a failure is done in the session that the failure left. -/
theorem leads_tryCatch {r : Request α} {f : Failure → Request α}
    (h : r.Leads s Q fun s' => ∀ e, (f e).Leads s' Q E) : (tryCatch r f).Leads s Q E := by
  unfold Leads at h ⊢
  rw [outcome_tryCatch]
  generalize r.outcome s = out at h
  obtain ⟨e | a, s'⟩ := out
  · exact h e
  · exact h

/-! ## §2. Outcomes that may be errors. -/

theorem leads_require {x? : Option α} {what : Noun} (h : ∀ x, x? = some x → Q x s) (hE : E s) :
    (require x? what).Leads s Q E := by
  cases x? with
  | none => exact hE
  | some x => exact h x rfl

theorem leads_require_of_some {x? : Option α} {x : α} {what : Noun} (hx : x? = some x)
    (h : Q x s) : (require x? what).Leads s Q E := by
  rw [hx]
  exact h

theorem leads_accept {r : Except SymbolError α} (h : ∀ a, r = .ok a → Q a s) (hE : E s) :
    (accept r).Leads s Q E := by
  cases r with
  | error e => exact hE
  | ok a => exact h a rfl

theorem leads_acceptTyped {r : Except SymbolError (Except Mistyped α)} (h : ∀ a, Q a s)
    (hE : E s) : (acceptTyped r).Leads s Q E := by
  rcases r with e | m | a
  · exact hE
  · exact hE
  · exact h a

/-! ## §3. Finding things. -/

end Request

/-- The symbol at the place `p` of the session `s`. -/
def Session.symbol? (s : Session) (p : Place) : Option Symbol :=
  (s.slots.get? p.slot).bind (·.descend? p.path.segments)

namespace Request

theorem leads_slot {name : String} {Q : Symbol → Session → Prop}
    (h : ∀ x, s.slots.get? name = some x → Q x s) (hE : E s) : (slot name).Leads s Q E :=
  leads_require h hE

theorem leads_symbol {p : Place} {Q : Symbol → Session → Prop}
    (h : ∀ x, s.symbol? p = some x → Q x s) (hE : E s) : (symbol p).Leads s Q E := by
  refine Leads.bind (leads_slot (fun tree htree => leads_require (fun x hx => h x ?_) hE) hE)
  rw [Session.symbol?, htree, Option.bind_some, hx]

/-- A symbol that `symbol?` knows to be there is found. -/
theorem leads_symbol_of_some {p : Place} {x : Symbol} {Q : Symbol → Session → Prop}
    (hx : s.symbol? p = some x) (h : Q x s) : (symbol p).Leads s Q E := by
  obtain ⟨tree, htree, hdescend⟩ := Option.bind_eq_some_iff.1 hx
  refine Leads.bind (Leads.bind (leads_get (leads_require_of_some htree ?_)))
  exact leads_require_of_some hdescend h

theorem leads_branch {p : Place} {Q : Symbol → Session → Prop}
    (h : ∀ x, s.symbol? p = some x → Q x s) (hE : E s) : (branch p).Leads s Q E := by
  refine Leads.bind (leads_slot (fun tree htree => leads_require (fun x hx => h x ?_) hE) hE)
  rw [Session.symbol?, htree, Option.bind_some]
  exact (Option.filter_eq_some_iff.1 hx).1

theorem leads_scope {p : Place} {Q : Scope → Session → Prop}
    (h : ∀ role c, s.symbol? p = some (.branch role c.info c.policy c.children) → Q c s)
    (hE : E s) : (scope p).Leads s Q E := by
  refine Leads.bind (leads_slot (fun tree htree => leads_require (fun c hc => ?_) hE) hE)
  obtain ⟨x, hx, hscope⟩ := Option.bind_eq_some_iff.1 hc
  obtain ⟨role, rfl⟩ := Symbol.eq_of_scope? hscope
  exact h role c (by rw [Session.symbol?, htree, Option.bind_some, hx])

/-- A branch that `symbol?` knows to be there is found. -/
theorem leads_branch_of_some {p : Place} {role : Role} {info : Info} {policy : CopyPolicy}
    {cs : List Symbol} {Q : Symbol → Session → Prop}
    (hx : s.symbol? p = some (.branch role info policy cs))
    (h : Q (.branch role info policy cs) s) : (branch p).Leads s Q E := by
  obtain ⟨tree, htree, hdescend⟩ := Option.bind_eq_some_iff.1 hx
  -- a branch of either role counts as a scope
  have hkind : (Symbol.branch role info policy cs).kind.isScope = true := by cases role <;> rfl
  refine Leads.bind (Leads.bind (leads_get (leads_require_of_some htree ?_)))
  refine leads_require_of_some ?_ h
  rw [hdescend, Option.filter_some, if_pos hkind]

/-- A scope that `symbol?` knows to be there is found. -/
theorem leads_scope_of_some {p : Place} {role : Role} {c : Scope} {Q : Scope → Session → Prop}
    (hx : s.symbol? p = some (.branch role c.info c.policy c.children)) (h : Q c s) :
    (scope p).Leads s Q E := by
  obtain ⟨tree, htree, hdescend⟩ := Option.bind_eq_some_iff.1 hx
  refine Leads.bind (Leads.bind (leads_get (leads_require_of_some htree ?_)))
  refine leads_require_of_some ?_ h
  rw [Symbol.scopeAt?, hdescend]
  rfl

theorem leads_object {p : Place} {Q : ObjectBinding → Session → Prop}
    (h : ∀ o, s.symbol? p = some (.ofObject o) → Q o s) (hE : E s) : (object p).Leads s Q E := by
  refine Leads.bind (leads_symbol (fun x hx => leads_require (fun o ho => h o ?_) hE) hE)
  rw [hx, Symbol.eq_of_object? ho]

theorem leads_scalar {p : Place} {Q : Scalar → Session → Prop}
    (h : ∀ x, s.symbol? p = some (.scalar x) → Q x s) (hE : E s) : (scalar p).Leads s Q E := by
  refine Leads.bind (leads_symbol (fun x hx => leads_require (fun y hy => h y ?_) hE) hE)
  cases x with
  | scalar z => cases hy; exact hx
  | _ => cases hy

theorem leads_function {p : Place} {Q : Function → Session → Prop} (h : ∀ f, Q f s) (hE : E s) :
    (function p).Leads s Q E :=
  Leads.bind (leads_symbol (fun _ _ => leads_require (fun f _ => h f) hE) hE)

theorem leads_host {name : String} {Q : ObjectId → Session → Prop}
    (h : ∀ id, s.hosts.get? name = some id → Q id s) (hE : E s) : (host name).Leads s Q E :=
  leads_require h hE

theorem leads_resident {name : String} {Q : ObjectId × Resident → Session → Prop}
    (h : ∀ id r, s.hosts.get? name = some id → s.surroundings.store.object? id = some r →
      Q (id, r) s) (hE : E s) : (resident name).Leads s Q E :=
  Leads.bind (leads_host (fun id hid => Leads.bind (leads_store (Leads.bind
    (leads_require (fun r hr => h id r hid hr) hE)))) hE)

theorem leads_content {name : String} {Q : CellId × Cell → Session → Prop}
    (h : ∀ id c, s.cells.get? name = some id → Q (id, c) s) (hE : E s) :
    (content name).Leads s Q E :=
  Leads.bind (leads_require (fun id hid => Leads.bind (leads_store (Leads.bind
    (leads_require (fun c _ => h id c hid) hE)))) hE)

/-! ## §4. Requests that only ask. -/

/-- The request `r` leaves the session as it is. -/
def Silent (r : Request α) : Prop := ∀ s, (r.outcome s).2 = s

theorem Silent.bind {r : Request α} {f : α → Request β} (hr : r.Silent) (hf : ∀ a, (f a).Silent) :
    (r >>= f).Silent := by
  intro s
  have h := hr s
  rw [outcome_bind]
  revert h
  generalize r.outcome s = out
  obtain ⟨e | a, s'⟩ := out <;> intro h
  · exact h
  · exact (hf a s').trans h

theorem Silent.map {r : Request α} (hr : r.Silent) (f : α → β) : (f <$> r).Silent := by
  rw [map_eq_pure_bind]
  exact hr.bind fun _ _ => rfl

/-- A `Silent` request leads to where one is. -/
theorem Silent.leads {r : Request α} (hr : r.Silent) (hQ : ∀ a, Q a s) (hE : E s) :
    r.Leads s Q E := by
  have h := hr s
  unfold Leads
  revert h
  generalize r.outcome s = out
  obtain ⟨e | a, s'⟩ := out <;> intro h
  · rw [show s' = s from h]
    exact hE
  · rw [show s' = s from h]
    exact hQ a

theorem silent_require (x? : Option α) (what : Noun) : (require x? what).Silent := by
  cases x? <;> exact fun _ => rfl

theorem silent_accept (r : Except SymbolError α) : (accept r).Silent := by
  cases r <;> exact fun _ => rfl

theorem silent_acceptTyped (r : Except SymbolError (Except Mistyped α)) :
    (acceptTyped r).Silent := by
  rcases r with _ | _ | _ <;> exact fun _ => rfl

theorem silent_get : (get : Request Session).Silent := fun _ => rfl

theorem silent_store : store.Silent := fun _ => rfl

theorem silent_slot (name : String) : (slot name).Silent :=
  silent_get.bind fun _ => silent_require _ _

theorem silent_symbol (p : Place) : (symbol p).Silent :=
  (silent_slot _).bind fun _ => silent_require _ _

theorem silent_branch (p : Place) : (branch p).Silent :=
  (silent_slot _).bind fun _ => silent_require _ _

theorem silent_scope (p : Place) : (scope p).Silent :=
  (silent_slot _).bind fun _ => silent_require _ _

theorem silent_object (p : Place) : (object p).Silent :=
  (silent_symbol p).bind fun _ => silent_require _ _

theorem silent_scalar (p : Place) : (scalar p).Silent :=
  (silent_symbol p).bind fun _ => silent_require _ _

theorem silent_function (p : Place) : (function p).Silent :=
  (silent_symbol p).bind fun _ => silent_require _ _

theorem silent_host (name : String) : (host name).Silent :=
  silent_get.bind fun _ => silent_require _ _

theorem silent_resident (name : String) : (resident name).Silent :=
  (silent_host name).bind fun _ => silent_store.bind fun _ =>
    (silent_require _ _).bind fun _ _ => rfl

theorem silent_cell (name : String) : (cell name).Silent :=
  silent_get.bind fun _ => silent_require _ _

theorem silent_content (name : String) : (content name).Silent :=
  (silent_cell name).bind fun _ => silent_store.bind fun _ =>
    (silent_require _ _).bind fun _ _ => rfl

end Request

end ConfigTree
