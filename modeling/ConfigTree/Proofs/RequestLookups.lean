import ConfigTree.Proofs.RequestLogic
import ConfigTree.Session.Trees

/-!
# What requests find

A request that looks something up either has it, and the session is as it was, or fails for want of
it.  What it has can be told from the session without running the request: `Session.scope?` and the
like say what there is.

Main results:
  * `Request.Finds.bind` — looking up one thing after another;
  * `Request.finds_scope`, `Request.finds_object`, `Request.finds_content` — what is looked up for a
    registration;
  * `Request.outcome_scopeOr_of_some`, `Request.outcome_scopeOr_of_none` — undoing something where
    there is no scope.
-/

namespace ConfigTree

/-! ## §1. What there is. -/

namespace Session

/-- The scope of the symbol at the place `p`. -/
def scope? (s : Session) (p : Place) : Option Scope := (s.symbol? p).bind Symbol.scope?

/-- The object symbol at the place `p`. -/
def object? (s : Session) (p : Place) : Option ObjectBinding := (s.symbol? p).bind Symbol.object?

/-- The cell that the host calls `name` and what it holds. -/
def content? (s : Session) (name : String) : Option (CellId × Cell) :=
  (s.cells.get? name).bind fun id => (s.surroundings.store.cell? id).map (id, ·)

/-- The object that the host calls `name` and the `Resident` that is kept of it. -/
def resident? (s : Session) (name : String) : Option (ObjectId × Resident) :=
  (s.hosts.get? name).bind fun id => (s.surroundings.store.object? id).map (id, ·)

theorem symbol?_eq_some {s : Session} {p : Place} {x : Symbol} :
    s.symbol? p = some x ↔
      ∃ tree, s.slots.get? p.slot = some tree ∧ tree.descend? p.path.segments = some x :=
  Option.bind_eq_some_iff

theorem scope?_eq_some {s : Session} {p : Place} {c : Scope} :
    s.scope? p = some c ↔ ∃ x, s.symbol? p = some x ∧ x.scope? = some c :=
  Option.bind_eq_some_iff

theorem object?_eq_some {s : Session} {p : Place} {o : ObjectBinding} :
    s.object? p = some o ↔ s.symbol? p = some (.ofObject o) := by
  constructor
  · intro h
    obtain ⟨x, hx, ho⟩ := Option.bind_eq_some_iff.1 h
    rw [hx, Symbol.eq_of_object? ho]
  · intro h
    rw [object?, h]
    rfl

theorem object?_of_resident? {s : Session} {name : String} {id : ObjectId}
    {r : Resident}
    (h : s.resident? name = some (id, r)) : s.surroundings.store.object? id = some r := by
  obtain ⟨id', -, h⟩ := Option.bind_eq_some_iff.1 h
  obtain ⟨r', hr, h⟩ := Option.map_eq_some_iff.1 h
  cases h
  exact hr

end Session

namespace Request

variable {α β : Type} {s s' : Session}

/-! ## §2. Looking up. -/

/-- The request `r` asks for something that is not there, and the session stays `s`. -/
def Misses (r : Request α) (s : Session) : Prop :=
  ∃ what, r.outcome s = (.error (.missing what), s)

/-- The request `r` looks up `x?`: with `some` it returns what there is, with `none` it `Misses`,
and nothing changes. -/
def Finds (r : Request α) (s : Session) (x? : Option α) : Prop :=
  match x? with
  | some x => r.outcome s = (.ok x, s)
  | none => r.Misses s

/-- A request that `Misses` ends there, whatever `f` follows. -/
theorem Misses.bind {r : Request α} (h : r.Misses s) (f : α → Request β) : (r >>= f).Misses s := by
  obtain ⟨what, h⟩ := h
  refine ⟨what, ?_⟩
  rw [outcome_bind, h]

/-- A request that returns `a` goes on with `f a`. -/
theorem outcome_bind_ok {r : Request α} {a : α} (h : r.outcome s = (.ok a, s'))
    (f : α → Request β) : (r >>= f).outcome s = (f a).outcome s' := by
  rw [outcome_bind, h]

theorem outcome_perform (e : Effect α) (s : Session) : (perform e).outcome s =
    (.ok (e.run s.surroundings).1, { s with surroundings := (e.run s.surroundings).2 }) := rfl

theorem outcome_map (r : Request α) (f : α → β) (s : Session) :
    (f <$> r).outcome s = ((r.outcome s).1.map f, (r.outcome s).2) := by
  rw [map_eq_pure_bind, outcome_bind]
  generalize r.outcome s = out
  obtain ⟨e | a, s'⟩ := out <;> rfl

/-- **Looking up one thing after another**: what `Finds` shows of `r` and of every `f x` is bound as
`x?.bind g`. -/
theorem Finds.bind {r : Request α} {x? : Option α} {f : α → Request β} {g : α → Option β}
    (h : r.Finds s x?) (hf : ∀ x, x? = some x → (f x).Finds s (g x)) :
    (r >>= f).Finds s (x?.bind g) := by
  cases x? with
  | none => exact Misses.bind h f
  | some x =>
    have hx := hf x rfl
    unfold Finds Misses at hx ⊢
    rw [outcome_bind_ok h]
    exact hx

/-- What `r` `Finds` is computed on by `f`. -/
theorem Finds.map {r : Request α} {x? : Option α} (h : r.Finds s x?) (f : α → β) :
    (r >>= fun x => pure (f x)).Finds s (x?.map f) := by
  rw [Option.map_eq_bind]
  exact h.bind fun _ _ => rfl

theorem finds_require (x? : Option α) (what : Noun) : (require x? what).Finds s x? := by
  cases x? with
  | none => exact ⟨what, rfl⟩
  | some x => rfl

theorem finds_slot (name : String) : (slot name).Finds s (s.slots.get? name) :=
  finds_require _ _

theorem finds_symbol (p : Place) : (symbol p).Finds s (s.symbol? p) :=
  (finds_slot _).bind fun _ _ => finds_require _ _

theorem finds_scope (p : Place) : (scope p).Finds s (s.scope? p) := by
  have h : (scope p).Finds s ((s.slots.get? p.slot).bind (·.scopeAt? p.path)) :=
    (finds_slot _).bind fun _ _ => finds_require _ _
  rw [Session.scope?, Session.symbol?, Option.bind_assoc]
  exact h

theorem finds_object (p : Place) : (object p).Finds s (s.object? p) :=
  (finds_symbol p).bind fun _ _ => finds_require _ _

theorem finds_host (name : String) : (host name).Finds s (s.hosts.get? name) :=
  finds_require _ _

theorem finds_content (name : String) : (content name).Finds s (s.content? name) := by
  have hcell : (cell name).Finds s (s.cells.get? name) := finds_require _ _
  refine hcell.bind fun id _ => ?_
  have hstore : store.outcome s = (.ok s.surroundings.store, s) := rfl
  have hfound : (require (s.surroundings.store.cell? id) .cell).Finds s
      (s.surroundings.store.cell? id) := finds_require _ _
  have hpair := hfound.map (id, ·)
  unfold Finds Misses at hpair ⊢
  rw [outcome_bind_ok hstore]
  exact hpair

theorem finds_resident (name : String) : (resident name).Finds s (s.resident? name) := by
  refine (finds_host name).bind fun id _ => ?_
  have hstore : store.outcome s = (.ok s.surroundings.store, s) := rfl
  have hfound := (finds_require (s := s) (s.surroundings.store.object? id) .host).map (id, ·)
  unfold Finds Misses at hfound ⊢
  rw [outcome_bind_ok hstore]
  exact hfound

theorem finds_branch (p : Place) :
    (branch p).Finds s ((s.symbol? p).filter (·.kind.isScope)) := by
  have hfilter : (s.symbol? p).filter (·.kind.isScope) = (s.slots.get? p.slot).bind fun tree =>
      (tree.descend? p.path.segments).filter (·.kind.isScope) := by
    rw [Session.symbol?]
    cases s.slots.get? p.slot <;> rfl
  rw [hfilter]
  exact (finds_slot _).bind fun _ _ => finds_require _ _

/-- The symbol `x` at the place `p` is found by `branch` where there is a scope. -/
theorem outcome_branch {p : Place} {x : Symbol} {c : Scope} (hx : s.symbol? p = some x)
    (hc : x.scope? = some c) : (branch p).outcome s = (.ok x, s) := by
  obtain ⟨role, rfl⟩ := Symbol.eq_of_scope? hc
  obtain ⟨tree, htree, hdescend⟩ := Session.symbol?_eq_some.1 hx
  have hslot := finds_slot (s := s) p.slot
  rw [htree] at hslot
  rw [branch, outcome_bind_ok hslot, hdescend]
  -- a branch of either role counts as a scope
  cases role <;> rfl

/-! ## §3. Undoing what came before. -/

theorem outcome_scopeOr_of_some {p : Place} {c : Scope} (h : s.scope? p = some c)
    (undo : Request Unit) : (scopeOr p undo).outcome s = (.ok c, s) := by
  have hfinds := finds_scope (s := s) p
  rw [h] at hfinds
  unfold scopeOr
  rw [outcome_tryCatch, show (scope p).outcome s = _ from hfinds]

theorem outcome_scopeOr_of_none {p : Place} {undo : Request Unit} (h : s.scope? p = none)
    (hundo : undo.outcome s = (.ok (), s')) :
    ∃ what, (scopeOr p undo).outcome s = (.error (.missing what), s') := by
  have hfinds := finds_scope (s := s) p
  rw [h] at hfinds
  obtain ⟨what, hmiss⟩ := hfinds
  refine ⟨what, ?_⟩
  unfold scopeOr
  rw [outcome_tryCatch, hmiss]
  dsimp only
  rw [outcome_bind_ok hundo]
  rfl

end Request

end ConfigTree
