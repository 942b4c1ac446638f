import Mathlib.Data.Sigma.Basic
import ConfigTree.Proofs.RequestLookups
import ConfigTree.Proofs.ScopeOffers
import ConfigTree.Proofs.SoundSteps

/-!
# Registration is all or nothing

Seven operations register something.  Each of them looks up what it needs, offers a symbol to a
scope, and puts the scope back into its tree if it took the offer.  `Session.offer?` tells from the
session alone what an operation offers, so that the operation can be said to decide that offer.

Main results:
  * `Request.decides_register`, `Request.decides_linkField` — an offer is refused and nothing but
    the symbol is lost, or taken and nothing but the scope and the default is new;
  * `Session.registration_atomic` — every operation that registers something decides its offer, and
    changes nothing if it finds nothing to offer.
-/

namespace ConfigTree

/-! ## §1. What a registration leaves. -/

namespace Session

/-- Nothing was registered between `s` and `s'`: every slot holds the tree that it held, except the
`emptied` ones, and every object and every cell is as it was, except that the objects in `gone` are
gone. -/
structure Spared (s s' : Session) (gone : List ObjectId) (emptied : List String) : Prop where
  /-- The host holds the objects `hosts` that it held. -/
  hosts : s'.hosts = s.hosts
  /-- The host holds the cells `cells` that it held. -/
  cells : s'.cells = s.cells
  /-- The trees are what they were, but for the `emptied` slots. -/
  slots : ∀ name, s'.slots.get? name =
    if name ∈ emptied then none else s.slots.get? name
  /-- Objects and cells are what they were `Without` those in `gone`. -/
  without : s.surroundings.Without gone s'.surroundings

/-- The offer `o` was taken at the place `p`: the scope has one more child, at the end, and nothing
else has changed in any tree, in the objects that were there, or in the cells, but for the storage
of the default. -/
structure Entered (s s' : Session) (p : Place) (o : Offer) (emptied : List String) : Prop where
  /-- The host holds the objects `hosts` that it held. -/
  hosts : s'.hosts = s.hosts
  /-- The host holds the cells `cells` that it held. -/
  cells : s'.cells = s.cells
  /-- The scope has one more child at the end, `o.entered`. -/
  scope : s'.scope? p = some (o.scope.append o.entered)
  /-- The child is found by its name `o.name`. -/
  found : (o.scope.append o.entered).lookup? o.name = some o.entered
  /-- The tree `old` is what it was but for the scope, now `new`, and the other trees are what they
  were, but for the `emptied` slots. -/
  slots : ∃ old x new, s.slots.get? p.slot = some old ∧
    old.descend? p.path.segments = some x ∧ x.scope? = some o.scope ∧
    old.replace? p.path.segments (x.withScope (o.scope.append o.entered)) = some new ∧
    ∀ name, s'.slots.get? name = if name = p.slot then some new
      else if name ∈ emptied then none else s.slots.get? name
  /-- Objects are as they were, but for one that was made for the symbol, in `o.symbol.owned`, and
  for the one that `o.default?` was written to. -/
  object : ∀ id, (id ∈ o.symbol.owned → s.surroundings.store.isLive id = true) →
    (∀ l content, o.default? = some (l, content) → id ∉ l.objects) →
      s'.surroundings.store.object? id = s.surroundings.store.object? id
  /-- Cells are as they were, but for the one that `o.default?` was written to. -/
  cell : ∀ id, (∀ l content, o.default? = some (l, content) → id ∉ l.cells) →
    s'.surroundings.store.cell? id = s.surroundings.store.cell? id
  /-- The storage holds the default `settled`, every other link `k` leads to what it led to, and the
  new scalar `y` shows the value `v` of the default. -/
  default : ∀ l t x, o.default? = some (l, ⟨t, x⟩) →
    l.content? s'.surroundings.store = some ⟨t, t.settled x⟩ ∧
      (∀ k, k ≠ l → k.content? s'.surroundings.store = k.content? s.surroundings.store) ∧
      ∃ y v, o.entered = .scalar y ∧ t.toValue? x = some v ∧
        y.value.run s'.surroundings = (.ok v, s'.surroundings)

/-- What becomes of the offer `o`: the first `Offer.obstacle?` refuses it, and then the symbol is
dropped with what it owns and nothing else is lost; without one it is taken. -/
structure Decides {α : Type} (s : Session) (result : Except Failure α) (s' : Session) (p : Place)
    (o : Offer) (emptied : List String) : Prop where
  /-- With an obstacle `e` the offer is refused with `e`, and the session is `Spared` but for
  `o.symbol.owned`. -/
  refused : ∀ e, o.obstacle? s.surroundings.store = some e →
    result = .error (.symbol e) ∧ s.Spared s' o.symbol.owned emptied
  /-- Without an `obstacle?` the offer is taken, and the session is `Entered`. -/
  taken : o.obstacle? s.surroundings.store = none →
    (∃ a, result = .ok a) ∧ s.Entered s' p o emptied

/-- Nothing came to be offered: the `result` is a `failure` that is no error of the tree, and the
session is `Spared` altogether. -/
def Declines {α : Type} (s : Session) (result : Except Failure α) (s' : Session) : Prop :=
  ∃ failure, result = .error failure ∧ (∀ e, failure ≠ .symbol e) ∧ s.Spared s' [] []

variable {α β : Type} {s s' : Session} {p : Place} {o : Offer} {result : Except Failure α}
  {emptied : List String}

theorem Decides.map (h : s.Decides result s' p o emptied) (f : α → β) :
    s.Decides (result.map f) s' p o emptied := by
  refine ⟨fun e he => ?_, fun hnone => ?_⟩
  · obtain ⟨rfl, hspared⟩ := h.refused e he
    exact ⟨rfl, hspared⟩
  · obtain ⟨⟨a, rfl⟩, hentered⟩ := h.taken hnone
    exact ⟨⟨f a, rfl⟩, hentered⟩

theorem Declines.map (h : s.Declines result s') (f : α → β) : s.Declines (result.map f) s' := by
  obtain ⟨failure, rfl, hfailure, hspared⟩ := h
  exact ⟨failure, rfl, hfailure, hspared⟩

/-- Sessions that differ in the surroundings only, and there not in the `store`, are `Spared`. -/
theorem Spared.of_store (hhosts : s'.hosts = s.hosts) (hcells : s'.cells = s.cells)
    (hslots : s'.slots = s.slots) (hstore : s'.surroundings.store = s.surroundings.store) :
    s.Spared s' [] [] :=
  ⟨hhosts, hcells, fun name => by rw [hslots]; rfl, .of_eq hstore⟩

theorem Spared.refl (s : Session) : s.Spared s [] [] := .of_store rfl rfl rfl rfl

end Session

/-- A request that `Misses` what it asks for `Declines`. -/
theorem Request.Misses.declines {α : Type} {r : Request α} {s : Session} (h : r.Misses s) :
    s.Declines (r.outcome s).1 (r.outcome s).2 := by
  obtain ⟨what, h⟩ := h
  rw [h]
  exact ⟨.missing what, rfl, fun _ => nofun, .refl s⟩

/-! ## §2. Putting a scope back. -/

namespace Session

/-- The session `s` with the symbol `x` at the place `p`. -/
def putAt (s : Session) (p : Place) (x : Symbol) : Session :=
  match (s.slots.get? p.slot).bind (·.replace? p.path.segments x) with
  | some tree => { s with slots := s.slots.insert p.slot tree }
  | none => s

/-- What comes of a registration below the symbol `x`: the scope is put back if it took what it was
offered, and otherwise only the surroundings may differ. -/
def settle {α : Type} (s : Session) (p : Place) (x : Symbol)
    (out : Except SymbolError Scope × Surroundings) (answer : Scope → α) :
    Except Failure α × Session :=
  match out.1 with
  | .error e => (.error (.symbol e), { s with surroundings := out.2 })
  | .ok d => (.ok (answer d), putAt { s with surroundings := out.2 } p (x.withScope d))

variable {α : Type} {s : Session} {p : Place} {o : Offer} {x : Symbol}

/-- Without an `obstacle?` the new child `o.entered` is the one that its name leads to. -/
theorem lookup?_entered {store : Store} (h : o.obstacle? store = none) :
    (o.scope.append o.entered).lookup? o.name = some o.entered := by
  have hname : o.entered.name = o.name := o.symbol.name_reroot _
  have hfree : ¬ ∃ c ∈ o.scope.children, c.name = o.name := by
    intro htaken
    unfold Offer.obstacle? at h
    rw [if_pos htaken] at h
    split at h <;> cases h
  have hnone : o.scope.children.find? (·.name = o.name) = none := by
    rw [List.find?_eq_none]
    intro c hc
    simpa using fun hcn => hfree ⟨c, hc, hcn⟩
  simp [Scope.lookup?, Scope.append, List.find?_append, hnone, hname]

/-- Putting back a scope that took an offer by `putAt` has the offer `Entered`. -/
theorem entered_putAt {w : Surroundings} (hx : s.symbol? p = some x) (hc : x.scope? = some o.scope)
    (hfound : (o.scope.append o.entered).lookup? o.name = some o.entered)
    (hsettles : o.Settles s.surroundings w) :
    s.Entered (putAt { s with surroundings := w } p (x.withScope (o.scope.append o.entered)))
      p o [] := by
  obtain ⟨tree, htree, hdescend⟩ := symbol?_eq_some.1 hx
  obtain ⟨new, hnew⟩ := Symbol.replace?_of_descend? hdescend
    (x.withScope (o.scope.append o.entered))
  have hput : putAt { s with surroundings := w } p (x.withScope (o.scope.append o.entered)) =
      { s with slots := s.slots.insert p.slot new, surroundings := w } := by
    unfold putAt
    dsimp only
    rw [htree, Option.bind_some, hnew]
  rw [hput]
  refine ⟨rfl, rfl, ?_, hfound, ⟨tree, x, new, htree, hdescend, hc, hnew, fun name => ?_⟩,
    fun id _ => hsettles.object id, hsettles.cell, hsettles.default⟩
  · -- the way to the scope leads to what was put there
    obtain ⟨role, rfl⟩ := Symbol.eq_of_scope? hc
    refine scope?_eq_some.2 ⟨.branch role o.scope.info o.scope.policy
      (o.scope.append o.entered).children, symbol?_eq_some.2 ⟨new, by simp, ?_⟩, rfl⟩
    exact Symbol.descend?_replace? hnew hdescend rfl
  · rw [Names.get?_insert]
    simp

/-- **What comes of a registration by `settle` `Decides` the offer** that its effect `e` `Takes`. -/
theorem decides_settle {e : Effect (Except SymbolError Scope)} (hx : s.symbol? p = some x)
    (hc : x.scope? = some o.scope) (ht : o.Takes e s.surroundings) (answer : Scope → α) :
    let out := s.settle p x (e.run s.surroundings) answer
    s.Decides out.1 out.2 p o [] := by
  obtain ⟨hrefused, htaken⟩ := ht
  refine ⟨fun error herror => ?_, fun hnone => ?_⟩
  · obtain ⟨hout, hwithout⟩ := hrefused error herror
    unfold settle
    rw [hout]
    exact ⟨rfl, rfl, rfl, fun _ => rfl, hwithout⟩
  · obtain ⟨hout, hsettles⟩ := htaken hnone
    unfold settle
    rw [hout]
    exact ⟨⟨_, rfl⟩, entered_putAt hx hc (lookup?_entered hnone) hsettles⟩

end Session

namespace Request

open Session

variable {s : Session} {p : Place}

theorem outcome_put (p : Place) (x : Symbol) (s : Session) :
    (put p x).outcome s = (.ok (), s.putAt p x) := rfl

/-- Putting a scope `d` back by `putScope` is putting a symbol that holds it back by `putAt`. -/
theorem outcome_putScope {x : Symbol} {c : Scope} (hx : s.symbol? p = some x)
    (hc : x.scope? = some c) (d : Scope) :
    (putScope p d).outcome s = (.ok (), s.putAt p (x.withScope d)) := by
  rw [putScope, outcome_bind_ok (outcome_branch hx hc), outcome_put]

/-- What `register` does in the scope `c`. -/
theorem outcome_register {x : Symbol} {c : Scope} (hx : s.symbol? p = some x)
    (hc : x.scope? = some c) (f : Scope → Effect (Except SymbolError Scope)) :
    (register p f).outcome s = s.settle p x ((f c).run s.surroundings) newestLabel := by
  have hscope := finds_scope (s := s) p
  rw [scope?_eq_some.2 ⟨x, hx, hc⟩] at hscope
  rw [register, outcome_bind_ok hscope, outcome_bind_ok (outcome_perform _ s), settle]
  cases ((f c).run s.surroundings).1 with
  | error e => rfl
  | ok d =>
    let after : Session := { s with surroundings := ((f c).run s.surroundings).2 }
    have haccept : (accept (.ok d) : Request Scope).outcome after = (.ok d, after) := rfl
    have hput : (putScope p d).outcome after = (.ok (), after.putAt p (x.withScope d)) :=
      outcome_putScope (s := after) hx hc d
    rw [outcome_bind_ok haccept, outcome_bind_ok hput]
    rfl

/-- **Registering in a scope by `register` `Decides` the offer** that the effect `f` on the scope
`Takes`. -/
theorem decides_register {o : Offer} {f : Scope → Effect (Except SymbolError Scope)}
    (hc : s.scope? p = some o.scope) (ht : o.Takes (f o.scope) s.surroundings) :
    s.Decides ((register p f).outcome s).1 ((register p f).outcome s).2 p o [] := by
  obtain ⟨x, hx, hc⟩ := scope?_eq_some.1 hc
  rw [outcome_register hx hc]
  exact decides_settle hx hc ht newestLabel

/-- Registering by `register` where there is no scope `Declines`. -/
theorem declines_register (hc : s.scope? p = none)
    (f : Scope → Effect (Except SymbolError Scope)) :
    s.Declines ((register p f).outcome s).1 ((register p f).outcome s).2 := by
  have hmiss := finds_scope (s := s) p
  rw [hc] at hmiss
  exact (Misses.bind hmiss _).declines

/-- What `linkField` does where the object `h` is live. -/
theorem outcome_linkField {b : ObjectBinding} {h : Handle} (hb : s.object? p = some b)
    (hlive : b.live? s.surroundings.store = some h) (name description : String) (f : Field)
    (default : f.type.Raw) :
    (linkField p name description f default).outcome s =
      s.settle p (.ofObject b) ((b.scope.addLinked name description (.field h.id f)
        (f.type.read default)).run s.surroundings) fun _ => () := by
  have hobject := finds_object (s := s) p
  rw [hb] at hobject
  rw [linkField, outcome_bind_ok hobject, outcome_bind_ok (outcome_perform _ s),
    ObjectBinding.run_linkField_eq, hlive, settle]
  dsimp only
  generalize (b.scope.addLinked name description (.field h.id f) (f.type.read default)).run
    s.surroundings = out
  obtain ⟨e | d, w⟩ := out <;> rfl

/-- **Linking a field of a live object `h` by `linkField` `Decides` the offer** of the scalar and
its `default`. -/
theorem decides_linkField {b : ObjectBinding} {h : Handle} (hb : s.object? p = some b)
    (hlive : b.live? s.surroundings.store = some h) (name description : String) (f : Field)
    (default : f.type.Raw) :
    let out := (linkField p name description f default).outcome s
    s.Decides out.1 out.2 p ⟨b.scope, .scalar ⟨⟨name, description, none⟩, .linked (.field h.id f)⟩,
      some (.field h.id f, ⟨f.type, default⟩)⟩ [] := by
  rw [outcome_linkField hb hlive]
  exact decides_settle (object?_eq_some.1 hb) rfl
    (Offer.takes_addLinked (l := .field h.id f) rfl b.scope name description default) fun _ => ()

/-- Without a live object `linkField` has nothing to link, and that is said before anything else. -/
theorem outcome_linkField_of_unbound {b : ObjectBinding} (hb : s.object? p = some b)
    (hlive : b.live? s.surroundings.store = none) (name description : String) (f : Field)
    (default : f.type.Raw) :
    let out := (linkField p name description f default).outcome s
    out.1 = .error (.symbol (.unbound b.label)) ∧ s.Spared out.2 [] [] := by
  have hobject := finds_object (s := s) p
  rw [hb] at hobject
  let told := s.surroundings.emit (.reported (.unbound b.label))
  intro out
  have hout : out = (.error (.symbol (.unbound b.label)), { s with surroundings := told }) := by
    show (linkField p name description f default).outcome s = _
    rw [linkField, outcome_bind_ok hobject, outcome_bind_ok (outcome_perform _ s),
      ObjectBinding.run_linkField_eq, hlive]
    rfl
  rw [hout]
  exact ⟨rfl, .of_store rfl rfl rfl rfl⟩

end Request

/-! ## §3. Before a registration. -/

namespace Session

/-- The second session `s'` is the first made ready for a registration: the `emptied` slots are
emptied, and the objects `made`, which were not there, are made. -/
structure Readies (s s' : Session) (made : List ObjectId) (emptied : List String) : Prop where
  /-- The host holds the objects `hosts` that it held. -/
  hosts : s'.hosts = s.hosts
  /-- The host holds the cells `cells` that it held. -/
  cells : s'.cells = s.cells
  /-- The trees are what they were, but for the `emptied` slots. -/
  slots : ∀ name, s'.slots.get? name =
    if name ∈ emptied then none else s.slots.get? name
  /-- Cells are what they were, by `cell?`. -/
  cell : ∀ id, s'.surroundings.store.cell? id = s.surroundings.store.cell? id
  /-- Objects are what they were, but for those in `made`. -/
  object : ∀ id ∉ made, s'.surroundings.store.object? id = s.surroundings.store.object? id
  /-- The objects in `made` were not there before. -/
  fresh : ∀ id ∈ made, s.surroundings.store.object? id = none

variable {α : Type} {s s' s'' : Session} {p : Place} {o : Offer} {result : Except Failure α}
  {made gone : List ObjectId} {emptied emptied' : List String}

/-- What is lost after everything is ready is lost from the start, with what was `made` for it. -/
theorem Readies.spared (h : s.Readies s' made emptied) (hs : s'.Spared s'' gone emptied')
    (hmade : ∀ id ∈ made, id ∈ gone) : s.Spared s'' gone (emptied ++ emptied') := by
  refine ⟨hs.hosts.trans h.hosts, hs.cells.trans h.cells, fun name => ?_,
    fun id => (hs.without.cell id).trans (h.cell id), fun id => ?_⟩
  · rw [hs.slots, h.slots]
    by_cases hname : name ∈ emptied' <;> simp [hname]
  · rw [hs.without.object]
    by_cases hid : id ∈ gone
    · rw [if_pos hid, if_pos hid]
    · rw [if_neg hid, if_neg hid, h.object id fun hin => hid (hmade id hin)]

/-- An offer that is `Entered` after everything is ready is entered from the start. -/
theorem Readies.entered (h : s.Readies s' made emptied) (he : s'.Entered s'' p o emptied')
    (hmade : ∀ id ∈ made, id ∈ o.symbol.owned)
    (hstore : o.default? = none ∨ s'.surroundings.store = s.surroundings.store) :
    s.Entered s'' p o (emptied ++ emptied') := by
  obtain ⟨old, x, new, hold, hx, hc, hnew, hslots⟩ := he.slots
  have hslot := h.slots p.slot
  rw [hold] at hslot
  refine ⟨he.hosts.trans h.hosts, he.cells.trans h.cells, he.scope, he.found,
    ⟨old, x, new, ?_, hx, hc, hnew, fun name => ?_⟩, fun id hlive hid => ?_, fun id hid => ?_,
    fun l t y hdefault => ?_⟩
  · -- the slot of the scope is not the one that was emptied
    split at hslot
    · cases hslot
    · exact hslot.symm
  · rw [hslots, h.slots]
    by_cases hname : name ∈ emptied' <;> simp [hname]
  · -- what was alive is not what was made
    have hold : id ∉ made := by
      intro hin
      have hlive := hlive (hmade id hin)
      rw [Store.isLive, h.fresh id hin] at hlive
      cases hlive
    have hsame := h.object id hold
    rw [← hsame]
    refine he.object id (fun hown => ?_) hid
    rw [Store.isLive, hsame]
    exact hlive hown
  · rw [he.cell id hid, h.cell]
  · rcases hstore with hnone | hstore
    · rw [hnone] at hdefault
      cases hdefault
    · rw [← hstore]
      exact he.default l t y hdefault

/-- **What is decided after everything is ready is decided from the start**, since `Readies`
composes with `Decides`. -/
theorem Readies.decides (h : s.Readies s' made emptied) (hd : s'.Decides result s'' p o emptied')
    (hmade : ∀ id ∈ made, id ∈ o.symbol.owned)
    (hstore : o.default? = none ∨ s'.surroundings.store = s.surroundings.store) :
    s.Decides result s'' p o (emptied ++ emptied') := by
  have hobstacle : o.obstacle? s'.surroundings.store = o.obstacle? s.surroundings.store := by
    rcases hstore with hnone | hstore
    · -- without a default the store makes no difference
      unfold Offer.obstacle? Offer.defaultObstacle?
      rw [hnone]
      rfl
    · rw [hstore]
  refine ⟨fun e he => ?_, fun hnone => ?_⟩
  · obtain ⟨hresult, hspared⟩ := hd.refused e (hobstacle.trans he)
    exact ⟨hresult, h.spared hspared hmade⟩
  · obtain ⟨hresult, hentered⟩ := hd.taken (hobstacle.trans hnone)
    exact ⟨hresult, h.entered hentered hmade hstore⟩

/-- The records of events and of destroyed objects make no difference to `Readies`. -/
theorem readies_of_store (hhosts : s'.hosts = s.hosts) (hcells : s'.cells = s.cells)
    (hslots : s'.slots = s.slots) (hstore : s'.surroundings.store = s.surroundings.store) :
    s.Readies s' [] [] :=
  ⟨hhosts, hcells, fun name => by rw [hslots]; rfl, fun _ => by rw [hstore],
    fun _ _ => by rw [hstore], fun _ hid => nomatch hid⟩

/-- The session with the slot `source` emptied. -/
theorem readies_erase (s : Session) (source : String) :
    s.Readies { s with slots := s.slots.erase source } [] [source] := by
  refine ⟨rfl, rfl, fun name => ?_, fun _ => rfl, fun _ _ => rfl, fun _ hid => nomatch hid⟩
  simp

/-- The handle that a new object symbol gets on an object of some `Origin`. -/
def handle? (s : Session) : Origin → Option Handle
  | .own _ => some ⟨s.surroundings.store.nextObject, true⟩
  | .host name => (s.hosts.get? name).map fun id => ⟨id, false⟩
  | .boundAt p => (s.object? p).bind fun b => b.handle?.map fun h => { h with owned := false }

/-- The session with the object that is made for a new object symbol, if the `Origin` is `own`. -/
def reaching (s : Session) : Origin → Session
  | .own n => { s with surroundings := ((Effect.create n).run s.surroundings).2 }
  | .host _ => s
  | .boundAt _ => s

/-- The object that is made for a new object symbol was not there, and it belongs to the symbol by
`Role.owned?`. -/
theorem readies_reaching {origin : Origin} {hd : Handle} (h : s.handle? origin = some hd) :
    s.Readies (s.reaching origin) (Role.object (some hd)).owned?.toList [] := by
  cases origin with
  | own n =>
    cases h
    refine ⟨rfl, rfl, fun _ => rfl, fun _ => rfl, fun id hid => ?_, fun id hid => ?_⟩
    · have hne : id ≠ s.surroundings.store.nextObject := fun he => hid (List.mem_singleton.2 he)
      exact Store.object?_addObject_of_ne _ n hne
    · rw [List.mem_singleton.1 hid]
      simp [Store.object?, Store.nextObject]
  | host name =>
    obtain ⟨id, -, rfl⟩ := Option.map_eq_some_iff.1 h
    exact readies_of_store rfl rfl rfl rfl
  | boundAt p =>
    obtain ⟨b, -, hb⟩ := Option.bind_eq_some_iff.1 h
    obtain ⟨h, -, rfl⟩ := Option.map_eq_some_iff.1 hb
    exact readies_of_store rfl rfl rfl rfl

end Session

namespace Request

open Session

variable {s : Session} {p : Place}

/-- A handle on an object that is already there is looked up: the request `handle` finds
`handle?`. -/
theorem finds_handle {origin : Origin} (h : ∀ n, origin ≠ .own n) :
    (handle origin).Finds s (s.handle? origin) := by
  cases origin with
  | own n => exact absurd rfl (h n)
  | host name => exact (finds_host name).map fun id => (⟨id, false⟩ : Handle)
  | boundAt p =>
    refine (finds_object p).bind fun b _ => ?_
    exact (finds_require b.handle? .handle).map fun h : Handle => { h with owned := false }

/-- A handle is got by the request `handle` where there is one to be had, `hd`. -/
theorem outcome_handle {origin : Origin} {hd : Handle} (h : s.handle? origin = some hd) :
    (handle origin).outcome s = (.ok hd, s.reaching origin) := by
  cases origin with
  | own n =>
    cases h
    rfl
  | host name =>
    have hfinds : (handle (.host name)).Finds s (s.handle? (.host name)) :=
      finds_handle fun _ => nofun
    rw [h] at hfinds
    exact hfinds
  | boundAt p =>
    have hfinds : (handle (.boundAt p)).Finds s (s.handle? (.boundAt p)) :=
      finds_handle fun _ => nofun
    rw [h] at hfinds
    exact hfinds

theorem misses_handle {origin : Origin} (h : s.handle? origin = none) :
    (handle origin).Misses s := by
  have hborrowed (n : Native) : origin ≠ .own n := by
    intro hn
    rw [hn] at h
    cases h
  have hfinds := finds_handle (s := s) hborrowed
  rw [h] at hfinds
  exact hfinds

/-- A handle `hd` that finds no symbol lets go of the object that was made for it, by `discard`. -/
theorem spared_discard {origin : Origin} {hd : Handle} (h : s.handle? origin = some hd) :
    ∃ s', (discard hd).outcome (s.reaching origin) = (.ok (), s') ∧ s.Spared s' [] [] := by
  have hready := readies_reaching h
  cases origin with
  | own n =>
    cases h
    let id := s.surroundings.store.nextObject
    refine ⟨_, rfl, ?_⟩
    have hspared : (s.reaching (.own n)).Spared { s.reaching (.own n) with
        surroundings := (s.reaching (.own n)).surroundings.destroy id } [id] [] :=
      ⟨rfl, rfl, fun _ => rfl, Surroundings.destroy_without _ id⟩
    obtain ⟨hhosts, hcells, hslots, hcell, hobject⟩ := hready.spared hspared fun _ hid => hid
    refine ⟨hhosts, hcells, hslots, hcell, fun other => ?_⟩
    -- the object that is gone was not there before
    rw [if_neg List.not_mem_nil]
    refine (hobject other).trans ?_
    by_cases hother : other ∈ [id]
    · rw [if_pos hother, hready.fresh other hother]
    · rw [if_neg hother]
  | host name =>
    obtain ⟨id, -, rfl⟩ := Option.map_eq_some_iff.1 h
    exact ⟨s, rfl, .refl s⟩
  | boundAt p =>
    obtain ⟨b, -, hb⟩ := Option.bind_eq_some_iff.1 h
    obtain ⟨h, -, rfl⟩ := Option.map_eq_some_iff.1 hb
    exact ⟨s, rfl, .refl s⟩

end Request

namespace Session

/-! ## §4. What operations offer. -/

/-- What is offered to the scope at the place `p`, if there is one. -/
def offering (s : Session) (p : Place) (f : Scope → Offer) : Option (Place × Offer) :=
  (s.scope? p).map fun c => (p, f c)

/-- What an operation offers, and where the scope is that it offers it to; nothing if the operation
registers nothing or does not find what it needs. -/
def offer? (s : Session) : Operation → Option (Place × Offer)
  | .addScope p name description =>
    s.offering p fun c => ⟨c, .ofScope ⟨⟨name, description, none⟩, c.policy, []⟩, none⟩
  | .addScalar p name description v =>
    s.offering p fun c => ⟨c, .scalar ⟨⟨name, description, none⟩, .value v⟩, none⟩
  | .addFunction p name description f arity? =>
    s.offering p fun c => ⟨c, .function ⟨⟨name, description, none⟩, f, arity?⟩, none⟩
  | .addObject p name description none =>
    s.offering p fun c =>
      ⟨c, .ofObject ⟨⟨⟨name, description, none⟩, .matchingNames, []⟩, none⟩, none⟩
  | .addObject p name description (some origin) => do
    let hd ← s.handle? origin
    s.offering p fun c => ⟨c, .ofObject (c.newBinding name description hd), none⟩
  | .linkCell p name description cell default => do
    let (id, k) ← s.content? cell
    let x ← k.type.parse? default
    s.offering p fun c => ⟨c, .scalar ⟨⟨name, description, none⟩, .linked (.cell id)⟩,
      some (.cell id, ⟨k.type, x⟩)⟩
  | .linkField p name description f default => do
    let b ← s.object? p
    let h ← b.live? s.surroundings.store
    return (p, ⟨b.scope, .scalar ⟨⟨name, description, none⟩, .linked (.field h.id f)⟩,
      some (.field h.id f, ⟨f.type, default⟩)⟩)
  | .insert source p => do
    let x ← s.slots.get? source
    -- a symbol cannot be inserted below itself
    if p.slot = source then none else s.offering p fun c => ⟨c, x, none⟩
  | _ => none

/-- The object symbol that `linkField` would link a field of, if its object is gone or it never had
one. -/
def unbound? (s : Session) : Operation → Option ObjectBinding
  | .linkField p _ _ _ _ => (s.object? p).filter fun b => !b.isBound s.surroundings.store
  | _ => none

theorem offering_eq_some {s : Session} {p q : Place} {f : Scope → Offer} {o : Offer} :
    s.offering p f = some (q, o) ↔ q = p ∧ ∃ c, s.scope? p = some c ∧ o = f c := by
  unfold offering
  cases s.scope? p <;> simp [eq_comm]

@[simp] theorem offering_eq_none {s : Session} {p : Place} {f : Scope → Offer} :
    s.offering p f = none ↔ s.scope? p = none := Option.map_eq_none_iff

end Session

namespace Operation

/-- The operation registers something. -/
def Registers : Operation → Prop
  | addScope .. | addScalar .. | addFunction .. | addObject .. | linkCell .. | linkField ..
  | insert .. => True
  | _ => False

/-- The slot that `insert` takes a symbol out of to register it. -/
def emptied : Operation → List String
  | insert source _ => [source]
  | _ => []

end Operation

namespace Request

open Session

variable {s : Session} {p : Place} {o : Offer}

/-! ## §5. Operations decide their offers. -/

theorem outcome_done (r : Request Unit) (s : Session) :
    (done r).outcome s = ((r.outcome s).1.map fun _ => .done, (r.outcome s).2) := by
  rw [done, outcome_bind]
  generalize r.outcome s = out
  obtain ⟨e | a, s'⟩ := out <;> rfl

/-- Getting the handle of an object symbol that is to have one of some `origin`. -/
theorem outcome_mapM_handle (origin : Origin) (s : Session) :
    ((some origin).mapM handle).outcome s =
      (((handle origin).outcome s).1.map some, ((handle origin).outcome s).2) :=
  outcome_map (handle origin) some s

theorem scope?_reaching (s : Session) (origin : Origin) (p : Place) :
    (s.reaching origin).scope? p = s.scope? p := by
  cases origin <;> rfl

/-- With a handle `hd` and a scope `c`, an object symbol is registered once its object is there, in
the session `reaching origin`. -/
theorem outcome_addObject {c : Scope} {origin : Origin} {hd : Handle}
    (hhd : s.handle? origin = some hd) (hc : s.scope? p = some c) (name description : String) :
    (addObject p name description (some origin)).outcome s =
      (register p (·.addObject name description hd)).outcome (s.reaching origin) := by
  have hscope : (s.reaching origin).scope? p = some c := (scope?_reaching s origin p).trans hc
  have hhandle := outcome_mapM_handle origin s
  rw [outcome_handle hhd] at hhandle
  rw [addObject, outcome_bind_ok hhandle]
  exact outcome_bind_ok (outcome_scopeOr_of_some hscope _) _

/-- Registering an object symbol by `addObject` `Decides` the offer of it, though the object is made
before. -/
theorem decides_addObject {c : Scope} {origin : Origin} {hd : Handle}
    (hhd : s.handle? origin = some hd) (hc : s.scope? p = some c) (name description : String) :
    let out := (addObject p name description (some origin)).outcome s
    s.Decides out.1 out.2 p ⟨c, .ofObject (c.newBinding name description hd), none⟩ [] := by
  have hscope : (s.reaching origin).scope? p = some c := (scope?_reaching s origin p).trans hc
  rw [outcome_addObject hhd hc]
  exact (readies_reaching hhd).decides (decides_register hscope (Offer.takes_addObject c _ _ hd _))
    (fun _ hid => hid) (.inl rfl)

/-- Without a handle or a scope `addObject` `Declines`, and an object that was made for the symbol
is gone again. -/
theorem declines_addObject {origin : Origin} (h : s.handle? origin = none ∨ s.scope? p = none)
    (name description : String) :
    let out := (addObject p name description (some origin)).outcome s
    s.Declines out.1 out.2 := by
  have hhandle := outcome_mapM_handle origin s
  cases hhd : s.handle? origin with
  | none =>
    obtain ⟨what, hwhat⟩ := misses_handle hhd
    rw [hwhat] at hhandle
    have hmiss : (addObject p name description (some origin)).Misses s :=
      Misses.bind ⟨what, hhandle⟩ _
    exact hmiss.declines
  | some hd =>
    have hnone : (s.reaching origin).scope? p = none :=
      (scope?_reaching s origin p).trans (h.resolve_left (by simp [hhd]))
    rw [outcome_handle hhd] at hhandle
    obtain ⟨s', hdiscard, hspared⟩ := spared_discard hhd
    obtain ⟨what, hwhat⟩ := outcome_scopeOr_of_none hnone hdiscard
    intro out
    have hout : out = (.error (.missing what), s') := by
      show (addObject p name description (some origin)).outcome s = _
      rw [addObject, outcome_bind_ok hhandle]
      dsimp only
      rw [outcome_bind, hwhat]
    rw [hout]
    exact ⟨.missing what, rfl, fun _ => nofun, hspared⟩

theorem scope?_erase (s : Session) (source : String) (p : Place) :
    Session.scope? { s with slots := s.slots.erase source } p =
      if p.slot = source then none else s.scope? p := by
  unfold scope? symbol?
  dsimp only
  rw [Names.get?_erase]
  by_cases h : p.slot = source
  · rw [if_pos h, if_pos h]
    rfl
  · rw [if_neg h, if_neg h]

/-- With a symbol `x` and a scope `c`, the symbol is registered by `insert` once its slot `source`
is empty. -/
theorem outcome_insert {source : String} {x : Symbol} {c : Scope}
    (hx : s.slots.get? source = some x)
    (hc : Session.scope? { s with slots := s.slots.erase source } p = some c) :
    (insert source p).outcome s =
      (register p (·.insert x)).outcome { s with slots := s.slots.erase source } := by
  have hslot := finds_slot (s := s) source
  rw [hx] at hslot
  have hmodify : (modify fun s : Session => { s with slots := s.slots.erase source } :
      Request Unit).outcome s = (.ok (), { s with slots := s.slots.erase source }) := rfl
  rw [insert, outcome_bind_ok hslot, outcome_bind_ok hmodify]
  exact outcome_bind_ok (outcome_scopeOr_of_some hc _) _

/-- Inserting a symbol `x` by `insert` `Decides` the offer of it, and empties its slot either
way. -/
theorem decides_insert {source : String} {x : Symbol} {c : Scope}
    (hx : s.slots.get? source = some x)
    (hc : Session.scope? { s with slots := s.slots.erase source } p = some c) :
    let out := (insert source p).outcome s
    s.Decides out.1 out.2 p ⟨c, x, none⟩ [source] := by
  rw [outcome_insert hx hc]
  exact (readies_erase s source).decides (decides_register hc (Offer.takes_insert c x _))
    (fun _ hid => absurd hid List.not_mem_nil) (.inl rfl)

/-- Without a symbol or a scope `insert` `Declines`, and the symbol is back in its slot. -/
theorem declines_insert {source : String}
    (h : s.slots.get? source = none ∨
      Session.scope? { s with slots := s.slots.erase source } p = none) :
    let out := (insert source p).outcome s
    s.Declines out.1 out.2 := by
  let emptied : Session := { s with slots := s.slots.erase source }
  have hslot := finds_slot (s := s) source
  cases hx : s.slots.get? source with
  | none =>
    rw [hx] at hslot
    exact (Misses.bind hslot _).declines
  | some x =>
    rw [hx] at hslot
    let back : Session := { s with slots := (s.slots.erase source).insert source x }
    have hmodify : (modify fun s : Session => { s with slots := s.slots.erase source } :
        Request Unit).outcome s = (.ok (), emptied) := rfl
    have hundo : (modify fun s : Session => { s with slots := s.slots.insert source x } :
        Request Unit).outcome emptied = (.ok (), back) := rfl
    obtain ⟨what, hwhat⟩ :=
      outcome_scopeOr_of_none (h.resolve_left (by simp [hx])) hundo
    intro out
    have hout : out = (.error (.missing what), back) := by
      show (insert source p).outcome s = _
      rw [insert, outcome_bind_ok hslot, outcome_bind_ok hmodify, outcome_bind, hwhat]
    rw [hout]
    refine ⟨.missing what, rfl, fun _ => nofun, rfl, rfl, fun name => ?_, .of_eq rfl⟩
    -- what came back is what had left
    rw [Names.get?_insert, Names.get?_erase]
    by_cases hname : name = source
    · rw [if_pos hname, hname, hx]
      rfl
    · rw [if_neg hname, if_neg hname]
      rfl

/-- With a cell `id` and a `default` that `parse?` takes, linking the cell by `linkCell` is a
registration. -/
theorem outcome_linkCell {cell : String} {id : CellId} {k : Cell} {default : Literal}
    {x : k.type.Raw} (hk : s.content? cell = some (id, k)) (hx : k.type.parse? default = some x)
    (p : Place) (name description : String) :
    (linkCell p name description cell default).outcome s =
      (register p (·.linkCell name description id k.type x)).outcome s := by
  have hcontent := finds_content (s := s) cell
  rw [hk] at hcontent
  rw [linkCell, outcome_bind_ok hcontent]
  dsimp only
  rw [hx]

theorem type?_of_content? {cell : String} {id : CellId} {k : Cell}
    (hk : s.content? cell = some (id, k)) :
    (Link.cell id).type? s.surroundings.store = some k.type := by
  obtain ⟨id', -, hcell⟩ := Option.bind_eq_some_iff.1 hk
  obtain ⟨k', hk', heq⟩ := Option.map_eq_some_iff.1 hcell
  obtain ⟨rfl, rfl⟩ := Prod.mk.inj heq
  show (s.surroundings.store.cell? id').map Cell.type = _
  rw [hk']
  rfl

/-- Linking a cell by `linkCell` `Decides` the offer of the scalar and its default `x`. -/
theorem decides_linkCell {cell : String} {id : CellId} {k : Cell} {default : Literal}
    {x : k.type.Raw} {c : Scope} (hk : s.content? cell = some (id, k))
    (hx : k.type.parse? default = some x) (hc : s.scope? p = some c) (name description : String) :
    let out := (linkCell p name description cell default).outcome s
    s.Decides out.1 out.2 p ⟨c, .scalar ⟨⟨name, description, none⟩, .linked (.cell id)⟩,
      some (.cell id, ⟨k.type, x⟩)⟩ [] := by
  rw [outcome_linkCell hk hx]
  exact decides_register hc (Offer.takes_addLinked (type?_of_content? hk) c name description x)

/-- Without a cell, a `default` or a scope `linkCell` `Declines`. -/
theorem declines_linkCell {cell : String} {default : Literal}
    (h : ∀ id k, s.content? cell = some (id, k) →
      k.type.parse? default = none ∨ s.scope? p = none) (name description : String) :
    let out := (linkCell p name description cell default).outcome s
    s.Declines out.1 out.2 := by
  have hcontent := finds_content (s := s) cell
  cases hk : s.content? cell with
  | none =>
    rw [hk] at hcontent
    exact (Misses.bind hcontent _).declines
  | some found =>
    obtain ⟨id, k⟩ := found
    rw [hk] at hcontent
    rw [linkCell, outcome_bind_ok hcontent]
    dsimp only
    cases hx : k.type.parse? default with
    | none => exact ⟨.senseless .literal, rfl, fun _ => nofun, .refl s⟩
    | some x => exact declines_register ((h id k hk).resolve_left (by simp [hx])) _

/-- **An operation `Decides` what it offers**, by `Session.offer?`. -/
theorem answer_decides {op : Operation} (h : s.offer? op = some (p, o)) :
    s.Decides ((answer op).outcome s).1 ((answer op).outcome s).2 p o op.emptied := by
  cases op with
  | addScope q name description =>
    obtain ⟨rfl, c, hc, rfl⟩ := offering_eq_some.1 h
    rw [answer, outcome_map]
    exact (decides_register hc (Offer.takes_insert c _ _)).map _
  | addScalar q name description v =>
    obtain ⟨rfl, c, hc, rfl⟩ := offering_eq_some.1 h
    rw [answer, outcome_map]
    exact (decides_register hc (Offer.takes_insert c _ _)).map _
  | addFunction q name description f arity? =>
    obtain ⟨rfl, c, hc, rfl⟩ := offering_eq_some.1 h
    rw [answer, outcome_map]
    exact (decides_register hc (Offer.takes_insert c _ _)).map _
  | addObject q name description origin? =>
    rw [answer, outcome_map]
    cases origin? with
    | none =>
      obtain ⟨rfl, c, hc, rfl⟩ := offering_eq_some.1 h
      exact (decides_register hc (Offer.takes_insert c _ _)).map _
    | some origin =>
      obtain ⟨hd, hhd, h⟩ := Option.bind_eq_some_iff.1 h
      obtain ⟨rfl, c, hc, rfl⟩ := offering_eq_some.1 h
      exact (decides_addObject hhd hc name description).map _
  | linkCell q name description cell default =>
    obtain ⟨⟨id, k⟩, hk, h⟩ := Option.bind_eq_some_iff.1 h
    obtain ⟨x, hx, h⟩ := Option.bind_eq_some_iff.1 h
    obtain ⟨rfl, c, hc, rfl⟩ := offering_eq_some.1 h
    rw [answer, outcome_map]
    exact (decides_linkCell hk hx hc name description).map _
  | linkField q name description f default =>
    obtain ⟨b, hb, h⟩ := Option.bind_eq_some_iff.1 h
    obtain ⟨hd, hlive, ⟨⟩⟩ := Option.bind_eq_some_iff.1 h
    rw [answer, outcome_done]
    exact (decides_linkField hb hlive name description f default).map _
  | insert source q =>
    obtain ⟨x, hx, h⟩ := Option.bind_eq_some_iff.1 h
    split at h
    · cases h
    · rename_i hapart
      obtain ⟨rfl, c, hc, rfl⟩ := offering_eq_some.1 h
      rw [answer, outcome_map]
      refine (decides_insert hx ?_).map _
      rw [scope?_erase, if_neg hapart, hc]
  | _ => cases h

/-- **Linking a field of an object that is `unbound?`** says so, and changes nothing. -/
theorem answer_unbound {op : Operation} {b : ObjectBinding} (h : s.unbound? op = some b) :
    ((answer op).outcome s).1 = .error (.symbol (.unbound b.label)) ∧
      s.Spared ((answer op).outcome s).2 [] [] := by
  cases op with
  | linkField q name description f default =>
    obtain ⟨hb, hbound⟩ := Option.filter_eq_some_iff.1 h
    have hlive : b.live? s.surroundings.store = none := by
      simpa [ObjectBinding.isBound] using hbound
    obtain ⟨hresult, hspared⟩ := outcome_linkField_of_unbound hb hlive name description f default
    rw [answer, outcome_done, hresult]
    exact ⟨rfl, hspared⟩
  | _ => cases h

/-- **An operation that `Registers` but finds nothing to offer `Declines`.** -/
theorem answer_declines {op : Operation} (hop : op.Registers) (h : s.offer? op = none)
    (hu : s.unbound? op = none) :
    s.Declines ((answer op).outcome s).1 ((answer op).outcome s).2 := by
  cases op with
  | addScope q name description =>
    have hc : s.scope? q = none := offering_eq_none.1 h
    rw [answer, outcome_map]
    exact (declines_register hc _).map _
  | addScalar q name description v =>
    have hc : s.scope? q = none := offering_eq_none.1 h
    rw [answer, outcome_map]
    exact (declines_register hc _).map _
  | addFunction q name description f arity? =>
    have hc : s.scope? q = none := offering_eq_none.1 h
    rw [answer, outcome_map]
    exact (declines_register hc _).map _
  | addObject q name description origin? =>
    rw [answer, outcome_map]
    cases origin? with
    | none =>
      have hc : s.scope? q = none := offering_eq_none.1 h
      exact (declines_register hc _).map _
    | some origin =>
      refine (declines_addObject ?_ name description).map _
      cases hhd : s.handle? origin with
      | none => exact .inl rfl
      | some hd => exact .inr (by simpa [offer?, hhd] using h)
  | linkCell q name description cell default =>
    rw [answer, outcome_map]
    refine (declines_linkCell (fun id k hk => ?_) name description).map _
    cases hx : k.type.parse? default with
    | none => exact .inl rfl
    | some x => exact .inr (by simpa [offer?, hk, hx] using h)
  | linkField q name description f default =>
    have hobject : s.object? q = none := by
      cases hb : s.object? q with
      | none => rfl
      | some b =>
        cases hlive : b.live? s.surroundings.store with
        | none => simp [unbound?, hb, ObjectBinding.isBound, hlive] at hu
        | some hd => simp [offer?, hb, hlive] at h
    have hmiss := finds_object (s := s) q
    rw [hobject] at hmiss
    rw [answer, outcome_done]
    exact (Misses.bind hmiss _).declines.map _
  | insert source q =>
    rw [answer, outcome_map]
    refine (declines_insert ?_).map _
    cases hx : s.slots.get? source with
    | none => exact .inl rfl
    | some x => exact .inr ((scope?_erase s source q).trans (by simpa [offer?, hx] using h))
  | _ => exact hop.elim

end Request

namespace Session

/-- **Registration is all or nothing.** An operation that `Registers` something fails with the first
`Offer.obstacle?` of its `offer?`, and then no tree, object or cell has changed, except that the
symbol is dropped with what it owns (`Spared`); without one it succeeds, and then the scope has
exactly one more child, at its end, and a linked storage holds the default, which the new scalar
shows (`Entered`).  A field is not linked where there is no live object (`unbound?`), which is
checked first.  An operation that does not find what it needs `Declines`: it changes nothing and
reports no error of the tree. -/
theorem registration_atomic (s : Session) (op : Operation) :
    let result := (s.step op).1.result
    let s' := (s.step op).2
    (∀ p o, s.offer? op = some (p, o) → s.Decides result s' p o op.emptied) ∧
    (∀ b, s.unbound? op = some b →
      result = .error (.symbol (.unbound b.label)) ∧ s.Spared s' [] []) ∧
    (op.Registers → s.offer? op = none → s.unbound? op = none → s.Declines result s') := by
  -- what was recorded of operations before makes no difference
  have hready : s.Readies s.quiet [] [] := readies_of_store rfl rfl rfl rfl
  have hoffer : s.quiet.offer? op = s.offer? op := rfl
  have hunbound : s.quiet.unbound? op = s.unbound? op := rfl
  refine ⟨fun p o h => ?_, fun b h => ?_, fun hop h hu => ?_⟩
  · have hd := hready.decides (Request.answer_decides (hoffer.trans h))
      (fun _ hid => nomatch hid) (.inr rfl)
    exact hd
  · obtain ⟨hresult, hspared⟩ := Request.answer_unbound (hunbound.trans h)
    exact ⟨hresult, hready.spared hspared fun _ hid => nomatch hid⟩
  · obtain ⟨failure, hresult, hfailure, hspared⟩ :=
      Request.answer_declines hop (hoffer.trans h) (hunbound.trans hu)
    exact ⟨failure, hresult, hfailure, hready.spared hspared fun _ hid => nomatch hid⟩

/-- A run that registers one object with an object of its own, `bound`, and one without,
`unbound`. -/
def binding : List Operation :=
  [.newScope "root" "root" "" .matchingNames,
    .addObject ⟨"root", .root⟩ "bound" "" (some (.own (.record .counter { id := "k" }))),
    .addObject ⟨"root", .root⟩ "unbound" "" none]

/-- In the run `binding`, linking the text of a bound object writes the default and adds one child;
the name `a.b` is refused and nothing is written; without an object nothing is linked, and without a
tree nothing is offered. -/
theorem registration_atomic_binding :
    let s := after binding
    let text : Field := ⟨.record .counter, .record .string, rfl⟩
    let link (path name : String) : Operation := .linkField ⟨"root", ⟨[path]⟩⟩ name "" text "5"
    let written := (s.step (link "bound" "x")).2
    let refused := s.step (link "bound" "a.b")
    let missed := s.step (link "unbound" "x")
    let declined := s.step (.addScope ⟨"gone", .root⟩ "x" "")
    (∃ o, s.offer? (link "bound" "x") = some (⟨"root", ⟨["bound"]⟩⟩, o) ∧
      s.Entered written ⟨"root", ⟨["bound"]⟩⟩ o [] ∧
      (Link.field ⟨0⟩ text).content? written.surroundings.store = some ⟨.string, "5"⟩) ∧
    (refused.1.result = .error (.symbol (.invalidName "bound" "a.b")) ∧ s.Spared refused.2 [] []) ∧
    (∃ b : ObjectBinding, missed.1.result = .error (.symbol (.unbound b.label)) ∧
      b.label = "unbound" ∧ s.Spared missed.2 [] []) ∧
    s.Declines declined.1.result declined.2 := by
  intro s text link written refused missed declined
  -- what is offered, and what stands in its way
  have hbound (name : String) (e : Option SymbolError)
      (hplace : (s.offer? (link "bound" name)).map (fun (p, o) =>
        (p, o.obstacle? s.surroundings.store)) = some (⟨"root", ⟨["bound"]⟩⟩, e))
      (hdefault : (s.offer? (link "bound" name)).map (fun (_, o) => (o.default?, o.symbol.owned)) =
        some (some (.field ⟨0⟩ text, ⟨.string, "5"⟩), [])) :
      ∃ o, s.offer? (link "bound" name) = some (⟨"root", ⟨["bound"]⟩⟩, o) ∧
        o.obstacle? s.surroundings.store = e ∧
        o.default? = some (.field ⟨0⟩ text, ⟨.string, "5"⟩) ∧ o.symbol.owned = [] := by
    obtain ⟨⟨p, o⟩, hoffer, heq⟩ := Option.map_eq_some_iff.1 hplace
    obtain ⟨rfl, hobstacle⟩ := Prod.mk.inj heq
    rw [hoffer] at hdefault
    exact ⟨o, hoffer, hobstacle, Prod.mk.inj (Option.some.inj hdefault)⟩
  obtain ⟨o, ho, hclear, hdefault, -⟩ := hbound "x" none (by decide +kernel) (by decide +kernel)
  obtain ⟨o', ho', hname, -, howned⟩ :=
    hbound "a.b" (some (.invalidName "bound" "a.b")) (by decide +kernel) (by decide +kernel)
  have hunbound : (s.unbound? (link "unbound" "x")).map ObjectBinding.label = some "unbound" := by
    decide +kernel
  obtain ⟨b, hb, hlabel⟩ := Option.map_eq_some_iff.1 hunbound
  have hentered := (((registration_atomic s (link "bound" "x")).1 _ o ho).taken hclear).2
  obtain ⟨hresult, hspared⟩ :=
    ((registration_atomic s (link "bound" "a.b")).1 _ o' ho').refused _ hname
  obtain ⟨hmissed, hspared'⟩ := (registration_atomic s (link "unbound" "x")).2.1 b hb
  refine ⟨⟨o, ho, hentered, (hentered.default _ _ _ hdefault).1⟩, ⟨hresult, ?_⟩,
    ⟨b, hmissed, hlabel, hspared'⟩, ?_⟩
  · exact howned ▸ hspared
  · exact (registration_atomic s _).2.2 trivial (by decide +kernel) rfl

end Session

end ConfigTree
