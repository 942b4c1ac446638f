import ConfigTree.Proofs.Registration
import ConfigTree.Proofs.Scalars

/-!
# What a scope is offered

Every registration offers a symbol to a scope, and a link operation also offers a default for the
storage that the symbol leads to.  An offer is looked at from the name to the default, so that
nothing is written before everything is known to be in order; then it is taken as a whole.

Main results:
  * `Symbol.release_without` — dropping a symbol destroys what it owns and nothing else;
  * `Offer.takes_insert`, `Offer.takes_addObject`, `Offer.takes_addLinked` — the registrations of a
    scope fail with the first obstacle of their offer and drop the symbol, or take the offer.
-/

namespace ConfigTree

/-! ## §1. Dropping symbols. -/

/-- The objects `ids` are gone, and everything else in the store is as it was. -/
structure Surroundings.Without (ids : List ObjectId) (w w' : Surroundings) : Prop where
  /-- The cells are as they were, by `cell?`. -/
  cell : ∀ id, w'.store.cell? id = w.store.cell? id
  /-- The objects are as they were, without those of `ids`. -/
  object : ∀ id, w'.store.object? id = if id ∈ ids then none else w.store.object? id

namespace Surroundings

variable {ids ids' : List ObjectId} {w w' w'' : Surroundings}

/-- The same `store` misses nothing. -/
theorem Without.of_eq (h : w'.store = w.store) : w.Without [] w' :=
  ⟨fun _ => by rw [h], fun _ => by rw [h]; rfl⟩

theorem Without.trans (h : w.Without ids w') (k : w'.Without ids' w'') :
    w.Without (ids ++ ids') w'' := by
  refine ⟨fun id => (k.cell id).trans (h.cell id), fun id => ?_⟩
  rw [k.object, h.object]
  by_cases hid : id ∈ ids <;> by_cases hid' : id ∈ ids' <;> simp [hid, hid']

/-- What comes before in events only, with the same `store`, makes no difference. -/
theorem Without.of_store (h : w'.Without ids w'') (hs : w'.store = w.store) : w.Without ids w'' :=
  ⟨fun id => by rw [h.cell, hs], fun id => by rw [h.object, hs]⟩

/-- The object `id` is gone after `destroy`. -/
theorem destroy_without (w : Surroundings) (id : ObjectId) : w.Without [id] (w.destroy id) := by
  unfold destroy
  cases hr : w.store.object? id with
  | none =>
    refine ⟨fun _ => rfl, fun other => ?_⟩
    by_cases h : other = id
    · subst h
      simp [hr]
    · simp [h]
  | some r =>
    refine ⟨fun _ => rfl, fun other => ?_⟩
    show (w.store.removeObject id).object? other = _
    rw [Store.removeObject, Store.object?_modifyObject]
    by_cases h : other = id
    · subst h
      simp [hr]
    · simp [h]

end Surroundings

namespace Symbol

theorem releaseAll_without {cs : List Symbol}
    (h : ∀ c ∈ cs, ∀ w : Surroundings, w.Without c.owned (c.release.run w).2) (w : Surroundings) :
    w.Without (ownedAll cs) ((releaseAll cs).run w).2 := by
  induction cs generalizing w with
  | nil => exact .of_eq rfl
  | cons c cs ih =>
    have hrest := ih (fun d hd => h d (List.mem_cons_of_mem _ hd)) (c.release.run w).2
    exact (h c List.mem_cons_self w).trans hrest

/-- **Dropping a symbol by `release` destroys what it owns, `x.owned`, and nothing else.** -/
theorem release_without (x : Symbol) (w : Surroundings) :
    w.Without x.owned (x.release.run w).2 := by
  induction x generalizing w with
  | scalar s => exact .of_eq rfl
  | function f => exact .of_eq rfl
  | branch role info policy cs ih =>
    rw [release, owned]
    cases role.owned? with
    | none =>
      rw [Option.toList_none, List.append_nil]
      exact releaseAll_without ih w
    | some id =>
      -- the children go first, then the object of the branch
      have hchildren := releaseAll_without ih (w.emit (.dropping info.label))
      have hall := hchildren.trans (Surroundings.destroy_without _ id)
      exact hall.of_store rfl

end Symbol

/-! ## §2. Offers and their obstacles. -/

/-- A symbol that is to enter a scope. -/
structure Offer where
  /-- The scope that the symbol is to enter. -/
  scope : Scope
  /-- The symbol, as it is before it enters. -/
  symbol : Symbol
  /-- The link of the symbol and the `Content` that is to be in its storage, if that is part of the
  offer. -/
  default? : Option (Link × Content) := none

namespace Offer

/-- The name that the `symbol` is to have in the scope. -/
def name (o : Offer) : String := o.symbol.name

/-- The `symbol` as it is below the scope, with the path of the `scope` for a parent. -/
def entered (o : Offer) : Symbol := o.symbol.reroot (some o.scope.info.path)

/-- Why the `default?` cannot be written: it is no value, or `Link.barrier?` keeps the storage out
of reach. -/
def defaultObstacle? (o : Offer) (s : Store) : Option AccessError :=
  o.default?.bind fun (l, c) => match c.1.read c.2 with
    | .error e => some e
    | .ok _ => l.barrier? s

/-- Why an offer is not taken, in the order of the checks: no path can spell the `name`, the name is
taken (`Scope.refusal?`), or the default cannot be written (`defaultObstacle?`). -/
def obstacle? (o : Offer) (s : Store) : Option SymbolError :=
  if o.name = "" ∨ '.' ∈ o.name.toList then some (.invalidName o.scope.info.label o.name)
  else if ∃ c ∈ o.scope.children, c.name = o.name then
    some (.nameCollision o.scope.info.label o.name)
  else (o.defaultObstacle? s).map (.access (o.scope.info.childLabel o.name))

/-- What surrounds the tree once an offer is taken: only the storage of `default?` has changed, it
holds the default `settled`, and the scalar that `entered` shows its value. -/
structure Settles (o : Offer) (w w' : Surroundings) : Prop where
  /-- Objects that the link of `default?` does not lead to are as they were. -/
  object : ∀ id, (∀ l c, o.default? = some (l, c) → id ∉ l.objects) →
    w'.store.object? id = w.store.object? id
  /-- Cells that the link of `default?` does not lead to are as they were. -/
  cell : ∀ id, (∀ l c, o.default? = some (l, c) → id ∉ l.cells) →
    w'.store.cell? id = w.store.cell? id
  /-- The storage holds the default `settled`, every other link `k` what it held, and the scalar `y`
  shows the value `v`. -/
  default : ∀ l t x, o.default? = some (l, ⟨t, x⟩) →
    l.content? w'.store = some ⟨t, t.settled x⟩ ∧
      (∀ k, k ≠ l → k.content? w'.store = k.content? w.store) ∧
      ∃ y v, o.entered = .scalar y ∧ t.toValue? x = some v ∧ y.value.run w' = (.ok v, w')

/-- The effect takes the offer or leaves it: with an `obstacle?` it fails and drops the `symbol`,
without one it lets the symbol in behind the other children, and then the surroundings are such that
the offer `Settles`. -/
def Takes (o : Offer) (e : Effect (Except SymbolError Scope)) (w : Surroundings) : Prop :=
  (∀ error, o.obstacle? w.store = some error →
    (e.run w).1 = .error error ∧ w.Without o.symbol.owned (e.run w).2) ∧
  (o.obstacle? w.store = none →
    (e.run w).1 = .ok (o.scope.append o.entered) ∧ o.Settles w (e.run w).2)

end Offer

/-! ## §3. Registrations take offers. -/

namespace Scope

/-- The check of a name, `refusal?`, told by the name and the `children`. -/
theorem refusal?_eq (c : Scope) (name : String) : c.refusal? name =
    if name = "" ∨ '.' ∈ name.toList then some (.invalidName c.info.label name)
    else if ∃ d ∈ c.children, d.name = name then some (.nameCollision c.info.label name)
    else none := by
  have hvalid : Path.validName name = false ↔ name = "" ∨ '.' ∈ name.toList := by
    by_cases hempty : name = ""
    · simp [Path.validName, hempty]
    · simp [Path.validName, hempty]
  have htaken : c.contains name = true ↔ ∃ d ∈ c.children, d.name = name := by
    simp [contains, lookup?, List.find?_isSome]
  unfold refusal?
  simp only [Bool.not_eq_true', hvalid, htaken]

/-- What `insert` does with a symbol `x`: it fails by `refusal?`, or appends the symbol below the
path of the scope. -/
theorem run_insert (c : Scope) (x : Symbol) (w : Surroundings) :
    (c.insert x).run w = match c.refusal? x.name with
      | some e => (.error e, (x.release.run (w.emit (.reported e))).2)
      | none => (.ok (c.append (x.reroot (some c.info.path))),
          w.emit (.registered c.info.label x.name x.kind)) := by
  unfold insert receive
  rw [Effect.run_bind]
  cases c.refusal? x.name <;> rfl

/-- Registering a bound object by `addObject` is inserting the `newBinding`. -/
theorem run_addObject (c : Scope) (name description : String) (h : Handle) (w : Surroundings) :
    (c.addObject name description h).run w =
      (c.insert (.ofObject (c.newBinding name description h))).run
        (w.emit (.binding name h.owned (w.store.describe h.id).name)) := by
  have hname : (Symbol.ofObject (c.newBinding name description h)).name = name := rfl
  rw [run_insert, hname]
  unfold addObject receiveObject receive
  simp only [Effect.run_bind, Effect.run_store]
  have hname' : (Symbol.ofObject ⟨⟨⟨name, description, none⟩, c.policy, []⟩, some h⟩).name = name :=
    rfl
  rw [hname']
  cases c.refusal? name <;> rfl

/-- Registering a linked scalar by `addLinked` writes the `default` before the scalar enters, and
once it is written the scalar enters. -/
theorem run_addLinked_eq (c : Scope) (name description : String) (l : Link)
    (default : Except AccessError Value) (w : Surroundings) :
    (c.addLinked name description l default).run w = match c.refusal? name with
      | some e => (.error e, w.emit (.reported e))
      | none => match default.bind (l.write w.store) with
        | .error e =>
          (.error (.access (c.info.childLabel name) e),
            w.emit (.reported (.access (c.info.childLabel name) e)))
        | .ok s =>
          (.ok (c.append ((Symbol.scalar ⟨⟨name, description, none⟩, .linked l⟩).reroot
            (some c.info.path))),
            (w.withStore s).emit (.registered c.info.label name .scalar)) := by
  unfold addLinked
  rw [Effect.run_bind, run_ensureVacant]
  cases hname : c.refusal? name with
  | some e => rfl
  | none =>
    dsimp only
    rw [Effect.run_bind, Effect.run_store]
    cases hwrite : default.bind (l.write w.store) with
    | error e => rfl
    | ok s =>
      -- the name was free before the write, and the write has not touched the scope
      have hscalar : (Symbol.scalar ⟨⟨name, description, none⟩, .linked l⟩).name = name := rfl
      dsimp only
      rw [Effect.run_bind, run_insert, hscalar, hname]
      rfl

end Scope

/-- Linking a field by `linkField` needs a live object `h` first, and then is `addLinked`. -/
theorem ObjectBinding.run_linkField_eq (o : ObjectBinding) (name description : String) (f : Field)
    (default : f.type.Raw) (w : Surroundings) :
    (o.linkField name description f default).run w = match o.live? w.store with
      | none => (.error (.unbound o.label), w.emit (.reported (.unbound o.label)))
      | some h =>
        let out := (o.scope.addLinked name description (.field h.id f) (f.type.read default)).run w
        (out.1.map fun d => { o with scope := d }, out.2) := by
  unfold linkField
  rw [Effect.run_bind, run_live]
  cases o.live? w.store <;> rfl

namespace Offer

variable {c : Scope} {w : Surroundings}

/-- Without a `default?`, the `obstacle?` of an offer is the `refusal?` of the scope. -/
theorem obstacle?_of_none (c : Scope) (x : Symbol) (s : Store) :
    (⟨c, x, none⟩ : Offer).obstacle? s = c.refusal? x.name := by
  rw [Scope.refusal?_eq]
  rfl

/-- With a `default?`, the `obstacle?` is the `refusal?` first, and then what is wrong with the
default. -/
theorem obstacle?_of_some (c : Scope) (x : Symbol) (l : Link) (content : Content) (s : Store) :
    (⟨c, x, some (l, content)⟩ : Offer).obstacle? s = (c.refusal? x.name).or
      ((match content.1.read content.2 with
        | .error e => some e
        | .ok _ => l.barrier? s).map (.access (c.info.childLabel x.name))) := by
  rw [Scope.refusal?_eq]
  unfold obstacle? name defaultObstacle?
  split
  · rfl
  · split <;> rfl

/-- An offer without a `default?` `Settles` with a change of events. -/
theorem settles_of_store {x : Symbol} {w' : Surroundings} (h : w'.store = w.store) :
    (⟨c, x, none⟩ : Offer).Settles w w' :=
  ⟨fun _ _ => by rw [h], fun _ _ => by rw [h], fun _ _ _ hdefault => by cases hdefault⟩

/-- **Inserting a symbol by `insert` `Takes` the offer of the symbol.** -/
theorem takes_insert (c : Scope) (x : Symbol) (w : Surroundings) :
    (⟨c, x, none⟩ : Offer).Takes (c.insert x) w := by
  unfold Takes
  rw [obstacle?_of_none, Scope.run_insert]
  cases c.refusal? x.name with
  | none =>
    refine ⟨?_, fun _ => ⟨rfl, settles_of_store rfl⟩⟩
    intro error herror
    cases herror
  | some e =>
    refine ⟨?_, fun hnone => by cases hnone⟩
    rintro error ⟨⟩
    exact ⟨rfl, (x.release_without (w.emit (.reported e))).of_store rfl⟩

/-- **Registering a bound object by `addObject` `Takes` the offer of the `newBinding`.** -/
theorem takes_addObject (c : Scope) (name description : String) (h : Handle) (w : Surroundings) :
    (⟨c, .ofObject (c.newBinding name description h), none⟩ : Offer).Takes
      (c.addObject name description h) w := by
  let told := w.emit (.binding name h.owned (w.store.describe h.id).name)
  obtain ⟨hobstacle, hclear⟩ :=
    takes_insert c (.ofObject (c.newBinding name description h)) told
  unfold Takes
  rw [Scope.run_addObject]
  -- the event that comes before is not in the store
  refine ⟨fun error herror => ?_, fun hnone => ⟨(hclear hnone).1, ?_⟩⟩
  · obtain ⟨herror, hwithout⟩ := hobstacle error herror
    exact ⟨herror, hwithout.of_store rfl⟩
  · obtain ⟨hobject, hcell, -⟩ := (hclear hnone).2
    exact ⟨hobject, hcell, fun _ _ _ hdefault => by cases hdefault⟩

/-- Once the default is written, and the store is `s`, the offer of a linked scalar `Settles`. -/
theorem settles_addLinked {l : Link} {t : StorageType} {x : t.Raw} {v : Value} {s : Store}
    (hvalue : t.toValue? x = some v) (hwrite : l.write w.store v = .ok s)
    (hcontent : l.content? s = some ⟨t, t.settled x⟩) (hread : l.read s = .ok v) (c : Scope)
    (name description : String) (event : Event) :
    (⟨c, .scalar ⟨⟨name, description, none⟩, .linked l⟩, some (l, ⟨t, x⟩)⟩ : Offer).Settles w
      ((w.withStore s).emit event) := by
  have hwritten := Link.write_written hwrite
  refine ⟨fun id hid => hwritten.object id (hid l _ rfl),
    fun id hid => hwritten.cell id (hid l _ rfl), ?_⟩
  rintro l' t' x' ⟨⟩
  refine ⟨hcontent, fun k hk => Link.content?_write_of_ne hwrite hk, ?_⟩
  refine ⟨⟨⟨name, description, some c.info.path⟩, .linked l⟩, v, rfl, hvalue, ?_⟩
  rw [Scalar.run_value]
  simp [Scalar.peek, Surroundings.emit, hread, Except.mapError]

/-- **Registering a linked scalar by `addLinked` `Takes` the offer of the scalar and its default
`x`.** The name is checked, then the default, then the storage; once the default is written nothing
can fail. -/
theorem takes_addLinked {l : Link} {t : StorageType} (ht : l.type? w.store = some t) (c : Scope)
    (name description : String) (x : t.Raw) :
    (⟨c, .scalar ⟨⟨name, description, none⟩, .linked l⟩, some (l, ⟨t, x⟩)⟩ : Offer).Takes
      (c.addLinked name description l (t.read x)) w := by
  have hname : (Symbol.scalar ⟨⟨name, description, none⟩, .linked l⟩).name = name := rfl
  have hquiet (e : SymbolError) : w.Without [] (w.emit (.reported e)) := .of_eq rfl
  unfold Takes
  rw [obstacle?_of_some, Scope.run_addLinked_eq, hname]
  cases c.refusal? name with
  | some e =>
    refine ⟨?_, fun hnone => by cases hnone⟩
    rintro error ⟨⟩
    exact ⟨rfl, hquiet e⟩
  | none =>
    cases hread : t.read x with
    | error cause =>
      refine ⟨?_, fun hnone => by simp at hnone⟩
      intro error herror
      simp only [Option.map_some, Option.none_or, Option.some.injEq] at herror
      rw [← herror]
      exact ⟨rfl, hquiet _⟩
    | ok v =>
      have hvalue := StorageType.read_eq_ok.1 hread
      simp only [Option.none_or]
      cases hb : l.barrier? w.store with
      | some cause =>
        -- what the default shows is fit for the storage, so only the barrier can be in the way
        have hwrite := Link.write_of_barrier (Link.fits_of_shown ht hvalue) hb
        refine ⟨?_, fun hnone => by cases hnone⟩
        intro error herror
        simp only [Option.map_some, Option.some.injEq] at herror
        simp only [Except.bind, hwrite]
        rw [← herror]
        exact ⟨rfl, hquiet _⟩
      | none =>
        obtain ⟨s, hwrite, hcontent, hagain⟩ := Link.write_of_shown ht hb hvalue
        simp only [Except.bind, hwrite]
        refine ⟨fun error herror => (by cases herror), fun _ => ⟨rfl, ?_⟩⟩
        exact settles_addLinked hvalue hwrite hcontent hagain c name description _

end Offer

end ConfigTree
