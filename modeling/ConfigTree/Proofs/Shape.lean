import ConfigTree.Proofs.Copy

/-!
# A shape is checked before anything is written

A scope that asks for its own shape looks at both trees as a whole before it copies anything.  Below
it further scopes may ask again, each for its own part.  They cannot be disappointed: what the first
look found in order stays in order, since a copy reads its source and changes no names.

Main results:
  * `Symbol.shapeMismatch?_eq` — the check takes the first difference of names along the walk of the
    pairs of scopes that stand at the same place;
  * `Scope.shapeMismatch?_eq_some` — what is found is the first difference of the first such pair;
  * `Symbol.copyFrom_shapeFree` — a copy between trees of one shape never speaks of shapes;
  * `Scope.copyFrom_sameShape` — when a copy is refused for its shape, what is reported, and that
    nothing has changed then.
-/

namespace ConfigTree

/-! ## §1. Speaking of shapes. -/

namespace SymbolError

/-- Whether the error is a `shapeMismatch`. -/
def isShapeMismatch : SymbolError → Bool
  | shapeMismatch .. => true
  | _ => false

end SymbolError

namespace Event

/-- The error that an event tells of, be it `reported` or recorded as a `partialCopy`. -/
def error? : Event → Option SymbolError
  | reported e => some e
  | partialCopy _ _ e => some e
  | _ => none

/-- The `error?` of the event is a mismatch of shapes, `isShapeMismatch`. -/
def TellsOfShape (event : Event) : Prop := ∃ e, event.error? = some e ∧ e.isShapeMismatch = true

end Event

/-- Between `w` and `w'` events have been added that all satisfy the condition `P`. -/
def Surroundings.Adds (P : Event → Prop) (w w' : Surroundings) : Prop :=
  ∃ told : Array Event, w'.events = w.events ++ told ∧ ∀ event ∈ told, P event

namespace Surroundings

variable {P : Event → Prop} {w w' : Surroundings}

instance : IsPreorder Surroundings (Adds P) where
  refl w := ⟨#[], by simp⟩
  trans := by
    rintro w₁ w₂ w₃ ⟨told, h, htold⟩ ⟨told', h', htold'⟩
    refine ⟨told ++ told', by rw [h', h, Array.append_assoc], fun event hevent => ?_⟩
    rcases Array.mem_append.1 hevent with hevent | hevent
    · exact htold event hevent
    · exact htold' event hevent

theorem adds_of_eq (h : w'.events = w.events) : Adds P w w' :=
  ⟨#[], by simp [h]⟩

theorem adds_emit {event : Event} (h : P event) : Adds P w (w.emit event) :=
  ⟨#[event], by simp [emit], by simpa using h⟩

end Surroundings

/-! ## §2. Pairs of scopes. -/

namespace Symbol

/-- The scopes that a node of one tree and the same place in the other tree, `src`, are. -/
def meet? (src : Symbol) (node : Path × Symbol) : Option (Scope × Scope) :=
  node.2.scope?.bind fun d => ((src.descend? node.1.segments).bind scope?).map fun s => (d, s)

/-- The pairs of scopes that stand at the same place in the trees `x` and `src`, in the `preorder`
of the first. -/
def pairs (x src : Symbol) : List (Scope × Scope) := (x.preorder .root).filterMap src.meet?

/-- **The `pairs` are the scopes that the same names `ks` lead to.** -/
theorem mem_pairs {x src : Symbol} {d s : Scope} :
    (d, s) ∈ x.pairs src ↔ ∃ ks y z, x.At ks y ∧ y.scope? = some d ∧
      src.descend? ks = some z ∧ z.scope? = some s := by
  simp only [pairs, List.mem_filterMap, meet?, Option.bind_eq_some_iff, Option.map_eq_some_iff,
    Prod.mk.injEq]
  constructor
  · rintro ⟨⟨p, y⟩, hnode, d', hd, s', ⟨z, hz, hs⟩, rfl, rfl⟩
    obtain ⟨ks, rfl, hat⟩ := mem_preorder.1 hnode
    exact ⟨ks, y, z, hat, hd, hz, hs⟩
  · rintro ⟨ks, y, z, hat, hd, hz, hs⟩
    exact ⟨(⟨ks⟩, y), mem_preorder.2 ⟨ks, rfl, hat⟩, d, hd, s, ⟨z, hz, hs⟩, rfl, rfl⟩

/-- A node with the names that lead to it from the place `here` instead of the root. -/
def shifted (here : Path) (node : Path × Symbol) : Path × Symbol :=
  (⟨here.segments ++ node.1.segments⟩, node.2)

/-- The `preorder` from another place goes through the same nodes, `shifted`. -/
theorem preorder_eq_map (x : Symbol) (here : Path) :
    x.preorder here = (x.preorder .root).map (shifted here) := by
  induction x generalizing here with
  | scalar s => simp [preorder, shifted, Path.root]
  | function f => simp [preorder, shifted, Path.root]
  | branch role info policy cs ih =>
    simp only [preorder, preorderAll_eq_flatMap, List.map_cons, List.map_flatMap]
    congr 1
    · simp [shifted, Path.root]
    · refine List.flatMap_congr fun c hc => ?_
      rw [ih c hc (here.child c.name), ih c hc (Path.root.child c.name), List.map_map]
      refine List.map_congr_left fun node _ => ?_
      simp [shifted, Path.child, Path.root]

theorem meet?_shifted (src : Symbol) (k : String) (node : Path × Symbol) :
    src.meet? (shifted (Path.root.child k) node) = (src.child? k).bind fun y => y.meet? node := by
  show node.2.scope?.bind _ = _
  have hsegments : (shifted (Path.root.child k) node).1.segments = k :: node.1.segments := rfl
  rw [hsegments, descend?_cons]
  cases src.child? k with
  | none => cases node.2.scope? <;> rfl
  | some y => rfl

/-- The pairs below a child `c` are the `pairs` of the child and what has its name in `src`. -/
theorem filterMap_meet?_child (c src : Symbol) :
    (c.preorder (Path.root.child c.name)).filterMap src.meet? =
      ((src.child? c.name).map c.pairs).getD [] := by
  have hmeet : src.meet? ∘ shifted (Path.root.child c.name) =
      fun node => (src.child? c.name).bind fun y => y.meet? node :=
    funext fun node => meet?_shifted src c.name node
  rw [preorder_eq_map, List.filterMap_map, hmeet]
  cases src.child? c.name with
  | none => exact List.filterMap_eq_nil_iff.2 fun _ _ => rfl
  | some y => rfl

/-- A tree and a leaf `src`, whose `scope?` is `none`, have no scopes in common. -/
theorem pairs_of_leaf {x src : Symbol} (h : src.scope? = none) : x.pairs src = [] := by
  refine List.eq_nil_iff_forall_not_mem.2 fun ⟨d, s⟩ hmem => ?_
  obtain ⟨ks, y, z, -, -, hz, hs⟩ := mem_pairs.1 hmem
  cases src with
  | branch role info policy cs => cases h
  | scalar =>
    cases ks with
    | nil =>
      rw [descend?_nil, Option.some.injEq] at hz
      rw [← hz] at hs
      cases hs
    | cons k ks => cases hz
  | function =>
    cases ks with
    | nil =>
      rw [descend?_nil, Option.some.injEq] at hz
      rw [← hz] at hs
      cases hs
    | cons k ks => cases hz

theorem scope?_of_object? {x : Symbol} {o : ObjectBinding} (h : x.object? = some o) :
    x.scope? = some o.scope := by
  cases x with
  | branch role info policy cs =>
    cases role with
    | scope => cases h
    | object handle? =>
      cases h
      rfl
  | _ => cases h

theorem child?_of_scope? {x : Symbol} {s : Scope} (h : x.scope? = some s) (k : String) :
    x.child? k = s.lookup? k := by
  cases x with
  | branch role info policy cs =>
    cases h
    rfl
  | _ => cases h

/-- The pairs of two branches: themselves, then the `pairs` of the children of the same names. -/
theorem pairs_branch {role : Role} {info : Info} {policy : CopyPolicy} {cs : List Symbol}
    {src : Symbol} {s : Scope} (h : src.scope? = some s) :
    (branch role info policy cs).pairs src = (⟨info, policy, cs⟩, s) ::
      cs.flatMap fun c => ((s.lookup? c.name).map c.pairs).getD [] := by
  have hhead : src.meet? (.root, branch role info policy cs) = some (⟨info, policy, cs⟩, s) := by
    show ((src.descend? []).bind scope?).map (fun s => ((⟨info, policy, cs⟩ : Scope), s)) = _
    rw [descend?_nil, Option.bind_some, h]
    rfl
  rw [pairs, preorder, preorderAll_eq_flatMap, List.filterMap_cons_some hhead,
    List.filterMap_flatMap]
  congr 1
  refine List.flatMap_congr fun c _ => ?_
  rw [filterMap_meet?_child, child?_of_scope? h]

end Symbol

namespace Scope

/-- What a difference of names between the two scopes of a pair is reported as, if
`Scope.difference?` finds one. -/
def mismatch? (p : Scope × Scope) : Option SymbolError :=
  (p.1.difference? p.2).map (p.1.shapeError p.2)

end Scope

namespace Symbol

/-- **The check `shapeMismatch?` finds the first `mismatch?` along the `pairs`.** -/
theorem shapeMismatch?_eq (x src : Symbol) :
    x.shapeMismatch? src = (x.pairs src).findSome? Scope.mismatch? := by
  induction x generalizing src with
  | scalar s => rfl
  | function f => rfl
  | branch role info policy cs ih =>
    rw [shapeMismatch?]
    cases hs : src.scope? with
    | none =>
      rw [pairs_of_leaf hs]
      rfl
    | some s =>
      rw [pairs_branch hs, List.findSome?_cons, Option.bind_some]
      cases hdiff : Scope.difference? ⟨info, policy, cs⟩ s with
      | some entry => simp [Scope.mismatch?, hdiff]
      | none =>
        simp only [Scope.mismatch?, hdiff, Option.map_none]
        -- both sides go on with the children, one after the other
        have hchildren : ∀ ds : List Symbol, (∀ c ∈ ds, c ∈ cs) → shapeMismatchAll? ds s =
            (ds.flatMap fun c => ((s.lookup? c.name).map c.pairs).getD []).findSome?
              Scope.mismatch? := by
          intro ds hds
          induction ds with
          | nil => rfl
          | cons c ds ihds =>
            rw [shapeMismatchAll?, List.flatMap_cons, List.findSome?_append,
              ihds fun d hd => hds d (List.mem_cons_of_mem _ hd)]
            congr 1
            cases s.lookup? c.name with
            | none => rfl
            | some y => exact ih c (hds c List.mem_cons_self) y
        exact hchildren cs fun _ hc => hc

end Symbol

namespace Scope

theorem contains_iff {s : Scope} {name : String} : s.contains name = true ↔ name ∈ s.names := by
  simp [contains, lookup?, names, List.find?_isSome]

/-- The first name that only one side has, `difference?`, told by membership. -/
theorem difference?_eq (d s : Scope) : d.difference? s =
    (d.names.find? fun name => name ∉ s.names).or (s.names.find? fun name => name ∉ d.names) := by
  have hmissing (a b : Scope) : a.firstMissing? b = a.names.find? fun name => name ∉ b.names := by
    unfold firstMissing?
    congr 1
    funext name
    rw [Bool.eq_iff_iff]
    simp [← contains_iff]
  rw [difference?, hmissing, hmissing]

/-- Without a first `difference?` the names are the same. -/
theorem difference?_eq_none {d s : Scope} :
    d.difference? s = none ↔ ∀ name, name ∈ d.names ↔ name ∈ s.names := by
  simp only [difference?_eq, Option.or_eq_none_iff, List.find?_eq_none, decide_not,
    Bool.not_eq_true', decide_eq_false_iff_not, not_not]
  constructor
  · rintro ⟨hd, hs⟩ name
    exact ⟨hd name, hs name⟩
  · intro h
    exact ⟨fun name => (h name).1, fun name => (h name).2⟩

theorem shapeMismatch?_eq (dst src : Scope) :
    dst.shapeMismatch? src = ((Symbol.ofScope dst).pairs (.ofScope src)).findSome? mismatch? := by
  rw [← Symbol.shapeMismatch?_eq]
  rfl

/-- What `shapeMismatch?` finds is the first difference of the first pair that differs, from the
outside in and in the order of the target `dst`. -/
theorem shapeMismatch?_eq_some {dst src : Scope} {e : SymbolError}
    (h : dst.shapeMismatch? src = some e) :
    ∃ before d s after entry,
      (Symbol.ofScope dst).pairs (.ofScope src) = before ++ (d, s) :: after ∧
      (∀ p ∈ before, ∀ name, name ∈ p.1.names ↔ name ∈ p.2.names) ∧
      (d.names.find? fun name => name ∉ s.names).or (s.names.find? fun name => name ∉ d.names) =
        some entry ∧ e = d.shapeError s entry := by
  rw [shapeMismatch?_eq, List.findSome?_eq_some_iff] at h
  obtain ⟨before, ⟨d, s⟩, after, hpairs, hp, hbefore⟩ := h
  obtain ⟨entry, hentry, rfl⟩ := Option.map_eq_some_iff.1 hp
  refine ⟨before, d, s, after, entry, hpairs, fun p hp => ?_,
    (difference?_eq d s).symm.trans hentry, rfl⟩
  exact difference?_eq_none.1 (Option.map_eq_none_iff.1 (hbefore p hp))

/-- The error that `shapeMismatch?` finds `isShapeMismatch`. -/
theorem isShapeMismatch_shapeMismatch? {dst src : Scope} {e : SymbolError}
    (h : dst.shapeMismatch? src = some e) : e.isShapeMismatch = true := by
  obtain ⟨_, _, _, _, _, -, -, -, rfl⟩ := shapeMismatch?_eq_some h
  rfl

end Scope

/-! ## §3. Copies that do not speak of shapes. -/

/-- Whatever comes of the effect, no event that `TellsOfShape` is added, and no error that
`isShapeMismatch` is returned. -/
def Effect.ShapeFree {α : Type} (e : Effect (Attempt α)) : Prop :=
  ∀ w, (∀ error, (e.run w).1.error? = some error → error.isShapeMismatch = false) ∧
    w.Adds (fun event => ¬ event.TellsOfShape) (e.run w).2

namespace Effect

variable {α β : Type} {w w' : Surroundings}

theorem tellsNot_reported {e : SymbolError} (h : e.isShapeMismatch = false) :
    ¬ (Event.reported e).TellsOfShape := by
  rintro ⟨e', he', hshape⟩
  cases he'
  cases h.symm.trans hshape

/-- Reporting an error that is not of shapes is `ShapeFree`. -/
theorem ShapeFree.report {e : SymbolError} (h : e.isShapeMismatch = false) (a : α) :
    ShapeFree (Effect.report e >>= fun e => pure ⟨a, some e⟩) := by
  refine fun w => ⟨fun error herror => ?_, Surroundings.adds_emit (tellsNot_reported h)⟩
  cases herror
  exact h

theorem ShapeFree.map {e : Effect (Attempt α)} (h : ShapeFree e) (f : α → β) :
    ShapeFree ((·.map f) <$> e) := fun w => h w

/-- An event whose `error?` is `none` may come before a `ShapeFree` effect. -/
theorem ShapeFree.emit {e : Effect (Attempt α)} (h : ShapeFree e) {event : Event}
    (hevent : event.error? = none) : ShapeFree (Effect.emit event >>= fun _ => e) := by
  have htells : ¬ event.TellsOfShape := by
    rintro ⟨e', he', -⟩
    cases hevent.symm.trans he'
  intro w
  obtain ⟨herror, hadds⟩ := h (w.emit event)
  exact ⟨herror, IsTrans.trans _ _ _ (Surroundings.adds_emit htells) hadds⟩

/-- An effect that either leaves the events as they are, or stops and reports why, is `ShapeFree` if
the error is not of shapes. -/
theorem ShapeFree.of_run {e : Effect (Attempt α)}
    (h : ∀ w, ((e.run w).1.error? = none ∧ (e.run w).2.events = w.events) ∨
      ∃ error, (e.run w).1.error? = some error ∧ error.isShapeMismatch = false ∧
        (e.run w).2 = w.emit (.reported error)) : ShapeFree e := by
  intro w
  obtain ⟨hnone, hevents⟩ | ⟨error, herror, hshape, hw⟩ := h w
  · refine ⟨fun error herror => ?_, Surroundings.adds_of_eq hevents⟩
    cases hnone.symm.trans herror
  · refine ⟨fun error' herror' => ?_, ?_⟩
    · cases herror.symm.trans herror'
      exact hshape
    · rw [hw]
      exact Surroundings.adds_emit (tellsNot_reported hshape)

end Effect

namespace Scalar

variable {x y : Scalar} {s : Store} {v : Value} {e : SymbolError}

theorem isShapeMismatch_peek (h : x.peek s = .error e) : e.isShapeMismatch = false := by
  unfold peek at h
  split at h
  · cases h
  · rename_i l _
    cases hl : l.read s with
    | ok u => simp [hl, Except.mapError] at h
    | error cause =>
      rw [hl] at h
      cases h
      exact rfl

theorem isShapeMismatch_write (h : x.write s v = .error e) : e.isShapeMismatch = false := by
  unfold write at h
  split at h
  · split at h
    · cases h
    · cases h
      exact rfl
  · split at h
    · cases h
    · rename_i cause _
      cases h
      cases cause <;> exact rfl

theorem set_shapeFree (x : Scalar) (v : Value) : (x.set v).ShapeFree := by
  refine Effect.ShapeFree.of_run fun w => ?_
  rw [run_set]
  cases h : x.write w.store v with
  | ok written => exact .inl ⟨rfl, rfl⟩
  | error e => exact .inr ⟨e, rfl, isShapeMismatch_write h, rfl⟩

theorem copyFrom_shapeFree (x : Scalar) (src : Symbol) : (x.copyFrom src).ShapeFree := by
  unfold copyFrom
  split
  case h_1 y =>
    intro w
    rw [Effect.run_bind, run_value]
    cases h : y.peek w.store with
    | ok v => exact set_shapeFree x v w
    | error e =>
      have he := isShapeMismatch_peek h
      refine ⟨fun error herror => ?_, Surroundings.adds_emit (Effect.tellsNot_reported he)⟩
      cases herror
      exact he
  case h_2 => exact Effect.ShapeFree.report rfl x

end Scalar

theorem Function.copyFrom_shapeFree (f : Function) (src : Symbol) :
    (f.copyFrom src).ShapeFree := by
  unfold copyFrom
  split
  case h_1 => exact Effect.ShapeFree.of_run fun w => .inl ⟨rfl, rfl⟩
  case h_2 => exact Effect.ShapeFree.report rfl f

/-- A scope `dst` that finds no `shapeMismatch?` in the source goes on to its children, by the
effect `e`. -/
theorem Scope.copyWith_shapeFree {dst src : Scope} {e : Effect (Attempt (List Symbol))}
    (h : dst.shapeMismatch? src = none) (he : e.ShapeFree) : (dst.copyWith src e).ShapeFree := by
  unfold copyWith
  rw [h, ite_self]
  exact he.emit rfl

namespace ObjectBinding

variable {dst src : ObjectBinding} {w : Surroundings}

/-- Looking for the parties of a copy by `copyParties` speaks of bindings and types only. -/
theorem copyParties_tells {e : SymbolError} (h : ((dst.copyParties src).run w).1 = .error e) :
    e.isShapeMismatch = false ∧ ((dst.copyParties src).run w).2 = w.emit (.reported e) := by
  rw [run_copyParties] at h ⊢
  revert h
  split
  case h_1 =>
    rintro ⟨⟩
    exact ⟨rfl, rfl⟩
  case h_2 =>
    split
    case h_1 =>
      rintro ⟨⟩
      exact ⟨rfl, rfl⟩
    case h_2 =>
      dsimp only
      split
      · rintro ⟨⟩
      · rintro ⟨⟩
        exact ⟨rfl, rfl⟩

/-- Parties that `copyParties` finds are found silently. -/
theorem copyParties_silent {found : Descriptor × Handle}
    (h : ((dst.copyParties src).run w).1 = .ok found) : ((dst.copyParties src).run w).2 = w := by
  rw [run_copyParties] at h ⊢
  revert h
  split
  case h_1 => rintro ⟨⟩
  case h_2 =>
    split
    case h_1 => rintro ⟨⟩
    case h_2 =>
      dsimp only
      split
      · exact fun _ => rfl
      · rintro ⟨⟩

theorem isShapeMismatch_accessError (o : ObjectBinding) (e : AccessError) :
    (o.accessError e).isShapeMismatch = false := by
  cases e <;> exact rfl

/-- The copy of the bound object by `copyObject` has its own errors. -/
theorem copyObject_tells (dst src : ObjectBinding) (t : Descriptor) (s : Handle)
    (w : Surroundings) :
    (∀ e, ((dst.copyObject src t s).run w).1 = some e → e.isShapeMismatch = false) ∧
      w.Adds (fun event => ¬ event.TellsOfShape) ((dst.copyObject src t s).run w).2 := by
  have htold {event : Event} (h : event.error? = none) : ¬ event.TellsOfShape := by
    rintro ⟨e, he, -⟩
    cases h.symm.trans he
  rw [run_copyObject]
  cases dst.live? w.store with
  | none =>
    refine ⟨?_, Surroundings.adds_emit (Effect.tellsNot_reported rfl)⟩
    rintro e ⟨⟩
    exact rfl
  | some d =>
    dsimp only
    split
    case isTrue => exact ⟨by rintro e ⟨⟩, Surroundings.adds_emit (htold rfl)⟩
    case isFalse =>
      rcases w.store.copyObject t d.id s.id with cause | _ | store
      · have he := isShapeMismatch_accessError dst cause
        refine ⟨?_, Surroundings.adds_emit (Effect.tellsNot_reported he)⟩
        rintro e ⟨⟩
        exact he
      · refine ⟨?_, IsTrans.trans _ _ _ (Surroundings.adds_emit (htold rfl))
          (Surroundings.adds_emit (Effect.tellsNot_reported rfl))⟩
        rintro e ⟨⟩
        exact rfl
      · exact ⟨by rintro e ⟨⟩, IsTrans.trans _ (w.withStore store) _ (Surroundings.adds_of_eq rfl)
          (Surroundings.adds_emit (htold rfl))⟩

/-- What the children ended with, `error?`, is only recorded. -/
theorem adds_recorded (dst src : ObjectBinding) {w w' : Surroundings} (error? : Option SymbolError)
    (h : w.Adds (fun event => ¬ event.TellsOfShape) w') :
    (∀ e, error? = some e → e.isShapeMismatch = false) →
      w.Adds (fun event => ¬ event.TellsOfShape) (match error? with
        | some error => w'.emit (.partialCopy dst.label src.label error)
        | none => w') := by
  intro he
  cases error? with
  | none => exact h
  | some error =>
    refine IsTrans.trans _ _ _ h (Surroundings.adds_emit ?_)
    rintro ⟨e', he', hshape⟩
    cases he'
    cases (he _ rfl).symm.trans hshape

theorem copyWith_shapeFree {e : Effect (Attempt (List Symbol))}
    (h : dst.scope.shapeMismatch? src.scope = none) (he : e.ShapeFree) :
    (dst.copyWith src e).ShapeFree := by
  intro w
  rw [run_copyWith]
  cases hparties : (dst.copyParties src).run w with
  | mk found w₁ =>
    cases found with
    | error error =>
      have htells := copyParties_tells (w := w) (congrArg Prod.fst hparties)
      rw [hparties] at htells
      obtain ⟨hshape, rfl⟩ := htells
      refine ⟨?_, Surroundings.adds_emit (Effect.tellsNot_reported hshape)⟩
      rintro e' ⟨⟩
      exact hshape
    | ok found =>
      obtain ⟨t, s⟩ := found
      have hsilent := copyParties_silent (w := w) (congrArg Prod.fst hparties)
      rw [hparties] at hsilent
      obtain rfl : w = w₁ := hsilent.symm
      obtain ⟨herror, hportion⟩ := Scope.copyWith_shapeFree h he w
      obtain ⟨hobject, hadds⟩ := copyObject_tells dst src t s _
      exact ⟨hobject, IsTrans.trans _ _ _ (adds_recorded dst src _ hportion herror) hadds⟩

end ObjectBinding

/-! ## §4. Trees of one shape. -/

namespace Symbol

/-- Wherever both trees have a scope, by `pairs`, both scopes have the same `names`. -/
def SameShape (x src : Symbol) : Prop :=
  ∀ p ∈ x.pairs src, ∀ name, name ∈ p.1.names ↔ name ∈ p.2.names

theorem shapeMismatch?_eq_none {x src : Symbol} :
    x.shapeMismatch? src = none ↔ x.SameShape src := by
  rw [shapeMismatch?_eq, List.findSome?_eq_none_iff]
  unfold SameShape Scope.mismatch?
  simp only [Option.map_eq_none_iff, Scope.difference?_eq_none]

variable {role : Role} {info : Info} {policy : CopyPolicy} {cs : List Symbol} {src : Symbol}
  {s : Scope}

/-- A branch finds no `shapeMismatch?` in a source of the `SameShape`. -/
theorem SameShape.scope (h : (branch role info policy cs).SameShape src)
    (hs : src.scope? = some s) : Scope.shapeMismatch? ⟨info, policy, cs⟩ s = none := by
  have hnone := shapeMismatch?_eq_none.2 h
  rw [shapeMismatch?, hs, Option.bind_some] at hnone
  exact hnone

/-- A child `c` is of the `SameShape` as what has its name in a source of the shape of its
parent. -/
theorem SameShape.child (h : (branch role info policy cs).SameShape src)
    (hs : src.scope? = some s) {c y : Symbol} (hc : c ∈ cs) (hy : s.lookup? c.name = some y) :
    c.SameShape y := by
  intro p hp
  refine h p ?_
  rw [pairs_branch hs, List.mem_cons, List.mem_flatMap]
  exact .inr ⟨c, hc, by rw [hy]; exact hp⟩

theorem copyChildren_shapeFree {cs : List Symbol} {src : Scope}
    (h : ∀ c ∈ cs, ∀ y, src.lookup? c.name = some y → (c.copyFrom y).ShapeFree) :
    (copyChildren cs src).ShapeFree := by
  induction cs with
  | nil => exact Effect.ShapeFree.of_run fun w => .inl ⟨rfl, rfl⟩
  | cons c cs ih =>
    have hrest := ih fun d hd => h d (List.mem_cons_of_mem _ hd)
    rw [copyChildren]
    cases hy : src.lookup? c.name with
    | none => exact hrest.map (c :: ·)
    | some y =>
      have hchild := h c List.mem_cons_self y hy
      intro w
      obtain ⟨herror, hadds⟩ := hchild w
      dsimp only
      rw [Effect.run_bind]
      -- the copy of the child is named, to look at whether it failed
      revert herror hadds
      generalize (c.copyFrom y).run w = copied
      obtain ⟨⟨value, error?⟩, w₁⟩ := copied
      intro herror hadds
      cases error? with
      | some error => exact ⟨herror, hadds⟩
      | none =>
        obtain ⟨herror', hadds'⟩ := hrest w₁
        exact ⟨herror', IsTrans.trans _ _ _ hadds hadds'⟩

/-- **A copy between trees of the `SameShape` is `ShapeFree`**, whatever scopes inside of them ask
for. -/
theorem copyFrom_shapeFree {x src : Symbol} (h : x.SameShape src) : (x.copyFrom src).ShapeFree := by
  induction x generalizing src with
  | scalar s =>
    rw [copyFrom]
    exact ((Scalar.copyFrom_shapeFree s src).map Symbol.scalar).emit rfl
  | function f =>
    rw [copyFrom]
    exact ((Function.copyFrom_shapeFree f src).map Symbol.function).emit rfl
  | branch role info policy cs ih =>
    cases role with
    | scope =>
      rw [copyFrom]
      refine Effect.ShapeFree.emit ?_ rfl
      cases hs : src.scope? with
      | none => exact Effect.ShapeFree.report rfl _
      | some s =>
        -- the children are compared with what has their names, and that was compared before
        have hchildren := copyChildren_shapeFree fun c hc y hy => ih c hc (h.child hs hc hy)
        exact (Scope.copyWith_shapeFree (h.scope hs) hchildren).map (branch .scope info policy)
    | object handle? =>
      rw [copyFrom]
      refine Effect.ShapeFree.emit ?_ rfl
      cases ho : src.object? with
      | none => exact Effect.ShapeFree.report rfl _
      | some o =>
        have hs := scope?_of_object? ho
        have hchildren := copyChildren_shapeFree fun c hc y hy => ih c hc (h.child hs hc hy)
        let dst : ObjectBinding := ⟨⟨info, policy, cs⟩, handle?⟩
        have hobject : (dst.copyWith o (copyChildren cs o.scope)).ShapeFree :=
          ObjectBinding.copyWith_shapeFree (h.scope hs) hchildren
        exact hobject.map (branch (.object handle?) info policy)

end Symbol

/-! ## §5. The policy of a scope. -/

namespace Scope

/-- **A copy from a scope of the `SameShape` is `ShapeFree`**, whatever the policies are. -/
theorem copyFrom_shapeFree {dst src : Scope} (h : (Symbol.ofScope dst).SameShape (.ofScope src)) :
    (dst.copyFrom src).ShapeFree := by
  have hchildren : (Symbol.copyChildren dst.children src).ShapeFree :=
    Symbol.copyChildren_shapeFree fun c hc y hy => Symbol.copyFrom_shapeFree (h.child rfl hc hy)
  exact (copyWith_shapeFree (h.scope rfl) hchildren).map fun cs => { dst with children := cs }

/-- What `copyFrom` does with a scope whose policy is `sameShape`. -/
theorem run_copyFrom_sameShape {dst : Scope} (hpolicy : dst.policy = .sameShape) (src : Scope)
    (w : Surroundings) :
    (dst.copyFrom src).run w = match dst.shapeMismatch? src with
      | some e => (⟨dst, some e⟩, w.emit (.reported e))
      | none =>
        let copied := (Symbol.copyChildren dst.children src).run
          (w.emit (.copyingScope dst.info.label src.info.label dst.policy))
        (copied.1.map fun cs => { dst with children := cs }, copied.2) := by
  unfold copyFrom copyWith
  rw [if_pos hpolicy]
  cases dst.shapeMismatch? src <;> rfl

/-- **A scope `dst` whose policy is `sameShape` checks it before anything is written.** A copy into
it ends in an error that `isShapeMismatch` exactly if two scopes or objects in the `pairs` of both
trees do not have the same `names`.  Then nothing has changed, and what is reported is the first
difference of the first such pair in the order of the target.  Otherwise no event that
`TellsOfShape` is recorded anywhere in the copy, and none is returned, whatever the policies
inside. -/
theorem copyFrom_sameShape (dst src : Scope) (hpolicy : dst.policy = .sameShape)
    (w : Surroundings) :
    let out := (dst.copyFrom src).run w
    ((∃ e, out.1.error? = some e ∧ e.isShapeMismatch = true) ↔
      ∃ ks y z d s, (Symbol.ofScope dst).At ks y ∧ y.scope? = some d ∧
        (Symbol.ofScope src).descend? ks = some z ∧ z.scope? = some s ∧
        ¬ ∀ name, name ∈ d.names ↔ name ∈ s.names) ∧
    (∀ target origin entry, out.1.error? = some (.shapeMismatch target origin entry) →
      out.1.value = dst ∧
      out.2 = w.emit (.reported (.shapeMismatch target origin entry)) ∧
      ∃ before d s after,
        (Symbol.ofScope dst).pairs (.ofScope src) = before ++ (d, s) :: after ∧
        (∀ p ∈ before, ∀ name, name ∈ p.1.names ↔ name ∈ p.2.names) ∧
        target = d.info.label ∧ origin = s.info.label ∧
        (d.names.find? fun name => name ∉ s.names).or
          (s.names.find? fun name => name ∉ d.names) = some entry) ∧
    ((Symbol.ofScope dst).SameShape (.ofScope src) →
      (∀ e, out.1.error? = some e → e.isShapeMismatch = false) ∧
      w.Adds (fun event => ¬ event.TellsOfShape) out.2) := by
  intro out
  have hout : out = _ := run_copyFrom_sameShape hpolicy src w
  have hfree (h : (Symbol.ofScope dst).SameShape (.ofScope src)) :
      (∀ e, out.1.error? = some e → e.isShapeMismatch = false) ∧
        w.Adds (fun event => ¬ event.TellsOfShape) out.2 := copyFrom_shapeFree h w
  refine ⟨⟨?_, ?_⟩, fun target origin entry herror => ?_, hfree⟩
  · rintro ⟨e, herror, hshape⟩
    -- without a bad pair the copy would be free of such errors
    by_contra hnone
    have hsame : (Symbol.ofScope dst).SameShape (.ofScope src) := by
      rintro ⟨d, s⟩ hp
      by_contra hdiffer
      obtain ⟨ks, y, z, hy, hd, hz, hs⟩ := Symbol.mem_pairs.1 hp
      exact hnone ⟨ks, y, z, d, s, hy, hd, hz, hs, hdiffer⟩
    cases ((hfree hsame).1 e herror).symm.trans hshape
  · rintro ⟨ks, y, z, d, s, hy, hd, hz, hs, hdiffer⟩
    have hpair : (d, s) ∈ (Symbol.ofScope dst).pairs (.ofScope src) :=
      Symbol.mem_pairs.2 ⟨ks, y, z, hy, hd, hz, hs⟩
    cases hmismatch : dst.shapeMismatch? src with
    | none =>
      have hsame : (Symbol.ofScope dst).SameShape (.ofScope src) :=
        Symbol.shapeMismatch?_eq_none.1 hmismatch
      exact absurd (hsame _ hpair) hdiffer
    | some e => exact ⟨e, by rw [hout, hmismatch], isShapeMismatch_shapeMismatch? hmismatch⟩
  · cases hmismatch : dst.shapeMismatch? src with
    | none =>
      have hsame : (Symbol.ofScope dst).SameShape (.ofScope src) :=
        Symbol.shapeMismatch?_eq_none.1 hmismatch
      cases (hfree hsame).1 _ herror
    | some e =>
      rw [hmismatch] at hout
      rw [hout] at herror ⊢
      cases herror
      obtain ⟨before, d, s, after, entry', hpairs, hbefore, hentry, heq⟩ :=
        shapeMismatch?_eq_some hmismatch
      cases heq
      exact ⟨rfl, rfl, before, d, s, after, hpairs, hbefore, rfl, rfl, hentry⟩

/-- A scope whose policy is `sameShape` and that holds a scope with integers of the given
`names`. -/
def twoLevels (names : List String) : Scope where
  info := ⟨"root", "", none⟩
  policy := .sameShape
  children := [.branch .scope ⟨"a", "", some .root⟩ .matchingNames
    (names.map fun name => .scalar ⟨⟨name, "", some ⟨["a"]⟩⟩, .value (.int .zero)⟩)]

theorem copyFrom_sameShape_two_levels :
    (twoLevels ["x"]).policy = .sameShape ∧
      ∃ e, (((twoLevels ["x"]).copyFrom (twoLevels [])).run {}).1.error? = some e ∧
        e.isShapeMismatch = true := by
  obtain ⟨hiff, -⟩ := copyFrom_sameShape (twoLevels ["x"]) (twoLevels []) rfl {}
  -- the scopes below differ
  refine ⟨rfl, hiff.2 ⟨["a"], _, _, _, _, ⟨_, List.mem_singleton_self _, rfl, rfl⟩, rfl, rfl, rfl,
    ?_⟩⟩
  intro hsame
  cases (hsame "x").1 List.mem_cons_self

end Scope

end ConfigTree
