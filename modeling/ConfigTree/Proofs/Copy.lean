import ConfigTree.Proofs.NodeReplacement

/-!
# Copying values changes values only

Whatever comes of a copy, the target has the same nodes in the same order afterwards, with the same
names, places, kinds, links and handles; and outside of the tree nothing is different but the
content of objects and cells that the target is bound or linked to.  `Symbol.Overwrites` says this
of an effect on a symbol; it is shown for each step of a copy and carried through the recursion.

Main results:
  * `Symbol.copyFrom_overwrites` — a symbol that takes over the value of another;
  * `Symbol.assign_overwrites`, `Symbol.assignValue_overwrites` — assignments inside a tree.
-/

namespace ConfigTree

open Surroundings (Written)

/-! ## §1. What overwriting is. -/

/-- The effect `e` leaves `x` as it was up to values, with the same `blank`, and writes only through
it. -/
def Symbol.Overwrites (x : Symbol) (e : Effect (Attempt Symbol)) : Prop :=
  ∀ w, (e.run w).1.value.blank = x.blank ∧ Written x.objects x.cells w (e.run w).2

/-- The effect `e` leaves the symbols `cs` as they were up to values and writes only through
them. -/
def Symbol.OverwritesAll (cs : List Symbol) (e : Effect (Attempt (List Symbol))) : Prop :=
  ∀ w, Symbol.blankAll (e.run w).1.value = Symbol.blankAll cs ∧
    Written (Symbol.objectsAll cs) (Symbol.cellsAll cs) w (e.run w).2

/-! ## §2. Scalars and functions. -/

namespace Scalar

theorem run_value (x : Scalar) (w : Surroundings) :
    x.value.run w = match x.peek w.store with
      | .ok v => (.ok v, w)
      | .error e => (.error e, w.emit (.reported e)) := by
  unfold value
  rw [Effect.run_bind, Effect.run_store]
  cases x.peek w.store <;> rfl

theorem run_set (x : Scalar) (v : Value) (w : Surroundings) :
    (x.set v).run w = match x.write w.store v with
      | .ok (y, s) => (⟨y, none⟩, w.withStore s)
      | .error e => (⟨x, some e⟩, w.emit (.reported e)) := by
  unfold set
  rw [Effect.run_bind, Effect.run_store]
  cases x.write w.store v <;> rfl

/-- A `write` keeps the kind of a scalar that holds its own value and the target of a link. -/
theorem blank_write {x y : Scalar} {s s' : Store} {v : Value} (h : x.write s v = .ok (y, s')) :
    y.info = x.info ∧ y.storage.blank = x.storage.blank := by
  obtain ⟨info, storage⟩ := x
  cases storage with
  | value current =>
    simp only [write] at h
    cases hc : v.convert current.kind with
    | none => simp [hc] at h
    | some u =>
      simp only [hc, Except.ok.injEq, Prod.mk.injEq] at h
      obtain ⟨rfl, -⟩ := h
      -- the value was converted to the kind that is there, and the blank forgets the rest
      simp [Storage.blank, Value.kind_of_convert hc]
  | linked l =>
    simp only [write] at h
    cases hl : l.write s v with
    | error e => simp [hl] at h
    | ok s'' =>
      simp only [hl, Except.ok.injEq, Prod.mk.injEq] at h
      obtain ⟨rfl, -⟩ := h
      exact ⟨rfl, rfl⟩

theorem written_write {x y : Scalar} {w : Surroundings} {s : Store} {v : Value}
    (h : x.write w.store v = .ok (y, s)) :
    Written x.storage.objects x.storage.cells w (w.withStore s) := by
  obtain ⟨info, storage⟩ := x
  cases storage with
  | value current =>
    simp only [write] at h
    cases hc : v.convert current.kind with
    | none => simp [hc] at h
    | some u =>
      simp only [hc, Except.ok.injEq, Prod.mk.injEq] at h
      obtain ⟨-, rfl⟩ := h
      exact Written.of_eq rfl rfl
  | linked l =>
    simp only [write] at h
    cases hl : l.write w.store v with
    | error e => simp [hl] at h
    | ok s' =>
      simp only [hl, Except.ok.injEq, Prod.mk.injEq] at h
      obtain ⟨-, rfl⟩ := h
      exact Link.write_written hl

theorem set_overwrites (x : Scalar) (v : Value) :
    (Symbol.scalar x).Overwrites ((·.map .scalar) <$> x.set v) := by
  intro w
  rw [Effect.run_map, run_set]
  cases h : x.write w.store v with
  | error e => exact ⟨rfl, Written.of_eq rfl rfl⟩
  | ok out =>
    obtain ⟨y, s⟩ := out
    obtain ⟨hinfo, hblank⟩ := blank_write h
    refine ⟨?_, written_write h⟩
    show Symbol.scalar ⟨y.info, y.storage.blank⟩ = Symbol.scalar ⟨x.info, x.storage.blank⟩
    rw [hinfo, hblank]

theorem copyFrom_overwrites (x : Scalar) (src : Symbol) :
    (Symbol.scalar x).Overwrites ((·.map .scalar) <$> x.copyFrom src) := by
  intro w
  unfold copyFrom
  split
  case h_1 y =>
    rw [Effect.run_map, Effect.run_bind, run_value]
    cases y.peek w.store with
    | ok v => exact set_overwrites x v w
    | error e => exact ⟨rfl, Written.of_eq rfl rfl⟩
  case h_2 => exact ⟨rfl, Written.of_eq rfl rfl⟩

end Scalar

theorem Function.copyFrom_overwrites (f : Function) (src : Symbol) :
    (Symbol.function f).Overwrites ((·.map .function) <$> f.copyFrom src) := by
  intro w
  unfold copyFrom
  split <;> exact ⟨rfl, Written.of_eq rfl rfl⟩

/-! ## §3. Branches. -/

theorem Scope.copyWith_overwrites (dst src : Scope) {e : Effect (Attempt (List Symbol))}
    (he : Symbol.OverwritesAll dst.children e) :
    Symbol.OverwritesAll dst.children (dst.copyWith src e) := by
  intro w
  unfold copyWith
  split
  -- under its policy the scope may refuse the source before any child is copied
  case h_1 error _ => exact ⟨rfl, Written.of_eq rfl rfl⟩
  case h_2 =>
    let w₁ := w.emit (.copyingScope dst.info.label src.info.label dst.policy)
    exact ⟨(he w₁).1, Written.of_emit (he w₁).2⟩

namespace ObjectBinding

theorem run_live (o : ObjectBinding) (w : Surroundings) :
    o.live.run w = match o.live? w.store with
      | some h => (.ok h, w)
      | none => (.error (.unbound o.label), w.emit (.reported (.unbound o.label))) := by
  unfold live
  rw [Effect.run_bind, Effect.run_store]
  cases o.live? w.store <;> rfl

/-- What `copyParties` finds before a copy changes anything: the parties, or the first thing that is
wrong. -/
theorem run_copyParties (dst src : ObjectBinding) (w : Surroundings) :
    (dst.copyParties src).run w =
      match dst.live? w.store with
      | none => (.error (.unbound dst.label), w.emit (.reported (.unbound dst.label)))
      | some d =>
        match src.live? w.store with
        | none => (.error (.unbound src.label), w.emit (.reported (.unbound src.label)))
        | some s =>
          let dstType := w.store.describe d.id
          let srcType := w.store.describe s.id
          let e : SymbolError :=
            .incompatibleNativeType dst.label src.label dstType.name srcType.name
          if dstType.accepts srcType then (.ok (dstType, s), w)
          else (.error e, w.emit (.reported e)) := by
  unfold copyParties
  rw [Effect.run_bind, run_live]
  cases dst.live? w.store with
  | none => rfl
  | some d =>
    dsimp only [Effect.run_bind, Effect.run_store]
    rw [run_live]
    cases src.live? w.store with
    | none => rfl
    | some s =>
      dsimp only [Effect.run_bind, Effect.run_store]
      -- both parties are alive: the types decide, and nothing is changed either way
      by_cases hok : (w.store.describe d.id).accepts (w.store.describe s.id) = true
      · simp only [hok, if_true]
        rfl
      · simp only [hok]
        rfl

theorem mem_objects_of_live? {o : ObjectBinding} {s : Store} {h : Handle}
    (hl : o.live? s = some h) : h.id ∈ (Role.object o.handle?).objects := by
  obtain ⟨hh, -⟩ := Option.filter_eq_some_iff.1 hl
  simp [Role.objects, hh]

/-- What `copyObject` does, given the store, step by step. -/
theorem run_copyObject (dst src : ObjectBinding) (t : Descriptor) (s : Handle) (w : Surroundings) :
    (dst.copyObject src t s).run w =
      match dst.live? w.store with
      | none => (some (.unbound dst.label), w.emit (.reported (.unbound dst.label)))
      | some d =>
        if d.id = s.id then (none, w.emit (.sameObject dst.label))
        else match w.store.copyObject t d.id s.id with
          | .error e => (some (dst.accessError e), w.emit (.reported (dst.accessError e)))
          | .ok none =>
            let e : SymbolError := .copyRejected dst.label src.label
            (some e, (w.emit (.copiedObject dst.label src.label t.strategy?.isSome false)).emit
              (.reported e))
          | .ok (some store) =>
            (none, (w.withStore store).emit
              (.copiedObject dst.label src.label t.strategy?.isSome true)) := by
  unfold copyObject
  rw [Effect.run_bind, run_live]
  cases dst.live? w.store with
  | none => rfl
  | some d =>
    dsimp only
    split
    case isTrue => rfl
    case isFalse =>
      rw [Effect.run_bind, Effect.run_store]
      rcases w.store.copyObject t d.id s.id with e | _ | store <;> rfl

theorem copyObject_written (dst src : ObjectBinding) (t : Descriptor) (s : Handle)
    (w : Surroundings) (cells : List CellId) :
    Written (Role.object dst.handle?).objects cells w ((dst.copyObject src t s).run w).2 := by
  rw [run_copyObject]
  cases hd : dst.live? w.store with
  | none => exact Written.of_eq rfl rfl
  | some d =>
    dsimp only
    split
    case isTrue => exact Written.of_eq rfl rfl
    case isFalse =>
      rcases hc : w.store.copyObject t d.id s.id with e | _ | store
      · exact Written.of_eq rfl rfl
      · exact Written.of_eq rfl rfl
      · have hput := Store.copyObject_written hc (mem_objects_of_live? hd) cells
        exact IsTrans.trans _ _ _ hput (Written.of_eq rfl rfl)

/-- The steps of `copyWith` once its parties are known: the children, then the bound object. -/
theorem run_copyWith (dst src : ObjectBinding) (e : Effect (Attempt (List Symbol)))
    (w : Surroundings) :
    (dst.copyWith src e).run w =
      match (dst.copyParties src).run w with
      | (.error error, w₁) => (⟨dst.scope.children, some error⟩, w₁)
      | (.ok (t, s), w₁) =>
        let portion := (dst.scope.copyWith src.scope e).run w₁
        let w₂ := match portion.1.error? with
          | some error => portion.2.emit (.partialCopy dst.label src.label error)
          | none => portion.2
        let object := (dst.copyObject src t s).run w₂
        (⟨portion.1.value, object.1⟩, object.2) := by
  unfold copyWith
  rw [Effect.run_bind]
  generalize (dst.copyParties src).run w = parties
  obtain ⟨_ | ⟨t, s⟩, w₁⟩ := parties
  · rfl
  · dsimp only
    rw [Effect.run_bind]
    generalize (dst.scope.copyWith src.scope e).run w₁ = portion
    obtain ⟨⟨value, _ | error⟩, w₂⟩ := portion <;> rfl

/-- Looking for the parties of a copy writes nothing. -/
theorem copyParties_written (dst src : ObjectBinding) (w : Surroundings) (objects : List ObjectId)
    (cells : List CellId) : Written objects cells w ((dst.copyParties src).run w).2 := by
  rw [run_copyParties]
  cases dst.live? w.store with
  | none => exact Written.of_eq rfl rfl
  | some d =>
    cases src.live? w.store with
    | none => exact Written.of_eq rfl rfl
    | some s =>
      dsimp only
      split <;> exact Written.of_eq rfl rfl

/-- An object symbol whose children `e` overwrites, and whose object is then copied, is as it was up
to values, and only what it leads to is written. -/
theorem copyWith_overwrites (dst src : ObjectBinding) {e : Effect (Attempt (List Symbol))}
    (he : Symbol.OverwritesAll dst.scope.children e) (w : Surroundings) :
    Symbol.blankAll ((dst.copyWith src e).run w).1.value = Symbol.blankAll dst.scope.children ∧
      Written (Symbol.ofObject dst).objects (Symbol.ofObject dst).cells w
        ((dst.copyWith src e).run w).2 := by
  have hstart := copyParties_written dst src w (Symbol.ofObject dst).objects
    (Symbol.ofObject dst).cells
  rw [run_copyWith]
  revert hstart
  generalize (dst.copyParties src).run w = parties
  obtain ⟨_ | ⟨t, s⟩, w₁⟩ := parties <;> intro hstart
  · exact ⟨rfl, hstart⟩
  -- the children and then the object are written, and both belong to the symbol
  · obtain ⟨hblank, hchildren⟩ := Scope.copyWith_overwrites dst.scope src.scope he w₁
    have hportion := hchildren.mono (List.subset_append_right (Role.object dst.handle?).objects _)
      (List.Subset.refl _)
    have hobject (w₂ : Surroundings) := (copyObject_written dst src t s w₂ _).mono
      (List.subset_append_left _ (Symbol.objectsAll dst.scope.children))
      (List.Subset.refl (Symbol.ofObject dst).cells)
    refine ⟨hblank, IsTrans.trans _ _ _ hstart (IsTrans.trans _ _ _ hportion ?_)⟩
    dsimp only
    split
    case h_1 => exact Written.of_emit (hobject _)
    case h_2 => exact hobject _

end ObjectBinding

/-! ## §4. Symbols. -/

namespace Symbol

theorem copyChildren_overwrites {cs : List Symbol}
    (h : ∀ c ∈ cs, ∀ src, c.Overwrites (c.copyFrom src)) (src : Scope) :
    OverwritesAll cs (copyChildren cs src) := by
  induction cs with
  | nil => exact fun w => ⟨rfl, Written.of_eq rfl rfl⟩
  | cons c cs ih =>
    have hrest := ih fun d hd => h d (List.mem_cons_of_mem _ hd)
    intro w
    -- what the other children write is part of what all of them write
    have htail (w : Surroundings) : Written (objectsAll (c :: cs)) (cellsAll (c :: cs)) w
        ((copyChildren cs src).run w).2 :=
      (hrest w).2.mono (List.subset_append_right _ _) (List.subset_append_right _ _)
    rw [copyChildren]
    cases src.lookup? c.name with
    | none =>
      refine ⟨?_, htail w⟩
      show c.blank :: blankAll ((copyChildren cs src).run w).1.value = c.blank :: blankAll cs
      rw [(hrest w).1]
    | some x =>
      obtain ⟨hblank, hc⟩ := h c List.mem_cons_self x w
      have hhead : Written (objectsAll (c :: cs)) (cellsAll (c :: cs)) w ((c.copyFrom x).run w).2 :=
        hc.mono (List.subset_append_left _ _) (List.subset_append_left _ _)
      dsimp only
      rw [Effect.run_bind]
      -- the copy of the child is named, to look at whether it failed
      revert hblank hhead
      generalize (c.copyFrom x).run w = copied
      obtain ⟨⟨value, error?⟩, w₁⟩ := copied
      intro hblank hhead
      cases error? with
      -- after a failure the other children are left as they are
      | some error =>
        refine ⟨?_, hhead⟩
        show value.blank :: blankAll cs = c.blank :: blankAll cs
        rw [show value.blank = c.blank from hblank]
      | none =>
        refine ⟨?_, IsTrans.trans _ _ _ hhead (htail w₁)⟩
        show value.blank :: blankAll ((copyChildren cs src).run w₁).1.value
          = c.blank :: blankAll cs
        rw [show value.blank = c.blank from hblank, (hrest w₁).1]

/-- **A symbol that takes over the value of another by `copyFrom` changes in values only.** -/
theorem copyFrom_overwrites (x src : Symbol) : x.Overwrites (x.copyFrom src) := by
  induction x generalizing src with
  | scalar s =>
    intro w
    have h := Scalar.copyFrom_overwrites s src (w.emit (.copying s.info.label src.info.label))
    exact ⟨h.1, Written.of_emit h.2⟩
  | function f =>
    intro w
    have h := Function.copyFrom_overwrites f src (w.emit (.copying f.info.label src.info.label))
    exact ⟨h.1, Written.of_emit h.2⟩
  | branch role info policy cs ih =>
    intro w
    let w₁ := w.emit (.copying info.label src.info.label)
    cases role with
    | scope =>
      rw [copyFrom, Effect.run_bind]
      cases src.scope? with
      | none => exact ⟨rfl, Written.of_eq rfl rfl⟩
      | some from_ =>
        obtain ⟨hblank, hwritten⟩ := Scope.copyWith_overwrites ⟨info, policy, cs⟩ from_
          (copyChildren_overwrites ih from_) w₁
        exact ⟨congrArg (branch .scope info policy) hblank, Written.of_emit hwritten⟩
    | object handle? =>
      rw [copyFrom, Effect.run_bind]
      cases src.object? with
      | none => exact ⟨rfl, Written.of_eq rfl rfl⟩
      | some from_ =>
        obtain ⟨hblank, hwritten⟩ := ObjectBinding.copyWith_overwrites
          ⟨⟨info, policy, cs⟩, handle?⟩ from_ (copyChildren_overwrites ih from_.scope) w₁
        exact ⟨congrArg (branch (.object handle?) info policy) hblank, Written.of_emit hwritten⟩

/-- The children `cs` of a scope that takes over the values of `src` change in values only. -/
theorem copyChildren_of_scope_overwrites (cs : List Symbol) (src : Scope) :
    OverwritesAll cs (copyChildren cs src) :=
  copyChildren_overwrites (fun c _ => copyFrom_overwrites c) src

/-- A branch whose children take over the values of those of `src` changes in values only. -/
theorem copyScope_overwrites (role : Role) (dst src : Scope) :
    (branch role dst.info dst.policy dst.children).Overwrites
      (dst.copyFrom src >>= fun copied => pure (copied.map
        (branch role dst.info dst.policy dst.children).withScope)) := by
  intro w
  obtain ⟨hblank, hwritten⟩ := Scope.copyWith_overwrites dst src
    (copyChildren_of_scope_overwrites dst.children src) w
  refine ⟨congrArg (branch role dst.info dst.policy) hblank, ?_⟩
  exact hwritten.mono (List.subset_append_right _ _) (List.Subset.refl _)

/-! ## §5. Assignments. -/

/-- What can be reached through a node `y` can be reached through the tree `x`. -/
theorem written_of_descend? {x y : Symbol} {ks : List String} (h : x.descend? ks = some y)
    {w w' : Surroundings} (hw : Written y.objects y.cells w w') :
    Written x.objects x.cells w w' :=
  hw.mono (objects_subset_of_at (at_of_descend? h)) (cells_subset_of_at (at_of_descend? h))

theorem descend?_append (x : Symbol) (js ks : List String) :
    x.descend? (js ++ ks) = (x.descend? js).bind fun y => y.descend? ks := by
  induction js generalizing x with
  | nil => simp
  | cons j js ih => simp only [List.cons_append, descend?_cons, Option.bind_assoc, ih]

/-- What `resolve?` finds at `p` below a symbol is found by `descend?`. -/
theorem descend?_of_resolve? {x y : Symbol} {p : Path} (h : x.resolve? p = some y) :
    x.descend? p.segments = some y := by
  unfold resolve? at h
  split at h
  · cases h
  · exact h

/-- An effect that `Overwrites` a node of a tree overwrites the tree. -/
theorem overwrites_replace? {x y : Symbol} {ks : List String} (h : x.descend? ks = some y)
    {e : Effect (Attempt Symbol)} (he : y.Overwrites e) :
    x.Overwrites (e >>= fun a => pure ⟨(x.replace? ks a.value).getD x, a.error?⟩) := by
  intro w
  obtain ⟨hblank, hwritten⟩ := he w
  refine ⟨?_, written_of_descend? h hwritten⟩
  -- the path of the node is still there, so putting the result back cannot fail
  obtain ⟨z, hz⟩ := replace?_of_descend? h (e.run w).1.value
  show ((x.replace? ks (e.run w).1.value).getD x).blank = x.blank
  rw [hz]
  exact blank_replace? hz h hblank

/-- An `event` before an effect on a symbol changes nothing about what it `Overwrites`. -/
theorem Overwrites.emit {x : Symbol} {e : Effect (Attempt Symbol)} (h : x.Overwrites e)
    (event : Event) : x.Overwrites (Effect.emit event >>= fun _ => e) :=
  fun w => ⟨(h _).1, Written.of_emit (h (w.emit event)).2⟩

/-- An effect that does no more than `report` an error overwrites nothing. -/
theorem overwrites_report (x : Symbol) (e : SymbolError) :
    x.Overwrites (Effect.report e >>= fun e => pure ⟨x, some e⟩) :=
  fun _ => ⟨rfl, Written.of_eq rfl rfl⟩

/-- **A value that `assignValue` sets at a node of a tree changes values only.** -/
theorem assignValue_overwrites (x : Symbol) (target : Path) (v : Value) :
    x.Overwrites (x.assignValue target v) := by
  refine Overwrites.emit ?_ _
  cases h : x.resolve? target with
  | none => exact overwrites_report x _
  | some y =>
    cases y with
    | scalar s => exact overwrites_replace? (descend?_of_resolve? h) (Scalar.set_overwrites s v)
    | function f => exact overwrites_report x _
    | branch => exact overwrites_report x _

/-- The symbol that was taken out for an assignment changes in values only. -/
theorem Detached.copyFrom_overwrites (d : Detached) (source : Path) :
    d.symbol.Overwrites (d.copyFrom source) := by
  unfold Detached.copyFrom
  cases d.rest.resolve? source with
  | none => exact overwrites_report d.symbol _
  | some src => exact Symbol.copyFrom_overwrites d.symbol src

/-- **An `assign` between two nodes of a tree changes values only.** -/
theorem assign_overwrites (x : Symbol) (target source : Path) :
    x.Overwrites (x.assign target source) := by
  refine Overwrites.emit ?_ _
  split
  case isTrue =>
    cases x.resolve? target with
    | none => exact overwrites_report x _
    | some y => exact fun _ => ⟨rfl, Written.of_eq rfl rfl⟩
  case isFalse =>
    split
    case isTrue => exact overwrites_report x _
    case isFalse =>
      split
      case h_1 => exact overwrites_report x _
      case h_2 parent d h =>
        obtain ⟨⟨p, name⟩, hsplit, hd⟩ := Option.bind_eq_some_iff.1 h
        obtain ⟨d', hd', heq⟩ := Option.map_eq_some_iff.1 hd
        obtain ⟨rfl, rfl⟩ := Prod.mk.inj heq
        obtain ⟨scope, hscope, hchild, -, -⟩ := split_of_detach? hd'
        have hfound : x.descend? (p.segments ++ [name]) = some d'.symbol := by
          rw [descend?_append, hscope, Option.bind_some, descend?_cons, hchild, Option.bind_some,
            descend?_nil]
        -- taking out, copying and putting back is replacing the target by its copy
        have h := overwrites_replace? hfound (d'.copyFrom_overwrites source)
        intro w
        rw [Effect.run_bind, attach?_of_detach? hd']
        exact h w

end Symbol

end ConfigTree
