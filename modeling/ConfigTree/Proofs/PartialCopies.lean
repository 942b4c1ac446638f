import ConfigTree.Proofs.Assignment
import ConfigTree.Proofs.CopyCourse
import ConfigTree.Proofs.Warnings

/-!
# Copies that go through

A copy warns of the error that it returns, but it is not candid: an object symbol passes over the
failure of its children, because its object is copied whatever becomes of them.  So there are
warnings without an error.  A copy goes through if nothing inside fails, and just then it warns of
nothing.

Main results:
  * `Scope.copyWith_warns`, `ObjectBinding.copyWith_warns` — one branch, given its children;
  * `Symbol.copyFrom_warns`, `Scope.copyFrom_warns` — a copy warns of the error that it returns, and
    of nothing just if it goes through;
  * `Symbol.assign_warns` — so does an assignment.
-/

namespace ConfigTree

open Effect (Candid failure?)

/-! ## §1. Effects that may warn without an error. -/

/-- The effect `e` warns of the error that it returns, and of nothing at all just if `Through`
holds. -/
def Effect.Warns {α : Type} (e : Effect (Attempt α)) (w : Surroundings) (Through : Prop) : Prop :=
  ∃ told, (e.run w).2.warnings = w.warnings ++ told ∧
    (∀ x, (e.run w).1.error? = some x → .reported x ∈ told) ∧ (told = [] ↔ Through)

namespace Effect

variable {α β : Type} {e : Effect (Attempt α)} {w w' : Surroundings} {P Q : Prop}

/-- An effect `e` that adds its error to the `warnings` and no more is silent just if it returns no
error. -/
theorem warns_of_warnings
    (h : (e.run w).2.warnings = w.warnings ++ (e.run w).1.error?.toList.map .reported) :
    e.Warns w ((e.run w).1.error? = none) := by
  refine ⟨_, h, fun x hx => ?_, ?_⟩
  · rw [hx]
    exact List.mem_singleton_self _
  · cases (e.run w).1.error? <;> simp

theorem Candid.warns (h : Candid e Attempt.error?) (w : Surroundings) :
    e.Warns w ((e.run w).1.error? = none) := warns_of_warnings (h w)

/-- What holds whenever a `Candid` effect returns no error, `P`, makes no difference. -/
theorem Candid.warns_and (h : Candid e Attempt.error?) (hP : (e.run w).1.error? = none → P) :
    e.Warns w ((e.run w).1.error? = none ∧ P) := by
  obtain ⟨told, hrun, hreported, hthrough⟩ := h.warns w
  exact ⟨told, hrun, hreported, hthrough.trans ⟨fun hn => ⟨hn, hP hn⟩, And.left⟩⟩

theorem Warns.iff (h : e.Warns w P) (hPQ : P ↔ Q) : e.Warns w Q := by
  obtain ⟨told, hrun, hreported, hthrough⟩ := h
  exact ⟨told, hrun, hreported, hthrough.trans hPQ⟩

/-- Where `P` holds there is no warning, and where there is no warning there is no error. -/
theorem Warns.and_error (h : e.Warns w P) : e.Warns w ((e.run w).1.error? = none ∧ P) := by
  obtain ⟨told, hrun, hreported, hthrough⟩ := h
  refine ⟨told, hrun, hreported, fun hnil => ⟨?_, hthrough.1 hnil⟩, fun hP => hthrough.2 hP.2⟩
  cases hx : (e.run w).1.error? with
  | none => rfl
  | some x => exact absurd hnil (List.ne_nil_of_mem (hreported x hx))

theorem Warns.map (h : e.Warns w P) (f : α → β) : Effect.Warns ((·.map f) <$> e) w P := h

/-- An `event` that is no warning makes no difference. -/
theorem Warns.emit {event : Event} (h : e.Warns (w.emit event) P) (hevent : event.level ≠ .warn) :
    Effect.Warns (Effect.emit event >>= fun _ => e) w P := by
  obtain ⟨told, hrun, hrest⟩ := h
  rw [w.warnings_emit_of_ne hevent] at hrun
  exact ⟨told, hrun, hrest⟩

end Effect

/-! ## §2. Copies that go through. -/

/-- What there is to copy into the symbol `x` depends on the `store`, and on nothing else around. -/
theorem Symbol.run_copyFrom_of_store (x src : Symbol) (w w' : Surroundings)
    (h : w'.store = w.store) :
    ((x.copyFrom src).run w').1 = ((x.copyFrom src).run w).1 ∧
      ((x.copyFrom src).run w').2.store = ((x.copyFrom src).run w).2.store := by
  obtain ⟨c, -, hc⟩ := x.copyFrom_scripted src w.store
  have htaken := hc x w rfl (.refl _ _ _)
  have htaken' := hc x w' rfl (by rw [h]; exact .refl _ _ _)
  rw [htaken.attempt, htaken'.attempt, htaken.store, htaken'.store, h]
  exact ⟨rfl, rfl⟩

/-- Why `copyFrom` fails depends on the `store`, and on nothing else around. -/
theorem Symbol.error?_copyFrom_of_store (x src : Symbol) (w : Surroundings) :
    ((x.copyFrom src).run { store := w.store }).1.error? = ((x.copyFrom src).run w).1.error? := by
  rw [(x.run_copyFrom_of_store src w { store := w.store } rfl).1]

mutual

/-- The copy into a symbol goes through: neither it fails nor the copy into any symbol that it
holds, not even where an object passes over the failure.  A scope whose policy is `sameShape` has no
`shapeMismatch?` with the source either. -/
def Symbol.CopiesThrough : Symbol → Symbol → Store → Prop
  | .branch role info policy cs, src, s =>
    (((Symbol.branch role info policy cs).copyFrom src).run { store := s }).1.error? = none ∧
      ∀ from_, src.scope? = some from_ →
        (policy = .sameShape → Scope.shapeMismatch? ⟨info, policy, cs⟩ from_ = none) ∧
          Symbol.AllCopyThrough cs from_ s
  | .scalar x, src, s => (((Symbol.scalar x).copyFrom src).run { store := s }).1.error? = none
  | .function f, src, s => (((Symbol.function f).copyFrom src).run { store := s }).1.error? = none

/-- The copies into symbols go through by `CopiesThrough`, one after another, from the children of a
scope of the same names. -/
def Symbol.AllCopyThrough : List Symbol → Scope → Store → Prop
  | [], _, _ => True
  | c :: cs, src, s =>
    match src.lookup? c.name with
    | none => Symbol.AllCopyThrough cs src s
    | some x => c.CopiesThrough x s ∧
      Symbol.AllCopyThrough cs src ((c.copyFrom x).run { store := s }).2.store

end

/-- The copy into the children of the scope `dst` goes through by `AllCopyThrough`, and so does the
check of their shape. -/
def Scope.CopiesThrough (dst src : Scope) (s : Store) : Prop :=
  (dst.policy = .sameShape → dst.shapeMismatch? src = none) ∧
    Symbol.AllCopyThrough dst.children src s

/-! ## §3. Branches. -/

/-- A scope `dst` that finds a `shapeMismatch?` warns of that; otherwise its children are copied by
`e`. -/
theorem Scope.copyWith_warns (dst src : Scope) {e : Effect (Attempt (List Symbol))}
    {w : Surroundings} {P : Prop} (he : ∀ w' : Surroundings, w'.store = w.store → e.Warns w' P) :
    (dst.copyWith src e).Warns w
      ((dst.policy = .sameShape → dst.shapeMismatch? src = none) ∧ P) := by
  have hcheck : (dst.policy = .sameShape → dst.shapeMismatch? src = none) ↔
      (if dst.policy = .sameShape then dst.shapeMismatch? src else none) = none := by
    split <;> simp [*]
  unfold copyWith
  rw [hcheck]
  cases if dst.policy = .sameShape then dst.shapeMismatch? src else none with
  | some error => exact ((Effect.candid_reporting rfl).warns w).iff ⟨nofun, fun h => nomatch h.1⟩
  | none =>
    have hchildren := he (w.emit (.copyingScope dst.info.label src.info.label dst.policy)) rfl
    exact (hchildren.emit nofun).iff ⟨fun h => ⟨rfl, h⟩, fun h => h.2⟩

namespace ObjectBinding

theorem copyParties_candid (dst src : ObjectBinding) :
    Candid (dst.copyParties src) failure? := by
  refine dst.live_candid.on_ok (fun d => ?_) fun _ => .pure rfl
  refine .after Effect.keeps_store fun s => ?_
  refine src.live_candid.on_ok (fun h => ?_) fun _ => .pure rfl
  refine .after Effect.keeps_store fun s' => ?_
  dsimp only
  split
  case isTrue => exact .pure rfl
  case isFalse => exact Effect.candid_reporting rfl

theorem copyObject_candid (dst src : ObjectBinding) (t : Descriptor) (h : Handle) :
    Candid (dst.copyObject src t h) id := by
  refine dst.live_candid.on_ok (fun d => ?_) fun _ => .pure rfl
  dsimp only
  split
  case isTrue => exact .after (Effect.keeps_emit nofun) fun _ => .pure rfl
  case isFalse =>
    refine .after Effect.keeps_store fun s => ?_
    rcases s.copyObject t d.id h.id with e | _ | store
    · exact Effect.candid_reporting rfl
    · exact .after (Effect.keeps_emit nofun) fun _ => Effect.candid_reporting rfl
    · refine .after (Effect.keeps_putStore store) fun _ => ?_
      exact .after (Effect.keeps_emit nofun) fun _ => .pure rfl

/-- What surrounds the tree once the children of an object symbol are done, with the outcome
`portion`: the error that they end with is passed over, with a warning of its own. -/
def passedOver (dst src : ObjectBinding) (portion : Attempt (List Symbol) × Surroundings) :
    Surroundings :=
  match portion.1.error? with
  | some error => portion.2.emit (.partialCopy dst.label src.label error)
  | none => portion.2

theorem warnings_passedOver (dst src : ObjectBinding) {e : Effect (Attempt (List Symbol))}
    {w : Surroundings} {P : Prop} (he : e.Warns w P) :
    ∃ told, (dst.passedOver src (e.run w)).warnings = w.warnings ++ told ∧ (told = [] ↔ P) := by
  obtain ⟨told, hrun, hreported, hthrough⟩ := he
  unfold passedOver
  cases herror : (e.run w).1.error? with
  | none => exact ⟨told, hrun, hthrough⟩
  | some x =>
    have hpassed := (e.run w).2.warnings_emit (.partialCopy dst.label src.label x)
    rw [hrun, List.append_assoc] at hpassed
    refine ⟨_, hpassed, ⟨fun h => ?_, fun h => ?_⟩⟩
    · cases (List.append_eq_nil_iff.1 h).2
    · exact absurd (hthrough.2 h) (List.ne_nil_of_mem (hreported x herror))

/-- An object symbol `dst` warns of what its children fail with, by `e`, and then of what the copy
of its object fails with. -/
theorem copyWith_warns (dst src : ObjectBinding) {e : Effect (Attempt (List Symbol))}
    {w : Surroundings} {P : Prop} (he : ∀ w' : Surroundings, w'.store = w.store → e.Warns w' P) :
    (dst.copyWith src e).Warns w (((dst.copyWith src e).run w).1.error? = none ∧
      (dst.scope.policy = .sameShape → dst.scope.shapeMismatch? src.scope = none) ∧ P) := by
  have hparties := dst.copyParties_candid src w
  unfold Effect.Warns
  rw [run_copyWith]
  cases hfound : (dst.copyParties src).run w with
  | mk found w₁ =>
    rw [hfound] at hparties
    cases found with
    | error x =>
      refine ⟨_, hparties, fun x' hx' => ?_, by simp [failure?]⟩
      cases hx'
      exact List.mem_singleton_self _
    | ok found =>
      obtain ⟨t, h⟩ := found
      have hsilent := copyParties_silent (w := w) (congrArg Prod.fst hfound)
      rw [hfound] at hsilent
      obtain rfl : w₁ = w := hsilent
      have hportion := dst.scope.copyWith_warns src.scope he
      obtain ⟨told, hpassed, hthrough⟩ := warnings_passedOver dst src hportion
      let w₂ := dst.passedOver src ((dst.scope.copyWith src.scope e).run w₁)
      have hobject : _ = w₂.warnings ++ _ := dst.copyObject_candid src t h w₂
      rw [hpassed, List.append_assoc] at hobject
      refine ⟨_, hobject, fun x hx => ?_, ?_⟩
      · have hx : ((dst.copyObject src t h).run w₂).1 = some x := hx
        rw [hx]
        exact List.mem_append_right told (List.mem_singleton_self _)
      · rw [List.append_eq_nil_iff, hthrough, and_comm, List.map_eq_nil_iff,
          Option.toList_eq_nil_iff]
        exact Iff.rfl

end ObjectBinding

/-! ## §4. Symbols. -/

namespace Symbol

/-- The children `cs` warn one after another, up to the first that fails, and of nothing if
`AllCopyThrough`. -/
theorem copyChildren_warns {cs : List Symbol}
    (h : ∀ c ∈ cs, ∀ src w, (c.copyFrom src).Warns w (c.CopiesThrough src w.store)) (src : Scope)
    (w : Surroundings) : (copyChildren cs src).Warns w (AllCopyThrough cs src w.store) := by
  induction cs generalizing w with
  | nil => exact ⟨[], (List.append_nil _).symm, nofun, by simp [AllCopyThrough]⟩
  | cons c cs ih =>
    have hrest := ih fun d hd => h d (List.mem_cons_of_mem c hd)
    cases hx : src.lookup? c.name with
    | none =>
      rw [copyChildren, AllCopyThrough, hx]
      exact (hrest w).map (c :: ·)
    | some x =>
      have hhead := h c List.mem_cons_self x w
      have hstore := (c.run_copyFrom_of_store x { store := w.store } w rfl).2
      rw [AllCopyThrough, hx]
      dsimp only
      rw [← hstore]
      unfold Effect.Warns at hhead ⊢
      rw [run_copyChildren_of_some hx]
      generalize (c.copyFrom x).run w = copied at hhead
      obtain ⟨⟨value, _ | e⟩, w₁⟩ := copied
      · obtain ⟨told, hrun, -, hthrough⟩ := hhead
        obtain ⟨told', hrun', hreported', hthrough'⟩ := hrest w₁
        refine ⟨told ++ told', ?_, fun x hx => ?_, ?_⟩
        · exact hrun'.trans (by rw [hrun, List.append_assoc])
        · exact List.mem_append_right told (hreported' x hx)
        · rw [List.append_eq_nil_iff, hthrough, hthrough']
      -- a child that fails is the last, and it has not gone through
      · obtain ⟨told, hrun, hreported, hthrough⟩ := hhead
        refine ⟨told, hrun, hreported, fun hnil => ?_, fun hboth => hthrough.2 hboth.1⟩
        exact absurd hnil (List.ne_nil_of_mem (hreported e rfl))

/-- **A copy by `copyFrom` warns of the error that it returns, and of nothing just if it
`CopiesThrough`.** -/
theorem copyFrom_warns (x src : Symbol) (w : Surroundings) :
    (x.copyFrom src).Warns w (x.CopiesThrough src w.store) := by
  induction x generalizing src w with
  | scalar s =>
    have hcopy : Candid ((scalar s).copyFrom src) Attempt.error? := by
      rw [copyFrom]
      refine .after (Effect.keeps_emit Event.level_copying_ne) fun _ => ?_
      exact (s.copyFrom_candid src).map fun _ => rfl
    rw [CopiesThrough, error?_copyFrom_of_store]
    exact hcopy.warns w
  | function f =>
    have hcopy : Candid ((function f).copyFrom src) Attempt.error? := by
      rw [copyFrom]
      refine .after (Effect.keeps_emit Event.level_copying_ne) fun _ => ?_
      exact (f.copyFrom_candid src).map fun _ => rfl
    rw [CopiesThrough, error?_copyFrom_of_store]
    exact hcopy.warns w
  | branch role info policy cs ih =>
    have hchildren (from_ : Scope) (w' : Surroundings) (hw : w'.store = w.store) :
        (copyChildren cs from_).Warns w' (AllCopyThrough cs from_ w.store) := by
      rw [← hw]
      exact copyChildren_warns ih from_ w'
    rw [CopiesThrough, error?_copyFrom_of_store]
    cases role with
    | scope =>
      cases hsrc : src.scope? with
      | none =>
        refine Candid.warns_and ?_ fun _ _ h => absurd h.symm (Option.some_ne_none _)
        rw [copyFrom, hsrc]
        refine .after (Effect.keeps_emit Event.level_copying_ne) fun _ => ?_
        exact Effect.candid_reporting rfl
      | some from_ =>
        let w₁ := w.emit (.copying info.label src.info.label)
        have hscope := Scope.copyWith_warns ⟨info, policy, cs⟩ from_ (w := w₁) (hchildren from_)
        refine Effect.Warns.and_error ?_
        rw [copyFrom, hsrc]
        refine ((hscope.map _).emit Event.level_copying_ne).iff ⟨?_, fun h => h from_ rfl⟩
        rintro h _ ⟨⟩
        exact h
    | object handle? =>
      cases hsrc : src.object? with
      | none =>
        refine Candid.warns_and ?_ fun hnone => ?_
        · rw [copyFrom, hsrc]
          refine .after (Effect.keeps_emit Event.level_copying_ne) fun _ => ?_
          exact Effect.candid_reporting rfl
        · rw [copyFrom, hsrc] at hnone
          cases hnone
      | some from_ =>
        let w₁ := w.emit (.copying info.label src.info.label)
        have hobject := ObjectBinding.copyWith_warns ⟨⟨info, policy, cs⟩, handle?⟩ from_ (w := w₁)
          (hchildren from_.scope)
        rw [copyFrom, hsrc]
        refine ((hobject.map _).emit Event.level_copying_ne).iff ?_
        refine and_congr_right fun _ => ⟨?_, fun h => ?_⟩
        · rintro h from_' hfrom
          cases (scope?_of_object? hsrc).symm.trans hfrom
          exact h
        · exact h _ (scope?_of_object? hsrc)

/-- **An assignment by `assign` warns of the error that it returns, and of nothing just if the copy
of `z` into `y` `CopiesThrough`**; a symbol that is assigned to itself is not copied. -/
theorem assign_warns (x : Symbol) (target source : Path) (w : Surroundings) :
    (x.assign target source).Warns w (((x.assign target source).run w).1.error? = none ∧
      (target ≠ source → ∀ y z, x.resolve? target = some y → x.resolve? source = some z →
        y.CopiesThrough z w.store)) := by
  let w₁ := w.emit (.assigning target.display source.display)
  have hstart : w₁.warnings = w.warnings := w.warnings_emit_of_ne nofun
  cases hobstacle : x.assignObstacle? target source with
  | some e =>
    unfold Effect.Warns
    rw [run_assign_of_obstacle hobstacle]
    refine ⟨[.reported e], ?_, fun x hx => ?_, nofun, fun h => nomatch h.1⟩
    · rw [← hstart]
      exact w₁.warnings_reported e
    · cases hx
      exact List.mem_singleton_self _
  | none =>
    refine Effect.Warns.and_error ?_
    unfold Effect.Warns
    rw [← hstart]
    by_cases heq : target = source
    · rw [run_assign_self hobstacle heq]
      exact ⟨[], (List.append_nil _).symm, nofun, fun _ hne => absurd heq hne, fun _ => rfl⟩
    · obtain ⟨y, z, x', hy, hz, -, hrun⟩ := run_assign_of_found hobstacle heq w
      obtain ⟨told, hcopy, hreported, hthrough⟩ := y.copyFrom_warns z w₁
      rw [hrun]
      refine ⟨told, hcopy, hreported, hthrough.trans ⟨?_, fun h => h heq y z hy hz⟩⟩
      intro h _ y' z' hy' hz'
      cases hy.symm.trans hy'
      cases hz.symm.trans hz'
      exact h

end Symbol

/-- The copy of a scope warns of the error that it returns, and of nothing just if it goes through
by `Scope.CopiesThrough`. -/
theorem Scope.copyFrom_warns (dst src : Scope) (w : Surroundings) :
    (dst.copyFrom src).Warns w (dst.CopiesThrough src w.store) :=
  Effect.Warns.map (dst.copyWith_warns src fun w' hw => by
    rw [← hw]
    exact Symbol.copyChildren_warns (fun c _ => c.copyFrom_warns) src w') _

end ConfigTree
