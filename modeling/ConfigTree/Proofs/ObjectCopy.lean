import ConfigTree.Proofs.Copy

/-!
# A copy of an object fails atomically

A copy into an object symbol goes through the children first and finds its object again afterwards,
so it could fail half way in principle.  It cannot: what is checked at the start is the face of both
objects, and writing children, in whatever objects and cells they end up, leaves every face alone.
So the order of the checks decides how the copy ends, and only the native copy itself, which comes
last, can still refuse.

Main results:
  * `ObjectBinding.readable_of_accepts` — objects whose types fit can be read;
  * `ObjectBinding.parties_survive` — the parties found at the start are there after the children;
  * `ObjectBinding.copyFrom_decided` — how a copy ends, and that nothing has changed if it fails for
    any reason but the last.
-/

namespace ConfigTree

/-! ## §1. Types that fit. -/

theorem Descriptor.accepts_eq_false_iff {a b : Descriptor} :
    a.accepts b = false ↔ a.isVoid = true ∨ a.hash ≠ b.hash := by
  unfold accepts same
  cases a.isVoid <;> simp

theorem Descriptor.not_accepts_void (a : Descriptor) : a.accepts .void = false := by
  rw [accepts_eq_false_iff]
  by_cases h : a.hash = Descriptor.void.hash
  · left
    rw [isVoid, h]
    rfl
  · exact .inr h

theorem Descriptor.void_not_accepts (b : Descriptor) : Descriptor.void.accepts b = false :=
  accepts_eq_false_iff.2 (.inl rfl)

/-- Between objects `a` and `b` that can be read nothing but a refusal of `copyAs?` stops a native
copy. -/
theorem Store.copyObject_of_read {s : Store} {t : Descriptor} {dst src : ObjectId} {a b : Native}
    (ha : s.read dst = .ok a) (hb : s.read src = .ok b) :
    s.copyObject t dst src = .ok ((Native.copyAs? t a b).map (s.setNative dst)) := by
  rw [copyObject, ha, hb]
  rfl

/-- What does not `describe` itself as `void` can be read. -/
theorem Store.read_of_describe {s : Store} {id : ObjectId} (h : s.describe id ≠ .void) :
    ∃ n, s.read id = .ok n := by
  unfold describe at h
  cases hr : s.read id with
  | ok n => exact ⟨n, rfl⟩
  | error e => exact absurd (by rw [hr]) h

namespace ObjectBinding

/-- **Objects whose types fit by `accepts` can be read.** -/
theorem readable_of_accepts {s : Store} {a b : ObjectId}
    (h : (s.describe a).accepts (s.describe b) = true) :
    (∃ n, s.read a = .ok n) ∧ ∃ n, s.read b = .ok n := by
  constructor
  · apply Store.read_of_describe
    intro hvoid
    rw [hvoid, Descriptor.void_not_accepts] at h
    cases h
  · apply Store.read_of_describe
    intro hvoid
    rw [hvoid, Descriptor.not_accepts_void] at h
    cases h

/-! ## §2. The scope portion of a copy. -/

/-- The surroundings once a copy has gone through the children of `dst`. -/
def afterPortion (dst src : ObjectBinding) (w : Surroundings) : Surroundings :=
  ((dst.scope.copyFrom src.scope).run w).2

theorem live?_eq_of_written {objects : List ObjectId} {cells : List CellId} {w w' : Surroundings}
    (h : Surroundings.Written objects cells w w') (o : ObjectBinding) :
    o.live? w'.store = o.live? w.store := by
  unfold live?
  congr 1
  funext handle
  exact h.isLive handle.id

theorem afterPortion_written (dst src : ObjectBinding) (w : Surroundings) :
    Surroundings.Written (Symbol.objectsAll dst.scope.children) (Symbol.cellsAll dst.scope.children)
      w (dst.afterPortion src w) :=
  (Scope.copyWith_overwrites dst.scope src.scope
    (Symbol.copyChildren_of_scope_overwrites _ _) w).2

/-- **The parties of a copy survive its scope portion**: `dst` is bound to the same object, and both
objects can be read. -/
theorem parties_survive {dst : ObjectBinding} (src : ObjectBinding) {w : Surroundings}
    {d s : Handle} (hd : dst.live? w.store = some d)
    (hfit : (w.store.describe d.id).accepts (w.store.describe s.id) = true) :
    dst.live? (dst.afterPortion src w).store = some d ∧
      (∃ n, (dst.afterPortion src w).store.read d.id = .ok n) ∧
      ∃ n, (dst.afterPortion src w).store.read s.id = .ok n := by
  have hw := afterPortion_written dst src w
  obtain ⟨⟨a, ha⟩, b, hb⟩ := readable_of_accepts hfit
  -- writing keeps what is alive and what can be read, even if the objects are linked below
  obtain ⟨a', ha', -⟩ := hw.read ha
  obtain ⟨b', hb', -⟩ := hw.read hb
  exact ⟨(live?_eq_of_written hw dst).trans hd, ⟨a', ha'⟩, b', hb'⟩

/-! ## §3. How a copy ends. -/

/-- Why a copy from `src` into `dst` fails before it changes anything, in the order of the
checks. -/
def obstacle? (dst : ObjectBinding) (src : Symbol) (s : Store) : Option SymbolError :=
  match src.object? with
  | none => some (.typeMismatch dst.label src.info.label Symbol.Kind.object.article)
  | some o =>
    if !dst.isBound s then some (.unbound dst.label)
    else if !o.isBound s then some (.unbound o.label)
    else
      let a := dst.describe s
      let b := o.describe s
      if a.isVoid ∨ a.hash ≠ b.hash then
        some (.incompatibleNativeType dst.label o.label a.name b.name)
      else none

/-- The native copy that comes last refuses: the objects are not one, and `copyAs?` yields nothing
for the type of the target. -/
def Refused (dst src : ObjectBinding) (before after : Store) : Prop :=
  ∃ d s a b, dst.live? before = some d ∧ src.live? before = some s ∧ d.id ≠ s.id ∧
    after.read d.id = .ok a ∧ after.read s.id = .ok b ∧
      Native.copyAs? (before.describe d.id) a b = none

theorem describe_of_live? {o : ObjectBinding} {s : Store} {h : Handle} (hl : o.live? s = some h) :
    o.describe s = s.describe h.id := by
  obtain ⟨hh, -⟩ := Option.filter_eq_some_iff.1 hl
  rw [describe, hh]

/-- An `obstacle?` is what `copyParties` ends with. -/
theorem run_copyParties_of_obstacle {dst o : ObjectBinding} {src : Symbol} {w : Surroundings}
    {e : SymbolError} (ho : src.object? = some o) (h : dst.obstacle? src w.store = some e) :
    (dst.copyParties o).run w = (.error e, w.emit (.reported e)) := by
  simp only [obstacle?, ho, isBound] at h
  rw [run_copyParties]
  cases hd : dst.live? w.store with
  | none =>
    simp only [hd, Option.isSome_none, Bool.not_false, if_true, Option.some.injEq] at h
    rw [← h]
  | some d =>
    cases hs : o.live? w.store with
    | none =>
      simp only [hd, hs, Option.isSome_none, Option.isSome_some, Bool.not_false, Bool.not_true,
        Bool.false_eq_true, if_true, if_false, Option.some.injEq] at h
      rw [← h]
    | some s =>
      simp only [hd, hs, Option.isSome_some, Bool.not_true, Bool.false_eq_true, if_false,
        describe_of_live? hd, describe_of_live? hs, ← Descriptor.accepts_eq_false_iff] at h
      split at h
      case isTrue hfit =>
        dsimp only
        rw [if_neg (by rw [hfit]; exact Bool.false_ne_true), Option.some.inj h]
      case isFalse => cases h

/-- Without an `obstacle?` both parties are found, of types that fit by `accepts`. -/
theorem run_copyParties_of_clear {dst o : ObjectBinding} {src : Symbol} {w : Surroundings}
    (ho : src.object? = some o) (h : dst.obstacle? src w.store = none) :
    ∃ d s, dst.live? w.store = some d ∧ o.live? w.store = some s ∧
      (w.store.describe d.id).accepts (w.store.describe s.id) = true ∧
        (dst.copyParties o).run w = (.ok (w.store.describe d.id, s), w) := by
  simp only [obstacle?, ho, isBound] at h
  cases hd : dst.live? w.store with
  | none => simp [hd] at h
  | some d =>
    cases hs : o.live? w.store with
    | none => simp [hd, hs] at h
    | some s =>
      simp only [hd, hs, Option.isSome_some, Bool.not_true, Bool.false_eq_true, if_false,
        describe_of_live? hd, describe_of_live? hs, ← Descriptor.accepts_eq_false_iff] at h
      split at h
      case isTrue => cases h
      case isFalse hfit =>
        have hfit := eq_true_of_ne_false hfit
        refine ⟨d, s, rfl, rfl, hfit, ?_⟩
        rw [run_copyParties]
        simp only [hd, hs, hfit, if_true]

/-- A copy that finds its parties `d` and `s` and reaches the native copy ends as that does. -/
theorem error?_copyObject {dst src : ObjectBinding} {w : Surroundings} {t : Descriptor}
    {d s : Handle} {a b : Native} (hd : dst.live? w.store = some d)
    (ha : w.store.read d.id = .ok a) (hb : w.store.read s.id = .ok b) :
    ((dst.copyObject src t s).run w).1 =
      if d.id ≠ s.id ∧ Native.copyAs? t a b = none then some (.copyRejected dst.label src.label)
      else none := by
  have hcopy : w.store.copyObject t d.id s.id = _ := Store.copyObject_of_read ha hb
  rw [run_copyObject, hd]
  by_cases heq : d.id = s.id
  · simp [heq]
  · simp only [heq, if_false, hcopy]
    cases Native.copyAs? t a b <;> simp [heq]

/-- What a copy into an object symbol does once its source is known to be the object symbol `o`. -/
theorem run_copyFrom_object {src : Symbol} {o : ObjectBinding} (ho : src.object? = some o)
    (dst : ObjectBinding) (w : Surroundings) :
    ((Symbol.ofObject dst).copyFrom src).run w =
      (((dst.copyWith o (Symbol.copyChildren dst.scope.children o.scope)).run
        (w.emit (.copying dst.label src.info.label))).1.map fun cs =>
          .ofObject ⟨⟨dst.scope.info, dst.scope.policy, cs⟩, dst.handle?⟩,
        ((dst.copyWith o (Symbol.copyChildren dst.scope.children o.scope)).run
          (w.emit (.copying dst.label src.info.label))).2) := by
  rw [Symbol.ofObject, Symbol.copyFrom, Effect.run_bind, ho]
  rfl

/-- An `obstacle?` ends the copy before anything but the events has changed. -/
theorem run_copyFrom_of_obstacle {dst : ObjectBinding} {src : Symbol} {w : Surroundings}
    {e : SymbolError} (h : dst.obstacle? src w.store = some e) :
    ((Symbol.ofObject dst).copyFrom src).run w =
      (⟨.ofObject dst, some e⟩,
        (w.emit (.copying dst.label src.info.label)).emit (.reported e)) := by
  -- the source is no object, or the search for the parties ends in an error
  cases ho : src.object? with
  | none =>
    simp only [obstacle?, ho, Option.some.injEq] at h
    rw [Symbol.ofObject, Symbol.copyFrom, Effect.run_bind, ho, ← h]
    rfl
  | some o =>
    have hparties := run_copyParties_of_obstacle (w := w.emit (.copying dst.label src.info.label))
      ho h
    rw [run_copyFrom_object ho, run_copyWith, hparties]
    rfl

/-- Without an `obstacle?` the parties survive the scope portion, and the native copy decides. -/
theorem run_copyFrom_of_clear {dst : ObjectBinding} {src : Symbol} {w : Surroundings}
    (h : dst.obstacle? src w.store = none) :
    ∃ o d s, src.object? = some o ∧ dst.live? w.store = some d ∧ o.live? w.store = some s ∧
      let after := (dst.afterPortion o (w.emit (.copying dst.label src.info.label))).store
      dst.live? after = some d ∧ ∃ a b, after.read d.id = .ok a ∧ after.read s.id = .ok b ∧
        (((Symbol.ofObject dst).copyFrom src).run w).1.error? =
          if d.id ≠ s.id ∧ Native.copyAs? (w.store.describe d.id) a b = none then
            some (.copyRejected dst.label o.label)
          else none := by
  cases ho : src.object? with
  | none => simp [obstacle?, ho] at h
  | some o =>
    let w₁ := w.emit (.copying dst.label src.info.label)
    obtain ⟨d, s, hd, hs, hfit, hparties⟩ := run_copyParties_of_clear (w := w₁) ho h
    obtain ⟨hd', ⟨a, ha⟩, b, hb⟩ := parties_survive o hd hfit
    refine ⟨o, d, s, rfl, hd, hs, hd', a, b, ha, hb, ?_⟩
    rw [run_copyFrom_object ho, run_copyWith, hparties]
    dsimp only [Attempt.map]
    -- a scope portion that stops half way is only recorded
    split
    case h_1 error _ =>
      exact error?_copyObject (w := (dst.afterPortion o w₁).emit (.partialCopy _ _ error)) hd' ha hb
    case h_2 => exact error?_copyObject (w := dst.afterPortion o w₁) hd' ha hb

/-- **A copy into an object symbol fails atomically.** An error other than a `copyRejected` leaves
the tree and the store as they were; only events are recorded.  The values of `obstacle?` are the
errors of the checks in their order.  Without one `dst` is still bound to the same object after the
scope portion and both objects can be read, and the copy ends in an error just if the native copy is
`Refused`. -/
theorem copyFrom_decided (dst : ObjectBinding) (src : Symbol) (w : Surroundings) :
    let out := ((Symbol.ofObject dst).copyFrom src).run w
    (∀ e, out.1.error? = some e → (∀ target origin, e ≠ .copyRejected target origin) →
      out.1.value = .ofObject dst ∧ ∃ events, out.2 = { w with events := events }) ∧
    (∀ e, dst.obstacle? src w.store = some e → out.1.error? = some e) ∧
    (dst.obstacle? src w.store = none → ∃ o d s, src.object? = some o ∧
      dst.live? w.store = some d ∧ o.live? w.store = some s ∧
      let after := (dst.afterPortion o (w.emit (.copying dst.label src.info.label))).store
      (dst.live? after = some d ∧ (∃ a, after.read d.id = .ok a) ∧ ∃ b, after.read s.id = .ok b) ∧
      (dst.Refused o w.store after → out.1.error? = some (.copyRejected dst.label o.label)) ∧
      (¬ dst.Refused o w.store after → out.1.error? = none)) := by
  intro out
  refine ⟨fun e he hrejected => ?atomic, fun e h => ?obstacle, fun h => ?clear⟩
  case atomic =>
    cases h : dst.obstacle? src w.store with
    | some found =>
      -- everything but the last check comes before the first change
      have hout : out = _ := run_copyFrom_of_obstacle h
      rw [hout]
      exact ⟨rfl, _, rfl⟩
    | none =>
      -- without an obstacle the only error is the refusal, which is excluded
      obtain ⟨o, d, s, -, -, -, -, a, b, -, -, herror⟩ := run_copyFrom_of_clear h
      rw [herror] at he
      split at he
      · exact absurd (Option.some.inj he).symm (hrejected _ _)
      · cases he
  case obstacle => rw [show out = _ from run_copyFrom_of_obstacle h]
  case clear =>
    obtain ⟨o, d, s, ho, hd, hs, hd', a, b, ha, hb, herror⟩ := run_copyFrom_of_clear h
    refine ⟨o, d, s, ho, hd, hs, ⟨hd', ⟨a, ha⟩, b, hb⟩, fun hrefused => ?_, fun hrefused => ?_⟩
    · obtain ⟨d₂, s₂, a₂, b₂, hd₂, hs₂, hne, ha₂, hb₂, hcopy⟩ := hrefused
      -- the parties of the refusal are those that the copy has found
      cases Option.some.inj (hd.symm.trans hd₂)
      cases Option.some.inj (hs.symm.trans hs₂)
      cases Except.ok.inj (ha.symm.trans ha₂)
      cases Except.ok.inj (hb.symm.trans hb₂)
      rw [show out.1.error? = _ from herror, if_pos ⟨hne, hcopy⟩]
    · rw [show out.1.error? = _ from herror, if_neg]
      exact fun h => hrefused ⟨d, s, a, b, hd, hs, h.1, ha, hb, h.2⟩

/-- A counter and a socket: objects of two types. -/
def twoTypes : Surroundings where
  store.objects := #[some ⟨.record .counter { id := "k" }, false⟩,
    some ⟨.record .socket { id := "s" }, false⟩]

/-- An object symbol called `name` that owns the object `id` and holds nothing. -/
def bare (name : String) (id : ObjectId) : ObjectBinding :=
  ⟨⟨⟨name, "", none⟩, .matchingNames, []⟩, some ⟨id, true⟩⟩

theorem copyFrom_decided_two_types :
    (bare "a" ⟨0⟩).obstacle? (.ofObject (bare "b" ⟨1⟩)) twoTypes.store =
        some (.incompatibleNativeType "a" "b" "Counter" "Socket") ∧
      (((Symbol.ofObject (bare "a" ⟨0⟩)).copyFrom (.ofObject (bare "b" ⟨1⟩))).run
        twoTypes).1.value = .ofObject (bare "a" ⟨0⟩) := by
  have hobstacle : (bare "a" ⟨0⟩).obstacle? (.ofObject (bare "b" ⟨1⟩)) twoTypes.store =
      some (.incompatibleNativeType "a" "b" "Counter" "Socket") := by decide +kernel
  obtain ⟨hatomic, hends, -⟩ := copyFrom_decided (bare "a" ⟨0⟩) (.ofObject (bare "b" ⟨1⟩)) twoTypes
  exact ⟨hobstacle, (hatomic _ (hends _ hobstacle) fun _ _ => SymbolError.noConfusion).1⟩

end ObjectBinding

end ConfigTree
