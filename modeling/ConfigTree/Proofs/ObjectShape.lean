import ConfigTree.Proofs.ObjectCopy
import ConfigTree.Proofs.Shape

/-!
# Objects that ask for their own shape

An object symbol has the policy of its scope.  Its copy runs the copy of the scope, which refuses a
source of another shape before it changes anything, but the refusal is taken for the failure of a
child: it is recorded as a partial copy, and the copy of the bound object goes on as if the shapes
had agreed.  So the policy protects the children of an object and not the object.

Main results:
  * `ObjectBinding.run_copyFrom_of_other_shape` — what is left of a copy from another shape;
  * `ObjectBinding.copyFrom_other_shape` — the children stay, nothing is returned of the shapes, and
    the bound object is copied or refuses for itself;
  * `ObjectBinding.other_shape_copied` — a source of another shape is not refused.
-/

namespace ConfigTree

namespace ObjectBinding

variable {dst o : ObjectBinding} {src : Symbol} {w : Surroundings}

/-- The surroundings once a copy of `o` into `dst` has found the mismatch `e` and has recorded it as
a partial copy. -/
def afterRefusal (dst o : ObjectBinding) (src : Symbol) (e : SymbolError) (w : Surroundings) :
    Surroundings :=
  ((w.emit (.copying dst.label src.info.label)).emit (.reported e)).emit
    (.partialCopy dst.label o.label e)

/-- **A copy from another shape records the mismatch `e` and goes on with `copyObject`.** Both sides
have a live object, `d` and `s`, whose types fit, since there is no `obstacle?`. -/
theorem run_copyFrom_of_other_shape (hpolicy : dst.scope.policy = .sameShape)
    (ho : src.object? = some o) {e : SymbolError} (he : dst.scope.shapeMismatch? o.scope = some e)
    (hclear : dst.obstacle? src w.store = none) :
    ∃ d s, dst.live? w.store = some d ∧ o.live? w.store = some s ∧
      (w.store.describe d.id).accepts (w.store.describe s.id) = true ∧
      ((Symbol.ofObject dst).copyFrom src).run w =
        let object := (dst.copyObject o (w.store.describe d.id) s).run (dst.afterRefusal o src e w)
        (⟨.ofObject dst, object.1⟩, object.2) := by
  let w₁ := w.emit (.copying dst.label src.info.label)
  obtain ⟨d, s, hd, hs, hfit, hparties⟩ := run_copyParties_of_clear (w := w₁) ho hclear
  refine ⟨d, s, hd, hs, hfit, ?_⟩
  -- the scope hands back its children untouched, together with the difference
  have hportion (copyChildren : Effect (Attempt (List Symbol))) :
      (dst.scope.copyWith o.scope copyChildren).run w₁ =
        (⟨dst.scope.children, some e⟩, w₁.emit (.reported e)) := by
    unfold Scope.copyWith
    rw [if_pos hpolicy, he]
    rfl
  rw [run_copyFrom_object ho, run_copyWith, hparties]
  dsimp only
  rw [hportion]
  rfl

/-- **An object `dst` whose policy is `sameShape` is copied from any shape.** If there is no
`obstacle?`, so both sides are bound to live objects of fitting types, and `dst` and `src` are not
of the `SameShape`, then the children stay as they are and the mismatch is recorded as a partial
copy (`afterRefusal`).  It is not what the copy ends with, though: that is decided by the bound
objects alone.  One object on both sides is left as it is; a target that refuses the source is left
as it is and reported; any other target is overwritten, and the copy succeeds. -/
theorem copyFrom_other_shape (dst : ObjectBinding) (src : Symbol) (w : Surroundings)
    (hpolicy : dst.scope.policy = .sameShape) (hclear : dst.obstacle? src w.store = none)
    (hshape : ¬ (Symbol.ofObject dst).SameShape src) :
    let out := ((Symbol.ofObject dst).copyFrom src).run w
    ∃ o d s a b e, src.object? = some o ∧ dst.live? w.store = some d ∧
      o.live? w.store = some s ∧ w.store.read d.id = .ok a ∧ w.store.read s.id = .ok b ∧
      dst.scope.shapeMismatch? o.scope = some e ∧ e.isShapeMismatch = true ∧
      out.1.value = .ofObject dst ∧
      (.reported e ∈ out.2.events ∧ .partialCopy dst.label o.label e ∈ out.2.events) ∧
      (∀ e', out.1.error? = some e' → e'.isShapeMismatch = false) ∧
      (d.id = s.id → out.1.error? = none ∧ out.2.store = w.store) ∧
      (d.id ≠ s.id → Native.copyAs? (w.store.describe d.id) a b = none →
        out.1.error? = some (.copyRejected dst.label o.label) ∧ out.2.store = w.store) ∧
      (∀ m, d.id ≠ s.id → Native.copyAs? (w.store.describe d.id) a b = some m →
        out.1.error? = none ∧ out.2.store = w.store.setNative d.id m) := by
  intro out
  cases ho : src.object? with
  | none => simp [obstacle?, ho] at hclear
  | some o =>
    -- the shapes of the symbols are those of their scopes
    have hmismatch : dst.scope.shapeMismatch? o.scope ≠ none := by
      intro hnone
      refine hshape (Symbol.shapeMismatch?_eq_none.1 ?_)
      rw [Symbol.ofObject, Symbol.shapeMismatch?, Symbol.scope?_of_object? ho, Option.bind_some]
      exact hnone
    obtain ⟨e, he⟩ := Option.ne_none_iff_exists'.1 hmismatch
    obtain ⟨d, s, hd, hs, hfit, hrun⟩ := run_copyFrom_of_other_shape hpolicy ho he hclear
    obtain ⟨⟨a, ha⟩, b, hb⟩ := readable_of_accepts hfit
    let w₁ := dst.afterRefusal o src e w
    have hstore : w₁.store = w.store := rfl
    have hout : out = (⟨.ofObject dst, ((dst.copyObject o (w.store.describe d.id) s).run w₁).1⟩,
      ((dst.copyObject o (w.store.describe d.id) s).run w₁).2) := hrun
    have hcopy : w.store.copyObject (w.store.describe d.id) d.id s.id = _ :=
      Store.copyObject_of_read ha hb
    obtain ⟨hfree, hadds⟩ := copyObject_tells dst o (w.store.describe d.id) s w₁
    obtain ⟨told, htold, -⟩ := hadds
    refine ⟨o, d, s, a, b, e, rfl, hd, hs, ha, hb, he, Scope.isShapeMismatch_shapeMismatch? he,
      by rw [hout], ?_, fun e' he' => hfree e' (by rw [hout] at he'; exact he'), ?_, ?_, ?_⟩
    · rw [hout]
      dsimp only
      rw [htold]
      simp [w₁, afterRefusal, Surroundings.emit]
    · intro hsame
      rw [hout, run_copyObject]
      simp [hstore, hd, hsame, Surroundings.emit]
    · intro hne hrefused
      rw [hout, run_copyObject]
      simp [hstore, hd, hne, hcopy, hrefused, Surroundings.emit]
    · intro m hne hm
      rw [hout, run_copyObject]
      simp [hstore, hd, hne, hcopy, hm, Surroundings.emit]

/-- An object symbol whose policy is `sameShape`, that owns the object `id` and holds integers of
the given `names`. -/
def shaped (name : String) (id : ObjectId) (names : List String) : ObjectBinding :=
  ⟨⟨⟨name, "", none⟩, .sameShape, names.map fun child =>
    .scalar ⟨⟨child, "", some ⟨[name]⟩⟩, .value (.int .zero)⟩⟩, some ⟨id, true⟩⟩

/-- Two counters that differ in their `bool` field. -/
def twoCounters : Surroundings where
  store.objects := #[some ⟨.record .counter { id := "k" }, false⟩,
    some ⟨.record .counter { id := "s", fields := { bool := true } }, false⟩]

/-- Objects of which one holds a `child` that the other does not hold are not of the `SameShape`. -/
theorem not_sameShape_shaped {name name' child : String} {id id' : ObjectId}
    {names names' : List String} (h : child ∈ names) (h' : child ∉ names') :
    ¬ (Symbol.ofObject (shaped name id names)).SameShape (.ofObject (shaped name' id' names')) := by
  intro hsame
  have hnames (n : String) (i : ObjectId) (ns : List String) :
      (shaped n i ns).scope.names = ns := by
    simp [shaped, Scope.names, Function.comp_def, Symbol.name, Symbol.info]
  have hpair := (hsame (_, _) (Symbol.mem_pairs.2 ⟨[], _, _, rfl, rfl, Symbol.descend?_nil _, rfl⟩)
    child).1
  exact h' (hnames name' id' names' ▸ hpair ((hnames name id names).symm ▸ h))

theorem copyFrom_other_shape_two_counters :
    (shaped "a" ⟨0⟩ ["x"]).scope.policy = .sameShape ∧
      (shaped "a" ⟨0⟩ ["x"]).obstacle? (.ofObject (shaped "b" ⟨1⟩ [])) twoCounters.store = none ∧
      ¬ (Symbol.ofObject (shaped "a" ⟨0⟩ ["x"])).SameShape (.ofObject (shaped "b" ⟨1⟩ [])) ∧
      ∃ e, e.isShapeMismatch = true ∧ .reported e ∈
        (((Symbol.ofObject (shaped "a" ⟨0⟩ ["x"])).copyFrom (.ofObject (shaped "b" ⟨1⟩ []))).run
          twoCounters).2.events := by
  have hclear : (shaped "a" ⟨0⟩ ["x"]).obstacle? (.ofObject (shaped "b" ⟨1⟩ []))
      twoCounters.store = none := by decide +kernel
  have hshape : ¬ (Symbol.ofObject (shaped "a" ⟨0⟩ ["x"])).SameShape
      (.ofObject (shaped "b" ⟨1⟩ [])) :=
    not_sameShape_shaped (List.mem_singleton_self "x") List.not_mem_nil
  obtain ⟨o, d, s, a, b, e, -, -, -, -, -, -, he, -, ⟨hreported, -⟩, -⟩ := copyFrom_other_shape
    (shaped "a" ⟨0⟩ ["x"]) (.ofObject (shaped "b" ⟨1⟩ [])) twoCounters rfl hclear hshape
  exact ⟨rfl, hclear, hshape, e, he, hreported⟩

/-- **A source of another shape is not refused**: in `twoCounters` a counter whose policy is
`sameShape` takes over a counter that lacks one of its children. -/
theorem other_shape_copied :
    ¬ ∀ (dst : ObjectBinding) (src : Symbol) (w : Surroundings),
      dst.scope.policy = .sameShape → dst.obstacle? src w.store = none →
      ¬ (Symbol.ofObject dst).SameShape src →
      let out := ((Symbol.ofObject dst).copyFrom src).run w
      (∃ e, out.1.error? = some e ∧ e.isShapeMismatch = true) ∧
        out.1.value = .ofObject dst ∧ out.2.store = w.store := by
  intro h
  have hclear : (shaped "a" ⟨0⟩ ["x"]).obstacle? (.ofObject (shaped "b" ⟨1⟩ []))
      twoCounters.store = none := by decide +kernel
  have hshape : ¬ (Symbol.ofObject (shaped "a" ⟨0⟩ ["x"])).SameShape
      (.ofObject (shaped "b" ⟨1⟩ [])) :=
    not_sameShape_shaped (List.mem_singleton_self "x") List.not_mem_nil
  obtain ⟨⟨e, he, -⟩, -⟩ :=
    h (shaped "a" ⟨0⟩ ["x"]) (.ofObject (shaped "b" ⟨1⟩ [])) twoCounters rfl hclear hshape
  have hnone : (((Symbol.ofObject (shaped "a" ⟨0⟩ ["x"])).copyFrom
      (.ofObject (shaped "b" ⟨1⟩ []))).run twoCounters).1.error? = none := by decide +kernel
  cases hnone.symm.trans he

end ObjectBinding

end ConfigTree
