import ConfigTree.Proofs.ObjectCopy
import ConfigTree.Proofs.ScopeOffers
import ConfigTree.Symbol.Clone

/-!
# Poisoned locks

An object that is alive can be out of reach all the same, because its lock is poisoned.  Whatever
needs the object then fails before it changes anything, and says that the lock failed: reading and
changing the object, linking a field, reading and writing through a link, and duplicating it.
Copying is different.  It looks at the types of the two objects first, and through a failing lock a
type is seen as void, which fits nothing.

Main results:
  * `ObjectBinding.poisoned_surfaces` — what each access to a poisoned object ends with;
  * `ObjectBinding.poison_taken_for_void` — a copy reports types that do not fit.
-/

namespace ConfigTree

/-! ## §1. What is seen of a poisoned object. -/

/-- The effect `e` reports the `error`, ends with it, and does nothing else. -/
def Effect.Refuses {α : Type} (e : Effect (Except SymbolError α)) (w : Surroundings)
    (error : SymbolError) : Prop :=
  e.run w = (.error error, w.emit (.reported error))

/-- What hands errors on, `f`, ends with the error that `e` starts with. -/
theorem Effect.Refuses.bind {α β : Type} {e : Effect (Except SymbolError α)} {w : Surroundings}
    {error : SymbolError} (h : e.Refuses w error)
    {f : Except SymbolError α → Effect (Except SymbolError β)}
    (hf : ∀ err, f (.error err) = pure (.error err)) : (e >>= f).Refuses w error := by
  unfold Refuses at h ⊢
  rw [Effect.run_bind, h, hf]
  rfl

namespace Store

variable {s : Store} {id : ObjectId} {n : Native}

theorem read_of_poisoned (h : s.object? id = some ⟨n, true⟩) : s.read id = .error .lockFailed := by
  rw [read, h]
  rfl

/-- Through a failing lock the type of the object `id` is seen as `void` by `describe`. -/
theorem describe_of_poisoned (h : s.object? id = some ⟨n, true⟩) : s.describe id = .void := by
  rw [describe, read_of_poisoned h]

theorem barrier?_of_poisoned (h : s.object? id = some ⟨n, true⟩) (f : Field) :
    (Link.field id f).barrier? s = some .lockFailed := by
  rw [Link.barrier?, h]
  rfl

end Store

namespace ObjectBinding

variable {o dst src : ObjectBinding} {hd : Handle} {n : Native} {w : Surroundings}

/-! ## §2. Reaching for a poisoned object. -/

/-- How a failing lock is put to the author, about the symbol of the given `label`. -/
def locked (label : String) : SymbolError := .access label .lockFailed

theorem live?_of_poisoned (hh : o.handle? = some hd)
    (h : w.store.object? hd.id = some ⟨n, true⟩) : o.live? w.store = some hd := by
  rw [live?, hh, Option.filter_some, Store.isLive, h]
  rfl

theorem object_of_poisoned (hh : o.handle? = some hd)
    (h : w.store.object? hd.id = some ⟨n, true⟩) : o.object.Refuses w (locked o.label) := by
  have hpeek : o.peek w.store = .error (locked o.label) := by
    rw [peek, live?_of_poisoned hh h]
    dsimp only
    rw [Store.read_of_poisoned h]
    rfl
  unfold Effect.Refuses object
  rw [Effect.run_bind, Effect.run_store, hpeek]
  rfl

theorem objectAs_of_poisoned (hh : o.handle? = some hd)
    (h : w.store.object? hd.id = some ⟨n, true⟩) (t : NativeType) :
    (o.objectAs t).Refuses w (locked o.label) :=
  (object_of_poisoned hh h).bind fun _ => rfl

theorem updateObject_of_poisoned {α : Type} (hh : o.handle? = some hd)
    (h : w.store.object? hd.id = some ⟨n, true⟩) (f : Native → α × Native) :
    (o.updateObject f).Refuses w (locked o.label) :=
  (object_of_poisoned hh h).bind fun _ => rfl

theorem updateObjectAs_of_poisoned {α : Type} (hh : o.handle? = some hd)
    (h : w.store.object? hd.id = some ⟨n, true⟩) (t : NativeType) (f : Native → α × Native) :
    (o.updateObjectAs t f).Refuses w (locked o.label) :=
  (object_of_poisoned hh h).bind fun _ => rfl

/-- A field of a poisoned object is not linked by `linkField`: the default cannot be written. -/
theorem linkField_of_poisoned {name : String} {f : Field} {default : f.type.Raw} {v : Value}
    (hh : o.handle? = some hd) (h : w.store.object? hd.id = some ⟨n, true⟩)
    (hvalid : Path.validName name = true) (hfree : o.scope.contains name = false)
    (hdefault : f.type.toValue? default = some v) (description : String) :
    (o.linkField name description f default).Refuses w
      (locked (o.scope.info.childLabel name)) := by
  have hrefusal : o.scope.refusal? name = none := by
    simp [Scope.refusal?, hvalid, hfree]
  have hread : f.type.read default = .ok v := StorageType.read_eq_ok.2 hdefault
  have hwrite : (Link.field hd.id f).write w.store v = .error .lockFailed :=
    Link.write_of_barrier (Link.fits_of_shown rfl hdefault) (Store.barrier?_of_poisoned h f)
  unfold Effect.Refuses
  rw [run_linkField_eq, live?_of_poisoned hh h]
  dsimp only
  rw [Scope.run_addLinked_eq, hrefusal, hread]
  simp only [Except.bind, hwrite]
  rfl

/-- An owned object is duplicated before its children are cloned, so `tryClone` builds nothing. -/
theorem tryClone_of_poisoned (hh : o.handle? = some hd)
    (h : w.store.object? hd.id = some ⟨n, true⟩) (howned : hd.owned = true) :
    (Symbol.ofObject o).tryClone.Refuses w (locked o.label) := by
  have hduplicate : hd.duplicate.run w = (.error .lockFailed, w) := by
    unfold Handle.duplicate
    rw [if_pos howned, Effect.run_bind, Effect.run_store, Store.read_of_poisoned h]
    rfl
  have hhandle : o.duplicateHandle.Refuses w (locked o.label) := by
    unfold Effect.Refuses duplicateHandle
    rw [hh]
    dsimp only
    rw [Effect.run_bind, hduplicate]
    rfl
  rw [Symbol.ofObject, Symbol.tryClone]
  exact hhandle.bind fun _ => rfl

/-! ## §3. Links into a poisoned object. -/

section Scalars

variable {x : Scalar} {id : ObjectId} {f : Field}

theorem barrier?_of_poisoned (hx : x.storage = .linked (.field id f))
    (h : w.store.object? id = some ⟨n, true⟩) : x.barrier? w.store = some .lockFailed := by
  rw [Scalar.barrier?, hx]
  exact Store.barrier?_of_poisoned h f

theorem value_of_poisoned (hx : x.storage = .linked (.field id f))
    (h : w.store.object? id = some ⟨n, true⟩) : x.value.Refuses w (locked x.info.label) := by
  rw [Effect.Refuses, Scalar.run_value, Scalar.peek_of_barrier (barrier?_of_poisoned hx h)]
  rfl

/-- A value `v` that could be converted is not written by `set`. -/
theorem set_of_poisoned {v : Value} (hx : x.storage = .linked (.field id f))
    (h : w.store.object? id = some ⟨n, true⟩) (hfit : x.Fits w.store v) :
    (x.set v).run w =
      (⟨x, some (locked x.info.label)⟩, w.emit (.reported (locked x.info.label))) := by
  rw [Scalar.run_set, Scalar.write_of_barrier hfit (barrier?_of_poisoned hx h)]
  rfl

end Scalars

/-! ## §4. Copying. -/

/-- How a copy between live objects is refused when their types, by `describe`, do not fit. -/
def misfit (dst src : ObjectBinding) (s : Store) : SymbolError :=
  .incompatibleNativeType dst.label src.label (dst.describe s).name (src.describe s).name

theorem isBound_of_poisoned (hh : o.handle? = some hd)
    (h : w.store.object? hd.id = some ⟨n, true⟩) : o.isBound w.store = true := by
  rw [isBound, live?_of_poisoned hh h]
  rfl

theorem describe_of_poisoned (hh : o.handle? = some hd)
    (h : w.store.object? hd.id = some ⟨n, true⟩) : o.describe w.store = .void := by
  rw [describe_of_live? (live?_of_poisoned hh h), Store.describe_of_poisoned h]

/-- Between live objects a copy is refused as a `misfit` if the type of either is seen as `void`. -/
theorem obstacle?_of_void (hdst : dst.isBound w.store = true) (hsrc : src.isBound w.store = true)
    (hvoid : dst.describe w.store = .void ∨ src.describe w.store = .void) :
    dst.obstacle? (.ofObject src) w.store = some (dst.misfit src w.store) := by
  have hrefused : (dst.describe w.store).accepts (src.describe w.store) = false := by
    rcases hvoid with hvoid | hvoid <;> rw [hvoid]
    · exact Descriptor.void_not_accepts _
    · exact Descriptor.not_accepts_void _
  have hsrc' : (Symbol.ofObject src).object? = some src := rfl
  simp only [obstacle?, hsrc', hdst, hsrc, Bool.not_true, Bool.false_eq_true, if_false]
  exact if_pos (Descriptor.accepts_eq_false_iff.1 hrefused)

/-- **What each access to a poisoned object ends with.** Reading it, changing it, linking a field
under a name that is free with a default that is a value, reading and writing through a link to a
field of it, and cloning the binding `o` that owns it all report that the lock failed (`locked`),
and nothing else is done (`Effect.Refuses`).  But a copy between it and another live object, in
either direction, reports types that do not fit (`misfit`), one of them `void`; nothing else is done
either. -/
theorem poisoned_surfaces (o : ObjectBinding) (w : Surroundings) {hd : Handle} {n : Native}
    (hh : o.handle? = some hd) (hpoisoned : w.store.object? hd.id = some ⟨n, true⟩) :
    o.object.Refuses w (locked o.label) ∧
    (∀ t, (o.objectAs t).Refuses w (locked o.label)) ∧
    (∀ (α : Type) (f : Native → α × Native), (o.updateObject f).Refuses w (locked o.label)) ∧
    (∀ t (α : Type) (f : Native → α × Native),
      (o.updateObjectAs t f).Refuses w (locked o.label)) ∧
    (∀ name description (f : Field) (default : f.type.Raw), Path.validName name = true →
      o.scope.contains name = false → (∃ v, f.type.toValue? default = some v) →
      (o.linkField name description f default).Refuses w
        (locked (o.scope.info.childLabel name))) ∧
    (∀ (x : Scalar) f, x.storage = .linked (.field hd.id f) →
      x.value.Refuses w (locked x.info.label) ∧
      ∀ v, x.Fits w.store v → (x.set v).run w =
        (⟨x, some (locked x.info.label)⟩, w.emit (.reported (locked x.info.label)))) ∧
    (hd.owned = true → (Symbol.ofObject o).tryClone.Refuses w (locked o.label)) ∧
    o.describe w.store = .void ∧
    ∀ other : ObjectBinding, other.isBound w.store = true → ∀ dst src,
      (dst = o ∧ src = other ∨ dst = other ∧ src = o) →
      ((Symbol.ofObject dst).copyFrom (.ofObject src)).run w =
        (⟨.ofObject dst, some (dst.misfit src w.store)⟩,
          (w.emit (.copying dst.label src.label)).emit (.reported (dst.misfit src w.store))) := by
  have hbound := isBound_of_poisoned hh hpoisoned
  have hvoid := describe_of_poisoned hh hpoisoned
  refine ⟨object_of_poisoned hh hpoisoned, objectAs_of_poisoned hh hpoisoned,
    fun α f => updateObject_of_poisoned hh hpoisoned f,
    fun t α f => updateObjectAs_of_poisoned hh hpoisoned t f,
    fun name description f default hvalid hfree ⟨v, hdefault⟩ =>
      linkField_of_poisoned hh hpoisoned hvalid hfree hdefault description,
    fun x f hx => ⟨value_of_poisoned hx hpoisoned, fun v hfit => set_of_poisoned hx hpoisoned hfit⟩,
    tryClone_of_poisoned hh hpoisoned, hvoid, ?_⟩
  rintro other hother dst src (⟨rfl, rfl⟩ | ⟨rfl, rfl⟩)
  · exact run_copyFrom_of_obstacle (obstacle?_of_void hbound hother (.inl hvoid))
  · exact run_copyFrom_of_obstacle (obstacle?_of_void hother hbound (.inr hvoid))

/-- Two counters, the lock of the first poisoned. -/
def lockedCounter : Surroundings where
  store.objects := #[some ⟨.record .counter { id := "h" }, true⟩,
    some ⟨.record .counter { id := "s" }, false⟩]

/-- In the surroundings `lockedCounter` the first counter is not read, and a copy into it takes it
for `void`. -/
theorem poisoned_surfaces_counter :
    (bare "a" ⟨0⟩).object.Refuses lockedCounter (.access "a" .lockFailed) ∧
      (((Symbol.ofObject (bare "a" ⟨0⟩)).copyFrom (.ofObject (bare "b" ⟨1⟩))).run
        lockedCounter).1.error? = some (.incompatibleNativeType "a" "b" "void" "Counter") := by
  obtain ⟨hobject, -, -, -, -, -, -, -, hcopy⟩ :=
    @poisoned_surfaces (bare "a" ⟨0⟩) lockedCounter ⟨⟨0⟩, true⟩ (.record .counter { id := "h" })
      rfl rfl
  refine ⟨hobject, ?_⟩
  rw [hcopy (bare "b" ⟨1⟩) rfl _ _ (.inl ⟨rfl, rfl⟩)]
  decide +kernel

/-- **A copy takes poison for the void type**: between live objects of one type it reports types
that do not fit, where the lock of one has failed, as in `lockedCounter`. -/
theorem poison_taken_for_void :
    ¬ ∀ (dst src : ObjectBinding) (w : Surroundings) (d s : Handle) (a b : Resident),
      dst.handle? = some d → src.handle? = some s → w.store.object? d.id = some a →
      w.store.object? s.id = some b → a.native.describe.name = b.native.describe.name →
      a.native.describe.isVoid = false → (a.poisoned = true ∨ b.poisoned = true) →
      ∃ label, (((Symbol.ofObject dst).copyFrom (.ofObject src)).run w).1.error? =
        some (.access label .lockFailed) := by
  intro h
  obtain ⟨label, herror⟩ := h (bare "a" ⟨0⟩) (bare "b" ⟨1⟩) lockedCounter ⟨⟨0⟩, true⟩ ⟨⟨1⟩, true⟩
    ⟨.record .counter { id := "h" }, true⟩ ⟨.record .counter { id := "s" }, false⟩ rfl rfl rfl rfl
    rfl (by decide +kernel) (.inl rfl)
  have hvoid : (((Symbol.ofObject (bare "a" ⟨0⟩)).copyFrom (.ofObject (bare "b" ⟨1⟩))).run
      lockedCounter).1.error? = some (.incompatibleNativeType "a" "b" "void" "Counter") := by
    decide +kernel
  rw [hvoid] at herror
  cases herror

end ObjectBinding

end ConfigTree
