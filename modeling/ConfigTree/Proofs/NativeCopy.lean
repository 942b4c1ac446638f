import ConfigTree.Proofs.ObjectCopy

/-!
# Which native copy runs

Between two bound objects of types that fit, a copy first goes through the scopes and then copies
the objects themselves, once and in one way: by the strategy of the target's type, or in the default
way if that has none.  What the scopes wrote through links to fields of the target does not last,
since the native copy comes later; and unless something below the target leads to the source's
object, the native copy sees that as it was at the call.

Main results:
  * `Native.get?_copyDefault?`, `Native.counted_copyAs?` — a default copy takes over every field,
    and each copy is counted once;
  * `ObjectBinding.run_copyFrom_objects` — the course of a copy between objects of types that fit;
  * `ObjectBinding.copyFrom_dispatches` — the native copy that runs, and what it leaves.
-/

namespace ConfigTree

/-! ## §1. Native copies. -/

namespace Native

variable {a b m : Native} {t : Descriptor}

/-- Only the type `refuser` refuses the copies that are made by `copyDefault?`. -/
theorem isSome_capabilities_copyDefault? (u : NativeType) (source : u.Data) :
    (u.capabilities.copyDefault? source).isSome = true ↔ u ≠ .record .refuser := by
  cases u with
  | record kind =>
    show (if kind = .refuser then none else some source.copyDefault).isSome = true ↔ _
    simp
  | elite => simp [NativeType.capabilities, EliteSelection.capabilities]
  | organism => simp [NativeType.capabilities, Organism.capabilities]

/-- Objects `a` and `b` are copied by `copyDefault?` if they are of one type, but for the type
`refuser`. -/
theorem isSome_copyDefault? (a b : Native) :
    (copyDefault? a b).isSome = true ↔ a.type = b.type ∧ a.type ≠ .record .refuser := by
  unfold copyDefault? copyWith?
  by_cases h : b.type = a.type
  · rw [dif_pos h, Option.isSome_map, isSome_capabilities_copyDefault?]
    simp [h]
  · rw [dif_neg h]
    simp [Ne.symm h]

/-- **A default copy by `copyDefault?` takes over every field.** -/
theorem get?_copyDefault? (h : copyDefault? a b = some m) (f : FieldName) :
    m.get? f = b.get? f := by
  obtain ⟨u, dst, src, change, rfl, rfl, hchange, rfl⟩ := copyWith?_eq_some.1 h
  exact u.contract.get?_copyDefault? hchange dst f

/-- A record counts a copy that was made into it by `copyAs?` once: among the `customCopies` if the
descriptor `t` has a strategy, and else among the `defaultCopies`. -/
theorem counted_copyAs? {kind : RecordKind} {r : Record}
    (h : copyAs? t (.record kind r) b = some m) : ∃ r', m = .record kind r' ∧ r'.id = r.id ∧
      r'.customCopies = r.customCopies + t.strategy?.isSome.toNat ∧
      r'.defaultCopies = r.defaultCopies + t.strategy?.isNone.toNat := by
  unfold copyAs? at h
  cases hstrategy : t.strategy? with
  | none =>
    rw [hstrategy] at h
    obtain ⟨u, dst, src, change, ha, -, hchange, rfl⟩ := copyWith?_eq_some.1 h
    cases ha
    obtain ⟨-, hchange⟩ := Option.ite_none_left_eq_some.1 hchange
    cases hchange
    exact ⟨_, rfl, rfl, rfl, rfl⟩
  | some c =>
    rw [hstrategy] at h
    obtain ⟨u, dst, src, change, ha, -, hchange, rfl⟩ := copyWith?_eq_some.1 h
    cases ha
    -- of the strategies only that of the genomes copies records
    cases c with
    | genome =>
      obtain ⟨-, hchange⟩ := Option.ite_none_right_eq_some.1 hchange
      cases hchange
      exact ⟨_, rfl, rfl, rfl, rfl⟩
    | _ => cases hchange

end Native

/-! ## §2. The course of a copy. -/

/-- What is written by `setNative` to an object that can be read is read there. -/
theorem Store.read_setNative {s : Store} {id : ObjectId} {n : Native} (h : s.read id = .ok n)
    (m : Native) : (s.setNative id m).read id = .ok m := by
  have hobject : (s.setNative id m).object? id = some ⟨m, false⟩ := by
    rw [setNative, object?_modifyObject, if_pos rfl, read_eq_ok.1 h]
    rfl
  exact read_eq_ok.2 hobject

namespace ObjectBinding

variable {dst o : ObjectBinding} {w : Surroundings} {d s : Handle} {a₀ b₀ a b : Native}

/-- The surroundings when a copy comes to the native objects: the scopes are copied, and if that
stopped on the way, the error is recorded as a `partialCopy`. -/
def atNative (dst src : ObjectBinding) (w : Surroundings) : Surroundings :=
  match ((dst.scope.copyFrom src.scope).run w).1.error? with
  | some e => (dst.afterPortion src w).emit (.partialCopy dst.label src.label e)
  | none => dst.afterPortion src w

theorem store_atNative (dst src : ObjectBinding) (w : Surroundings) :
    (dst.atNative src w).store = (dst.afterPortion src w).store := by
  unfold atNative
  split <;> rfl

/-- **The course of a copy between objects of types that fit**: the scopes are copied (`atNative`),
and whatever comes of that the native objects `d` and `s` are. -/
theorem run_copyFrom_objects (hd : dst.live? w.store = some d) (hs : o.live? w.store = some s)
    (hfit : (w.store.describe d.id).accepts (w.store.describe s.id) = true) :
    let w₀ := w.emit (.copying dst.label o.label)
    let native := (dst.copyObject o (w.store.describe d.id) s).run (dst.atNative o w₀)
    ((Symbol.ofObject dst).copyFrom (.ofObject o)).run w =
      (⟨.ofObject { dst with scope := ((dst.scope.copyFrom o.scope).run w₀).1.value }, native.1⟩,
        native.2) := by
  intro w₀ native
  have hparties : (dst.copyParties o).run w₀ = (.ok (w.store.describe d.id, s), w₀) := by
    rw [run_copyParties, show dst.live? w₀.store = some d from hd,
      show o.live? w₀.store = some s from hs]
    exact if_pos hfit
  have hobject : (Symbol.ofObject o).object? = some o := rfl
  rw [run_copyFrom_object hobject, run_copyWith,
    show w.emit (.copying dst.label (Symbol.ofObject o).info.label) = w₀ from rfl, hparties]
  rfl

/-- What a native copy leaves, `some m`, or the error `copyRejected` that it ends with if the target
refuses it. -/
def ended (dst src : ObjectBinding) (custom : Bool) (id : ObjectId) (w : Surroundings) :
    Option Native → Option SymbolError × Surroundings
  | some m => (none, (w.withStore (w.store.setNative id m)).emit
      (.copiedObject dst.label src.label custom true))
  | none => (some (.copyRejected dst.label src.label),
      (w.emit (.copiedObject dst.label src.label custom false)).emit
        (.reported (.copyRejected dst.label src.label)))

/-- The native copy of two objects `a` and `b` that can be read is `ended` with what `copyAs?` makes
of them. -/
theorem run_copyObject_of_read {t : Descriptor} (hd : dst.live? w.store = some d)
    (ha : w.store.read d.id = .ok a) (hb : w.store.read s.id = .ok b) :
    (dst.copyObject o t s).run w =
      if d.id = s.id then (none, w.emit (.sameObject dst.label))
      else dst.ended o t.strategy?.isSome d.id w (Native.copyAs? t a b) := by
  rw [run_copyObject, hd]
  refine if_congr Iff.rfl rfl ?_
  rw [Store.copyObject_of_read ha hb]
  cases Native.copyAs? t a b <;> rfl

/-- A default copy by `copyDefault?` is refused or leaves every field with what the source `b` has
in it. -/
theorem ended_copyDefault? {id : ObjectId} (ha : w.store.read id = .ok a) (b : Native)
    (custom : Bool) : let out := dst.ended o custom id w (Native.copyDefault? a b)
    (out.1 = none ↔ a.type = b.type ∧ a.type ≠ .record .refuser) ∧
      (out.1 = none → ∃ m, out.2.store.read id = .ok m ∧ ∀ f, m.get? f = b.get? f) := by
  have hfits := Native.isSome_copyDefault? a b
  cases hcopied : Native.copyDefault? a b with
  | none =>
    rw [hcopied] at hfits
    exact ⟨⟨nofun, fun hok => nomatch hfits.2 hok⟩, nofun⟩
  | some m =>
    rw [hcopied] at hfits
    have hfields (f : FieldName) : m.get? f = b.get? f := Native.get?_copyDefault? hcopied f
    exact ⟨⟨fun _ => hfits.1 rfl, fun _ => rfl⟩, fun _ => ⟨m, Store.read_setNative ha m, hfields⟩⟩

/-- **The scopes keep the object `id` of a copy readable** (`atNative`), with its type, and do not
write it if nothing below the target leads to it. -/
theorem read_atNative {id : ObjectId} {n : Native} (src : ObjectBinding)
    (h : w.store.read id = .ok n) : ∃ m, (dst.atNative src w).store.read id = .ok m ∧
      m.type = n.type ∧ (id ∉ Symbol.objectsAll dst.scope.children → m = n) := by
  have hw := afterPortion_written dst src w
  obtain ⟨m, hm, htype⟩ := hw.read h
  refine ⟨m, by rw [store_atNative, hm], htype, fun hapart => ?_⟩
  rw [Store.read, hw.object id hapart, ← Store.read, h, Except.ok.injEq] at hm
  exact hm.symm

theorem live?_of_read (hd : dst.handle? = some d) (ha : w.store.read d.id = .ok a) :
    dst.live? w.store = some d := by
  obtain hobject := Store.read_eq_ok.1 ha
  rw [live?, hd, Option.filter_some, Store.isLive, hobject]
  rfl

/-- **Which native copy runs.** Let the object symbols `dst` and `o` be bound to objects `a₀` and
`b₀` that can be read and whose types fit (`Descriptor.accepts`).  Whatever comes of the scopes
(`atNative`), if both have the same object then no native copy runs and the copy succeeds.
Otherwise one native copy runs: by the strategy of the target's type if it has one, and by
`copyDefault?` if not.  It succeeds if that yields an object, which is then the target's and in
which the copy is counted once; it is rejected if not, and the store stays as the scopes left it.
If nothing below the target leads to the source's object, the native copy sees that object as it was
at the call; so a default copy, which is refused only between different types or by the type
`refuser`, leaves every field of the target with what the source had in it then. -/
theorem copyFrom_dispatches (hd : dst.handle? = some d) (hs : o.handle? = some s)
    (ha : w.store.read d.id = .ok a₀) (hb : w.store.read s.id = .ok b₀)
    (hfit : a₀.describe.accepts b₀.describe = true) :
    let out := ((Symbol.ofObject dst).copyFrom (.ofObject o)).run w
    let w₀ := w.emit (.copying dst.label o.label)
    let w₁ := dst.atNative o w₀
    let strategy? := a₀.describe.strategy?
    out.1.value =
      .ofObject { dst with scope := ((dst.scope.copyFrom o.scope).run w₀).1.value } ∧
    (d.id = s.id → (out.1.error?, out.2) = (none, w₁.emit (.sameObject dst.label))) ∧
    (d.id ≠ s.id → ∃ a b, w₁.store.read d.id = .ok a ∧ a.type = a₀.type ∧
      w₁.store.read s.id = .ok b ∧ b.type = b₀.type ∧
      (s.id ∉ Symbol.objectsAll dst.scope.children → b = b₀) ∧
      let copied := match strategy? with
        | some c => Native.copyCustom? c a b
        | none => Native.copyDefault? a b
      (out.1.error?, out.2) = dst.ended o strategy?.isSome d.id w₁ copied ∧
      ∀ m kind r, copied = some m → a = .record kind r → ∃ r', m = .record kind r' ∧
        r'.id = r.id ∧ r'.customCopies = r.customCopies + strategy?.isSome.toNat ∧
          r'.defaultCopies = r.defaultCopies + strategy?.isNone.toNat) ∧
    (d.id ≠ s.id → s.id ∉ Symbol.objectsAll dst.scope.children → strategy? = none →
      (out.1.error? = none ↔ a₀.type = b₀.type ∧ a₀.type ≠ .record .refuser) ∧
      (out.1.error? = none → ∃ m, out.2.store.read d.id = .ok m ∧ ∀ f, m.get? f = b₀.get? f)) := by
  intro out w₀ w₁ strategy?
  have hlive := live?_of_read hd ha
  have hdescribe : w.store.describe d.id = a₀.describe := by rw [Store.describe, ha]
  have hdescribe' : w.store.describe s.id = b₀.describe := by rw [Store.describe, hb]
  have hrun := run_copyFrom_objects hlive (live?_of_read hs hb)
    (by rw [hdescribe, hdescribe', hfit])
  rw [hdescribe] at hrun
  -- the scopes are written in between
  obtain ⟨a, ha₁, htype, -⟩ := @read_atNative dst w₀ d.id a₀ o ha
  obtain ⟨b, hb₁, htype', hsource⟩ := @read_atNative dst w₀ s.id b₀ o hb
  have hend : (out.1.error?, out.2) = (dst.copyObject o a₀.describe s).run w₁ := by
    rw [show out = _ from hrun]
    rfl
  rw [run_copyObject_of_read (live?_of_read hd ha₁) ha₁ hb₁] at hend
  refine ⟨by rw [show out = _ from hrun], fun hsame => hend.trans (if_pos hsame), fun hne => ?_,
    fun hne hapart hdefault => ?_⟩
  · rw [if_neg hne] at hend
    refine ⟨a, b, ha₁, htype, hb₁, htype', hsource, hend, ?_⟩
    rintro m kind r hm rfl
    exact Native.counted_copyAs? hm
  · rw [if_neg hne, Native.copyAs?, show a₀.describe.strategy? = none from hdefault] at hend
    obtain rfl := hsource hapart
    obtain ⟨herror, hleft⟩ := Prod.mk.inj hend
    rw [herror, hleft, ← htype]
    exact ended_copyDefault? ha₁ b _

/-- The text of a `socket`. -/
def socketText : Field := ⟨.record .socket, .record .string, rfl⟩

/-- Two sockets, the second with a text. -/
def sockets : Surroundings where
  store.objects := #[some ⟨.record .socket { id := "k" }, false⟩,
    some ⟨.record .socket { id := "s", fields := { string := "native" } }, false⟩]

/-- An object symbol called `name` that owns the object `id` and holds one scalar. -/
def holding (name : String) (id : ObjectId) (x : Storage) : ObjectBinding :=
  ⟨⟨⟨name, "", none⟩, .matchingNames, [.scalar ⟨⟨"x", "", some ⟨[name]⟩⟩, x⟩]⟩, some ⟨id, true⟩⟩

/-- Between the two `sockets` the scopes write one text to the target through a link, and the native
copy another. -/
theorem copyFrom_dispatches_sockets :
    let dst := holding "a" ⟨0⟩ (.linked (.field ⟨0⟩ socketText))
    let src := holding "b" ⟨1⟩ (.value (.string "scopes"))
    let out := ((Symbol.ofObject dst).copyFrom (.ofObject src)).run sockets
    (dst.atNative src (sockets.emit (.copying "a" "b"))).store.read ⟨0⟩ =
        .ok (.record .socket { id := "k", fields := { string := "scopes" } }) ∧
      out.1.error? = none ∧ ∃ m, out.2.store.read ⟨0⟩ = .ok m ∧
        m.get? socketText.name = some "native" := by
  intro dst src
  obtain ⟨-, -, -, hdefault⟩ := @copyFrom_dispatches dst src sockets ⟨⟨0⟩, true⟩ ⟨⟨1⟩, true⟩
    (.record .socket { id := "k" })
    (.record .socket { id := "s", fields := { string := "native" } })
    rfl rfl rfl rfl (by decide +kernel)
  obtain ⟨hok, hfields⟩ := hdefault (by decide) (by decide) rfl
  have hplain : (Native.record .socket { id := "k" }).type ≠ .record .refuser := by decide
  have herror := hok.2 ⟨rfl, hplain⟩
  obtain ⟨m, hm, hget⟩ := hfields herror
  exact ⟨by decide +kernel, herror, m, hm, hget socketText.name⟩

end ObjectBinding

end ConfigTree
