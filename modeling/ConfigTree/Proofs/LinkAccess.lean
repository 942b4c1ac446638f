import ConfigTree.Proofs.Conversion
import ConfigTree.Proofs.Copy

/-!
# Reading and writing through links

A scalar that does not hold its own value is linked to a cell or to a field of an object.  A link is
looked at here as a lens on the store: it holds a content of some type or is barred from it; writing
puts another content there and leaves all other links what they hold.

Main results:
  * `Link.read_of_barrier`, `Link.read_of_clear` — reading in terms of barriers and contents;
  * `Link.write_of_unfit`, `Link.write_of_barrier`, `Link.write_of_clear` — so for writing;
  * `Link.content?_write`, `Link.content?_write_of_ne` — what is held after a write;
  * `Link.write_self` — writing what is held changes nothing;
  * `Link.write_of_shown` — what storage shows can be written to it and is shown again.
-/

namespace ConfigTree

open Surroundings (Written)

/-- What storage of some type `t` holds. -/
abbrev Content := Σ t : StorageType, t.Raw

/-! ## §1. Fields of objects. -/

/-- Every object of the type `f.owner` that has the field `f` shows and takes its content by
`project?`. -/
theorem Native.project?_isSome {n : Native} {f : Field} (h : n.type = f.owner) :
    (n.project? f).isSome := by
  unfold project?
  rw [if_pos h, isSome_get?, h, f.valid]

theorem Native.embed?_isSome {n : Native} {f : Field} (h : n.type = f.owner) (x : f.type.Raw) :
    (n.embed? f x).isSome := by
  unfold embed?
  rw [if_pos h, isSome_set?, h, f.valid]

namespace Store

@[simp] theorem object?_setNative (s : Store) (id other : ObjectId) (n : Native) :
    (s.setNative id n).object? other =
      if other = id then (s.object? other).map fun r => { r with native := n }
      else s.object? other := by
  rw [setNative, object?_modifyObject]
  cases s.object? other <;> rfl

/-- Two stores with the same `objects` and `cells` in the same places are one. -/
theorem ext_of_places {s s' : Store} (ho : s'.objects = s.objects) (hc : s'.cells = s.cells) :
    s' = s := by
  cases s
  cases s'
  cases ho
  cases hc
  rfl

/-- Two stores of one size that show the same by `object?` and `cell?` under every identity are
one. -/
theorem ext_of_identities {s s' : Store} (hsize : s'.objects.size = s.objects.size)
    (ho : ∀ id, s'.object? id = s.object? id) (hc : ∀ id, s'.cell? id = s.cell? id) : s' = s := by
  refine ext_of_places (Array.ext hsize fun i hi hi' => ?_) (Array.ext_getElem? fun i => hc ⟨i⟩)
  have hobject := ho ⟨i⟩
  simpa [object?, hi, hi'] using hobject

/-- An object is what it is after its content `n` is put in place of itself by `setNative`. -/
theorem setNative_self {s : Store} {id : ObjectId} {n : Native} {poisoned : Bool}
    (h : s.object? id = some ⟨n, poisoned⟩) : s.setNative id n = s := by
  refine ext_of_places (Array.ext_getElem? fun i => ?_) rfl
  simp only [setNative, modifyObject, Array.getElem?_modify]
  by_cases hi : id.index = i
  · subst hi
    rw [if_pos rfl]
    have hi : s.objects[id.index]? = some (some ⟨n, poisoned⟩) := by
      simpa [object?, Option.join_eq_some_iff] using h
    simp [hi]
  · rw [if_neg hi]

/-- A cell is what it is after it is put in its own place by `setCell`. -/
theorem setCell_self {s : Store} {id : CellId} {c : Cell} (h : s.cell? id = some c) :
    s.setCell id c = s := by
  refine ext_of_places rfl (Array.ext_getElem? fun i => ?_)
  simp only [setCell, Array.getElem?_setIfInBounds]
  by_cases hi : id.index = i
  · subst hi
    obtain ⟨hlt, hget⟩ := Array.getElem?_eq_some_iff.1 h
    simp [hlt, hget]
  · rw [if_neg hi]

end Store

namespace Link

/-! ## §2. What a link holds, and what bars it. -/

/-- The type of the storage that a link leads to. -/
def type? (s : Store) : Link → Option StorageType
  | cell id => (s.cell? id).map Cell.type
  | field _ f => some f.type

/-- Why the storage that a link leads to is out of reach, if it is: a poisoned cell, or an object
that is gone, is poisoned, or is not of the type `Field.owner` that has the field. -/
def barrier? (s : Store) : Link → Option AccessError
  | cell id => match s.cell? id with
    | none => some .dangling
    | some c => if c.poisoned then some .lockFailed else none
  | field target f => match s.object? target with
    | none => some .dangling
    | some r =>
      if r.poisoned then some .lockFailed
      else if r.native.type = f.owner then none
      else some (mismatch f r.native)

/-- What the storage that a link leads to holds, whether or not it can be reached. -/
def content? (s : Store) : Link → Option Content
  | cell id => (s.cell? id).map fun c => ⟨c.type, c.content⟩
  | field target f =>
    (s.object? target).bind fun r => (r.native.project? f).map fun x => ⟨f.type, x⟩

/-- What bars a link by `barrier?` is the state of its target, never the value, so it is no
conversion error. -/
theorem barrier?_cases {l : Link} {s : Store} {e : AccessError} (h : l.barrier? s = some e) :
    e = .dangling ∨ e = .lockFailed ∨ ∃ expected actual, e = .typeMismatch expected actual := by
  cases l with
  | cell id =>
    simp only [barrier?] at h
    split at h
    · cases h
      exact .inl rfl
    · split at h
      · cases h
        exact .inr (.inl rfl)
      · cases h
  | field target f =>
    simp only [barrier?] at h
    split at h
    · cases h
      exact .inl rfl
    · split at h
      · cases h
        exact .inr (.inl rfl)
      · split at h
        · cases h
        · cases h
          exact .inr (.inr ⟨_, _, rfl⟩)

/-- A link `l` without a `barrier?` has a `content?`. -/
theorem content?_of_clear {l : Link} {s : Store} (h : l.barrier? s = none) :
    ∃ c, l.content? s = some c := by
  cases l with
  | cell id =>
    simp only [barrier?] at h
    cases hc : s.cell? id with
    | none => simp [hc] at h
    | some c => exact ⟨⟨c.type, c.content⟩, by simp [content?, hc]⟩
  | field target f =>
    simp only [barrier?] at h
    cases hr : s.object? target with
    | none => simp [hr] at h
    | some r =>
      simp only [hr] at h
      by_cases hp : r.poisoned = true
      · simp [hp] at h
      by_cases ht : r.native.type = f.owner
      · -- an object of the right type has the field
        obtain ⟨x, hx⟩ := Option.isSome_iff_exists.1 (Native.project?_isSome ht)
        exact ⟨⟨f.type, x⟩, by simp [content?, hr, hx]⟩
      · simp [hp, ht] at h

/-- A content `c` is of the type `type?` of the storage. -/
theorem type?_of_content? {l : Link} {s : Store} {c : Content} (h : l.content? s = some c) :
    l.type? s = some c.1 := by
  cases l with
  | cell id =>
    obtain ⟨d, hd, rfl⟩ := Option.map_eq_some_iff.1 h
    simp [type?, hd]
  | field target f =>
    obtain ⟨r, -, h⟩ := Option.bind_eq_some_iff.1 h
    obtain ⟨x, -, rfl⟩ := Option.map_eq_some_iff.1 h
    rfl

/-- **Reading fails at a `barrier?`**, with its error `e`. -/
theorem read_of_barrier {l : Link} {s : Store} {e : AccessError} (h : l.barrier? s = some e) :
    l.read s = .error e := by
  cases l with
  | cell id =>
    simp only [barrier?] at h
    simp only [read]
    cases hc : s.cell? id with
    | none =>
      simp only [hc] at h
      cases h
      rfl
    | some c =>
      simp only [hc] at h
      by_cases hp : c.poisoned = true
      · simp only [hp, if_true] at h ⊢
        cases h
        rfl
      · simp [hp] at h
  | field target f =>
    simp only [barrier?] at h
    simp only [read, Store.read, Native.project?, bind, Except.bind]
    cases hr : s.object? target with
    | none =>
      simp only [hr] at h
      cases h
      rfl
    | some r =>
      simp only [hr] at h
      by_cases hp : r.poisoned = true
      · simp only [hp, if_true] at h ⊢
        cases h
        rfl
      by_cases ht : r.native.type = f.owner
      · simp [hp, ht] at h
      · simp only [hp, ht, if_false] at h
        cases h
        simp [hp, ht]

/-- **Without a `barrier?`, reading shows the `content?`.** -/
theorem read_of_clear {l : Link} {s : Store} {t : StorageType} {x : t.Raw}
    (h : l.barrier? s = none) (hc : l.content? s = some ⟨t, x⟩) : l.read s = t.read x := by
  cases l with
  | cell id =>
    obtain ⟨c, hcell, hx⟩ := Option.map_eq_some_iff.1 hc
    obtain ⟨type, content, poisoned⟩ := c
    cases hx
    simp only [barrier?, hcell] at h
    simp only [read, hcell]
    cases poisoned with
    | true => simp at h
    | false => rfl
  | field target f =>
    obtain ⟨⟨n, poisoned⟩, hr, hc⟩ := Option.bind_eq_some_iff.1 hc
    obtain ⟨y, hy, hc⟩ := Option.map_eq_some_iff.1 hc
    cases hc
    simp only [barrier?, hr] at h
    cases poisoned with
    | true => simp at h
    | false =>
      simp only [read, Store.read, hr, bind, Except.bind]
      simp [show n.project? f = some y from hy]

/-! ## §3. Writing through a link. -/

/-- **A write succeeds on storage that is there**, whose lock is sound and whose type takes the
value by `ofValue?`. -/
theorem write_eq_ok {l : Link} {s s' : Store} {v : Value} :
    l.write s v = .ok s' ↔
      (∃ id c x, l = .cell id ∧ s.cell? id = some c ∧ c.poisoned = false ∧
        c.type.ofValue? v = some x ∧ s' = s.setCell id { c with content := x }) ∨
      (∃ target f n x m, l = .field target f ∧ s.object? target = some ⟨n, false⟩ ∧
        n.type = f.owner ∧ f.type.ofValue? v = some x ∧ n.set? f.name x = some m ∧
        s' = s.setNative target m) := by
  constructor
  · intro h
    cases l with
    | cell id =>
      left
      simp only [write] at h
      cases hc : s.cell? id with
      | none => simp [hc] at h
      | some c =>
        simp only [hc, bind, Except.bind] at h
        cases hx : c.type.ofValue? v with
        | none => simp [StorageType.accept_of_none hx] at h
        | some x =>
          simp only [StorageType.accept_of_some hx] at h
          by_cases hp : c.poisoned = true
          · simp [hp] at h
          · rw [if_neg hp] at h
            exact ⟨id, c, x, rfl, hc, by simpa using hp, hx, (Except.ok.inj h).symm⟩
    | field target f =>
      right
      simp only [write, bind, Except.bind] at h
      cases hx : f.type.ofValue? v with
      | none => simp [StorageType.accept_of_none hx] at h
      | some x =>
        cases hn : s.read target with
        | error e => simp [StorageType.accept_of_some hx, hn] at h
        | ok n =>
          simp only [StorageType.accept_of_some hx, hn] at h
          by_cases ht : n.type = f.owner
          · cases hm : n.set? f.name x with
            | none => simp [Native.embed?, ht, hm] at h
            | some m =>
              simp only [Native.embed?, ht, if_true, hm] at h
              exact ⟨target, f, n, x, m, rfl, Store.read_eq_ok.1 hn, ht, hx, hm,
                (Except.ok.inj h).symm⟩
          · simp [Native.embed?, ht] at h
  · rintro (⟨id, c, x, rfl, hc, hp, hx, rfl⟩ | ⟨target, f, n, x, m, rfl, hn, ht, hx, hm, rfl⟩)
    · simp [write, hc, StorageType.accept_of_some hx, hp, bind, Except.bind]
    · simp [write, StorageType.accept_of_some hx, Store.read_eq_ok.2 hn, Native.embed?, ht, hm,
        bind, Except.bind]

/-- A value `v` that `ofValue?` does not take is refused before the target is looked at. -/
theorem write_of_unfit {l : Link} {s : Store} {v : Value} {t : StorageType}
    (ht : l.type? s = some t) (hv : t.ofValue? v = none) :
    l.write s v = .error (.conversion v.display t.kind) := by
  cases l with
  | cell id =>
    obtain ⟨c, hc, rfl⟩ := Option.map_eq_some_iff.1 ht
    simp [write, hc, StorageType.accept_of_none hv, bind, Except.bind]
  | field target f =>
    cases ht
    simp [write, StorageType.accept_of_none hv, bind, Except.bind]

/-- A value `v` that fits is stopped by a `barrier?` only. -/
theorem write_of_barrier {l : Link} {s : Store} {v : Value} {e : AccessError}
    (hfit : ∀ t, l.type? s = some t → (t.ofValue? v).isSome) (hb : l.barrier? s = some e) :
    l.write s v = .error e := by
  cases l with
  | cell id =>
    simp only [barrier?] at hb
    simp only [write]
    cases hc : s.cell? id with
    | none =>
      simp only [hc] at hb
      cases hb
      rfl
    | some c =>
      obtain ⟨x, hx⟩ := Option.isSome_iff_exists.1 (hfit c.type (by simp [type?, hc]))
      simp only [hc] at hb
      by_cases hp : c.poisoned = true
      · simp only [hp, if_true] at hb
        cases hb
        simp [StorageType.accept_of_some hx, hp, bind, Except.bind]
      · simp [hp] at hb
  | field target f =>
    obtain ⟨x, hx⟩ := Option.isSome_iff_exists.1 (hfit f.type rfl)
    simp only [barrier?] at hb
    simp only [write, Store.read, StorageType.accept_of_some hx, bind, Except.bind]
    cases hr : s.object? target with
    | none =>
      simp only [hr] at hb
      cases hb
      rfl
    | some r =>
      simp only [hr] at hb
      by_cases hp : r.poisoned = true
      · simp only [hp, if_true] at hb ⊢
        cases hb
        rfl
      by_cases ht : r.native.type = f.owner
      · simp [hp, ht] at hb
      · simp only [hp, ht, if_false] at hb
        cases hb
        simp [hp, ht, Native.embed?]

/-- Without a `barrier?` a value `v` that fits is written. -/
theorem write_of_clear {l : Link} {s : Store} {v : Value}
    (hfit : ∀ t, l.type? s = some t → (t.ofValue? v).isSome) (hb : l.barrier? s = none) :
    ∃ s', l.write s v = .ok s' := by
  cases l with
  | cell id =>
    simp only [barrier?] at hb
    cases hc : s.cell? id with
    | none => simp [hc] at hb
    | some c =>
      obtain ⟨x, hx⟩ := Option.isSome_iff_exists.1 (hfit c.type (by simp [type?, hc]))
      have hp : c.poisoned = false := by simpa [hc] using hb
      exact ⟨_, write_eq_ok.2 (.inl ⟨id, c, x, rfl, hc, hp, hx, rfl⟩)⟩
  | field target f =>
    obtain ⟨x, hx⟩ := Option.isSome_iff_exists.1 (hfit f.type rfl)
    simp only [barrier?] at hb
    cases hr : s.object? target with
    | none => simp [hr] at hb
    | some r =>
      obtain ⟨n, poisoned⟩ := r
      simp only [hr] at hb
      cases poisoned with
      | true => simp at hb
      | false =>
        have ht : n.type = f.owner := by
          by_contra ht
          simp [ht] at hb
        obtain ⟨m, hm⟩ := Option.isSome_iff_exists.1 (Native.embed?_isSome ht x)
        rw [Native.embed?, if_pos ht] at hm
        exact ⟨_, write_eq_ok.2 (.inr ⟨target, f, n, x, m, rfl, hr, ht, hx, hm, rfl⟩)⟩

/-- **What a link holds after a write is the value `v` that was written**, in the type of the
storage, by `ofValue?`. -/
theorem content?_write {l : Link} {s s' : Store} {v : Value} (h : l.write s v = .ok s') :
    ∃ t x, l.type? s = some t ∧ t.ofValue? v = some x ∧ l.content? s' = some ⟨t, x⟩ := by
  obtain ⟨id, c, x, rfl, hc, -, hx, rfl⟩ | ⟨target, f, n, x, m, rfl, hn, ht, hx, hm, rfl⟩ :=
    write_eq_ok.1 h
  · refine ⟨c.type, x, by simp [type?, hc], hx, ?_⟩
    simp [content?, Store.cell?_setCell, hc]
  · refine ⟨f.type, x, rfl, hx, ?_⟩
    have hm' : m.project? f = some x := by
      rw [Native.project?, if_pos ((Native.type_set? hm).trans ht)]
      exact Native.get?_set? hm
    simp [content?, Store.object?_setNative, hn, hm']

/-- **Every link `k` other than `l` holds what it held**, also those to other fields of the same
object. -/
theorem content?_write_of_ne {k l : Link} {s s' : Store} {v : Value} (h : l.write s v = .ok s')
    (hne : k ≠ l) : k.content? s' = k.content? s := by
  obtain ⟨id, c, x, rfl, hc, -, hx, rfl⟩ | ⟨target, f, n, x, m, rfl, hn, ht, hx, hm, rfl⟩ :=
    write_eq_ok.1 h
  · cases k with
    | cell other =>
      have hid : other ≠ id := fun e => hne (congrArg Link.cell e)
      simp [content?, Store.cell?_setCell, hid]
    | field other g => rfl
  · cases k with
    | cell other => rfl
    | field other g =>
      simp only [content?, Store.object?_setNative]
      by_cases hid : other = target
      · subst hid
        simp only [if_true, hn, Option.map_some]
        -- a field of another type is shown neither before nor after, and one of this type differs
        have hproject : m.project? g = n.project? g := by
          unfold Native.project?
          rw [Native.type_set? hm]
          by_cases hg : n.type = g.owner
          · rw [if_pos hg, if_pos hg]
            refine Native.get?_set?_of_ne hm fun hname => hne ?_
            obtain ⟨fo, fn, fv⟩ := f
            obtain ⟨go, gn, gv⟩ := g
            cases hname
            cases ht.symm.trans hg
            rfl
          · rw [if_neg hg, if_neg hg]
        simp [hproject]
      · rw [if_neg hid]

/-- Writing a value `v` that stands for the content that is there changes nothing. -/
theorem write_self {l : Link} {s s' : Store} {v : Value} {t : StorageType} {x : t.Raw}
    (h : l.write s v = .ok s') (hc : l.content? s = some ⟨t, x⟩) (hv : t.ofValue? v = some x) :
    s' = s := by
  obtain ⟨id, c, y, rfl, hcell, -, hy, rfl⟩ | ⟨target, f, n, y, m, rfl, hn, ht, hy, hm, rfl⟩ :=
    write_eq_ok.1 h
  · simp only [content?, hcell, Option.map_some, Option.some.injEq] at hc
    cases hc
    cases hy.symm.trans hv
    exact Store.setCell_self hcell
  · simp only [content?, hn, Option.bind_some] at hc
    obtain ⟨z, hz, hc⟩ := Option.map_eq_some_iff.1 hc
    rw [Native.project?, if_pos ht] at hz
    cases hc
    cases hy.symm.trans hv
    cases hm.symm.trans (Native.set?_get? hz)
    exact Store.setNative_self hn

/-! ## §4. What writing leaves. -/

/-- What bars a link, `barrier?`, is seen from the `face?` of objects and the `cellFace?` of
cells. -/
theorem barrier?_of_face {s u : Store} (hface : ∀ id, u.face? id = s.face? id)
    (hcell : ∀ id, u.cellFace? id = s.cellFace? id) (l : Link) : l.barrier? u = l.barrier? s := by
  cases l with
  | cell id =>
    have hface := hcell id
    simp only [Store.cellFace?] at hface
    simp only [barrier?]
    cases hc : s.cell? id <;> cases hc' : u.cell? id <;> simp_all
  | field target f =>
    have hface := hface target
    simp only [Store.face?] at hface
    simp only [barrier?, mismatch, Native.describe]
    cases hr : s.object? target <;> cases hr' : u.object? target <;> simp_all

/-- So is `type?`, the type of the storage that a link leads to. -/
theorem type?_of_face {s u : Store} (hcell : ∀ id, u.cellFace? id = s.cellFace? id) (l : Link) :
    l.type? u = l.type? s := by
  cases l with
  | cell id =>
    have hface := hcell id
    simp only [Store.cellFace?] at hface
    simp only [type?]
    cases hc : s.cell? id <;> cases hc' : u.cell? id <;> simp_all
  | field target f => rfl

/-- A store that was `Written` has every `barrier?` that it had and no other. -/
theorem barrier?_of_written {objects : List ObjectId} {cells : List CellId} {w w' : Surroundings}
    (h : Written objects cells w w') (l : Link) : l.barrier? w'.store = l.barrier? w.store :=
  barrier?_of_face h.face h.cellFace l

/-- A store that was `Written` has every `type?` that it had. -/
theorem type?_of_written {objects : List ObjectId} {cells : List CellId} {w w' : Surroundings}
    (h : Written objects cells w w') (l : Link) : l.type? w'.store = l.type? w.store :=
  type?_of_face h.cellFace l

/-- Whether a `write` through a link is refused, and why, is seen from the faces too. -/
theorem write_of_face {s u : Store} (hface : ∀ id, u.face? id = s.face? id)
    (hcell : ∀ id, u.cellFace? id = s.cellFace? id) (l : Link) (v : Value) :
    ((∃ s', l.write s v = .ok s') ∧ ∃ u', l.write u v = .ok u') ∨
      ∃ e, l.write s v = .error e ∧ l.write u v = .error e := by
  have hbarrier := barrier?_of_face hface hcell l
  have htype := type?_of_face hcell l
  by_cases hfit : ∀ t, l.type? s = some t → (t.ofValue? v).isSome
  · cases hb : l.barrier? s with
    | none => exact .inl ⟨write_of_clear hfit hb, write_of_clear (htype ▸ hfit) (hbarrier.trans hb)⟩
    | some e =>
      exact .inr ⟨e, write_of_barrier hfit hb, write_of_barrier (htype ▸ hfit) (hbarrier.trans hb)⟩
  · push Not at hfit
    obtain ⟨t, ht, hv⟩ := hfit
    have hv : t.ofValue? v = none := by simpa using hv
    exact .inr ⟨_, write_of_unfit ht hv, write_of_unfit (htype.trans ht) hv⟩

/-- What storage shows, `v`, is fit to be written to it. -/
theorem fits_of_shown {l : Link} {s : Store} {t : StorageType} {x : t.Raw} {v : Value}
    (ht : l.type? s = some t) (h : t.toValue? x = some v) :
    ∀ t', l.type? s = some t' → (t'.ofValue? v).isSome := by
  intro t' ht'
  cases ht.symm.trans ht'
  rw [StorageType.ofValue?_toValue? h]
  rfl

/-- **A value `v` that storage can show is shown once it is written**, and what the link holds then
is `settled`. -/
theorem write_of_shown {l : Link} {w : Surroundings} {t : StorageType} {x : t.Raw} {v : Value}
    (ht : l.type? w.store = some t) (hb : l.barrier? w.store = none) (h : t.toValue? x = some v) :
    ∃ s, l.write w.store v = .ok s ∧ l.content? s = some ⟨t, t.settled x⟩ ∧ l.read s = .ok v := by
  obtain ⟨s, hwrite⟩ := write_of_clear (fits_of_shown ht h) hb
  obtain ⟨t', raw, ht', hraw, hcontent⟩ := content?_write hwrite
  cases ht.symm.trans ht'
  cases (StorageType.ofValue?_toValue? h).symm.trans hraw
  have hclear : l.barrier? s = none := (barrier?_of_written (write_written hwrite) l).trans hb
  refine ⟨s, hwrite, hcontent, ?_⟩
  rw [read_of_clear hclear hcontent, StorageType.read_eq_ok, StorageType.toValue?_settled, h]

end Link

end ConfigTree
