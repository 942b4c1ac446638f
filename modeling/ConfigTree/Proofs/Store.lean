import ConfigTree.Proofs.Effect

/-!
# Changes of the store

Most operations only write: they change the content of objects and cells and leave their types and
locks alone.  `Surroundings.Written` is the mark of such an operation: it says which objects and
cells may have another content afterwards, and that nothing else differs.

Main results:
  * `Link.write_written` — writing through a link is a write to its target;
  * `Store.copyObject_written` — copying an object is a write to the target of the copy.
-/

namespace ConfigTree

namespace Store

/-! ## §1. The face of an object and of a cell. -/

/-- The type of the object `id` and whether its lock is poisoned, if it is alive. -/
def face? (s : Store) (id : ObjectId) : Option (NativeType × Bool) :=
  (s.object? id).map fun r => (r.native.type, r.poisoned)

/-- The type of the cell `id` and whether its lock is poisoned. -/
def cellFace? (s : Store) (id : CellId) : Option (StorageType × Bool) :=
  (s.cell? id).map fun c => (c.type, c.poisoned)

theorem isLive_eq_face (s : Store) (id : ObjectId) : s.isLive id = (s.face? id).isSome := by
  simp [isLive, face?]

theorem read_eq_ok {s : Store} {id : ObjectId} {n : Native} :
    s.read id = .ok n ↔ s.object? id = some ⟨n, false⟩ := by
  unfold read
  cases s.object? id with
  | none => simp
  | some r =>
    obtain ⟨m, poisoned⟩ := r
    cases poisoned <;> simp

/-- An object that `read` finds has a `face?` that is not poisoned. -/
theorem face?_of_read {s : Store} {id : ObjectId} {n : Native} (h : s.read id = .ok n) :
    s.face? id = some (n.type, false) := by
  rw [face?, read_eq_ok.1 h]
  rfl

/-- An object whose `face?` is not poisoned can be `read`. -/
theorem read_of_face? {s : Store} {id : ObjectId} {t : NativeType}
    (h : s.face? id = some (t, false)) : ∃ n, s.read id = .ok n ∧ n.type = t := by
  unfold face? at h
  obtain ⟨⟨n, poisoned⟩, hr, ht⟩ := Option.map_eq_some_iff.1 h
  obtain ⟨rfl, rfl⟩ := Prod.mk.inj ht
  exact ⟨n, read_eq_ok.2 hr, rfl⟩

/-- An object that `isLive` was made before. -/
theorem index_lt_of_isLive {s : Store} {id : ObjectId} (h : s.isLive id = true) :
    id.index < s.objects.size := by
  by_contra hge
  -- beyond the end of the store there is nothing to be alive
  have hnone : s.objects[id.index]? = none := Array.getElem?_eq_none (by omega)
  simp [isLive, object?, hnone] at h

/-! ## §2. Single changes. -/

@[simp] theorem size_modifyObject (s : Store) (id : ObjectId) (f : Resident → Option Resident) :
    (s.modifyObject id f).objects.size = s.objects.size := by
  simp [modifyObject]

theorem object?_modifyObject_of_ne (s : Store) {id other : ObjectId}
    (f : Resident → Option Resident) (h : other ≠ id) :
    (s.modifyObject id f).object? other = s.object? other := by
  rw [object?_modifyObject, if_neg h]

theorem cell?_setCell (s : Store) (id other : CellId) (x : Cell) :
    (s.setCell id x).cell? other =
      if other = id then (s.cell? other).map fun _ => x else s.cell? other := by
  -- identities differ exactly when their indices do
  have hidx : id.index = other.index ↔ other = id := by
    cases id; cases other; simp [eq_comm]
  simp only [cell?, setCell, Array.getElem?_setIfInBounds, hidx]
  split
  case isTrue h =>
    subst h
    split
    case isTrue hlt => simp [Array.getElem?_eq_getElem hlt]
    case isFalse hge => simp [Array.getElem?_eq_none (Nat.not_lt.1 hge)]
  case isFalse => rfl

@[simp] theorem size_addObject (s : Store) (n : Native) :
    (s.addObject n).objects.size = s.objects.size + 1 := by
  simp [addObject]

end Store

/-! ## §3. Writing. -/

/-- Between `w` and `w'` nothing has happened but writing: only the content of the given `objects`
and `cells` may differ, and even these keep their types and the state of their locks. -/
structure Surroundings.Written (objects : List ObjectId) (cells : List CellId)
    (w w' : Surroundings) : Prop where
  /-- No object was made. -/
  size : w'.store.objects.size = w.store.objects.size
  /-- Objects live as before, with their types and locks. -/
  face : ∀ id, w'.store.face? id = w.store.face? id
  /-- Cells keep their types and locks. -/
  cellFace : ∀ id, w'.store.cellFace? id = w.store.cellFace? id
  /-- No object was destroyed. -/
  destroyed : w'.destroyed = w.destroyed
  /-- The other objects have not changed. -/
  object : ∀ id, id ∉ objects → w'.store.object? id = w.store.object? id
  /-- The other cells have not changed. -/
  cell : ∀ id, id ∉ cells → w'.store.cell? id = w.store.cell? id

namespace Surroundings

variable {objects objects' : List ObjectId} {cells cells' : List CellId} {w w' : Surroundings}

instance : IsPreorder Surroundings (Written objects cells) where
  refl _ := ⟨rfl, fun _ => rfl, fun _ => rfl, rfl, fun _ _ => rfl, fun _ _ => rfl⟩
  trans _ _ _ h k :=
    ⟨k.size.trans h.size, fun id => (k.face id).trans (h.face id),
      fun id => (k.cellFace id).trans (h.cellFace id), k.destroyed.trans h.destroyed,
      fun id hid => (k.object id hid).trans (h.object id hid),
      fun id hid => (k.cell id hid).trans (h.cell id hid)⟩

theorem Written.mono (h : Written objects cells w w') (ho : objects ⊆ objects')
    (hc : cells ⊆ cells') : Written objects' cells' w w' :=
  ⟨h.size, h.face, h.cellFace, h.destroyed, fun id hid => h.object id fun k => hid (ho k),
    fun id hid => h.cell id fun k => hid (hc k)⟩

theorem Written.isLive (h : Written objects cells w w') (id : ObjectId) :
    w'.store.isLive id = w.store.isLive id := by
  rw [Store.isLive_eq_face, Store.isLive_eq_face, h.face]

/-- An object that could be `read` before a write can be read after it, with the same type. -/
theorem Written.read (h : Written objects cells w w') {id : ObjectId} {n : Native}
    (hr : w.store.read id = .ok n) : ∃ m, w'.store.read id = .ok m ∧ m.type = n.type :=
  Store.read_of_face? ((h.face id).trans (Store.face?_of_read hr))

/-- Surroundings with the same `store` and the same `destroyed` objects differ in events only. -/
theorem Written.of_eq (hs : w'.store = w.store) (hd : w'.destroyed = w.destroyed) :
    Written objects cells w w' := by
  refine ⟨?_, fun id => ?_, fun id => ?_, hd, fun id _ => ?_, fun id _ => ?_⟩ <;> rw [hs]

/-- An event `e` before a write is no part of it. -/
theorem Written.of_emit {e : Event} (h : Written objects cells (w.emit e) w') :
    Written objects cells w w' :=
  IsTrans.trans _ (w.emit e) _ (of_eq rfl rfl) h

/-- To put `n` in place of an object of its type is to write that object. -/
theorem written_setNative {id : ObjectId} {n : Native} (hid : id ∈ objects)
    (ht : ∀ r, w.store.object? id = some r → n.type = r.native.type) :
    Written objects cells w (w.withStore (w.store.setNative id n)) := by
  refine ⟨by simp [Store.setNative], fun other => ?_, fun _ => rfl, rfl, fun other ho => ?_,
    fun _ _ => rfl⟩
  -- the face is the type and the lock, and neither is written
  · simp only [Store.face?, store_withStore, Store.setNative, Store.object?_modifyObject]
    split
    case isTrue h =>
      subst h
      cases hr : w.store.object? other with
      | none => rfl
      | some r => simp [ht r hr]
    case isFalse => rfl
  · exact Store.object?_modifyObject_of_ne _ _ fun h => ho (h ▸ hid)

/-- To put the content `x` in place of that of a cell is to write the cell. -/
theorem written_setCell {id : CellId} {c : Cell} (hid : id ∈ cells) (hc : w.store.cell? id = some c)
    (x : c.type.Raw) :
    Written objects cells w (w.withStore (w.store.setCell id { c with content := x })) := by
  refine ⟨rfl, fun _ => rfl, fun other => ?_, rfl, fun _ _ => rfl, fun other ho => ?_⟩
  · simp only [Store.cellFace?, store_withStore, Store.cell?_setCell]
    split
    case isTrue h =>
      subst h
      simp [hc]
    case isFalse => rfl
  · rw [store_withStore, Store.cell?_setCell, if_neg fun h : other = id => ho (h ▸ hid)]

end Surroundings

/-! ## §4. Links and copies write. -/

namespace Link

/-- The object that a `Link` leads to. -/
def objects : Link → List ObjectId
  | cell _ => []
  | field target _ => [target]

/-- The cell that a `Link` leads to. -/
def cells : Link → List CellId
  | cell id => [id]
  | field _ _ => []

end Link

theorem Native.type_embed? {n m : Native} {f : Field} {x : f.type.Raw}
    (h : n.embed? f x = some m) : m.type = n.type := by
  unfold Native.embed? at h
  split at h
  · exact Native.type_set? h
  · cases h

theorem Native.type_copyAs? {d : Descriptor} {a b m : Native} (h : copyAs? d a b = some m) :
    m.type = a.type := by
  unfold copyAs? at h
  split at h
  · exact type_copyWith? h
  · exact type_copyWith? h

/-- **Writing through a link is a write to its target**, which is all that `l.objects` and `l.cells`
hold. -/
theorem Link.write_written {l : Link} {w : Surroundings} {v : Value} {s : Store}
    (h : l.write w.store v = .ok s) : Surroundings.Written l.objects l.cells w (w.withStore s) := by
  cases l with
  | cell id =>
    simp only [write] at h
    cases hc : w.store.cell? id with
    | none => simp [hc] at h
    | some c =>
      simp only [hc] at h
      cases hx : c.type.accept v with
      | error e => simp [hx, bind, Except.bind] at h
      | ok x =>
        simp only [hx, bind, Except.bind] at h
        -- a poisoned cell is not written
        split at h
        · cases h
        · cases h
          exact Surroundings.written_setCell List.mem_cons_self hc x
  | field target f =>
    simp only [write, bind, Except.bind] at h
    cases hx : f.type.accept v with
    | error e => simp [hx] at h
    | ok x =>
      cases hn : w.store.read target with
      | error e => simp [hx, hn] at h
      | ok n =>
        simp only [hx, hn] at h
        cases hm : n.embed? f x with
        | none => simp [hm] at h
        | some m =>
          simp only [hm, Except.ok.injEq] at h
          subst h
          -- embedding into a field leaves the type of the object
          refine Surroundings.written_setNative List.mem_cons_self fun r hr => ?_
          rw [Store.read_eq_ok.1 hn] at hr
          cases hr
          exact Native.type_embed? hm

/-- **Copying an object is a write to the target `dst` of the copy.** -/
theorem Store.copyObject_written {w : Surroundings} {d : Descriptor} {dst src : ObjectId}
    {s : Store} {objects : List ObjectId} (h : w.store.copyObject d dst src = .ok (some s))
    (hid : dst ∈ objects) (cells : List CellId) :
    Surroundings.Written objects cells w (w.withStore s) := by
  simp only [copyObject, bind, Except.bind, pure, Except.pure] at h
  cases ha : w.store.read dst with
  | error e => simp [ha] at h
  | ok a =>
    cases hb : w.store.read src with
    | error e => simp [ha, hb] at h
    | ok b =>
      simp only [ha, hb, Except.ok.injEq] at h
      obtain ⟨m, hm, rfl⟩ := Option.map_eq_some_iff.1 h
      refine Surroundings.written_setNative hid fun r hr => ?_
      rw [read_eq_ok.1 ha] at hr
      cases hr
      exact Native.type_copyAs? hm

end ConfigTree
