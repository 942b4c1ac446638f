import ConfigTree.Proofs.LinkAccess
import ConfigTree.Proofs.NativeCopy

/-!
# The writes of a copy

A copy writes to the store in two ways: a value goes through a link, and an object takes over the
content of another.  Here such a write is a thing of its own, a `Write`, and the writes of a copy
are a `Script`.  What a script makes of a place depends on what is in the place, whatever is
elsewhere.

Main results:
  * `Script.object?_apply`, `Script.cell?_apply` — a script goes place by place;
  * `Store.Agree.apply` — stores that agree somewhere still agree there after the same script.
-/

namespace ConfigTree

/-! ## §1. Writes. -/

/-- The store after the object `target` is put in place of what it was, if it can be reached and the
`change` is not refused. -/
def Store.rewrite (s : Store) (target : ObjectId) (change : Native → Option Native) : Store :=
  match s.read target with
  | .ok n => ((change n).map (s.setNative target)).getD s
  | .error _ => s

/-- A write that a copy makes to the store. -/
inductive Write where
  /-- The value `v` goes to what the link `l` leads to. -/
  | value (l : Link) (v : Value)
  /-- The object `target` takes over the content of `source`, as the descriptor `d` demands. -/
  | object (d : Descriptor) (target : ObjectId) (source : Native)

/-- Some of these writes in their order. -/
abbrev Script := List Write

namespace Write

/-- The store after a write; one that is refused changes nothing. -/
def apply (s : Store) : Write → Store
  | value l v => match l.write s v with
    | .ok s' => s'
    | .error _ => s
  | object d target source => s.rewrite target fun n => Native.copyAs? d n source

/-- What the write makes of the content `n` of the object `id`, if it is written there and not
refused. -/
def native? (id : ObjectId) (n : Native) : Write → Option Native
  | value (.cell _) _ => none
  | value (.field target f) v => if id = target then (f.type.ofValue? v).bind (n.embed? f) else none
  | object d target source => if id = target then Native.copyAs? d n source else none

/-- What the write makes of the content of the cell `id` of type `t`, if it is written there and not
refused. -/
def raw? (id : CellId) (t : StorageType) : Write → Option t.Raw
  | value (.cell target) v => if id = target then t.ofValue? v else none
  | _ => none

/-- The object `r` behind its lock after the write `l`, by `native?`. -/
def resident (l : Write) (id : ObjectId) (r : Resident) : Resident :=
  if r.poisoned then r else { r with native := (l.native? id r.native).getD r.native }

/-- The cell `c` behind its lock after the write `l`, by `raw?`. -/
def cell (l : Write) (id : CellId) (c : Cell) : Cell :=
  if c.poisoned then c else { c with content := (l.raw? id c.type).getD c.content }

variable {l : Write} {id : ObjectId} {n m : Native}

theorem type_native? (h : l.native? id n = some m) : m.type = n.type := by
  rcases l with ⟨_ | ⟨target, f⟩, v⟩ | ⟨d, target, source⟩
  · cases h
  · dsimp only [native?] at h
    split at h
    · obtain ⟨x, -, hm⟩ := Option.bind_eq_some_iff.1 h
      exact Native.type_embed? hm
    · cases h
  · dsimp only [native?] at h
    split at h
    · exact Native.type_copyAs? h
    · cases h

/-- A write `l` keeps the type of an object and the state of its lock. -/
theorem face_resident (l : Write) (id : ObjectId) (r : Resident) :
    (l.resident id r).native.type = r.native.type ∧ (l.resident id r).poisoned = r.poisoned := by
  unfold resident
  split
  case isTrue => exact ⟨rfl, rfl⟩
  case isFalse =>
    refine ⟨?_, rfl⟩
    cases h : l.native? id r.native with
    | none => rfl
    | some m => exact type_native? h

/-- A write `l` keeps the type of a cell and the state of its lock. -/
theorem face_cell (l : Write) (id : CellId) (c : Cell) :
    (l.cell id c).type = c.type ∧ (l.cell id c).poisoned = c.poisoned := by
  unfold cell
  split <;> exact ⟨rfl, rfl⟩

end Write

/-- Every object `id` after one, `target`, is rewritten by `rewrite`. -/
theorem Store.object?_rewrite (s : Store) (target : ObjectId) (change : Native → Option Native)
    (id : ObjectId) : (s.rewrite target change).object? id = (s.object? id).map fun r =>
      if r.poisoned then r
      else { r with native := (if id = target then change r.native else none).getD r.native } := by
  by_cases hid : id = target
  · subst hid
    unfold rewrite read
    cases hr : s.object? id with
    | none => simp [hr]
    | some r =>
      obtain ⟨n, poisoned⟩ := r
      cases poisoned with
      | true => simp [hr]
      | false => cases hn : change n <;> simp [hr, hn]
  · -- whatever comes of it, another object is written
    have hsame : (s.rewrite target change).object? id = s.object? id := by
      unfold rewrite
      cases s.read target with
      | error e => rfl
      | ok n => cases h : change n <;> simp [h, hid]
    rw [hsame]
    cases s.object? id <;> simp [hid]

namespace Write

/-- Writing a field `f` is a `rewrite` of its object. -/
theorem apply_field (s : Store) (target : ObjectId) (f : Field) (v : Value) :
    (value (.field target f) v).apply s =
      s.rewrite target fun n => (f.type.ofValue? v).bind (n.embed? f) := by
  simp only [apply, Store.rewrite, Link.write, bind, Except.bind]
  cases hx : f.type.ofValue? v with
  | none => cases s.read target <;> simp [StorageType.accept_of_none hx]
  | some x =>
    cases s.read target with
    | error e => simp [StorageType.accept_of_some hx]
    | ok n => cases hm : n.embed? f x <;> simp [StorageType.accept_of_some hx, hm]

/-- Writing a cell is a `setCell`, unless its lock or its type refuses. -/
theorem apply_cell (s : Store) (target : CellId) (v : Value) :
    (value (.cell target) v).apply s = match s.cell? target with
      | some c => if c.poisoned then s
        else ((c.type.ofValue? v).map fun x => s.setCell target { c with content := x }).getD s
      | none => s := by
  simp only [apply, Link.write, bind, Except.bind]
  cases s.cell? target with
  | none => rfl
  | some c =>
    cases hx : c.type.ofValue? v with
    | none => simp [StorageType.accept_of_none hx, hx]
    | some x => by_cases hp : c.poisoned = true <;> simp [StorageType.accept_of_some hx, hx, hp]

/-- **A write goes object by object**, by `resident`. -/
theorem object?_apply (l : Write) (s : Store) (id : ObjectId) :
    (l.apply s).object? id = (s.object? id).map (l.resident id) := by
  rcases l with ⟨target | ⟨target, f⟩, v⟩ | ⟨d, target, source⟩
  · -- a cell is written, and no object
    have hsame : ((value (.cell target) v).apply s).object? id = s.object? id := by
      rw [apply_cell]
      cases s.cell? target with
      | none => rfl
      | some c =>
        dsimp only
        split
        case isTrue => rfl
        case isFalse => cases c.type.ofValue? v <;> rfl
    rw [hsame]
    cases s.object? id with
    | none => rfl
    | some r => simp [resident, native?]
  · rw [apply_field, Store.object?_rewrite]
    rfl
  · exact Store.object?_rewrite s target _ id

/-- **A write goes cell by cell**, by `cell`. -/
theorem cell?_apply (l : Write) (s : Store) (id : CellId) :
    (l.apply s).cell? id = (s.cell? id).map (l.cell id) := by
  have hrewrite (target : ObjectId) (change : Native → Option Native) :
      (s.rewrite target change).cell? id = s.cell? id := by
    unfold Store.rewrite
    split
    case h_2 => rfl
    case h_1 n _ => cases change n <;> rfl
  have hother (h : ∀ t, l.raw? id t = none) : s.cell? id = (s.cell? id).map (l.cell id) := by
    cases s.cell? id with
    | none => rfl
    | some c => simp [cell, h]
  rcases l with ⟨target | ⟨target, f⟩, v⟩ | ⟨d, target, source⟩
  · rw [apply_cell]
    by_cases hid : id = target
    · subst hid
      cases hc : s.cell? id with
      | none => simp [hc]
      | some c =>
        obtain ⟨t, content, poisoned⟩ := c
        cases poisoned with
        | true => simp [cell, hc]
        | false => cases hx : t.ofValue? v <;> simp [cell, raw?, hc, hx, Store.cell?_setCell]
    · rw [← hother fun t => if_neg hid]
      cases s.cell? target with
      | none => rfl
      | some c =>
        dsimp only
        split
        case isTrue => rfl
        case isFalse => cases c.type.ofValue? v <;> simp [Store.cell?_setCell, hid]
  · rw [apply_field, hrewrite, ← hother fun t => rfl]
  · exact (hrewrite target _).trans (hother fun t => rfl)

end Write

namespace Script

/-- The store `s` after the writes of `L`. -/
def apply (L : Script) (s : Store) : Store := L.foldl Write.apply s

/-- An object `r` behind its lock after the writes of `L`. -/
def resident (L : Script) (id : ObjectId) (r : Resident) : Resident :=
  L.foldl (fun r l => l.resident id r) r

/-- A cell `c` behind its lock after the writes of `L`. -/
def cell (L : Script) (id : CellId) (c : Cell) : Cell := L.foldl (fun c l => l.cell id c) c

theorem apply_append (L L' : Script) (s : Store) : apply (L ++ L') s = L'.apply (L.apply s) :=
  List.foldl_append

/-- **The writes of `L` go object by object**, by `resident`. -/
theorem object?_apply (L : Script) (s : Store) (id : ObjectId) :
    (L.apply s).object? id = (s.object? id).map (L.resident id) := by
  induction L generalizing s with
  | nil => exact (Option.map_id_apply).symm
  | cons l L ih =>
    show (Script.apply L (l.apply s)).object? id = _
    rw [ih, Write.object?_apply, Option.map_map]
    rfl

/-- **The writes of `L` go cell by cell**, by `cell`. -/
theorem cell?_apply (L : Script) (s : Store) (id : CellId) :
    (L.apply s).cell? id = (s.cell? id).map (L.cell id) := by
  induction L generalizing s with
  | nil => exact (Option.map_id_apply).symm
  | cons l L ih =>
    show (Script.apply L (l.apply s)).cell? id = _
    rw [ih, Write.cell?_apply, Option.map_map]
    rfl

/-- The writes of `L` keep the type of an object and the state of its lock. -/
theorem face_resident (L : Script) (id : ObjectId) (r : Resident) :
    (L.resident id r).native.type = r.native.type ∧ (L.resident id r).poisoned = r.poisoned := by
  induction L generalizing r with
  | nil => exact ⟨rfl, rfl⟩
  | cons l L ih =>
    obtain ⟨htype, hlock⟩ := l.face_resident id r
    exact ⟨(ih (l.resident id r)).1.trans htype, (ih (l.resident id r)).2.trans hlock⟩

/-- The writes of `L` keep the type of a cell and the state of its lock. -/
theorem face_cell (L : Script) (id : CellId) (c : Cell) :
    (L.cell id c).type = c.type ∧ (L.cell id c).poisoned = c.poisoned := by
  induction L generalizing c with
  | nil => exact ⟨rfl, rfl⟩
  | cons l L ih =>
    obtain ⟨htype, hlock⟩ := l.face_cell id c
    exact ⟨(ih (l.cell id c)).1.trans htype, (ih (l.cell id c)).2.trans hlock⟩

end Script

/-! ## §2. Stores that agree. -/

namespace Store

/-- Two stores `s` and `u` have the same types and locks everywhere, and the same content in some
places. -/
structure Agree (objects : List ObjectId) (cells : List CellId) (s u : Store) : Prop where
  /-- Objects live in both, with the same types and locks, by `face?`. -/
  face : ∀ id, u.face? id = s.face? id
  /-- Cells have the same types and locks, by `cellFace?`. -/
  cellFace : ∀ id, u.cellFace? id = s.cellFace? id
  /-- The given `objects` are the same. -/
  object : ∀ id ∈ objects, u.object? id = s.object? id
  /-- The given `cells` are the same. -/
  cell : ∀ id ∈ cells, u.cell? id = s.cell? id

variable {objects : List ObjectId} {cells : List CellId} {s u : Store}

theorem Agree.refl (objects : List ObjectId) (cells : List CellId) (s : Store) :
    s.Agree objects cells s :=
  ⟨fun _ => rfl, fun _ => rfl, fun _ _ => rfl, fun _ _ => rfl⟩

/-- Stores that differ in what was `Written` through one symbol `Agree` where another leads, if both
have no live object and no cell in common. -/
theorem Agree.of_written {w w' : Surroundings} {objects' : List ObjectId} {cells' : List CellId}
    (h : Surroundings.Written objects' cells' w w')
    (hobjects : ∀ id, w.store.isLive id = true → id ∈ objects' → id ∉ objects)
    (hcells : ∀ id ∈ cells', id ∉ cells) : w.store.Agree objects cells w'.store := by
  refine ⟨h.face, h.cellFace, fun id hid => ?_, fun id hid => ?_⟩
  · by_cases hlive : w.store.isLive id = true
    · exact h.object id fun hmem => hobjects id hlive hmem hid
    · -- what is dead is dead before and after
      have hlive := eq_false_of_ne_true hlive
      have hdead : w'.store.isLive id = false := (h.isLive id).trans hlive
      have hnone {s : Store} (h : s.isLive id = false) : s.object? id = none := by
        simpa [isLive] using h
      rw [hnone hlive, hnone hdead]
  · exact h.cell id fun hmem => hcells id hmem hid

theorem Agree.mono {objects' : List ObjectId} {cells' : List CellId} (h : s.Agree objects cells u)
    (ho : objects' ⊆ objects) (hc : cells' ⊆ cells) : s.Agree objects' cells' u :=
  ⟨h.face, h.cellFace, fun id hid => h.object id (ho hid), fun id hid => h.cell id (hc hid)⟩

theorem face?_script (L : Script) (s : Store) (id : ObjectId) :
    (L.apply s).face? id = s.face? id := by
  rw [face?, L.object?_apply, Option.map_map, face?]
  congr 1
  funext r
  obtain ⟨htype, hlock⟩ := L.face_resident id r
  exact Prod.ext htype hlock

theorem cellFace?_script (L : Script) (s : Store) (id : CellId) :
    (L.apply s).cellFace? id = s.cellFace? id := by
  rw [cellFace?, L.cell?_apply, Option.map_map, cellFace?]
  congr 1
  funext c
  obtain ⟨htype, hlock⟩ := L.face_cell id c
  exact Prod.ext htype hlock

/-- **Stores that `Agree` somewhere still agree there after the same writes**: what a place holds
afterwards depends on what it held, and on nothing else. -/
theorem Agree.apply (h : s.Agree objects cells u) (L : Script) :
    (L.apply s).Agree objects cells (L.apply u) := by
  refine ⟨fun id => ?_, fun id => ?_, fun id hid => ?_, fun id hid => ?_⟩
  · rw [face?_script, face?_script, h.face]
  · rw [cellFace?_script, cellFace?_script, h.cellFace]
  · rw [L.object?_apply, L.object?_apply, h.object id hid]
  · rw [L.cell?_apply, L.cell?_apply, h.cell id hid]

/-- What `describe` says of the type of an object is the `descriptor` of that type, unless its lock
fails. -/
theorem describe_eq_elim (s : Store) (id : ObjectId) : s.describe id =
    ((s.face? id).map fun face => if face.2 then .void else face.1.descriptor).getD .void := by
  unfold describe read face?
  cases s.object? id with
  | none => rfl
  | some r =>
    obtain ⟨n, _ | _⟩ := r <;> rfl

theorem describe_of_face (h : ∀ id, u.face? id = s.face? id) (id : ObjectId) :
    u.describe id = s.describe id := by
  rw [describe_eq_elim, describe_eq_elim, h]

theorem live?_of_face (h : ∀ id, u.face? id = s.face? id) (o : ObjectBinding) :
    o.live? u = o.live? s := by
  unfold ObjectBinding.live?
  congr 1
  funext handle
  rw [isLive_eq_face, isLive_eq_face, h]

/-- What agrees with something that can be read by `read` can be read as the same. -/
theorem Agree.read (h : s.Agree objects cells u) {id : ObjectId} (hid : id ∈ objects) :
    u.read id = s.read id := by
  rw [Store.read, Store.read, h.object id hid]

end Store

/-- Reading through a link `l` depends on its target. -/
theorem Link.read_of_agree {s u : Store} {l : Link} (h : s.Agree l.objects l.cells u) :
    l.read u = l.read s := by
  cases l with
  | cell id => rw [Link.read, Link.read, h.cell id List.mem_cons_self]
  | field target f => rw [Link.read, Link.read, h.read List.mem_cons_self]

theorem Scalar.peek_of_agree {s u : Store} {x : Scalar}
    (h : s.Agree x.storage.objects x.storage.cells u) : x.peek u = x.peek s := by
  obtain ⟨info, v | l⟩ := x
  · rfl
  · exact congrArg (Except.mapError _) (Link.read_of_agree h)

end ConfigTree
