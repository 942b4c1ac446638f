import ConfigTree.Proofs.TreeNodes
import ConfigTree.Proofs.Scalars

/-!
# Stores that differ in what links hold

Values are written to the store through links, and a write changes what its link holds and nothing
else.  Here it is said of two stores that they are the same but for what some links hold, and what
does not notice the difference.

Main results:
  * `Store.SameBut.append` — one change after another;
  * `Store.SameBut.peek`, `Store.SameBut.write_error` — a scalar shows the same unless it is linked
    where the stores differ, and refuses the same values in any case;
  * `Scalar.sameBut_write` — a write to a scalar changes what its link holds.
-/

namespace ConfigTree

open Surroundings (Written)

/-! ## §1. The same but for some links. -/

/-- The object with nothing in the fields that links can lead to, by `Contract.bare`. -/
def Native.bare (n : Native) : Native := ⟨n.type, n.type.contract.bare n.data⟩

theorem Native.bare_set? {n m : Native} {f : FieldName} {x : f.type.Raw} (h : n.set? f x = some m) :
    m.bare = n.bare := by
  obtain ⟨b, hb, rfl⟩ := set?_eq_some.1 h
  exact congrArg (mk n.type) (n.type.contract.bare_set? hb)

/-- An object is what is in its fields by `get?` and what is not, `bare`. -/
theorem Native.eq_of_bare {n m : Native} (hbare : n.bare = m.bare)
    (hfields : ∀ f, n.get? f = m.get? f) : n = m := by
  obtain ⟨t, a⟩ := n
  obtain ⟨u, b⟩ := m
  obtain ⟨rfl, hdata⟩ := Native.mk.inj hbare
  exact congrArg (mk t) (t.contract.eq_of_bare (eq_of_heq hdata) hfields)

/-- Two stores `s` and `u` are the same but for what some `links` hold. -/
structure Store.SameBut (links : List Link) (s u : Store) : Prop where
  /-- There are as many objects. -/
  size : u.objects.size = s.objects.size
  /-- Objects live in both, with the same types and locks, by `face?`. -/
  face : ∀ id, u.face? id = s.face? id
  /-- Cells have the same types and locks, by `cellFace?`. -/
  cellFace : ∀ id, u.cellFace? id = s.cellFace? id
  /-- Every other link `l` holds the same, by `content?`. -/
  content : ∀ l, l ∉ links → l.content? u = l.content? s
  /-- What no link leads to, `bare`, is the same. -/
  bare : ∀ id, (u.object? id).map (·.native.bare) = (s.object? id).map (·.native.bare)

namespace Store.SameBut

variable {links links' : List Link} {s t u : Store}

theorem refl (links : List Link) (s : Store) : s.SameBut links s :=
  ⟨rfl, fun _ => rfl, fun _ => rfl, fun _ _ => rfl, fun _ => rfl⟩

/-- One change at `links` after another at `links'`. -/
theorem append (h : s.SameBut links t) (h' : t.SameBut links' u) : s.SameBut (links ++ links') u :=
  ⟨h'.size.trans h.size, fun id => (h'.face id).trans (h.face id),
    fun id => (h'.cellFace id).trans (h.cellFace id),
    fun l hl => (h'.content l fun hmem => hl (List.mem_append_right _ hmem)).trans
      (h.content l fun hmem => hl (List.mem_append_left _ hmem)),
    fun id => (h'.bare id).trans (h.bare id)⟩

theorem barrier? (h : s.SameBut links u) (l : Link) : l.barrier? u = l.barrier? s :=
  Link.barrier?_of_face h.face h.cellFace l

theorem type? (h : s.SameBut links u) (l : Link) : l.type? u = l.type? s :=
  Link.type?_of_face h.cellFace l

theorem kind (h : s.SameBut links u) (l : Link) : l.kind u = l.kind s := by
  cases l with
  | cell id =>
    have hface := h.cellFace id
    simp only [Store.cellFace?] at hface
    simp only [Link.kind]
    cases hc : s.cell? id <;> cases hc' : u.cell? id <;> simp_all
  | field target f => rfl

/-- What another link `l` shows by `read` is the same. -/
theorem read (h : s.SameBut links u) {l : Link} (hl : l ∉ links) : l.read u = l.read s := by
  cases hb : l.barrier? s with
  | some e => rw [Link.read_of_barrier hb, Link.read_of_barrier ((h.barrier? l).trans hb)]
  | none =>
    obtain ⟨⟨t, x⟩, hc⟩ := Link.content?_of_clear hb
    rw [Link.read_of_clear hb hc,
      Link.read_of_clear ((h.barrier? l).trans hb) ((h.content l hl).trans hc)]

/-- What a scalar `x` shows by `peek` is the same, unless it is linked where they differ. -/
theorem peek (h : s.SameBut links u) {x : Scalar}
    (hx : ∀ l, (Symbol.scalar x).link? = some l → l ∉ links) : x.peek u = x.peek s := by
  obtain ⟨info, v | l⟩ := x
  · rfl
  · exact congrArg (Except.mapError _) (h.read (hx l rfl))

theorem scalarKind (h : s.SameBut links u) (x : Scalar) : x.kind u = x.kind s := by
  obtain ⟨info, v | l⟩ := x
  · rfl
  · exact h.kind l

theorem scalarBarrier? (h : s.SameBut links u) (x : Scalar) : x.barrier? u = x.barrier? s := by
  obtain ⟨info, v | l⟩ := x
  · rfl
  · exact h.barrier? l

theorem scalarFits (h : s.SameBut links u) (x : Scalar) (v : Value) : x.Fits u v ↔ x.Fits s v := by
  obtain ⟨info, current | l⟩ := x
  · rfl
  · simp only [Scalar.Fits, h.type? l]

theorem scalarShown (h : s.SameBut links u) (x : Scalar) (v : Value) :
    x.shown u v = x.shown s v := by
  obtain ⟨info, current | l⟩ := x
  · rfl
  · simp only [Scalar.shown, h.type? l]

/-- Whether a scalar `x` refuses the value `v`, and why, is the same. -/
theorem write_error (h : s.SameBut links u) (x : Scalar) (v : Value) (e : SymbolError) :
    x.write u v = .error e ↔ x.write s v = .error e := by
  by_cases hfit : x.Fits s v
  · have hfit' := (h.scalarFits x v).2 hfit
    cases hb : x.barrier? s with
    | none =>
      obtain ⟨y, s', hs⟩ := Scalar.write_of_clear hfit hb
      obtain ⟨y', u', hu⟩ := Scalar.write_of_clear hfit' ((h.scalarBarrier? x).trans hb)
      simp [hs, hu]
    | some cause =>
      rw [Scalar.write_of_barrier hfit hb,
        Scalar.write_of_barrier hfit' ((h.scalarBarrier? x).trans hb)]
  · have hfit' := fun hfit' => hfit ((h.scalarFits x v).1 hfit')
    rw [Scalar.write_of_unfit hfit, Scalar.write_of_unfit hfit', h.scalarKind x]

end Store.SameBut

/-! ## §2. Writes. -/

/-- **A write changes what the one link `l` holds**: the stores are `SameBut` for it. -/
theorem Link.sameBut_write {l : Link} {s s' : Store} {v : Value} (h : l.write s v = .ok s') :
    s.SameBut [l] s' := by
  have hwritten : Written l.objects l.cells { store := s } { store := s' } :=
    write_written (w := { store := s }) h
  refine ⟨hwritten.size, hwritten.face, hwritten.cellFace,
    fun k hk => content?_write_of_ne h fun e => hk (e ▸ List.mem_cons_self), fun id => ?_⟩
  obtain ⟨id', c, x, rfl, -, -, -, rfl⟩ | ⟨target, f, n, x, m, rfl, hn, -, -, hm, rfl⟩ :=
    write_eq_ok.1 h
  · rfl
  · rw [Store.object?_setNative]
    split
    case isTrue hid =>
      subst hid
      simp [hn, Native.bare_set? hm]
    case isFalse => rfl

/-- **A write to a scalar `x` changes what its link holds**, if it has one. -/
theorem Scalar.sameBut_write {x y : Scalar} {s s' : Store} {v : Value}
    (h : x.write s v = .ok (y, s')) : s.SameBut (Symbol.scalar x).link?.toList s' := by
  obtain ⟨info, current | l⟩ := x
  · simp only [write] at h
    cases hc : v.convert current.kind with
    | none => simp [hc] at h
    | some c =>
      simp only [hc, Except.ok.injEq, Prod.mk.injEq] at h
      obtain ⟨-, rfl⟩ := h
      exact .refl _ s
  · simp only [write] at h
    cases hl : l.write s v with
    | error e => simp [hl] at h
    | ok s'' =>
      simp only [hl, Except.ok.injEq, Prod.mk.injEq] at h
      obtain ⟨-, rfl⟩ := h
      exact Link.sameBut_write hl

/-- A write leaves a link where it leads, by `link?`. -/
theorem Scalar.link?_write {x y : Scalar} {s s' : Store} {v : Value}
    (h : x.write s v = .ok (y, s')) : (Symbol.scalar y).link? = (Symbol.scalar x).link? := by
  obtain ⟨-, hblank⟩ := blank_write h
  obtain ⟨_, _ | l⟩ := x <;> obtain ⟨_, _ | k⟩ := y
  · rfl
  · cases hblank
  · cases hblank
  · cases hblank
    rfl

end ConfigTree
