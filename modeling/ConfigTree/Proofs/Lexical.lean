import ConfigTree.Proofs.Addressing
import ConfigTree.Proofs.Assignment
import ConfigTree.Proofs.Shape

/-!
# Lexical lookup

A lexical lookup walks from a path outward, one name less at each step, and resolves every path on
the way from the root again.  A path that leads nowhere, or to a symbol that holds no others, is
passed over.  So the lookup comes to an end at the root at the latest, and what it finds is the
child of the innermost scope that has one of the name.

Main results:
  * `Symbol.lexical?_step` — a lookup looks in one scope and goes on one step further out;
  * `Symbol.lexical?_eq_some_iff`, `Symbol.lexical?_eq_none_iff` — what is found is defined
    innermost, and nothing is found only if no scope on the way defines the name;
  * `Symbol.Innermost.path_eq` — the path of what is found in a coherent tree;
  * `Symbol.lexical?_finds_innermost` — all of this, with the trees of every run.
-/

namespace ConfigTree

/-! ## §1. One step of the lookup. -/

namespace Symbol

variable {x y : Symbol} {p q start : Path} {k name : String}

/-- The child called `name` in the scope at the path `p`, if a scope is there and has one. -/
def defined? (x : Symbol) (p : Path) (name : String) : Option Symbol :=
  (x.scopeAt? p).bind (·.lookup? name)

theorem defined?_eq_some : x.defined? p name = some y ↔
    ∃ c, x.scopeAt? p = some c ∧ c.lookup? name = some y :=
  Option.bind_eq_some_iff

theorem defined?_eq_none : x.defined? p name = none ↔
    ∀ c, x.scopeAt? p = some c → c.contains name = false := by
  rw [defined?, Option.bind_eq_none_iff]
  simp only [Scope.contains, Option.isSome_eq_false_iff, Option.isNone_iff_eq_none]

theorem lexical?_root (x : Symbol) (name : String) :
    x.lexical? .root name = x.defined? .root name := by
  rw [lexical?, Path.ancestors_root, List.findSome?_singleton, defined?]

theorem lexical?_child (x : Symbol) (p : Path) (k name : String) :
    x.lexical? (p.child k) name = (x.defined? (p.child k) name).or (x.lexical? p name) := by
  rw [lexical?, Path.ancestors_child, List.findSome?_cons, lexical?, defined?]
  cases (x.scopeAt? (p.child k)).bind (·.lookup? name) <;> rfl

/-- **A lookup by `lexical?` looks in the scope at the path `start`, and goes on from the path of
the enclosing one.** -/
theorem lexical?_step (x : Symbol) (start : Path) (name : String) :
    x.lexical? start name =
      (x.defined? start name).or (start.parent?.bind fun p => x.lexical? p name) := by
  cases start using Path.induct with
  | root => rw [lexical?_root, Path.parent?_root, Option.bind_none, Option.or_none]
  | child p k => rw [lexical?_child, Path.parent?_child, Option.bind_some]

/-! ## §2. The innermost definition. -/

/-- The symbol `y` is the child called `name` of the scope at `q`, which is the longest way down to
`start` at which there is a scope with such a child. -/
structure Innermost (x : Symbol) (start : Path) (name : String) (q : Path) (y : Symbol) : Prop where
  /-- The path `q` of the scope is `start` or outward from it. -/
  outward : q.isPrefixOf start = true
  /-- The scope at `q` has the symbol `y` as its child called `name`. -/
  defined : ∃ c, x.scopeAt? q = some c ∧ c.lookup? name = some y
  /-- The scopes further in, at a longer prefix `r` of `start`, have no child called `name`. -/
  hidden : ∀ r c, r.isPrefixOf start = true → q.depth < r.depth → x.scopeAt? r = some c →
    c.contains name = false

/-- There is one `Innermost` definition. -/
theorem Innermost.unique {q' : Path} {y' : Symbol} (h : x.Innermost start name q y)
    (h' : x.Innermost start name q' y') : q = q' ∧ y = y' := by
  -- of two prefixes of one path, the shorter would be hidden by the longer
  have hdepth {q q' : Path} {y y' : Symbol} (h : x.Innermost start name q y)
      (h' : x.Innermost start name q' y') : q'.depth ≤ q.depth := by
    obtain ⟨c, hc, hy⟩ := h'.defined
    by_contra hlt
    have hnone := h.hidden q' c h'.outward (Nat.lt_of_not_le hlt) hc
    rw [Scope.contains, hy] at hnone
    cases hnone
  have hlength : q.segments.length = q'.segments.length := Nat.le_antisymm (hdepth h' h) (hdepth h h')
  have hpath : q = q' := by
    have hpre := List.prefix_of_prefix_length_le (Path.isPrefixOf_iff.1 h.outward)
      (Path.isPrefixOf_iff.1 h'.outward) (Nat.le_of_eq hlength)
    rw [Path.mk.injEq]
    exact hpre.eq_of_length hlength
  subst hpath
  obtain ⟨c, hc, hy⟩ := h.defined
  obtain ⟨c', hc', hy'⟩ := h'.defined
  rw [hc, Option.some.injEq] at hc'
  rw [← hc', hy, Option.some.injEq] at hy'
  exact ⟨rfl, hy'⟩

theorem innermost_root : x.Innermost .root name q y ↔
    q = .root ∧ x.defined? .root name = some y := by
  constructor
  · intro h
    have hq := Path.isPrefixOf_root.1 h.outward
    exact ⟨hq, defined?_eq_some.2 (hq ▸ h.defined)⟩
  · rintro ⟨rfl, hy⟩
    refine ⟨Path.isPrefixOf_root.2 rfl, defined?_eq_some.1 hy, fun r c hr hlt _ => ?_⟩
    rw [Path.isPrefixOf_root.1 hr] at hlt
    exact absurd hlt (Nat.lt_irrefl _)

/-- The `Innermost` definition is the one at the path `p.child k` itself, or else the innermost one
from `p` outward. -/
theorem innermost_child : x.Innermost (p.child k) name q y ↔
    q = p.child k ∧ x.defined? (p.child k) name = some y ∨
      x.defined? (p.child k) name = none ∧ x.Innermost p name q y := by
  constructor
  · intro h
    rcases Path.isPrefixOf_child.1 h.outward with rfl | hq
    · exact .inl ⟨rfl, defined?_eq_some.2 h.defined⟩
    · have hlt : q.depth < (p.child k).depth := by
        rw [Path.depth_child]
        exact Nat.lt_succ_of_le (Path.depth_le_of_isPrefixOf hq)
      refine .inr ⟨defined?_eq_none.2 fun c => h.hidden _ c ?_ hlt, hq, h.defined, ?_⟩
      · exact Path.isPrefixOf_child.2 (.inl rfl)
      · exact fun r c hr => h.hidden r c (Path.isPrefixOf_child.2 (.inr hr))
  · rintro (⟨rfl, hy⟩ | ⟨hnone, h⟩)
    · refine ⟨Path.isPrefixOf_child.2 (.inl rfl), defined?_eq_some.1 hy, fun r c hr hlt _ => ?_⟩
      rcases Path.isPrefixOf_child.1 hr with rfl | hr
      · exact absurd hlt (Nat.lt_irrefl _)
      · have := Path.depth_le_of_isPrefixOf hr
        rw [Path.depth_child] at hlt
        omega
    · refine ⟨Path.isPrefixOf_child.2 (.inr h.outward), h.defined, fun r c hr hlt hc => ?_⟩
      rcases Path.isPrefixOf_child.1 hr with rfl | hr
      · exact defined?_eq_none.1 hnone c hc
      · exact h.hidden r c hr hlt hc

/-- **A lookup by `lexical?` finds the `Innermost` definition**, by induction on the path it starts
from. -/
theorem lexical?_eq_some_iff :
    x.lexical? start name = some y ↔ ∃ q, x.Innermost start name q y := by
  induction start using Path.induct with
  | root =>
    rw [lexical?_root]
    simp only [innermost_root, exists_eq_left]
  | child p k ih =>
    rw [lexical?_child, Option.or_eq_some_iff, ih]
    simp only [innermost_child, exists_or, exists_eq_left, exists_and_left]

/-- **A lookup by `lexical?` finds nothing only if no scope on the way defines the name.** -/
theorem lexical?_eq_none_iff : x.lexical? start name = none ↔
    ∀ q c, q.isPrefixOf start = true → x.scopeAt? q = some c → c.contains name = false := by
  rw [lexical?, List.findSome?_eq_none_iff]
  constructor
  · intro h q c hq
    exact defined?_eq_none.1 (h q (Path.mem_outward.2 hq)) c
  · intro h q hq
    exact defined?_eq_none.2 fun c => h q c (Path.mem_outward.1 hq)

/-! ## §3. Where the definition is. -/

/-- **What is defined at a path `q` of a `Coherent` tree has a path that goes on from it by the
name**, below the path of the root. -/
theorem Innermost.path_eq (hx : x.Coherent) (h : x.Innermost start name q y) :
    y.info.path = ⟨x.info.path.segments ++ (q.child name).segments⟩ := by
  obtain ⟨c, hc, hy⟩ := h.defined
  obtain ⟨z, hz, hscope⟩ := Option.bind_eq_some_iff.1 hc
  rw [← child?_of_scope? hscope] at hy
  have hdescend : x.descend? (q.child name).segments = some y := by
    rw [Path.child, descend?_append, hz, Option.bind_some, descend?_cons, hy, Option.bind_some,
      descend?_nil]
  exact hx.path_of_at (at_of_descend? hdescend)

/-- **Lexical lookup finds the innermost definition.** In every tree `x`, from every path `start`
and for every `name`: `lexical?` looks in the scope at the path, if one is there, and goes on from
`start.parent?`, the path without its last name, which is shorter, until there is none left.  It
finds a symbol exactly if that is the `Innermost` child of the name, in the scope at the longest
prefix of the path at which a scope has such a child, and that prefix is one only; it finds none
exactly if no prefix has such a scope.  In the tree of a slot after any run, if its root is below no
other scope, what is found at the prefix `q` has the path `q.child name`. -/
theorem lexical?_finds_innermost (x : Symbol) (start : Path) (name : String) :
    (x.lexical? start name = ((x.scopeAt? start).bind (·.lookup? name)).or
        (start.parent?.bind fun p => x.lexical? p name) ∧
      ∀ p, start.parent? = some p → p.depth < start.depth) ∧
    (∀ y, x.lexical? start name = some y ↔ ∃ q, x.Innermost start name q y) ∧
    (∀ q q' y y', x.Innermost start name q y → x.Innermost start name q' y' → q = q' ∧ y = y') ∧
    (x.lexical? start name = none ↔
      ∀ q c, q.isPrefixOf start = true → x.scopeAt? q = some c → c.contains name = false) ∧
    (∀ ops slot, (Session.after ops).slots.get? slot = some x → x.info.parent? = none →
      ∀ q y, x.Innermost start name q y → y.info.path = q.child name) := by
  refine ⟨⟨lexical?_step x start name, fun p => Path.depth_lt_of_parent?⟩,
    fun y => lexical?_eq_some_iff, fun q q' y y' => Innermost.unique, lexical?_eq_none_iff, ?_⟩
  intro ops slot hslot hroot q y h
  -- the root of a slot is below no path, so the names below it are the whole path
  have hpath : x.info.path = .root := by rw [Info.path, hroot]
  rw [h.path_eq ((Session.settled_after ops).slots slot x hslot).coherent, hpath]
  rfl

end Symbol

/-- A run that builds a tree in which the name `x` of the root is defined again in the object
`o`. -/
def Session.nesting : List Operation :=
  [.newScope "root" "root" "" .matchingNames, .addScalar ⟨"root", .root⟩ "x" "" (.bool true),
    .addScalar ⟨"root", .root⟩ "y" "" (.bool true),
    .addObject ⟨"root", .root⟩ "o" "" (some (.own (.record .counter { id := "k" }))),
    .addScalar ⟨"root", ⟨["o"]⟩⟩ "x" "" (.bool false), .addScope ⟨"root", ⟨["o"]⟩⟩ "in" ""]

/-- In the run `nesting`, from a path through an inner scope to nothing, `x` is the one of the
object `o` and not the one of the root; from a path through a scalar, it is the one of the root. -/
theorem Symbol.lexical?_finds_innermost_nesting :
    ∃ x y z, (Session.after Session.nesting).slots.get? "root" = some x ∧
      x.Innermost ⟨["o", "in", "away"]⟩ "x" ⟨["o"]⟩ y ∧ y.info.path = ⟨["o", "x"]⟩ ∧
      x.Innermost ⟨["x", "y"]⟩ "y" .root z ∧ x.lexical? ⟨["o", "in"]⟩ "away" = none := by
  have hlooked : ((Session.after Session.nesting).slots.get? "root").map (fun x =>
      (x.info.parent?, (x.lexical? ⟨["o", "in", "away"]⟩ "x").map (·.info.path),
        (x.lexical? ⟨["x", "y"]⟩ "y").map (·.info.path),
        (x.lexical? ⟨["o", "in"]⟩ "away").isNone)) =
      some (none, some ⟨["o", "x"]⟩, some ⟨["y"]⟩, true) := by decide +kernel
  obtain ⟨x, hx, hlooked⟩ := Option.map_eq_some_iff.1 hlooked
  simp only [Prod.mk.injEq, Option.map_eq_some_iff, Option.isNone_iff_eq_none] at hlooked
  obtain ⟨hroot, ⟨y, hy, hypath⟩, ⟨z, hz, hzpath⟩, hnone⟩ := hlooked
  -- what is found is defined innermost, and its path says where
  obtain ⟨-, hfound, -, -, hpath⟩ := lexical?_finds_innermost x ⟨["o", "in", "away"]⟩ "x"
  obtain ⟨q, hq⟩ := (hfound y).1 hy
  have hqy := hpath Session.nesting "root" hx hroot q y hq
  obtain ⟨-, hfound, -, -, hpath⟩ := lexical?_finds_innermost x ⟨["x", "y"]⟩ "y"
  obtain ⟨r, hr⟩ := (hfound z).1 hz
  have hrz := hpath Session.nesting "root" hx hroot r z hr
  rw [hypath] at hqy
  rw [hzpath] at hrz
  have hq_eq : q = ⟨["o"]⟩ := Path.eq_of_child_eq hqy.symm
  have hr_eq : r = .root := Path.eq_of_child_eq hrz.symm
  rw [hq_eq] at hq
  rw [hr_eq] at hr
  exact ⟨x, y, z, hx, hq, hypath, hr, hnone⟩

end ConfigTree
