import ConfigTree.Proofs.Store
import ConfigTree.Symbol.Descent
import ConfigTree.Symbol.Release
import Mathlib.Data.List.Basic

/-!
# The tree of a symbol

A symbol holds a list of symbols, so most facts about it are proved by one induction: over the
symbol, with the fact at hand for each child.  This module has that induction, the nodes of a tree
with the names that lead to them, and the three ways to look at a symbol that later proofs need: the
objects it owns, the objects and cells that can be reached through it, and its `blank`, which
forgets everything that copying values may change.

Main results:
  * `Symbol.at_of_descend?` — descending a tree leads to one of its nodes;
  * `Symbol.mem_preorder` — the walk of a tree visits exactly its nodes;
  * `Symbol.count_owned` — the owned objects of a tree are those of its nodes.
-/

namespace ConfigTree

namespace Symbol

/-! ## §1. Induction. -/

/-- Induction on a `Symbol`: a `branch` may assume the `motive` for each of its children. -/
@[elab_as_elim, induction_eliminator]
theorem induct {motive : Symbol → Prop} (scalar : ∀ s, motive (.scalar s))
    (function : ∀ f, motive (.function f))
    (branch : ∀ role info policy cs, (∀ c ∈ cs, motive c) →
      motive (.branch role info policy cs)) : ∀ x, motive x
  | .scalar s => scalar s
  | .function f => function f
  | .branch role info policy cs =>
    branch role info policy cs fun c _ => induct scalar function branch c

theorem rerootAll_eq_map (p : Path) (cs : List Symbol) :
    rerootAll p cs = cs.map (reroot (some p)) := by
  induction cs with
  | nil => rfl
  | cons c cs ih => simp [rerootAll, ih]

theorem rebindAll_eq_map (old new : ObjectId) (cs : List Symbol) :
    rebindAll old new cs = cs.map (rebind old new) := by
  induction cs with
  | nil => rfl
  | cons c cs ih => simp [rebindAll, ih]

theorem ownedAll_eq_flatMap (cs : List Symbol) : ownedAll cs = cs.flatMap owned := by
  induction cs with
  | nil => rfl
  | cons c cs ih => simp [ownedAll, ih]

theorem preorderAll_eq_flatMap (here : Path) (cs : List Symbol) :
    preorderAll here cs = cs.flatMap fun c => c.preorder (here.child c.name) := by
  induction cs with
  | nil => rfl
  | cons c cs ih => simp [preorderAll, ih]

@[simp] theorem ownedAll_append (cs ds : List Symbol) :
    ownedAll (cs ++ ds) = ownedAll cs ++ ownedAll ds := by
  simp [ownedAll_eq_flatMap]

/-! ## §2. The nodes of a tree. -/

/-- A symbol that can be seen as an object by `object?` is one. -/
theorem eq_of_object? {x : Symbol} {o : ObjectBinding} (h : x.object? = some o) :
    x = .ofObject o := by
  unfold object? at h
  split at h
  · cases h; rfl
  · cases h

/-- A symbol that can be seen as a scope by `scope?` is a branch. -/
theorem eq_of_scope? {x : Symbol} {c : Scope} (h : x.scope? = some c) :
    ∃ role, x = .branch role c.info c.policy c.children := by
  unfold scope? at h
  split at h
  · cases h; exact ⟨_, rfl⟩
  · cases h

/-- A list of names leads from a symbol to a node `y` of its tree. -/
def At : Symbol → List String → Symbol → Prop
  | x, [], y => y = x
  | x, k :: ks, y => ∃ c ∈ x.children, c.name = k ∧ c.At ks y

@[simp] theorem at_nil (x y : Symbol) : x.At [] y ↔ y = x := Iff.rfl

@[simp] theorem at_cons (x y : Symbol) (k : String) (ks : List String) :
    x.At (k :: ks) y ↔ ∃ c ∈ x.children, c.name = k ∧ c.At ks y := Iff.rfl

theorem at_append {x z : Symbol} {js ks : List String} :
    x.At (js ++ ks) z ↔ ∃ y, x.At js y ∧ y.At ks z := by
  induction js generalizing x with
  | nil => simp
  | cons j js ih =>
    simp only [List.cons_append, at_cons, ih]
    constructor
    · rintro ⟨c, hc, hj, y, hy, hz⟩
      exact ⟨y, ⟨c, hc, hj, hy⟩, hz⟩
    · rintro ⟨y, ⟨c, hc, hj, hy⟩, hz⟩
      exact ⟨c, hc, hj, y, hy, hz⟩

theorem child?_mem {x c : Symbol} {k : String} (h : x.child? k = some c) :
    c ∈ x.children ∧ c.name = k :=
  ⟨List.mem_of_find?_eq_some h, by simpa using List.find?_some h⟩

@[simp] theorem descend?_nil (x : Symbol) : x.descend? [] = some x := by
  simp [descend?]

theorem descend?_cons (x : Symbol) (k : String) (ks : List String) :
    x.descend? (k :: ks) = (x.child? k).bind fun c => c.descend? ks := by
  simp [descend?]

/-- **Descending a tree by `descend?` leads to one of its nodes.** -/
theorem at_of_descend? {x y : Symbol} {ks : List String} (h : x.descend? ks = some y) :
    x.At ks y := by
  induction ks generalizing x with
  | nil =>
    rw [descend?_nil, Option.some.injEq] at h
    exact h.symm
  | cons k ks ih =>
    rw [descend?_cons] at h
    obtain ⟨c, hc, hy⟩ := Option.bind_eq_some_iff.1 h
    obtain ⟨hmem, hname⟩ := child?_mem hc
    exact ⟨c, hmem, hname, ih hy⟩

/-- The last of the names `ks` that lead to a node `y` is its own. -/
theorem name_of_at {x y : Symbol} {ks : List String} (h : x.At ks y) (hne : ks ≠ []) :
    ks.getLast? = some y.name := by
  induction ks generalizing x with
  | nil => exact absurd rfl hne
  | cons k ks ih =>
    obtain ⟨c, -, hk, hy⟩ := h
    cases ks with
    | nil =>
      rw [at_nil] at hy
      simp [hy, hk]
    | cons k' ks =>
      rw [List.getLast?_cons_cons]
      exact ih hy (List.cons_ne_nil _ _)

/-- **The walk `preorder` of a tree visits its nodes and nothing else.** -/
theorem mem_preorder {x y : Symbol} {here p : Path} :
    (p, y) ∈ x.preorder here ↔ ∃ ks, p = ⟨here.segments ++ ks⟩ ∧ x.At ks y := by
  induction x generalizing here p with
  | scalar s =>
    constructor
    · intro h
      obtain ⟨rfl, rfl⟩ := Prod.mk.inj (List.mem_singleton.1 h)
      exact ⟨[], by simp, rfl⟩
    -- a leaf has no node but itself
    · rintro ⟨_ | ⟨k, ks⟩, rfl, h⟩
      · simp [preorder, (at_nil _ _).1 h]
      · obtain ⟨c, hc, -⟩ := h
        cases hc
  | function f =>
    constructor
    · intro h
      obtain ⟨rfl, rfl⟩ := Prod.mk.inj (List.mem_singleton.1 h)
      exact ⟨[], by simp, rfl⟩
    · rintro ⟨_ | ⟨k, ks⟩, rfl, h⟩
      · simp [preorder, (at_nil _ _).1 h]
      · obtain ⟨c, hc, -⟩ := h
        cases hc
  | branch role info policy cs ih =>
    -- the branch itself, or a node of one of its children, whose path begins with the child
    rw [preorder, preorderAll_eq_flatMap, List.mem_cons, List.mem_flatMap]
    constructor
    · rintro (h | ⟨c, hc, h⟩)
      · obtain ⟨rfl, rfl⟩ := Prod.mk.inj h
        exact ⟨[], by simp, rfl⟩
      · obtain ⟨ks, rfl, hks⟩ := (ih c hc).1 h
        exact ⟨c.name :: ks, by simp [Path.child], c, hc, rfl, hks⟩
    · rintro ⟨_ | ⟨k, ks⟩, rfl, h⟩
      · left
        simp [(at_nil _ _).1 h]
      · obtain ⟨c, hc, rfl, hks⟩ := h
        right
        exact ⟨c, hc, (ih c hc).2 ⟨ks, by simp [Path.child], hks⟩⟩

/-! ## §3. Owned objects. -/

/-- The object that is destroyed with the very node, whatever it holds. -/
def ownedHere? : Symbol → Option ObjectId
  | branch role _ _ _ => role.owned?
  | _ => none

/-- **The objects `owned` in a tree are those that its nodes own by `ownedHere?`**, each as
often. -/
theorem count_owned (x : Symbol) (here : Path) (id : ObjectId) :
    x.owned.count id = (x.preorder here).countP fun node => node.2.ownedHere? = some id := by
  induction x generalizing here with
  | scalar s => simp [owned, preorder, ownedHere?]
  | function f => simp [owned, preorder, ownedHere?]
  | branch role info policy cs ih =>
    rw [owned, preorder, ownedAll_eq_flatMap, preorderAll_eq_flatMap, List.count_append,
      List.countP_cons, List.count_flatMap, List.countP_flatMap]
    -- child by child, wherever the walk of the tree has put it
    have hchildren : cs.map (List.count id ∘ owned) = cs.map ((List.countP fun node =>
        decide (node.2.ownedHere? = some id)) ∘ fun c => c.preorder (here.child c.name)) :=
      List.map_congr_left fun c hc => ih c hc _
    rw [hchildren]
    cases h : role.owned? with
    | none => simp [ownedHere?, h]
    | some own => by_cases heq : own = id <;> simp [ownedHere?, h, heq]

end Symbol

/-! ## §4. What can be reached through a symbol. -/

/-- The objects that a scalar with this `Storage` leads to. -/
def Storage.objects : Storage → List ObjectId
  | value _ => []
  | linked l => l.objects

/-- The cells that a scalar with this `Storage` leads to. -/
def Storage.cells : Storage → List CellId
  | value _ => []
  | linked l => l.cells

/-- The object that a branch of this `Role` is bound to. -/
def Role.objects : Role → List ObjectId
  | scope => []
  | object handle? => handle?.toList.map Handle.id

namespace Symbol

mutual

/-- The objects that are bound or linked somewhere in a symbol. -/
def objects : Symbol → List ObjectId
  | scalar s => s.storage.objects
  | function _ => []
  | branch role _ _ cs => role.objects ++ objectsAll cs

/-- The objects that are bound or linked somewhere in symbols, as `objects` has them. -/
def objectsAll : List Symbol → List ObjectId
  | [] => []
  | c :: cs => c.objects ++ objectsAll cs

end

mutual

/-- The cells that are linked somewhere in a symbol. -/
def cells : Symbol → List CellId
  | scalar s => s.storage.cells
  | function _ => []
  | branch _ _ _ cs => cellsAll cs

/-- The cells that are linked somewhere in symbols, as `cells` has them. -/
def cellsAll : List Symbol → List CellId
  | [] => []
  | c :: cs => c.cells ++ cellsAll cs

end

theorem objectsAll_eq_flatMap (cs : List Symbol) : objectsAll cs = cs.flatMap objects := by
  induction cs with
  | nil => rfl
  | cons c cs ih => simp [objectsAll, ih]

/-- A branch with fewer children, `cs ⊆ ds`, leads to no more objects. -/
theorem objects_branch_subset {role : Role} {info info' : Info} {policy policy' : CopyPolicy}
    {cs ds : List Symbol} (h : cs ⊆ ds) :
    (branch role info policy cs).objects ⊆ (branch role info' policy' ds).objects := by
  intro id hid
  rw [objects, List.mem_append, objectsAll_eq_flatMap, List.mem_flatMap] at hid ⊢
  rcases hid with hid | ⟨c, hc, hid⟩
  · exact .inl hid
  · exact .inr ⟨c, h hc, hid⟩

theorem cellsAll_eq_flatMap (cs : List Symbol) : cellsAll cs = cs.flatMap cells := by
  induction cs with
  | nil => rfl
  | cons c cs ih => simp [cellsAll, ih]

theorem objects_subset_of_at {x y : Symbol} {ks : List String} (h : x.At ks y) :
    y.objects ⊆ x.objects := by
  induction ks generalizing x with
  | nil => rw [(at_nil _ _).1 h]; exact List.Subset.refl _
  | cons k ks ih =>
    obtain ⟨c, hc, -, hy⟩ := h
    cases x with
    | branch role info policy cs =>
      intro id hid
      rw [objects, objectsAll_eq_flatMap, List.mem_append, List.mem_flatMap]
      exact .inr ⟨c, hc, ih hy hid⟩
    | _ => cases hc

/-- What is `owned` below a node `y` is owned below the root `x`. -/
theorem owned_sublist_of_at {x y : Symbol} {ks : List String} (h : x.At ks y) :
    y.owned.Sublist x.owned := by
  induction ks generalizing x with
  | nil => rw [(at_nil _ _).1 h]
  | cons k ks ih =>
    obtain ⟨c, hc, -, hy⟩ := h
    cases x with
    | branch role info policy cs =>
      rw [owned, ownedAll_eq_flatMap, List.flatMap]
      have hchild := List.sublist_flatten_of_mem (List.mem_map_of_mem (f := owned) hc)
      exact ((ih hy).trans hchild).trans (List.sublist_append_left _ _)
    | _ => cases hc

/-- What is `owned` is among the `objects` that are bound. -/
theorem owned_subset_objects (x : Symbol) : x.owned ⊆ x.objects := by
  induction x with
  | branch role info policy cs ih =>
    intro id hid
    rw [owned, ownedAll_eq_flatMap, List.mem_append, List.mem_flatMap] at hid
    rw [objects, objectsAll_eq_flatMap, List.mem_append, List.mem_flatMap]
    rcases hid with ⟨c, hc, hid⟩ | hid
    · exact .inr ⟨c, hc, ih c hc hid⟩
    · left
      -- a branch owns only the object that it is bound to
      rcases role with _ | _ | ⟨own, _ | _⟩
      · cases hid
      · cases hid
      · cases hid
      · exact hid
  | _ => exact List.nil_subset _

theorem cells_subset_of_at {x y : Symbol} {ks : List String} (h : x.At ks y) :
    y.cells ⊆ x.cells := by
  induction ks generalizing x with
  | nil => rw [(at_nil _ _).1 h]; exact List.Subset.refl _
  | cons k ks ih =>
    obtain ⟨c, hc, -, hy⟩ := h
    cases x with
    | branch role info policy cs =>
      intro id hid
      rw [cells, cellsAll_eq_flatMap, List.mem_flatMap]
      exact ⟨c, hc, ih hy hid⟩
    | _ => cases hc

end Symbol

/-! ## §5. What copying values cannot change. -/

/-- A value of a `Kind` that says nothing but the kind. -/
def Value.Kind.blank : Value.Kind → Value
  | bool => .bool false
  | int => .int .zero
  | double => .double .zero
  | string => .string ""

/-- The `Storage` of a scalar with its own value forgotten. -/
def Storage.blank : Storage → Storage
  | value v => .value v.kind.blank
  | linked l => .linked l

namespace Symbol

mutual

/-- The symbol with the values of its scalars and the work of its functions forgotten. -/
def blank : Symbol → Symbol
  | scalar s => .scalar { s with storage := s.storage.blank }
  | function f => .function ⟨f.info, .sum, none⟩
  | branch role info policy cs => .branch role info policy (blankAll cs)

/-- The symbols with all values forgotten, each by `blank`. -/
def blankAll : List Symbol → List Symbol
  | [] => []
  | c :: cs => c.blank :: blankAll cs

end

theorem blankAll_eq_map (cs : List Symbol) : blankAll cs = cs.map blank := by
  induction cs with
  | nil => rfl
  | cons c cs ih => simp [blankAll, ih]

@[simp] theorem info_blank (x : Symbol) : x.blank.info = x.info := by
  cases x <;> rfl

@[simp] theorem objects_storage_blank (s : Storage) : s.blank.objects = s.objects := by
  cases s <;> rfl

@[simp] theorem owned_blank (x : Symbol) : x.blank.owned = x.owned := by
  induction x with
  | branch role info policy cs ih =>
    rw [blank, owned, owned, blankAll_eq_map, ownedAll_eq_flatMap, ownedAll_eq_flatMap,
      List.flatMap_map, List.flatMap_congr ih]
  | _ => rfl

@[simp] theorem objects_blank (x : Symbol) : x.blank.objects = x.objects := by
  induction x with
  | branch role info policy cs ih =>
    rw [blank, objects, objects, blankAll_eq_map, objectsAll_eq_flatMap, objectsAll_eq_flatMap,
      List.flatMap_map, List.flatMap_congr ih]
  | scalar s => simp [blank, objects]
  | function f => rfl

/-- Symbols with the same `blank` have the same name and place. -/
theorem info_of_blank {x y : Symbol} (h : x.blank = y.blank) : x.info = y.info := by
  rw [← info_blank, h, info_blank]

theorem name_of_blank {x y : Symbol} (h : x.blank = y.blank) : x.name = y.name :=
  congrArg Info.name (info_of_blank h)

/-- Symbols with the same `blank` own the same objects. -/
theorem owned_of_blank {x y : Symbol} (h : x.blank = y.blank) : x.owned = y.owned := by
  rw [← owned_blank, h, owned_blank]

/-- Symbols with the same `blank` lead to the same objects. -/
theorem objects_of_blank {x y : Symbol} (h : x.blank = y.blank) : x.objects = y.objects := by
  rw [← objects_blank, h, objects_blank]

@[simp] theorem owned_reroot (parent? : Option Path) (x : Symbol) :
    (x.reroot parent?).owned = x.owned := by
  induction x generalizing parent? with
  | branch role info policy cs ih =>
    rw [reroot, owned, owned, rerootAll_eq_map, ownedAll_eq_flatMap, ownedAll_eq_flatMap,
      List.flatMap_map, List.flatMap_congr fun c hc => ih c hc _]
  | _ => rfl

@[simp] theorem objects_reroot (parent? : Option Path) (x : Symbol) :
    (x.reroot parent?).objects = x.objects := by
  induction x generalizing parent? with
  | branch role info policy cs ih =>
    rw [reroot, objects, objects, rerootAll_eq_map, objectsAll_eq_flatMap, objectsAll_eq_flatMap,
      List.flatMap_map, List.flatMap_congr fun c hc => ih c hc _]
  | _ => rfl

end Symbol

end ConfigTree
