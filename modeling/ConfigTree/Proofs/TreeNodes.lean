import ConfigTree.Proofs.Copy

/-!
# The nodes of a tree, each for itself

Most of what an operation keeps of a tree it keeps node by node.  `Symbol.nodes` walks a tree and
shows each node without what it holds, so that two trees can be compared in one equation, and a
change of one node shows as a change of one stretch of the walk.  `Symbol.outline` is what no
writing of values changes of a node.

Main results:
  * `Symbol.nodes_replace?` — a replacement changes the stretch of the walk of the node;
  * `Symbol.descend?_replace?_of_apart` — what stands apart from the node is found as before;
  * `Symbol.outlines_of_blank` — trees that differ in values only have the same outlines;
  * `Symbol.OverwrittenAt.split` — a tree of which one node was overwritten, and the one before.
-/

namespace ConfigTree

open Surroundings (Written)

namespace Symbol

variable {x y old new : Symbol} {js ks : List String}

/-! ## §1. The walk of a tree. -/

/-- The symbol `x` without what it holds. -/
def alone (x : Symbol) : Symbol := x.withChildren []

/-- The nodes of the tree `x`, parents before children, each `alone` and with the names that lead to
it. -/
def nodes (here : Path) (x : Symbol) : List (Path × Symbol) :=
  (x.preorder here).map fun node => (node.1, node.2.alone)

@[simp] theorem alone_withChildren (x : Symbol) (cs : List Symbol) :
    (x.withChildren cs).alone = x.alone :=
  withChildren_withChildren x cs []

@[simp] theorem alone_alone (x : Symbol) : x.alone.alone = x.alone := alone_withChildren x []

theorem nodes_eq (here : Path) (x : Symbol) :
    x.nodes here = (here, x.alone) :: x.children.flatMap fun c => c.nodes (here.child c.name) := by
  cases x with
  | branch role info policy cs =>
    rw [nodes, preorder, preorderAll_eq_flatMap, List.map_cons, List.map_flatMap]
    rfl
  | _ => rfl

/-- **A `replace?` changes one stretch of the walk**: what comes before the node and what comes
after it stays. -/
theorem nodes_replace? (h : x.replace? ks new = some y) (hold : x.descend? ks = some old)
    (hname : new.name = old.name) (here : Path) :
    ∃ before after, x.nodes here = before ++ old.nodes ⟨here.segments ++ ks⟩ ++ after ∧
      y.nodes here = before ++ new.nodes ⟨here.segments ++ ks⟩ ++ after := by
  induction ks generalizing x y here with
  | nil =>
    rw [replace?_nil, Option.some.injEq] at h
    rw [descend?_nil, Option.some.injEq] at hold
    exact ⟨[], [], by simp [hold], by simp [h]⟩
  | cons k ks ih =>
    obtain ⟨left, c, d, right, hx, hck, hdk, -, hc, hd, rfl, hy⟩ :=
      split_of_replace? h hold hname
    -- the stretch lies in that of the child, between its elder and its younger siblings
    obtain ⟨before, after, hcnodes, hdnodes⟩ := ih hd hc (here.child k)
    have hplace : (⟨(here.child k).segments ++ ks⟩ : Path) = ⟨here.segments ++ k :: ks⟩ := by
      simp [Path.child]
    rw [hplace] at hcnodes hdnodes
    refine ⟨(here, x.alone) :: left.flatMap (fun e => e.nodes (here.child e.name)) ++ before,
      after ++ right.flatMap fun e => e.nodes (here.child e.name), ?_, ?_⟩
    · rw [nodes_eq, hx, List.flatMap_append, List.flatMap_cons, hck, hcnodes]
      simp only [List.cons_append, List.append_assoc]
    · rw [nodes_eq, hy, alone_withChildren, List.flatMap_append, List.flatMap_cons, hdk, hdnodes]
      simp only [List.cons_append, List.append_assoc]

/-! ## §2. Other places. -/

/-- **What stands apart from a replaced node, at `js`, is found as before.** -/
theorem descend?_replace?_of_apart (h : x.replace? ks new = some y)
    (hold : x.descend? ks = some old) (hname : new.name = old.name) (hbelow : ¬ ks <+: js)
    (habove : ¬ js <+: ks) : y.descend? js = x.descend? js := by
  induction ks generalizing x y js with
  | nil => exact absurd List.nil_prefix hbelow
  | cons k ks ih =>
    obtain ⟨left, c, d, right, hx, hck, hdk, hleft, hc, hd, -, hy⟩ :=
      split_of_replace? h hold hname
    cases js with
    | nil => exact absurd List.nil_prefix habove
    | cons j js =>
      rw [descend?_cons, descend?_cons, child?, child?, hx, hy]
      by_cases hjk : j = k
      · -- both ways go down through the child that holds the node
        subst hjk
        rw [find?_split hck hleft, find?_split hdk hleft]
        exact ih hd hc (fun hp => hbelow (List.cons_prefix_cons.2 ⟨rfl, hp⟩))
          fun hp => habove (List.cons_prefix_cons.2 ⟨rfl, hp⟩)
      · -- the ways part here, and the child that is replaced is not the one that is looked for
        have hc' : c.name ≠ j := fun heq => hjk (heq.symm.trans hck)
        have hd' : d.name ≠ j := fun heq => hjk (heq.symm.trans hdk)
        simp [List.find?_append, hc', hd']

/-- A node `y` that is put where it stands changes nothing. -/
theorem replace?_self (h : x.descend? ks = some y) : x.replace? ks y = some x := by
  induction ks generalizing x with
  | nil =>
    rw [descend?_nil] at h
    rw [replace?_nil, h]
  | cons k ks ih =>
    rw [descend?_cons] at h
    obtain ⟨c, hc, hy⟩ := Option.bind_eq_some_iff.1 h
    obtain ⟨left, right, hx, -, -, hreplace⟩ := split_of_find? hc
    refine replace?_cons.2 ⟨c, c, hc, ih hy, ?_⟩
    rw [hreplace, ← hx]
    cases x <;> rfl

/-- A change `f` of all children that keeps their names is seen through every search by name. -/
theorem child?_map {x y : Symbol} {f : Symbol → Symbol} (hname : ∀ c, (f c).name = c.name)
    (h : y.children = x.children.map f) (k : String) : y.child? k = (x.child? k).map f := by
  have hkey : (fun c : Symbol => decide (c.name = k)) ∘ f = fun c => decide (c.name = k) := by
    funext c
    rw [Function.comp_apply, hname]
  rw [child?, child?, h, List.find?_map, hkey]

theorem descend?_blank (x : Symbol) (ks : List String) :
    x.blank.descend? ks = (x.descend? ks).map blank := by
  induction ks generalizing x with
  | nil => simp
  | cons k ks ih =>
    have hchildren : x.blank.children = x.children.map blank := by
      cases x with
      | branch role info policy cs => exact blankAll_eq_map cs
      | _ => rfl
    have hname (c : Symbol) : c.blank.name = c.name := by rw [name, info_blank, name]
    rw [descend?_cons, descend?_cons, child?_map hname hchildren]
    cases x.child? k with
    | none => rfl
    | some c => exact ih c

/-- The names of what the symbol `x` holds, in their order. -/
def childNames (x : Symbol) : List String := x.children.map name

@[simp] theorem childNames_blank (x : Symbol) : x.blank.childNames = x.childNames := by
  cases x with
  | branch role info policy cs =>
    show (blankAll cs).map name = cs.map name
    rw [blankAll_eq_map, List.map_map]
    exact List.map_congr_left fun c _ => congrArg Info.name (info_blank c)
  | _ => rfl

/-- Symbols with the same `blank` hold the same names in the same order, wherever one looks. -/
theorem childNames_descend?_of_blank (h : x.blank = y.blank) (ks : List String) :
    (x.descend? ks).map childNames = (y.descend? ks).map childNames := by
  have hfound : ((x.descend? ks).map blank).map childNames =
      ((y.descend? ks).map blank).map childNames := by
    rw [← descend?_blank, ← descend?_blank, h]
  have hforget : childNames ∘ blank = childNames := funext childNames_blank
  rwa [Option.map_map, Option.map_map, hforget] at hfound

/-! ## §3. Outlines. -/

/-- The `Value.Kind` that the symbol holds, if it is a scalar. -/
def valueKind? (s : Store) : Symbol → Option Value.Kind
  | scalar x => some (x.kind s)
  | _ => none

/-- Where the value is kept, if the symbol is a scalar that keeps it outside the tree. -/
def link? : Symbol → Option Link
  | scalar ⟨_, .linked l⟩ => some l
  | _ => none

/-- How the symbol is copied into, if it holds symbols. -/
def policy? : Symbol → Option CopyPolicy
  | branch _ _ policy _ => some policy
  | _ => none

/-- The hold on an object, if the symbol has one. -/
def handle? : Symbol → Option Handle
  | branch (.object handle?) _ _ _ => handle?
  | _ => none

/-- What writing values cannot change of a node. -/
structure Outline where
  /-- The name, the description and the stored parent. -/
  info : Info
  /-- What kind of symbol the node is. -/
  kind : Kind
  /-- What kind of value it holds. -/
  valueKind? : Option Value.Kind
  /-- Where it keeps its value. -/
  link? : Option Link
  /-- How it is copied into. -/
  policy? : Option CopyPolicy
  /-- Which object it is bound to, and whether it owns the object. -/
  handle? : Option Handle
deriving DecidableEq, Repr

/-- The `Outline` of the node `x`. -/
def outline (s : Store) (x : Symbol) : Outline :=
  ⟨x.info, x.kind, x.valueKind? s, x.link?, x.policy?, x.handle?⟩

/-- The outlines of all nodes of the tree `x`, in the order of the walk. -/
def outlines (s : Store) (x : Symbol) : List (Path × Outline) :=
  (x.nodes .root).map fun node => (node.1, node.2.outline s)

theorem nodes_blank (here : Path) (x : Symbol) :
    x.blank.nodes here = (x.nodes here).map fun node => (node.1, node.2.blank) := by
  induction x generalizing here with
  | branch role info policy cs ih =>
    rw [nodes_eq, nodes_eq, List.map_cons, List.map_flatMap]
    show _ :: (blankAll cs).flatMap _ = _
    rw [blankAll_eq_map, List.flatMap_map]
    refine congrArg₂ _ rfl (List.flatMap_congr fun c hc => ?_)
    rw [name, info_blank, ← name, ih c hc]
  | _ => rfl

theorem kind_blank (k : Value.Kind) : k.blank.kind = k := by
  cases k <;> rfl

@[simp] theorem outline_blank (s : Store) (x : Symbol) : x.blank.outline s = x.outline s := by
  rcases x with ⟨info, v | l⟩ | f | ⟨role, info, policy, cs⟩
  · show Outline.mk info .scalar (some v.kind.blank.kind) none none none = _
    rw [kind_blank]
    rfl
  · rfl
  · rfl
  · cases role <;> rfl

end Symbol

/-- The `kind` of a link is that of the type of its target, which `cellFace?` tells. -/
theorem Link.kind_of_cellFace {s s' : Store} (h : ∀ id, s'.cellFace? id = s.cellFace? id)
    (l : Link) : l.kind s' = l.kind s := by
  cases l with
  | field target f => rfl
  | cell id =>
    have hface := h id
    unfold Store.cellFace? at hface
    simp only [kind]
    -- the cell is there before and after, or neither, and it keeps its type
    cases hc : s.cell? id with
    | none =>
      rw [hc] at hface
      rw [Option.map_eq_none_iff.1 hface]
    | some c =>
      rw [hc] at hface
      obtain ⟨c', hc', heq⟩ := Option.map_eq_some_iff.1 hface
      rw [hc']
      exact congrArg StorageType.kind (Prod.mk.inj heq).1

namespace Symbol

variable {x y : Symbol} {s s' : Store}

theorem outline_of_cellFace (h : ∀ id, s'.cellFace? id = s.cellFace? id) (x : Symbol) :
    x.outline s' = x.outline s := by
  rcases x with ⟨info, v | l⟩ | f | ⟨role, info, policy, cs⟩
  · rfl
  · show Outline.mk info .scalar (some (l.kind s')) (some l) none none = _
    rw [Link.kind_of_cellFace h]
    rfl
  · rfl
  · rfl

/-- The outlines of a tree are those of its `blank`. -/
theorem outlines_eq_blank (s : Store) (x : Symbol) : x.blank.outlines s = x.outlines s := by
  rw [outlines, outlines, nodes_blank, List.map_map]
  exact List.map_congr_left fun node _ => congrArg (Prod.mk node.1) (outline_blank s node.2)

/-- **Trees with the same `blank` have the same outlines**, as long as cells keep their types. -/
theorem outlines_of_blank (h : x.blank = y.blank)
    (hcells : ∀ id, s'.cellFace? id = s.cellFace? id) : x.outlines s' = y.outlines s := by
  rw [← outlines_eq_blank, h, outlines_eq_blank, outlines, outlines]
  exact List.map_congr_left fun node _ =>
    congrArg (Prod.mk node.1) (outline_of_cellFace hcells node.2)

/-! ## §4. One node overwritten. -/

/-- At most the node at `ks` has changed from `x` to `x'`, in values only, and nothing else was
written but through that node. -/
def OverwrittenAt (ks : List String) (x x' : Symbol) (w w' : Surroundings) : Prop :=
  (x' = x ∧ Written [] [] w w') ∨
    ∃ y y', x.descend? ks = some y ∧ x.replace? ks y' = some x' ∧ y'.blank = y.blank ∧
      Written y.objects y.cells w w'

variable {x' t : Symbol} {w w' : Surroundings} {js ks : List String}

theorem OverwrittenAt.refl (ks : List String) (x : Symbol) (hstore : w'.store = w.store)
    (hdestroyed : w'.destroyed = w.destroyed) : x.OverwrittenAt ks x w w' :=
  .inl ⟨rfl, Written.of_eq hstore hdestroyed⟩

/-- What an effect `Overwrites` is overwritten at its root. -/
theorem Overwrites.overwrittenAt {e : Effect (Attempt Symbol)} (h : x.Overwrites e)
    (w : Surroundings) : x.OverwrittenAt [] (e.run w).1.value w (e.run w).2 :=
  .inr ⟨x, _, descend?_nil x, replace?_nil x _, h w⟩

/-- What an effect `Overwrites` of a node is overwritten there in the tree. -/
theorem Overwrites.overwrittenAt_replace? {e : Effect (Attempt Symbol)} (he : y.Overwrites e)
    (hy : x.descend? ks = some y) (w : Surroundings) :
    x.OverwrittenAt ks ((x.replace? ks (e.run w).1.value).getD x) w (e.run w).2 := by
  obtain ⟨hblank, hwritten⟩ := he w
  obtain ⟨x', hx'⟩ := replace?_of_descend? hy (e.run w).1.value
  rw [hx']
  exact .inr ⟨y, _, hy, hx', hblank, hwritten⟩

/-- An `event` before an overwriting is no part of it. -/
theorem OverwrittenAt.of_emit {event : Event} (h : x.OverwrittenAt ks x' (w.emit event) w') :
    x.OverwrittenAt ks x' w w' := by
  obtain ⟨heq, hw⟩ | ⟨y, y', hy, hx', hblank, hw⟩ := h
  · exact .inl ⟨heq, Written.of_emit hw⟩
  · exact .inr ⟨y, y', hy, hx', hblank, Written.of_emit hw⟩

theorem OverwrittenAt.blank (h : x.OverwrittenAt ks x' w w') : x'.blank = x.blank := by
  obtain ⟨rfl, -⟩ | ⟨y, y', hy, hx', hblank, -⟩ := h
  · rfl
  · exact blank_replace? hx' hy hblank

/-- What is overwritten at `ks` in a part of a tree is overwritten at `js ++ ks` in the tree. -/
theorem OverwrittenAt.below (h : x.OverwrittenAt ks x' w w') (hx : t.descend? js = some x) :
    ∃ t', t.replace? js x' = some t' ∧ t.OverwrittenAt (js ++ ks) t' w w' := by
  obtain ⟨rfl, hw⟩ | ⟨y, y', hy, hx', hblank, hw⟩ := h
  · exact ⟨t, replace?_self hx, .inl ⟨rfl, hw⟩⟩
  · obtain ⟨t', ht'⟩ := replace?_of_descend? hx x'
    refine ⟨t', ht', .inr ⟨y, y', ?_, ?_, hblank, hw⟩⟩
    · rw [descend?_append, hx, Option.bind_some, hy]
    · rw [replace?_append hx hx', ht']

/-- **A tree of which one node was overwritten** has the same `nodes` before and after the stretch
of that node, and nothing is written but through the node. -/
theorem OverwrittenAt.split (h : x.OverwrittenAt ks x' w w') (hy : x.descend? ks = some y)
    (here : Path) : ∃ y' before after, x'.descend? ks = some y' ∧ y'.blank = y.blank ∧
      x.nodes here = before ++ y.nodes ⟨here.segments ++ ks⟩ ++ after ∧
      x'.nodes here = before ++ y'.nodes ⟨here.segments ++ ks⟩ ++ after ∧
      Written y.objects y.cells w w' := by
  obtain ⟨rfl, hw⟩ | ⟨z, y', hz, hx', hblank, hw⟩ := h
  · obtain ⟨before, after, hsplit, -⟩ := nodes_replace? (replace?_self hy) hy rfl here
    refine ⟨y, before, after, hy, rfl, hsplit, hsplit, ?_⟩
    exact hw.mono (List.nil_subset _) (List.nil_subset _)
  · cases Option.some.inj (hz.symm.trans hy)
    have hname := name_of_blank hblank
    obtain ⟨before, after, hold, hnew⟩ := nodes_replace? hx' hy hname here
    exact ⟨y', before, after, descend?_replace? hx' hy hname, hblank, hold, hnew, hw⟩

end Symbol

end ConfigTree
