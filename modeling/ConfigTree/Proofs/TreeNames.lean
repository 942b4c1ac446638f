import ConfigTree.Proofs.Coherence
import ConfigTree.Proofs.TreeNodes

/-!
# The names along the paths of a tree

Where a scope stands in the order of its siblings, and what it is called, can be told without its
values.  `Symbol.namesAt?` tells from a tree the names below each of its nodes, in their order, and
this module has its laws: for a tree with the same frame, for one that was moved, and for one in
which a node was replaced.

Main results:
  * `Symbol.descend?_frame`, `Symbol.frame_replace?` — frames follow the paths of a tree;
  * `Symbol.namesAt?_of_frame`, `Symbol.namesAt?_reroot` — neither values nor places matter;
  * `Symbol.namesAt?_replace?_below`, `Symbol.namesAt?_replace?_apart` — a node replaced;
  * `Symbol.reroot_self` — a coherent tree is where its parts say it is.
-/

namespace ConfigTree.Symbol

variable {x y old new : Symbol} {k : String} {js ks : List String}

/-! ## §1. Frames along a path. -/

theorem name_withChildren (x : Symbol) (cs : List Symbol) : (x.withChildren cs).name = x.name := by
  rw [name, info_withChildren, name]

theorem children_frame (x : Symbol) : x.frame.children = x.children.map frame := by
  cases x with
  | branch role info policy cs => exact frameAll_eq_map cs
  | _ => rfl

theorem descend?_frame (x : Symbol) (ks : List String) :
    x.frame.descend? ks = (x.descend? ks).map frame := by
  induction ks generalizing x with
  | nil => simp
  | cons k ks ih =>
    rw [descend?_cons, descend?_cons, child?_map name_frame (children_frame x) k]
    cases x.child? k with
    | none => rfl
    | some c => exact ih c

/-- **A node that keeps its `frame` keeps the frame of the tree.** -/
theorem frame_replace? (h : x.replace? ks new = some y) (hold : x.descend? ks = some old)
    (hframe : new.frame = old.frame) : y.frame = x.frame := by
  induction ks generalizing x y with
  | nil =>
    rw [replace?_nil, Option.some.injEq] at h
    rw [descend?_nil, Option.some.injEq] at hold
    rw [← h, hold, hframe]
  | cons k ks ih =>
    have hname : new.name = old.name := congrArg Info.name (info_of_frame hframe)
    obtain ⟨before, c, d, after, hx, -, -, -, hc, hd, rfl, -⟩ := split_of_replace? h hold hname
    cases x with
    | branch role info policy cs =>
      have hcs : cs = before ++ c :: after := hx
      simp [withChildren, frame, frameAll_eq_map, hcs, ih hd hc]
    | _ => exact absurd hx (by simp [children])

/-! ## §2. Names along a path. -/

/-- The names below the node that the names `ks` lead to, in their order. -/
def namesAt? (x : Symbol) (ks : List String) : Option (List String) :=
  (x.descend? ks).map childNames

@[simp] theorem namesAt?_nil (x : Symbol) : x.namesAt? [] = some x.childNames := by
  simp [namesAt?]

theorem namesAt?_cons (x : Symbol) (k : String) (ks : List String) :
    x.namesAt? (k :: ks) = (x.child? k).bind fun c => c.namesAt? ks := by
  rw [namesAt?, descend?_cons, Option.map_bind]
  rfl

/-- Below the node `y` at `ks` the names are those of `y.namesAt?`. -/
theorem namesAt?_append (h : x.descend? ks = some y) (js : List String) :
    x.namesAt? (ks ++ js) = y.namesAt? js := by
  rw [namesAt?, descend?_append, h, Option.bind_some, namesAt?]

/-- The names along the paths `ks` of a leaf. -/
def leafNames? (ks : List String) : Option (List String) := if ks = [] then some [] else none

theorem namesAt?_of_leaf (h : x.children = []) (ks : List String) :
    x.namesAt? ks = leafNames? ks := by
  cases ks with
  | nil => simp [childNames, h, leafNames?]
  | cons k ks => simp [namesAt?_cons, child?, h, leafNames?]

/-- The names along the paths of a symbol over leaves of the given `names`. -/
def moduleNames? (names : List String) : List String → Option (List String)
  | [] => some names
  | k :: ks => if k ∈ names then leafNames? ks else none

theorem namesAt?_of_module (h : ∀ c ∈ x.children, c.children = []) (ks : List String) :
    x.namesAt? ks = moduleNames? x.childNames ks := by
  cases ks with
  | nil => exact namesAt?_nil x
  | cons k ks =>
    rw [namesAt?_cons, moduleNames?, childNames]
    cases hc : x.child? k with
    | none =>
      refine (if_neg fun hk => ?_).symm
      obtain ⟨c, hmem, hname⟩ := List.mem_map.1 hk
      simpa [hname] using List.find?_eq_none.1 hc c hmem
    | some c =>
      obtain ⟨hmem, hname⟩ := child?_mem hc
      rw [if_pos (List.mem_map.2 ⟨c, hmem, hname⟩), Option.bind_some,
        namesAt?_of_leaf (h c hmem)]

theorem childNames_frame (x : Symbol) : x.frame.childNames = x.childNames := by
  rw [childNames, children_frame, List.map_map]
  exact List.map_congr_left fun c _ => name_frame c

theorem map_name_eraseP (cs : List Symbol) (k : String) :
    (cs.eraseP (·.name = k)).map name = (cs.map name).erase k := by
  rw [List.erase_eq_eraseP, List.eraseP_map]
  refine congrArg _ (congrArg (List.eraseP · _) ?_)
  funext c
  exact decide_eq_decide.2 eq_comm

/-- If the names in `cs` differ, there is none left of the name `k` of the symbol that is taken
out. -/
theorem name_ne_of_mem_eraseP {cs : List Symbol} (h : (cs.map name).Nodup)
    (hx : x ∈ cs.eraseP (·.name = k)) : x.name ≠ k := by
  have hmem := List.mem_map_of_mem (f := name) hx
  rw [map_name_eraseP] at hmem
  exact (h.mem_erase_iff.1 hmem).1

/-- **Trees with the same `frame` have the same names along all paths.** -/
theorem namesAt?_of_frame (h : x.frame = y.frame) (ks : List String) :
    x.namesAt? ks = y.namesAt? ks := by
  have hforget (z : Symbol) : z.frame.namesAt? ks = z.namesAt? ks := by
    rw [namesAt?, descend?_frame, Option.map_map, namesAt?]
    exact Option.map_congr fun c _ => childNames_frame c
  rw [← hforget, h, hforget]

theorem children_reroot (parent? : Option Path) (x : Symbol) :
    (x.reroot parent?).children =
      x.children.map (reroot (some (x.info.withParent parent?).path)) := by
  cases x with
  | branch role info policy cs => exact rerootAll_eq_map _ cs
  | _ => rfl

/-- **A tree has the same names wherever it is moved by `reroot`.** -/
theorem namesAt?_reroot (parent? : Option Path) (x : Symbol) (ks : List String) :
    (x.reroot parent?).namesAt? ks = x.namesAt? ks := by
  induction ks generalizing x parent? with
  | nil =>
    rw [namesAt?_nil, namesAt?_nil, childNames, children_reroot, List.map_map]
    exact congrArg some (List.map_congr_left fun c _ => name_reroot _ c)
  | cons k ks ih =>
    rw [namesAt?_cons, namesAt?_cons, child?_map (name_reroot _) (children_reroot parent? x) k,
      Option.bind_map]
    exact Option.bind_congr fun c _ => ih _ c

/-- **Below a node that `replace?` replaces the names are those of `new`.** -/
theorem namesAt?_replace?_below (h : x.replace? ks new = some y) (hold : x.descend? ks = some old)
    (hname : new.name = old.name) (js : List String) :
    y.namesAt? (ks ++ js) = new.namesAt? js :=
  namesAt?_append (descend?_replace? h hold hname) js

/-- **Everywhere else, at `js` not below `ks`, the names are what they were.** -/
theorem namesAt?_replace?_apart (h : x.replace? ks new = some y) (hold : x.descend? ks = some old)
    (hname : new.name = old.name) (hbelow : ¬ ks <+: js) : y.namesAt? js = x.namesAt? js := by
  induction ks generalizing x y js with
  | nil => exact absurd List.nil_prefix hbelow
  | cons k ks ih =>
    obtain ⟨left, c, d, right, hx, hck, hdk, hleft, hc, hd, -, hy⟩ :=
      split_of_replace? h hold hname
    cases js with
    -- the new child has the name of the old one, at the same index
    | nil => simp [childNames, hx, hy, hck, hdk]
    | cons j js =>
      rw [namesAt?_cons, namesAt?_cons, child?, child?, hx, hy]
      by_cases hjk : j = k
      · subst hjk
        rw [find?_split hck hleft, find?_split hdk hleft]
        exact ih hd hc fun hp => hbelow (List.cons_prefix_cons.2 ⟨rfl, hp⟩)
      · have hc' : c.name ≠ j := fun heq => hjk (heq.symm.trans hck)
        have hd' : d.name ≠ j := fun heq => hjk (heq.symm.trans hdk)
        simp [List.find?_append, hc', hd']

/-! ## §3. Moving a tree twice. -/

/-- Of two moves by `reroot` the second counts. -/
theorem reroot_reroot (parent? parent?' : Option Path) (x : Symbol) :
    (x.reroot parent?).reroot parent?' = x.reroot parent?' := by
  induction x generalizing parent? parent?' with
  | scalar s => rfl
  | function f => rfl
  | branch role info policy cs ih =>
    simp only [reroot, rerootAll_eq_map, List.map_map]
    exact congrArg _ (List.map_congr_left fun c hc => ih c hc _ _)

/-- **A `Coherent` tree is where its parts say it is**: `reroot` to there changes nothing. -/
theorem reroot_self (h : x.Coherent) : x.reroot x.info.parent? = x := by
  induction x with
  | scalar s => rfl
  | function f => rfl
  | branch role info policy cs ih =>
    have hcs : cs.map (reroot (some info.path)) = cs := by
      refine (List.map_congr_left fun c hc => ?_).trans (List.map_id cs)
      -- every child remembers the path of the branch
      have hplaced : c.info.parent? = some info.path := h.placed hc
      rw [← hplaced, ih c hc (h.child hc), id]
    rw [reroot, rerootAll_eq_map]
    exact congrArg _ hcs

end ConfigTree.Symbol
