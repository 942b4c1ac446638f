import ConfigTree.Proofs.SoundSteps

/-!
# Addresses

Every tree in a slot is coherent after every run, whatever was registered, moved, copied, cloned or
taken on the way.  So the names that lead from the root of a slot to a node are an address of it:
they are its path below that of the root, they can be written down and read again, they find the
node, and no other node of the slot has them.

Main results:
  * `Symbol.Coherent.addressed` — a node below the root of a coherent tree has an address;
  * `Symbol.Coherent.eq_of_path` — two nodes of a coherent tree differ in their paths;
  * `Session.addressed_after` — so do the nodes of every slot after every run.
-/

namespace ConfigTree

/-! ## §1. Addresses in a coherent tree. -/

namespace Symbol

variable {x y z : Symbol} {js ks : List String}

/-- The names `ks` are an address of the node `y` below the root of the tree `x`. -/
structure Addressed (x : Symbol) (ks : List String) (y : Symbol) : Prop where
  /-- The last of the names is that of the node. -/
  named : ks.getLast? = some y.name
  /-- The names can be spelled. -/
  spelled : ∀ k ∈ ks, k ≠ "" ∧ '.' ∉ k.toList
  /-- The node keeps the path of the one that encloses it. -/
  enclosed : ∃ z, x.At ks.dropLast z ∧ y ∈ z.children ∧ y.info.parent? = some z.info.path
  /-- The path of the node goes on from that of the root by the names. -/
  path_eq : y.info.path = ⟨x.info.path.segments ++ ks⟩
  /-- The path reads back from its dotted form. -/
  readable : Path.ofDotted y.info.path.display = y.info.path
  /-- The names find the node. -/
  found : x.resolve? ⟨ks⟩ = some y

/-- **The names `ks` that lead to a node of a coherent tree are its address.** -/
theorem Coherent.addressed (h : x.Coherent)
    (hroot : ∀ k ∈ x.info.path.segments, Path.validName k = true) (hy : x.At ks y)
    (hne : ks ≠ []) : x.Addressed ks y := by
  have hvalid := h.valid_of_at hy
  have hpath := h.path_of_at hy
  refine ⟨name_of_at hy hne, fun k hk => Path.validName_iff.1 (hvalid k hk), ?_, hpath, ?_, ?_⟩
  · -- the node is a child of the one that all names but the last lead to
    rw [← List.dropLast_append_getLast hne] at hy
    obtain ⟨z, hz, c, hc, hname, hy⟩ := at_append.1 hy
    have hplaced := h.parent?_of_at hz ⟨c, hc, hname, hy⟩
    rw [(at_nil _ _).1 hy] at hplaced ⊢
    exact ⟨z, hz, hc, hplaced⟩
  · rw [hpath]
    refine Path.ofDotted_display fun k hk => ?_
    rcases List.mem_append.1 hk with hk | hk
    · exact hroot k hk
    · exact hvalid k hk
  · have hroot' : Path.isRoot ⟨ks⟩ = false := by
      unfold Path.isRoot
      rwa [List.isEmpty_eq_false_iff]
    unfold resolve?
    rw [hroot', if_neg Bool.false_ne_true]
    exact h.descend?_of_at hy

/-- **Two nodes `y` and `z` of a coherent tree have the same path only if they are one.** -/
theorem Coherent.eq_of_path (h : x.Coherent) (hy : x.At js y) (hz : x.At ks z)
    (heq : y.info.path = z.info.path) : js = ks ∧ y = z := by
  rw [h.path_of_at hy, h.path_of_at hz, Path.mk.injEq] at heq
  have hnames : js = ks := List.append_cancel_left heq
  subst hnames
  exact ⟨rfl, h.at_unique hy hz⟩

end Symbol

/-! ## §2. Addresses in a session. -/

namespace Session

/-- **Every node of every slot has its address, after every run `ops`.** The walk `preorder` of a
slot comes by each path once, so no two of its nodes share one. -/
theorem addressed_after (ops : List Operation) (name : String) (x : Symbol)
    (hx : (after ops).slots.get? name = some x) :
    (∀ ks y, ks ≠ [] → x.At ks y → x.Addressed ks y) ∧
      (∀ js ks y z, x.At js y → x.At ks z → y.info.path = z.info.path → js = ks ∧ y = z) ∧
      ((x.preorder .root).map fun node => node.2.info.path).Nodup := by
  have hsound := (settled_after ops).slots name x hx
  refine ⟨fun ks y hne hy => ?_, fun js ks y z hy hz heq => ?_, ?_⟩
  · exact hsound.coherent.addressed hsound.rooted hy hne
  · exact hsound.coherent.eq_of_path hy hz heq
  · exact hsound.coherent.nodup_paths .root

/-- A run that moves a branch from one slot below an object of another, and clones the object. -/
def moving : List Operation :=
  [.newScope "root" "root" "" .matchingNames, .newScope "side" "inner" "" .matchingNames,
    .addScalar ⟨"side", .root⟩ "x" "" (.bool true),
    .addObject ⟨"root", .root⟩ "o" "" (some (.own (.record .counter { id := "k" }))),
    .insert "side" ⟨"root", ⟨["o"]⟩⟩, .clone ⟨"root", ⟨["o"]⟩⟩ "copy"]

/-- The scalar that was moved knows its new place, and so does its counterpart in the clone. -/
theorem addressed_after_moving :
    (∃ x y, (after moving).slots.get? "root" = some x ∧ x.Addressed ["o", "inner", "x"] y ∧
        y.info.parent? = some ⟨["o", "inner"]⟩) ∧
      ∃ x y, (after moving).slots.get? "copy" = some x ∧ x.Addressed ["inner", "x"] y := by
  have hfind (name : String) (ks : List String)
      (h : ((after moving).symbol? ⟨name, ⟨ks⟩⟩).isSome = true) :
      ∃ x y, (after moving).slots.get? name = some x ∧ x.At ks y ∧
        (after moving).symbol? ⟨name, ⟨ks⟩⟩ = some y := by
    obtain ⟨y, hy⟩ := Option.isSome_iff_exists.1 h
    obtain ⟨x, hx, hdescend⟩ := Option.bind_eq_some_iff.1 hy
    exact ⟨x, y, hx, Symbol.at_of_descend? hdescend, hy⟩
  obtain ⟨x, y, hx, hat, hy⟩ := hfind "root" ["o", "inner", "x"] (by decide +kernel)
  obtain ⟨x', y', hx', hat', -⟩ := hfind "copy" ["inner", "x"] (by decide +kernel)
  refine ⟨⟨x, y, hx, (addressed_after moving "root" x hx).1 _ y (by decide) hat, ?_⟩,
    ⟨x', y', hx', (addressed_after moving "copy" x' hx').1 _ y' (by decide) hat'⟩⟩
  have hparent : ((after moving).symbol? ⟨"root", ⟨["o", "inner", "x"]⟩⟩).map (·.info.parent?) =
      some (some ⟨["o", "inner"]⟩) := by decide +kernel
  rw [hy] at hparent
  exact Option.some.inj hparent

end Session

end ConfigTree
