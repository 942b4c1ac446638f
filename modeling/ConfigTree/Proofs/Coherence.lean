import ConfigTree.Proofs.NodeReplacement
import ConfigTree.Proofs.Paths
import ConfigTree.Symbol.Register
import Mathlib.Data.List.Nodup

/-!
# Coherent trees

Every symbol keeps a copy of the path of the symbol that encloses it.  A tree is coherent if all
these copies are right, the names below a node differ, and each of them can stand in a path.  Then
the names that lead to a node are its path, the path leads back to the node, and it can be written
down and read again.

Only names and places matter for this.  `Symbol.frame` forgets everything else, so an operation that
keeps the frame keeps coherence, and the operations that move symbols are left to be looked at.

Main results:
  * `Symbol.Coherent.path_of_at`, `Symbol.Coherent.descend?_of_at`,
    `Symbol.Coherent.nodup_paths` — paths in a coherent tree lead to one node each;
  * `Symbol.coherent_of_frame`, `Symbol.coherent_reroot`, `Symbol.coherent_replace?`,
    `Symbol.coherent_sublist`, `Scope.coherent_append` — what keeps a tree coherent.
-/

namespace ConfigTree

namespace Symbol

/-! ## §1. Coherence. -/

/-- Below every node the names differ and are valid by `Path.validName`, and every symbol knows the
path of the one that encloses it. -/
inductive Coherent : Symbol → Prop
  /-- A symbol over coherent ones. -/
  | intro (x : Symbol) (unique : (x.children.map name).Nodup)
      (valid : ∀ c ∈ x.children, Path.validName c.name = true)
      (placed : ∀ c ∈ x.children, c.info.parent? = some x.info.path)
      (coherent : ∀ c ∈ x.children, c.Coherent) : x.Coherent

variable {x y z : Symbol} {k : String} {ks js : List String}

namespace Coherent

theorem unique : x.Coherent → (x.children.map name).Nodup
  | intro _ h _ _ _ => h

theorem valid {c : Symbol} : x.Coherent → c ∈ x.children → Path.validName c.name = true
  | intro _ _ h _ _, hc => h c hc

theorem placed {c : Symbol} : x.Coherent → c ∈ x.children → c.info.parent? = some x.info.path
  | intro _ _ _ h _, hc => h c hc

theorem child {c : Symbol} : x.Coherent → c ∈ x.children → c.Coherent
  | intro _ _ _ _ h, hc => h c hc

/-- Symbols without `children` are coherent. -/
theorem of_leaf (h : x.children = []) : x.Coherent :=
  intro x (by simp [h]) (by simp [h]) (by simp [h]) (by simp [h])

theorem eq_of_name {c d : Symbol} (h : x.Coherent) (hc : c ∈ x.children) (hd : d ∈ x.children)
    (heq : c.name = d.name) : c = d :=
  List.inj_on_of_nodup_map h.unique hc hd heq

/-! ## §2. Paths in a coherent tree. -/

theorem at_coherent (h : x.Coherent) (hy : x.At ks y) : y.Coherent := by
  induction ks generalizing x with
  | nil => rwa [(at_nil _ _).1 hy]
  | cons k ks ih =>
    obtain ⟨c, hc, -, hy⟩ := hy
    exact ih (h.child hc) hy

/-- The names `ks` that lead to a node below the root can be spelled. -/
theorem valid_of_at (h : x.Coherent) (hy : x.At ks y) : ∀ k ∈ ks, Path.validName k = true := by
  induction ks generalizing x with
  | nil => intro k hk; cases hk
  | cons j ks ih =>
    obtain ⟨c, hc, rfl, hy⟩ := hy
    intro k hk
    rcases List.mem_cons.1 hk with rfl | hk
    · exact h.valid hc
    · exact ih (h.child hc) hy k hk

/-- **The path of the node `y` goes on from that of `x` by the names `ks` that lead to it.** -/
theorem path_of_at (h : x.Coherent) (hy : x.At ks y) :
    y.info.path = ⟨x.info.path.segments ++ ks⟩ := by
  induction ks generalizing x with
  | nil => rw [(at_nil _ _).1 hy, List.append_nil]
  | cons k ks ih =>
    obtain ⟨c, hc, rfl, hy⟩ := hy
    -- what the child remembers of its parent is the path of the branch
    have hpath : c.info.path = x.info.path.child c.name := by
      rw [Info.path, h.placed hc]
      rfl
    rw [ih (h.child hc) hy, hpath, Path.child, List.append_assoc, List.singleton_append]

/-- A node `z` right below `y` has the path of `y` for a parent. -/
theorem parent?_of_at (h : x.Coherent) (hy : x.At ks y) (hz : y.At [k] z) :
    z.info.parent? = some y.info.path := by
  obtain ⟨c, hc, -, hz⟩ := hz
  rw [(at_nil _ _).1 hz]
  exact (h.at_coherent hy).placed hc

/-- In a coherent tree the names `ks` lead to one node only. -/
theorem at_unique (h : x.Coherent) (hy : x.At ks y) (hz : x.At ks z) : y = z := by
  induction ks generalizing x with
  | nil => rw [(at_nil _ _).1 hy, (at_nil _ _).1 hz]
  | cons k ks ih =>
    obtain ⟨c, hc, hck, hy⟩ := hy
    obtain ⟨d, hd, hdk, hz⟩ := hz
    cases h.eq_of_name hc hd (hck.trans hdk.symm)
    exact ih (h.child hc) hy hz

/-- **Descending by the names `ks` that lead to a node finds it.** -/
theorem descend?_of_at (h : x.Coherent) (hy : x.At ks y) : x.descend? ks = some y := by
  induction ks generalizing x with
  | nil => rw [(at_nil _ _).1 hy, descend?_nil]
  | cons k ks ih =>
    obtain ⟨c, hc, hck, hy⟩ := hy
    have hfind : x.child? k = some c := by
      -- the search takes the first child of the name, and there is only one
      cases hd : x.child? k with
      | none =>
        have := List.find?_eq_none.1 hd c hc
        simp [hck] at this
      | some d =>
        obtain ⟨hdmem, hdk⟩ := child?_mem hd
        rw [h.eq_of_name hdmem hc (hdk.trans hck.symm)]
    rw [descend?_cons, hfind, Option.bind_some, ih (h.child hc) hy]

/-- The walk `preorder` of a coherent tree comes by each list of names once. -/
theorem nodup_preorder (h : x.Coherent) (here : Path) :
    ((x.preorder here).map Prod.fst).Nodup := by
  induction x generalizing here with
  | scalar s => simp [preorder]
  | function f => simp [preorder]
  | branch role info policy cs ih =>
    -- whatever is below a child starts with the name of the child
    have hprefix (c : Symbol) (p : Path) (hp : p ∈ (c.preorder (here.child c.name)).map Prod.fst) :
        ∃ ks, p = ⟨here.segments ++ c.name :: ks⟩ := by
      obtain ⟨⟨q, y⟩, hq, rfl⟩ := List.mem_map.1 hp
      obtain ⟨ks, rfl, -⟩ := mem_preorder.1 hq
      exact ⟨ks, by simp [Path.child]⟩
    -- the branch is not below itself, each child is walked once, and no two share a prefix
    rw [preorder, preorderAll_eq_flatMap, List.map_cons, List.map_flatMap, List.nodup_cons,
      List.nodup_flatMap]
    refine ⟨fun hmem => ?_, fun c hc => ih c hc (h.child hc) _, ?_⟩
    · obtain ⟨c, -, hp⟩ := List.mem_flatMap.1 hmem
      obtain ⟨ks, hks⟩ := hprefix c here hp
      have := congrArg (fun p : Path => p.segments.length) hks
      simp at this
    · refine (List.pairwise_map.1 h.unique).imp fun {c d} hne => ?_
      intro p hc hd
      obtain ⟨ks, rfl⟩ := hprefix c p hc
      obtain ⟨js, hjs⟩ := hprefix d _ hd
      exact hne (by simpa using (congrArg Path.segments hjs) : c.name = d.name ∧ ks = js).1

/-- **No two nodes of a coherent tree have the same `path`.** -/
theorem nodup_paths (h : x.Coherent) (here : Path) :
    ((x.preorder here).map fun node => node.2.info.path).Nodup := by
  -- the path that a node remembers determines the one it was found by
  have hpath : (x.preorder here).map (fun node => (⟨here.segments ++
      node.2.info.path.segments.drop x.info.path.segments.length⟩ : Path)) =
      (x.preorder here).map Prod.fst := by
    refine List.map_congr_left fun node hnode => ?_
    obtain ⟨p, y⟩ := node
    obtain ⟨ks, rfl, hks⟩ := mem_preorder.1 hnode
    dsimp only
    rw [h.path_of_at hks, List.drop_left]
  have hnodup := h.nodup_preorder here
  rw [← hpath] at hnodup
  refine List.Nodup.of_map (fun p : Path => (⟨here.segments ++
    p.segments.drop x.info.path.segments.length⟩ : Path)) ?_
  rwa [List.map_map]

end Coherent

theorem coherent_branch_iff {role : Role} {info : Info} {policy : CopyPolicy} {cs : List Symbol} :
    (branch role info policy cs).Coherent ↔ (cs.map name).Nodup ∧
      ∀ c ∈ cs, Path.validName c.name = true ∧ c.info.parent? = some info.path ∧ c.Coherent := by
  constructor
  · intro h
    exact ⟨h.unique, fun c hc => ⟨h.valid hc, h.placed hc, h.child hc⟩⟩
  · rintro ⟨hunique, h⟩
    exact .intro _ hunique (fun c hc => (h c hc).1) (fun c hc => (h c hc).2.1)
      fun c hc => (h c hc).2.2

/-! ## §3. Names and places. -/

mutual

/-- The names and places in a symbol, with all else forgotten. -/
def frame : Symbol → Symbol
  | scalar s => .branch .scope s.info .matchingNames []
  | function f => .branch .scope f.info .matchingNames []
  | branch _ info _ cs => .branch .scope info .matchingNames (frameAll cs)

/-- The names and places in symbols, each by `frame`. -/
def frameAll : List Symbol → List Symbol
  | [] => []
  | c :: cs => c.frame :: frameAll cs

end

theorem frameAll_eq_map (cs : List Symbol) : frameAll cs = cs.map frame := by
  induction cs with
  | nil => rfl
  | cons c cs ih => simp [frameAll, ih]

@[simp] theorem info_frame (x : Symbol) : x.frame.info = x.info := by
  cases x <;> rfl

@[simp] theorem name_frame (x : Symbol) : x.frame.name = x.name := by
  rw [name, info_frame, name]

theorem coherent_frame (x : Symbol) : x.frame.Coherent ↔ x.Coherent := by
  induction x with
  | scalar s => exact iff_of_true (.of_leaf rfl) (.of_leaf rfl)
  | function f => exact iff_of_true (.of_leaf rfl) (.of_leaf rfl)
  | branch role info policy cs ih =>
    rw [frame, frameAll_eq_map, coherent_branch_iff, coherent_branch_iff, List.map_map,
      List.forall_mem_map]
    have hnames : cs.map (name ∘ frame) = cs.map name :=
      List.map_congr_left fun c _ => name_frame c
    rw [hnames]
    refine and_congr_right fun _ => forall₂_congr fun c hc => ?_
    rw [name_frame, info_frame, ih c hc]

/-- **Symbols with the same `frame` are coherent together.** -/
theorem coherent_of_frame (h : x.frame = y.frame) (hx : x.Coherent) : y.Coherent := by
  rw [← coherent_frame, ← h, coherent_frame]
  exact hx

theorem info_of_frame (h : x.frame = y.frame) : x.info = y.info := by
  rw [← info_frame, h, info_frame]

theorem frame_blank (x : Symbol) : x.blank.frame = x.frame := by
  induction x with
  | scalar s => rfl
  | function f => rfl
  | branch role info policy cs ih =>
    rw [blank, frame, frame, frameAll_eq_map, frameAll_eq_map, blankAll_eq_map, List.map_map]
    exact congrArg _ (List.map_congr_left ih)

/-- A tree with the `blank` of a coherent one is coherent. -/
theorem coherent_of_blank (h : x.blank = y.blank) (hx : x.Coherent) : y.Coherent := by
  refine coherent_of_frame ?_ hx
  rw [← frame_blank, h, frame_blank]

/-! ## §4. Moving symbols. -/

@[simp] theorem info_reroot (parent? : Option Path) (x : Symbol) :
    (x.reroot parent?).info = x.info.withParent parent? := by
  cases x <;> rfl

@[simp] theorem name_reroot (parent? : Option Path) (x : Symbol) :
    (x.reroot parent?).name = x.name := by
  rw [name, info_reroot, Info.withParent, name]

/-- **A coherent tree is coherent wherever `reroot` moves it.** -/
theorem coherent_reroot (h : x.Coherent) (parent? : Option Path) :
    (x.reroot parent?).Coherent := by
  induction x generalizing parent? with
  | scalar s => exact .of_leaf rfl
  | function f => exact .of_leaf rfl
  | branch role info policy cs ih =>
    obtain ⟨hunique, hcs⟩ := coherent_branch_iff.1 h
    rw [reroot, rerootAll_eq_map, coherent_branch_iff, List.map_map, List.forall_mem_map]
    refine ⟨?_, fun c hc => ?_⟩
    · rwa [show cs.map (name ∘ reroot _) = cs.map name from
        List.map_congr_left fun c _ => name_reroot _ c]
    · obtain ⟨hvalid, -, hc'⟩ := hcs c hc
      rw [name_reroot, info_reroot]
      exact ⟨hvalid, rfl, ih c hc hc' _⟩

/-- **Replacing a node `old` by a coherent one with the same `info` keeps a tree coherent.** -/
theorem coherent_replace? {old new : Symbol} (h : x.replace? ks new = some y)
    (hold : x.descend? ks = some old) (hinfo : new.info = old.info) (hx : x.Coherent)
    (hnew : new.Coherent) : y.Coherent := by
  induction ks generalizing x y with
  | nil =>
    rw [replace?_nil, Option.some.injEq] at h
    rwa [← h]
  | cons k ks ih =>
    obtain ⟨before, c, d, after, hcs, hck, hdk, -, hc, hd, rfl, -⟩ :=
      split_of_replace? h hold (congrArg Info.name hinfo)
    cases x with
    | branch role info policy cs =>
      have hcs : cs = before ++ c :: after := hcs
      subst hcs
      obtain ⟨hunique, hall⟩ := coherent_branch_iff.1 hx
      obtain ⟨hvalid, hplaced, hcoherent⟩ := hall c (by simp)
      refine coherent_branch_iff.2 ⟨?_, fun e he => ?_⟩
      -- the names of the children are the same as before
      · simpa [hck, hdk] using hunique
      -- the new child is where the old one was, and the others are not touched
      · by_cases heq : e = d
        · rw [heq, hdk, ← hck, info_replace? hd hc hinfo]
          exact ⟨hvalid, hplaced, ih hd hc hcoherent⟩
        · refine hall e ?_
          simp only [List.mem_append, List.mem_cons, heq, false_or] at he ⊢
          exact he.imp id .inr
    | _ => exact absurd hcs (by simp [children])

/-- Leaving out some children, so that `ds` is a sublist of `cs`, keeps a branch coherent. -/
theorem coherent_sublist {role : Role} {info : Info} {policy : CopyPolicy} {cs ds : List Symbol}
    (h : (branch role info policy cs).Coherent) (hds : ds.Sublist cs) :
    (branch role info policy ds).Coherent := by
  obtain ⟨hunique, hcs⟩ := coherent_branch_iff.1 h
  exact coherent_branch_iff.2 ⟨(hds.map name).nodup hunique, fun d hd => hcs d (hds.subset hd)⟩

end Symbol

/-- A name without a `refusal?` can be spelled and is new in the scope `s`. -/
theorem Scope.refusal?_eq_none {s : Scope} {name : String} (h : s.refusal? name = none) :
    Path.validName name = true ∧ ∀ c ∈ s.children, c.name ≠ name := by
  unfold refusal? at h
  split at h
  case isTrue => cases h
  case isFalse hvalid =>
    split at h
    case isTrue => cases h
    case isFalse hvacant =>
      refine ⟨by simpa using hvalid, fun c hc heq => hvacant ?_⟩
      exact List.find?_isSome.2 ⟨c, hc, by simpa using heq⟩

/-- **A scope that accepts a coherent symbol `x` stays coherent.** -/
theorem Scope.coherent_append {s : Scope} {x : Symbol} (hs : (Symbol.ofScope s).Coherent)
    (hx : x.Coherent) (hplaced : x.info.parent? = some s.info.path)
    (h : s.refusal? x.name = none) : (Symbol.ofScope (s.append x)).Coherent := by
  obtain ⟨hvalid, hvacant⟩ := refusal?_eq_none h
  obtain ⟨hunique, hcs⟩ := Symbol.coherent_branch_iff.1 hs
  refine Symbol.coherent_branch_iff.2 ⟨?_, fun c hc => ?_⟩
  · rw [append, List.map_append, List.nodup_append]
    refine ⟨hunique, List.nodup_singleton _, fun a ha b hb => ?_⟩
    obtain ⟨c, hc, rfl⟩ := List.mem_map.1 ha
    rw [List.map_singleton, List.mem_singleton] at hb
    exact hb ▸ hvacant c hc
  · rcases List.mem_append.1 hc with hc | hc
    · exact hcs c hc
    · rw [List.mem_singleton.1 hc]
      exact ⟨hvalid, hplaced, hx⟩

end ConfigTree
