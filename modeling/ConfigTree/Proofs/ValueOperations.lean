import ConfigTree.Proofs.Assignment
import ConfigTree.Proofs.Writes

/-!
# What writing values leaves of a session

Assignments, copies and writes of scalars overwrite one node of one tree, however they end.  So all
slots have the same nodes afterwards, with the same outlines, and no object has come or gone; what
may differ are values below that node, what functions below it do, and the content of the objects
and cells that the node leads to.

Main results:
  * `Symbol.nodes_differInValue` — node by node, what an overwritten symbol may differ in;
  * `Request.answer_overwrites` — every operation that writes values overwrites one node;
  * `Session.values_only_of_overwrites` — what such an operation leaves of the session.
-/

namespace ConfigTree

open Surroundings (Written)

namespace Symbol

variable {x y : Symbol}

/-! ## §1. Nodes that differ in their values. -/

/-- The nodes are the same, but for the value `v` of a `scalar` that keeps its own, which has the
same `Value.kind`, and but for the `Callable` of a `function`. -/
inductive DifferInValue : Symbol → Symbol → Prop where
  /-- The node `x` is the same. -/
  | same (x : Symbol) : DifferInValue x x
  /-- A scalar has another value `v'` of its own. -/
  | scalar (info : Info) {v v' : Value} (h : v'.kind = v.kind) :
    DifferInValue (.scalar ⟨info, .value v⟩) (.scalar ⟨info, .value v'⟩)
  /-- A function has another callable `c'`. -/
  | function (info : Info) (c c' : Callable) (arity? arity?' : Option Nat) :
    DifferInValue (.function ⟨info, c, arity?⟩) (.function ⟨info, c', arity?'⟩)

theorem differInValue_of_blank (h : y.blank = x.blank) : DifferInValue x.alone y.alone := by
  rcases x with ⟨info, storage⟩ | ⟨info, c, arity?⟩ | ⟨role, info, policy, cs⟩ <;>
    rcases y with ⟨info', storage'⟩ | ⟨info', c', arity?'⟩ | ⟨role', info', policy', cs'⟩ <;>
    simp only [blank, reduceCtorEq, scalar.injEq, function.injEq, branch.injEq, Scalar.mk.injEq,
      Function.mk.injEq, and_true] at h
  case scalar.scalar =>
    obtain ⟨rfl, hstorage⟩ := h
    -- a link is kept as it is, and the blank of a value tells its kind
    rcases storage with v | l <;> rcases storage' with v' | l' <;>
      simp only [Storage.blank, reduceCtorEq, Storage.value.injEq, Storage.linked.injEq] at hstorage
    case value.value =>
      apply DifferInValue.scalar
      rw [← kind_blank v'.kind, hstorage, kind_blank]
    case linked.linked =>
      rw [hstorage]
      exact .same _
  case function.function =>
    rw [h]
    exact .function info c c' arity? arity?'
  case branch.branch =>
    obtain ⟨rfl, rfl, rfl, -⟩ := h
    exact .same _

/-- **Node by node, what an overwritten symbol may differ in**: where `y.blank = x.blank`, the
`Symbol.nodes` of `x` and `y` stand on the same paths and are pairwise related by
`DifferInValue`. -/
theorem nodes_differInValue (h : y.blank = x.blank) (here : Path) :
    List.Forall₂ (fun old new => new.1 = old.1 ∧ DifferInValue old.2 new.2) (x.nodes here)
      (y.nodes here) := by
  have hblank : (x.nodes here).map (fun node => (node.1, node.2.blank)) =
      (y.nodes here).map fun node => (node.1, node.2.blank) := by
    rw [← nodes_blank, ← nodes_blank, h]
  unfold nodes at hblank ⊢
  rw [List.map_map, List.map_map] at hblank
  rw [← List.forall₂_eq_eq_eq, List.forall₂_map_left_iff, List.forall₂_map_right_iff] at hblank
  rw [List.forall₂_map_left_iff, List.forall₂_map_right_iff]
  refine hblank.imp fun old new heq => ?_
  obtain ⟨hpath, hnode⟩ := Prod.mk.inj heq
  have hdiffer := differInValue_of_blank hnode.symm
  dsimp only at hdiffer
  rw [alone_alone, alone_alone] at hdiffer
  exact ⟨hpath.symm, hdiffer⟩

end Symbol

/-! ## §2. One node of a session overwritten. -/

/-- At most the node at the place `p` of a session has changed, in values only
(`Symbol.OverwrittenAt`), and nothing else was written but through that node. -/
structure Session.OverwrittenAt (p : Place) (s s' : Session) : Prop where
  /-- The host holds the objects `hosts` that it held. -/
  hosts : s'.hosts = s.hosts
  /-- The host holds the cells `cells` that it held. -/
  cells : s'.cells = s.cells
  /-- No slot has changed, or the `tree` in the slot was overwritten at the path, to `tree'`. -/
  slots : (s'.slots = s.slots ∧ Written [] [] s.surroundings s'.surroundings) ∨
    ∃ tree tree', s.slots.get? p.slot = some tree ∧ s'.slots = s.slots.insert p.slot tree' ∧
      tree.OverwrittenAt p.path.segments tree' s.surroundings s'.surroundings

/-- The place that `path` leads to from the place `p`. -/
def Place.below (p : Place) (path : Path) : Place := ⟨p.slot, ⟨p.path.segments ++ path.segments⟩⟩

@[simp] theorem Place.below_root (p : Place) : p.below .root = p := by
  simp [below, Path.root]

namespace Request

open Session

variable {α : Type} {s : Session} {p : Place}

/-- However the request `r` ends, it has overwritten the node at the place `p` and no more: every
session that it leads to is `Session.OverwrittenAt p`. -/
def OverwritesAt (p : Place) (r : Request α) : Prop :=
  ∀ s, r.Leads s (fun _ s' => s.OverwrittenAt p s') fun s' => s.OverwrittenAt p s'

theorem OverwritesAt.done {r : Request Unit} (h : r.OverwritesAt p) :
    (Request.done r).OverwritesAt p :=
  fun s => Leads.bind ((h s).mono (fun _ _ h => h) fun _ h => h)

theorem overwrittenAt_self (p : Place) (s : Session) : s.OverwrittenAt p s :=
  ⟨rfl, rfl, .inl ⟨rfl, Written.of_eq rfl rfl⟩⟩

/-- **A symbol `x` that is overwritten and put back** by `put` leads to a session that is
`Session.OverwrittenAt` the node. -/
theorem leads_putOverwritten {x x' : Symbol} {w : Surroundings} (path : Path)
    {Q : Unit → Session → Prop} {E : Session → Prop} (hx : s.symbol? p = some x)
    (hover : x.OverwrittenAt path.segments x' s.surroundings w)
    (hQ : ∀ s', s.OverwrittenAt (p.below path) s' → Q () s') :
    (put p x').Leads { s with surroundings := w } Q E := by
  obtain ⟨tree, htree, hdescend⟩ := Option.bind_eq_some_iff.1 hx
  -- the symbol is part of the tree in its slot, which is overwritten at the longer path
  obtain ⟨tree', hreplace, hwhole⟩ := hover.below hdescend
  apply leads_modify
  dsimp only
  rw [htree, Option.bind_some, hreplace]
  exact hQ _ ⟨rfl, rfl, .inr ⟨tree, tree', htree, rfl, hwhole⟩⟩

/-- Changing a symbol by `change` overwrites what the change `f` overwrites of the symbol `x`. -/
theorem leads_changeOverwrites {x : Symbol} {f : Symbol → Effect (Attempt Symbol)} (path : Path)
    (hx : s.symbol? p = some x)
    (hover : x.OverwrittenAt path.segments ((f x).run s.surroundings).1.value s.surroundings
      ((f x).run s.surroundings).2) :
    (change p x f).Leads s (fun _ s' => s.OverwrittenAt (p.below path) s')
      fun s' => s.OverwrittenAt (p.below path) s' := by
  refine Leads.bind (leads_perform (Leads.bind ?_))
  exact leads_putOverwritten path hx hover fun s' h' => leads_accept (fun _ _ => h') h'

/-- Changing a symbol `x` may overwrite all of it, where `f` does (`Symbol.Overwrites`). -/
theorem leads_overwriteHere {x : Symbol} {f : Symbol → Effect (Attempt Symbol)}
    (hx : s.symbol? p = some x) (hf : x.Overwrites (f x)) :
    (change p x f).Leads s (fun _ s' => s.OverwrittenAt p s') fun s' => s.OverwrittenAt p s' := by
  have h := leads_changeOverwrites .root hx (hf.overwrittenAt s.surroundings)
  rwa [p.below_root] at h

/-! ## §3. Operations that write values. -/

theorem assign_overwrites (p : Place) (target source : Path) :
    (assign p target source).OverwritesAt (p.below target) := by
  intro s
  refine Leads.bind (leads_branch (fun x hx => ?_) (overwrittenAt_self _ s))
  exact leads_changeOverwrites target hx (x.assign_overwrittenAt target source s.surroundings)

theorem assignValue_overwrites (p : Place) (target : Path) (v : Value) :
    (assignValue p target v).OverwritesAt (p.below target) := by
  intro s
  refine Leads.bind (leads_branch (fun x hx => ?_) (overwrittenAt_self _ s))
  exact leads_changeOverwrites target hx (x.assignValue_overwrittenAt target v s.surroundings)

theorem set_overwrites (p : Place) (v : Value) : (set p v).OverwritesAt p := by
  intro s
  refine Leads.bind (leads_scalar (fun x hx => ?_) (overwrittenAt_self _ s))
  have hover := (x.set_overwrites v).overwrittenAt s.surroundings
  refine Leads.bind (leads_perform (Leads.bind ?_))
  refine leads_putOverwritten .root hx hover fun s' h' => ?_
  rw [p.below_root] at h'
  exact leads_accept (fun _ _ => h') h'

theorem copy_overwrites (dst src : Place) : (copy dst src).OverwritesAt dst := by
  intro s
  have hself := overwrittenAt_self dst s
  refine Leads.bind (leads_ensureApart ?_ hself)
  refine Leads.bind (leads_symbol (fun x hx => ?_) hself)
  refine Leads.bind (leads_symbol (fun y _ => ?_) hself)
  exact leads_overwriteHere hx (x.copyFrom_overwrites y)

theorem copyScope_overwrites (dst src : Place) : (copyScope dst src).OverwritesAt dst := by
  intro s
  have hself := overwrittenAt_self dst s
  refine Leads.bind (leads_ensureApart ?_ hself)
  refine Leads.bind (leads_symbol (fun x hx => ?_) hself)
  refine Leads.bind (leads_symbol (fun y _ => ?_) hself)
  refine Leads.bind (leads_require (fun a ha => ?_) hself)
  refine Leads.bind (leads_require (fun b _ => ?_) hself)
  obtain ⟨role, rfl⟩ := Symbol.eq_of_scope? ha
  exact leads_overwriteHere hx (Symbol.copyScope_overwrites role a b)

end Request

/-- The place of the node that an operation overwrites, if it is one that writes values: `assign`
and `assignValue` overwrite what their `target` leads to, `set`, `copy` and `copyScope` the place
itself. -/
def Operation.overwritesAt? : Operation → Option Place
  | .assign p target _ | .assignValue p target _ => some (p.below target)
  | .set p _ | .copy p _ | .copyScope p _ => some p
  | _ => none

/-- **Every operation that writes values overwrites one node**: `answer op` satisfies
`Request.OverwritesAt` for the place of `Operation.overwritesAt?`. -/
theorem Request.answer_overwrites {op : Operation} {p : Place} (h : op.overwritesAt? = some p) :
    (answer op).OverwritesAt p := by
  cases op with
  | assign p target source => cases h; exact (assign_overwrites p target source).done
  | assignValue p target v => cases h; exact (assignValue_overwrites p target v).done
  | set p v => cases h; exact (set_overwrites p v).done
  | copy dst src => cases h; exact (copy_overwrites _ src).done
  | copyScope dst src => cases h; exact (copyScope_overwrites _ src).done
  | _ => cases h

namespace Session

variable {s s' : Session} {p : Place}

/-! ## §4. What is left. -/

/-- The cells that the symbol at the place `p` leads to, by `Symbol.cells`. -/
def cellsAt (s : Session) (p : Place) : List CellId := (s.symbol? p).elim [] Symbol.cells

/-- The `Symbol.outline`s of all nodes of the tree in the slot `name`, if there is one. -/
def outlines? (s : Session) (name : String) : Option (List (Path × Symbol.Outline)) :=
  (s.slots.get? name).map (Symbol.outlines s.surroundings.store)

/-- Nothing but the `objectsAt` and the `cellsAt` of the overwritten node is `Written`. -/
theorem OverwrittenAt.written (h : s.OverwrittenAt p s') :
    Written (s.objectsAt p) (s.cellsAt p) s.surroundings s'.surroundings := by
  obtain ⟨-, hw⟩ | ⟨tree, tree', htree, -, hover⟩ := h.slots
  · exact hw.mono (List.nil_subset _) (List.nil_subset _)
  · obtain ⟨-, hw⟩ | ⟨y, y', hy, -, -, hw⟩ := hover
    · exact hw.mono (List.nil_subset _) (List.nil_subset _)
    · have hsymbol : s.symbol? p = some y := by
        rw [symbol?, htree, Option.bind_some, hy]
      rw [objectsAt, cellsAt, hsymbol]
      exact hw

/-- The slots other than `p.slot` are as they were. -/
theorem OverwrittenAt.other (h : s.OverwrittenAt p s') {name : String} (hname : name ≠ p.slot) :
    s'.slots.get? name = s.slots.get? name := by
  obtain ⟨heq, -⟩ | ⟨tree, tree', -, heq, -⟩ := h.slots
  · rw [heq]
  · rw [heq, Names.get?_insert, if_neg hname]

/-- **All slots have the nodes that they had, with the same outlines**: `outlines?` is unchanged. -/
theorem OverwrittenAt.outlines? (h : s.OverwrittenAt p s') (name : String) :
    s'.outlines? name = s.outlines? name := by
  have hcells := h.written.cellFace
  -- a tree that has not changed in more than values has the outlines that it had
  have hkept (x x' : Symbol) (hblank : x'.blank = x.blank) :
      x'.outlines s'.surroundings.store = x.outlines s.surroundings.store :=
    Symbol.outlines_of_blank hblank hcells
  unfold Session.outlines?
  by_cases hname : name = p.slot
  · subst hname
    obtain ⟨heq, -⟩ | ⟨tree, tree', htree, heq, hover⟩ := h.slots
    · rw [heq]
      exact Option.map_congr fun x _ => hkept x x rfl
    · rw [heq, Names.get?_insert, if_pos rfl, htree]
      exact congrArg some (hkept tree tree' hover.blank)
  · rw [h.other hname]
    exact Option.map_congr fun x _ => hkept x x rfl

/-- The tree in the slot `p.slot` has the same nodes `before` and `after` the stretch of the
overwritten node, and in this stretch nodes that are related by `DifferInValue`. -/
theorem OverwrittenAt.tree (h : s.OverwrittenAt p s') {tree : Symbol}
    (htree : s.slots.get? p.slot = some tree) :
    ∃ tree', s'.slots.get? p.slot = some tree' ∧
      (tree.descend? p.path.segments = none → tree' = tree) ∧
      ∀ y, tree.descend? p.path.segments = some y → ∃ y' before after,
        tree'.descend? p.path.segments = some y' ∧
        tree.nodes .root = before ++ y.nodes p.path ++ after ∧
        tree'.nodes .root = before ++ y'.nodes p.path ++ after ∧
        List.Forall₂ (fun old new => new.1 = old.1 ∧ Symbol.DifferInValue old.2 new.2)
          (y.nodes p.path) (y'.nodes p.path) := by
  obtain ⟨tree', htree', hover⟩ : ∃ tree', s'.slots.get? p.slot = some tree' ∧
      tree.OverwrittenAt p.path.segments tree' s.surroundings s'.surroundings := by
    obtain ⟨heq, hw⟩ | ⟨found, tree', hfound, heq, hover⟩ := h.slots
    · exact ⟨tree, by rw [heq, htree], .inl ⟨rfl, hw⟩⟩
    · cases Option.some.inj (hfound.symm.trans htree)
      exact ⟨tree', by rw [heq, Names.get?_insert, if_pos rfl], hover⟩
  refine ⟨tree', htree', fun hmissing => ?_, fun y hy => ?_⟩
  · obtain ⟨heq, -⟩ | ⟨y, y', hy, -⟩ := hover
    · exact heq
    · rw [hmissing] at hy
      cases hy
  · obtain ⟨y', before, after, hy', hblank, hold, hnew, -⟩ := hover.split hy .root
    exact ⟨y', before, after, hy', hold, hnew, Symbol.nodes_differInValue hblank p.path⟩

/-- **Writing values leaves the skeleton of a session as it is**, however the operation `op` ends.
The host holds what it held, every slot has the same nodes in the same order with the same
`outlines?`, and no object was made or destroyed.  Nodes differ in the stretch of the overwritten
node at `p` only, and only by `DifferInValue`; objects and cells differ in their content only, and
only if they are among the `objectsAt p` and the `cellsAt p`. -/
theorem values_only_of_overwrites (s : Session) {op : Operation} {p : Place}
    (h : op.overwritesAt? = some p) :
    let s' := (s.step op).2
    s'.hosts = s.hosts ∧ s'.cells = s.cells ∧
    (∀ name, s'.outlines? name = s.outlines? name) ∧
    (∀ name, name ≠ p.slot → s'.slots.get? name = s.slots.get? name) ∧
    (∀ tree, s.slots.get? p.slot = some tree → ∃ tree', s'.slots.get? p.slot = some tree' ∧
      (tree.descend? p.path.segments = none → tree' = tree) ∧
      ∀ y, tree.descend? p.path.segments = some y → ∃ y' before after,
        tree'.descend? p.path.segments = some y' ∧
        tree.nodes .root = before ++ y.nodes p.path ++ after ∧
        tree'.nodes .root = before ++ y'.nodes p.path ++ after ∧
        List.Forall₂ (fun old new => new.1 = old.1 ∧ Symbol.DifferInValue old.2 new.2)
          (y.nodes p.path) (y'.nodes p.path)) ∧
    s'.surroundings.destroyed = #[] ∧
    Written (s.objectsAt p) (s.cellsAt p) s.quiet.surroundings s'.surroundings := by
  intro s'
  -- a step begins with no events and no destroyed objects, and otherwise where the session was
  have hover : s.quiet.OverwrittenAt p s' := step_of_leads (Request.answer_overwrites h s.quiet)
  exact ⟨hover.hosts, hover.cells, hover.outlines?, fun name hname => hover.other hname,
    fun tree htree => hover.tree htree, hover.written.destroyed, hover.written⟩

/-- A run that registers two flags in a scope, `a` and `b`. -/
def flagging : List Operation :=
  [.newScope "root" "root" "" .matchingNames,
    .addScalar ⟨"root", .root⟩ "a" "" (.bool false), .addScalar ⟨"root", .root⟩ "b" "" (.bool true)]

theorem values_only_of_assigning_flags :
    let assign : Operation := .assign ⟨"root", .root⟩ ⟨["a"]⟩ ⟨["b"]⟩
    let s := after flagging
    assign.overwritesAt? = some ⟨"root", ⟨["a"]⟩⟩ ∧
      (s.step assign).2.outlines? "root" = s.outlines? "root" ∧
      (s.symbol? ⟨"root", ⟨["a"]⟩⟩).bind Symbol.scalar? ≠
        ((s.step assign).2.symbol? ⟨"root", ⟨["a"]⟩⟩).bind Symbol.scalar? := by
  intro assign s
  have hat : assign.overwritesAt? = some ⟨"root", ⟨["a"]⟩⟩ := rfl
  obtain ⟨-, -, houtlines, -⟩ := values_only_of_overwrites s hat
  exact ⟨hat, houtlines "root", by decide +kernel⟩

end Session

end ConfigTree
