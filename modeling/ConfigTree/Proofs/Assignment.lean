import ConfigTree.Proofs.TreeNodes
import ConfigTree.Proofs.Paths

/-!
# Assignments inside a tree

An assignment takes its target out of the tree, looks for the source in what is left, copies, and
puts the target back by its index.  As neither path goes on from the other, none of this shows: the
source is the one that the whole tree has, the target is written where it stands, and the scope that
it was taken from is there to take it back.

Main results:
  * `Symbol.resolve?_rest` — what is left of the tree has the source of the whole tree;
  * `Symbol.run_assign_of_obstacle`, `Symbol.run_assign_of_found` — an assignment ends at a check
    that fails, and copies in place if none does;
  * `Symbol.assign_decided` — what comes of an assignment, and what it leaves alone.
-/

namespace ConfigTree

open Surroundings (Written)

/-! ## §1. The last name of a path. -/

namespace Symbol

variable {x x' y z : Symbol} {target source parent : Path} {name : String} {d : Detached}

theorem resolve?_of_splitLast? (h : target.splitLast? = some (parent, name)) :
    x.resolve? target = (x.descend? parent.segments).bind (·.child? name) := by
  have hsegments := Path.segments_of_splitLast? h
  have hroot : target.isRoot = false := by
    rw [Path.isRoot, hsegments]
    simp
  rw [resolve?, hroot, if_neg Bool.false_ne_true, hsegments, descend?_append]
  congr 1
  funext p
  rw [descend?_cons]
  cases p.child? name <;> simp

/-- A path `target` that leads to a symbol has a last name. -/
theorem splitLast?_of_resolve? (h : x.resolve? target = some y) :
    ∃ parent name, target.splitLast? = some (parent, name) := by
  cases hsplit : target.splitLast? with
  | some found => exact ⟨found.1, found.2, rfl⟩
  | none =>
    have hnil : target.segments = [] := by
      simpa [Path.splitLast?] using hsplit
    rw [resolve?, Path.isRoot, hnil] at h
    cases h

/-- The `root` path leads to no symbol of a tree. -/
theorem isRoot_of_resolve? (h : x.resolve? target = some y) : target.isRoot = false := by
  rw [resolve?] at h
  split at h
  case isTrue => cases h
  case isFalse hroot => exact eq_false_of_ne_true hroot

/-- What `replace?` has put at `target` is what the path leads to. -/
theorem resolve?_replace? (h : x.replace? target.segments z = some x')
    (hy : x.resolve? target = some y) (hname : z.name = y.name) :
    x'.resolve? target = some z := by
  rw [resolve?, isRoot_of_resolve? hy, if_neg Bool.false_ne_true]
  exact descend?_replace? h (descend?_of_resolve? hy) hname

/-! ## §2. Taking the target out. -/

/-- **What `resolve?` finds `detach?` can take out**: it is the symbol that is found. -/
theorem detach?_of_resolve? (hsplit : target.splitLast? = some (parent, name))
    (h : x.resolve? target = some y) : ∃ d, x.detach? parent name = some d ∧ d.symbol = y := by
  rw [resolve?_of_splitLast? hsplit] at h
  obtain ⟨p, hp, hy⟩ := Option.bind_eq_some_iff.1 h
  rw [child?, List.find?_eq_bind_findIdx?_getElem?] at hy
  obtain ⟨i, hi, hget⟩ := Option.bind_eq_some_iff.1 hy
  obtain ⟨rest, hrest⟩ := replace?_of_descend? hp (p.withChildren (p.children.eraseIdx i))
  refine ⟨⟨rest, i, y⟩, ?_, rfl⟩
  simp only [detach?, bind, pure, hp, hi, hget, hrest, Option.bind_some]

/-- What `detach?` took out is what `resolve?` finds. -/
theorem resolve?_of_detach? (hsplit : target.splitLast? = some (parent, name))
    (h : x.detach? parent name = some d) : x.resolve? target = some d.symbol := by
  obtain ⟨p, hp, hchild, -, -⟩ := split_of_detach? h
  rw [resolve?_of_splitLast? hsplit, hp, Option.bind_some, hchild]

/-- A child of another name than the one at `i` is found also when that is taken out. -/
theorem find?_eraseIdx_of_ne {cs : List Symbol} {i : Nat} {k : String}
    (hi : cs.findIdx? (·.name = name) = some i) (hk : k ≠ name) :
    (cs.eraseIdx i).find? (·.name = k) = cs.find? (·.name = k) := by
  obtain ⟨hlt, hname, -⟩ := List.findIdx?_eq_some_iff_getElem.1 hi
  have hother : cs[i].name ≠ k := fun heq => hk (heq.symm.trans (by simpa using hname))
  have hsplit : cs = cs.take i ++ cs[i] :: cs.drop (i + 1) := by
    rw [← List.drop_eq_getElem_cons hlt, List.take_append_drop]
  conv_rhs => rw [hsplit]
  rw [List.eraseIdx_eq_take_drop_succ, List.find?_append, List.find?_append,
    List.find?_cons_of_neg (by simpa using hother)]

/-- **What `detach?` leaves of the tree has the source of the whole tree**, as neither path goes on
from the other. -/
theorem resolve?_rest (hsplit : target.splitLast? = some (parent, name))
    (hd : x.detach? parent name = some d) (hbelow : ¬ target.segments <+: source.segments)
    (habove : ¬ source.segments <+: target.segments) :
    d.rest.resolve? source = x.resolve? source := by
  obtain ⟨p, hp, -, hidx, hrest⟩ := split_of_detach? hd
  have hsegments := Path.segments_of_splitLast? hsplit
  -- taking a child out leaves the name of its scope
  have hname : (p.withChildren (p.children.eraseIdx d.index)).name = p.name := by
    rw [Symbol.name, info_withChildren, Symbol.name]
  suffices hdescend : d.rest.descend? source.segments = x.descend? source.segments by
    rw [resolve?, resolve?, hdescend]
  by_cases hparent : parent.segments <+: source.segments
  · -- the source goes on from the scope of the target, by the name of one of its siblings
    obtain ⟨ks, hks⟩ := hparent
    rw [← hks, descend?_append, descend?_append, descend?_replace? hrest hp hname, hp]
    cases ks with
    | nil =>
      exfalso
      apply habove
      rw [← hks, hsegments, List.append_nil]
      exact List.prefix_append _ _
    | cons k ks =>
      have hk : k ≠ name := by
        rintro rfl
        apply hbelow
        rw [← hks, hsegments]
        exact ⟨ks, by simp⟩
      have hmem : ∃ c, c ∈ p.children := by
        obtain ⟨hlt, -, -⟩ := List.findIdx?_eq_some_iff_getElem.1 hidx
        exact ⟨_, List.getElem_mem hlt⟩
      obtain ⟨c, hc⟩ := hmem
      rw [Option.bind_some, Option.bind_some, descend?_cons, descend?_cons, child?, child?,
        children_withChildren hc, find?_eraseIdx_of_ne hidx hk]
  · -- the source is nowhere near the scope of the target
    apply descend?_replace?_of_apart hrest hp hname hparent
    intro hsource
    apply habove
    rw [hsegments]
    exact hsource.trans (List.prefix_append _ _)

/-- **The scope of the target is there for `attach?`.** -/
theorem attach?_isSome (hsplit : target.splitLast? = some (parent, name))
    (hd : x.detach? parent name = some d) (new : Symbol) :
    (d.rest.attach? parent d.index new).isSome = true := by
  have hfound := descend?_of_resolve? (resolve?_of_detach? hsplit hd)
  obtain ⟨x', hx'⟩ := replace?_of_descend? hfound new
  rw [attach?_of_detach? hd, ← Path.segments_of_splitLast? hsplit, hx']
  rfl

/-! ## §3. How an assignment goes. -/

/-- Why an assignment from `source` to `target` fails before it writes anything, in the order of the
checks. -/
def assignObstacle? (x : Symbol) (target source : Path) : Option SymbolError :=
  if target = source then
    if (x.resolve? target).isSome then none else some (.notFound target.display)
  else if target.isPrefixOf source || source.isPrefixOf target then
    some (.overlappingAssignment target.display source.display)
  else if (x.resolve? target).isNone then some (.notFound target.display)
  else if (x.resolve? source).isNone then some (.notFound source.display)
  else none

/-- The symbol `y` after it takes over the value of what there is at `source`. -/
def copyFound (y : Symbol) (source : Path) : Option Symbol → Effect (Attempt Symbol)
  | some z => y.copyFrom z
  | none => do return ⟨y, some (← reportMissing source)⟩

/-- What was taken out as `d` copies what the whole tree has at `source`. -/
theorem copyFrom_eq_copyFound (hsplit : target.splitLast? = some (parent, name))
    (hd : x.detach? parent name = some d) (hbelow : ¬ target.segments <+: source.segments)
    (habove : ¬ source.segments <+: target.segments) :
    d.copyFrom source = d.symbol.copyFound source (x.resolve? source) := by
  unfold Detached.copyFrom
  rw [resolve?_rest hsplit hd hbelow habove]
  cases x.resolve? source <;> rfl

/-- The steps of an `assign` between paths that stand apart, to a target `y` that is there: the
copy, and the replacement of the target by what comes of it. -/
theorem run_assign_of_target (hbelow : ¬ target.segments <+: source.segments)
    (habove : ¬ source.segments <+: target.segments) (hy : x.resolve? target = some y)
    {w w' : Surroundings} {copied : Attempt Symbol}
    (hcopied : (y.copyFound source (x.resolve? source)).run
      (w.emit (.assigning target.display source.display)) = (copied, w'))
    (hx' : x.replace? target.segments copied.value = some x') :
    (x.assign target source).run w = (⟨x', copied.error?⟩, w') := by
  obtain ⟨parent, name, hsplit⟩ := splitLast?_of_resolve? hy
  obtain ⟨d, hd, rfl⟩ := detach?_of_resolve? hsplit hy
  have hne : target ≠ source := fun heq => hbelow (heq ▸ List.prefix_rfl)
  have hapart : ¬ (target.isPrefixOf source || source.isPrefixOf target) = true := by
    rw [Bool.or_eq_true, Path.isPrefixOf_iff, Path.isPrefixOf_iff]
    exact fun h => h.elim hbelow habove
  rw [assign, Effect.run_bind, if_neg hne, if_neg hapart, hsplit, Option.bind_some]
  dsimp only
  rw [hd, Option.map_some]
  dsimp only
  rw [Effect.run_bind, attach?_of_detach? hd, ← Path.segments_of_splitLast? hsplit,
    copyFrom_eq_copyFound hsplit hd hbelow habove]
  -- the event comes first
  have hstart : ((Effect.emit (.assigning target.display source.display)).run w).2 =
      w.emit (.assigning target.display source.display) := rfl
  rw [hstart, hcopied]
  dsimp only
  rw [hx']
  rfl

/-- **An `assignObstacle?` ends the assignment before anything but the events has changed.** -/
theorem run_assign_of_obstacle {e : SymbolError} (h : x.assignObstacle? target source = some e)
    (w : Surroundings) :
    (x.assign target source).run w =
      (⟨x, some e⟩, (w.emit (.assigning target.display source.display)).emit (.reported e)) := by
  unfold assignObstacle? at h
  split at h
  case isTrue heq =>
    split at h
    case isTrue => cases h
    case isFalse hmissing =>
      rw [Option.not_isSome_iff_eq_none] at hmissing
      rw [← Option.some.inj h, assign, Effect.run_bind, if_pos heq, hmissing]
      rfl
  case isFalse hne =>
    split at h
    case isTrue hoverlap =>
      rw [← Option.some.inj h, assign, Effect.run_bind, if_neg hne, if_pos hoverlap]
      rfl
    case isFalse hapart =>
      have hapart' := hapart
      rw [Bool.or_eq_true, Path.isPrefixOf_iff, Path.isPrefixOf_iff, not_or] at hapart'
      cases hy : x.resolve? target with
      | none =>
        rw [hy] at h
        rw [← Option.some.inj h, assign, Effect.run_bind, if_neg hne, if_neg hapart]
        -- a target that cannot be found cannot be taken out either
        cases hsplit : target.splitLast? with
        | none => rfl
        | some found =>
          obtain ⟨parent, name⟩ := found
          cases hd : x.detach? parent name with
          | none =>
            rw [Option.bind_some]
            dsimp only
            rw [hd]
            rfl
          | some d =>
            rw [resolve?_of_detach? hsplit hd] at hy
            cases hy
      | some y =>
        rw [hy] at h
        cases hz : x.resolve? source with
        | some z =>
          rw [hz] at h
          cases h
        | none =>
          rw [hz] at h
          rw [← Option.some.inj h]
          -- the target is put back as it was taken out
          have hback : x.replace? target.segments
              (Attempt.mk y (some (.notFound source.display))).value = some x :=
            replace?_self (descend?_of_resolve? hy)
          apply run_assign_of_target hapart'.1 hapart'.2 hy _ hback
          rw [hz]
          rfl

theorem resolve?_of_self (h : x.assignObstacle? target source = none) (heq : target = source) :
    ∃ y, x.resolve? target = some y := by
  unfold assignObstacle? at h
  rw [if_pos heq] at h
  cases hy : x.resolve? target with
  | none =>
    rw [hy] at h
    cases h
  | some y => exact ⟨y, rfl⟩

/-- Nothing is done to `assign` a symbol to itself. -/
theorem run_assign_self (h : x.assignObstacle? target source = none) (heq : target = source)
    (w : Surroundings) :
    (x.assign target source).run w =
      (⟨x, none⟩, w.emit (.assigning target.display source.display)) := by
  obtain ⟨y, hy⟩ := resolve?_of_self h heq
  rw [assign, Effect.run_bind, if_pos heq, hy]
  rfl

/-- **Without an `assignObstacle?` the target is copied in place.** -/
theorem run_assign_of_found (h : x.assignObstacle? target source = none) (hne : target ≠ source)
    (w : Surroundings) :
    let start := w.emit (.assigning target.display source.display)
    ∃ y z x', x.resolve? target = some y ∧ x.resolve? source = some z ∧
      x.replace? target.segments ((y.copyFrom z).run start).1.value = some x' ∧
      (x.assign target source).run w =
        (⟨x', ((y.copyFrom z).run start).1.error?⟩, ((y.copyFrom z).run start).2) := by
  intro start
  unfold assignObstacle? at h
  rw [if_neg hne] at h
  split at h
  case isTrue => cases h
  case isFalse hapart =>
    rw [Bool.or_eq_true, Path.isPrefixOf_iff, Path.isPrefixOf_iff, not_or] at hapart
    cases hy : x.resolve? target with
    | none =>
      rw [hy] at h
      cases h
    | some y =>
      cases hz : x.resolve? source with
      | none =>
        rw [hy, hz] at h
        cases h
      | some z =>
        obtain ⟨x', hx'⟩ := replace?_of_descend? (descend?_of_resolve? hy)
          ((y.copyFrom z).run start).1.value
        refine ⟨y, z, x', rfl, rfl, hx', ?_⟩
        refine run_assign_of_target hapart.1 hapart.2 hy ?_ hx'
        rw [hz]
        rfl

/-! ## §4. What an assignment leaves alone. -/

/-- **By `assign`, at most the target is overwritten.** -/
theorem assign_overwrittenAt (x : Symbol) (target source : Path) (w : Surroundings) :
    x.OverwrittenAt target.segments ((x.assign target source).run w).1.value w
      ((x.assign target source).run w).2 := by
  cases h : x.assignObstacle? target source with
  | some e =>
    rw [run_assign_of_obstacle h]
    exact .refl _ x rfl rfl
  | none =>
    by_cases heq : target = source
    · rw [run_assign_self h heq]
      exact .refl _ x rfl rfl
    · obtain ⟨y, z, x', hy, -, hx', hrun⟩ := run_assign_of_found h heq w
      obtain ⟨hblank, hwritten⟩ :=
        y.copyFrom_overwrites z (w.emit (.assigning target.display source.display))
      rw [hrun]
      exact .inr ⟨y, _, descend?_of_resolve? hy, hx', hblank, Written.of_emit hwritten⟩

/-- By `assignValue`, at most the target is overwritten. -/
theorem assignValue_overwrittenAt (x : Symbol) (target : Path) (v : Value) (w : Surroundings) :
    x.OverwrittenAt target.segments ((x.assignValue target v).run w).1.value w
      ((x.assignValue target v).run w).2 := by
  rw [assignValue, Effect.run_bind]
  cases hy : x.resolve? target with
  | none => exact .refl _ x rfl rfl
  | some y =>
    cases y with
    | scalar s =>
      exact ((s.set_overwrites v).overwrittenAt_replace? (descend?_of_resolve? hy) _).of_emit
    | function f => exact .refl _ x rfl rfl
    | branch role info policy cs => exact .refl _ x rfl rfl

/-- The place of the symbol at `p` among its siblings. -/
def index? (x : Symbol) (p : Path) : Option Nat :=
  p.splitLast?.bind fun (parent, name) =>
    (x.descend? parent.segments).bind fun y => y.children.findIdx? (·.name = name)

theorem index?_eq_childNames (x : Symbol) (p : Path) :
    x.index? p = p.splitLast?.bind fun (parent, name) =>
      ((x.descend? parent.segments).map childNames).bind fun names =>
        names.findIdx? (· = name) := by
  unfold index?
  congr 1
  funext ⟨parent, name⟩
  dsimp only
  cases x.descend? parent.segments with
  | none => rfl
  | some y =>
    show y.children.findIdx? _ = y.childNames.findIdx? _
    rw [childNames, List.findIdx?_map]
    rfl

/-- The place of a symbol is a matter of the names that there are, so it is the same in trees with
the same `blank`. -/
theorem index?_of_blank (h : x'.blank = x.blank) (p : Path) : x'.index? p = x.index? p := by
  rw [index?_eq_childNames, index?_eq_childNames]
  congr 1
  funext ⟨parent, name⟩
  dsimp only
  rw [childNames_descend?_of_blank h]

/-- **What comes of an assignment.** The checks of `assignObstacle?` decide in their order, and if
one fails, nothing has changed but the events.  Otherwise a symbol that is assigned to itself is
left alone, and any other target becomes what `copyFrom` makes of it, with the outcome of that
copy.  Whatever the outcome, every scope holds the same names in the same order, the target is where
it was among its siblings by `index?`, the other nodes of the tree are the same, and nothing is
written but through the target.  The scope that the target was taken from is always there to take it
back. -/
theorem assign_decided (x : Symbol) (target source : Path) (w : Surroundings) :
    let start := w.emit (.assigning target.display source.display)
    let out := (x.assign target source).run w
    (∀ e, x.assignObstacle? target source = some e →
      out = (⟨x, some e⟩, start.emit (.reported e))) ∧
    (x.assignObstacle? target source = none → ∃ y, x.resolve? target = some y ∧
      (target = source → out = (⟨x, none⟩, start)) ∧
      (target ≠ source → ∃ z, x.resolve? source = some z ∧
        let copied := (y.copyFrom z).run start
        out.1.error? = copied.1.error? ∧ out.2 = copied.2 ∧
          out.1.value.resolve? target = some copied.1.value)) ∧
    (∀ ks, (out.1.value.descend? ks).map childNames = (x.descend? ks).map childNames) ∧
    out.1.value.index? target = x.index? target ∧
    (∀ y, x.resolve? target = some y → ∃ y' before after,
      out.1.value.resolve? target = some y' ∧
      x.nodes .root = before ++ y.nodes target ++ after ∧
      out.1.value.nodes .root = before ++ y'.nodes target ++ after ∧
      Written y.objects y.cells w out.2) ∧
    (∀ parent name d new, target.splitLast? = some (parent, name) →
      x.detach? parent name = some d → (d.rest.attach? parent d.index new).isSome = true) := by
  intro start out
  have hat := x.assign_overwrittenAt target source w
  refine ⟨fun e h => run_assign_of_obstacle h w, fun h => ?found,
    childNames_descend?_of_blank hat.blank, index?_of_blank hat.blank target, fun y hy => ?rest,
    fun parent name d new hsplit hd => attach?_isSome hsplit hd new⟩
  case found =>
    by_cases heq : target = source
    · obtain ⟨y, hy⟩ := resolve?_of_self h heq
      exact ⟨y, hy, fun _ => run_assign_self h heq w, fun hne => absurd heq hne⟩
    · obtain ⟨y, z, x', hy, hz, hx', hrun⟩ := run_assign_of_found h heq w
      refine ⟨y, hy, fun h => absurd h heq, fun _ => ⟨z, hz, ?_⟩⟩
      rw [show out = _ from hrun]
      refine ⟨rfl, rfl, resolve?_replace? hx' hy ?_⟩
      exact name_of_blank (y.copyFrom_overwrites z start).1
  case rest =>
    obtain ⟨y', before, after, hy', -, hold, hnew, hwritten⟩ :=
      hat.split (descend?_of_resolve? hy) .root
    refine ⟨y', before, after, ?_, hold, hnew, hwritten⟩
    rw [resolve?, isRoot_of_resolve? hy]
    exact hy'

/-- A scope with a flag, and another flag in a scope below. -/
def twoFlags : Symbol :=
  .branch .scope ⟨"root", "", none⟩ .matchingNames
    [.scalar ⟨⟨"a", "", none⟩, .value (.bool false)⟩,
      .branch .scope ⟨"b", "", none⟩ .matchingNames
        [.scalar ⟨⟨"c", "", none⟩, .value (.bool true)⟩]]

theorem assign_decided_two_flags :
    twoFlags.assignObstacle? ⟨["a"]⟩ ⟨["b", "c"]⟩ = none ∧
      ((twoFlags.assign ⟨["a"]⟩ ⟨["b", "c"]⟩).run {}).1.value.resolve? ⟨["a"]⟩ =
        some (.scalar ⟨⟨"a", "", none⟩, .value (.bool true)⟩) ∧
      twoFlags.assignObstacle? ⟨["b"]⟩ ⟨["b", "c"]⟩ = some (.overlappingAssignment "b" "b.c") ∧
      ((twoFlags.assign ⟨["b"]⟩ ⟨["b", "c"]⟩).run {}).1.value = twoFlags := by
  have hclear : twoFlags.assignObstacle? ⟨["a"]⟩ ⟨["b", "c"]⟩ = none := by decide +kernel
  have hoverlap : twoFlags.assignObstacle? ⟨["b"]⟩ ⟨["b", "c"]⟩ =
      some (.overlappingAssignment "b" "b.c") := by decide +kernel
  refine ⟨hclear, ?_, hoverlap, ?_⟩
  · obtain ⟨-, hfound, -⟩ := assign_decided twoFlags ⟨["a"]⟩ ⟨["b", "c"]⟩ {}
    obtain ⟨y, hy, -, hcopied⟩ := hfound hclear
    obtain ⟨z, hz, -, -, hvalue⟩ := hcopied (by decide)
    -- the two flags are what the paths lead to
    cases hy
    cases hz
    exact hvalue
  · obtain ⟨hfails, -⟩ := assign_decided twoFlags ⟨["b"]⟩ ⟨["b", "c"]⟩ {}
    rw [hfails _ hoverlap]

end Symbol

end ConfigTree
