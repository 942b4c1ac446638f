import ConfigTree.Proofs.Assignment
import ConfigTree.Proofs.CopyCourse

/-!
# Assignments that commute

Two assignments inside one tree can be made in either order if neither target stands in the way of
the other assignment, in the tree or through links.  Each finds the same target and the same source
whether or not the other was made before, so it takes the same course; and what they write is in
different places, of the tree and of the store.

Main results:
  * `Symbol.replace?_comm` — two nodes that stand apart can be replaced in either order;
  * `Symbol.assign_course` — what an assignment does is settled by its target and its source;
  * `Symbol.assign_comm` — two assignments can be made in either order.
-/

namespace ConfigTree

open Surroundings (Written)

/-- Neither path is a prefix of the other, so neither leads on from the other. -/
def Path.Apart (p q : Path) : Prop := ¬ p.segments <+: q.segments ∧ ¬ q.segments <+: p.segments

/-- A path that stands `Apart` from another is not the root, which is on every way. -/
theorem Path.Apart.isRoot {p q : Path} (h : p.Apart q) : p.isRoot = false := by
  cases hp : p.isRoot with
  | false => rfl
  | true => exact absurd (List.isEmpty_iff.1 hp ▸ List.nil_prefix) h.1

namespace Symbol

/-! ## §1. Replacing two nodes. -/

theorem replaceNamed_replaceNamed {j : String} {d : Symbol} (hd : d.name = j) (e : Symbol)
    (cs : List Symbol) : replaceNamed j e (replaceNamed j d cs) = replaceNamed j e cs := by
  induction cs with
  | nil => rfl
  | cons c cs ih =>
    by_cases hc : c.name = j
    · simp only [replaceNamed, if_pos hc, if_pos hd]
    · simp only [replaceNamed, if_neg hc, ih]

theorem replaceNamed_comm {j k : String} {d e : Symbol} (hd : d.name = j) (he : e.name = k)
    (hne : j ≠ k) (cs : List Symbol) :
    replaceNamed k e (replaceNamed j d cs) = replaceNamed j d (replaceNamed k e cs) := by
  induction cs with
  | nil => rfl
  | cons c cs ih =>
    by_cases hj : c.name = j
    · have hk : ¬ c.name = k := fun h => hne (hj.symm.trans h)
      have hdk : ¬ d.name = k := fun h => hne (hd.symm.trans h)
      simp only [replaceNamed, if_pos hj, if_neg hk, if_neg hdk]
    · by_cases hk : c.name = k
      · have hej : ¬ e.name = j := fun h => hne (h.symm.trans he)
        simp only [replaceNamed, if_neg hj, if_pos hk, if_neg hej]
      · simp only [replaceNamed, if_neg hj, if_neg hk, ih]

theorem child?_replaceNamed {x c d : Symbol} {j : String} (hc : x.child? j = some c)
    (hd : d.name = j) : (x.withChildren (replaceNamed j d x.children)).child? j = some d := by
  obtain ⟨left, right, -, -, hleft, hreplace⟩ := split_of_find? hc
  rw [child?, children_withChildren (child?_mem hc).1, hreplace, find?_split hd hleft]

theorem child?_replaceNamed_of_ne {x c d : Symbol} {j k : String} (hc : x.child? j = some c)
    (hd : d.name = j) (hne : k ≠ j) :
    (x.withChildren (replaceNamed j d x.children)).child? k = x.child? k := by
  rw [child?, children_withChildren (child?_mem hc).1, child?]
  generalize x.children = cs
  induction cs with
  | nil => rfl
  | cons c cs ih =>
    by_cases hj : c.name = j
    · have hck : ¬ c.name = k := fun h => hne (h.symm.trans hj)
      have hdk : ¬ d.name = k := fun h => hne (h.symm.trans hd)
      rw [replaceNamed, if_pos hj, List.find?_cons_of_neg (by simpa using hdk),
        List.find?_cons_of_neg (by simpa using hck)]
    · rw [replaceNamed, if_neg hj, List.find?_cons, List.find?_cons, ih]

/-- **Nodes `a` and `b` that stand apart can be replaced in either order.** -/
theorem replace?_comm {x x₁ x₂ a b a' b' : Symbol} {js ks : List String}
    (ha : x.replace? js a' = some x₁) (hb : x.replace? ks b' = some x₂)
    (holda : x.descend? js = some a) (holdb : x.descend? ks = some b)
    (hnamea : a'.name = a.name) (hnameb : b'.name = b.name) (hbelow : ¬ js <+: ks)
    (habove : ¬ ks <+: js) : x₁.replace? ks b' = x₂.replace? js a' := by
  induction js generalizing x x₁ x₂ ks with
  | nil => exact absurd List.nil_prefix hbelow
  | cons j js ih =>
    cases ks with
    | nil => exact absurd List.nil_prefix habove
    | cons k ks =>
      obtain ⟨c, d, hc, hd, rfl⟩ := replace?_cons.1 ha
      obtain ⟨e, f, he, hf, rfl⟩ := replace?_cons.1 hb
      rw [descend?_cons, hc, Option.bind_some] at holda
      rw [descend?_cons, he, Option.bind_some] at holdb
      have hdj : d.name = j := (name_replace? hd holda hnamea).trans (child?_mem hc).2
      have hfk : f.name = k := (name_replace? hf holdb hnameb).trans (child?_mem he).2
      have hchildren := children_withChildren (child?_mem hc).1
      by_cases hjk : j = k
      · -- both nodes are below one child
        subst hjk
        cases hc.symm.trans he
        have hrest := ih hd hf holda holdb
          (fun hp => hbelow (List.cons_prefix_cons.2 ⟨rfl, hp⟩))
          fun hp => habove (List.cons_prefix_cons.2 ⟨rfl, hp⟩)
        simp only [replace?, bind, child?_replaceNamed hc hdj, child?_replaceNamed hc hfk,
          Option.bind_some, hrest, hchildren, withChildren_withChildren,
          replaceNamed_replaceNamed hdj, replaceNamed_replaceNamed hfk]
      · simp only [replace?, bind, child?_replaceNamed_of_ne hc hdj (Ne.symm hjk),
          child?_replaceNamed_of_ne he hfk hjk, hc, he, hd, hf, Option.bind_some, hchildren,
          withChildren_withChildren, replaceNamed_comm hdj hfk hjk]

/-! ## §2. The course of an assignment. -/

/-- The tree with the symbol `new?` at the path `target`, if there is one to be put there. -/
def putAt (x : Symbol) (target : Path) (new? : Option Symbol) : Symbol :=
  (new?.bind (x.replace? target.segments)).getD x

/-- **What an assignment does is settled by its target and its source**: in every tree `x'` that has
the same at both paths the same `new?` is put at the target, and the same `Script` is written. -/
theorem assign_course (x : Symbol) (target source : Path) (s : Store) :
    ∃ (new? : Option Symbol) (L : Script) (error? : Option SymbolError),
      (∀ new, new? = some new → ∃ y, x.resolve? target = some y ∧ new.name = y.name) ∧
      ∀ (x' : Symbol) (u : Surroundings), x'.resolve? target = x.resolve? target →
        x'.resolve? source = x.resolve? source →
        (∀ z, x.resolve? source = some z → s.Agree z.objects z.cells u.store) →
          ((x'.assign target source).run u).1 = ⟨x'.putAt target new?, error?⟩ ∧
          ((x'.assign target source).run u).2.store = L.apply u.store ∧
          ((x'.assign target source).run u).2.destroyed = u.destroyed := by
  have hobstacle {x' : Symbol} (htarget : x'.resolve? target = x.resolve? target)
      (hsource : x'.resolve? source = x.resolve? source) :
      x'.assignObstacle? target source = x.assignObstacle? target source := by
    rw [assignObstacle?, htarget, hsource, assignObstacle?]
  cases h : x.assignObstacle? target source with
  | some e =>
    refine ⟨none, [], some e, nofun, fun x' u htarget hsource _ => ?_⟩
    rw [run_assign_of_obstacle ((hobstacle htarget hsource).trans h)]
    exact ⟨rfl, rfl, rfl⟩
  | none =>
    by_cases heq : target = source
    · refine ⟨none, [], none, nofun, fun x' u htarget hsource _ => ?_⟩
      rw [run_assign_self ((hobstacle htarget hsource).trans h) heq]
      exact ⟨rfl, rfl, rfl⟩
    · obtain ⟨y, z, -, hy, hz, -, -⟩ := run_assign_of_found h heq { store := s }
      obtain ⟨c, -, hc⟩ := y.copyFrom_scripted z s
      refine ⟨some (c.change y), c.writes, c.error?, ?_, fun x' u htarget hsource hagree => ?_⟩
      · intro new hnew
        obtain rfl := Option.some.inj hnew
        have hattempt := (hc y { store := s } rfl (Store.Agree.refl _ _ _)).attempt
        have hblank := (y.copyFrom_overwrites z { store := s }).1
        rw [show ((y.copyFrom z).run { store := s }).1 = _ from hattempt] at hblank
        exact ⟨y, hy, name_of_blank hblank⟩
      · obtain ⟨y', z', x'', hy', hz', hx'', hrun⟩ :=
          run_assign_of_found ((hobstacle htarget hsource).trans h) heq u
        cases hy'.symm.trans (htarget.trans hy)
        cases hz'.symm.trans (hsource.trans hz)
        obtain ⟨hattempt, hstore, hdestroyed⟩ :=
          hc y (u.emit (.assigning target.display source.display)) rfl (hagree z hz)
        rw [hattempt] at hx'' hrun
        have hput : x'.putAt target (some (c.change y)) = x'' := by
          rw [putAt, Option.bind_some, hx'', Option.getD_some]
        rw [hrun, hput]
        exact ⟨rfl, hstore, hdestroyed⟩

/-! ## §3. Two assignments. -/

/-- The objects that the symbol at the path `p` is bound or linked to, if there is one. -/
def objectsAt (x : Symbol) (p : Path) : List ObjectId := (x.resolve? p).elim [] objects

/-- The cells that the symbol at the path `p` is linked to, if there is one. -/
def cellsAt (x : Symbol) (p : Path) : List CellId := (x.resolve? p).elim [] cells

/-- No live object and no cell is bound or linked both at the path `p` and at the path `q`. -/
structure SeparateAt (x : Symbol) (s : Store) (p q : Path) : Prop where
  /-- No live object in `objectsAt p` is in `objectsAt q`. -/
  object : ∀ id, s.isLive id = true → id ∈ x.objectsAt p → id ∉ x.objectsAt q
  /-- No cell in `cellsAt p` is in `cellsAt q`. -/
  cell : ∀ id ∈ x.cellsAt p, id ∉ x.cellsAt q

/-- An assignment writes through its `target` only, if that is not the root: what is `Written` is
among its `objectsAt` and `cellsAt`. -/
theorem assign_written {x : Symbol} {target : Path} (hroot : target.isRoot = false) (source : Path)
    (w : Surroundings) :
    Written (x.objectsAt target) (x.cellsAt target) w ((x.assign target source).run w).2 := by
  obtain ⟨-, hw⟩ | ⟨y, y', hy, -, -, hw⟩ := x.assign_overwrittenAt target source w
  · exact hw.mono (List.nil_subset _) (List.nil_subset _)
  · rw [objectsAt, cellsAt, resolve?, hroot, if_neg Bool.false_ne_true, hy]
    exact hw

/-- What is `SeparateAt` from the target is not touched by an assignment. -/
theorem agree_assign {x z : Symbol} {target p : Path} (hroot : target.isRoot = false)
    (source : Path) {w : Surroundings} (h : x.SeparateAt w.store target p)
    (hz : x.resolve? p = some z) :
    w.store.Agree z.objects z.cells ((x.assign target source).run w).2.store := by
  have hobjects : x.objectsAt p = z.objects := by rw [objectsAt, hz, Option.elim_some]
  have hcells : x.cellsAt p = z.cells := by rw [cellsAt, hz, Option.elim_some]
  exact hobjects ▸ hcells ▸ Store.Agree.of_written (assign_written hroot source w) h.object h.cell

/-- A path `p` that stands `Apart` from the target leads where it led before `new?` was put
there. -/
theorem resolve?_putAt {x : Symbol} {target p : Path} {new? : Option Symbol}
    (hnew : ∀ new, new? = some new → ∃ y, x.resolve? target = some y ∧ new.name = y.name)
    (h : target.Apart p) : (x.putAt target new?).resolve? p = x.resolve? p := by
  cases new? with
  | none => rfl
  | some new =>
    obtain ⟨y, hy, hname⟩ := hnew new rfl
    obtain ⟨x', hx'⟩ := replace?_of_descend? (descend?_of_resolve? hy) new
    rw [putAt, Option.bind_some, hx', Option.getD_some, resolve?, resolve?,
      descend?_replace?_of_apart hx' (descend?_of_resolve? hy) hname h.1 h.2]

theorem putAt_comm {x : Symbol} {t₁ t₂ : Path} {new₁? new₂? : Option Symbol}
    (h₁ : ∀ new, new₁? = some new → ∃ y, x.resolve? t₁ = some y ∧ new.name = y.name)
    (h₂ : ∀ new, new₂? = some new → ∃ y, x.resolve? t₂ = some y ∧ new.name = y.name)
    (h : t₁.Apart t₂) :
    (x.putAt t₁ new₁?).putAt t₂ new₂? = (x.putAt t₂ new₂?).putAt t₁ new₁? := by
  cases new₁? with
  | none => rfl
  | some a =>
    cases new₂? with
    | none => rfl
    | some b =>
      obtain ⟨y, hy, ha⟩ := h₁ a rfl
      obtain ⟨z, hz, hb⟩ := h₂ b rfl
      have hy := descend?_of_resolve? hy
      have hz := descend?_of_resolve? hz
      obtain ⟨x₁, hx₁⟩ := replace?_of_descend? hy a
      obtain ⟨x₂, hx₂⟩ := replace?_of_descend? hz b
      have hcomm := replace?_comm hx₁ hx₂ hy hz ha hb h.1 h.2
      -- what stands apart is still there, and so can be replaced
      have hz₁ : x₁.descend? t₂.segments = some z :=
        (descend?_replace?_of_apart hx₁ hy ha h.1 h.2).trans hz
      obtain ⟨x₁₂, hx₁₂⟩ := replace?_of_descend? hz₁ b
      simp only [putAt, Option.bind_some, hx₁, hx₂, Option.getD_some, hx₁₂, ← hcomm]

end Symbol

/-- The scripts `L₁` and `L₂`, `Written` to different places, come to the same store in either
order. -/
theorem Surroundings.Written.store_comm {os₁ os₂ : List ObjectId} {cs₁ cs₂ : List CellId}
    {L₁ L₂ : Script} {w u₁ u₂ u₁₂ u₂₁ : Surroundings} (h₁ : Written os₁ cs₁ w u₁)
    (h₂ : Written os₂ cs₂ w u₂) (h₁₂ : Written os₂ cs₂ u₁ u₁₂) (h₂₁ : Written os₁ cs₁ u₂ u₂₁)
    (hs₁ : u₁.store = L₁.apply w.store) (hs₂ : u₂.store = L₂.apply w.store)
    (hs₁₂ : u₁₂.store = L₂.apply u₁.store) (hs₂₁ : u₂₁.store = L₁.apply u₂.store)
    (hobjects : ∀ id, w.store.isLive id = true → id ∈ os₁ → id ∉ os₂)
    (hcells : ∀ id ∈ cs₁, id ∉ cs₂) : u₂₁.store = u₁₂.store := by
  refine Store.ext_of_identities ?_ (fun id => ?_) fun id => ?_
  · rw [h₂₁.size, h₂.size, h₁₂.size, h₁.size]
  · by_cases hlive : w.store.isLive id = true
    · by_cases hid : id ∈ os₁
      · -- written by the first only, and from the same
        have hid₂ := hobjects id hlive hid
        rw [h₁₂.object id hid₂, hs₂₁, hs₁, L₁.object?_apply, L₁.object?_apply, h₂.object id hid₂]
      · rw [h₂₁.object id hid, hs₁₂, hs₂, L₂.object?_apply, L₂.object?_apply, h₁.object id hid]
    · have hnone : w.store.object? id = none := by
        simpa [Store.isLive] using hlive
      simp only [hs₂₁, hs₂, hs₁₂, hs₁, Script.object?_apply, hnone, Option.map_none]
  · by_cases hid : id ∈ cs₁
    · have hid₂ := hcells id hid
      rw [h₁₂.cell id hid₂, hs₂₁, hs₁, L₁.cell?_apply, L₁.cell?_apply, h₂.cell id hid₂]
    · rw [h₂₁.cell id hid, hs₁₂, hs₂, L₂.cell?_apply, L₂.cell?_apply, h₁.cell id hid]

namespace Symbol

/-- **Assignments that are independent can be made in either order.** Each target stands `Apart`
from the other target and from the source of the other assignment, and what a target leads to is
`SeparateAt` both.  Then both orders leave the same tree and the same store, and each assignment
ends as it does in the other order, whether it succeeds or fails. -/
theorem assign_comm (x : Symbol) (t₁ s₁ t₂ s₂ : Path) (w : Surroundings) (htargets : t₁.Apart t₂)
    (h₁₂ : t₁.Apart s₂) (h₂₁ : t₂.Apart s₁)
    (hsep : x.SeparateAt w.store t₁ t₂) (hsep₁ : x.SeparateAt w.store t₁ s₂)
    (hsep₂ : x.SeparateAt w.store t₂ s₁) :
    let first := (x.assign t₁ s₁).run w
    let thenSecond := (first.1.value.assign t₂ s₂).run first.2
    let second := (x.assign t₂ s₂).run w
    let thenFirst := (second.1.value.assign t₁ s₁).run second.2
    thenFirst.1.value = thenSecond.1.value ∧ thenFirst.2.store = thenSecond.2.store ∧
      thenFirst.2.destroyed = thenSecond.2.destroyed ∧ thenFirst.1.error? = first.1.error? ∧
      second.1.error? = thenSecond.1.error? := by
  intro first thenSecond second thenFirst
  have htargets' : t₂.Apart t₁ := ⟨htargets.2, htargets.1⟩
  -- both assignments, made first
  obtain ⟨new₁?, L₁, e₁?, hnew₁, hc₁⟩ := x.assign_course t₁ s₁ w.store
  obtain ⟨new₂?, L₂, e₂?, hnew₂, hc₂⟩ := x.assign_course t₂ s₂ w.store
  obtain ⟨hattempt₁, hstore₁, hkept₁⟩ := hc₁ x w rfl rfl fun _ _ => .refl _ _ _
  obtain ⟨hattempt₂, hstore₂, hkept₂⟩ := hc₂ x w rfl rfl fun _ _ => .refl _ _ _
  have hvalue₁ : first.1.value = x.putAt t₁ new₁? := congrArg Attempt.value hattempt₁
  have hvalue₂ : second.1.value = x.putAt t₂ new₂? := congrArg Attempt.value hattempt₂
  -- either finds after the other what it would find before
  have htarget₁₂ := resolve?_putAt hnew₁ htargets
  have htarget₂₁ := resolve?_putAt hnew₂ htargets'
  obtain ⟨hattempt₁₂, hstore₁₂, hkept₁₂⟩ := hc₂ first.1.value first.2 (hvalue₁ ▸ htarget₁₂)
    (hvalue₁ ▸ resolve?_putAt hnew₁ h₁₂) fun z hz => agree_assign htargets.isRoot s₁ hsep₁ hz
  obtain ⟨hattempt₂₁, hstore₂₁, hkept₂₁⟩ := hc₁ second.1.value second.2 (hvalue₂ ▸ htarget₂₁)
    (hvalue₂ ▸ resolve?_putAt hnew₂ h₂₁) fun z hz => agree_assign htargets'.isRoot s₂ hsep₂ hz
  refine ⟨?_, ?_, ?_, ?_, ?_⟩
  · rw [show thenFirst.1 = _ from hattempt₂₁, show thenSecond.1 = _ from hattempt₁₂, hvalue₁,
      hvalue₂, putAt_comm hnew₁ hnew₂ htargets]
  · have hw₁₂ : Written (x.objectsAt t₂) (x.cellsAt t₂) first.2 thenSecond.2 := by
      rw [objectsAt, cellsAt, ← htarget₁₂, ← hvalue₁]
      exact assign_written htargets'.isRoot s₂ first.2
    have hw₂₁ : Written (x.objectsAt t₁) (x.cellsAt t₁) second.2 thenFirst.2 := by
      rw [objectsAt, cellsAt, ← htarget₂₁, ← hvalue₂]
      exact assign_written htargets.isRoot s₁ second.2
    exact (assign_written htargets.isRoot s₁ w).store_comm (assign_written htargets'.isRoot s₂ w)
      hw₁₂ hw₂₁ hstore₁ hstore₂ hstore₁₂ hstore₂₁ hsep.object hsep.cell
  · exact (hkept₂₁.trans hkept₂).trans (hkept₁₂.trans hkept₁).symm
  · rw [show thenFirst.1 = _ from hattempt₂₁, show first.1 = _ from hattempt₁]
  · rw [show thenSecond.1 = _ from hattempt₁₂, show second.1 = _ from hattempt₂]

/-- A scope with the flag `a` of its own, and with a flag in a cell in the scope `b` below. -/
def sharedFlag : Symbol :=
  .branch .scope ⟨"root", "", none⟩ .matchingNames
    [.scalar ⟨⟨"a", "", none⟩, .value (.bool false)⟩,
      .branch .scope ⟨"b", "", none⟩ .matchingNames [.scalar ⟨⟨"c", "", none⟩, .linked (.cell ⟨0⟩)⟩],
      .scalar ⟨⟨"d", "", none⟩, .value (.bool true)⟩]

theorem assign_comm_shared_flag :
    let w : Surroundings := { store := { cells := #[⟨.bool, false, false⟩] } }
    let first := (sharedFlag.assign ⟨["a"]⟩ ⟨["d"]⟩).run w
    let second := (sharedFlag.assign ⟨["b", "c"]⟩ ⟨["d"]⟩).run w
    let thenSecond := (first.1.value.assign ⟨["b", "c"]⟩ ⟨["d"]⟩).run first.2
    let thenFirst := (second.1.value.assign ⟨["a"]⟩ ⟨["d"]⟩).run second.2
    thenFirst.1.value = thenSecond.1.value ∧ thenFirst.2.store = thenSecond.2.store ∧
      thenSecond.2.store.cells = #[⟨.bool, true, false⟩] := by
  intro w first second thenSecond thenFirst
  have hsep (p q : Path) (hobjects : sharedFlag.objectsAt p = [])
      (hcells : ∀ id ∈ sharedFlag.cellsAt p, id ∉ sharedFlag.cellsAt q) :
      sharedFlag.SeparateAt w.store p q := ⟨fun id _ hid => by simp [hobjects] at hid, hcells⟩
  obtain ⟨hvalue, hstore, -, -, -⟩ :=
    assign_comm sharedFlag ⟨["a"]⟩ ⟨["d"]⟩ ⟨["b", "c"]⟩ ⟨["d"]⟩ w ⟨by decide, by decide⟩
      ⟨by decide, by decide⟩ ⟨by decide, by decide⟩
      (hsep _ _ (by decide +kernel) (by decide +kernel))
      (hsep _ _ (by decide +kernel) (by decide +kernel))
      (hsep _ _ (by decide +kernel) (by decide +kernel))
  exact ⟨hvalue, hstore, by decide +kernel⟩

end Symbol

end ConfigTree
