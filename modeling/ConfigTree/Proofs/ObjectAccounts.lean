import ConfigTree.Proofs.Tree

/-!
# Accounts of objects

Objects are counted.  An object that was ever made counts once as alive or not at all, and as often
as gone as it was destroyed.  `Surroundings.Evolves` is the law of conservation that every operation
obeys: what was alive or was born is alive afterwards or was destroyed, once.

Who has to destroy an object is counted too.  `Effect.Moves` says that an effect which is handed
some objects hands on others, and that together with whatever is held elsewhere the live objects are
held once each, before and after.  What is held elsewhere does not matter, so the counts of a
sequence follow from those of its parts.

Main results:
  * `Surroundings.evolves_trans` — conservation carries over to sequences;
  * `Effect.Moves.bind` — so do the counts of what is held;
  * `Symbol.release_moves` — dropping a symbol destroys what it owns and nothing else.
-/

namespace ConfigTree

/-! ## §1. Counting objects. -/

theorem ObjectId.count_singleton (id other : ObjectId) :
    [id].count other = if other = id then 1 else 0 := by
  by_cases heq : other = id
  · rw [if_pos heq, heq, List.count_singleton_self]
  · rw [if_neg heq, List.count_singleton, if_neg (by simpa using Ne.symm heq)]

namespace Surroundings

/-- How many objects were ever made by the point `w`. -/
def made (w : Surroundings) : Nat := w.store.objects.size

/-- One if the object `id` is alive at `w`, and else zero. -/
def alive (w : Surroundings) (id : ObjectId) : Nat := (w.store.isLive id).toNat

/-- How often the object `id` was destroyed by the point `w`. -/
def gone (w : Surroundings) (id : ObjectId) : Nat :=
  (w.destroyed.toList.map Destruction.id).count id

/-- One if the object `id` was made between `w` and `w'`, and else zero. -/
def born (w w' : Surroundings) (id : ObjectId) : Nat :=
  if w.made ≤ id.index ∧ id.index < w'.made then 1 else 0

variable {w w' w'' : Surroundings}

theorem alive_le_one (w : Surroundings) (id : ObjectId) : w.alive id ≤ 1 := by
  unfold alive
  cases w.store.isLive id <;> decide

/-- An object that is yet to be `made` is not `alive`. -/
theorem alive_eq_zero_of_made_le {id : ObjectId} (h : w.made ≤ id.index) : w.alive id = 0 := by
  unfold alive
  cases hl : w.store.isLive id with
  | false => rfl
  | true =>
    have := Store.index_lt_of_isLive hl
    unfold made at h
    omega

/-! ## §2. Conservation. -/

/-- Between `w` and `w'` no object is lost and none appears from nowhere: what was `alive` or was
`born` is alive afterwards or is once more `gone` than before. -/
structure Evolves (w w' : Surroundings) : Prop where
  /-- Identities are never used again. -/
  made_le : w.made ≤ w'.made
  /-- The balance of each object. -/
  conserved : ∀ id, w.alive id + born w w' id + w.gone id = w'.alive id + w'.gone id

theorem born_of_made_eq (h : w'.made = w.made) (id : ObjectId) : born w w' id = 0 := by
  unfold born
  rw [h, if_neg (by omega)]

theorem evolves_trans (h : Evolves w w') (k : Evolves w' w'') : Evolves w w'' := by
  have h₁ := h.made_le
  have h₂ := k.made_le
  refine ⟨by omega, fun id => ?_⟩
  -- born in either stretch, never in both: the stretches meet at `w'.made`
  have hborn : born w w'' id = born w w' id + born w' w'' id := by
    unfold born
    split <;> split <;> split <;> omega
  have h₃ := h.conserved id
  have h₄ := k.conserved id
  omega

/-- Between `w` and `w'` nothing was made and nothing destroyed. -/
structure Still (w w' : Surroundings) : Prop where
  /-- No object was made. -/
  made : w'.made = w.made
  /-- The same objects are alive. -/
  isLive : ∀ id, w'.store.isLive id = w.store.isLive id
  /-- The same objects were destroyed. -/
  destroyed : w'.destroyed = w.destroyed

theorem Still.alive (h : Still w w') (id : ObjectId) : w'.alive id = w.alive id := by
  rw [Surroundings.alive, h.isLive, Surroundings.alive]

theorem Still.evolves (h : Still w w') : Evolves w w' := by
  refine ⟨Nat.le_of_eq h.made.symm, fun id => ?_⟩
  rw [h.alive, born_of_made_eq h.made, gone, gone, h.destroyed]
  omega

theorem evolves_refl (w : Surroundings) : Evolves w w :=
  Still.evolves ⟨rfl, fun _ => rfl, rfl⟩

instance : IsPreorder Surroundings Still where
  refl _ := ⟨rfl, fun _ => rfl, rfl⟩
  trans _ _ _ h k := ⟨k.made.trans h.made, fun id => (k.isLive id).trans (h.isLive id),
    k.destroyed.trans h.destroyed⟩

/-- An operation that only writes, as `Written` says, makes and destroys nothing. -/
theorem Written.still {objects : List ObjectId} {cells : List CellId}
    (h : Written objects cells w w') : Still w w' :=
  ⟨h.size, h.isLive, h.destroyed⟩

/-- Changing what is kept of the object `id` by `f`, but not whether it lives, makes and destroys
nothing. -/
theorem still_modifyObject (w : Surroundings) (id : ObjectId) (f : Resident → Resident) :
    Still w (w.withStore (w.store.modifyObject id fun r => some (f r))) := by
  refine ⟨Store.size_modifyObject _ _ _, fun other => ?_, rfl⟩
  simp only [store_withStore, Store.isLive, Store.object?_modifyObject]
  split
  · cases w.store.object? other <;> rfl
  · rfl

theorem still_setNative (w : Surroundings) (id : ObjectId) (n : Native) :
    Still w (w.withStore (w.store.setNative id n)) :=
  still_modifyObject w id fun r => { r with native := n }

theorem still_poisonObject (w : Surroundings) (id : ObjectId) :
    Still w (w.withStore (w.store.poisonObject id)) :=
  still_modifyObject w id fun r => { r with poisoned := true }

theorem still_setCell (w : Surroundings) (id : CellId) (c : Cell) :
    Still w (w.withStore (w.store.setCell id c)) := ⟨rfl, fun _ => rfl, rfl⟩

theorem still_addCell (w : Surroundings) (c : Cell) :
    Still w (w.withStore (w.store.addCell c)) := ⟨rfl, fun _ => rfl, rfl⟩

/-! ## §3. Birth and destruction. -/

theorem alive_destroy (w : Surroundings) (id other : ObjectId) :
    (w.destroy id).alive other = if other = id then 0 else w.alive other := by
  unfold destroy
  cases h : w.store.object? id with
  | none =>
    dsimp only
    split
    case isTrue heq => simp [alive, Store.isLive, heq, h]
    case isFalse => rfl
  | some r =>
    simp only [alive, Store.isLive, Store.removeObject, Store.object?_modifyObject]
    split
    case isTrue => cases w.store.object? other <;> rfl
    case isFalse => rfl

theorem gone_destroy (w : Surroundings) (id other : ObjectId) :
    (w.destroy id).gone other = w.gone other + if other = id then w.alive id else 0 := by
  unfold destroy
  cases h : w.store.object? id with
  | none => simp [alive, Store.isLive, h]
  | some r =>
    have halive : w.alive id = 1 := by simp [alive, Store.isLive, h]
    rw [halive, ← ObjectId.count_singleton]
    simp only [gone, Array.toList_push, List.map_append, List.map_cons, List.map_nil,
      List.count_append]

theorem made_destroy (w : Surroundings) (id : ObjectId) : (w.destroy id).made = w.made := by
  unfold destroy
  cases w.store.object? id with
  | none => rfl
  | some r => exact Store.size_modifyObject _ _ _

theorem evolves_destroy (w : Surroundings) (id : ObjectId) : Evolves w (w.destroy id) := by
  refine ⟨Nat.le_of_eq (made_destroy w id).symm, fun other => ?_⟩
  rw [born_of_made_eq (made_destroy w id), alive_destroy, gone_destroy]
  -- the balance of the destroyed object moves from alive to gone
  by_cases heq : other = id
  · rw [if_pos heq, if_pos heq, heq]
    omega
  · rw [if_neg heq, if_neg heq]
    omega

/-- The surroundings after the object `n` is made. -/
def create (w : Surroundings) (n : Native) : Surroundings := w.withStore (w.store.addObject n)

theorem made_create (w : Surroundings) (n : Native) : (w.create n).made = w.made + 1 :=
  Store.size_addObject _ _

theorem alive_create (w : Surroundings) (n : Native) (id : ObjectId) :
    (w.create n).alive id = w.alive id + if id = w.store.nextObject then 1 else 0 := by
  by_cases heq : id = w.store.nextObject
  -- the identity that is handed out next was never alive
  · have hnew : w.alive id = 0 := alive_eq_zero_of_made_le (by rw [heq]; exact Nat.le_refl _)
    rw [if_pos heq, hnew, heq]
    simp [create, alive, Store.isLive]
  · rw [if_neg heq]
    simp [create, alive, Store.isLive, Store.object?_addObject_of_ne _ _ heq]

theorem evolves_create (w : Surroundings) (n : Native) : Evolves w (w.create n) := by
  refine ⟨by rw [made_create]; omega, fun id => ?_⟩
  have hborn : born w (w.create n) id = if id = w.store.nextObject then 1 else 0 := by
    obtain ⟨index⟩ := id
    simp only [born, made_create, Store.nextObject, ObjectId.mk.injEq]
    unfold made
    split <;> split <;> omega
  rw [alive_create, hborn]
  show _ = _ + w.gone id
  omega

end Surroundings

/-! ## §4. Handing on. -/

namespace Effect

open Surroundings

variable {α β : Type} {ins mid : List ObjectId}

/-- The effect `e` loses no object on the way, whatever is held elsewhere: if that and what is
handed in, `ins`, are the live objects, each once, then so are that and what is handed on
afterwards, `outs`. -/
def Moves (ins : List ObjectId) (e : Effect α) (outs : α → List ObjectId) : Prop :=
  ∀ w : Surroundings, Evolves w (e.run w).2 ∧ ∀ elsewhere : ObjectId → Nat,
    (∀ id, elsewhere id + ins.count id = w.alive id) →
      ∀ id, elsewhere id + (outs (e.run w).1).count id = (e.run w).2.alive id

variable {e : Effect α} {outs : α → List ObjectId}

theorem Moves.evolves (he : Moves ins e outs) : Keeps Evolves e := fun w => (he w).1

theorem Moves.pure (a : α) (h : outs a = ins) : Moves ins (pure a : Effect α) outs := by
  intro w
  refine ⟨evolves_refl w, fun elsewhere hall id => ?_⟩
  show elsewhere id + (outs a).count id = w.alive id
  rw [h, hall]

theorem Moves.bind {f : α → Effect β} {outs' : β → List ObjectId} (he : Moves ins e outs)
    (hf : ∀ a, Moves (outs a) (f a) outs') : Moves ins (e >>= f) outs' := by
  intro w
  obtain ⟨hstart, hmid⟩ := he w
  obtain ⟨hrest, hend⟩ := hf (e.run w).1 (e.run w).2
  exact ⟨evolves_trans hstart hrest, fun elsewhere hall => hend elsewhere (hmid elsewhere hall)⟩

theorem Moves.map {f : α → β} {outs' : β → List ObjectId} (he : Moves ins e outs)
    (h : ∀ a, outs' (f a) = outs a) : Moves ins (f <$> e) outs' := by
  intro w
  obtain ⟨hstart, hend⟩ := he w
  refine ⟨hstart, fun elsewhere hall id => ?_⟩
  show elsewhere id + (outs' (f (e.run w).1)).count id = (e.run w).2.alive id
  rw [h, hend elsewhere hall]

/-- What an effect does not touch, `kept`, it hands on. -/
theorem Moves.frame (he : Moves ins e outs) (kept : List ObjectId) :
    Moves (ins ++ kept) e fun a => outs a ++ kept := by
  intro w
  obtain ⟨hstart, hend⟩ := he w
  refine ⟨hstart, fun elsewhere hall id => ?_⟩
  -- what is kept counts as held elsewhere while the effect runs
  have hframe (id : ObjectId) : elsewhere id + kept.count id + ins.count id = w.alive id := by
    have := hall id
    rw [List.count_append] at this
    omega
  have := hend (fun id => elsewhere id + kept.count id) hframe id
  rw [List.count_append]
  omega

/-- The order in which objects are handed in and on does not matter. -/
theorem Moves.congr {ins' : List ObjectId} {outs' : α → List ObjectId} (he : Moves ins e outs)
    (hins : ∀ id, ins'.count id = ins.count id)
    (houts : ∀ a id, (outs' a).count id = (outs a).count id) : Moves ins' e outs' := by
  intro w
  obtain ⟨hstart, hend⟩ := he w
  refine ⟨hstart, fun elsewhere hall id => ?_⟩
  rw [houts]
  exact hend elsewhere (fun id => hins id ▸ hall id) id

/-- An effect that `Keeps Still` hands on what it is handed. -/
theorem Moves.of_still (he : Keeps Still e) (ins : List ObjectId) :
    Moves ins e fun _ => ins := by
  intro w
  refine ⟨(he w).evolves, fun elsewhere hall id => ?_⟩
  rw [(he w).alive, hall]

/-- An effect that begins by writing hands on what the rest of it, `e'`, does. -/
theorem Moves.after (h : ∀ w, ∃ (e' : Effect α) (w' : Surroundings),
    e.run w = e'.run w' ∧ Still w w' ∧ Moves ins e' outs) : Moves ins e outs := by
  intro w
  obtain ⟨e', w', hrun, hstill, hmoves⟩ := h w
  obtain ⟨hstart, hend⟩ := hmoves w'
  rw [hrun]
  refine ⟨evolves_trans hstill.evolves hstart, fun elsewhere hall => hend elsewhere fun id => ?_⟩
  rw [hall, hstill.alive]

theorem still_emit (e : Event) : Keeps Still (emit e) :=
  fun _ => ⟨rfl, fun _ => rfl, rfl⟩

theorem still_report (e : SymbolError) : Keeps Still (report e) :=
  fun _ => ⟨rfl, fun _ => rfl, rfl⟩

theorem still_store : Keeps Still store :=
  fun _ => ⟨rfl, fun _ => rfl, rfl⟩

/-- The new object that `create` makes is handed on. -/
theorem create_moves (n : Native) : Moves [] (create n) fun id => [id] := by
  intro w
  refine ⟨evolves_create w n, fun elsewhere hall id => ?_⟩
  show elsewhere id + [w.store.nextObject].count id = (w.create n).alive id
  rw [ObjectId.count_singleton, alive_create, ← hall id]
  rfl

/-- What is handed on by an operation that may fail: `f a` if it succeeds with `a`, and nothing if
not. -/
def onSuccess {ε : Type} (f : α → List ObjectId) : Except ε α → List ObjectId
  | .ok a => f a
  | .error _ => []

/-- An object that is handed in can be destroyed by `destroy`. -/
theorem destroy_moves (id : ObjectId) : Moves [id] (destroy id) fun _ => [] := by
  intro w
  refine ⟨evolves_destroy w id, fun elsewhere hall other => ?_⟩
  have hother := hall other
  have hle := alive_le_one w other
  show elsewhere other + 0 = (w.destroy id).alive other
  rw [ObjectId.count_singleton] at hother
  rw [alive_destroy]
  split at hother
  case isTrue heq => rw [if_pos heq]; omega
  case isFalse hne => rw [if_neg hne]; omega

end Effect

/-! ## §5. Dropping symbols. -/

namespace Symbol

open Effect

theorem releaseAll_moves {cs : List Symbol}
    (h : ∀ c ∈ cs, Moves c.owned c.release fun _ => []) :
    Moves (ownedAll cs) (releaseAll cs) fun _ => [] := by
  induction cs with
  | nil => exact Moves.pure () rfl
  | cons c cs ih =>
    refine Moves.bind ((h c List.mem_cons_self).frame (ownedAll cs)) fun _ => ?_
    exact ih fun d hd => h d (List.mem_cons_of_mem _ hd)

/-- **Dropping `x` by `release` destroys what it owns and nothing else.** -/
theorem release_moves (x : Symbol) : Moves x.owned x.release fun _ => [] := by
  induction x with
  | scalar s => exact Moves.pure () rfl
  | function f => exact Moves.pure () rfl
  | branch role info policy cs ih =>
    have hchildren := releaseAll_moves ih
    rw [release, owned]
    cases role.owned? with
    | none => simpa using hchildren
    | some id =>
      refine Moves.bind (Moves.of_still (still_emit _) _) fun _ => ?_
      -- the object itself outlives the children, and is destroyed last
      refine Moves.bind (hchildren.frame [id]) fun _ => ?_
      exact destroy_moves id

theorem releaseAll_moves_owned (cs : List Symbol) :
    Moves (ownedAll cs) (releaseAll cs) fun _ => [] :=
  releaseAll_moves fun c _ => release_moves c

end Symbol

end ConfigTree
