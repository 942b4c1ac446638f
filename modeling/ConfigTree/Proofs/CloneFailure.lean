import ConfigTree.Proofs.CloneFaithfulness
import ConfigTree.Proofs.RequestLookups
import ConfigTree.Proofs.ScopeOffers
import ConfigTree.Proofs.Shape

/-!
# What stops a clone

A clone duplicates the objects that a symbol owns one after the other, each before what its binding
holds.  The first that cannot be duplicated stops it: the clone ends with the error of that binding,
and the duplicates that were made by then are destroyed again.  Nothing else stops a clone.

Main results:
  * `Symbol.tryClone_retains` — however a clone ends, what there was before is as it was;
  * `Symbol.tryClone_goesAsFar` — how far a clone gets, and with which error it ends;
  * `Session.clone_stops_at_first` — both for every symbol of every session that a run leads to.
-/

namespace ConfigTree

/-! ## §1. What stands in the way. -/

/-- For each of a row of objects the reason why it cannot be duplicated, if there is one. -/
abbrev Verdicts := List (Option SymbolError)

namespace Verdicts

/-- The first reason among the `Verdicts`. -/
def first? (v : Verdicts) : Option SymbolError := v.findSome? id

/-- How many objects come before the `first?` reason; all of them if there is none. -/
def passed (v : Verdicts) : Nat := v.findIdx Option.isSome

theorem first?_append_of_none {v : Verdicts} (h : v.first? = none) (v' : Verdicts) :
    first? (v ++ v') = v'.first? := by
  rw [first?, List.findSome?_append, show v.findSome? id = none from h, Option.none_or]
  rfl

theorem first?_append_of_some {v : Verdicts} {e : SymbolError} (h : v.first? = some e)
    (v' : Verdicts) : first? (v ++ v') = some e := by
  rw [first?, List.findSome?_append, show v.findSome? id = some e from h, Option.some_or]

theorem passed_of_none {v : Verdicts} (h : v.first? = none) : v.passed = v.length := by
  refine List.findIdx_eq_length.2 fun e he => ?_
  rw [show e = none from List.findSome?_eq_none_iff.1 h e he]
  rfl

theorem passed_append_of_none {v : Verdicts} (h : v.first? = none) (v' : Verdicts) :
    passed (v ++ v') = v.length + v'.passed := by
  have hpassed : v.findIdx Option.isSome = v.length := passed_of_none h
  rw [passed, List.findIdx_append, hpassed, if_neg (Nat.lt_irrefl _), Nat.add_comm]
  rfl

theorem passed_append_of_some {v : Verdicts} {e : SymbolError} (h : v.first? = some e)
    (v' : Verdicts) : passed (v ++ v') = v.passed := by
  obtain ⟨before, found, after, rfl, hfound, -⟩ := List.findSome?_eq_some_iff.1 h
  have hlt : (before ++ found :: after).findIdx Option.isSome < (before ++ found :: after).length :=
    List.findIdx_lt_length.2 ⟨found, by simp, by rw [show found = some e from hfound]; rfl⟩
  rw [passed, List.findIdx_append, if_pos hlt]
  rfl

end Verdicts

/-- Why the object that the binding `o` owns cannot be duplicated, if it cannot: its lock is
poisoned, or what comes out is no object of its own. -/
def ObjectBinding.cloneObstacle? (o : ObjectBinding) (s : Store) : Option SymbolError :=
  (Role.object o.handle?).owned?.bind fun id => (s.object? id).bind fun r =>
    if r.poisoned then some (.access o.label .lockFailed)
    else match r.native.duplicate with
      | .fresh _ => none
      | .unsupported | .unowned => some (.cloneUnsupported o.label r.native.describe.name)

/-- The object that the binding `o` owns is poisoned, or what `Native.duplicate` yields is not
`fresh`. -/
def ObjectBinding.Resists (o : ObjectBinding) (s : Store) : Prop :=
  ∃ id r, o.handle? = some ⟨id, true⟩ ∧ s.object? id = some r ∧
    (r.poisoned = true ∨ ∀ copy, r.native.duplicate ≠ .fresh copy)

/-- **There is a `cloneObstacle?` exactly where an owned object `Resists`.** -/
theorem ObjectBinding.resists_iff {o : ObjectBinding} {s : Store} :
    o.Resists s ↔ ∃ e, o.cloneObstacle? s = some e := by
  unfold Resists cloneObstacle?
  rcases o.handle? with _ | ⟨id, _ | _⟩
  · simp [Role.owned?]
  · simp [Role.owned?]
  · cases hr : s.object? id with
    | none => simp [Role.owned?, hr]
    | some r => cases hp : r.poisoned <;> cases hd : r.native.duplicate <;>
        simp [Role.owned?, hr, hp, hd]

namespace Symbol

/-- The symbol `x` as an object symbol that owns its object, by `ObjectBinding.owns`. -/
def owner? (x : Symbol) : Option ObjectBinding := x.object?.filter ObjectBinding.owns

/-- The object symbols of the tree `x` that own their objects, in the order of `preorder`: each
before those that it holds. -/
def owners (x : Symbol) : List ObjectBinding :=
  (x.preorder .root).filterMap fun node => node.2.owner?

/-- The `cloneObstacle?` of each of the `owners`, in their order. -/
def verdicts (x : Symbol) (s : Store) : Verdicts := x.owners.map (·.cloneObstacle? s)

/-- What is looked for by `f` in a tree does not depend on the path `here` that the tree stands
on. -/
theorem filterMap_preorder {α : Type} (f : Symbol → Option α) (x : Symbol) (here : Path) :
    (x.preorder here).filterMap (fun node => f node.2) =
      (x.preorder .root).filterMap fun node => f node.2 := by
  rw [preorder_eq_map, List.filterMap_map]
  rfl

theorem owners_branch (role : Role) (info : Info) (policy : CopyPolicy) (cs : List Symbol) :
    (branch role info policy cs).owners =
      (branch role info policy cs).owner?.toList ++ cs.flatMap owners := by
  have hcs : (preorderAll .root cs).filterMap (fun node => node.2.owner?) = cs.flatMap owners := by
    rw [preorderAll_eq_flatMap, List.filterMap_flatMap]
    exact List.flatMap_congr fun c _ => filterMap_preorder owner? c _
  rw [owners, preorder, List.filterMap_cons, hcs]
  cases (branch role info policy cs).owner? <;> rfl

theorem verdicts_branch (role : Role) (info : Info) (policy : CopyPolicy) (cs : List Symbol)
    (s : Store) : (branch role info policy cs).verdicts s =
      (branch role info policy cs).owner?.toList.map (·.cloneObstacle? s) ++
        cs.flatMap (·.verdicts s) := by
  rw [verdicts, owners_branch, List.map_append, List.map_flatMap]
  rfl

/-- Each of the `owners` owns one of the objects in `x.owned`. -/
theorem owned_of_mem_owners {x : Symbol} {o : ObjectBinding} (h : o ∈ x.owners) :
    ∃ id, o.handle? = some ⟨id, true⟩ ∧ id ∈ x.owned := by
  obtain ⟨⟨p, z⟩, hnode, hz⟩ := List.mem_filterMap.1 h
  obtain ⟨ks, -, hat⟩ := mem_preorder.1 hnode
  obtain ⟨hobject, howns⟩ := Option.filter_eq_some_iff.1 hz
  obtain rfl := eq_of_object? hobject
  obtain ⟨scope, _ | ⟨id, owned⟩⟩ := o
  · cases howns
  · cases owned with
    | false => cases howns
    | true => exact ⟨id, rfl, mem_owned_iff.2 ⟨ks, _, hat, rfl⟩⟩

/-- The `verdicts` depend only on the objects in `x.owned`. -/
theorem verdicts_congr {x : Symbol} {s s' : Store}
    (h : ∀ id ∈ x.owned, s'.object? id = s.object? id) : x.verdicts s' = x.verdicts s := by
  refine List.map_congr_left fun o ho => ?_
  obtain ⟨id, hid, howned⟩ := owned_of_mem_owners ho
  simp only [ObjectBinding.cloneObstacle?, hid, Role.owned?, Option.bind_some, if_true, h id howned]

end Symbol

/-! ## §2. What there was is as it was. -/

namespace Surroundings

/-- The objects and cells that there were at `w` have not changed at `w'`. -/
structure Retains (w w' : Surroundings) : Prop where
  /-- Identities below `made` are never used again. -/
  made_le : w.made ≤ w'.made
  /-- The objects that there were have not changed, so `object?` finds the same. -/
  object : ∀ id : ObjectId, id.index < w.made → w'.store.object? id = w.store.object? id
  /-- The cells have not changed, so `cell?` finds the same. -/
  cell : ∀ id, w'.store.cell? id = w.store.cell? id

variable {w w' : Surroundings}

instance : IsPreorder Surroundings Retains where
  refl _ := ⟨Nat.le_refl _, fun _ _ => rfl, fun _ => rfl⟩
  trans _ _ _ h k := ⟨Nat.le_trans h.made_le k.made_le,
    fun id hid => (k.object id (Nat.lt_of_lt_of_le hid h.made_le)).trans (h.object id hid),
    fun id => (k.cell id).trans (h.cell id)⟩

theorem Retains.of_store (h : w'.store = w.store) : Retains w w' := by
  refine ⟨?_, fun id _ => ?_, fun id => ?_⟩
  · exact Nat.le_of_eq (congrArg (fun s : Store => s.objects.size) h.symm)
  · rw [h]
  · rw [h]

theorem object?_of_alive_eq_zero {id : ObjectId} (h : w.alive id = 0) :
    w.store.object? id = none := by
  simpa [alive, Store.isLive] using h

theorem Grown.retains (h : Grown w w') : Retains w w' := by
  refine ⟨h.made_le, h.object, fun id => ?_⟩
  unfold Store.cell?
  rw [h.cells]

/-- Destroying newer objects `ids` changes nothing about older ones. -/
theorem Retains.without {w₀ : Surroundings} {ids : List ObjectId} (h : w₀.Retains w)
    (hw : w.Without ids w') (hmade : w'.made = w.made) (hnew : ∀ id ∈ ids, w₀.made ≤ id.index) :
    w₀.Retains w' := by
  refine ⟨by rw [hmade]; exact h.made_le, fun id hid => ?_, fun id => (hw.cell id).trans (h.cell id)⟩
  have hold : id ∉ ids := fun hmem => Nat.not_lt.2 (hnew id hmem) hid
  rw [hw.object, if_neg hold]
  exact h.object id hid

end Surroundings

open Surroundings (Grown Retains)

namespace Symbol

variable {w : Surroundings}

theorem releaseAll_made {cs : List Symbol}
    (h : ∀ c ∈ cs, ∀ w : Surroundings, (c.release.run w).2.made = w.made) (w : Surroundings) :
    ((releaseAll cs).run w).2.made = w.made := by
  induction cs generalizing w with
  | nil => rfl
  | cons c cs ih =>
    rw [releaseAll, Effect.run_bind, ih fun d hd => h d (List.mem_cons_of_mem _ hd)]
    exact h c List.mem_cons_self w

/-- Dropping a symbol by `release` makes no object. -/
theorem release_made (x : Symbol) (w : Surroundings) : (x.release.run w).2.made = w.made := by
  induction x generalizing w with
  | scalar s => rfl
  | function f => rfl
  | branch role info policy cs ih =>
    rw [release]
    cases role.owned? with
    | none => exact releaseAll_made ih w
    | some id =>
      rw [Effect.run_bind, Effect.run_bind]
      exact (Surroundings.made_destroy _ id).trans (releaseAll_made ih _)

/-- Dropping symbols `cs` that own newer objects changes nothing about older ones. -/
theorem retains_releaseAll {w₀ : Surroundings} {cs : List Symbol} (h : w₀.Retains w)
    (hnew : ∀ id ∈ ownedAll cs, w₀.made ≤ id.index) : w₀.Retains ((releaseAll cs).run w).2 :=
  h.without (releaseAll_without (fun c _ => release_without c) w)
    (releaseAll_made (fun c _ => release_made c) w) hnew

end Symbol

/-! ## §3. Duplicating one object. -/

namespace ObjectBinding

variable {o : ObjectBinding} {w : Surroundings}

/-- Where `duplicateHandle` ends in an error nothing is made. -/
theorem store_of_duplicateHandle_error {e : SymbolError}
    (h : (o.duplicateHandle.run w).1 = .error e) :
    (o.duplicateHandle.run w).2.store = w.store := by
  unfold duplicateHandle at h ⊢
  cases hh : o.handle? with
  | none => rfl
  | some handle =>
    rw [hh] at h
    dsimp only at h ⊢
    unfold Handle.duplicate at h ⊢
    obtain ⟨id, owned⟩ := handle
    cases owned with
    | false => rfl
    | true =>
      simp only [if_true, Effect.run_bind, Effect.run_store] at h ⊢
      cases hr : w.store.read id with
      | error cause => rfl
      | ok n =>
        rw [hr] at h
        dsimp only at h ⊢
        cases hn : n.duplicate with
        | unsupported => rfl
        | unowned => rfl
        | fresh copy =>
          rw [hn] at h
          cases h

/-- What comes of duplicating the live object that the binding `o` owns, by `duplicateHandle`. -/
theorem fst_run_duplicateHandle {id : ObjectId} {r : Resident} (hh : o.handle? = some ⟨id, true⟩)
    (hr : w.store.object? id = some r) :
    (o.duplicateHandle.run w).1 =
      if r.poisoned then .error (.access o.label .lockFailed)
      else match r.native.duplicate with
        | .fresh _ => .ok (some ⟨w.store.nextObject, true⟩)
        | .unsupported | .unowned =>
          .error (.cloneUnsupported o.label r.native.describe.name) := by
  obtain ⟨n, poisoned⟩ := r
  unfold duplicateHandle
  rw [hh]
  dsimp only
  unfold Handle.duplicate
  simp only [if_true, Effect.run_bind, Effect.run_store]
  cases poisoned with
  | true =>
    rw [Store.read, hr]
    rfl
  | false =>
    have hread : w.store.read id = .ok n := Store.read_eq_ok.2 hr
    have hdescribe : w.store.describe id = n.describe := by rw [Store.describe, hread]
    rw [hread]
    dsimp only
    cases n.duplicate with
    | fresh copy => rfl
    | unsupported =>
      rw [if_neg Bool.false_ne_true, ← hdescribe]
      rfl
    | unowned =>
      rw [if_neg Bool.false_ne_true, ← hdescribe]
      rfl

/-- **An object that a binding owns is duplicated unless there is a `cloneObstacle?`.** -/
theorem duplicateHandle_eq_error_iff
    (hlive : ∀ id, (Role.object o.handle?).owned? = some id → w.store.isLive id = true)
    {e : SymbolError} :
    (o.duplicateHandle.run w).1 = .error e ↔ o.cloneObstacle? w.store = some e := by
  rcases hh : o.handle? with _ | ⟨id, owned⟩
  · unfold duplicateHandle cloneObstacle?
    rw [hh]
    exact ⟨nofun, nofun⟩
  · cases owned with
    | false =>
      unfold duplicateHandle cloneObstacle?
      rw [hh]
      exact ⟨nofun, nofun⟩
    | true =>
      rw [hh] at hlive
      obtain ⟨r, hr⟩ := Option.isSome_iff_exists.1 (hlive id rfl)
      rw [fst_run_duplicateHandle hh hr, cloneObstacle?, hh]
      simp only [Role.owned?, Option.bind_some, if_true, hr]
      cases r.poisoned with
      | true => simp
      | false => cases r.native.duplicate <;> simp

/-- The steps of `cloneWith`: the object of `o`, what it holds by the effect `e`, and if that fails
the way back. -/
theorem run_cloneWith_eq (o : ObjectBinding) (e : Effect (Attempt (List Symbol)))
    (w : Surroundings) :
    (o.cloneWith e).run w =
      match o.duplicateHandle.run w with
      | (.error error, w₁) => (.error error, w₁)
      | (.ok copy?, w₁) =>
        match e.run w₁ with
        | (⟨cs, none⟩, w₂) =>
          (.ok (.branch (.object copy?) o.scope.info o.scope.policy (followLinks o.handle? copy? cs)),
            w₂.emit (.cloned o.label (Role.object copy?).owned?.isSome))
        | (⟨cs, some error⟩, w₂) =>
          let w₃ := ((Symbol.releaseAll cs).run w₂).2
          (.error error, (Role.object copy?).owned?.elim w₃ w₃.destroy) := by
  unfold cloneWith
  rw [Effect.run_bind]
  generalize o.duplicateHandle.run w = duplicated
  obtain ⟨error | copy?, w₁⟩ := duplicated
  · rfl
  · dsimp only
    rw [Effect.run_bind]
    generalize e.run w₁ = built
    obtain ⟨⟨cs, _ | error⟩, w₂⟩ := built
    · rfl
    · dsimp only
      rw [Effect.run_bind]
      cases (Role.object copy?).owned? <;> rfl

/-- The `cloneObstacle?` of the object that the binding `o` owns; no verdict if it owns none. -/
def verdict (o : ObjectBinding) (s : Store) : Verdicts :=
  (Role.object o.handle?).owned?.toList.map fun _ => o.cloneObstacle? s

theorem first?_verdict (o : ObjectBinding) (s : Store) :
    (o.verdict s).first? = o.cloneObstacle? s := by
  unfold verdict
  cases hown : (Role.object o.handle?).owned? with
  | none =>
    rw [cloneObstacle?, hown]
    rfl
  | some id =>
    show Verdicts.first? [o.cloneObstacle? s] = o.cloneObstacle? s
    cases o.cloneObstacle? s <;> rfl

theorem passed_verdict_of_obstacle {s : Store} {e : SymbolError} (h : o.cloneObstacle? s = some e) :
    (o.verdict s).passed = 0 := by
  unfold verdict
  rw [h]
  cases (Role.object o.handle?).owned? <;> rfl

/-- What `duplicateHandle` has `made` is what the binding owns, one object at the most. -/
theorem made_duplicateHandle {copy? : Option Handle}
    (h : (o.duplicateHandle.run w).1 = .ok copy?) (s : Store) :
    (o.duplicateHandle.run w).2.made = w.made + (o.verdict s).length := by
  rw [verdict, List.length_map]
  rcases run_duplicateHandle h with ⟨old, n, m, hh, -, -, -, hrun⟩ | ⟨hnone, -, hstore, -⟩
  · rw [hrun, hh]
    exact Surroundings.made_create w m
  · rw [hnone]
    exact congrArg (fun s : Store => s.objects.size) hstore

/-- `duplicateHandle` `Retains` what there was, and what it yields owns only what is new. -/
theorem duplicateHandle_retains (o : ObjectBinding) (w : Surroundings) :
    w.Retains (o.duplicateHandle.run w).2 ∧ ∀ copy?, (o.duplicateHandle.run w).1 = .ok copy? →
      ∀ id, (Role.object copy?).owned? = some id → w.made ≤ id.index := by
  cases hout : (o.duplicateHandle.run w).1 with
  | error e => exact ⟨.of_store (store_of_duplicateHandle_error hout), nofun⟩
  | ok copy? =>
    refine ⟨(duplicateHandle_grows hout).1.retains, fun copy?' heq id hid => ?_⟩
    obtain rfl := Except.ok.inj heq
    rcases run_duplicateHandle hout with ⟨_, _, _, -, -, -, rfl, -⟩ | ⟨hnone, rfl, -, -⟩
    · obtain rfl := Option.some.inj hid
      exact Nat.le_refl _
    · rw [hnone] at hid
      cases hid

/-- A clone of an object symbol by `cloneWith` `Retains` what there was, if its children are cloned
so by the effect `e`. -/
theorem cloneWith_retains (o : ObjectBinding) {e : Effect (Attempt (List Symbol))}
    (he : ∀ w : Surroundings, w.Retains (e.run w).2 ∧
      ∀ id ∈ Symbol.ownedAll (e.run w).1.value, w.made ≤ id.index) (w : Surroundings) :
    w.Retains ((o.cloneWith e).run w).2 := by
  rw [run_cloneWith_eq]
  have hstart := o.duplicateHandle_retains w
  revert hstart
  generalize o.duplicateHandle.run w = duplicated
  obtain ⟨error | copy?, w₁⟩ := duplicated <;> rintro ⟨hdup, hcopy⟩
  · exact hdup
  · have hbuilt := he w₁
    revert hbuilt
    dsimp only at hdup ⊢
    generalize e.run w₁ = built
    obtain ⟨⟨cs, _ | error⟩, w₂⟩ := built <;> rintro ⟨hchildren, hnew⟩
    · exact IsTrans.trans _ _ _ (IsTrans.trans _ _ _ hdup hchildren) (.of_store rfl)
    · -- the children that were built are dropped, and then the duplicate
      have hdropped : w.Retains ((Symbol.releaseAll cs).run w₂).2 :=
        Symbol.retains_releaseAll (IsTrans.trans _ _ _ hdup hchildren)
          fun id hid => Nat.le_trans hdup.made_le (hnew id hid)
      dsimp only
      cases hown : (Role.object copy?).owned? with
      | none => exact hdropped
      | some id =>
        refine hdropped.without (Surroundings.destroy_without _ id)
          (Surroundings.made_destroy _ id) fun other hother => ?_
        rw [List.mem_singleton.1 hother]
        exact hcopy copy? rfl id hown

/-- How far a clone of an object symbol gets by `cloneWith`: past its own object, and then as far as
its children do by the effect `e`. -/
theorem cloneWith_goesAsFar (hlive : ∀ id, (Role.object o.handle?).owned? = some id →
      w.store.isLive id = true) {e : Effect (Attempt (List Symbol))} {rest : Verdicts}
    (he : ∀ w₁, w.Retains w₁ →
      (e.run w₁).1.error? = rest.first? ∧ (e.run w₁).2.made = w₁.made + rest.passed) :
    let verdicts : Verdicts := o.verdict w.store ++ rest
    (∀ error, ((o.cloneWith e).run w).1 = .error error ↔ verdicts.first? = some error) ∧
      ((o.cloneWith e).run w).2.made = w.made + verdicts.passed := by
  intro verdicts
  have herror := @duplicateHandle_eq_error_iff o w hlive
  have hretains := (o.duplicateHandle_retains w).1
  have hmade := @made_duplicateHandle o w
  have hstore := @store_of_duplicateHandle_error o w
  rw [run_cloneWith_eq]
  revert herror hretains hmade hstore
  generalize o.duplicateHandle.run w = duplicated
  obtain ⟨error | copy?, w₁⟩ := duplicated <;> intro herror hretains hmade hstore
  · -- nothing was made yet
    have hobstacle := herror.1 rfl
    have hfirst : (o.verdict w.store).first? = some error := (first?_verdict o _).trans hobstacle
    refine ⟨fun e' => ?_, ?_⟩
    · rw [Verdicts.first?_append_of_some hfirst, Except.error.injEq, Option.some.injEq]
    · rw [Verdicts.passed_append_of_some hfirst, passed_verdict_of_obstacle hobstacle]
      exact congrArg (fun s : Store => s.objects.size) (hstore rfl)
  · have hnone : (o.verdict w.store).first? = none := by
      rw [first?_verdict]
      exact Option.eq_none_iff_forall_ne_some.2 fun e he => nomatch herror.2 he
    obtain ⟨hrest, hmade₁⟩ := he w₁ hretains
    have hsum : (e.run w₁).2.made = w.made + verdicts.passed := by
      rw [hmade₁, hmade rfl w.store, Verdicts.passed_append_of_none hnone, Nat.add_assoc]
    rw [Verdicts.first?_append_of_none hnone, ← hrest]
    revert hsum
    dsimp only
    generalize e.run w₁ = built
    obtain ⟨⟨cs, _ | error⟩, w₂⟩ := built <;> intro hsum
    · exact ⟨fun e' => ⟨nofun, nofun⟩, hsum⟩
    · -- dropping what was built makes nothing
      have hdropped : ((Symbol.releaseAll cs).run w₂).2.made = w.made + verdicts.passed :=
        (Symbol.releaseAll_made (fun c _ => Symbol.release_made c) w₂).trans hsum
      refine ⟨fun e' => by rw [Except.error.injEq, Option.some.injEq], ?_⟩
      dsimp only
      cases (Role.object copy?).owned? with
      | none => exact hdropped
      | some id => exact (Surroundings.made_destroy _ id).trans hdropped

end ObjectBinding

namespace Symbol

variable {w : Surroundings}

/-- What a clone `y` owns is new: it has an index from `w.made` on. -/
theorem made_le_of_mem_owned_clone {x y : Symbol} (h : (x.tryClone.run w).1 = .ok y) :
    ∀ id ∈ y.owned, w.made ≤ id.index :=
  ((List.forall₂_and_left _ _).1 ((x.tryClone_grows w y h).2.imp fun _ _ hd => hd).flip).1

/-- However `tryClone` ends, it `Retains` what there was. -/
def ClonesRetaining (x : Symbol) : Prop := ∀ w : Surroundings, w.Retains (x.tryClone.run w).2

theorem cloneChildren_retains {cs : List Symbol} (h : ∀ c ∈ cs, c.ClonesRetaining)
    (w : Surroundings) : w.Retains ((cloneChildren cs).run w).2 ∧
      ∀ id ∈ ownedAll ((cloneChildren cs).run w).1.value, w.made ≤ id.index := by
  induction cs generalizing w with
  | nil => exact ⟨refl w, fun _ hid => absurd hid List.not_mem_nil⟩
  | cons c cs ih =>
    rw [cloneChildren, Effect.run_bind]
    have hc := h c List.mem_cons_self w
    have hcopy := @made_le_of_mem_owned_clone w c
    revert hc hcopy
    generalize c.tryClone.run w = first
    obtain ⟨error | copy, w₁⟩ := first <;> intro hc hcopy
    · exact ⟨hc, fun _ hid => absurd hid List.not_mem_nil⟩
    · obtain ⟨hrest, hnew⟩ := ih (fun d hd => h d (List.mem_cons_of_mem _ hd)) w₁
      refine ⟨IsTrans.trans _ _ _ hc hrest, fun id hid => ?_⟩
      rcases List.mem_append.1 hid with hid | hid
      · exact hcopy rfl id hid
      · exact Nat.le_trans hc.made_le (hnew id hid)

/-- **However a clone ends, what there was is as it was**: every symbol `ClonesRetaining`. -/
theorem tryClone_retains (x : Symbol) : x.ClonesRetaining := by
  induction x with
  | scalar s => exact fun w => refl w
  | function f => exact fun w => refl w
  | branch role info policy cs ih =>
    intro w
    cases role with
    | scope =>
      rw [tryClone, Effect.run_bind]
      have hbuilt := cloneChildren_retains ih w
      revert hbuilt
      generalize (cloneChildren cs).run w = built
      obtain ⟨⟨ds, _ | error⟩, w₁⟩ := built <;> rintro ⟨hchildren, hnew⟩
      · exact hchildren
      · exact retains_releaseAll hchildren hnew
    | object handle? =>
      rw [tryClone]
      exact ObjectBinding.cloneWith_retains _ (cloneChildren_retains ih) w

/-! ## §4. How far a clone gets. -/

theorem verdicts_ofObject (o : ObjectBinding) (s : Store) :
    (ofObject o).verdicts s = o.verdict s ++ o.scope.children.flatMap (·.verdicts s) := by
  rw [ofObject, verdicts_branch]
  refine congrArg (· ++ _) ?_
  obtain ⟨scope, _ | ⟨id, _ | _⟩⟩ := o <;> rfl

/-- A clone ends with the `first?` of the `verdicts`, if there is one, and has made a duplicate of
each object that is `passed`. -/
def ClonesAsFar (x : Symbol) : Prop :=
  ∀ w : Surroundings, (∀ id ∈ x.owned, w.store.isLive id = true) →
    (∀ e, (x.tryClone.run w).1 = .error e ↔ (x.verdicts w.store).first? = some e) ∧
    (x.tryClone.run w).2.made = w.made + (x.verdicts w.store).passed

/-- Live objects stay alive and keep their `verdicts` in surroundings that `Retains` relates. -/
theorem verdicts_of_retains {w' : Surroundings} (h : w.Retains w') {x : Symbol}
    (hlive : ∀ id ∈ x.owned, w.store.isLive id = true) :
    (∀ id ∈ x.owned, w'.store.isLive id = true) ∧ x.verdicts w'.store = x.verdicts w.store := by
  have hobject : ∀ id ∈ x.owned, w'.store.object? id = w.store.object? id := fun id hid =>
    h.object id (Store.index_lt_of_isLive (hlive id hid))
  refine ⟨fun id hid => ?_, verdicts_congr hobject⟩
  rw [Store.isLive, hobject id hid]
  exact hlive id hid

theorem verdictsAll_of_retains {w' : Surroundings} (h : w.Retains w') (cs : List Symbol)
    (hlive : ∀ id ∈ ownedAll cs, w.store.isLive id = true) :
    (∀ id ∈ ownedAll cs, w'.store.isLive id = true) ∧
      cs.flatMap (·.verdicts w'.store) = cs.flatMap (·.verdicts w.store) := by
  have hchild (c : Symbol) (hc : c ∈ cs) := verdicts_of_retains h (x := c) fun id hid => by
    rw [ownedAll_eq_flatMap] at hlive
    exact hlive id (List.mem_flatMap.2 ⟨c, hc, hid⟩)
  refine ⟨fun id hid => ?_, List.flatMap_congr fun c hc => (hchild c hc).2⟩
  rw [ownedAll_eq_flatMap] at hid
  obtain ⟨c, hc, hid⟩ := List.mem_flatMap.1 hid
  exact (hchild c hc).1 id hid

theorem cloneChildren_goesAsFar {cs : List Symbol} (h : ∀ c ∈ cs, c.ClonesAsFar) {w : Surroundings}
    (hlive : ∀ id ∈ ownedAll cs, w.store.isLive id = true) :
    let verdicts : Verdicts := cs.flatMap (·.verdicts w.store)
    ((cloneChildren cs).run w).1.error? = verdicts.first? ∧
      ((cloneChildren cs).run w).2.made = w.made + verdicts.passed := by
  induction cs generalizing w with
  | nil => exact ⟨rfl, rfl⟩
  | cons c cs ih =>
    have hretains := c.tryClone_retains w
    obtain ⟨herror, hmade⟩ := h c List.mem_cons_self w fun id hid =>
      hlive id (List.mem_append_left _ hid)
    rw [List.flatMap_cons, cloneChildren, Effect.run_bind]
    revert hretains herror hmade
    generalize c.tryClone.run w = first
    obtain ⟨error | copy, w₁⟩ := first <;> intro hretains herror hmade
    · -- the first child that fails decides
      have hfirst := (herror error).1 rfl
      exact ⟨(Verdicts.first?_append_of_some hfirst _).symm,
        hmade.trans (congrArg (w.made + ·) (Verdicts.passed_append_of_some hfirst _).symm)⟩
    · have hnone : (c.verdicts w.store).first? = none :=
        Option.eq_none_iff_forall_ne_some.2 fun e he => by cases (herror e).2 he
      obtain ⟨hlive₁, hverdicts⟩ := verdictsAll_of_retains hretains cs fun id hid =>
        hlive id (List.mem_append_right _ hid)
      obtain ⟨hrest, hmade₁⟩ := ih (fun d hd => h d (List.mem_cons_of_mem _ hd)) hlive₁
      rw [hverdicts] at hrest hmade₁
      rw [Verdicts.passed_of_none hnone] at hmade
      refine ⟨?_, ?_⟩
      · rw [Verdicts.first?_append_of_none hnone, ← hrest]
        rfl
      · rw [Verdicts.passed_append_of_none hnone, ← Nat.add_assoc, ← hmade, ← hmade₁]
        rfl

/-- **How far a clone gets**: every symbol `ClonesAsFar`. -/
theorem tryClone_goesAsFar (x : Symbol) : x.ClonesAsFar := by
  induction x with
  | scalar s => exact fun w _ => ⟨fun e => iff_of_false (by rintro ⟨⟩) (by rintro ⟨⟩), rfl⟩
  | function f => exact fun w _ => ⟨fun e => iff_of_false (by rintro ⟨⟩) (by rintro ⟨⟩), rfl⟩
  | branch role info policy cs ih =>
    intro w hlive
    cases role with
    | scope =>
      have hverdicts : (branch .scope info policy cs).verdicts w.store =
          cs.flatMap (·.verdicts w.store) := verdicts_branch ..
      rw [hverdicts, tryClone, Effect.run_bind]
      have hbuilt := cloneChildren_goesAsFar ih fun id hid => hlive id (List.mem_append_left _ hid)
      revert hbuilt
      generalize (cloneChildren cs).run w = built
      obtain ⟨⟨ds, _ | error⟩, w₁⟩ := built <;> rintro ⟨herror, hmade⟩
      · refine ⟨fun e => iff_of_false (fun he => ?_) fun he => ?_, hmade⟩
        · cases he
        · cases herror.trans he
      · refine ⟨fun e => ?_, (releaseAll_made (fun c _ => release_made c) w₁).trans hmade⟩
        rw [← herror]
        exact ⟨fun he => congrArg some (Except.error.inj he), fun he => by cases he; rfl⟩
    | object handle? =>
      let o : ObjectBinding := ⟨⟨info, policy, cs⟩, handle?⟩
      have hverdicts : (branch (.object handle?) info policy cs).verdicts w.store =
          o.verdict w.store ++ cs.flatMap (·.verdicts w.store) := verdicts_ofObject o w.store
      rw [tryClone, hverdicts]
      refine o.cloneWith_goesAsFar (fun id hid => hlive id (List.mem_append_right _ ?_))
        fun w₁ hretains => ?_
      · exact Option.mem_toList.2 hid
      · obtain ⟨hlive₁, hall⟩ := verdictsAll_of_retains hretains cs fun id hid =>
          hlive id (List.mem_append_left _ hid)
        rw [← hall]
        exact cloneChildren_goesAsFar ih hlive₁

/-- The `first?` of the `verdicts`, with the owner `o` that it is on and the owners `before`. -/
theorem first?_verdicts_eq_some {x : Symbol} {s : Store} {e : SymbolError}
    (h : (x.verdicts s).first? = some e) : ∃ before o after, x.owners = before ++ o :: after ∧
      (∀ b ∈ before, b.cloneObstacle? s = none) ∧ o.cloneObstacle? s = some e ∧
      (x.verdicts s).passed = before.length := by
  rw [Verdicts.first?, verdicts, List.findSome?_map] at h
  obtain ⟨before, o, after, howners, ho, hbefore⟩ := List.findSome?_eq_some_iff.1 h
  have ho : o.cloneObstacle? s = some e := ho
  refine ⟨before, o, after, howners, hbefore, ho, ?_⟩
  have hclear : Verdicts.first? (before.map (·.cloneObstacle? s)) = none := by
    rw [Verdicts.first?, List.findSome?_map]
    exact List.findSome?_eq_none_iff.2 hbefore
  have hverdicts : x.verdicts s =
      before.map (·.cloneObstacle? s) ++ (o :: after).map (·.cloneObstacle? s) := by
    rw [verdicts, howners, List.map_append]
  rw [hverdicts, Verdicts.passed_append_of_none hclear, List.map_cons, ho, List.length_map]
  rfl

/-- What a clone that fails has made is destroyed again: an object is `gone` as often as it was
`born`. -/
theorem gone_of_tryClone_error {x : Symbol} {e : SymbolError} (h : (x.tryClone.run w).1 = .error e)
    (id : ObjectId) :
    (x.tryClone.run w).2.alive id = w.alive id ∧
      (x.tryClone.run w).2.gone id = w.gone id + w.born (x.tryClone.run w).2 id := by
  have hbalance := (x.tryClone_moves.evolves w).conserved id
  have halive := (x.tryClone_moves w).2 w.alive (fun _ => rfl) id
  rw [h] at halive
  have halive : w.alive id = (x.tryClone.run w).2.alive id := halive
  exact ⟨halive.symm, by omega⟩

end Symbol

/-! ## §5. Clones in a session. -/

namespace Session

variable {s : Session} {p : Place} {x : Symbol}

/-- The objects that a symbol of a `Settled` session owns are alive. -/
theorem Settled.isLive_owned (h : s.Settled) (hx : s.symbol? p = some x) :
    ∀ id ∈ x.owned, s.surroundings.store.isLive id = true := by
  intro id hid
  obtain ⟨tree, htree, hdescend⟩ := Option.bind_eq_some_iff.1 hx
  have hmem := (Symbol.owned_sublist_of_at (Symbol.at_of_descend? hdescend)).subset hid
  exact h.sound.isLive (.inr (.inl ((owned_sublist_of_slot htree).subset hmem)))

/-- The session after a `clone` that fails with `e`. -/
theorem step_clone_of_error {e : SymbolError} (hx : s.symbol? p = some x)
    (he : (x.tryClone.run s.quiet.surroundings).1 = .error e) (into : String) :
    (s.step (.clone p into)).1.result = .error (.symbol e) ∧
      (s.step (.clone p into)).2 =
        { s with surroundings := (x.tryClone.run s.quiet.surroundings).2 } := by
  have hfound : (Request.symbol p).outcome s.quiet = (.ok x, s.quiet) := by
    have hfinds := Request.finds_symbol (s := s.quiet) p
    rw [show s.quiet.symbol? p = some x from hx] at hfinds
    exact hfinds
  have hclone : (Request.clone p into).outcome s.quiet = (.error (.symbol e),
      { s with surroundings := (x.tryClone.run s.quiet.surroundings).2 }) := by
    unfold Request.clone
    rw [Request.outcome_bind_ok hfound, Request.outcome_bind_ok (Request.outcome_perform _ _), he]
    rfl
  have hanswer : (Request.answer (.clone p into)).outcome s.quiet = (.error (.symbol e),
      { s with surroundings := (x.tryClone.run s.quiet.surroundings).2 }) := by
    show (Request.done (Request.clone p into)).outcome s.quiet = _
    rw [Request.done, Request.outcome_bind, hclone]
  exact ⟨congrArg Prod.fst hanswer, congrArg Prod.snd hanswer⟩

/-- **A clone stops at the first object that cannot be duplicated.** For every symbol `x` of every
session that a run leads to: a clone of it fails exactly if one of its `owners` `Resists`.  It fails
with the `cloneObstacle?` of the first such owner, where an owner comes before those that it holds.
Then the slots, what the host holds, and all objects and cells that there were are as they were, and
what was made for the owners before that one has been destroyed, each object once. -/
theorem clone_stops_at_first (ops : List Operation) (p : Place) (into : String) (x : Symbol)
    (hx : (after ops).symbol? p = some x) :
    let s := after ops
    let store := s.surroundings.store
    let made := s.surroundings.made
    let out := x.tryClone.run s.quiet.surroundings
    ((∃ e, out.1 = .error e) ↔ ∃ o ∈ x.owners, o.Resists store) ∧
    ∀ e, out.1 = .error e → ∃ before o rest, x.owners = before ++ o :: rest ∧
      (∀ b ∈ before, ¬ b.Resists store) ∧ o.Resists store ∧ o.cloneObstacle? store = some e ∧
      let s' := (s.step (.clone p into)).2
      (s.step (.clone p into)).1.result = .error (.symbol e) ∧
      s'.slots = s.slots ∧ s'.hosts = s.hosts ∧ s'.cells = s.cells ∧
      (∀ id, s'.surroundings.store.cell? id = store.cell? id) ∧
      (∀ id : ObjectId, id.index < made →
        s'.surroundings.store.object? id = store.object? id ∧ s'.surroundings.gone id = 0) ∧
      s'.surroundings.made = made + before.length ∧
      ∀ id : ObjectId, made ≤ id.index → s'.surroundings.store.object? id = none ∧
        s'.surroundings.gone id = if id.index < made + before.length then 1 else 0 := by
  intro s store made out
  have hlive := (settled_after ops).isLive_owned hx
  obtain ⟨herror, hmade⟩ := x.tryClone_goesAsFar s.quiet.surroundings hlive
  have hretains := x.tryClone_retains s.quiet.surroundings
  refine ⟨⟨fun ⟨e, he⟩ => ?_, fun ⟨o, ho, hresists⟩ => ?_⟩, fun e he => ?_⟩
  · obtain ⟨before, o, rest, howners, -, hobstacle, -⟩ :=
      Symbol.first?_verdicts_eq_some ((herror e).1 he)
    exact ⟨o, by rw [howners]; simp, ObjectBinding.resists_iff.2 ⟨e, hobstacle⟩⟩
  · obtain ⟨e, he⟩ := ObjectBinding.resists_iff.1 hresists
    have hsome : ∃ first, (x.verdicts store).first? = some first := by
      by_contra hnone
      have hall := List.findSome?_eq_none_iff.1
        (Option.eq_none_iff_forall_ne_some.2 fun first h => hnone ⟨first, h⟩)
      cases (hall _ (List.mem_map_of_mem ho)).symm.trans he
    obtain ⟨first, hfirst⟩ := hsome
    exact ⟨first, (herror first).2 hfirst⟩
  · obtain ⟨before, o, rest, howners, hbefore, hobstacle, hpassed⟩ :=
      Symbol.first?_verdicts_eq_some ((herror e).1 he)
    obtain ⟨hresult, hend⟩ := step_clone_of_error hx he into
    have hmade : out.2.made = made + before.length := hmade.trans (congrArg _ hpassed)
    have hgone (id : ObjectId) := Symbol.gone_of_tryClone_error he id
    refine ⟨before, o, rest, howners, fun b hb => ?_, ObjectBinding.resists_iff.2 ⟨e, hobstacle⟩,
      hobstacle, hresult, ?_⟩
    · rw [ObjectBinding.resists_iff, show b.cloneObstacle? store = none from hbefore b hb]
      exact nofun
    · rw [hend]
      refine ⟨rfl, rfl, rfl, hretains.cell, fun id hid => ⟨hretains.object id hid, ?_⟩, hmade,
        fun id hid => ⟨?_, ?_⟩⟩
      -- what is older than the clone was not made by it, and what it made is the rest
      · rw [(hgone id).2, Surroundings.born, if_neg fun h => Nat.not_lt.2 h.1 hid]
        rfl
      · apply Surroundings.object?_of_alive_eq_zero
        rw [(hgone id).1]
        exact Surroundings.alive_eq_zero_of_made_le hid
      · have hquiet : s.quiet.surroundings.gone id = 0 := rfl
        have hle : s.quiet.surroundings.made ≤ id.index := hid
        rw [(hgone id).2, Surroundings.born, show out.2.made = _ from hmade, hquiet, Nat.zero_add]
        simp only [hle, true_and]

/-- Three objects, of which the second is a `socket` and cannot be duplicated. -/
def obstructed : List Operation :=
  [.newScope "root" "root" "" .matchingNames,
    .addObject ⟨"root", .root⟩ "a" "" (some (.own (.record .counter { id := "k" }))),
    .addObject ⟨"root", .root⟩ "b" "" (some (.own (.record .socket { id := "s" }))),
    .addObject ⟨"root", .root⟩ "c" "" (some (.own (.record .leaky { id := "l" })))]

/-- In the run `obstructed` the socket stops the clone, and the duplicate of the counter is
destroyed. -/
theorem clone_stops_at_socket :
    ∃ x before o rest, (after obstructed).symbol? ⟨"root", .root⟩ = some x ∧
      x.owners = before ++ o :: rest ∧ before.length = 1 ∧
      o.cloneObstacle? (after obstructed).surroundings.store =
        some (.cloneUnsupported "b" "Socket") ∧
      let s' := ((after obstructed).step (.clone ⟨"root", .root⟩ "copy")).2
      s'.slots = (after obstructed).slots ∧ s'.surroundings.gone ⟨3⟩ = 1 := by
  have hstopped : (((after obstructed).symbol? ⟨"root", .root⟩).map fun x =>
      match (x.tryClone.run (after obstructed).quiet.surroundings).1 with
      | .ok _ => none
      | .error e => some e) = some (some (.cloneUnsupported "b" "Socket")) := by
    decide +kernel
  obtain ⟨x, hx, he⟩ := Option.map_eq_some_iff.1 hstopped
  have he : (x.tryClone.run (after obstructed).quiet.surroundings).1 =
      .error (.cloneUnsupported "b" "Socket") := by
    revert he
    generalize (x.tryClone.run (after obstructed).quiet.surroundings).1 = out
    intro he
    cases out with
    | ok y => cases he
    | error e => rw [Option.some.inj he]
  obtain ⟨before, o, rest, howners, -, -, hobstacle, -, hslots, -, -, -, -, hmade, hdead⟩ :=
    (clone_stops_at_first obstructed ⟨"root", .root⟩ "copy" x hx).2 _ he
  have hlength : before.length = 1 := by
    have hthree : (after obstructed).surroundings.made = 3 := by decide +kernel
    have hfour : ((after obstructed).step
        (.clone ⟨"root", .root⟩ "copy")).2.surroundings.made = 4 := by decide +kernel
    omega
  refine ⟨x, before, o, rest, hx, howners, hlength, hobstacle, hslots, ?_⟩
  have hthree : (after obstructed).surroundings.made = 3 := by decide +kernel
  rw [(hdead ⟨3⟩ (Nat.le_of_eq hthree)).2, hlength, hthree]
  rfl

end Session

end ConfigTree
