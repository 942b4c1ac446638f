import ConfigTree.Proofs.ObjectAccounts
import ConfigTree.Proofs.Coherence
import ConfigTree.Symbol.Clone

/-!
# What a clone is

Cloning walks a tree, makes objects on the way and repairs links on the way back.  What comes out
can be said without any of this: `Symbol.duplicated` is the symbol with its owned objects renamed,
and with the links renamed that stand below the owner of their target.  A link from elsewhere in the
tree is not renamed, so the clone shares its target with the original.

Main results:
  * `Symbol.tryClone_moves` — a clone owns what was made for it, and one that fails leaves nothing;
  * `Symbol.tryClone_eq_duplicated` — a clone is the symbol duplicated, with new names for what it
    owns;
  * `Symbol.at_duplicated` — the counterpart of a node and the owners that count for its links.
-/

namespace ConfigTree

/-! ## §1. Duplication as renaming. -/

/-- The link below the `owners` of some objects after `g` renames these. -/
def Link.follow (g : ObjectId → ObjectId) (owners : List ObjectId) : Link → Link
  | cell id => .cell id
  | field target f => .field (if target ∈ owners then g target else target) f

/-- The storage of a scalar below the `owners` of some objects after `g` renames these. -/
def Storage.follow (g : ObjectId → ObjectId) (owners : List ObjectId) : Storage → Storage
  | value v => .value v
  | linked l => .linked (l.follow g owners)

@[simp] theorem Storage.follow_nil (g : ObjectId → ObjectId) (s : Storage) : s.follow g [] = s := by
  rcases s with _ | _ | ⟨target, f⟩
  · rfl
  · rfl
  · simp [follow, Link.follow]

/-- The role of a branch after `g` renames the object that it owns. -/
def Role.duplicated (g : ObjectId → ObjectId) : Role → Role
  | scope => .scope
  | object handle? => .object (handle?.map fun h => if h.owned then ⟨g h.id, true⟩ else h)

namespace Symbol

mutual

/-- The symbol below the `owners` of some objects after `g` renames these and its own. -/
def duplicated (g : ObjectId → ObjectId) (owners : List ObjectId) : Symbol → Symbol
  | scalar s => .scalar { s with storage := s.storage.follow g owners }
  | function f => .function f
  | branch role info policy cs =>
    .branch (role.duplicated g) info policy (duplicatedAll g (role.owned?.toList ++ owners) cs)

/-- The symbols below the `owners` of some objects after `g` renames these and their own. -/
def duplicatedAll (g : ObjectId → ObjectId) (owners : List ObjectId) : List Symbol → List Symbol
  | [] => []
  | c :: cs => c.duplicated g owners :: duplicatedAll g owners cs

end

variable {g g' : ObjectId → ObjectId} {owners owners' : List ObjectId} {x : Symbol}

theorem duplicatedAll_eq_map (g : ObjectId → ObjectId) (owners : List ObjectId)
    (cs : List Symbol) : duplicatedAll g owners cs = cs.map (duplicated g owners) := by
  induction cs with
  | nil => rfl
  | cons c cs ih => simp [duplicatedAll, ih]

theorem owned?_duplicated (g : ObjectId → ObjectId) (role : Role) :
    (role.duplicated g).owned? = role.owned?.map g := by
  rcases role with _ | _ | ⟨id, owned⟩
  · rfl
  · rfl
  · cases owned <;> rfl

@[simp] theorem frame_duplicated (g : ObjectId → ObjectId) (owners : List ObjectId) (x : Symbol) :
    (x.duplicated g owners).frame = x.frame := by
  induction x generalizing owners with
  | scalar s => rfl
  | function f => rfl
  | branch role info policy cs ih =>
    rw [duplicated, frame, frame, frameAll_eq_map, frameAll_eq_map, duplicatedAll_eq_map,
      List.map_map]
    exact congrArg _ (List.map_congr_left fun c hc => ih c hc _)

@[simp] theorem name_duplicated (g : ObjectId → ObjectId) (owners : List ObjectId) (x : Symbol) :
    (x.duplicated g owners).name = x.name :=
  congrArg Info.name (info_of_frame (frame_duplicated g owners x))

theorem ownedHere?_duplicated (g : ObjectId → ObjectId) (owners : List ObjectId) (x : Symbol) :
    (x.duplicated g owners).ownedHere? = x.ownedHere?.map g := by
  cases x with
  | branch role info policy cs => exact owned?_duplicated g role
  | _ => rfl

theorem owned_duplicated (g : ObjectId → ObjectId) (owners : List ObjectId) (x : Symbol) :
    (x.duplicated g owners).owned = x.owned.map g := by
  induction x generalizing owners with
  | scalar s => rfl
  | function f => rfl
  | branch role info policy cs ih =>
    rw [duplicated, owned, owned, duplicatedAll_eq_map, ownedAll_eq_flatMap, ownedAll_eq_flatMap,
      owned?_duplicated, List.map_append, List.map_flatMap, List.flatMap_map,
      List.flatMap_congr fun c hc => ih c hc _]
    cases role.owned? <;> rfl

/-- What `x.duplicated g owners` leads to is what `x` leads to, or has another name by `g`. -/
theorem mem_objects_duplicated {id : ObjectId} (h : id ∈ (x.duplicated g owners).objects) :
    id ∈ x.objects ∨ ∃ old ∈ x.owned ++ owners, id = g old := by
  induction x generalizing owners with
  | scalar s =>
    obtain ⟨info, _ | _ | ⟨target, f⟩⟩ := s
    · cases h
    · cases h
    · have h : id = if target ∈ owners then g target else target := List.mem_singleton.1 h
      split at h
      case isTrue hmem => exact .inr ⟨target, List.mem_append_right _ hmem, h⟩
      case isFalse => exact .inl (List.mem_singleton.2 h)
  | function f => cases h
  | branch role info policy cs ih =>
    rw [duplicated, objects, duplicatedAll_eq_map, objectsAll_eq_flatMap, List.flatMap_map,
      List.mem_append, List.mem_flatMap] at h
    rw [objects, owned, objectsAll_eq_flatMap, ownedAll_eq_flatMap]
    -- through the branch itself, or through one of its children
    rcases h with h | ⟨c, hc, h⟩
    · rcases role with _ | _ | ⟨old, owned⟩
      · cases h
      · cases h
      · cases owned with
        | false => exact .inl (List.mem_append_left _ h)
        | true =>
          refine .inr ⟨old, ?_, List.mem_singleton.1 h⟩
          simp [Role.owned?]
    · rcases ih c hc h with h | ⟨old, hold, rfl⟩
      · exact .inl (List.mem_append_right _ (List.mem_flatMap.2 ⟨c, hc, h⟩))
      · refine .inr ⟨old, ?_, rfl⟩
        simp only [List.mem_append, List.mem_flatMap] at hold ⊢
        rcases hold with hold | hold | hold
        · exact .inl (.inl ⟨c, hc, hold⟩)
        · exact .inl (.inr hold)
        · exact .inr hold

/-- What may be owned by a child `c` or by its owners may be owned by the branch or by its own. -/
theorem mem_owned_of_child {role : Role} {info : Info} {policy : CopyPolicy} {cs : List Symbol}
    {c : Symbol} {id : ObjectId} (hc : c ∈ cs)
    (h : id ∈ c.owned ++ (role.owned?.toList ++ owners)) :
    id ∈ (branch role info policy cs).owned ++ owners := by
  rw [owned, ownedAll_eq_flatMap]
  simp only [List.mem_append, List.mem_flatMap] at h ⊢
  rcases h with h | h | h
  · exact .inl (.inl ⟨c, hc, h⟩)
  · exact .inl (.inr h)
  · exact .inr h

/-- Only what `g` makes of the objects in question matters, and who the `owners` are. -/
theorem duplicated_congr (howners : ∀ id, id ∈ owners ↔ id ∈ owners')
    (h : ∀ id ∈ x.owned ++ owners, g id = g' id) :
    x.duplicated g owners = x.duplicated g' owners' := by
  induction x generalizing owners owners' with
  | scalar s =>
    obtain ⟨info, _ | _ | ⟨target, f⟩⟩ := s
    · rfl
    · rfl
    · simp only [duplicated, Storage.follow, Link.follow, ← howners]
      by_cases hmem : target ∈ owners
      · rw [if_pos hmem, if_pos hmem, h target (List.mem_append_right _ hmem)]
      · rw [if_neg hmem, if_neg hmem]
  | function f => rfl
  | branch role info policy cs ih =>
    have hrole : role.duplicated g = role.duplicated g' := by
      rcases role with _ | _ | ⟨old, owned⟩
      · rfl
      · rfl
      · cases owned with
        | false => rfl
        | true =>
          have hold := h old (by simp [Symbol.owned, Role.owned?])
          simp [Role.duplicated, hold]
    rw [duplicated, duplicated, duplicatedAll_eq_map, duplicatedAll_eq_map, hrole]
    refine congrArg _ (List.map_congr_left fun c hc => ih c hc (fun id => ?_) fun id hid => ?_)
    · rw [List.mem_append, List.mem_append, howners]
    · exact h id (mem_owned_of_child hc hid)

theorem duplicatedAll_congr {cs : List Symbol} (h : ∀ id ∈ ownedAll cs, g id = g' id) :
    duplicatedAll g [] cs = duplicatedAll g' [] cs := by
  rw [duplicatedAll_eq_map, duplicatedAll_eq_map]
  refine List.map_congr_left fun c hc => duplicated_congr (fun _ => Iff.rfl) fun id hid => h id ?_
  rw [ownedAll_eq_flatMap, List.mem_flatMap]
  exact ⟨c, hc, by simpa using hid⟩

/-- To `rebind` links to the new name of an object is to count its owner among those above, as long
as no other object is given its old name. -/
theorem rebind_duplicated {old : ObjectId} (h : ∀ id ∈ x.owned ++ owners, g id ≠ old) :
    (x.duplicated g owners).rebind old (g old) = x.duplicated g (old :: owners) := by
  induction x generalizing owners with
  | scalar s =>
    obtain ⟨info, _ | _ | ⟨target, f⟩⟩ := s
    · rfl
    · rfl
    · simp only [duplicated, Storage.follow, Link.follow, rebind, Link.rebind, List.mem_cons]
      -- a link that follows an owner already has left `old` behind, if it ever led there
      by_cases hmem : target ∈ owners
      · simp [hmem, h target (List.mem_append_right _ hmem)]
      · by_cases heq : target = old
        · rw [if_neg hmem, if_pos heq, if_pos (.inl heq), heq]
        · simp [hmem, heq]
  | function f => rfl
  | branch role info policy cs ih =>
    rw [duplicated, duplicated, rebind, rebindAll_eq_map, duplicatedAll_eq_map,
      duplicatedAll_eq_map, List.map_map]
    refine congrArg _ (List.map_congr_left fun c hc => ?_)
    rw [Function.comp_apply, ih c hc fun id hid => h id (mem_owned_of_child hc hid)]
    -- the same owners, whether `old` or the object of the branch comes first
    refine duplicated_congr (fun id => ?_) fun id _ => rfl
    simp only [List.mem_append, List.mem_cons]
    exact or_left_comm

@[simp] theorem owned_rebind (old new : ObjectId) (x : Symbol) :
    (x.rebind old new).owned = x.owned := by
  induction x with
  | scalar s =>
    unfold rebind
    cases s.storage <;> rfl
  | function f => rfl
  | branch role info policy cs ih =>
    rw [rebind, owned, owned, rebindAll_eq_map, ownedAll_eq_flatMap, ownedAll_eq_flatMap,
      List.flatMap_map, List.flatMap_congr ih]

end Symbol

/-! ## §2. Nothing is lost. -/

open Effect

namespace ObjectBinding

/-- The handle that `duplicateHandle` makes owns what was made for it. -/
theorem duplicateHandle_moves (o : ObjectBinding) :
    Moves [] o.duplicateHandle (onSuccess fun h? => (Role.object h?).owned?.toList) := by
  unfold duplicateHandle
  cases o.handle? with
  | none => exact .pure _ rfl
  | some h =>
    have hduplicate : Moves [] h.duplicate
        (onSuccess fun h? => (Role.object h?).owned?.toList) := by
      unfold Handle.duplicate
      obtain ⟨id, owned⟩ := h
      cases owned with
      | false => exact .bind (.of_still (still_emit _) []) fun _ => .pure _ rfl
      | true =>
        refine .bind (.of_still still_store []) fun s => ?_
        cases s.read id with
        | error e => exact .pure _ rfl
        | ok n =>
          dsimp only
          cases n.duplicate with
          -- the only case in which an object is made
          | fresh copy =>
            refine .bind (create_moves copy) fun new => ?_
            exact .bind (.of_still (still_emit _) _) fun _ => .pure _ rfl
          | unsupported => exact .bind (.of_still (still_emit _) []) fun _ => .pure _ rfl
          | unowned => exact .bind (.of_still (still_emit _) []) fun _ => .pure _ rfl
    refine .bind hduplicate fun r => ?_
    rcases r with e | _ | copy
    · exact .bind (.of_still (still_report _) _) fun _ => .pure _ rfl
    · refine .bind (.of_still still_store _) fun s => ?_
      exact .bind (.of_still (still_report _) _) fun _ => .pure _ rfl
    · exact .pure _ rfl

/-- To `followLinks` changes nothing about who owns what. -/
theorem ownedAll_followLinks (old? copy? : Option Handle) (cs : List Symbol) :
    Symbol.ownedAll (followLinks old? copy? cs) = Symbol.ownedAll cs := by
  unfold followLinks
  split
  case h_1 old copy =>
    split
    case isTrue => rfl
    case isFalse =>
      rw [Symbol.rebindAll_eq_map, Symbol.ownedAll_eq_flatMap, Symbol.ownedAll_eq_flatMap,
        List.flatMap_map]
      exact List.flatMap_congr fun c _ => Symbol.owned_rebind _ _ c
  case h_2 => rfl

theorem cloneWith_moves (o : ObjectBinding) {e : Effect (Attempt (List Symbol))}
    (he : Moves [] e fun built => Symbol.ownedAll built.value) :
    Moves [] (o.cloneWith e) (onSuccess Symbol.owned) := by
  refine .bind o.duplicateHandle_moves fun r => ?_
  rcases r with e | copy?
  · exact .pure _ rfl
  · refine .bind (he.frame (Role.object copy?).owned?.toList) fun built => ?_
    obtain ⟨cs, _ | error⟩ := built
    · refine .bind (.of_still (still_emit _) _) fun _ => .pure _ ?_
      show Symbol.ownedAll (followLinks o.handle? copy? cs) ++ _ = _
      rw [ownedAll_followLinks]
    · -- the children are dropped before the handle
      refine .bind ((Symbol.releaseAll_moves_owned cs).frame _) fun _ => ?_
      dsimp only
      cases (Role.object copy?).owned? with
      | none => exact .pure _ rfl
      | some id => exact .bind (destroy_moves id) fun _ => .pure _ rfl

end ObjectBinding

namespace Symbol

theorem cloneChildren_moves {cs : List Symbol}
    (h : ∀ c ∈ cs, Moves [] c.tryClone (onSuccess owned)) :
    Moves [] (cloneChildren cs) fun built => ownedAll built.value := by
  induction cs with
  | nil => exact .pure _ rfl
  | cons c cs ih =>
    refine .bind (h c List.mem_cons_self) fun r => ?_
    rcases r with e | copy
    · exact .pure _ rfl
    · have hrest := (ih fun d hd => h d (List.mem_cons_of_mem _ hd)).frame copy.owned
      -- the clone of the first child is held while the others are cloned
      have hcopy : Moves copy.owned (cloneChildren cs) fun built => copy.owned ++
          ownedAll built.value :=
        hrest.congr (fun _ => rfl) fun built id => by
          rw [List.count_append, List.count_append, Nat.add_comm]
      exact hcopy.map fun built => rfl

/-- **A clone owns what was made for it, and a `tryClone` that fails leaves nothing.** -/
theorem tryClone_moves (x : Symbol) : Moves [] x.tryClone (onSuccess owned) := by
  induction x with
  | scalar s => exact .pure _ rfl
  | function f => exact .pure _ rfl
  | branch role info policy cs ih =>
    have hchildren := cloneChildren_moves ih
    rcases role with _ | handle?
    · refine .bind hchildren fun built => ?_
      obtain ⟨ds, _ | error⟩ := built
      · exact .pure _ (List.append_nil _)
      · exact .bind (releaseAll_moves_owned ds) fun _ => .pure _ rfl
    · exact ObjectBinding.cloneWith_moves _ hchildren

theorem cloneChildren_moves_owned (cs : List Symbol) :
    Moves [] (cloneChildren cs) fun built => ownedAll built.value :=
  cloneChildren_moves fun c _ => tryClone_moves c

end Symbol

/-! ## §3. A clone is a duplicate. -/

/-- The map `g` gives the objects `ids` different names that were given out between `w` and `w'`. -/
def Surroundings.Renames (w w' : Surroundings) (g : ObjectId → ObjectId) (ids : List ObjectId) :
    Prop :=
  ∀ id ∈ ids, w.made ≤ (g id).index ∧ (g id).index < w'.made

/-- Only how many names were given out by then, by `made`, matters. -/
theorem Surroundings.Renames.of_made {w₀ w₁ w₂ w₃ : Surroundings} {g : ObjectId → ObjectId}
    {ids : List ObjectId} (h : w₁.Renames w₂ g ids) (hfirst : w₀.made = w₁.made)
    (hlast : w₃.made = w₂.made) : w₀.Renames w₃ g ids := by
  unfold Renames
  rw [hfirst, hlast]
  exact h

/-- Names that were given out in two stretches of a run, one after the other, by `g₁` and `g₂`. -/
theorem Surroundings.Renames.append {w₀ w₁ w₂ : Surroundings} {g₁ g₂ : ObjectId → ObjectId}
    {ids ids' : List ObjectId} (h₁ : w₀.Renames w₁ g₁ ids) (h₂ : w₁.Renames w₂ g₂ ids')
    (hle₁ : w₀.made ≤ w₁.made) (hle₂ : w₁.made ≤ w₂.made) :
    w₀.Renames w₂ (fun id => if id ∈ ids then g₁ id else g₂ id) (ids ++ ids') := by
  intro id hid
  dsimp only
  split
  case isTrue hmem =>
    obtain ⟨hlow, hhigh⟩ := h₁ id hmem
    exact ⟨hlow, Nat.lt_of_lt_of_le hhigh hle₂⟩
  case isFalse hmem =>
    obtain ⟨hlow, hhigh⟩ := h₂ id ((List.mem_append.1 hid).resolve_left hmem)
    exact ⟨Nat.le_trans hle₁ hlow, hhigh⟩

/-- The next name is given to the object `old`, and names after it to others. -/
theorem Surroundings.Renames.update {w₀ w₁ w₂ : Surroundings} {g : ObjectId → ObjectId}
    {ids : List ObjectId} (h : w₁.Renames w₂ g ids) (hnext : w₁.made = w₀.made + 1)
    (hle : w₁.made ≤ w₂.made) (old : ObjectId) :
    w₀.Renames w₂ (Function.update g old w₀.store.nextObject) (ids ++ [old]) := by
  intro id hid
  by_cases heq : id = old
  · have hindex : w₀.store.nextObject.index = w₀.made := rfl
    rw [heq, Function.update_self, hindex]
    omega
  · have hmem : id ∈ ids :=
      (List.mem_append.1 hid).resolve_right fun h => heq (List.mem_singleton.1 h)
    have := h id hmem
    rw [Function.update_of_ne heq]
    omega

namespace ObjectBinding

/-- A handle that owns its object is duplicated by one that owns a new object, the `duplicate` of
the old one; any other handle is kept. -/
theorem run_duplicateHandle {o : ObjectBinding} {w : Surroundings} {copy? : Option Handle}
    (h : (o.duplicateHandle.run w).1 = .ok copy?) :
    (∃ old n m, o.handle? = some ⟨old, true⟩ ∧ w.store.read old = .ok n ∧
      n.duplicate = .fresh m ∧ copy? = some ⟨w.store.nextObject, true⟩ ∧
      (o.duplicateHandle.run w).2 = (w.create m).emit (.duplicatedOwned true)) ∨
    ((Role.object o.handle?).owned? = none ∧ copy? = o.handle? ∧
      (o.duplicateHandle.run w).2.store = w.store ∧
      (o.duplicateHandle.run w).2.destroyed = w.destroyed) := by
  unfold duplicateHandle at h ⊢
  cases hh : o.handle? with
  | none =>
    rw [hh] at h
    exact .inr ⟨rfl, (Except.ok.inj h).symm, rfl, rfl⟩
  | some handle =>
    rw [hh] at h
    dsimp only at h ⊢
    unfold Handle.duplicate at h ⊢
    obtain ⟨id, owned⟩ := handle
    cases owned with
    | false => exact .inr ⟨rfl, (Except.ok.inj h).symm, rfl, rfl⟩
    | true =>
      simp only [if_true, Effect.run_bind, Effect.run_store] at h ⊢
      cases hr : w.store.read id with
      | error e =>
        rw [hr] at h
        cases h
      | ok n =>
        rw [hr] at h
        dsimp only at h ⊢
        cases hn : n.duplicate with
        -- every other outcome of duplicating an owned object is an error
        | fresh copy =>
          rw [hn] at h
          exact .inl ⟨id, n, copy, rfl, hr, hn, (Except.ok.inj h).symm, rfl⟩
        | unsupported =>
          rw [hn] at h
          cases h
        | unowned =>
          rw [hn] at h
          cases h

/-- What a clone of `o` that succeeds is made of: a handle `copy?`, and children `cs` whose links
follow it. -/
theorem run_cloneWith {o : ObjectBinding} {e : Effect (Attempt (List Symbol))} {w : Surroundings}
    {y : Symbol} (h : ((o.cloneWith e).run w).1 = .ok y) :
    ∃ copy? cs, (o.duplicateHandle.run w).1 = .ok copy? ∧
      (e.run (o.duplicateHandle.run w).2).1 = ⟨cs, none⟩ ∧
      y = .branch (.object copy?) o.scope.info o.scope.policy (followLinks o.handle? copy? cs) ∧
      ((o.cloneWith e).run w).2 = (e.run (o.duplicateHandle.run w).2).2.emit
        (.cloned o.label (Role.object copy?).owned?.isSome) := by
  unfold cloneWith at h ⊢
  rw [Effect.run_bind] at h ⊢
  revert h
  generalize o.duplicateHandle.run w = duplicated
  obtain ⟨error | copy?, w₁⟩ := duplicated <;> intro h
  · cases h
  · dsimp only at h ⊢
    rw [Effect.run_bind] at h ⊢
    revert h
    generalize e.run w₁ = built
    obtain ⟨⟨cs, _ | error⟩, w₂⟩ := built <;> intro h
    · exact ⟨copy?, cs, rfl, rfl, (Except.ok.inj h).symm, rfl⟩
    · dsimp only at h
      rw [Effect.run_bind] at h
      cases ho : (Role.object copy?).owned? with
      | none =>
        rw [ho] at h
        have h : Except.error error = Except.ok y := h
        cases h
      | some id =>
        rw [ho] at h
        have h : Except.error error = Except.ok y := h
        cases h

end ObjectBinding

namespace Symbol

variable {w : Surroundings}

/-- A clone of `x` is `x.duplicated g []`, where `g` gives names that were given out while it was
made. -/
def ClonesByRenaming (x : Symbol) : Prop :=
  ∀ (w : Surroundings) (y : Symbol), (x.tryClone.run w).1 = .ok y →
    (∀ id ∈ x.owned, id.index < w.made) → x.owned.Nodup →
      ∃ g, y = x.duplicated g [] ∧ w.Renames (x.tryClone.run w).2 g x.owned

/-- A symbol `c` and symbols `cs` that own other objects are duplicated together, each with their
own names. -/
theorem duplicatedAll_cons {c : Symbol} {cs : List Symbol} (hnodup : (ownedAll (c :: cs)).Nodup)
    (g₁ g₂ : ObjectId → ObjectId) :
    duplicatedAll (fun id => if id ∈ c.owned then g₁ id else g₂ id) [] (c :: cs) =
      c.duplicated g₁ [] :: duplicatedAll g₂ [] cs := by
  obtain ⟨-, -, hdisjoint⟩ := List.nodup_append.1 hnodup
  rw [duplicatedAll]
  refine congrArg₂ _ (duplicated_congr (fun _ => Iff.rfl) fun id hid => ?_)
    (duplicatedAll_congr fun id hid => ?_)
  · rw [List.append_nil] at hid
    rw [if_pos hid]
  · rw [if_neg fun hc => hdisjoint id hc id hid rfl]

theorem cloneChildren_eq_duplicatedAll {cs ds : List Symbol} (h : ∀ c ∈ cs, c.ClonesByRenaming)
    (hrun : ((cloneChildren cs).run w).1 = ⟨ds, none⟩)
    (hknown : ∀ id ∈ ownedAll cs, id.index < w.made) (hnodup : (ownedAll cs).Nodup) :
    ∃ g, ds = duplicatedAll g [] cs ∧
      w.Renames ((cloneChildren cs).run w).2 g (ownedAll cs) := by
  induction cs generalizing w ds with
  | nil =>
    cases hrun
    exact ⟨id, rfl, fun _ hid => absurd hid List.not_mem_nil⟩
  | cons c cs ih =>
    obtain ⟨hcnodup, hrestnodup, -⟩ := List.nodup_append.1 hnodup
    have hstart := (c.tryClone_moves.evolves w).made_le
    rw [cloneChildren, Effect.run_bind] at hrun ⊢
    have hc := h c List.mem_cons_self w
    -- first the child, in the surroundings at hand
    revert hrun hstart hc
    generalize c.tryClone.run w = first
    obtain ⟨error | copy, w₁⟩ := first <;> intro hrun hstart hc
    · cases hrun
    · obtain ⟨g₁, rfl, hg₁⟩ := hc copy rfl (fun id hid => hknown id (List.mem_append_left _ hid))
        hcnodup
      have hrest := (cloneChildren_moves_owned cs).evolves w₁
      dsimp only at hstart hrun ⊢
      rw [Effect.run_bind] at hrun ⊢
      -- then the other children, in those that the first one leaves
      have hgo := @ih w₁
      revert hrun hrest hgo
      generalize (cloneChildren cs).run w₁ = rest
      obtain ⟨⟨es, error?⟩, w₂⟩ := rest
      intro hrun hrest hgo
      obtain ⟨rfl, rfl⟩ := Attempt.mk.inj hrun
      obtain ⟨g₂, rfl, hg₂⟩ := hgo (fun d hd => h d (List.mem_cons_of_mem _ hd)) rfl
        (fun id hid => Nat.lt_of_lt_of_le (hknown id (List.mem_append_right _ hid)) hstart)
        hrestnodup
      -- the names of the first child and those of the others do not get in each other's way
      exact ⟨_, (duplicatedAll_cons hnodup g₁ g₂).symm, hg₁.append hg₂ hstart hrest.made_le⟩

/-- The children of a clone whose object is duplicated: their links follow it from `old` to `g
old`. -/
theorem followLinks_duplicated {cs : List Symbol} {g : ObjectId → ObjectId} {old : ObjectId}
    (hne : old ≠ g old) (hg : ∀ id ∈ ownedAll cs, g id ≠ old) :
    ObjectBinding.followLinks (some ⟨old, true⟩) (some ⟨g old, true⟩) (duplicatedAll g [] cs) =
      duplicatedAll g [old] cs := by
  rw [ObjectBinding.followLinks, if_neg hne, duplicatedAll_eq_map, duplicatedAll_eq_map,
    rebindAll_eq_map, List.map_map]
  refine List.map_congr_left fun c hc => ?_
  refine rebind_duplicated fun id hid => hg id ?_
  rw [ownedAll_eq_flatMap, List.mem_flatMap]
  exact ⟨c, hc, by simpa using hid⟩

/-- An object symbol with a new object of its own, whose links follow it, is `duplicated`. -/
theorem duplicated_of_fresh {info : Info} {policy : CopyPolicy} {cs : List Symbol}
    {g : ObjectId → ObjectId} {old new : ObjectId} (hold : old ∉ ownedAll cs) (hne : old ≠ new)
    (hfresh : ∀ id ∈ ownedAll cs, g id ≠ old) :
    branch (.object (some ⟨new, true⟩)) info policy (ObjectBinding.followLinks (some ⟨old, true⟩)
      (some ⟨new, true⟩) (duplicatedAll g [] cs)) =
    (branch (.object (some ⟨old, true⟩)) info policy cs).duplicated
      (Function.update g old new) [] := by
  let g' := Function.update g old new
  have hself : g' old = new := Function.update_self ..
  -- the names of the children are as before, as the object is none of theirs
  have hother (id : ObjectId) (hid : id ∈ ownedAll cs) : g id = g' id :=
    (Function.update_of_ne (fun heq : id = old => hold (by rw [← heq]; exact hid)) _ _).symm
  have hfollow : ObjectBinding.followLinks (some ⟨old, true⟩) (some ⟨g' old, true⟩)
      (duplicatedAll g' [] cs) = duplicatedAll g' [old] cs := by
    refine followLinks_duplicated (by rw [hself]; exact hne) fun id hid => ?_
    rw [← hother id hid]
    exact hfresh id hid
  have hduplicated : (branch (.object (some ⟨old, true⟩)) info policy cs).duplicated g' [] =
      branch (.object (some ⟨g' old, true⟩)) info policy (duplicatedAll g' [old] cs) := rfl
  rw [hself] at hfollow hduplicated
  rw [duplicatedAll_congr hother, hfollow, hduplicated]

/-- An object symbol that owns nothing itself and keeps its handle is `duplicated`. -/
theorem duplicated_of_kept {handle? : Option Handle} {info : Info} {policy : CopyPolicy}
    {cs : List Symbol} {g : ObjectId → ObjectId} (hnone : (Role.object handle?).owned? = none) :
    branch (.object handle?) info policy
      (ObjectBinding.followLinks handle? handle? (duplicatedAll g [] cs)) =
    (branch (.object handle?) info policy cs).duplicated g [] := by
  have hfollow : ObjectBinding.followLinks handle? handle? (duplicatedAll g [] cs) =
      duplicatedAll g [] cs := by
    cases handle? with
    | none => rfl
    | some handle => exact if_pos rfl
  have hrole : (Role.object handle?).duplicated g = .object handle? := by
    rcases handle? with _ | ⟨id, owned⟩
    · rfl
    · cases owned with
      | false => rfl
      | true => cases hnone
  rw [hfollow, duplicated, hrole, hnone]
  rfl

theorem clonesByRenaming_scope {info : Info} {policy : CopyPolicy} {cs : List Symbol}
    (h : ∀ c ∈ cs, c.ClonesByRenaming) : (branch .scope info policy cs).ClonesByRenaming := by
  intro w y hrun hknown hnodup
  have hcs : (branch .scope info policy cs).owned = ownedAll cs := List.append_nil _
  rw [hcs] at hknown hnodup ⊢
  have hgo := @cloneChildren_eq_duplicatedAll w cs
  rw [tryClone, Effect.run_bind] at hrun ⊢
  revert hrun hgo
  generalize (cloneChildren cs).run w = built
  obtain ⟨⟨ds, _ | error⟩, w₁⟩ := built <;> intro hrun hgo
  · obtain ⟨g, rfl, hg⟩ := hgo h rfl hknown hnodup
    exact ⟨g, (Except.ok.inj hrun).symm, hg⟩
  · have hrun : Except.error error = Except.ok y := hrun
    cases hrun

theorem clonesByRenaming_object {handle? : Option Handle} {info : Info} {policy : CopyPolicy}
    {cs : List Symbol} (h : ∀ c ∈ cs, c.ClonesByRenaming) :
    (branch (.object handle?) info policy cs).ClonesByRenaming := by
  intro w y hrun hknown hnodup
  obtain ⟨hcs, -, hdisjoint⟩ := List.nodup_append.1 hnodup
  rw [tryClone] at hrun ⊢
  obtain ⟨copy?, ds, hcopy, hbuilt, rfl, hend⟩ := ObjectBinding.run_cloneWith hrun
  rw [hend]
  have hchildren (id : ObjectId) (hid : id ∈ ownedAll cs) : id.index < w.made :=
    hknown id (List.mem_append_left _ hid)
  rcases ObjectBinding.run_duplicateHandle hcopy with
    ⟨old, n, m, rfl, -, -, rfl, hstart⟩ | ⟨hnone, hkeep, hsame, -⟩
  · have hnext := (congrArg Surroundings.made hstart).trans (Surroundings.made_create w m)
    obtain ⟨g, rfl, hg⟩ := cloneChildren_eq_duplicatedAll h hbuilt
      (fun id hid => by rw [hnext]; exact Nat.lt_succ_of_lt (hchildren id hid)) hcs
    have hself : old ∈ [old] := List.mem_singleton_self old
    have hlt : old.index < w.made := hknown old (List.mem_append_right _ hself)
    have hold : old ∉ ownedAll cs := fun hid => hdisjoint old hid old hself rfl
    -- names that are given out now differ from all names in use
    have hne : old ≠ w.store.nextObject := by
      rintro rfl
      exact Nat.lt_irrefl _ hlt
    have hfresh (id : ObjectId) (hid : id ∈ ownedAll cs) : g id ≠ old := by
      rintro rfl
      have := (hg id hid).1
      omega
    -- the object of the symbol itself is the first that the clone makes
    have hle := ((cloneChildren_moves_owned cs).evolves
      ((ObjectBinding.duplicateHandle ⟨⟨info, policy, cs⟩, some ⟨old, true⟩⟩).run w).2).made_le
    exact ⟨_, duplicated_of_fresh hold hne hfresh, hg.update hnext hle old⟩
  · have hmade : ((ObjectBinding.duplicateHandle ⟨⟨info, policy, cs⟩, handle?⟩).run w).2.made =
        w.made := congrArg (fun s : Store => s.objects.size) hsame
    obtain ⟨g, rfl, hg⟩ := cloneChildren_eq_duplicatedAll h hbuilt
      (fun id hid => by rw [hmade]; exact hchildren id hid) hcs
    subst hkeep
    have howned : (branch (.object copy?) info policy cs).owned = ownedAll cs := by
      rw [owned, hnone]
      exact List.append_nil _
    refine ⟨g, duplicated_of_kept hnone, ?_⟩
    rw [howned]
    exact hg.of_made hmade.symm rfl

/-- **A clone is the symbol `duplicated`**, with names for what it owns that were given out while
the clone was made. -/
theorem tryClone_eq_duplicated (x : Symbol) : x.ClonesByRenaming := by
  induction x with
  | scalar s =>
    intro w y hrun _ _
    refine ⟨id, ?_, fun _ hid => absurd hid List.not_mem_nil⟩
    rw [← Except.ok.inj hrun, duplicated, Storage.follow_nil]
  | function f =>
    intro w y hrun _ _
    exact ⟨id, (Except.ok.inj hrun).symm, fun _ hid => absurd hid List.not_mem_nil⟩
  | branch role info policy cs ih =>
    intro w y hrun hknown hnodup
    cases role with
    | scope => exact clonesByRenaming_scope ih w y hrun hknown hnodup
    | object handle? => exact clonesByRenaming_object ih w y hrun hknown hnodup

/-! ## §4. Counterparts. -/

theorem children_duplicated (g : ObjectId → ObjectId) (owners : List ObjectId) (x : Symbol) :
    (x.duplicated g owners).children =
      x.children.map (duplicated g (x.ownedHere?.toList ++ owners)) := by
  cases x with
  | branch role info policy cs => exact duplicatedAll_eq_map _ _ cs
  | _ => rfl

/-- **The counterpart of a node `z` stands at the same place `ks`**, and the owners that count for
its links are those above it. -/
theorem at_duplicated {x z : Symbol} {ks : List String} (hx : x.Coherent) (hz : x.At ks z)
    (g : ObjectId → ObjectId) (owners : List ObjectId) :
    ∃ owners', (x.duplicated g owners).At ks (z.duplicated g owners') ∧
      ∀ id, id ∈ owners' ↔ id ∈ owners ∨
        ∃ js b, js <+: ks ∧ js ≠ ks ∧ x.At js b ∧ b.ownedHere? = some id := by
  induction ks generalizing x owners with
  | nil =>
    rw [(at_nil _ _).1 hz]
    refine ⟨owners, rfl, fun id => ⟨.inl, ?_⟩⟩
    rintro (h | ⟨js, b, hprefix, hne, -⟩)
    · exact h
    · exact absurd (List.prefix_nil.1 hprefix) hne
  | cons k ks ih =>
    obtain ⟨c, hc, rfl, hz⟩ := hz
    obtain ⟨owners', hat, howners⟩ := ih (hx.child hc) hz (x.ownedHere?.toList ++ owners)
    refine ⟨owners', ⟨_, ?_, name_duplicated _ _ c, hat⟩, fun id => ?_⟩
    · rw [children_duplicated]
      exact List.mem_map_of_mem hc
    · rw [howners, List.mem_append, Option.mem_toList]
      constructor
      -- the branch itself, or a node further down the way, is the owner
      · rintro ((hown | hmem) | ⟨js, b, hprefix, hne, hb, hown⟩)
        · exact .inr ⟨[], x, List.nil_prefix, (List.cons_ne_nil _ _).symm, rfl, hown⟩
        · exact .inl hmem
        · exact .inr ⟨c.name :: js, b, List.cons_prefix_cons.2 ⟨rfl, hprefix⟩,
            fun heq => hne (List.cons.inj heq).2, ⟨c, hc, rfl, hb⟩, hown⟩
      · rintro (hmem | ⟨_ | ⟨j, js⟩, b, hprefix, hne, hb, hown⟩)
        · exact .inl (.inr hmem)
        · rw [(at_nil _ _).1 hb] at hown
          exact .inl (.inl hown)
        · obtain ⟨rfl, hrest⟩ := List.cons_prefix_cons.1 hprefix
          obtain ⟨d, hd, hname, hb⟩ := hb
          cases hx.eq_of_name hd hc hname
          exact .inr ⟨js, b, hrest, fun heq => hne (congrArg _ heq), hb, hown⟩

end Symbol

end ConfigTree
