import ConfigTree.Proofs.Links
import ConfigTree.Proofs.ScopeOffers

/-!
# The order in which symbols are dropped

A tree is dropped from below: the children of a scope or an object symbol go before it, in their
order, and its own object goes last.  `Symbol.postorder` lists the symbols of a tree in that order,
and a tree that owns live objects, none of them twice, destroys them as they stand in the list.
What a scope refuses is dropped in the same way.

Main results:
  * `Symbol.owned_eq_postorder` — what a tree owns, in the order of its symbols;
  * `Symbol.owned_infix_of_at` — what a part of a tree owns stands together;
  * `Symbol.dead_release` — dropping a symbol destroys what it owns, in that order;
  * `Offer.drops_insert`, `Offer.drops_addObject`, `Offer.drops_addLinked` — so does a refusal.
-/

namespace ConfigTree

namespace Symbol

variable {x y : Symbol} {ks : List String}

/-! ## §1. Symbols in postorder. -/

mutual

/-- The symbols of a tree, what a symbol holds before the symbol itself. -/
def postorder : Symbol → List Symbol
  | scalar s => [scalar s]
  | function f => [function f]
  | branch role info policy cs => postorderAll cs ++ [branch role info policy cs]

/-- The symbols of trees, tree by tree, each in `postorder`. -/
def postorderAll : List Symbol → List Symbol
  | [] => []
  | c :: cs => c.postorder ++ postorderAll cs

end

theorem postorderAll_eq_flatMap (cs : List Symbol) : postorderAll cs = cs.flatMap postorder := by
  induction cs with
  | nil => rfl
  | cons c cs ih => simp [postorderAll, ih]

theorem postorder_eq (x : Symbol) : x.postorder = x.children.flatMap postorder ++ [x] := by
  cases x with
  | branch role info policy cs => rw [postorder, postorderAll_eq_flatMap]; rfl
  | _ => rfl

/-- **The symbols in `postorder` are those of the tree.** -/
theorem mem_postorder : y ∈ x.postorder ↔ ∃ ks, x.At ks y := by
  induction x generalizing y with
  | scalar s =>
    refine ⟨fun h => ⟨[], List.mem_singleton.1 h⟩, ?_⟩
    rintro ⟨_ | ⟨k, ks⟩, h⟩
    · exact List.mem_singleton.2 h
    · obtain ⟨c, hc, -⟩ := h
      cases hc
  | function f =>
    refine ⟨fun h => ⟨[], List.mem_singleton.1 h⟩, ?_⟩
    rintro ⟨_ | ⟨k, ks⟩, h⟩
    · exact List.mem_singleton.2 h
    · obtain ⟨c, hc, -⟩ := h
      cases hc
  | branch role info policy cs ih =>
    rw [postorder_eq, List.mem_append, List.mem_singleton, List.mem_flatMap]
    constructor
    · rintro (⟨c, hc, hy⟩ | rfl)
      · obtain ⟨ks, hks⟩ := (ih c hc).1 hy
        exact ⟨c.name :: ks, c, hc, rfl, hks⟩
      · exact ⟨[], rfl⟩
    · rintro ⟨_ | ⟨k, ks⟩, h⟩
      · exact .inr h
      · obtain ⟨c, hc, -, hks⟩ := h
        exact .inl ⟨c, hc, (ih c hc).2 ⟨ks, hks⟩⟩

/-- **What a tree owns, `x.owned`, is what its symbols own by `ownedHere?`, in `postorder`.** -/
theorem owned_eq_postorder (x : Symbol) : x.owned = x.postorder.filterMap ownedHere? := by
  induction x with
  | scalar s => rfl
  | function f => rfl
  | branch role info policy cs ih =>
    have hbelow : ownedAll cs = (cs.flatMap postorder).filterMap ownedHere? := by
      rw [ownedAll_eq_flatMap, List.filterMap_flatMap]
      exact List.flatMap_congr ih
    have hself : role.owned?.toList = [branch role info policy cs].filterMap ownedHere? := by
      cases h : role.owned? <;> simp [ownedHere?, h]
    rw [owned, hbelow, hself, ← List.filterMap_append, postorder, postorderAll_eq_flatMap]

/-- **What a part `y` of a tree owns stands together**: what each child owns, child by child, and
then the object of the part itself. -/
theorem owned_infix_of_at (h : x.At ks y) : y.owned <:+: x.owned := by
  induction ks generalizing x with
  | nil =>
    obtain rfl := (at_nil x y).1 h
    exact List.infix_rfl
  | cons k ks ih =>
    obtain ⟨c, hc, -, hy⟩ := h
    obtain ⟨before, after, hsplit⟩ := List.append_of_mem hc
    refine (ih hy).trans ?_
    rw [owned_eq x, hsplit, ownedAll_append, ownedAll]
    refine ⟨ownedAll before, ownedAll after ++ x.ownedHere?.toList, ?_⟩
    simp only [List.append_assoc]

end Symbol

/-! ## §2. Dropping symbols. -/

namespace Surroundings

/-- The objects that are `destroyed`, in order. -/
def dead (w : Surroundings) : List ObjectId := w.destroyed.toList.map Destruction.id

theorem dead_of_destroyed {w w' : Surroundings} (h : w'.destroyed = w.destroyed) :
    w'.dead = w.dead := by
  rw [dead, h, dead]

/-- A live object `id` is destroyed last, at the end of `dead`. -/
theorem dead_destroy {w : Surroundings} {id : ObjectId} (h : w.store.isLive id = true) :
    (w.destroy id).dead = w.dead ++ [id] := by
  obtain ⟨r, hr⟩ := Option.isSome_iff_exists.1 h
  simp [dead, destroy, hr]

/-- What is not among the destroyed objects `ids` stays alive. -/
theorem Without.isLive {ids : List ObjectId} {w w' : Surroundings} (h : w.Without ids w')
    {id : ObjectId} (hid : id ∉ ids) : w'.store.isLive id = w.store.isLive id := by
  rw [Store.isLive, h.object, if_neg hid, Store.isLive]

end Surroundings

namespace Symbol

/-- Dropping the symbol `x` by `release` destroys what it owns, in the order of `x.owned`. -/
def ReleasesInOrder (x : Symbol) : Prop :=
  ∀ w : Surroundings, (∀ id ∈ x.owned, w.store.isLive id = true) → x.owned.Nodup →
    (x.release.run w).2.dead = w.dead ++ x.owned

theorem dead_releaseAll_of_children {cs : List Symbol} (h : ∀ c ∈ cs, c.ReleasesInOrder)
    {w : Surroundings} (hlive : ∀ id ∈ ownedAll cs, w.store.isLive id = true)
    (hnodup : (ownedAll cs).Nodup) :
    ((releaseAll cs).run w).2.dead = w.dead ++ ownedAll cs := by
  induction cs generalizing w with
  | nil => exact (List.append_nil _).symm
  | cons c cs ih =>
    rw [ownedAll] at hlive hnodup ⊢
    obtain ⟨hc, hcs, hapart⟩ := List.nodup_append.1 hnodup
    have hfirst := h c List.mem_cons_self w (fun id hid => hlive id (by simp [hid])) hc
    -- what the later children own is not what the first one took along
    have hrest := ih (w := (c.release.run w).2) (fun d hd => h d (List.mem_cons_of_mem _ hd))
      (fun id hid => ?_) hcs
    · rw [releaseAll, Effect.run_bind, hrest, hfirst, List.append_assoc]
    · rw [(c.release_without w).isLive fun hmem => hapart id hmem id hid rfl]
      exact hlive id (by simp [hid])

/-- **Dropping a symbol by `release` destroys what it owns, in postorder**: every symbol
`ReleasesInOrder`. -/
theorem dead_release (x : Symbol) : x.ReleasesInOrder := by
  induction x with
  | scalar s => exact fun w _ _ => (List.append_nil _).symm
  | function f => exact fun w _ _ => (List.append_nil _).symm
  | branch role info policy cs ih =>
    intro w hlive hnodup
    rw [release]
    rw [owned] at hlive hnodup ⊢
    cases hrole : role.owned? with
    | none =>
      rw [hrole] at hlive hnodup
      simp only [Option.toList_none, List.append_nil] at hlive hnodup ⊢
      exact dead_releaseAll_of_children ih hlive hnodup
    | some id =>
      rw [hrole] at hlive hnodup
      simp only [Option.toList_some] at hlive hnodup ⊢
      obtain ⟨hchildren, -, hapart⟩ := List.nodup_append.1 hnodup
      let told := w.emit (.dropping info.label)
      have hbelow : ((releaseAll cs).run told).2.dead = w.dead ++ ownedAll cs :=
        dead_releaseAll_of_children (w := told) ih (fun id hid => hlive id (by simp [hid])) hchildren
      -- the object of the symbol is none of those below, so it is alive until the end
      have hself : ((releaseAll cs).run told).2.store.isLive id = true := by
        rw [(releaseAll_without (fun c _ => c.release_without) told).isLive fun hmem =>
          hapart id hmem id (List.mem_singleton_self _) rfl]
        exact hlive id (by simp)
      show (((releaseAll cs).run told).2.destroy id).dead = _
      rw [Surroundings.dead_destroy hself, hbelow, List.append_assoc]

/-- Symbols `cs` that are dropped one after the other by `releaseAll`. -/
theorem dead_releaseAll {cs : List Symbol} {w : Surroundings}
    (hlive : ∀ id ∈ ownedAll cs, w.store.isLive id = true) (hnodup : (ownedAll cs).Nodup) :
    ((releaseAll cs).run w).2.dead = w.dead ++ ownedAll cs :=
  dead_releaseAll_of_children (fun c _ => c.dead_release) hlive hnodup

theorem forM_release (cs : List Symbol) : cs.forM release = releaseAll cs := by
  induction cs with
  | nil => rfl
  | cons c cs ih => rw [List.forM, ih, releaseAll]

end Symbol

namespace Surroundings

theorem destroyAll_without (ids : List ObjectId) (w : Surroundings) :
    w.Without ids ((ids.forM Effect.destroy).run w).2 := by
  induction ids generalizing w with
  | nil => exact .of_eq rfl
  | cons id ids ih => exact (destroy_without w id).trans (ih (w.destroy id))

/-- Live objects `ids` that are destroyed one after the other by `destroy`. -/
theorem dead_destroyAll {ids : List ObjectId} {w : Surroundings}
    (hlive : ∀ id ∈ ids, w.store.isLive id = true) (hnodup : ids.Nodup) :
    ((ids.forM Effect.destroy).run w).2.dead = w.dead ++ ids := by
  induction ids generalizing w with
  | nil => exact (List.append_nil _).symm
  | cons id ids ih =>
    obtain ⟨hid, hrest⟩ := List.nodup_cons.1 hnodup
    have hlater := ih (w := w.destroy id) (fun other hother => ?_) hrest
    · show ((ids.forM Effect.destroy).run (w.destroy id)).2.dead = _
      rw [hlater, dead_destroy (hlive id List.mem_cons_self), List.append_assoc]
      rfl
    · rw [(destroy_without w id).isLive fun hmem => hid (List.mem_singleton.1 hmem ▸ hother)]
      exact hlive other (List.mem_cons_of_mem _ hother)

end Surroundings

/-! ## §3. Refused symbols. -/

namespace Offer

variable {w : Surroundings}

/-- The effect `e` drops the symbol of the offer `o`, in postorder, if an `obstacle?` stands in its
way. -/
def Drops (o : Offer) (e : Effect (Except SymbolError Scope)) (w : Surroundings) : Prop :=
  ∀ error, o.obstacle? w.store = some error → (∀ id ∈ o.symbol.owned, w.store.isLive id = true) →
    o.symbol.owned.Nodup → (e.run w).2.dead = w.dead ++ o.symbol.owned

/-- **A scope that refuses a symbol `Drops` it.** -/
theorem drops_insert (c : Scope) (x : Symbol) (w : Surroundings) :
    (⟨c, x, none⟩ : Offer).Drops (c.insert x) w := by
  intro error herror hlive hnodup
  rw [obstacle?_of_none] at herror
  rw [Scope.run_insert, herror]
  exact x.dead_release (w.emit (.reported error)) hlive hnodup

/-- A scope that refuses a bound object by `addObject` `Drops` the object symbol that was to hold
it. -/
theorem drops_addObject (c : Scope) (name description : String) (h : Handle) (w : Surroundings) :
    (⟨c, .ofObject (c.newBinding name description h), none⟩ : Offer).Drops
      (c.addObject name description h) w := by
  intro error herror hlive hnodup
  rw [Scope.run_addObject]
  exact drops_insert c _ (w.emit (.binding name h.owned (w.store.describe h.id).name)) error herror
    hlive hnodup

/-- A linked scalar owns nothing, so a scope that refuses it by `addLinked` destroys nothing. -/
theorem drops_addLinked (c : Scope) (name description : String) (l : Link)
    (default : Except AccessError Value) (content : Content) (w : Surroundings) :
    (⟨c, .scalar ⟨⟨name, description, none⟩, .linked l⟩, some (l, content)⟩ : Offer).Drops
      (c.addLinked name description l default) w := by
  intro _ _ _ _
  show _ = w.dead ++ []
  rw [List.append_nil, Scope.run_addLinked_eq]
  cases c.refusal? name with
  | some e => rfl
  | none => cases default.bind (l.write w.store) <;> rfl

end Offer

end ConfigTree
