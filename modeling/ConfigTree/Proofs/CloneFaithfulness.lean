import ConfigTree.Proofs.Independence
import ConfigTree.Proofs.TreeNodes

/-!
# Clones are faithful

A clone has the nodes of the symbol that it was made from, in their order, and each of them is like
its counterpart: what is bound to nothing or borrows stays as it is, and what owns an object owns a
new one, made for it alone, with the same content.  While a clone is made objects are added at the
end of the store and nothing else happens there.

Main results:
  * `Symbol.tryClone_grows` — what a clone that succeeds does to the store, and what it owns then;
  * `Symbol.counterpart_duplicated` — node by node, how a clone is like the original;
  * `Session.clone_faithful` — both for every symbol of every session that a run leads to.
-/

namespace ConfigTree

/-! ## §1. Copies of objects. -/

namespace Native

/-- The object without what tells it from its duplicates, by the `Contract.content` of its type:
what the host calls it, and how often it was copied into. -/
def content (n : Native) : Native := ⟨n.type, n.type.contract.content n.data⟩

/-- **A duplicate has the `content` of the original.** -/
theorem content_of_duplicate {n m : Native} (h : n.duplicate = .fresh m) :
    m.content = n.content := by
  obtain ⟨b, hb, rfl⟩ := duplicate_eq_fresh.1 h
  exact congrArg (mk n.type) (n.type.contract.content_duplicate hb)

theorem type_content (n : Native) : n.content.type = n.type := rfl

theorem get?_content (n : Native) (f : FieldName) : n.content.get? f = n.get? f :=
  n.type.contract.get?_content n.data f

end Native

namespace Surroundings

/-- Objects were made between `w` and `w'`, and nothing else has happened to objects and cells. -/
structure Grown (w w' : Surroundings) : Prop where
  /-- Identities below `made` are never used again. -/
  made_le : w.made ≤ w'.made
  /-- The objects that there were have not changed, so `object?` finds the same. -/
  object : ∀ id : ObjectId, id.index < w.made → w'.store.object? id = w.store.object? id
  /-- None of the `cells` was made or changed. -/
  cells : w'.store.cells = w.store.cells
  /-- Nothing was added to `destroyed`. -/
  destroyed : w'.destroyed = w.destroyed

variable {w w' w₀ w₁ w₂ w₃ : Surroundings} {old new : ObjectId}

instance : IsPreorder Surroundings Grown where
  refl _ := ⟨Nat.le_refl _, fun _ _ => rfl, rfl, rfl⟩
  trans _ _ _ h k := ⟨Nat.le_trans h.made_le k.made_le,
    fun id hid => (k.object id (Nat.lt_of_lt_of_le hid h.made_le)).trans (h.object id hid),
    k.cells.trans h.cells, k.destroyed.trans h.destroyed⟩

theorem Grown.of_eq (hstore : w'.store = w.store) (hdestroyed : w'.destroyed = w.destroyed) :
    Grown w w' := by
  refine ⟨?_, fun id _ => ?_, ?_, hdestroyed⟩
  · exact Nat.le_of_eq (congrArg (fun s : Store => s.objects.size) hstore.symm)
  · rw [hstore]
  · rw [hstore]

theorem grown_create (w : Surroundings) (n : Native) : Grown w (w.create n) := by
  refine ⟨?_, fun id hid => ?_, rfl, rfl⟩
  · rw [made_create]
    omega
  · apply Store.object?_addObject_of_ne
    rintro rfl
    exact Nat.lt_irrefl _ hid

theorem Grown.cellFace? (h : Grown w w') (id : CellId) :
    w'.store.cellFace? id = w.store.cellFace? id := by
  unfold Store.cellFace? Store.cell?
  rw [h.cells]

theorem index_lt_of_read {n : Native} (h : w.store.read old = .ok n) : old.index < w.made := by
  apply Store.index_lt_of_isLive
  rw [Store.isLive_eq_face, Store.face?_of_read h]
  rfl

theorem Grown.read (h : Grown w w') {id : ObjectId} (hid : id.index < w.made) :
    w'.store.read id = w.store.read id := by
  unfold Store.read
  rw [h.object id hid]

/-- Between the two points `w` and `w'` the object `new` was made, and it is a `Native.duplicate` of
`old`. -/
def Duplicates (w w' : Surroundings) (old new : ObjectId) : Prop :=
  w.made ≤ new.index ∧ ∃ n m, w'.store.read old = .ok n ∧ n.duplicate = .fresh m ∧
    w'.store.object? new = some ⟨m, false⟩

/-- What was duplicated between `w₁` and `w₂` was duplicated in a longer stretch of a `Grown` store,
from `w₀` to `w₃`. -/
theorem Duplicates.within (h : Duplicates w₁ w₂ old new) (hstart : w₀.made ≤ w₁.made)
    (hend : Grown w₂ w₃) : Duplicates w₀ w₃ old new := by
  obtain ⟨hnew, n, m, hread, hduplicate, hm⟩ := h
  have hlt : new.index < w₂.made := by
    apply Store.index_lt_of_isLive
    rw [Store.isLive, hm]
    rfl
  refine ⟨Nat.le_trans hstart hnew, n, m, ?_, hduplicate, ?_⟩
  · rw [hend.read (index_lt_of_read hread), hread]
  · rw [hend.object new hlt, hm]

theorem duplicates_create {n m : Native} (hread : w.store.read old = .ok n)
    (hduplicate : n.duplicate = .fresh m) :
    Duplicates w (w.create m) old w.store.nextObject := by
  refine ⟨Nat.le_refl _, n, m, ?_, hduplicate, Store.object?_addObject_next _ _⟩
  rw [(grown_create w m).read (index_lt_of_read hread), hread]

end Surroundings

open Surroundings (Grown Duplicates)

/-! ## §2. What a clone does to the store. -/

theorem ObjectBinding.duplicateHandle_grows {o : ObjectBinding} {w : Surroundings}
    {copy? : Option Handle} (h : (o.duplicateHandle.run w).1 = .ok copy?) :
    Grown w (o.duplicateHandle.run w).2 ∧
      List.Forall₂ (Duplicates w (o.duplicateHandle.run w).2)
        (Role.object o.handle?).owned?.toList (Role.object copy?).owned?.toList := by
  rcases run_duplicateHandle h with
    ⟨old, n, m, hold, hread, hduplicate, rfl, hrun⟩ | ⟨hnone, rfl, hstore, hdestroyed⟩
  · rw [hrun, hold]
    have hemit : Grown (w.create m) ((w.create m).emit (.duplicatedOwned true)) := .of_eq rfl rfl
    refine ⟨IsTrans.trans _ _ _ (Surroundings.grown_create w m) hemit, .cons ?_ .nil⟩
    exact (Surroundings.duplicates_create hread hduplicate).within (Nat.le_refl _) hemit
  · rw [hnone]
    exact ⟨.of_eq hstore hdestroyed, .nil⟩

namespace Symbol

variable {w : Surroundings}

/-- A clone of `x` that succeeds grows the store (`Grown`), and owns a duplicate of each object in
`x.owned`, in the same order. -/
def ClonesGrowing (x : Symbol) : Prop :=
  ∀ (w : Surroundings) (y : Symbol), (x.tryClone.run w).1 = .ok y →
    Grown w (x.tryClone.run w).2 ∧
      List.Forall₂ (Duplicates w (x.tryClone.run w).2) x.owned y.owned

theorem cloneChildren_grows {cs ds : List Symbol} (h : ∀ c ∈ cs, c.ClonesGrowing)
    (hrun : ((cloneChildren cs).run w).1 = ⟨ds, none⟩) :
    Grown w ((cloneChildren cs).run w).2 ∧
      List.Forall₂ (Duplicates w ((cloneChildren cs).run w).2) (ownedAll cs) (ownedAll ds) := by
  induction cs generalizing w ds with
  | nil =>
    cases hrun
    exact ⟨refl w, .nil⟩
  | cons c cs ih =>
    rw [cloneChildren, Effect.run_bind] at hrun ⊢
    have hc := h c List.mem_cons_self w
    -- first the child, in the surroundings at hand
    revert hrun hc
    generalize c.tryClone.run w = first
    obtain ⟨error | copy, w₁⟩ := first <;> intro hrun hc
    · cases hrun
    · obtain ⟨hgrown₁, hcopies₁⟩ := hc copy rfl
      dsimp only at hgrown₁ hcopies₁ hrun ⊢
      rw [Effect.run_bind] at hrun ⊢
      -- then the other children, in those that the first one leaves
      have hgo := @ih w₁
      revert hrun hgo
      generalize (cloneChildren cs).run w₁ = rest
      obtain ⟨⟨es, error?⟩, w₂⟩ := rest
      intro hrun hgo
      obtain ⟨rfl, rfl⟩ := Attempt.mk.inj hrun
      obtain ⟨hgrown₂, hcopies₂⟩ := hgo (fun d hd => h d (List.mem_cons_of_mem _ hd)) rfl
      refine ⟨IsTrans.trans _ _ _ hgrown₁ hgrown₂, List.rel_append ?_ ?_⟩
      · exact hcopies₁.imp fun _ _ hcopy => hcopy.within (Nat.le_refl _) hgrown₂
      · exact hcopies₂.imp fun _ _ hcopy => hcopy.within hgrown₁.made_le (refl w₂)

/-- **What a clone does to the store**, and what it owns then: every symbol `ClonesGrowing`. -/
theorem tryClone_grows (x : Symbol) : x.ClonesGrowing := by
  induction x with
  | scalar s =>
    intro w y hrun
    rw [← Except.ok.inj hrun]
    exact ⟨refl w, .nil⟩
  | function f =>
    intro w y hrun
    rw [← Except.ok.inj hrun]
    exact ⟨refl w, .nil⟩
  | branch role info policy cs ih =>
    intro w y hrun
    cases role with
    | scope =>
      have hgo := @cloneChildren_grows w cs
      rw [tryClone, Effect.run_bind] at hrun ⊢
      revert hrun hgo
      generalize (cloneChildren cs).run w = built
      obtain ⟨⟨ds, _ | error⟩, w₁⟩ := built <;> intro hrun hgo
      · obtain ⟨hgrown, hcopies⟩ := hgo ih rfl
        rw [← Except.ok.inj hrun]
        exact ⟨hgrown, List.rel_append hcopies .nil⟩
      · have hrun : Except.error error = Except.ok y := hrun
        cases hrun
    | object handle? =>
      rw [tryClone] at hrun ⊢
      obtain ⟨copy?, ds, hcopy, hbuilt, rfl, hend⟩ := ObjectBinding.run_cloneWith hrun
      obtain ⟨hgrown₁, hcopies₁⟩ := ObjectBinding.duplicateHandle_grows hcopy
      obtain ⟨hgrown₂, hcopies₂⟩ := cloneChildren_grows ih hbuilt
      rw [hend]
      generalize ((cloneChildren cs).run _).2 = w₂ at hgrown₂ hcopies₂ ⊢
      have hemit (e : Event) : Grown w₂ (w₂.emit e) := .of_eq rfl rfl
      refine ⟨IsTrans.trans _ _ _ hgrown₁ (IsTrans.trans _ _ _ hgrown₂ (hemit _)), ?_⟩
      -- the object of the symbol itself comes last in the lists, but was made first
      rw [owned, owned, ObjectBinding.ownedAll_followLinks]
      apply List.rel_append
      · exact hcopies₂.imp fun _ _ h => h.within hgrown₁.made_le (hemit _)
      · exact hcopies₁.imp fun _ _ h => h.within (Nat.le_refl _)
          (IsTrans.trans _ _ _ hgrown₂ (hemit _))

end Symbol

/-! ## §3. Counterparts. -/

/-- What becomes of the `Handle` on an object when it is cloned. -/
inductive Handle.Cloned (w w' : Surroundings) : Option Handle → Option Handle → Prop where
  /-- What is bound to nothing, `none`, stays so. -/
  | unbound : Cloned w w' none none
  /-- What is borrowed is borrowed still, and `object?` finds at `id` what it found before, be it
  alive or dangling. -/
  | borrowed (id : ObjectId) (h : w'.store.object? id = w.store.object? id) :
    Cloned w w' (some ⟨id, false⟩) (some ⟨id, false⟩)
  /-- What is owned is a new object, with an index from `w.made` on, of the same `type`, with the
  same fields by `Native.get?` and the same `content`. -/
  | owned {old new : ObjectId} {n m : Native} (hnew : w.made ≤ new.index)
    (hold : w.store.read old = .ok n) (hm : w'.store.object? new = some ⟨m, false⟩)
    (htype : m.type = n.type) (hfields : ∀ f, m.get? f = n.get? f)
    (hcontent : m.content = n.content) :
    Cloned w w' (some ⟨old, true⟩) (some ⟨new, true⟩)

/-- What was duplicated (`Duplicates`) is owned in the clone. -/
theorem Handle.Cloned.of_duplicates {w w' : Surroundings} {old new : ObjectId} (hgrown : Grown w w')
    (hold : old.index < w.made) (h : Duplicates w w' old new) :
    Cloned w w' (some ⟨old, true⟩) (some ⟨new, true⟩) := by
  obtain ⟨hnew, n, m, hread, hduplicate, hm⟩ := h
  rw [hgrown.read hold] at hread
  have hcontent := Native.content_of_duplicate hduplicate
  refine .owned hnew hread hm ?_ (fun f => ?_) hcontent
  · rw [← Native.type_content, hcontent, Native.type_content]
  · rw [← Native.get?_content, hcontent, Native.get?_content]

namespace Symbol

/-- The value of a `scalar` that keeps its own. -/
def value? : Symbol → Option Value
  | scalar ⟨_, .value v⟩ => some v
  | _ => none

/-- How the node `new` of a clone is like its counterpart `old`. -/
structure Counterpart (w w' : Surroundings) (old new : Symbol) : Prop where
  /-- The same name, description and stored parent, all of `Info`. -/
  info : new.info = old.info
  /-- The same `kind` of symbol. -/
  kind : new.kind = old.kind
  /-- The same kind of value, by `valueKind?`. -/
  valueKind? : new.valueKind? w'.store = old.valueKind? w.store
  /-- The same value, if it keeps its own, by `value?`. -/
  value? : new.value? = old.value?
  /-- What a function does, and with how many arguments, by `function?`. -/
  function? : new.function? = old.function?
  /-- The same policy, by `policy?`. -/
  policy? : new.policy? = old.policy?
  /-- The same object or a new one like it, by `Handle.Cloned`. -/
  handle? : Handle.Cloned w w' old.handle? new.handle?

variable {w w' : Surroundings} {g : ObjectId → ObjectId}

/-- A link `l` that is pointed at another object by `Link.follow` has the `Link.kind` that it
had. -/
theorem kind_follow (hgrown : Grown w w') (owners : List ObjectId) (l : Link) :
    (l.follow g owners).kind w'.store = l.kind w.store := by
  cases l with
  | field target f => rfl
  | cell id => exact Link.kind_of_cellFace hgrown.cellFace? (.cell id)

/-- A node `x.alone` by itself and its duplicate are each other's `Counterpart`. -/
theorem counterpart_alone {x : Symbol} (hgrown : Grown w w')
    (hcopies : ∀ id ∈ x.owned, Duplicates w w' id (g id))
    (hknown : ∀ id ∈ x.objects, id.index < w.made) (owners : List ObjectId) :
    Counterpart w w' x.alone (x.duplicated g owners).alone := by
  rcases x with ⟨info, v | l⟩ | f | ⟨_ | _ | ⟨id, owned⟩, info, policy, cs⟩
  · exact ⟨rfl, rfl, rfl, rfl, rfl, rfl, .unbound⟩
  · exact ⟨rfl, rfl, congrArg some (kind_follow hgrown owners l), rfl, rfl, rfl, .unbound⟩
  · exact ⟨rfl, rfl, rfl, rfl, rfl, rfl, .unbound⟩
  · exact ⟨rfl, rfl, rfl, rfl, rfl, rfl, .unbound⟩
  · exact ⟨rfl, rfl, rfl, rfl, rfl, rfl, .unbound⟩
  · have hid : id.index < w.made := hknown id (List.mem_append_left _ (List.mem_singleton_self id))
    refine ⟨rfl, rfl, rfl, rfl, rfl, rfl, ?_⟩
    cases owned with
    | false => exact .borrowed id (hgrown.object id hid)
    | true =>
      have hcopy := hcopies id (List.mem_append_right _ (List.mem_singleton_self id))
      exact .of_duplicates hgrown hid hcopy

/-- **Node by node, a duplicate is like the original**: the `nodes` of `x` and of
`x.duplicated g owners` stand on the same paths, each with its `Counterpart`. -/
theorem counterpart_duplicated {x : Symbol} (hgrown : Grown w w')
    (hcopies : ∀ id ∈ x.owned, Duplicates w w' id (g id))
    (hknown : ∀ id ∈ x.objects, id.index < w.made) (owners : List ObjectId) (here : Path) :
    List.Forall₂ (fun old new => new.1 = old.1 ∧ Counterpart w w' old.2 new.2) (x.nodes here)
      ((x.duplicated g owners).nodes here) := by
  induction x generalizing owners here with
  | scalar s => exact .cons ⟨rfl, counterpart_alone hgrown hcopies hknown owners⟩ .nil
  | function f => exact .cons ⟨rfl, counterpart_alone hgrown hcopies hknown owners⟩ .nil
  | branch role info policy cs ih =>
    rw [nodes_eq, nodes_eq, children_duplicated, List.flatMap_map]
    refine .cons ⟨rfl, counterpart_alone hgrown hcopies hknown owners⟩ ?_
    -- child by child, each with what it owns and leads to
    apply List.rel_flatten
    rw [List.forall₂_map_left_iff, List.forall₂_map_right_iff, List.forall₂_same]
    intro c hc
    rw [name_duplicated]
    refine ih c hc (fun id hid => hcopies id ?_) (fun id hid => hknown id ?_) _ _
    · refine List.mem_append_left _ ?_
      rw [ownedAll_eq_flatMap]
      exact List.mem_flatMap.2 ⟨c, hc, hid⟩
    · refine List.mem_append_right _ ?_
      rw [objectsAll_eq_flatMap]
      exact List.mem_flatMap.2 ⟨c, hc, hid⟩

/-! ## §4. Objects of a clone. -/

/-- A clone `y` owns no object twice: `y.owned` has no duplicates. -/
theorem nodup_owned_clone {x y : Symbol} (hrun : (x.tryClone.run w).1 = .ok y) : y.owned.Nodup := by
  refine List.nodup_iff_count_le_one.2 fun id => ?_
  -- each object that the clone owns is alive, once, besides all that was alive before
  have hcount := (x.tryClone_moves w).2 w.alive (fun _ => rfl) id
  rw [hrun] at hcount
  have hle := (x.tryClone.run w).2.alive_le_one id
  show y.owned.count id ≤ 1
  simp only [Effect.onSuccess] at hcount
  omega

variable {x : Symbol} {made : Nat}

/-- **An object `id` that a binding `b` of a duplicate owns is that of no other binding `c`.** -/
theorem exclusive_duplicated (hx : x.Coherent) (hnodup : (x.duplicated g []).owned.Nodup)
    (hknown : ∀ id ∈ x.objects, id.index < made) (hnew : ∀ id ∈ x.owned, made ≤ (g id).index)
    {js ks : List String} {b c : Symbol} {id : ObjectId} {h : Handle}
    (hb : (x.duplicated g []).At js b) (hc : (x.duplicated g []).At ks c) (hne : js ≠ ks)
    (hbid : b.ownedHere? = some id) (hch : c.handle? = some h) : h.id ≠ id := by
  rintro rfl
  obtain ⟨z, hz⟩ := at_of_duplicated hc
  obtain ⟨owners, hat, -⟩ := at_duplicated hx hz g []
  rw [(coherent_duplicated hx g []).at_unique hc hat] at hch
  rcases z with _ | _ | ⟨_ | _ | ⟨old, owned⟩, info, policy, cs⟩
  · cases hch
  · cases hch
  · cases hch
  · cases hch
  · cases owned with
    | true =>
      -- both own it, so they are one binding
      cases hch
      exact hne (owner_unique hnodup hb hat hbid rfl)
    | false =>
      -- the other borrows an object that there was before
      cases hch
      have hlow : old.index < made :=
        hknown old (mem_objects_iff.2 ⟨ks, _, hz, List.mem_singleton_self old⟩)
      have hmem : old ∈ (x.duplicated g []).owned := mem_owned_iff.2 ⟨js, b, hb, hbid⟩
      rw [owned_duplicated, List.mem_map] at hmem
      obtain ⟨first, hfirst, heq⟩ := hmem
      have hhigh := hnew first hfirst
      rw [heq] at hhigh
      omega

end Symbol

/-! ## §5. Clones in a session. -/

namespace Session

/-- **Clones are faithful.** For every symbol `x` of every session that a run leads to, and every
clone `y` of it that `tryClone` returns: the clone has the same `nodes` in the same order, each the
`Counterpart` of the original's; in particular what was owned is a new object of the same type and
content (`Handle.Cloned`).  The object that a binding of the clone owns is that of no other binding
of the clone.  While the clone is made the store has `Grown`, so the objects and cells that there
were stay as they were.  The clone is put into the slot `into`, and the other slots, the objects and
the cells of the host are as they were; unless the slot was in use, nothing else happens. -/
theorem clone_faithful (ops : List Operation) (p : Place) (into : String) (x y : Symbol)
    (hx : (after ops).symbol? p = some x)
    (hy : (x.tryClone.run (after ops).quiet.surroundings).1 = .ok y) :
    let s := after ops
    let before := s.quiet.surroundings
    let cloned := (x.tryClone.run before).2
    let s' := (s.step (.clone p into)).2
    List.Forall₂ (fun old new => new.1 = old.1 ∧ Symbol.Counterpart before cloned old.2 new.2)
      (x.nodes .root) (y.nodes .root) ∧
    (∀ js ks b c id h, y.At js b → y.At ks c → js ≠ ks → b.ownedHere? = some id →
      c.handle? = some h → h.id ≠ id) ∧
    Grown before cloned ∧
    s'.slots = s.slots.insert into y ∧ s'.hosts = s.hosts ∧ s'.cells = s.cells ∧
    s'.surroundings =
      (s.slots.get? into).elim cloned fun old => (old.release.run cloned).2 := by
  intro s before cloned s'
  have hsettled : s.Settled := settled_after ops
  have hsound := hsettled.sound.symbol? hx
  have hnodup := Symbol.nodup_owned_clone hy
  obtain ⟨hgrown, hcopies⟩ := x.tryClone_grows before y hy
  have hstep : s' = _ := step_clone hx hy
  obtain ⟨g, rfl, hnew⟩ := hsettled.clone_eq hx hy
  -- the names of the duplicates are those that the clone gives to what it owns
  rw [Symbol.owned_duplicated, List.forall₂_map_right_iff, List.forall₂_same] at hcopies
  refine ⟨Symbol.counterpart_duplicated hgrown hcopies hsound.known [] .root,
    fun js ks b c id h hb hc hne hbid hch => ?_, hgrown, ?_⟩
  · exact Symbol.exclusive_duplicated hsound.coherent hnodup hsound.known hnew hb hc hne hbid hch
  · rw [hstep]
    exact ⟨rfl, rfl, rfl, rfl⟩

theorem clone_faithful_linking :
    ∃ x y, rootAndClone? linking = some (x, y) ∧ x.owned = [⟨0⟩] ∧ y.owned = [⟨1⟩] ∧
      let before := (after linking).quiet.surroundings
      let cloned := (x.tryClone.run before).2
      List.Forall₂ (fun old new => new.1 = old.1 ∧ Symbol.Counterpart before cloned old.2 new.2)
        (x.nodes .root) (y.nodes .root) ∧
      ((after linking).step (.clone ⟨"root", .root⟩ "copy")).2.surroundings = cloned := by
  have howned : (rootAndClone? linking).map (fun c => (c.1.owned, c.2.owned)) =
      some ([⟨0⟩], [⟨1⟩]) := by decide +kernel
  obtain ⟨⟨x, y⟩, hfound, heq⟩ := Option.map_eq_some_iff.1 howned
  obtain ⟨hxown, hyown⟩ := Prod.mk.inj heq
  obtain ⟨hx, hy⟩ := rootAndClone?_eq_some hfound
  obtain ⟨hnodes, -, -, -, -, -, hend⟩ := clone_faithful linking _ "copy" x y hx hy
  -- the slot of the clone was free
  have hfree : (after linking).slots.get? "copy" = none := by decide +kernel
  rw [hfree] at hend
  exact ⟨x, y, hfound, hxown, hyown, hnodes, hend⟩

end Session

end ConfigTree
