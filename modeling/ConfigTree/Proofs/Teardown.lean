import ConfigTree.Proofs.Bindings
import ConfigTree.Proofs.CloneFailure
import ConfigTree.Proofs.DroppingSteps
import ConfigTree.Proofs.PoisonedLocks

/-!
# Teardown

Whatever a tree went through before, dropping a symbol of it destroys the objects of the bindings in
it, each once and in postorder, and no other object; and what still leads to one of them finds
nothing there.  At its end a session drops the symbols in its slots, in the order of the names, and
then destroys what the host holds.

Main results:
  * `Session.Settled.nodup_destroyed`, `Session.Settled.isLive_of_destroyed`,
    `Session.Settled.isLive_of_not_destroyed` — a step destroys no object twice, what it destroys is
    gone after it, and everything else lives on;
  * `Session.Settled.dangles` — what still leads to an object that is gone;
  * `Session.Settled.destroyed_close`, `Session.Settled.isLive_close` — what the end of a session
    destroys, and that nothing outlives it;
  * `Session.dropped_in_postorder` — all this for every session that a run leads to.
-/

namespace ConfigTree

namespace Session

variable {s : Session} {op : Operation} {x : Symbol} {id : ObjectId}

/-! ## §1. What a step leaves alive. -/

/-- An object `id` that a step made was not alive before it, so `alive` and `born` do not count it
both. -/
theorem alive_add_born_le_one (w w' : Surroundings) (id : ObjectId) :
    w.alive id + w.born w' id ≤ 1 := by
  unfold Surroundings.born
  split
  case isTrue hborn =>
    rw [Surroundings.alive_eq_zero_of_made_le hborn.1]
  case isFalse => exact w.alive_le_one id

/-- A step destroys no object twice: `destroyed` has no duplicates. -/
theorem Settled.nodup_destroyed (h : s.Settled) (op : Operation) :
    (s.step op).2.destroyed.Nodup := by
  refine List.nodup_iff_count_le_one.2 fun id => ?_
  have hconserved := h.conserved op id
  have honce := alive_add_born_le_one s.surroundings (s.step op).2.surroundings id
  omega

/-- What a step has `destroyed` is gone after it. -/
theorem Settled.isLive_of_destroyed (h : s.Settled) (hid : id ∈ (s.step op).2.destroyed) :
    (s.step op).2.surroundings.store.isLive id = false := by
  have hconserved := h.conserved op id
  have hpos := List.count_pos_iff.2 hid
  have honce := alive_add_born_le_one s.surroundings (s.step op).2.surroundings id
  have hgone : (s.step op).2.surroundings.alive id = 0 := by omega
  unfold Surroundings.alive at hgone
  simpa using hgone

/-- What a step has not `destroyed` lives on. -/
theorem Settled.isLive_of_not_destroyed (h : s.Settled)
    (hlive : s.surroundings.store.isLive id = true) (hid : id ∉ (s.step op).2.destroyed) :
    (s.step op).2.surroundings.store.isLive id = true := by
  have hconserved := h.conserved op id
  have halive : s.surroundings.alive id = 1 := by rw [Surroundings.alive, hlive]; rfl
  rw [List.count_eq_zero_of_not_mem hid, halive] at hconserved
  have hafter : (s.step op).2.surroundings.alive id ≠ 0 := by omega
  unfold Surroundings.alive at hafter
  simpa using hafter

/-! ## §2. What still leads to a destroyed object. -/

/-- What still leads to the object `id` finds nothing there. -/
structure Dangles (s : Session) (id : ObjectId) : Prop where
  /-- A scalar on a field of the object cannot be read by `get`. -/
  links : ∀ p info f, s.symbol? p = some (.linked info (.field id f)) →
    (s.step (.get p)).1.result = .error (.symbol (.access info.label .dangling))
  /-- An object symbol `o` with a handle on the object has borrowed it, says by `describe` that it
  is not bound, and cannot be read by `nativeGet`. -/
  aliases : ∀ p o h, s.object? p = some o → o.handle? = some h → h.id = id →
    h.owned = false ∧
    (∃ r, (s.step (.describe p)).1.result = .ok (.binding r) ∧ r.bound = false) ∧
    ∀ t, (s.step (.nativeGet p t)).1.result = .error (.symbol (.unbound o.label))

variable {p : Place} {y : Scalar} {o : ObjectBinding}

/-- Reading by `get` a scalar whose storage is out of reach by `barrier?` says so. -/
theorem step_get_of_barrier {e : AccessError} (hy : s.symbol? p = some (.scalar y))
    (he : y.barrier? s.surroundings.store = some e) :
    (s.step (.get p)).1.result = .error (.symbol (.access y.info.label e)) := by
  have hscalar : (Request.scalar p).Finds s.quiet ((s.quiet.symbol? p).bind Symbol.scalar?) :=
    (Request.finds_symbol p).bind fun _ _ => Request.finds_require _ _
  rw [show s.quiet.symbol? p = some (.scalar y) from hy] at hscalar
  have he' : y.barrier? s.quiet.surroundings.store = some e := he
  show ((Request.answer (.get p)).outcome s.quiet).1 = _
  rw [Request.answer, Request.outcome_bind_ok hscalar,
    Request.outcome_bind_ok (Request.outcome_perform _ _), Scalar.run_value,
    Scalar.peek_of_barrier he']
  rfl

theorem outcome_object_of_some (ho : s.object? p = some o) :
    (Request.object p).outcome s.quiet = (.ok o, s.quiet) := by
  have hfinds := Request.finds_object (s := s.quiet) p
  rw [show s.quiet.object? p = some o from ho] at hfinds
  exact hfinds

/-- An object symbol `o` says by `describe` whether its object is alive. -/
theorem step_describe (ho : s.object? p = some o) :
    ∃ r, (s.step (.describe p)).1.result = .ok (.binding r) ∧
      r.bound = o.isBound s.surroundings.store := by
  refine ⟨⟨o.owns, o.isBound s.surroundings.store, (o.describe s.surroundings.store).dump,
    o.handle?.map (Handle.dump s.surroundings.store)⟩, ?_, rfl⟩
  show ((Request.answer (.describe p)).outcome s.quiet).1 = _
  rw [Request.answer, Request.outcome_map, Request.binding,
    Request.outcome_bind_ok (outcome_object_of_some ho)]
  rfl

/-- Reading by `nativeGet` an object that is not bound says so. -/
theorem step_nativeGet_of_unbound (ho : s.object? p = some o)
    (hbound : o.isBound s.surroundings.store = false) (t : NativeType) :
    (s.step (.nativeGet p t)).1.result = .error (.symbol (.unbound o.label)) := by
  have hlive : o.live? s.quiet.surroundings.store = none := by
    show o.live? s.surroundings.store = none
    simpa [ObjectBinding.isBound] using hbound
  have hrefuses : (o.objectAs t).Refuses s.quiet.surroundings (.unbound o.label) := by
    have hobject : o.object.Refuses s.quiet.surroundings (.unbound o.label) := by
      unfold Effect.Refuses ObjectBinding.object
      rw [Effect.run_bind, Effect.run_store, ObjectBinding.peek, hlive]
      rfl
    exact hobject.bind fun _ => rfl
  show ((Request.answer (.nativeGet p t)).outcome s.quiet).1 = _
  rw [Request.answer, Request.outcome_map, Request.nativeGet,
    Request.outcome_bind_ok (outcome_object_of_some ho),
    Request.outcome_bind_ok (Request.outcome_perform _ _), hrefuses]
  rfl

/-- **What still leads to an object `id` that is gone `Dangles`.** -/
theorem Settled.dangles (h : s.Settled) (hid : s.surroundings.store.isLive id = false) :
    s.Dangles id := by
  have hgone : s.surroundings.store.object? id = none := by
    simpa [Store.isLive] using hid
  refine ⟨fun p info f hp => ?_, fun p o hd ho hhd heq => ?_⟩
  · have hbarrier : (Scalar.mk info (.linked (.field id f))).barrier? s.surroundings.store =
        some .dangling := by
      simp [Scalar.barrier?, Link.barrier?, hgone]
    exact step_get_of_barrier hp hbarrier
  · have hbound : o.isBound s.surroundings.store = false := by
      simp [ObjectBinding.isBound, ObjectBinding.live?, hhd, heq, hid]
    obtain ⟨r, hr, hrbound⟩ := step_describe ho
    refine ⟨?_, ⟨r, hr, hrbound.trans hbound⟩, step_nativeGet_of_unbound ho hbound⟩
    -- the object of an owned handle would be alive
    cases howned : hd.owned with
    | false => rfl
    | true =>
      have hmem : id ∈ (Symbol.ofObject o).owned := by
        rw [Symbol.owned_eq]
        refine List.mem_append_right _ (Option.mem_toList.2 ?_)
        rw [← heq]
        exact Symbol.ownedHere?_of_handle? hhd howned
      rw [h.isLive_owned (object?_eq_some.1 ho) id hmem] at hid
      cases hid

/-! ## §3. The end of a session. -/

/-- The surroundings once the symbols in the slots of `s` are dropped. -/
def emptied (s : Session) : Surroundings :=
  ((Symbol.releaseAll s.slots.values).run s.quiet.surroundings).2

/-- The end of a session by `close` drops what is in the slots and destroys then what the host
holds. -/
theorem surroundings_close (s : Session) :
    s.close.2.surroundings = ((s.hosts.values.forM Effect.destroy).run s.emptied).2 := by
  rw [emptied, ← Symbol.forM_release]
  rfl

theorem owned_eq_ownedAll (s : Session) : s.owned = Symbol.ownedAll s.slots.values :=
  (Symbol.ownedAll_eq_flatMap _).symm

theorem emptied_without (s : Session) : s.quiet.surroundings.Without s.owned s.emptied := by
  rw [owned_eq_ownedAll]
  exact Symbol.releaseAll_without (fun c _ => c.release_without) _

theorem hosted_eq_values (s : Session) : s.hosted = s.hosts.values :=
  List.flatMap_singleton' _

/-- What is held at all, `owned` or `hosted`, is held once. -/
theorem Settled.nodup_held (h : s.Settled) : (s.owned ++ s.hosted).Nodup := by
  refine List.nodup_iff_count_le_one.2 fun id => ?_
  rw [List.count_append, h.balance]
  exact s.surroundings.alive_le_one id

/-- What is alive is held, `owned` or `hosted`. -/
theorem Settled.mem_held (h : s.Settled) (hid : s.surroundings.store.isLive id = true) :
    id ∈ s.owned ++ s.hosted := by
  rw [← List.count_pos_iff, List.count_append, h.balance, Surroundings.alive, hid]
  exact Nat.one_pos

/-- **The end of a session** by `close` destroys what the symbols in the slots own, slot by slot,
and then the objects of the host. -/
theorem Settled.destroyed_close (h : s.Settled) : s.close.2.destroyed = s.owned ++ s.hosted := by
  obtain ⟨howned, hhosted, hapart⟩ := List.nodup_append.1 h.nodup_held
  have hfirst : s.emptied.dead = s.owned := by
    rw [owned_eq_ownedAll] at howned ⊢
    refine Symbol.dead_releaseAll (fun id hid => h.sound.isLive (.inr (.inl ?_))) howned
    rw [← owned_eq_ownedAll] at hid
    exact hid
  rw [destroyed, surroundings_close, ← hfirst, ← hosted_eq_values]
  refine Surroundings.dead_destroyAll (fun id hid => ?_) hhosted
  -- no slot owned what the host holds
  rw [(emptied_without s).isLive fun hmem => hapart id hmem id hid rfl]
  exact h.sound.isLive (.inr (.inr hid))

/-- **Nothing outlives a session**: no object is alive after `close`. -/
theorem Settled.isLive_close (h : s.Settled) (id : ObjectId) :
    s.close.2.surroundings.store.isLive id = false := by
  have hwithout := (emptied_without s).trans
    (Surroundings.destroyAll_without s.hosts.values s.emptied)
  rw [← surroundings_close, ← hosted_eq_values] at hwithout
  cases hlive : s.surroundings.store.isLive id with
  | true =>
    rw [Store.isLive, hwithout.object, if_pos (h.mem_held hlive)]
    rfl
  | false =>
    by_cases hid : id ∈ s.owned ++ s.hosted
    · rw [Store.isLive, hwithout.object, if_pos hid]
      rfl
    · rw [hwithout.isLive hid]
      exact hlive

/-! ## §4. Dropped symbols. -/

/-- What it takes to drop the symbol `x`: the session is `s` before, and `s'` afterwards. -/
structure Dropped (s : Session) (x : Symbol) (s' : Session) : Prop where
  /-- The objects that the bindings in the symbol own are `destroyed`, in `postorder`. -/
  order : s'.destroyed = x.postorder.filterMap Symbol.ownedHere?
  /-- An object `id` is `destroyed` exactly if a binding `y` in the symbol owns it. -/
  owners : ∀ id, id ∈ s'.destroyed ↔ ∃ ks y, x.At ks y ∧ y.ownedHere? = some id
  /-- No object is `destroyed` twice. -/
  once : s'.destroyed.Nodup
  /-- For each symbol `y` in it, what its children own goes first, child by child, and at once after
  that its own object. -/
  below : ∀ ks y, x.At ks y →
    y.children.flatMap Symbol.owned ++ y.ownedHere?.toList <:+: s'.destroyed
  /-- Every other object lives on, also if bindings in the symbol have borrowed it. -/
  spared : ∀ id, s.surroundings.store.isLive id = true → id ∉ s'.destroyed →
    s'.surroundings.store.isLive id = true
  /-- What still leads to an object that is `destroyed` finds nothing there. -/
  dangles : ∀ id ∈ s'.destroyed, s'.Dangles id

theorem Settled.dropped (h : s.Settled) (hx : s.Drops op x) : s.Dropped x (s.step op).2 := by
  have howned := h.destroyed_of_drops hx
  have horder := howned.trans x.owned_eq_postorder
  refine ⟨horder, fun id => ?_, h.nodup_destroyed op, fun ks y hy => ?_,
    fun id hlive hid => h.isLive_of_not_destroyed hlive hid, fun id hid => ?_⟩
  · rw [horder, List.mem_filterMap]
    constructor
    · rintro ⟨y, hy, hid⟩
      obtain ⟨ks, hy⟩ := Symbol.mem_postorder.1 hy
      exact ⟨ks, y, hy, hid⟩
    · rintro ⟨ks, y, hy, hid⟩
      exact ⟨y, Symbol.mem_postorder.2 ⟨ks, hy⟩, hid⟩
  · rw [howned, ← Symbol.ownedAll_eq_flatMap, ← Symbol.owned_eq]
    exact Symbol.owned_infix_of_at hy
  · exact (sound_step h op).settled.dangles (h.isLive_of_destroyed hid)

/-- **Symbols are dropped in postorder.** For every session that a run `ops` leads to: whatever
operation `Drops` a symbol `x` of it, by dropping or filling the slot that holds the symbol, by
taking it out of its scope and putting it nowhere, or because a scope refuses it, leaves it
`Dropped`.  It destroys exactly the objects that the bindings in the symbol own, each once, what is
below a symbol before its own object; every other object lives on, and what leads to a destroyed one
afterwards finds nothing there.  The end of the session by `close` drops the symbols in the slots,
in the order of the names, destroys what the host holds, and leaves no object alive. -/
theorem dropped_in_postorder (ops : List Operation) :
    (∀ op x, (after ops).Drops op x → (after ops).Dropped x ((after ops).step op).2) ∧
      (after ops).close.2.destroyed =
        (after ops).slots.values.flatMap (fun x => x.postorder.filterMap Symbol.ownedHere?) ++
          (after ops).hosts.values ∧
      (after ops).close.2.destroyed.Nodup ∧
      ∀ id, (after ops).close.2.surroundings.store.isLive id = false := by
  have hsettled := settled_after ops
  refine ⟨fun op x hx => hsettled.dropped hx, ?_, ?_, hsettled.isLive_close⟩
  · rw [hsettled.destroyed_close, hosted_eq_values, owned_eq_ownedAll, Symbol.ownedAll_eq_flatMap]
    exact congrArg (· ++ _) (List.flatMap_congr fun x _ => x.owned_eq_postorder)
  · rw [hsettled.destroyed_close]
    exact hsettled.nodup_held

/-- A run that registers an object, in it another, and in another slot a binding that borrows the
first, with a scalar `x` on a field of it. -/
def shared : List Operation :=
  [.newScope "root" "root" "" .matchingNames,
    .addObject ⟨"root", .root⟩ "a" "" (some (.own (.record .counter { id := "outer" }))),
    .addObject ⟨"root", ⟨["a"]⟩⟩ "b" "" (some (.own (.record .counter { id := "inner" }))),
    .newObject "alias" "alias" "" (some (.boundAt ⟨"root", ⟨["a"]⟩⟩)),
    .linkField ⟨"alias", .root⟩ "x" "" counterText "5"]

/-- In the run `shared` the inner object goes first, and what leads to the outer one from elsewhere
is left in the air. -/
theorem dropped_in_postorder_shared :
    ((after shared).step (.dropSlot "root")).2.destroyed = [⟨1⟩, ⟨0⟩] ∧
      ((((after shared).step (.dropSlot "root")).2.step (.get ⟨"alias", ⟨["x"]⟩⟩)).1.result =
        .error (.symbol (.access "x" .dangling))) ∧
      (after shared).close.2.destroyed = [⟨1⟩, ⟨0⟩] := by
  have howners : ((after shared).slots.get? "root").map
      (fun x => x.postorder.filterMap Symbol.ownedHere?) = some [⟨1⟩, ⟨0⟩] := by
    decide +kernel
  obtain ⟨x, hx, howned⟩ := Option.map_eq_some_iff.1 howners
  obtain ⟨hdrops, hclose, -⟩ := dropped_in_postorder shared
  have hdropped := hdrops _ x (.slot hx)
  have hfirst : ((after shared).step (.dropSlot "root")).2.destroyed = [⟨1⟩, ⟨0⟩] :=
    hdropped.order.trans howned
  have hheld : (after shared).slots.values.flatMap
      (fun x => x.postorder.filterMap Symbol.ownedHere?) ++ (after shared).hosts.values =
        [⟨1⟩, ⟨0⟩] := by
    decide +kernel
  have hlink : (((after shared).step (.dropSlot "root")).2.symbol? ⟨"alias", ⟨["x"]⟩⟩).bind
      Symbol.scalar? = some ⟨⟨"x", "", some .root⟩, .linked (.field ⟨0⟩ counterText)⟩ := by
    decide +kernel
  obtain ⟨z, hz, hscalar⟩ := Option.bind_eq_some_iff.1 hlink
  rw [Symbol.eq_of_scalar? hscalar] at hz
  exact ⟨hfirst, (hdropped.dangles ⟨0⟩ (hfirst ▸ by decide)).links _ _ _ hz, hclose.trans hheld⟩

end Session

end ConfigTree
