import ConfigTree.Proofs.Detachment
import ConfigTree.Proofs.CloneFaithfulness
import ConfigTree.Proofs.Ownership
import ConfigTree.Proofs.Postorder

/-!
# Steps that drop symbols

A symbol is dropped when its slot is emptied or filled with another, when it is taken out of its
scope and put nowhere, and when a scope refuses it.  `Session.Drops` says of a step that it drops a
symbol in one of these ways.  Whatever is dropped is in hand by then or in a slot, so its objects
are alive, none of them twice, and they are destroyed in postorder.

Main results:
  * `Request.leads_release`, `Request.leads_refill` — the two ways in which requests drop symbols;
  * `Request.answer_refills`, `Request.answer_refuses` — operations that fill slots, and those that
    are refused;
  * `Session.Settled.destroyed_of_drops` — what a step destroys that drops a symbol.
-/

namespace ConfigTree

open Effect

/-! ## §1. Requests that drop symbols. -/

namespace Request

open Session

variable {α : Type} {start : Surroundings} {hosts : Names ObjectId} {hand kept : List ObjectId}
  {s s' : Session} {p : Place} {name slot : String} {x y : Symbol} {E : Session → Prop}

/-- A request `r` whose outcome is known leads where its outcome is. -/
theorem leads_of_outcome {r : Request α} {a : α} {Q : α → Session → Prop}
    (h : r.outcome s = (.ok a, s')) (hQ : Q a s') : r.Leads s Q E := by
  unfold Leads
  rw [h]
  exact hQ

/-- What a request of a known outcome, `.ok a` and `s'`, `Leads` to holds of the outcome. -/
theorem Leads.of_outcome {r : Request α} {a : α} {Q : α → Session → Prop} (h : r.Leads s Q E)
    (hout : r.outcome s = (.ok a, s')) : Q a s' := by
  unfold Leads at h
  rw [hout] at h
  exact h

/-- **Dropping a symbol `x` in hand** by `release` destroys what it owns, `x.owned`, in
postorder. -/
theorem leads_release {Q : Unit → Session → Prop} (h : s.Sound start hosts (x.owned ++ kept))
    (hQ : ∀ s', s'.destroyed = s.destroyed ++ x.owned → Q () s') :
    (perform x.release).Leads s Q E := by
  refine leads_perform (hQ _ (x.dead_release s.surroundings (fun id hid => ?_) ?_))
  · exact h.isLive (.inl (List.mem_append_left kept hid))
  · exact (List.nodup_append.1 h.nodup_hand).1

/-- **Filling a slot** by `fill` destroys what the symbol in the slot `name` owns, in postorder. -/
theorem leads_refill {Q : Unit → Session → Prop} (h : s.Sound start hosts hand)
    (hQ : ∀ s', s'.destroyed = s.destroyed ++ (s.slots.get? name).elim [] Symbol.owned → Q () s') :
    (fill name x).Leads s Q E := by
  refine Leads.bind (leads_get (Leads.bind (leads_modify ?_)))
  cases hold : s.slots.get? name with
  | none =>
    refine hQ _ ?_
    rw [hold]
    exact (List.append_nil _).symm
  | some old =>
    have howned := owned_sublist_of_slot hold
    refine leads_perform (hQ _ ?_)
    rw [hold]
    refine old.dead_release s.surroundings (fun id hid => ?_) (howned.nodup h.nodup_owned)
    exact h.isLive (.inr (.inl (howned.subset hid)))

/-- A slot that is dropped by `dropSlot` is dropped with what the symbol `x` in it owns. -/
theorem dropSlot_destroys (h : s.Sound start hosts []) (hx : s.slots.get? name = some x) :
    (answer (.dropSlot name)).Leads s (fun _ s' => s'.destroyed = s.destroyed ++ x.owned)
      fun s' => s'.destroyed = s.destroyed ++ x.owned := by
  refine Leads.bind (Leads.bind (Leads.bind (leads_get (leads_require_of_some hx ?_))))
  exact Leads.bind (leads_modify (leads_release (h.eraseSlot hx) fun _ h' => h'))

/-- What comes out of the scope `c` by `remove`: the child `y` without its parent, and the scope
without it. -/
theorem fst_run_remove {c : Scope} {y : Symbol} (hy : c.lookup? name = some y) (w : Surroundings) :
    ((c.remove name).run w).1 =
      some (y.reroot none, { c with children := c.children.eraseP (·.name = name) }) := by
  unfold Scope.remove
  rw [hy]
  rfl

/-- A child `y` that `remove` takes out of its scope and puts nowhere is dropped. -/
theorem remove_destroys {c : Scope} (h : s.Sound start hosts []) (hc : s.scope? p = some c)
    (hy : c.lookup? name = some y) :
    (answer (.remove p name none)).Leads s (fun _ s' => s'.destroyed = s.destroyed ++ y.owned)
      fun s' => s'.destroyed = s.destroyed ++ y.owned := by
  obtain ⟨z, hz, hscope⟩ := scope?_eq_some.1 hc
  obtain ⟨role, rfl⟩ := Symbol.eq_of_scope? hscope
  have hstill := remove_still c name s.surroundings
  have hout := fst_run_remove hy s.surroundings
  refine Leads.map (Leads.bind (leads_scope_of_some hz (Leads.bind (leads_perform ?_))))
  rw [hout]
  refine Leads.bind (leads_putRest (h.still hstill) hz hout fun s' h' _ hsame => ?_)
  rw [← List.append_nil (y.reroot none).owned] at h'
  refine Leads.bind (leads_release h' fun s'' h'' => ?_)
  have hdead : s'.destroyed = s.destroyed := by
    rw [destroyed, hsame]
    exact Surroundings.dead_of_destroyed hstill.destroyed
  rw [Symbol.owned_reroot, hdead] at h''
  exact h''

end Request

/-! ## §2. Slots that are filled. -/

namespace Session

variable {s s' : Session} {op : Operation} {p : Place} {x : Symbol}

/-- The session once an operation has taken out of a tree what it moves: a child has left its scope
by `remove`, or an object symbol is emptied by `take`. -/
def lifted (s : Session) : Operation → Session
  | .remove p name _ => (s.symbol? p).elim s fun x =>
    s.putAt p (x.withChildren (x.children.eraseP (·.name = name)))
  | .take p _ => (s.object? p).elim s fun o =>
    s.putAt p (.ofObject ⟨{ o.scope with children := [] }, none⟩)
  | _ => s

theorem surroundings_putAt (s : Session) (p : Place) (x : Symbol) :
    (s.putAt p x).surroundings = s.surroundings := by
  unfold putAt
  split <;> rfl

theorem slots_putAt (h : s'.slots = s.slots) (p : Place) (x : Symbol) :
    (s'.putAt p x).slots = (s.putAt p x).slots := by
  unfold putAt
  rw [h]
  split
  · rfl
  · exact h

/-- What was recorded of operations before, and `quiet` forgets, makes no difference to the
trees. -/
theorem slots_lifted_quiet (s : Session) (op : Operation) :
    (s.quiet.lifted op).slots = (s.lifted op).slots := by
  cases op with
  | remove p name into? =>
    show ((s.symbol? p).elim s.quiet _).slots = ((s.symbol? p).elim s _).slots
    cases s.symbol? p with
    | none => rfl
    | some x => exact slots_putAt (show s.quiet.slots = s.slots from rfl) p _
  | take p into =>
    show ((s.object? p).elim s.quiet _).slots = ((s.object? p).elim s _).slots
    cases s.object? p with
    | none => rfl
    | some o => exact slots_putAt (show s.quiet.slots = s.slots from rfl) p _
  | _ => rfl

end Session

namespace Request

open Session

variable {start : Surroundings} {hosts : Names ObjectId} {s : Session} {op : Operation}
  {slot : String}

/-- The session `s'` is left with the symbol dropped that was in the `slot` before the slot was
filled. -/
def Refilled (s : Session) (op : Operation) (slot : String) (s' : Session) : Prop :=
  s'.destroyed = s.destroyed ++ ((s.lifted op).slots.get? slot).elim [] Symbol.owned

/-- Getting a handle by `handle` changes no tree and destroys nothing. -/
theorem leads_mapM_handle_kept {origin? : Option Origin} (h : s.Sound start hosts []) :
    (origin?.mapM handle).Leads s (fun _ s' => (∃ hand, s'.Sound start hosts hand) ∧
      s'.slots = s.slots ∧ s'.destroyed = s.destroyed) fun _ => True := by
  have hkept : (∃ hand, s.Sound start hosts hand) ∧ s.slots = s.slots ∧
      s.destroyed = s.destroyed := ⟨⟨[], h⟩, rfl, rfl⟩
  cases origin? with
  | none => exact hkept
  | some origin =>
    refine Leads.map ?_
    cases origin with
    | own n =>
      have hafter := h.performAll (create_moves n)
      refine Leads.bind (leads_perform ?_)
      exact ⟨⟨_, hafter⟩, rfl, rfl⟩
    | host name => exact Leads.bind (leads_host (fun _ _ => hkept) trivial)
    | boundAt p =>
      exact Leads.bind (leads_object (fun _ _ => Leads.bind
        (leads_require (fun _ _ => hkept) trivial)) trivial)

theorem newObject_refills (h : s.Sound start hosts []) (name description : String)
    (origin? : Option Origin) :
    (newObject slot name description origin?).Leads s (fun _ s' => Refilled s
      (.newObject slot name description origin?) slot s') fun _ => True := by
  refine Leads.bind ((leads_mapM_handle_kept h).mono (fun _ mid hmid => ?_) fun _ _ => trivial)
  obtain ⟨⟨hand, hmid⟩, hslots, hdead⟩ := hmid
  refine leads_refill hmid fun s' h' => ?_
  rw [hslots, hdead] at h'
  exact h'

/-- A child that leaves its scope by `remove` for a `slot`: what the slot holds then is dropped
(`Refilled`). -/
theorem remove_refills (h : s.Sound start hosts []) (p : Place) (name : String) :
    (answer (.remove p name (some slot))).Leads s (fun a s' =>
      (Operation.remove p name (some slot)).worked (.ok a) = true →
        Refilled s (.remove p name (some slot)) slot s') fun _ => True := by
  refine Leads.map (Leads.bind (leads_scope (fun role c hc => Leads.bind (leads_perform ?_))
    trivial))
  have hstill := remove_still c name s.surroundings
  cases hy : c.lookup? name with
  | none =>
    unfold Scope.remove
    rw [hy]
    intro hworked
    cases hworked
  | some y =>
    have hout := fst_run_remove hy s.surroundings
    let told : Session := { s with surroundings := ((c.remove name).run s.surroundings).2 }
    let rest : Scope := { c with children := c.children.eraseP (·.name = name) }
    have hput : (putScope p rest).outcome told = (.ok (), told.putAt p
        (.branch role c.info c.policy rest.children)) := outcome_putScope (s := told) hc rfl rest
    have hleads : (putScope p rest).Leads told
        (fun _ s' => s'.Sound start hosts (y.reroot none).owned) fun _ => False :=
      leads_putRest (h.still hstill) hc hout fun s' h' _ _ => h'
    have hmid := hleads.of_outcome hput
    rw [hout]
    refine Leads.bind (leads_of_outcome hput (Leads.bind (leads_refill hmid fun s' h' _ => ?_)))
    have hdead : (told.putAt p (.branch role c.info c.policy rest.children)).destroyed =
        s.destroyed := by
      rw [destroyed, surroundings_putAt]
      exact Surroundings.dead_of_destroyed hstill.destroyed
    have hslots : (told.putAt p (.branch role c.info c.policy rest.children)).slots =
        (s.lifted (.remove p name (some slot))).slots := by
      rw [lifted, hc]
      exact slots_putAt (show told.slots = s.slots from rfl) p _
    rw [hdead, hslots] at h'
    exact h'

/-- An object symbol that `take` empties into a `slot`: what the slot holds then is dropped
(`Refilled`). -/
theorem take_refills (h : s.Sound start hosts []) (p : Place) :
    (take p slot).Leads s (fun _ s' => Refilled s (.take p slot) slot s') fun _ => True := by
  refine Leads.bind (leads_object (fun o ho => Leads.bind (leads_perform ?_)) trivial)
  let told : Session := { s with surroundings := (o.take.run s.surroundings).2 }
  let emptied : Symbol := .ofObject ⟨{ o.scope with children := [] }, none⟩
  have hleads : (put p emptied).Leads told
      (fun _ s' => s'.Sound start hosts (Symbol.ofObject o).owned) fun _ => False :=
    leads_putEmptied (h.still (still_emit (.moved o.label o.owns) s.surroundings)) ho
      fun s' h' _ => h'
  have hmid := hleads.of_outcome (outcome_put p emptied told)
  refine Leads.bind (leads_of_outcome (outcome_put p emptied told)
    (leads_refill hmid fun s' h' => ?_))
  have hdead : (told.putAt p emptied).destroyed = s.destroyed := by
    rw [destroyed, surroundings_putAt]
    rfl
  have hslots : (told.putAt p emptied).slots = (s.lifted (.take p slot)).slots := by
    rw [lifted, object?_eq_some.2 ho]
    exact slots_putAt (show told.slots = s.slots from rfl) p _
  rw [hdead, hslots] at h'
  exact h'

/-- A clone enters a `slot` by `clone`: what the slot holds is dropped (`Refilled`), and the clone
has destroyed nothing. -/
theorem clone_refills (h : s.Sound start hosts []) (p : Place) :
    (clone p slot).Leads s (fun _ s' => Refilled s (.clone p slot) slot s') fun _ => True := by
  refine Leads.bind (leads_symbol (fun x _ => Leads.bind (leads_perform ?_)) trivial)
  have hafter := h.performAll x.tryClone_moves
  have hgrows := x.tryClone_grows s.surroundings
  revert hafter hgrows
  generalize x.tryClone.run s.surroundings = out
  obtain ⟨e | y, w⟩ := out <;> intro hafter hgrows
  · exact trivial
  · refine leads_refill hafter fun s' h' => ?_
    have hdead : Session.destroyed { s with surroundings := w } = s.destroyed :=
      Surroundings.dead_of_destroyed (hgrows y rfl).1.destroyed
    exact h'.trans (congrArg (· ++ _) hdead)

/-- **An operation that `fills?` a slot drops the symbol that is in it by then**: the session is
`Refilled`. -/
theorem answer_refills (h : s.Sound start hosts []) (hop : op.fills? = some slot) :
    (answer op).Leads s (fun a s' => op.worked (.ok a) = true → Refilled s op slot s')
      fun _ => True := by
  have hdone {r : Request Unit} (hr : r.Leads s (fun _ s' => Refilled s op slot s') fun _ => True) :
      (done r).Leads s (fun a s' => op.worked (.ok a) = true → Refilled s op slot s')
        fun _ => True :=
    Leads.bind (hr.mono (fun _ _ h' _ => h') fun _ _ => trivial)
  cases op with
  | newScope | newScalar | newFunction =>
    cases hop
    exact hdone (leads_refill h fun _ h' => h')
  | newLinked =>
    cases hop
    exact hdone (Leads.bind (leads_require (fun _ _ => leads_refill h fun _ h' => h') trivial))
  | newObject _ name description origin? =>
    cases hop
    exact hdone (newObject_refills h name description origin?)
  | remove p name into? =>
    cases hop
    exact remove_refills h p name
  | clone p =>
    cases hop
    exact hdone (clone_refills h p)
  | take p =>
    cases hop
    exact hdone (take_refills h p)
  | _ => cases hop

/-! ## §3. Symbols that are refused. -/

variable {p : Place} {o : Offer} {e : SymbolError}

/-- What comes of a registration that refuses the offer `o` for the obstacle `e`: the symbol is
dropped. -/
theorem settle_destroys {α : Type} {x : Symbol} {eff : Effect (Except SymbolError Scope)}
    (answer : Scope → α) (ht : o.Takes eff s.surroundings) (hd : o.Drops eff s.surroundings)
    (he : o.obstacle? s.surroundings.store = some e)
    (hlive : ∀ id ∈ o.symbol.owned, s.surroundings.store.isLive id = true)
    (hnodup : o.symbol.owned.Nodup) :
    (s.settle p x (eff.run s.surroundings) answer).2.destroyed =
      s.destroyed ++ o.symbol.owned := by
  rw [settle, (ht.1 e he).1]
  exact hd e he hlive hnodup

theorem register_destroys {f : Scope → Effect (Except SymbolError Scope)}
    (hc : s.scope? p = some o.scope) (ht : o.Takes (f o.scope) s.surroundings)
    (hd : o.Drops (f o.scope) s.surroundings) (he : o.obstacle? s.surroundings.store = some e)
    (hlive : ∀ id ∈ o.symbol.owned, s.surroundings.store.isLive id = true)
    (hnodup : o.symbol.owned.Nodup) :
    ((register p f).outcome s).2.destroyed = s.destroyed ++ o.symbol.owned := by
  obtain ⟨x, hx, hc⟩ := scope?_eq_some.1 hc
  rw [outcome_register hx hc]
  exact settle_destroys newestLabel ht hd he hlive hnodup

/-- An object that `addObject` made for a symbol that is refused is destroyed. -/
theorem addObject_destroys {c : Scope} {origin : Origin} {hd : Handle} {name description : String}
    (h : s.Sound start hosts []) (hhd : s.handle? origin = some hd) (hc : s.scope? p = some c)
    (he : (⟨c, .ofObject (c.newBinding name description hd), none⟩ : Offer).obstacle?
      s.surroundings.store = some e) :
    ((addObject p name description (some origin)).outcome s).2.destroyed =
      s.destroyed ++ (Symbol.ofObject (c.newBinding name description hd)).owned := by
  have hleads : (handle origin).Leads s (fun hd s' =>
      s'.Sound start hosts (Role.object (some hd)).owned?.toList) fun s' =>
        s'.Sound start hosts [] := leads_handle h fun _ _ h' _ => h'
  have hmid := hleads.of_outcome (outcome_handle hhd)
  have hdead : (s.reaching origin).destroyed = s.destroyed := by
    cases origin <;> rfl
  -- no default is offered, so the store makes no difference to the obstacle
  have hobstacle : (⟨c, .ofObject (c.newBinding name description hd), none⟩ : Offer).obstacle?
      (s.reaching origin).surroundings.store = some e := by
    rw [Offer.obstacle?_of_none] at he ⊢
    exact he
  rw [outcome_addObject hhd hc, ← hdead]
  exact register_destroys ((scope?_reaching s origin p).trans hc)
    (Offer.takes_addObject c name description hd _) (Offer.drops_addObject c name description hd _)
    hobstacle (fun id hid => hmid.isLive (.inl hid)) hmid.nodup_hand

/-- **An operation drops the symbol that a scope refuses**, that of the offer `o`. -/
theorem answer_refuses (h : s.Sound start hosts []) (ho : s.offer? op = some (p, o))
    (he : o.obstacle? s.surroundings.store = some e) :
    ((answer op).outcome s).2.destroyed = s.destroyed ++ o.symbol.owned := by
  -- most symbols are new and own nothing yet
  have hlive {x : Symbol} (hx : x.owned = []) :
      ∀ id ∈ x.owned, s.surroundings.store.isLive id = true := by simp [hx]
  cases op with
  | addScope | addScalar | addFunction =>
    obtain ⟨rfl, c, hc, rfl⟩ := offering_eq_some.1 ho
    rw [answer, outcome_map]
    exact register_destroys hc (Offer.takes_insert c _ _) (Offer.drops_insert c _ _) he (hlive rfl)
      List.nodup_nil
  | addObject q name description origin? =>
    rw [answer, outcome_map]
    cases origin? with
    | none =>
      obtain ⟨rfl, c, hc, rfl⟩ := offering_eq_some.1 ho
      exact register_destroys hc (Offer.takes_insert c _ _) (Offer.drops_insert c _ _) he
        (hlive rfl) List.nodup_nil
    | some origin =>
      obtain ⟨hd, hhd, ho⟩ := Option.bind_eq_some_iff.1 ho
      obtain ⟨rfl, c, hc, rfl⟩ := offering_eq_some.1 ho
      exact addObject_destroys h hhd hc he
  | linkCell q name description cell default =>
    obtain ⟨⟨id, k⟩, hk, ho⟩ := Option.bind_eq_some_iff.1 ho
    obtain ⟨x, hx, ho⟩ := Option.bind_eq_some_iff.1 ho
    obtain ⟨rfl, c, hc, rfl⟩ := offering_eq_some.1 ho
    rw [answer, outcome_map, outcome_linkCell hk hx]
    exact register_destroys hc (Offer.takes_addLinked (type?_of_content? hk) c name description x)
      (Offer.drops_addLinked c name description _ _ _ _) he (hlive rfl) List.nodup_nil
  | linkField q name description f default =>
    obtain ⟨b, hb, ho⟩ := Option.bind_eq_some_iff.1 ho
    obtain ⟨hd, hbound, ⟨⟩⟩ := Option.bind_eq_some_iff.1 ho
    rw [answer, outcome_done, outcome_linkField hb hbound]
    exact settle_destroys _ (Offer.takes_addLinked (l := .field hd.id f) rfl b.scope name
      description default) (Offer.drops_addLinked b.scope name description _ _ _ _) he (hlive rfl)
      List.nodup_nil
  | insert source q =>
    obtain ⟨x, hx, ho⟩ := Option.bind_eq_some_iff.1 ho
    split at ho
    · cases ho
    · rename_i hapart
      obtain ⟨rfl, c, hc, rfl⟩ := offering_eq_some.1 ho
      rw [answer, outcome_map, outcome_insert hx (by rw [scope?_erase, if_neg hapart, hc])]
      have howned := owned_sublist_of_slot hx
      exact register_destroys (s := { s with slots := s.slots.erase source })
        ((scope?_erase s source _).trans (by rw [if_neg hapart, hc])) (Offer.takes_insert c x _)
        (Offer.drops_insert c x _) he (fun id hid => h.isLive (.inr (.inl (howned.subset hid))))
        (howned.nodup h.nodup_owned)
  | _ => cases ho

end Request

/-! ## §4. What a step destroys. -/

namespace Session

variable {s : Session} {op : Operation} {x : Symbol} {id : ObjectId}

/-- The ways in which an operation drops a symbol. -/
inductive Drops (s : Session) : Operation → Symbol → Prop
  /-- The symbol `x` is in the slot that `dropSlot` drops. -/
  | slot {name : String} {x : Symbol} (hx : s.slots.get? name = some x) :
    Drops s (.dropSlot name) x
  /-- The symbol `x` is taken out of its scope `c` and put nowhere. -/
  | removed {p : Place} {name : String} {c : Scope} {x : Symbol} (hc : s.scope? p = some c)
    (hx : c.lookup? name = some x) : Drops s (.remove p name none) x
  /-- The symbol `x` is in a slot that is filled with another, once the operation has `lifted` what
  it moves. -/
  | overwritten {op : Operation} {slot : String} {x : Symbol} (hop : op.fills? = some slot)
    (hdone : s.succeeds op = true) (hx : (s.lifted op).slots.get? slot = some x) : Drops s op x
  /-- A scope refuses the symbol of the offer `o`. -/
  | refused {op : Operation} {p : Place} {o : Offer} {e : SymbolError}
    (ho : s.offer? op = some (p, o)) (he : o.obstacle? s.surroundings.store = some e) :
    Drops s op o.symbol

/-- Where `answer op` leads if it does its work, `op` leads by `step` if it `succeeds`. -/
theorem step_of_worked {P : Session → Prop} (hdone : s.succeeds op = true)
    (h : (Request.answer op).Leads s.quiet (fun a s' => op.worked (.ok a) = true → P s')
      fun _ => True) : P (s.step op).2 := by
  have hdone : op.worked ((Request.answer op).outcome s.quiet).1 = true := hdone
  show P ((Request.answer op).outcome s.quiet).2
  unfold Request.Leads at h
  generalize (Request.answer op).outcome s.quiet = out at h hdone
  obtain ⟨e | a, s'⟩ := out
  · cases hdone
  · exact h hdone

/-- **A step that `Drops` a symbol `x` destroys what the symbol owns, in postorder, and nothing
else.** -/
theorem Settled.destroyed_of_drops (h : s.Settled) (hx : s.Drops op x) :
    (s.step op).2.destroyed = x.owned := by
  cases hx with
  | slot hx =>
    exact step_of_leads (P := fun s' => s'.destroyed = _) (Request.dropSlot_destroys h.sound hx)
  | removed hc hx =>
    exact step_of_leads (P := fun s' => s'.destroyed = _) (Request.remove_destroys h.sound hc hx)
  | overwritten hop hdone hx =>
    have hrefilled := step_of_worked hdone (Request.answer_refills h.sound hop)
    rw [Request.Refilled, slots_lifted_quiet, hx] at hrefilled
    exact hrefilled
  | refused ho he =>
    have ho' : s.quiet.offer? op = some _ := ho
    exact Request.answer_refuses h.sound ho' he

end Session

end ConfigTree
