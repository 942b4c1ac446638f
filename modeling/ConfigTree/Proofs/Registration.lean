import ConfigTree.Module
import ConfigTree.Proofs.ObjectAccounts
import ConfigTree.Proofs.Coherence

/-!
# What registration does

A scope that lets a symbol in holds the symbol with all that it owns, and a scope that refuses a
symbol drops it, so nothing that was handed to a registration is lost.  `Symbol.Grows` says what
becomes of the branch: its name and place stay, coherence is kept, and what it owns and leads to is
what it did before and what came in.

Main results:
  * `Scope.receive_moves` — a symbol is let in or dropped;
  * `Scope.insert_admits`, `Scope.addObject_admits`, `Scope.addLinked_admits` — registrations;
  * `ObjectBinding.linkSettings_grows`, `Scope.registerModule_grows` — modules.
-/

namespace ConfigTree

open Effect

/-! ## §1. Growth. -/

/-- The symbol `y` is `x` with more in it: it owns the objects in `hand` in addition, and leads to
some of those in `reach`. -/
structure Symbol.Grows (hand reach : List ObjectId) (x y : Symbol) : Prop where
  /-- Name and place stay. -/
  info : y.info = x.info
  /-- Coherence is kept. -/
  coherent : x.Coherent → y.Coherent
  /-- What is owned in addition. -/
  owned : ∀ id, y.owned.count id = x.owned.count id + hand.count id
  /-- What it leads to. -/
  objects : ∀ id ∈ y.objects, id ∈ x.objects ∨ id ∈ reach

namespace Symbol

variable {hand reach : List ObjectId} {x y z : Symbol}

theorem Grows.refl (reach : List ObjectId) (x : Symbol) : x.Grows [] reach x :=
  ⟨rfl, id, fun _ => rfl, fun _ => .inl⟩

theorem Grows.trans (h : x.Grows [] reach y) (k : y.Grows [] reach z) : x.Grows [] reach z := by
  refine ⟨k.info.trans h.info, k.coherent ∘ h.coherent, fun id => ?_, fun id hid => ?_⟩
  · rw [k.owned, h.owned]
    rfl
  · rcases k.objects id hid with hid | hid
    · exact h.objects id hid
    · exact .inr hid

/-- A symbol with the same `blank` has grown by nothing. -/
theorem Grows.of_blank (h : y.blank = x.blank) : x.Grows [] [] y := by
  refine ⟨info_of_blank h, coherent_of_blank h.symm, fun id => ?_, fun id hid => .inl ?_⟩
  · rw [owned_of_blank h]
    rfl
  · rwa [← objects_of_blank h]

theorem Grows.name (h : x.Grows hand reach y) : y.name = x.name := congrArg Info.name h.info

/-- Another `CopyPolicy` is no growth. -/
theorem grows_policy (c : Scope) (policy : CopyPolicy) :
    (ofScope c).Grows [] [] (ofScope { c with policy := policy }) :=
  ⟨rfl, coherent_of_frame rfl, fun _ => rfl, fun _ => .inl⟩

/-- A branch grows with its scope, whatever its `role`. -/
theorem Grows.branch {c d : Scope} (h : (ofScope c).Grows hand reach (ofScope d)) (role : Role) :
    (branch role c.info c.policy c.children).Grows hand reach
      (branch role d.info d.policy d.children) := by
  -- coherence looks at the children only, so the role can be put in and taken out
  refine ⟨h.info, fun hc => coherent_branch_iff.2 (coherent_branch_iff.1 (h.coherent
    (coherent_branch_iff.2 (coherent_branch_iff.1 hc)))), fun id => ?_, fun id hid => ?_⟩
  · have := h.owned id
    simp only [ofScope, Symbol.owned, List.count_append] at this ⊢
    rw [show Role.scope.owned?.toList = [] from rfl, List.count_nil] at this
    omega
  · rcases List.mem_append.1 hid with hid | hid
    · exact .inl (List.mem_append_left _ hid)
    · exact (h.objects id hid).imp_left (List.mem_append_right _)

/-- By `append`, a scope grows by a coherent symbol that it accepts. -/
theorem grows_append {c : Scope} (hy : y.Coherent) (hplaced : y.info.parent? = some c.info.path)
    (hname : c.refusal? y.name = none) (howned : ∀ id, y.owned.count id = hand.count id)
    (hreach : y.objects ⊆ reach) : (ofScope c).Grows hand reach (ofScope (c.append y)) := by
  refine ⟨rfl, fun hc => Scope.coherent_append hc hy hplaced hname, fun id => ?_, fun id hid => ?_⟩
  · simp only [ofScope, Scope.append, owned, ownedAll_append, ownedAll, List.count_append, howned,
      List.count_nil]
    omega
  · simp only [ofScope, Scope.append, objects, objectsAll_eq_flatMap, List.flatMap_append,
      List.flatMap_cons, List.flatMap_nil, List.append_nil, List.mem_append] at hid ⊢
    rcases hid with hid | hid | hid
    · exact .inl (.inl hid)
    · exact .inl (.inr hid)
    · exact .inr (hreach hid)

end Symbol

/-! ## §2. Letting symbols in. -/

namespace Scope

variable {hand reach : List ObjectId} {c : Scope} {w : Surroundings}

theorem run_receive (c : Scope) (x : Symbol) (w : Surroundings) :
    ((c.receive x).run w).1 = match c.refusal? x.name with
      | some e => .error e
      | none => .ok () := by
  unfold receive
  cases c.refusal? x.name <;> rfl

/-- **By `receive`, a symbol is let in or dropped.** -/
theorem receive_moves (c : Scope) (x : Symbol) :
    Moves x.owned (c.receive x) (onSuccess fun _ => x.owned) := by
  unfold receive
  cases c.refusal? x.name with
  | none => exact .bind (.of_still (still_emit _) _) fun _ => .pure _ rfl
  | some e =>
    refine .bind (.of_still (still_report _) _) fun e => ?_
    exact .bind x.release_moves fun _ => .pure _ rfl

/-- The effect `e` registers something in the scope `c`: what it is handed is in the scope if it
succeeds and destroyed if not. -/
structure Admits (c : Scope) (hand reach : List ObjectId) (e : Effect (Except SymbolError Scope)) :
    Prop where
  /-- What becomes of the objects in hand. -/
  moves : Moves hand e (onSuccess fun _ => hand)
  /-- What becomes of the scope. -/
  grows : ∀ w d, (e.run w).1 = .ok d → (Symbol.ofScope c).Grows hand reach (.ofScope d)

theorem insert_admits (c : Scope) {x : Symbol} (hx : x.Coherent) :
    c.Admits x.owned x.objects (c.insert x) := by
  refine ⟨(c.receive_moves x).map fun r => by cases r <;> rfl, fun w d h => ?_⟩
  have h : ((c.receive x).run w).1.map _ = .ok d := h
  rw [run_receive] at h
  cases hr : c.refusal? x.name with
  | some e =>
    rw [hr] at h
    cases h
  | none =>
    rw [hr] at h
    cases h
    -- what goes in is the symbol with a new place, which owns and leads to the same
    refine Symbol.grows_append (Symbol.coherent_reroot hx _) (by rw [Symbol.info_reroot]; rfl)
      (by rwa [Symbol.name_reroot]) (fun id => by rw [Symbol.owned_reroot]) ?_
    rw [Symbol.objects_reroot]
    exact List.Subset.refl _

theorem addScope_admits (c : Scope) (name description : String) :
    c.Admits [] [] (c.addScope name description) :=
  c.insert_admits (x := .ofScope ⟨⟨name, description, none⟩, c.policy, []⟩) (.of_leaf rfl)

theorem addScalar_admits (c : Scope) (name description : String) (v : Value) :
    c.Admits [] [] (c.addScalar name description v) :=
  c.insert_admits (x := .scalar ⟨⟨name, description, none⟩, .value v⟩) (.of_leaf rfl)

theorem addFunction_admits (c : Scope) (name description : String) (f : Callable)
    (arity? : Option Nat) : c.Admits [] [] (c.addFunction name description f arity?) :=
  c.insert_admits (x := .function ⟨⟨name, description, none⟩, f, arity?⟩) (.of_leaf rfl)

theorem addUnbound_admits (c : Scope) (name description : String) :
    c.Admits [] [] (c.addUnbound name description) :=
  c.insert_admits (x := .ofObject ⟨⟨⟨name, description, none⟩, .matchingNames, []⟩, none⟩)
    (.of_leaf rfl)

/-- A new object symbol bound through `h`, as it is before it enters the scope `c`. -/
def newBinding (c : Scope) (name description : String) (h : Handle) : ObjectBinding :=
  ⟨⟨⟨name, description, none⟩, c.policy, []⟩, some h⟩

theorem receiveObject_moves (c : Scope) (name description : String) (h : Handle) :
    Moves (Role.object (some h)).owned?.toList (c.receiveObject name description h)
      (onSuccess fun _ => (Role.object (some h)).owned?.toList) := by
  refine .bind (.of_still still_store _) fun s => ?_
  refine .bind (.of_still (still_emit _) _) fun _ => ?_
  exact (c.receive_moves (.ofObject (c.newBinding name description h))).map fun r => by
    cases r <;> rfl

/-- An object symbol that `receiveObject` lets in is `newBinding` below the scope, under a name that
is free. -/
theorem run_receiveObject {name description : String} {h : Handle} {o : ObjectBinding}
    (hrun : ((c.receiveObject name description h).run w).1 = .ok o) :
    c.refusal? name = none ∧ o = (c.newBinding name description h).reroot (some c.info.path) := by
  have hrun : ((c.receive (.ofObject (c.newBinding name description h))).run _).1.map _ =
    .ok o := hrun
  rw [run_receive] at hrun
  have hname : (Symbol.ofObject (c.newBinding name description h)).name = name := rfl
  rw [hname] at hrun
  cases hr : c.refusal? name with
  | some e =>
    rw [hr] at hrun
    cases hrun
  | none =>
    rw [hr] at hrun
    exact ⟨rfl, (Except.ok.inj hrun).symm⟩

theorem addObject_admits (c : Scope) (name description : String) (h : Handle) :
    c.Admits (Role.object (some h)).owned?.toList [h.id] (c.addObject name description h) := by
  refine ⟨(c.receiveObject_moves name description h).map fun r => by cases r <;> rfl,
    fun w d hrun => ?_⟩
  have hrun : ((c.receiveObject name description h).run w).1.map _ = .ok d := hrun
  cases ho : ((c.receiveObject name description h).run w).1 with
  | error e =>
    rw [ho] at hrun
    cases hrun
  | ok o =>
    rw [ho] at hrun
    cases hrun
    obtain ⟨hname, rfl⟩ := run_receiveObject ho
    exact Symbol.grows_append (.of_leaf rfl) rfl hname (fun id => rfl) (List.Subset.refl _)

/-! ## §3. Linked scalars. -/

theorem run_ensureVacant (c : Scope) (name : String) (w : Surroundings) :
    (c.ensureVacant name).run w = match c.refusal? name with
      | some e => (.error e, w.emit (.reported e))
      | none => (.ok (), w) := by
  unfold ensureVacant
  cases c.refusal? name <;> rfl

/-- What `addLinked` does: it stops without changing anything, or writes the default through `l` and
inserts the scalar. -/
theorem run_addLinked (c : Scope) (name description : String) (l : Link)
    (default : Except AccessError Value) (w : Surroundings) :
    (∃ e, (c.addLinked name description l default).run w = (.error e, w.emit (.reported e))) ∨
    ∃ w', Surroundings.Written l.objects l.cells w w' ∧
      (c.addLinked name description l default).run w =
        (c.insert (.scalar ⟨⟨name, description, none⟩, .linked l⟩)).run w' := by
  unfold addLinked
  rw [Effect.run_bind, run_ensureVacant]
  cases c.refusal? name with
  | some e => exact .inl ⟨e, rfl⟩
  | none =>
    dsimp only
    rw [Effect.run_bind, Effect.run_store]
    cases hdefault : default with
    | error e => exact .inl ⟨_, rfl⟩
    | ok v =>
      dsimp only [Except.bind]
      -- the default is written before the scalar goes in, so it can still fail here
      cases hwrite : l.write w.store v with
      | error e => exact .inl ⟨_, rfl⟩
      | ok store => exact .inr ⟨w.withStore store, Link.write_written hwrite, rfl⟩

theorem addLinked_admits (c : Scope) (name description : String) (l : Link)
    (default : Except AccessError Value) :
    c.Admits [] l.objects (c.addLinked name description l default) := by
  have hinsert := c.insert_admits (x := .scalar ⟨⟨name, description, none⟩, .linked l⟩)
    (.of_leaf rfl)
  constructor
  · refine Moves.after fun w => ?_
    rcases c.run_addLinked name description l default w with ⟨e, hrun⟩ | ⟨w', hwritten, hrun⟩
    · exact ⟨pure (.error e), _, hrun, still_emit _ w, .pure _ rfl⟩
    -- writing the default is no more than a write, and the scalar owns nothing
    · exact ⟨_, w', hrun, hwritten.still, hinsert.moves⟩
  · intro w d hd
    rcases c.run_addLinked name description l default w with ⟨e, hrun⟩ | ⟨w', hwritten, hrun⟩
    · rw [hrun] at hd
      cases hd
    · rw [hrun] at hd
      exact hinsert.grows w' d hd

end Scope

namespace ObjectBinding

/-- What `linkField` does: it stops without changing anything, or registers a linked scalar in the
scope. -/
theorem run_linkField (o : ObjectBinding) (name description : String) (f : Field)
    (default : f.type.Raw) (w : Surroundings) :
    (∃ e, (o.linkField name description f default).run w = (.error e, w.emit (.reported e))) ∨
    ∃ h, o.handle? = some h ∧ (o.linkField name description f default).run w =
      ((·.map fun s => { o with scope := s }) <$> o.scope.addLinked name description
        (.field h.id f) (f.type.read default)).run w := by
  unfold linkField live
  rw [Effect.run_bind, Effect.run_bind, Effect.run_store]
  cases hl : o.live? w.store with
  | none => exact .inl ⟨_, rfl⟩
  | some h => exact .inr ⟨h, (Option.filter_eq_some_iff.1 hl).1, rfl⟩

theorem linkField_moves (o : ObjectBinding) (name description : String) (f : Field)
    (default : f.type.Raw) :
    Moves [] (o.linkField name description f default) (onSuccess fun _ => []) := by
  refine Moves.after fun w => ?_
  rcases o.run_linkField name description f default w with ⟨e, hrun⟩ | ⟨h, -, hrun⟩
  · exact ⟨pure (.error e), _, hrun, still_emit _ w, .pure _ rfl⟩
  · refine ⟨_, w, hrun, ⟨rfl, fun _ => rfl, rfl⟩, ?_⟩
    have hadmits := o.scope.addLinked_admits name description (.field h.id f) (f.type.read default)
    exact hadmits.moves.map fun r => by cases r <;> rfl

/-- By `linkField`, a scalar on a field of the bound object is registered in the object symbol,
which leads to the object anyway. -/
theorem linkField_grows (o : ObjectBinding) (name description : String) (f : Field)
    (default : f.type.Raw) (w : Surroundings) (o' : ObjectBinding)
    (ho : ((o.linkField name description f default).run w).1 = .ok o') :
    (Symbol.ofObject o).Grows [] (Symbol.ofObject o).objects (.ofObject o') := by
  rcases o.run_linkField name description f default w with ⟨e, hrun⟩ | ⟨h, hh, hrun⟩
  · rw [hrun] at ho
    cases ho
  · have hadmits := o.scope.addLinked_admits name description (.field h.id f)
      (f.type.read default)
    rw [hrun, Effect.run_map] at ho
    cases hd : ((o.scope.addLinked name description (.field h.id f)
        (f.type.read default)).run w).1 with
    | error e =>
      rw [hd] at ho
      cases ho
    | ok d =>
      rw [hd] at ho
      cases ho
      -- the scope has grown by a link to the bound object, to which the branch leads itself
      have hgrows := (hadmits.grows w d hd).branch (.object o.handle?)
      refine ⟨hgrows.info, hgrows.coherent, hgrows.owned, fun id hid => ?_⟩
      refine (hgrows.objects id hid).imp_right fun hid => ?_
      rw [List.mem_singleton.1 hid]
      refine List.mem_append_left _ ?_
      rw [hh]
      exact List.mem_singleton_self _

theorem linkSettings_moves (o : ObjectBinding) (settings : List Setting) :
    Moves [] (o.linkSettings settings) fun _ => [] := by
  induction settings generalizing o with
  | nil => exact .pure _ rfl
  | cons x rest ih =>
    refine .bind (o.linkField_moves x.name x.description x.field x.default) fun r => ?_
    rcases r with e | o'
    · exact .pure _ rfl
    · exact ih o'

/-- However many of the `settings` can be linked, the object symbol grows by them. -/
theorem linkSettings_grows (o : ObjectBinding) (settings : List Setting) (w : Surroundings) :
    (Symbol.ofObject o).Grows [] (Symbol.ofObject o).objects
      (.ofObject ((o.linkSettings settings).run w).1.value) := by
  induction settings generalizing o w with
  | nil => exact .refl _ _
  | cons x rest ih =>
    have hgo := o.linkField_grows x.name x.description x.field x.default w
    rw [linkSettings, Effect.run_bind]
    cases hlinked : ((o.linkField x.name x.description x.field x.default).run w).1 with
    -- the first setting that cannot be linked ends the module
    | error e => exact .refl _ _
    | ok o' =>
      have hfirst := hgo o' hlinked
      have hrest := ih o' ((o.linkField x.name x.description x.field x.default).run w).2
      refine hfirst.trans ⟨hrest.info, hrest.coherent, hrest.owned, fun id hid => ?_⟩
      exact .inl ((hrest.objects id hid).elim (fun h => h) fun h => h)

end ObjectBinding

/-! ## §4. Modules. -/

namespace Scope

/-- To `registerModule` hands nothing on, as the object of the module belongs to the host. -/
theorem registerModule_moves (c : Scope) (id : ObjectId) (t : NativeType)
    (settings : List Setting) : Moves [] (c.registerModule id t settings) fun _ => [] := by
  refine .bind (.of_still still_store _) fun store => ?_
  cases store.read id with
  | error e => exact .pure _ rfl
  | ok n =>
    -- the handle is borrowed, so that a module that is refused drops nothing of the host
    refine .bind (c.receiveObject_moves _ _ ⟨id, false⟩) fun r => ?_
    rcases r with e | o
    · exact .pure _ rfl
    · refine .bind (o.linkSettings_moves settings) fun linked => ?_
      dsimp only
      split
      · exact .bind (.of_still (still_emit _) _) fun _ => .pure _ rfl
      · exact .pure _ rfl

/-- A scope grows by a new object symbol that was let in, whatever was linked in it since. -/
theorem grows_binding {c : Scope} {name description : String} {h : Handle} {o : ObjectBinding}
    (hname : c.refusal? name = none) (howned : h.owned = false)
    (hgrows : (Symbol.ofObject ((c.newBinding name description h).reroot
      (some c.info.path))).Grows [] [h.id] (.ofObject o)) :
    (Symbol.ofScope c).Grows [] [h.id] (.ofScope (c.append (.ofObject o))) := by
  obtain ⟨id, owned⟩ := h
  subst howned
  have hinfo : (Symbol.ofObject o).info = ⟨name, description, some c.info.path⟩ := hgrows.info
  refine Symbol.grows_append (hgrows.coherent (.of_leaf rfl)) ?_ ?_ (fun i => ?_) fun i hi => ?_
  · rw [hinfo]
  · rw [Symbol.name, hinfo]
    exact hname
  · rw [hgrows.owned]
    rfl
  · exact (hgrows.objects i hi).elim (fun h => h) fun h => h

/-- **By `registerModule`, a scope grows by the module**, with the settings that could be linked. -/
theorem registerModule_grows (c : Scope) (id : ObjectId) (t : NativeType)
    (settings : List Setting) (w : Surroundings) :
    (Symbol.ofScope c).Grows [] [id]
      (.ofScope ((c.registerModule id t settings).run w).1.value) := by
  unfold registerModule
  rw [Effect.run_bind, Effect.run_store]
  cases w.store.read id with
  | error e => exact .refl _ _
  | ok n =>
    let title := n.title?.getD (t.registeredName, "")
    have hreceived := @run_receiveObject c w title.1 title.2 ⟨id, false⟩
    dsimp only
    rw [Effect.run_bind]
    revert hreceived
    generalize (c.receiveObject title.1 title.2 ⟨id, false⟩).run w = received
    obtain ⟨e | o, w₁⟩ := received <;> intro hreceived
    · exact .refl _ _
    · obtain ⟨hname, rfl⟩ := hreceived rfl
      have hlinked := ObjectBinding.linkSettings_grows
        ((c.newBinding title.1 title.2 ⟨id, false⟩).reroot (some c.info.path)) settings w₁
      have hgrows := grows_binding hname rfl hlinked
      -- an error on the way is recorded, and the module stays with what was linked before it
      dsimp only
      rw [Effect.run_bind]
      split <;> exact hgrows

end Scope

end ConfigTree
