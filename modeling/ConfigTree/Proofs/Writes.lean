import ConfigTree.Proofs.SlotReach

/-!
# Writes through a tree

The operations that write through a tree change no object but those that the symbol at their place
leads to, and let no slot reach more.  Most other operations do not let a slot reach more either;
those that may bring a symbol or an object to where it was not are named in `Operation.KeepsReach`.

Main results:
  * `Session.object?_of_write` — a write leaves alone what its symbol does not lead to;
  * `Session.reach_step`, `Session.reach_afterwards` — no slot reaches more after a step or a run.
-/

namespace ConfigTree

open Effect

/-! ## §1. Objects that an effect leaves alone. -/

/-- From `w` to `w'`, the objects that are not among `ids` have not changed. -/
def Surroundings.Only (ids : List ObjectId) (w w' : Surroundings) : Prop :=
  ∀ id, id ∉ ids → w'.store.object? id = w.store.object? id

instance (ids : List ObjectId) : IsPreorder Surroundings (Surroundings.Only ids) where
  refl _ _ _ := rfl
  trans _ _ _ h k id hid := (k id hid).trans (h id hid)

theorem Surroundings.Only.mono {ids ids' : List ObjectId} {w w' : Surroundings} (h : Only ids w w')
    (hsub : ids ⊆ ids') : Only ids' w w' :=
  fun id hid => h id fun hmem => hid (hsub hmem)

theorem Surroundings.only_modifyObject (w : Surroundings) {id : ObjectId} {ids : List ObjectId}
    (hid : id ∈ ids) (f : Resident → Option Resident) :
    Only ids w (w.withStore (w.store.modifyObject id f)) := by
  intro other hother
  refine Store.object?_modifyObject_of_ne _ _ ?_
  rintro rfl
  exact hother hid

namespace ObjectBinding

theorem bound_subset_objects (o : ObjectBinding) :
    (Role.object o.handle?).objects ⊆ (Symbol.ofObject o).objects :=
  List.subset_append_left _ _

/-- What `peek` finds through an object symbol is what it is bound to. -/
theorem mem_objects_of_peek {o : ObjectBinding} {s : Store} {id : ObjectId} {n : Native}
    (h : o.peek s = .ok (id, n)) : id ∈ (Role.object o.handle?).objects := by
  unfold peek at h
  cases hl : o.live? s with
  | none =>
    rw [hl] at h
    cases h
  | some handle =>
    rw [hl] at h
    dsimp only at h
    cases hr : s.read handle.id with
    | error e =>
      rw [hr] at h
      cases h
    | ok m =>
      rw [hr] at h
      cases h
      exact mem_objects_of_live? hl

theorem updateObject_only {α : Type} (o : ObjectBinding) (f : Native → α × Native) :
    Keeps (Surroundings.Only (Role.object o.handle?).objects) (o.updateObject f) := by
  intro w
  unfold updateObject object
  rw [Effect.run_bind, Effect.run_bind, Effect.run_store]
  cases hp : o.peek w.store with
  | error e => exact fun _ _ => rfl
  | ok found => exact Surroundings.only_modifyObject w (mem_objects_of_peek hp) _

theorem updateObjectAs_only {α : Type} (o : ObjectBinding) (t : NativeType)
    (f : Native → α × Native) :
    Keeps (Surroundings.Only (Role.object o.handle?).objects) (o.updateObjectAs t f) := by
  intro w
  unfold updateObjectAs object
  rw [Effect.run_bind, Effect.run_bind, Effect.run_store]
  cases hp : o.peek w.store with
  | error e => exact fun _ _ => rfl
  | ok found =>
    obtain ⟨id, n⟩ := found
    have hid := mem_objects_of_peek hp
    by_cases ht : n.type = t
    · simp only [Effect.run_pure, if_pos ht]
      exact Surroundings.only_modifyObject w hid _
    · simp only [Effect.run_pure, if_neg ht]
      exact Surroundings.only_modifyObject w hid _

/-- By `linkField`, only the bound object is written, and the handle is kept. -/
theorem linkField_only (o : ObjectBinding) (name description : String) (f : Field)
    (default : f.type.Raw) (w : Surroundings) :
    Surroundings.Only (Role.object o.handle?).objects w
        ((o.linkField name description f default).run w).2 ∧
      ∀ o', ((o.linkField name description f default).run w).1 = .ok o' →
        o'.handle? = o.handle? := by
  rcases o.run_linkField name description f default w with ⟨e, hrun⟩ | ⟨h, hh, hrun⟩
  · rw [hrun]
    refine ⟨fun _ _ => rfl, fun o' ho' => ?_⟩
    cases ho'
  · rw [hrun, Effect.run_map]
    constructor
    · rcases o.scope.run_addLinked name description (.field h.id f) (f.type.read default) w with
        ⟨e, hadd⟩ | ⟨w', hwritten, hadd⟩
      · rw [hadd]
        exact fun _ _ => rfl
      · rw [hadd]
        -- letting the scalar in writes nothing, so only the default was written
        have hinsert : ((o.scope.insert (.scalar ⟨⟨name, description, none⟩,
            .linked (.field h.id f)⟩)).run w').2.store = w'.store := by
          unfold Scope.insert Scope.receive
          cases o.scope.refusal? (Symbol.name _) <;> rfl
        intro id hid
        rw [hinsert]
        refine hwritten.object id fun hmem => hid ?_
        rw [List.mem_singleton.1 hmem, hh]
        exact List.mem_singleton_self _
    · intro o' ho'
      dsimp only at ho'
      cases hd : ((o.scope.addLinked name description (.field h.id f)
          (f.type.read default)).run w).1 with
      | error e =>
        rw [hd] at ho'
        cases ho'
      | ok d =>
        rw [hd] at ho'
        cases ho'
        rfl

theorem linkSettings_only (o : ObjectBinding) (settings : List Setting) :
    Keeps (Surroundings.Only (Role.object o.handle?).objects) (o.linkSettings settings) := by
  induction settings generalizing o with
  | nil => exact .pure _
  | cons x rest ih =>
    intro w
    obtain ⟨honly, hhandle⟩ := o.linkField_only x.name x.description x.field x.default w
    rw [linkSettings, Effect.run_bind]
    revert honly hhandle
    generalize (o.linkField x.name x.description x.field x.default).run w = linked
    obtain ⟨e | o', w'⟩ := linked <;> intro honly hhandle
    · exact honly
    -- the handle is the same for the other settings
    · have hrest := ih o' w'
      rw [hhandle o' rfl] at hrest
      exact IsTrans.trans _ _ _ honly hrest

end ObjectBinding

/-! ## §2. Requests that write. -/

/-- From `s` to `s'`, no slot reaches more than it did, and no object has changed but what the
symbol at `p` leads to. -/
structure Session.Touches (p : Place) (s s' : Session) : Prop where
  /-- No slot reaches more. -/
  narrower : s.Narrower s'
  /-- Nothing else has changed. -/
  only : Surroundings.Only (s.objectsAt p) s.surroundings s'.surroundings

namespace Request

open Session

variable {α β : Type} {s : Session} {p : Place}

/-- However the request `r` ends, it has written through the symbol at `p` and no more. -/
def WritesAt (p : Place) (r : Request α) : Prop :=
  ∀ s, r.Leads s (fun _ s' => s.Touches p s') fun s' => s.Touches p s'

theorem WritesAt.map {r : Request α} (h : r.WritesAt p) (f : α → β) : (f <$> r).WritesAt p :=
  fun s => Leads.map (h s)

theorem WritesAt.done {r : Request Unit} (h : r.WritesAt p) : (Request.done r).WritesAt p :=
  fun s => Leads.bind ((h s).mono (fun _ _ h => h) fun _ h => h)

theorem WritesAt.narrows {r : Request α} (h : r.WritesAt p) : r.Narrows :=
  fun s => (h s).mono (fun _ _ h => h.narrower) fun _ h => h.narrower

theorem touches_self (p : Place) (s : Session) : s.Touches p s :=
  ⟨narrower_of_slots rfl, fun _ _ => rfl⟩

theorem touches_perform {x : Symbol} {w : Surroundings} (hx : s.symbol? p = some x)
    (hw : Surroundings.Only x.objects s.surroundings w) :
    s.Touches p { s with surroundings := w } := by
  refine ⟨narrower_of_slots rfl, ?_⟩
  rw [objectsAt_eq hx]
  exact hw

/-- **A symbol `old` that is written and put back** as `new`, which leads to no more. -/
theorem leads_putTouches {old new : Symbol} {w : Surroundings}
    {Q : Unit → Session → Prop} {E : Session → Prop} (hold : s.symbol? p = some old)
    (hname : new.name = old.name) (hobjects : new.objects ⊆ old.objects)
    (hw : Surroundings.Only old.objects s.surroundings w)
    (hQ : ∀ s', s.Touches p s' → Q () s') :
    (put p new).Leads { s with surroundings := w } Q E := by
  refine leads_putNarrow hold hname hobjects fun s' hnarrow hsame => hQ s' ⟨hnarrow, ?_⟩
  -- putting the symbol back does not change what was written
  rw [hsame]
  exact (touches_perform hold hw).only

/-- Symbols with the same `blank` lead to the same objects, so one leads to no more than the
other. -/
theorem objects_subset_of_blank {x y : Symbol} (h : x.blank = y.blank) : x.objects ⊆ y.objects := by
  rw [Symbol.objects_of_blank h]
  exact List.Subset.refl _

/-- To `change` a symbol by an effect that `Overwrites` it writes through it. -/
theorem leads_overwrite {x : Symbol} {f : Symbol → Effect (Attempt Symbol)}
    (hx : s.symbol? p = some x) (hf : x.Overwrites (f x)) :
    (change p x f).Leads s (fun _ s' => s.Touches p s') fun s' => s.Touches p s' := by
  obtain ⟨hblank, hwritten⟩ := hf s.surroundings
  refine Leads.bind (leads_perform (Leads.bind ?_))
  exact leads_putTouches hx (Symbol.name_of_blank hblank)
    (objects_subset_of_blank hblank) hwritten.object fun s' h' => leads_accept (fun _ _ => h') h'

theorem assign_writes (p : Place) (target source : Path) :
    (assign p target source).WritesAt p := by
  intro s
  refine Leads.bind (leads_branch (fun x hx => ?_) (touches_self _ s))
  exact leads_overwrite hx (x.assign_overwrites target source)

theorem assignValue_writes (p : Place) (target : Path) (v : Value) :
    (assignValue p target v).WritesAt p := by
  intro s
  refine Leads.bind (leads_branch (fun x hx => ?_) (touches_self _ s))
  exact leads_overwrite hx (x.assignValue_overwrites target v)

theorem set_writes (p : Place) (v : Value) : (set p v).WritesAt p := by
  intro s
  refine Leads.bind (leads_scalar (fun x hx => Leads.bind (leads_perform ?_)) (touches_self _ s))
  obtain ⟨hblank, hwritten⟩ := x.set_overwrites v s.surroundings
  exact Leads.bind (leads_putTouches hx (Symbol.name_of_blank hblank)
    (objects_subset_of_blank hblank) hwritten.object fun s' h' => leads_accept (fun _ _ => h') h')

theorem copy_writes (dst src : Place) : (copy dst src).WritesAt dst := by
  intro s
  have hself := touches_self dst s
  refine Leads.bind (leads_ensureApart ?_ hself)
  refine Leads.bind (leads_symbol (fun x hx => ?_) hself)
  refine Leads.bind (leads_symbol (fun y _ => ?_) hself)
  exact leads_overwrite hx (x.copyFrom_overwrites y)

theorem copyScope_writes (dst src : Place) : (copyScope dst src).WritesAt dst := by
  intro s
  have hself := touches_self dst s
  refine Leads.bind (leads_ensureApart ?_ hself)
  refine Leads.bind (leads_symbol (fun x hx => ?_) hself)
  refine Leads.bind (leads_symbol (fun y _ => ?_) hself)
  refine Leads.bind (leads_require (fun a ha => ?_) hself)
  refine Leads.bind (leads_require (fun b _ => ?_) hself)
  obtain ⟨role, rfl⟩ := Symbol.eq_of_scope? ha
  exact leads_overwrite hx (Symbol.copyScope_overwrites role a b)

/-- An effect `e` on the object bound by `o` writes through `o`. -/
theorem leads_update {o : ObjectBinding} {e : Effect α} {Q : α → Session → Prop}
    {E : Session → Prop} (ho : s.symbol? p = some (.ofObject o))
    (he : Keeps (Surroundings.Only (Role.object o.handle?).objects) e)
    (hQ : ∀ a s', s.Touches p s' → Q a s') : (perform e).Leads s Q E := by
  exact leads_perform (hQ _ _ (touches_perform ho ((he _).mono o.bound_subset_objects)))

theorem nativeSet_writes (p : Place) (t : NativeType) (field? : Option FieldName) (x : Literal) :
    (nativeSet p t field? x).WritesAt p := by
  intro s
  refine Leads.bind (leads_object (fun o ho => Leads.bind ?_) (touches_self _ s))
  exact leads_update ho (o.updateObjectAs_only t _) fun _ _ h' =>
    Leads.bind (leads_acceptTyped (fun _ => leads_acceptSense (fun _ => h') h') h')

theorem objectSet_writes (p : Place) (field? : Option FieldName) (x : Literal) :
    (objectSet p field? x).WritesAt p := by
  intro s
  refine Leads.bind (leads_object (fun o ho => Leads.bind ?_) (touches_self _ s))
  exact leads_update ho (o.updateObject_only _) fun _ _ h' =>
    Leads.bind (leads_accept (fun _ _ => leads_acceptSense (fun _ => h') h') h')

theorem setVar_writes (p : Place) (name : String) (v : Value) : (setVar p name v).WritesAt p := by
  intro s
  refine Leads.bind (leads_object (fun o ho => Leads.bind ?_) (touches_self _ s))
  exact leads_update ho (o.updateObjectAs_only .organism _) fun _ _ h' =>
    leads_acceptTyped (fun _ => h') h'

/-- A symbol that `Grows` within what it led to leads to no more than before. -/
theorem objects_subset_of_grows {x y : Symbol} (h : x.Grows [] x.objects y) :
    y.objects ⊆ x.objects := by
  intro id hid
  exact (h.objects id hid).elim (fun hmem => hmem) fun hmem => hmem

theorem linkField_writes (p : Place) (name description : String) (f : Field)
    (default : f.type.Raw) : (linkField p name description f default).WritesAt p := by
  intro s
  refine Leads.bind (leads_object (fun o ho => Leads.bind (leads_perform ?_)) (touches_self _ s))
  have hgrows := o.linkField_grows name description f default s.surroundings
  have honly := (o.linkField_only name description f default s.surroundings).1
  revert hgrows honly
  generalize (o.linkField name description f default).run s.surroundings = out
  obtain ⟨e | o', w⟩ := out <;> intro hgrows honly
  · exact touches_perform ho (honly.mono o.bound_subset_objects)
  · have hgrow := hgrows o' rfl
    refine leads_putTouches ho hgrow.name (objects_subset_of_grows hgrow)
      (honly.mono o.bound_subset_objects) fun s' h' => h'

theorem setupConfig_writes (p : Place) (settings : List Setting) :
    (setupConfig p settings).WritesAt p := by
  intro s
  refine Leads.bind (leads_object (fun o ho => Leads.bind (leads_perform ?_)) (touches_self _ s))
  have hgrow := o.linkSettings_grows settings s.surroundings
  have honly := o.linkSettings_only settings s.surroundings
  refine Leads.bind (leads_putTouches ho hgrow.name (objects_subset_of_grows hgrow)
    (honly.mono o.bound_subset_objects) fun s' h' => ?_)
  exact leads_accept (fun _ _ => h') h'

end Request

/-! ## §3. Operations. -/

/-- The place of the symbol through which an operation writes, if it is one that writes through a
tree.  A `linkField` counts, because it writes the default. -/
def Operation.writesAt? : Operation → Option Place
  | .assign p .. | .assignValue p .. | .set p _ | .copy p _ | .copyScope p _ => some p
  | .nativeSet p .. | .objectSet p .. | .setVar p .. => some p
  | .linkField p .. | .setupConfig p _ => some p
  | _ => none

/-- Whether the operation brings no symbol and no object to where it was not. -/
def Operation.KeepsReach : Operation → Prop
  | .newObject .. | .addObject .. | .insert .. | .remove _ _ (some _) | .clone .. | .take ..
  | .registerModule .. => False
  | _ => True

namespace Request

/-- **Every operation that writes through a tree, by `writesAt?`, writes through the symbol at its
place and no more.** -/
theorem answer_writes {op : Operation} (h : op.writesAt? = some p) : (answer op).WritesAt p := by
  cases op with
  | assign p target source => cases h; exact (assign_writes p target source).done
  | assignValue p target v => cases h; exact (assignValue_writes p target v).done
  | set p v => cases h; exact (set_writes p v).done
  | copy dst src => cases h; exact (copy_writes _ src).done
  | copyScope dst src => cases h; exact (copyScope_writes _ src).done
  | nativeSet p t field? x => cases h; exact (nativeSet_writes p t field? x).done
  | objectSet p field? x => cases h; exact (objectSet_writes p field? x).done
  | setVar p name v => cases h; exact (setVar_writes p name v).map _
  | linkField p name description f default =>
    cases h
    exact (linkField_writes p name description f default).done
  | setupConfig p t => cases h; exact (setupConfig_writes p _).done
  | _ => cases h

/-- **Every operation that brings nothing anywhere, by `KeepsReach`, lets no slot reach more.** -/
theorem answer_narrows {op : Operation} (hop : op.KeepsReach) : (answer op).Narrows := by
  cases hw : op.writesAt? with
  | some p => exact (answer_writes hw).narrows
  | none =>
    cases op with
    | newScope slot name description policy => exact (fill_narrows rfl).done
    | newScalar slot name description v => exact (fill_narrows rfl).done
    | newLinked slot name description cell =>
      exact (newLinked_narrows slot name description cell).done
    | newFunction slot name description c arity? => exact (fill_narrows rfl).done
    | newObject => exact hop.elim
    | dropSlot slot => exact (dropSlot_narrows slot).done
    | addScope p name description =>
      exact (register_narrows (fun c => c.addScope_admits name description) rfl).map _
    | addScalar p name description v =>
      exact (register_narrows (fun c => c.addScalar_admits name description v) rfl).map _
    | addFunction p name description f arity? =>
      exact (register_narrows (fun c => c.addFunction_admits name description f arity?) rfl).map _
    | addObject => exact hop.elim
    | linkCell p name description cell default =>
      exact (linkCell_narrows p name description cell default).map _
    | insert => exact hop.elim
    | remove p name into? =>
      cases into? with
      | none => exact (remove_narrows p name).map _
      | some slot => exact hop.elim
    | setPolicy p policy => exact (setPolicy_narrows p policy).done
    | lookup | resolve | lexical | names | kindOf | dump | describe | sameObject =>
      exact Steady.narrows (Silent.steady (answer_silent trivial))
    | get p =>
      exact ((silent_scalar p).steady.bind fun _ => (steady_perform _).bind fun _ =>
        (silent_accept _).steady.bind fun _ _ => rfl).narrows
    | clone => exact hop.elim
    | take => exact hop.elim
    | call p args =>
      exact ((silent_function p).steady.bind fun _ => (steady_perform _).bind fun _ =>
        (silent_accept _).steady.bind fun _ _ => rfl).narrows
    | nativeGet p t => exact ((steady_nativeGet p t).map _).narrows
    | getVar p name =>
      refine (Steady.map ((steady_nativeGet p .organism).bind fun n => ?_) _).narrows
      obtain ⟨_ | _ | _, _⟩ := n <;> exact fun _ => rfl
    | newHost name n => exact (steady_newHost name n).done.narrows
    | dropHost name => exact (steady_dropHost name).done.narrows
    | hostSet name field? x => exact (steady_hostSet name field? x).done.narrows
    | poisonHost name =>
      exact (((silent_host name).steady.bind fun _ => steady_putStore _ :
        (poisonHost name).Steady).done).narrows
    | hostCopy name source custom => exact ((steady_hostCopy name source custom).map _).narrows
    | newCell name t x => exact (steady_newCell name t x).done.narrows
    | dropCell name => exact (steady_dropCell name).done.narrows
    | cellSet name x => exact (steady_cellSet name x).done.narrows
    | poisonCell name => exact (steady_poisonCell name).done.narrows
    | registerModule => exact hop.elim
    | _ => cases hw

end Request

namespace Session

variable {s : Session} {op : Operation}

/-- **A write at `p` changes no object but what the symbol there leads to.** -/
theorem object?_of_write {p : Place} (h : op.writesAt? = some p) {id : ObjectId}
    (hid : id ∉ s.objectsAt p) :
    (s.step op).2.surroundings.store.object? id = s.surroundings.store.object? id := by
  have htouches : s.quiet.Touches p (s.step op).2 :=
    step_of_leads (Request.answer_writes h s.quiet)
  exact htouches.only id hid

/-- A write through a symbol that leads to none of the objects `ids` leaves all of these alone. -/
theorem object?_of_apart {p : Place} {reached ids : List ObjectId} (h : op.writesAt? = some p)
    (hwithin : s.objectsAt p ⊆ reached) (hapart : ∀ id ∈ reached, id ∉ ids) :
    ∀ id ∈ ids,
      (s.step op).2.surroundings.store.object? id = s.surroundings.store.object? id := by
  intro id hid
  exact object?_of_write h fun hmem => hapart id (hwithin hmem) hid

/-- **No slot reaches more after an operation that `KeepsReach`.** -/
theorem reach_step (hop : op.KeepsReach) (name : String) :
    (s.step op).2.reach name ⊆ s.reach name := by
  have hnarrower : s.quiet.Narrower (s.step op).2 :=
    step_of_leads (Request.answer_narrows hop s.quiet)
  exact hnarrower name

/-- The session after the run `ops` of operations from `s`. -/
def afterwards (s : Session) (ops : List Operation) : Session :=
  ops.foldl (fun s op => (s.step op).2) s

/-- **No slot reaches more after a run of operations that `KeepsReach`.** -/
theorem reach_afterwards {ops : List Operation} (hops : ∀ op ∈ ops, op.KeepsReach)
    (name : String) : (s.afterwards ops).reach name ⊆ s.reach name := by
  induction ops generalizing s with
  | nil => exact List.Subset.refl _
  | cons op ops ih =>
    have hstep := reach_step (s := s) (hops op List.mem_cons_self) name
    have hrest := ih (s := (s.step op).2) fun op hop => hops op (List.mem_cons_of_mem _ hop)
    exact List.Subset.trans hrest hstep

end Session

end ConfigTree
