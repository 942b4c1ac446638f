import ConfigTree.Proofs.Atomicity
import ConfigTree.Proofs.TreeNames
import ConfigTree.Proofs.SlotReach
import ConfigTree.Proofs.ValueOperations

/-!
# What an operation does to the slots

Seen from the names and places of symbols, an operation can do few things: fill a slot, empty one,
put a symbol at the end of a scope, take one out of a scope, or empty an object symbol.
`Session.Turn` has a constructor for each operation that does one of these, and one for all the
others and for failures.  That every step is such a turn is proved once, along the text of the
requests; invariants that speak of names and places are then proved by cases on the turn.

Main results:
  * `ObjectBinding.linkSettings_appends`, `Scope.registerModule_appends` — modules bring leaves;
  * `Request.answer_turns` — what each request leaves in the slots;
  * `Session.turn_step` — every step is a turn.
-/

namespace ConfigTree

open Effect

/-! ## §1. Operations that succeed. -/

/-- Whether the operation `op` with such an outcome has done its work: it was not refused, and
`remove` found what it was to remove. -/
def Operation.worked (op : Operation) : Except Failure Answer → Bool
  | .error _ => false
  | .ok a => match op, a with
    | remove .., .found none => false
    | _, _ => true

/-- Whether the operation is one that makes, moves or drops symbols. -/
def Operation.rearranges : Operation → Bool
  | newScope .. | newScalar .. | newLinked .. | newFunction .. | newObject .. | dropSlot ..
  | addScope .. | addScalar .. | addFunction .. | addObject .. | linkCell .. | linkField ..
  | insert .. | remove .. | clone .. | take .. | registerModule .. | setupConfig .. => true
  | _ => false

/-- The slot that an operation fills with a new symbol. -/
def Operation.newSlot? : Operation → Option String
  | newScope slot .. | newScalar slot .. | newLinked slot .. | newFunction slot ..
  | newObject slot .. => some slot
  | _ => none

namespace Session

/-- Whether the operation `op` does its work, by `Operation.worked`. -/
def succeeds (s : Session) (op : Operation) : Bool := op.worked (s.step op).1.result

/-- The names of the settings that an operation links, in order; there are none unless it is
`setupConfig` or `registerModule`. -/
def settings (s : Session) : Operation → List String
  | .setupConfig _ t => (t.settings?.getD []).map Setting.name
  | .registerModule host _ =>
    match (s.hosts.get? host).bind s.surroundings.store.object? with
    | some r => (r.native.type.settings?.getD []).map Setting.name
    | none => []
  | _ => []

/-! ## §2. Turns. -/

variable {s s' mid : Session} {op : Operation} {p : Place} {x y z : Symbol}

/-- The slots of `s'` hold trees with the names and places that those of `s` hold, by
`Symbol.frame`. -/
def Alike (s s' : Session) : Prop :=
  ∀ name, (s'.slots.get? name).map Symbol.frame = (s.slots.get? name).map Symbol.frame

/-- The `slot` is filled with `z`, and the other slots are as they were. -/
def Fills (s : Session) (slot : String) (z : Symbol) (s' : Session) : Prop :=
  ∀ name, s'.slots.get? name = if name = slot then some z else s.slots.get? name

/-- The slots `emptied` are emptied, and the other slots are as they were. -/
def Clears (s : Session) (emptied : List String) (s' : Session) : Prop :=
  ∀ name, s'.slots.get? name = if name ∈ emptied then none else s.slots.get? name

/-- The symbol `y` is put at `p` where `x` was, the slots `emptied` are emptied, and the other slots
are as they were. -/
def Puts (s : Session) (p : Place) (x y : Symbol) (emptied : List String) (s' : Session) : Prop :=
  ∃ tree tree', s.slots.get? p.slot = some tree ∧ tree.descend? p.path.segments = some x ∧
    tree.replace? p.path.segments y = some tree' ∧ ∀ name, s'.slots.get? name =
      if name = p.slot then some tree' else if name ∈ emptied then none else s.slots.get? name

/-- The symbols in `new` are leaves, named for the first of the given `names` in their order, or for
all of them. -/
structure Leaves (names : List String) (all : Bool) (new : List Symbol) : Prop where
  /-- The symbols hold no others. -/
  bare : ∀ c ∈ new, c.children = []
  /-- Their names are the first of `names`. -/
  named : new.map Symbol.name <+: names
  /-- There is one for each name, if there are `all`. -/
  complete : all = true → new.map Symbol.name = names

/-- No symbols at all are `Leaves` for all names if there are no names. -/
theorem Leaves.nil {names : List String} {all : Bool} (h : all = true → names = []) :
    Leaves names all [] :=
  ⟨fun _ hc => absurd hc List.not_mem_nil, List.nil_prefix, fun hall => (h hall).symm⟩

/-- Whatever comes of it, some of the symbols in `new` are there. -/
theorem Leaves.some {names : List String} {all : Bool} {new : List Symbol}
    (h : Leaves names all new) : Leaves names false new := ⟨h.bare, h.named, nofun⟩

/-- What an operation, which did its work or did not, does to the slots of the session `s`. -/
inductive Turn (s : Session) : Operation → Bool → Session → Prop
  /-- No symbol is made, moved or dropped: the sessions are `Alike`. -/
  | kept {op : Operation} {done : Bool} {s' : Session} (hop : op.rearranges = true → done = false)
    (h : s.Alike s') : Turn s op done s'
  /-- A `slot` is filled with a new symbol `z`. -/
  | planted {op : Operation} {slot : String} {z : Symbol} {s' : Session}
    (hop : op.newSlot? = some slot) (hz : z.children = []) (hparent : z.info.parent? = none)
    (h : s.Fills slot z s') : Turn s op true s'
  /-- A `slot` is emptied by `dropSlot`. -/
  | dropped {slot : String} {s' : Session} (h : s.Clears [slot] s') :
    Turn s (.dropSlot slot) true s'
  /-- A scope takes the offer `o`. -/
  | entered {op : Operation} {p : Place} {o : Offer} {x : Symbol} {s' : Session}
    (ho : s.offer? op = some (p, o)) (hfree : o.obstacle? s.surroundings.store = none)
    (hx : x.scope? = some o.scope)
    (h : s.Puts p x (x.withScope (o.scope.append o.entered)) op.emptied s') : Turn s op true s'
  /-- A scope refuses the symbol of the slot `source`, which is dropped. -/
  | refused {source : String} {p : Place} {s' : Session} (h : s.Clears [source] s') :
    Turn s (.insert source p) false s'
  /-- A child `y` leaves its scope and is dropped. -/
  | removed {p : Place} {name : String} {x y : Symbol} {s' : Session}
    (hy : x.child? name = some y)
    (h : s.Puts p x (x.withChildren (x.children.eraseP (·.name = name))) [] s') :
    Turn s (.remove p name none) true s'
  /-- A child `y` leaves its scope for a `slot`. -/
  | extracted {p : Place} {name slot : String} {x y : Symbol} {mid s' : Session}
    (hy : x.child? name = some y)
    (h : s.Puts p x (x.withChildren (x.children.eraseP (·.name = name))) [] mid)
    (hfill : mid.Fills slot (y.reroot none) s') : Turn s (.remove p name (some slot)) true s'
  /-- The slot `into` is filled with a clone `z`. -/
  | cloned {p : Place} {into : String} {x z : Symbol} {s' : Session} (hx : s.symbol? p = some x)
    (hz : z.frame = x.frame) (h : s.Fills into z s') : Turn s (.clone p into) true s'
  /-- An object symbol `o` is emptied into the slot `into`. -/
  | taken {p : Place} {into : String} {o : ObjectBinding} {mid s' : Session}
    (h : s.Puts p (.ofObject o) (.ofObject ⟨{ o.scope with children := [] }, none⟩) [] mid)
    (hfill : mid.Fills into (.ofObject o) s') : Turn s (.take p into) true s'
  /-- Settings are linked in the object symbol `o`, up to the first that cannot be linked; their
  scalars are `new`. -/
  | linked {p : Place} {t : NativeType} {o o' : ObjectBinding} {new : List Symbol} {done : Bool}
    {s' : Session} (hinfo : o'.info = o.info)
    (hchildren : o'.scope.children = o.scope.children ++ new)
    (hnew : Leaves (s.settings (.setupConfig p t)) done new)
    (h : s.Puts p (.ofObject o) (.ofObject o') [] s') : Turn s (.setupConfig p t) done s'
  /-- The scope `c` takes a module in with the settings that could be linked, or refuses it. -/
  | installed {host : String} {p : Place} {c d : Scope} {x : Symbol} {new : List Symbol}
    {done : Bool} {s' : Session} (hx : x.scope? = some c) (hinfo : d.info = c.info)
    (hchildren : d.children = c.children ++ new)
    (hnew : new = [] ∧ done = false ∨
      ∃ m, new = [m] ∧ Leaves (s.settings (.registerModule host p)) done m.children)
    (h : s.Puts p x (x.withScope d) [] s') : Turn s (.registerModule host p) done s'

theorem alike_of_slots (h : s'.slots = s.slots) : s.Alike s' := fun name => by rw [h]

/-- A symbol `y` that keeps its `frame` keeps the frames of all trees. -/
theorem Puts.alike (h : s.Puts p x y [] s') (hframe : y.frame = x.frame) : s.Alike s' := by
  obtain ⟨tree, tree', htree, hx, hy, hslots⟩ := h
  intro name
  rw [hslots name]
  by_cases hname : name = p.slot
  · rw [if_pos hname, hname, htree]
    exact congrArg some (Symbol.frame_replace? hy hx hframe)
  · rw [if_neg hname]
    rfl

/-- Overwriting values by `OverwrittenAt` keeps the frames of all trees. -/
theorem OverwrittenAt.alike (h : s.OverwrittenAt p s') : s.Alike s' := by
  rcases h.slots with ⟨hslots, -⟩ | ⟨tree, tree', htree, hslots, hover⟩
  · exact alike_of_slots hslots
  · intro name
    rw [hslots, Names.get?_insert]
    by_cases hname : name = p.slot
    · rw [if_pos hname, hname, htree]
      refine congrArg some ?_
      rw [← Symbol.frame_blank, hover.blank, Symbol.frame_blank]
    · rw [if_neg hname]

end Session

/-! ## §3. Modules. -/

/-- An attempt `out` that was accepted had no error. -/
theorem Attempt.isNone_of_result {α : Type} {out : Attempt α} {u : Unit}
    (h : out.result = .ok u) : out.error?.isNone = true := by
  unfold result at h
  split at h
  · cases h
  · simp [*]

/-- A field that is linked by `linkField` is a `leaf` of its name at the end of the scope. -/
theorem ObjectBinding.linkField_appends {o o' : ObjectBinding} {name description : String}
    {f : Field} {default : f.type.Raw} {w : Surroundings}
    (h : ((o.linkField name description f default).run w).1 = .ok o') :
    ∃ leaf, leaf.children = [] ∧ leaf.name = name ∧
      o' = { o with scope := o.scope.append leaf } := by
  rw [run_linkField_eq] at h
  cases hlive : o.live? w.store with
  | none =>
    rw [hlive] at h
    cases h
  | some hd =>
    rw [hlive] at h
    dsimp only at h
    rw [Scope.run_addLinked_eq] at h
    -- what the name or the storage refuses is no success
    cases hname : o.scope.refusal? name with
    | some e =>
      rw [hname] at h
      cases h
    | none =>
      rw [hname] at h
      cases hwrite : (f.type.read default).bind ((Link.field hd.id f).write w.store) with
      | error e =>
        simp only [hwrite] at h
        cases h
      | ok store =>
        simp only [hwrite] at h
        cases h
        exact ⟨_, rfl, rfl, rfl⟩

/-- **Linking `settings` by `linkSettings` brings `Leaves`**, one for each setting up to the first
that fails. -/
theorem ObjectBinding.linkSettings_appends (o : ObjectBinding) (settings : List Setting)
    (w : Surroundings) :
    let out := ((o.linkSettings settings).run w).1
    out.value.info = o.info ∧ ∃ new, out.value.scope.children = o.scope.children ++ new ∧
      Session.Leaves (settings.map Setting.name) out.error?.isNone new := by
  induction settings generalizing o w with
  | nil => exact ⟨rfl, [], (List.append_nil _).symm, .nil fun _ => rfl⟩
  | cons x rest ih =>
    rw [linkSettings, Effect.run_bind]
    cases hlinked : ((o.linkField x.name x.description x.field x.default).run w).1 with
    | error e => exact ⟨rfl, [], (List.append_nil _).symm, .nil fun hall => by cases hall⟩
    | ok o' =>
      obtain ⟨leaf, hbare, hname, rfl⟩ := linkField_appends hlinked
      obtain ⟨hinfo, new, hchildren, hnew⟩ := ih { o with scope := o.scope.append leaf }
        ((o.linkField x.name x.description x.field x.default).run w).2
      refine ⟨hinfo, leaf :: new, ?_, ?_, ?_, fun hall => ?_⟩
      · rw [hchildren, Scope.append, List.append_assoc, List.singleton_append]
      · intro c hc
        rcases List.mem_cons.1 hc with rfl | hc
        · exact hbare
        · exact hnew.bare c hc
      · rw [List.map_cons, List.map_cons, hname, List.cons_prefix_cons]
        exact ⟨rfl, hnew.named⟩
      · rw [List.map_cons, List.map_cons, hname, hnew.complete hall]

/-- **A module brings one symbol by `registerModule`**, which holds the settings that could be
linked, or none. -/
theorem Scope.registerModule_appends (c : Scope) (id : ObjectId) (t : NativeType)
    (settings : List Setting) (w : Surroundings) :
    let out := ((c.registerModule id t settings).run w).1
    out.value.info = c.info ∧ ∃ new, out.value.children = c.children ++ new ∧
      (new = [] ∧ out.error?.isNone = false ∨ ∃ m, new = [m] ∧
        Session.Leaves (settings.map Setting.name) out.error?.isNone m.children) := by
  unfold registerModule
  rw [Effect.run_bind, Effect.run_store]
  cases w.store.read id with
  | error e => exact ⟨rfl, [], (List.append_nil _).symm, .inl ⟨rfl, rfl⟩⟩
  | ok n =>
    let title := n.title?.getD (t.registeredName, "")
    have hreceived := @run_receiveObject c w title.1 title.2 ⟨id, false⟩
    dsimp only
    rw [Effect.run_bind]
    revert hreceived
    generalize (c.receiveObject title.1 title.2 ⟨id, false⟩).run w = received
    obtain ⟨e | o, w₁⟩ := received <;> intro hreceived
    · exact ⟨rfl, [], (List.append_nil _).symm, .inl ⟨rfl, rfl⟩⟩
    · obtain ⟨-, rfl⟩ := hreceived rfl
      obtain ⟨-, new, hchildren, hnew⟩ := ObjectBinding.linkSettings_appends
        ((c.newBinding title.1 title.2 ⟨id, false⟩).reroot (some c.info.path)) settings w₁
      -- the module holds nothing before its settings are linked
      have hnil : ((c.newBinding title.1 title.2 ⟨id, false⟩).reroot
          (some c.info.path)).scope.children = [] := rfl
      rw [hnil, List.nil_append] at hchildren
      rw [← hchildren] at hnew
      dsimp only
      rw [Effect.run_bind]
      split <;> exact ⟨rfl, [_], rfl, .inr ⟨_, rfl, hnew⟩⟩

namespace Request

open Session

variable {α : Type} {s : Session} {op : Operation} {E : Session → Prop}

/-! ## §4. What requests leave in the slots. -/

/-- A request `r` that is `Steady` leads to where the slots are as they were. -/
theorem Steady.leads {r : Request α} {Q : α → Session → Prop} (hr : r.Steady)
    (hQ : ∀ a s', s'.slots = s.slots → Q a s') (hE : ∀ s', s'.slots = s.slots → E s') :
    r.Leads s Q E := by
  have h := hr s
  unfold Leads
  revert h
  generalize r.outcome s = out
  obtain ⟨e | a, s'⟩ := out <;> intro h
  · exact hE s' h
  · exact hQ a s' h

theorem leads_fills {name : String} {x : Symbol} {Q : Unit → Session → Prop}
    (hQ : ∀ s', s.Fills name x s' → Q () s') : (fill name x).Leads s Q E := by
  have hfills (w : Surroundings) :
      s.Fills name x { s with slots := s.slots.insert name x, surroundings := w } :=
    fun other => Names.get?_insert ..
  refine Leads.bind (leads_get (Leads.bind (leads_modify ?_)))
  cases s.slots.get? name with
  | none => exact hQ _ (hfills _)
  | some old => exact leads_perform (hQ _ (hfills _))

theorem leads_puts {p : Place} {x y : Symbol} {Q : Unit → Session → Prop}
    (hx : s.symbol? p = some x) (hQ : ∀ s', s.Puts p x y [] s' → Q () s') :
    (put p y).Leads s Q E := by
  obtain ⟨tree, htree, hdescend⟩ := symbol?_eq_some.1 hx
  obtain ⟨tree', hreplace⟩ := Symbol.replace?_of_descend? hdescend y
  refine leads_modify (hQ _ ⟨tree, tree', htree, hdescend, hreplace, fun name => ?_⟩)
  rw [htree, Option.bind_some, hreplace]
  simp

theorem leads_putsScope {p : Place} {x : Symbol} {c d : Scope} {Q : Unit → Session → Prop}
    (hx : s.symbol? p = some x) (hc : x.scope? = some c)
    (hQ : ∀ s', s.Puts p x (x.withScope d) [] s' → Q () s') : (putScope p d).Leads s Q E := by
  obtain ⟨role, rfl⟩ := Symbol.eq_of_scope? hc
  exact Leads.bind (leads_branch_of_some hx (leads_puts hx hQ))

/-- Wherever the request `r` ends, it has done to the slots what the operation `op` does by
`Turn`. -/
def Turns (r : Request Answer) (op : Operation) (s : Session) : Prop :=
  r.Leads s (fun a s' => s.Turn op (op.worked (.ok a)) s') fun s' => s.Turn op false s'

theorem kept_of_slots {s' : Session} (h : s'.slots = s.slots) : s.Turn op false s' :=
  .kept (fun _ => rfl) (alike_of_slots h)

/-- A request `r` that is `Steady` does what an operation that `rearranges` nothing does. -/
theorem Steady.turns {r : Request Answer} (hr : r.Steady) (hop : op.rearranges = false)
    (s : Session) : r.Turns op s := by
  have hkept (done : Bool) (s' : Session) (h : s'.slots = s.slots) : s.Turn op done s' :=
    .kept (fun hmoves => by rw [hop] at hmoves; cases hmoves) (alike_of_slots h)
  exact hr.leads (fun _ => hkept _) (hkept false)

/-- An operation that is done as soon as its request `r` is. -/
theorem turns_done {r : Request Unit} (hworked : op.worked (.ok .done) = true)
    (h : r.Leads s (fun _ s' => s.Turn op true s') fun s' => s.Turn op false s') :
    (done r).Turns op s := by
  refine Leads.bind (h.mono (fun _ s' h' => ?_) fun _ h' => h')
  show s.Turn op (op.worked (.ok .done)) s'
  rwa [hworked]

/-- An operation that overwrites a node, by `Operation.overwritesAt?`, `Turns`. -/
theorem overwrites_turns {p : Place} (h : op.overwritesAt? = some p) (s : Session) :
    (answer op).Turns op s := by
  have hop : op.rearranges = false := by
    cases op <;> first | rfl | cases h
  have hkept (done : Bool) (s' : Session) (hover : s.OverwrittenAt p s') : s.Turn op done s' :=
    .kept (fun hmoves => by rw [hop] at hmoves; cases hmoves) hover.alike
  exact (Request.answer_overwrites h s).mono (fun _ => hkept _) (hkept false)

/-- An operation that fills the slot `newSlot?` with a new symbol `z`. -/
theorem plants_turns {slot : String} {z : Symbol} (hop : op.newSlot? = some slot)
    (hz : z.children = []) (hparent : z.info.parent? = none) :
    (fill slot z).Leads s (fun _ s' => s.Turn op true s') fun s' => s.Turn op false s' :=
  leads_fills fun _ h => .planted hop hz hparent h

theorem steady_handle (origin : Origin) : (handle origin).Steady := by
  cases origin with
  | own n => exact (steady_perform _).bind fun _ _ => rfl
  | host name => exact (silent_host name).steady.bind fun _ _ => rfl
  | boundAt p =>
    refine (silent_object p).steady.bind fun _ => ?_
    exact (silent_require _ _).steady.bind fun _ _ => rfl

theorem steady_mapM_handle (origin? : Option Origin) : (origin?.mapM handle).Steady := by
  cases origin? with
  | none => exact fun _ => rfl
  | some origin => exact (steady_handle origin).map some

theorem newObject_turns (slot name description : String) (origin? : Option Origin) (s : Session) :
    (answer (.newObject slot name description origin?)).Turns
      (.newObject slot name description origin?) s := by
  refine turns_done rfl (Leads.bind ((steady_mapM_handle origin?).leads (fun hd? s' hslots => ?_)
    fun s' => kept_of_slots))
  refine leads_fills fun s'' h => ?_
  have hfills : s.Fills slot (.ofObject ⟨⟨detached name description, .matchingNames, []⟩, hd?⟩)
      s'' := fun other => by rw [h other, hslots]
  exact .planted rfl rfl rfl hfills

theorem newLinked_turns (slot name description cellName : String) (s : Session) :
    (answer (.newLinked slot name description cellName)).Turns
      (.newLinked slot name description cellName) s :=
  turns_done rfl (Leads.bind (leads_require (fun _ _ => plants_turns rfl rfl rfl)
    (kept_of_slots rfl)))

theorem dropSlot_turns (slot : String) (s : Session) :
    (answer (.dropSlot slot)).Turns (.dropSlot slot) s := by
  refine turns_done rfl (Leads.bind (leads_slot (fun x _ => ?_) (kept_of_slots rfl)))
  refine Leads.bind (leads_modify (leads_perform (.dropped fun name => ?_)))
  simp

theorem setPolicy_turns (p : Place) (policy : CopyPolicy) (s : Session) :
    (answer (.setPolicy p policy)).Turns (.setPolicy p policy) s := by
  refine turns_done rfl (Leads.bind (leads_scope (fun role c hc => ?_) (kept_of_slots rfl)))
  exact leads_putsScope hc rfl fun s' h => .kept nofun (h.alike rfl)

/-- What leaves a scope by `remove` is the child called `name`, detached, and the others stay in
their order. -/
theorem remove_turns (p : Place) (name : String) (into? : Option String) (s : Session) :
    (answer (.remove p name into?)).Turns (.remove p name into?) s := by
  refine Leads.map (Leads.bind (leads_scope (fun role c hc => Leads.bind (leads_perform ?_))
    (kept_of_slots rfl)))
  unfold Scope.remove
  cases hy : c.lookup? name with
  | none => exact kept_of_slots rfl
  | some y =>
    refine Leads.bind (leads_putsScope hc rfl fun mid hmid => ?_)
    cases into? with
    | none => exact Leads.bind (leads_perform (.removed (x := .branch role c.info c.policy
        c.children) hy hmid))
    | some slot =>
      exact Leads.bind (leads_fills fun s' h => .extracted (x := .branch role c.info c.policy
        c.children) hy hmid h)

theorem clone_turns {start : Surroundings} {hosts : Names ObjectId}
    (h : s.Sound start hosts []) (p : Place) (into : String) :
    (answer (.clone p into)).Turns (.clone p into) s := by
  refine turns_done rfl (Leads.bind (leads_symbol (fun x hx => Leads.bind (leads_perform ?_))
    (kept_of_slots rfl)))
  have hsound := h.symbol? hx
  have hclone := x.tryClone_eq_duplicated s.surroundings
  revert hclone
  generalize x.tryClone.run s.surroundings = out
  obtain ⟨e | z, w⟩ := out <;> intro hclone
  · exact kept_of_slots rfl
  · obtain ⟨g, rfl, -⟩ := hclone z rfl (fun id hid => hsound.known id (x.owned_subset_objects hid))
      (h.nodup_owned_symbol? hx)
    exact leads_fills fun s' hfill => .cloned hx (Symbol.frame_duplicated g [] x) hfill

theorem take_turns (p : Place) (into : String) (s : Session) :
    (answer (.take p into)).Turns (.take p into) s := by
  refine turns_done rfl (Leads.bind (leads_object (fun o ho => Leads.bind (leads_perform ?_))
    (kept_of_slots rfl)))
  refine Leads.bind (leads_puts ho fun mid hmid => ?_)
  exact leads_fills fun s' h => .taken hmid h

theorem setupConfig_turns (p : Place) (t : NativeType) (s : Session) :
    (answer (.setupConfig p t)).Turns (.setupConfig p t) s := by
  refine turns_done rfl (Leads.bind (leads_object (fun o ho => Leads.bind (leads_perform ?_))
    (kept_of_slots rfl)))
  obtain ⟨hinfo, new, hchildren, hnew⟩ :=
    o.linkSettings_appends (t.settings?.getD []) s.surroundings
  refine Leads.bind (leads_puts ho fun s' h => ?_)
  refine leads_accept (fun _ hdone => ?_) (.linked hinfo hchildren hnew.some h)
  rw [Attempt.isNone_of_result hdone] at hnew
  exact .linked hinfo hchildren hnew h

theorem registerModule_turns (host : String) (p : Place) (s : Session) :
    (answer (.registerModule host p)).Turns (.registerModule host p) s := by
  refine Leads.map (Leads.bind (leads_resident (fun id r hid hr => ?_) (kept_of_slots rfl)))
  dsimp only
  cases hsettings : r.native.type.settings? with
  | none => exact kept_of_slots rfl
  | some settings =>
    refine Leads.bind (leads_scope (fun role c hc => Leads.bind (leads_perform ?_))
      (kept_of_slots rfl))
    obtain ⟨hinfo, new, hchildren, hnew⟩ :=
      c.registerModule_appends id r.native.type settings s.surroundings
    have hnames : s.settings (.registerModule host p) = settings.map Setting.name := by
      simp only [Session.settings, hid, Option.bind_some, hr, hsettings, Option.getD_some]
    rw [← hnames] at hnew
    refine Leads.bind (leads_putsScope hc rfl fun s' h => ?_)
    have hinstalled {done : Bool} := @Turn.installed s host p c _
      (.branch role c.info c.policy c.children) new done s' rfl hinfo hchildren
    refine Leads.bind (leads_accept (fun _ hdone => ?_) (hinstalled ?_ h))
    · rw [Attempt.isNone_of_result hdone] at hnew
      exact hinstalled hnew h
    · exact hnew.imp (fun hnone => ⟨hnone.1, rfl⟩) fun ⟨m, hm, hleaves⟩ => ⟨m, hm, hleaves.some⟩

/-! ## §5. Registrations. -/

/-- What `Decides` an offer is a `Turn`: the scope takes it, or refuses it and drops the symbol. -/
theorem turn_of_decides {p : Place} {o : Offer} {result : Except Failure Answer} {s' : Session}
    (ho : s.offer? op = some (p, o)) (h : s.Decides result s' p o op.emptied) :
    s.Turn op (op.worked result) s' := by
  cases hobstacle : o.obstacle? s.surroundings.store with
  | some e =>
    obtain ⟨rfl, hspared⟩ := h.refused e hobstacle
    by_cases hinsert : ∃ source q, op = .insert source q
    · obtain ⟨source, q, rfl⟩ := hinsert
      exact .refused hspared.slots
    -- only an insertion takes its symbol from a slot
    · have hnone : op.emptied = [] := by
        cases op <;> first | rfl | exact absurd ⟨_, _, rfl⟩ hinsert
      refine .kept (fun _ => rfl) fun name => ?_
      rw [hspared.slots name, hnone]
      rfl
  | none =>
    obtain ⟨⟨a, rfl⟩, hentered⟩ := h.taken hobstacle
    obtain ⟨old, x, new, hold, hx, hc, hnew, hslots⟩ := hentered.slots
    have hworked : op.worked (.ok a) = true := by
      cases op <;> first | rfl | cases ho
    rw [hworked]
    exact .entered ho hobstacle hc ⟨old, new, hold, hx, hnew, hslots⟩

/-- Every operation that `Registers` something `Turns`. -/
theorem registers_turns (hop : op.Registers) (s : Session) : (answer op).Turns op s := by
  have hturn : s.Turn op (op.worked ((answer op).outcome s).1) ((answer op).outcome s).2 := by
    have hfailed {failure : Failure} {s' : Session} (hspared : s.Spared s' [] []) :
        s.Turn op (op.worked (.error failure)) s' := by
      refine .kept (fun _ => rfl) fun name => ?_
      rw [hspared.slots name]
      rfl
    cases ho : s.offer? op with
    | some found => exact turn_of_decides ho (answer_decides ho)
    | none =>
      cases hu : s.unbound? op with
      | some b =>
        obtain ⟨hresult, hspared⟩ := answer_unbound hu
        rw [hresult]
        exact hfailed hspared
      | none =>
        obtain ⟨failure, hresult, -, hspared⟩ := answer_declines hop ho hu
        rw [hresult]
        exact hfailed hspared
  unfold Turns Leads
  revert hturn
  generalize (answer op).outcome s = out
  obtain ⟨e | a, s'⟩ := out <;> exact fun h => h

/-! ## §6. All operations. -/

theorem steady_objectSet (p : Place) (field? : Option FieldName) (x : Literal) :
    (objectSet p field? x).Steady := by
  refine (silent_object p).steady.bind fun _ => (steady_perform _).bind fun _ => ?_
  exact (silent_accept _).steady.bind fun _ => steady_acceptSense _

theorem steady_nativeSet (p : Place) (t : NativeType) (field? : Option FieldName) (x : Literal) :
    (nativeSet p t field? x).Steady := by
  refine (silent_object p).steady.bind fun _ => (steady_perform _).bind fun _ => ?_
  exact (silent_acceptTyped _).steady.bind fun _ => steady_acceptSense _

theorem steady_setVar (p : Place) (name : String) (v : Value) : (setVar p name v).Steady := by
  refine (silent_object p).steady.bind fun _ => (steady_perform _).bind fun _ => ?_
  exact (silent_acceptTyped _).steady

theorem steady_getVar (p : Place) (name : String) : (getVar p name).Steady := by
  refine (steady_nativeGet p .organism).bind fun n => ?_
  obtain ⟨_ | _ | _, _⟩ := n <;> exact fun _ => rfl

/-- **What each operation leaves in the slots**: every `answer` `Turns`. -/
theorem answer_turns {start : Surroundings} {hosts : Names ObjectId} (h : s.Sound start hosts [])
    (op : Operation) : (answer op).Turns op s := by
  cases op with
  | newScope | newScalar | newFunction => exact turns_done rfl (plants_turns rfl rfl rfl)
  | newLinked slot name description cell => exact newLinked_turns slot name description cell s
  | newObject slot name description origin? =>
    exact newObject_turns slot name description origin? s
  | dropSlot slot => exact dropSlot_turns slot s
  | addScope | addScalar | addFunction | addObject | linkCell | linkField | insert =>
    refine registers_turns ?_ s
    exact trivial
  | remove p name into? => exact remove_turns p name into? s
  | setPolicy p policy => exact setPolicy_turns p policy s
  | lookup | resolve | lexical | names | kindOf | dump | describe | sameObject =>
    refine Steady.turns (Silent.steady (answer_silent ?_)) rfl s
    exact trivial
  | assign | assignValue | set | copy | copyScope => exact overwrites_turns rfl s
  | clone p into => exact clone_turns h p into
  | take p into => exact take_turns p into s
  | get p =>
    refine Steady.turns ?_ rfl s
    refine (silent_scalar p).steady.bind fun _ => (steady_perform _).bind fun _ => ?_
    exact (silent_accept _).steady.bind fun _ _ => rfl
  | call p args =>
    refine Steady.turns ?_ rfl s
    refine (silent_function p).steady.bind fun _ => (steady_perform _).bind fun _ => ?_
    exact (silent_accept _).steady.bind fun _ _ => rfl
  | nativeGet p t => exact ((steady_nativeGet p t).map _).turns rfl s
  | nativeSet p t field? x => exact (steady_nativeSet p t field? x).done.turns rfl s
  | objectSet p field? x => exact (steady_objectSet p field? x).done.turns rfl s
  | setVar p name v => exact ((steady_setVar p name v).map _).turns rfl s
  | getVar p name => exact ((steady_getVar p name).map _).turns rfl s
  | newHost name n => exact (steady_newHost name n).done.turns rfl s
  | dropHost name => exact (steady_dropHost name).done.turns rfl s
  | hostSet name field? x => exact (steady_hostSet name field? x).done.turns rfl s
  | poisonHost name =>
    exact ((silent_host name).steady.bind fun _ => steady_putStore _).done.turns rfl s
  | hostCopy name source custom => exact ((steady_hostCopy name source custom).map _).turns rfl s
  | newCell name t x => exact (steady_newCell name t x).done.turns rfl s
  | dropCell name => exact (steady_dropCell name).done.turns rfl s
  | cellSet name x => exact (steady_cellSet name x).done.turns rfl s
  | poisonCell name => exact (steady_poisonCell name).done.turns rfl s
  | registerModule host p => exact registerModule_turns host p s
  | setupConfig p t => exact setupConfig_turns p t s

end Request

/-- A `Turn` does not look at what was recorded of operations before, and `quiet` forgets. -/
theorem Session.Turn.of_quiet {s s' : Session} {op : Operation} {done : Bool}
    (h : s.quiet.Turn op done s') : s.Turn op done s' := by
  cases h with
  | kept hop h => exact .kept hop h
  | planted hop hz hparent h => exact .planted hop hz hparent h
  | dropped h => exact .dropped h
  | entered ho hfree hx h => exact .entered ho hfree hx h
  | refused h => exact .refused h
  | removed hy h => exact .removed hy h
  | extracted hy h hfill => exact .extracted hy h hfill
  | cloned hx hz h => exact .cloned hx hz h
  | taken h hfill => exact .taken h hfill
  | linked hinfo hchildren hnew h => exact .linked hinfo hchildren hnew h
  | installed hx hinfo hchildren hnew h => exact .installed hx hinfo hchildren hnew h

/-- **Every `step` is a `Turn`.** -/
theorem Session.turn_step {s : Session} (h : s.Settled) (op : Operation) :
    s.Turn op (s.succeeds op) (s.step op).2 := by
  have hturns := Request.answer_turns h.sound op
  refine Turn.of_quiet ?_
  show s.quiet.Turn op (op.worked ((Request.answer op).outcome s.quiet).1)
    ((Request.answer op).outcome s.quiet).2
  unfold Request.Turns Request.Leads at hturns
  generalize (Request.answer op).outcome s.quiet = out at hturns
  obtain ⟨e | a, s'⟩ := out <;> exact hturns

end ConfigTree
