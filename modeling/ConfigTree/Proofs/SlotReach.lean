import ConfigTree.Proofs.SoundSteps

/-!
# What a slot reaches

The tree in a slot leads to some objects, its reach.  A request that leaves the slots alone lets
none of them reach more, and neither does one that puts a symbol in place of another that leads to
as much. Both are shown along the text of the request.

Main results:
  * `Request.Steady.bind` — requests in a row that leave the slots alone;
  * `Request.leads_putNarrow` — a symbol in place of one that leads to as much;
  * `Request.fill_narrows`, `Request.register_narrows` — symbols that lead nowhere.
-/

namespace ConfigTree

open Effect

namespace Session

variable {s s' s'' : Session}

/-! ## §1. Reach. -/

/-- The objects that the tree in the slot `name` leads to. -/
def reach (s : Session) (name : String) : List ObjectId :=
  (s.slots.get? name).elim [] Symbol.objects

/-- The objects that the symbol at `p` leads to. -/
def objectsAt (s : Session) (p : Place) : List ObjectId := (s.symbol? p).elim [] Symbol.objects

theorem objectsAt_eq {p : Place} {x : Symbol} (h : s.symbol? p = some x) :
    s.objectsAt p = x.objects := by
  unfold objectsAt
  rw [h]
  rfl

theorem objectsAt_subset_reach (s : Session) (p : Place) : s.objectsAt p ⊆ s.reach p.slot := by
  unfold objectsAt
  cases h : s.symbol? p with
  | none => exact List.nil_subset _
  | some x =>
    obtain ⟨tree, htree, hdescend⟩ := Option.bind_eq_some_iff.1 h
    unfold reach
    rw [htree]
    exact Symbol.objects_subset_of_at (Symbol.at_of_descend? hdescend)

/-- From `s` to `s'`, no slot reaches more than it did. -/
def Narrower (s s' : Session) : Prop := ∀ name, s'.reach name ⊆ s.reach name

theorem narrower_of_slots (h : s'.slots = s.slots) : s.Narrower s' := by
  intro name
  unfold reach
  rw [h]
  exact List.Subset.refl _

theorem narrower_insert {name : String} {x : Symbol} (h : x.objects ⊆ s.reach name) :
    s.Narrower { s with slots := s.slots.insert name x } := by
  intro other
  show (((s.slots.insert name x).get? other).elim [] Symbol.objects) ⊆ s.reach other
  rw [Names.get?_insert]
  split
  case isTrue heq =>
    rw [heq]
    exact h
  case isFalse => exact List.Subset.refl _

theorem narrower_erase (name : String) :
    s.Narrower { s with slots := s.slots.erase name } := by
  intro other
  show (((s.slots.erase name).get? other).elim [] Symbol.objects) ⊆ s.reach other
  rw [Names.get?_erase]
  split
  case isTrue => exact List.nil_subset _
  case isFalse => exact List.Subset.refl _

end Session

namespace Request

open Session

variable {α β : Type} {s s₀ : Session} {E : Session → Prop}

/-! ## §2. Requests that leave the slots alone. -/

/-- The request `r` leaves every slot as it is. -/
def Steady (r : Request α) : Prop := ∀ s, (r.outcome s).2.slots = s.slots

theorem Steady.bind {r : Request α} {f : α → Request β} (hr : r.Steady) (hf : ∀ a, (f a).Steady) :
    (r >>= f).Steady := by
  intro s
  have h := hr s
  rw [outcome_bind]
  revert h
  generalize r.outcome s = out
  obtain ⟨e | a, s'⟩ := out <;> intro h
  · exact h
  · exact (hf a s').trans h

theorem Steady.map {r : Request α} (hr : r.Steady) (f : α → β) : (f <$> r).Steady := by
  rw [map_eq_pure_bind]
  exact hr.bind fun _ _ => rfl

theorem Steady.done {r : Request Unit} (hr : r.Steady) : (Request.done r).Steady :=
  hr.bind fun _ _ => rfl

/-- A `Silent` request leaves the slots alone. -/
theorem Silent.steady {r : Request α} (hr : r.Silent) : r.Steady :=
  fun s => congrArg Session.slots (hr s)

theorem steady_perform (e : Effect α) : (perform e).Steady := fun _ => rfl

theorem steady_acceptSense (r : Except Fault α) : (acceptSense r).Steady := by
  cases r <;> exact fun _ => rfl

theorem steady_acceptAccess (r : Except AccessError α) : (acceptAccess r).Steady := by
  cases r <;> exact fun _ => rfl

theorem steady_putStore (f : Store → Store) :
    (store >>= fun st => perform (Effect.putStore (f st))).Steady :=
  silent_store.steady.bind fun _ => steady_perform _

theorem steady_nativeGet (p : Place) (t : NativeType) : (nativeGet p t).Steady := by
  refine (silent_object p).steady.bind fun _ => (steady_perform _).bind fun _ => ?_
  exact (silent_acceptTyped _).steady

theorem steady_newHost (name : String) (n : Native) : (newHost name n).Steady := by
  refine silent_get.steady.bind fun s => (steady_perform _).bind fun id => ?_
  refine Steady.bind (fun _ => rfl) fun _ => ?_
  cases s.hosts.get? name with
  | none => exact fun _ => rfl
  | some old => exact steady_perform _

theorem steady_dropHost (name : String) : (dropHost name).Steady :=
  (silent_host name).steady.bind fun _ => Steady.bind (fun _ => rfl) fun _ => steady_perform _

theorem steady_hostSet (name : String) (field? : Option FieldName) (x : Literal) :
    (hostSet name field? x).Steady := by
  refine (silent_resident name).steady.bind fun found => ?_
  dsimp only
  split
  · exact fun _ => rfl
  · exact (steady_acceptSense _).bind fun _ => steady_putStore _

theorem steady_hostCopy_replace (id : ObjectId) (n? : Option Native) :
    (hostCopy.replace id n?).Steady := by
  cases n? with
  | none => exact fun _ => rfl
  | some n => exact silent_store.steady.bind fun _ => (steady_perform _).bind fun _ _ => rfl

theorem steady_hostCopy (name source : String) (custom : Bool) :
    (hostCopy name source custom).Steady := by
  refine (silent_host name).steady.bind fun dst => (silent_host source).steady.bind fun src => ?_
  refine silent_store.steady.bind fun st => (steady_acceptAccess _).bind fun a => ?_
  refine (steady_acceptAccess _).bind fun b => ?_
  cases custom with
  | false => exact steady_hostCopy_replace dst _
  | true =>
    rw [if_pos rfl]
    cases a.describe.strategy? with
    | none => exact fun _ => rfl
    | some strategy => exact steady_hostCopy_replace dst _

theorem steady_newCell (name : String) (t : StorageType) (x : t.Raw) : (newCell name t x).Steady :=
  silent_store.steady.bind fun _ => (steady_perform _).bind fun _ _ => rfl

theorem steady_dropCell (name : String) : (dropCell name).Steady :=
  (silent_cell name).steady.bind fun _ _ => rfl

theorem steady_cellSet (name : String) (x : Literal) : (cellSet name x).Steady := by
  refine (silent_content name).steady.bind fun found => ?_
  dsimp only
  split
  · exact fun _ => rfl
  · cases found.2.type.parse? x with
    | none => exact fun _ => rfl
    | some raw => exact steady_putStore _

theorem steady_poisonCell (name : String) : (poisonCell name).Steady :=
  (silent_content name).steady.bind fun _ => steady_putStore _

/-! ## §3. Requests that let no slot reach more. -/

/-- However the request `r` ends, no slot reaches more than it did. -/
def Narrows (r : Request α) : Prop :=
  ∀ s, r.Leads s (fun _ s' => s.Narrower s') fun s' => s.Narrower s'

theorem Steady.narrows {r : Request α} (hr : r.Steady) : r.Narrows := by
  intro s
  have h := hr s
  unfold Leads
  revert h
  generalize r.outcome s = out
  obtain ⟨e | a, s'⟩ := out <;> intro h <;> exact narrower_of_slots h

theorem Narrows.map {r : Request α} (h : r.Narrows) (f : α → β) : (f <$> r).Narrows :=
  fun s => Leads.map (h s)

theorem Narrows.done {r : Request Unit} (h : r.Narrows) : (Request.done r).Narrows :=
  fun s => Leads.bind ((h s).mono (fun _ _ h => h) fun _ h => h)

/-- **To `put` a symbol `new` in place of one that leads to as much** lets no slot reach more. -/
theorem leads_putNarrow {p : Place} {old new : Symbol} {Q : Unit → Session → Prop}
    (hold : s.symbol? p = some old) (hname : new.name = old.name)
    (hobjects : new.objects ⊆ old.objects)
    (hQ : ∀ s', s.Narrower s' → s'.surroundings = s.surroundings → Q () s') :
    (put p new).Leads s Q E := by
  have hreach := s.objectsAt_subset_reach p
  rw [objectsAt_eq hold] at hreach
  obtain ⟨tree, htree, hdescend⟩ := Option.bind_eq_some_iff.1 hold
  obtain ⟨tree', hreplace⟩ := Symbol.replace?_of_descend? hdescend new
  -- what the tree leads to now it led to before, or the old symbol did
  have hnarrow : tree'.objects ⊆ s.reach p.slot := by
    intro id hid
    rcases Symbol.objects_replace? hreplace hdescend hname id hid with hid | hid
    · unfold reach
      rw [htree]
      exact hid
    · exact hreach (hobjects hid)
  refine leads_modify ?_
  rw [htree, Option.bind_some, hreplace]
  exact hQ _ (narrower_insert hnarrow) rfl

/-- To `putScope` another scope in the same role, which leads to no more. -/
theorem leads_putScopeNarrow {p : Place} {role : Role} {c d : Scope} {hand : List ObjectId}
    {Q : Unit → Session → Prop}
    (hold : s.symbol? p = some (.branch role c.info c.policy c.children))
    (hgrows : (Symbol.ofScope c).Grows hand [] (.ofScope d))
    (hQ : ∀ s', s.Narrower s' → s'.surroundings = s.surroundings → Q () s') :
    (putScope p d).Leads s Q E := by
  have hbranch := hgrows.branch role
  refine Leads.bind (leads_branch_of_some hold ?_)
  refine leads_putNarrow hold hbranch.name (fun id hid => ?_) hQ
  exact (hbranch.objects id hid).resolve_right List.not_mem_nil

/-- **To `fill` a slot with a symbol that leads nowhere.** -/
theorem fill_narrows {name : String} {x : Symbol} (hx : x.objects = []) :
    (fill name x).Narrows := by
  intro s
  -- what the slot held is reached no more, and dropping it changes no slot
  have hinsert : s.Narrower { s with slots := s.slots.insert name x } := by
    refine narrower_insert ?_
    rw [hx]
    exact List.nil_subset _
  refine Leads.bind (leads_get (Leads.bind (leads_modify ?_)))
  cases s.slots.get? name with
  | none => exact hinsert
  | some old => exact leads_perform hinsert

/-- **To `register` a symbol that leads nowhere.** -/
theorem register_narrows {p : Place} {reach : List ObjectId}
    {f : Scope → Effect (Except SymbolError Scope)} (hf : ∀ c : Scope, c.Admits [] reach (f c))
    (hreach : reach = []) : (register p f).Narrows := by
  intro s
  have hsame : s.Narrower s := narrower_of_slots rfl
  refine Leads.bind (leads_scope (fun role c hc => Leads.bind (leads_perform ?_)) hsame)
  cases hd : ((f c).run s.surroundings).1 with
  | error e => exact hsame
  | ok d =>
    have hgrows := (hf c).grows _ d hd
    rw [hreach] at hgrows
    exact Leads.bind (r := putScope p d) (leads_putScopeNarrow hc hgrows fun s' h' _ => h')

theorem dropSlot_narrows (name : String) : (dropSlot name).Narrows := by
  intro s
  refine Leads.bind (leads_slot (fun x _ => ?_) (narrower_of_slots rfl))
  exact Leads.bind (leads_modify (leads_perform (narrower_erase name)))

theorem newLinked_narrows (slot name description cellName : String) :
    (newLinked slot name description cellName).Narrows := by
  intro s
  refine Leads.bind (leads_require (fun id _ => ?_) (narrower_of_slots rfl))
  exact fill_narrows rfl s

theorem linkCell_narrows (p : Place) (name description cellName : String) (default : Literal) :
    (linkCell p name description cellName default).Narrows := by
  intro s
  have hsame : s.Narrower s := narrower_of_slots rfl
  refine Leads.bind (leads_content (fun id c _ => ?_) hsame)
  dsimp only
  cases c.type.parse? default with
  | none => exact hsame
  | some x =>
    refine register_narrows (fun c' => ?_) rfl s
    exact c'.addLinked_admits name description (.cell id) (c.type.read x)

theorem setPolicy_narrows (p : Place) (policy : CopyPolicy) : (setPolicy p policy).Narrows := by
  intro s
  refine Leads.bind (leads_scope (fun role c hc => ?_) (narrower_of_slots rfl))
  exact leads_putScopeNarrow hc (Symbol.grows_policy c policy) fun s' h' _ => h'

/-- What `remove` takes out and drops is reached no more. -/
theorem remove_narrows (p : Place) (name : String) : (remove p name none).Narrows := by
  intro s
  refine Leads.bind (leads_scope (fun role c hc => Leads.bind (leads_perform ?_))
    (narrower_of_slots rfl))
  cases hout : ((c.remove name).run s.surroundings).1 with
  | none => exact narrower_of_slots rfl
  | some out =>
    obtain ⟨x, info, policy, cs⟩ := out
    obtain ⟨y, -, rfl, rfl, rfl, hsublist, -⟩ := run_remove hout
    refine Leads.bind (Leads.bind (leads_branch_of_some hc ?_))
    exact leads_putNarrow hc rfl (Symbol.objects_branch_subset hsublist.subset) fun s' h' _ =>
      Leads.bind (leads_perform h')

end Request

end ConfigTree
