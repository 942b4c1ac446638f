import ConfigTree.Proofs.SoundSteps

/-!
# Single ownership

The books of one operation say that objects are conserved and held once.  A `History` keeps the
books of a whole run: which objects entered the trees as owned ones, which the host made, and which
were destroyed, in order.  Every object that entered has one owner among all bindings of all slots
until the step in which it loses that owner, and is destroyed in that step and never again; links
and borrowed handles do not count.  An object of the host has no owner in a tree at all, and the
step that destroys it is the one in which the host lets go of it.

Main results:
  * `Session.length_owners` — the owners of an object are as many as the times it is owned;
  * `History.accounted_after` — the invariant of a run;
  * `History.single_ownership` — what becomes of every object, in every run and every step.
-/

namespace ConfigTree

namespace Session

/-! ## §1. Owners. -/

/-- The bindings that own the object `id`, over all slots. -/
def owners (s : Session) (id : ObjectId) : List Place :=
  s.slots.entries.flatMap fun slot =>
    ((slot.2.preorder .root).filter fun node => node.2.ownedHere? = some id).map fun node =>
      ⟨slot.1, node.1⟩

/-- The objects that the last operation destroyed, in order. -/
def destroyed (s : Session) : List ObjectId := s.surroundings.destroyed.toList.map Destruction.id

/-- **The `owners` of an object are as many as the times it is `owned`.** -/
theorem length_owners (s : Session) (id : ObjectId) :
    (s.owners id).length = s.owned.count id := by
  unfold owners owned Names.holdings Names.values
  rw [List.length_flatMap, List.count_flatMap, List.map_map]
  congr 1
  refine List.map_congr_left fun slot _ => ?_
  simp only [List.length_map, Function.comp_apply]
  rw [Symbol.count_owned slot.2 .root id, List.countP_eq_length_filter]

theorem owners_eq_nil_iff {s : Session} {id : ObjectId} :
    s.owners id = [] ↔ s.owned.count id = 0 := by
  rw [← length_owners, List.length_eq_zero_iff]

/-! ## §2. One step. -/

variable {s : Session}

/-- The balance of the object `id` over the operation `op`: what was alive or is new is alive or
destroyed. -/
theorem Settled.conserved (h : s.Settled) (op : Operation) (id : ObjectId) :
    s.surroundings.alive id + Surroundings.born s.surroundings (s.step op).2.surroundings id =
      (s.step op).2.surroundings.alive id + (s.step op).2.destroyed.count id := by
  have hconserved := (sound_step h op).evolves.conserved id
  -- nothing is recorded yet when the operation begins
  have hquiet : s.quiet.surroundings.gone id = 0 := rfl
  rw [hquiet] at hconserved
  exact hconserved

/-- The two operations on what the host holds leave the `slots` alone. -/
theorem slots_step {op : Operation} (hop : ¬ op.KeepsHosts) : (s.step op).2.slots = s.slots := by
  refine step_of_leads (P := fun s' => s'.slots = s.slots) ?_
  cases op with
  | newHost name n =>
    refine Request.Leads.bind (Request.Leads.bind (Request.leads_get ?_))
    refine Request.Leads.bind (Request.leads_perform (Request.Leads.bind ?_))
    refine Request.leads_modify ?_
    cases s.quiet.hosts.get? name with
    | none => exact rfl
    | some old => exact Request.leads_perform rfl
  | dropHost name =>
    refine Request.Leads.bind (Request.Leads.bind (Request.leads_host (fun id _ => ?_) rfl))
    exact Request.Leads.bind (Request.leads_modify (Request.leads_perform rfl))
  | _ => exact absurd trivial hop

/-- By `newHost`, one object is made. -/
theorem made_newHost (s : Session) (name : String) (n : Native) :
    (s.step (.newHost name n)).2.surroundings.made = s.surroundings.made + 1 := by
  have hmade := Surroundings.made_create s.quiet.surroundings n
  refine step_of_leads (P := fun s' => s'.surroundings.made = s.surroundings.made + 1) ?_
  refine Request.Leads.bind (Request.Leads.bind (Request.leads_get ?_))
  refine Request.Leads.bind (Request.leads_perform (Request.Leads.bind ?_))
  refine Request.leads_modify ?_
  cases s.quiet.hosts.get? name with
  | none => exact hmade
  | some old => exact Request.leads_perform ((Surroundings.made_destroy _ old).trans hmade)

theorem hosts_step (h : s.Settled) (op : Operation) : (s.step op).2.hosts = op.hostsAfter s :=
  (sound_step h op).hosts_eq

theorem made_le_step (h : s.Settled) (op : Operation) :
    s.surroundings.made ≤ (s.step op).2.surroundings.made :=
  (sound_step h op).evolves.made_le

theorem mem_hosted_iff {id : ObjectId} : id ∈ s.hosted ↔ ∃ name, s.hosts.get? name = some id := by
  constructor
  · intro h
    obtain ⟨x, hx, hid⟩ := List.mem_flatMap.1 h
    obtain ⟨e, he, rfl⟩ := List.mem_map.1 hx
    rw [List.mem_singleton.1 hid]
    exact ⟨e.1, Names.get?_of_mem he⟩
  · rintro ⟨name, h⟩
    exact Names.mem_holdings h (List.mem_singleton_self _)

theorem Settled.index_lt (h : s.Settled) {id : ObjectId} (hid : id ∈ s.owned ∨ id ∈ s.hosted) :
    id.index < s.surroundings.made :=
  h.sound.index_lt (.inr hid)

/-- What the host holds after `op` it held before, unless the operation made it. -/
theorem Settled.hosted_step (h : s.Settled) {op : Operation} {id : ObjectId}
    (hid : id ∈ (s.step op).2.hosted) :
    id ∈ s.hosted ∨ id = s.surroundings.store.nextObject ∧ ∃ name n, op = .newHost name n := by
  rw [mem_hosted_iff, hosts_step h op] at hid
  rw [mem_hosted_iff]
  obtain ⟨name, hname⟩ := hid
  by_cases hop : op.KeepsHosts
  · rw [Operation.hostsAfter_of_keeps hop] at hname
    exact .inl ⟨name, hname⟩
  · cases op with
    | newHost other n =>
      simp only [Operation.hostsAfter, Names.get?_insert] at hname
      split at hname
      case isTrue => exact .inr ⟨(Option.some.inj hname).symm, other, n, rfl⟩
      case isFalse => exact .inl ⟨name, hname⟩
    | dropHost other =>
      simp only [Operation.hostsAfter, Names.get?_erase] at hname
      split at hname
      case isTrue => cases hname
      case isFalse => exact .inl ⟨name, hname⟩
    | _ => exact absurd trivial hop

/-- What the host holds before `op` it holds after it, unless the operation lets go of it. -/
theorem Settled.hosted_before (h : s.Settled) {op : Operation} {name : String} {id : ObjectId}
    (hid : s.hosts.get? name = some id) (hlost : id ∉ (s.step op).2.hosted) :
    op = .dropHost name ∨ ∃ n, op = .newHost name n := by
  rw [mem_hosted_iff, hosts_step h op] at hlost
  by_cases hop : op.KeepsHosts
  · rw [Operation.hostsAfter_of_keeps hop] at hlost
    exact absurd ⟨name, hid⟩ hlost
  · cases op with
    | newHost other n =>
      right
      by_cases heq : name = other
      · exact ⟨n, by rw [heq]⟩
      · refine absurd ⟨name, ?_⟩ hlost
        simp only [Operation.hostsAfter, Names.get?_insert, if_neg heq, hid]
    | dropHost other =>
      left
      by_cases heq : name = other
      · rw [heq]
      · refine absurd ⟨name, ?_⟩ hlost
        simp only [Operation.hostsAfter, Names.get?_erase, if_neg heq, hid]
    | _ => exact absurd trivial hop

/-- An object of the host is held under one name. -/
theorem Settled.name_unique (h : s.Settled) {name other : String} {id : ObjectId}
    (hname : s.hosts.get? name = some id) (hother : s.hosts.get? other = some id) :
    name = other := by
  by_contra hne
  have hcount := s.hosts.count_erase (fun id => [id]) name id
  have hkept : (s.hosts.erase name).get? other = some id := by
    rw [Names.get?_erase, if_neg (Ne.symm hne), hother]
  -- under a second name the object would be held twice
  have hrest : id ∈ (s.hosts.erase name).holdings fun id => [id] :=
    Names.mem_holdings hkept (List.mem_singleton_self _)
  have hpos := List.count_pos_iff.2 hrest
  have hbalance := h.balance id
  have hle := s.surroundings.alive_le_one id
  rw [hname, Option.elim_some, List.count_singleton_self] at hcount
  unfold hosted at hbalance
  omega

/-- An operation `op` by which the host lets go of an object leaves the host without it. -/
theorem Settled.not_hosted_of_drop (h : s.Settled) {op : Operation} {name : String}
    {id : ObjectId} (hid : s.hosts.get? name = some id)
    (hop : op = .dropHost name ∨ ∃ n, op = .newHost name n) : id ∉ (s.step op).2.hosted := by
  rw [mem_hosted_iff, hosts_step h op]
  have hlt : id.index < s.surroundings.made := h.index_lt (.inr (mem_hosted_iff.2 ⟨name, hid⟩))
  rintro ⟨other, hother⟩
  rcases hop with rfl | ⟨n, rfl⟩
  · simp only [Operation.hostsAfter, Names.get?_erase] at hother
    split at hother
    case isTrue => cases hother
    case isFalse hne => exact hne (h.name_unique hother hid)
  · simp only [Operation.hostsAfter, Names.get?_insert] at hother
    split at hother
    case isTrue =>
      -- the new object has an identity that was not given out yet
      rw [← Option.some.inj hother] at hlt
      exact Nat.lt_irrefl _ hlt
    case isFalse hne => exact hne (h.name_unique hother hid)

end Session

/-! ## §3. Histories. -/

/-- What has become of the objects of a session over a run. -/
structure History where
  /-- The session by now. -/
  session : Session := {}
  /-- The objects that entered a tree as owned ones, in order. -/
  entered : List ObjectId := []
  /-- The objects that the host made, in order. -/
  hosted : List ObjectId := []
  /-- The objects that were destroyed, in order. -/
  destroyed : List ObjectId := []

/-- Whether the operation makes an object for the host. -/
def Operation.makesHost : Operation → Bool
  | .newHost .. => true
  | _ => false

namespace History

/-- The objects that were made while `s` became `s'`. -/
def newborn (s s' : Session) : List ObjectId :=
  (List.range' s.surroundings.made (s'.surroundings.made - s.surroundings.made)).map ObjectId.mk

/-- The history after the operation `op`.  Whatever is made by an operation other than a `newHost`
is made for a tree. -/
def step (h : History) (op : Operation) : History where
  session := (h.session.step op).2
  entered := h.entered ++ if op.makesHost then [] else newborn h.session (h.session.step op).2
  hosted := h.hosted ++ if op.makesHost then newborn h.session (h.session.step op).2 else []
  destroyed := h.destroyed ++ (h.session.step op).2.destroyed

/-- The history of the run `ops` from the empty session. -/
def after (ops : List Operation) : History := ops.foldl step {}

theorem after_concat (ops : List Operation) (op : Operation) :
    after (ops ++ [op]) = (after ops).step op := by
  rw [after, List.foldl_append]
  rfl

theorem session_after (ops : List Operation) : (after ops).session = Session.after ops := by
  induction ops using List.reverseRecOn with
  | nil => rfl
  | append_singleton ops op ih =>
    rw [after_concat, Session.after_concat, ← ih]
    rfl

theorem mem_newborn {s s' : Session} {id : ObjectId} :
    id ∈ newborn s s' ↔ s.surroundings.made ≤ id.index ∧ id.index < s'.surroundings.made := by
  obtain ⟨index⟩ := id
  simp only [newborn, List.mem_map, List.mem_range'_1, ObjectId.mk.injEq, exists_eq_right]
  omega

/-- The invariant of a run: the books on what entered, what the host made and what was destroyed. -/
structure Accounted (h : History) : Prop where
  /-- The session is sound. -/
  settled : h.session.Settled
  /-- Every object that was made either entered or is the host's. -/
  complete : ∀ id, id.index < h.session.surroundings.made ↔ id ∈ h.entered ∨ id ∈ h.hosted
  /-- What entered the host does not hold. -/
  entered_free : ∀ id ∈ h.entered, id ∉ h.session.hosted
  /-- What the host made no tree owns. -/
  hosted_free : ∀ id ∈ h.hosted, id ∉ h.session.owned
  /-- Every object that was made is alive or was destroyed once, and no other was destroyed. -/
  once : ∀ id, h.session.surroundings.alive id + h.destroyed.count id =
    if id.index < h.session.surroundings.made then 1 else 0

variable {h : History}

/-- Every object that was made is alive or was destroyed once after the operation `op`. -/
theorem Accounted.once_step (hh : h.Accounted) (op : Operation) (id : ObjectId) :
    (h.step op).session.surroundings.alive id + (h.step op).destroyed.count id =
      if id.index < (h.step op).session.surroundings.made then 1 else 0 := by
  have hconserved := hh.settled.conserved op id
  have honce := hh.once id
  have hle := Session.made_le_step hh.settled op
  have hdestroyed : (h.step op).destroyed.count id =
      h.destroyed.count id + (h.session.step op).2.destroyed.count id := List.count_append
  rw [hdestroyed]
  show (h.session.step op).2.surroundings.alive id + _ =
    if id.index < (h.session.step op).2.surroundings.made then 1 else 0
  -- born now, made earlier or not made at all
  unfold Surroundings.born at hconserved
  split at hconserved <;> split at honce <;> split <;> omega

theorem mem_entered_step {op : Operation} {id : ObjectId} :
    id ∈ (h.step op).entered ↔ id ∈ h.entered ∨ op.makesHost = false ∧
      h.session.surroundings.made ≤ id.index ∧
        id.index < (h.session.step op).2.surroundings.made := by
  unfold step
  rw [List.mem_append]
  cases op.makesHost <;> simp [mem_newborn]

theorem mem_hosted_step {op : Operation} {id : ObjectId} :
    id ∈ (h.step op).hosted ↔ id ∈ h.hosted ∨ op.makesHost = true ∧
      h.session.surroundings.made ≤ id.index ∧
        id.index < (h.session.step op).2.surroundings.made := by
  unfold step
  rw [List.mem_append]
  cases op.makesHost <;> simp [mem_newborn]

theorem Accounted.complete_step (hh : h.Accounted) (op : Operation) (id : ObjectId) :
    id.index < (h.step op).session.surroundings.made ↔
      id ∈ (h.step op).entered ∨ id ∈ (h.step op).hosted := by
  have hle := Session.made_le_step hh.settled op
  have hold := hh.complete id
  rw [mem_entered_step, mem_hosted_step]
  show id.index < (h.session.step op).2.surroundings.made ↔ _
  constructor
  · intro hlt
    -- what was made earlier is in the books, what is new goes where the operation says
    by_cases hbefore : id.index < h.session.surroundings.made
    · exact (hold.1 hbefore).imp .inl .inl
    · cases op.makesHost with
      | false => exact .inl (.inr ⟨rfl, by omega, hlt⟩)
      | true => exact .inr (.inr ⟨rfl, by omega, hlt⟩)
  · rintro ((hid | ⟨-, -, hlt⟩) | (hid | ⟨-, -, hlt⟩))
    · exact Nat.lt_of_lt_of_le (hold.2 (.inl hid)) hle
    · exact hlt
    · exact Nat.lt_of_lt_of_le (hold.2 (.inr hid)) hle
    · exact hlt

/-- What has `entered` by then the host does not hold after the operation `op`. -/
theorem Accounted.entered_free_step (hh : h.Accounted) {op : Operation} {id : ObjectId}
    (hid : id ∈ (h.step op).entered) : id ∉ (h.step op).session.hosted := by
  intro hhost
  -- what the host holds it held before or has just made
  rcases hh.settled.hosted_step hhost with hhost | ⟨rfl, name, n, rfl⟩
  · rcases mem_entered_step.1 hid with hid | ⟨-, hnew, -⟩
    · exact hh.entered_free id hid hhost
    · have hlt := hh.settled.index_lt (.inr hhost)
      omega
  · rcases mem_entered_step.1 hid with hid | ⟨hmakes, -⟩
    · exact Nat.lt_irrefl _ ((hh.complete _).2 (.inl hid))
    · cases hmakes

/-- What is dead stays dead in the operation `op`. -/
theorem Accounted.dead_step (hh : h.Accounted) {op : Operation} {id : ObjectId}
    (hlt : id.index < h.session.surroundings.made)
    (hdead : h.session.surroundings.alive id = 0) :
    (h.step op).session.surroundings.alive id = 0 := by
  have honce := hh.once id
  have honce' := hh.once_step op id
  have hcount : (h.step op).destroyed.count id =
      h.destroyed.count id + (h.session.step op).2.destroyed.count id := List.count_append
  -- it was destroyed once already, and no object is destroyed twice
  rw [if_pos hlt] at honce
  split at honce' <;> omega

/-- What is `hosted` by then no tree owns after the operation `op`. -/
theorem Accounted.hosted_free_step (hh : h.Accounted) {op : Operation} {id : ObjectId}
    (hid : id ∈ (h.step op).hosted) : id ∉ (h.step op).session.owned := by
  intro hown
  have hsettled : (h.step op).session.Settled := (Session.sound_step hh.settled op).settled
  have hafter := hsettled.balance id
  have hle := (h.step op).session.surroundings.alive_le_one id
  have hpos := List.count_pos_iff.2 hown
  by_cases hop : op.KeepsHosts
  · have hmakes : op.makesHost = false := by
      cases op <;> first | rfl | exact hop.elim
    rcases mem_hosted_step.1 hid with hid | ⟨htrue, -⟩
    · by_cases hhost : id ∈ h.session.hosted
      · -- the host still holds it, so nobody else does
        have hsame : (h.step op).session.hosted = h.session.hosted := by
          unfold Session.hosted
          rw [show (h.step op).session.hosts = _ from Session.hosts_step hh.settled op,
            Operation.hostsAfter_of_keeps hop]
        have hheld := List.count_pos_iff.2 hhost
        rw [hsame] at hafter
        omega
      · -- nobody held it, and nothing that is gone comes back
        have hbefore := hh.settled.balance id
        have hzero := List.count_eq_zero.2 (hh.hosted_free id hid)
        have hzero' := List.count_eq_zero.2 hhost
        have hdead : (h.step op).session.surroundings.alive id = 0 :=
          hh.dead_step ((hh.complete id).2 (.inr hid)) (by omega)
        omega
    · rw [hmakes] at htrue
      cases htrue
  -- the slots are as before, and the new object is in none of them
  · have hslots : (h.step op).session.owned = h.session.owned := by
      unfold Session.owned
      rw [show (h.step op).session.slots = _ from Session.slots_step hop]
    rw [hslots] at hown
    rcases mem_hosted_step.1 hid with hid | ⟨-, hnew, -⟩
    · exact hh.hosted_free id hid hown
    · have hlt := hh.settled.index_lt (.inl hown)
      omega

/-- **The operation `op` keeps the books of a run.** -/
theorem Accounted.step (hh : h.Accounted) (op : Operation) : (h.step op).Accounted where
  settled := (Session.sound_step hh.settled op).settled
  complete := hh.complete_step op
  entered_free _ := hh.entered_free_step
  hosted_free _ := hh.hosted_free_step
  once := hh.once_step op

/-- **The books of every run are in order**, by `Accounted.step`. -/
theorem accounted_after (ops : List Operation) : (after ops).Accounted := by
  induction ops using List.reverseRecOn with
  | nil =>
    refine ⟨Session.settled_after [], fun id => ?_, fun id hid => ?_, fun id hid => ?_,
      fun id => ?_⟩
    · simp [after, Surroundings.made]
    · cases hid
    · cases hid
    · simp [after, Surroundings.made, Surroundings.alive, Store.isLive, Store.object?]
  | append_singleton ops op ih =>
    rw [after_concat]
    exact ih.step op

/-! ## §4. What becomes of objects. -/

/-- An object that `entered` has one owner, or none and is destroyed. -/
theorem Accounted.entered_cases (hh : h.Accounted) {id : ObjectId} (hid : id ∈ h.entered) :
    ((∃ p, h.session.owners id = [p]) ∧ h.session.surroundings.store.isLive id = true ∧
      id ∉ h.destroyed) ∨
    (h.session.owners id = [] ∧ h.session.surroundings.store.isLive id = false ∧
      h.destroyed.count id = 1) := by
  have hbalance := hh.settled.balance id
  have hfree := List.count_eq_zero.2 (hh.entered_free id hid)
  have honce := hh.once id
  rw [if_pos ((hh.complete id).2 (.inl hid))] at honce
  have hlength := h.session.length_owners id
  unfold Surroundings.alive at hbalance honce
  cases hlive : h.session.surroundings.store.isLive id with
  | true =>
    rw [hlive, Bool.toNat_true] at hbalance honce
    exact .inl ⟨List.length_eq_one_iff.1 (by omega), rfl, List.count_eq_zero.1 (by omega)⟩
  | false =>
    rw [hlive, Bool.toNat_false] at hbalance honce
    exact .inr ⟨Session.owners_eq_nil_iff.2 (by omega), rfl, by omega⟩

/-- An object that the host made is held by the host, or is destroyed. -/
theorem Accounted.hosted_cases (hh : h.Accounted) {id : ObjectId} (hid : id ∈ h.hosted) :
    h.session.owners id = [] ∧
      (((∃ name, h.session.hosts.get? name = some id) ∧
          h.session.surroundings.store.isLive id = true ∧ id ∉ h.destroyed) ∨
        ((¬ ∃ name, h.session.hosts.get? name = some id) ∧
          h.session.surroundings.store.isLive id = false ∧ h.destroyed.count id = 1)) := by
  have hbalance := hh.settled.balance id
  have hfree := List.count_eq_zero.2 (hh.hosted_free id hid)
  have honce := hh.once id
  rw [if_pos ((hh.complete id).2 (.inr hid))] at honce
  refine ⟨Session.owners_eq_nil_iff.2 hfree, ?_⟩
  rw [← Session.mem_hosted_iff]
  unfold Surroundings.alive at hbalance honce
  cases hlive : h.session.surroundings.store.isLive id with
  | true =>
    rw [hlive, Bool.toNat_true] at hbalance honce
    exact .inl ⟨List.count_pos_iff.1 (by omega), rfl, List.count_eq_zero.1 (by omega)⟩
  | false =>
    rw [hlive, Bool.toNat_false] at hbalance honce
    exact .inr ⟨List.count_eq_zero.1 (by omega), rfl, by omega⟩

/-- An object that was made is destroyed in the step after which it is dead for the first time. -/
theorem Accounted.destroyed_step_iff (hh : h.Accounted) {op : Operation} {id : ObjectId}
    (hid : id.index < (h.step op).session.surroundings.made) :
    id ∈ (h.step op).session.destroyed ↔
      id ∉ h.destroyed ∧ (h.step op).session.surroundings.alive id = 0 := by
  have honce := hh.once_step op id
  have hle := (h.step op).session.surroundings.alive_le_one id
  have hcount : (h.step op).destroyed.count id =
      h.destroyed.count id + (h.step op).session.destroyed.count id := List.count_append
  rw [if_pos hid] at honce
  rw [← List.count_pos_iff, ← List.count_eq_zero]
  omega

/-- The step that destroys an object that `entered` is the one that leaves it without one of its
`owners`. -/
theorem Accounted.entered_destroyed_iff (hh : h.Accounted) {op : Operation} {id : ObjectId}
    (hid : id ∈ (h.step op).entered) :
    id ∈ (h.step op).session.destroyed ↔
      id ∉ h.destroyed ∧ (h.step op).session.owners id = [] := by
  have hh' := hh.step op
  have hbalance := hh'.settled.balance id
  have hfree := List.count_eq_zero.2 (hh'.entered_free id hid)
  rw [hh.destroyed_step_iff ((hh'.complete id).2 (.inl hid)), Session.owners_eq_nil_iff, ← hbalance,
    hfree, Nat.add_zero]

/-- The host holds what it makes by `newHost`. -/
theorem Accounted.hosted_newHost (hh : h.Accounted) {name : String} {n : Native} {id : ObjectId}
    (hlow : h.session.surroundings.made ≤ id.index)
    (hhigh : id.index < (h.session.step (.newHost name n)).2.surroundings.made) :
    id ∈ (h.step (.newHost name n)).session.hosted := by
  have hmade := Session.made_newHost h.session name n
  have hindex : id = h.session.surroundings.store.nextObject := by
    obtain ⟨index⟩ := id
    have : index = h.session.surroundings.made := by
      dsimp only at hlow hhigh
      omega
    rw [this]
    rfl
  rw [Session.mem_hosted_iff]
  refine ⟨name, ?_⟩
  rw [show (h.step (.newHost name n)).session.hosts = _ from
    Session.hosts_step hh.settled (.newHost name n)]
  simp only [Operation.hostsAfter, Names.get?_insert, if_true, hindex]

/-- The step that destroys an object of the host is the one in which the host lets go of it. -/
theorem Accounted.hosted_destroyed_iff (hh : h.Accounted) {op : Operation} {id : ObjectId}
    (hid : id ∈ (h.step op).hosted) :
    id ∈ (h.step op).session.destroyed ↔ ∃ name,
      h.session.hosts.get? name = some id ∧ (op = .dropHost name ∨ ∃ n, op = .newHost name n) := by
  have hh' := hh.step op
  have hbalance := hh'.settled.balance id
  have hfree := List.count_eq_zero.2 (hh'.hosted_free id hid)
  rw [hh.destroyed_step_iff ((hh'.complete id).2 (.inr hid)), ← hbalance, hfree, Nat.zero_add,
    List.count_eq_zero]
  constructor
  · rintro ⟨hdestroyed, hlost⟩
    rcases mem_hosted_step.1 hid with hid | ⟨hmakes, hlow, hhigh⟩
    · -- it was alive before, so the host held it
      rcases (hh.hosted_cases hid).2 with ⟨⟨name, hname⟩, -⟩ | ⟨-, -, hcount⟩
      · exact ⟨name, hname, hh.settled.hosted_before hname hlost⟩
      · exact absurd (List.count_pos_iff.1 (by omega)) hdestroyed
    · -- what it has just made it holds
      cases op with
      | newHost name n => exact absurd (hh.hosted_newHost hlow hhigh) hlost
      | _ => cases hmakes
  · rintro ⟨name, hname, hop⟩
    have hhost : id ∈ h.session.hosted := Session.mem_hosted_iff.2 ⟨name, hname⟩
    refine ⟨fun hdestroyed => ?_, hh.settled.not_hosted_of_drop hname hop⟩
    -- what the host holds is alive, so it was not destroyed yet
    have hbefore := hh.settled.balance id
    have honce := hh.once id
    have hpos := List.count_pos_iff.2 hhost
    have hpos' := List.count_pos_iff.2 hdestroyed
    split at honce <;> omega

/-- **Single ownership.** After every run `ops`, and in every further step `op`: an object that
`entered` a tree as an owned one has exactly one owner over all slots and was not destroyed, or has
none and was destroyed once; the step that destroys it is the one that leaves it without an owner.
An object that the host made never has an owner; it lives as long as the host holds it, and the step
that destroys it is the one in which the host drops it or puts another in its place.  There are no
other objects.  What a `take` leaves behind owns nothing, and dropping it changes nothing. -/
theorem single_ownership (ops : List Operation) (op : Operation) :
    let h := after ops
    let h' := h.step op
    (∀ id ∈ h.entered,
      ((∃ p, h.session.owners id = [p]) ∧ h.session.surroundings.store.isLive id = true ∧
        id ∉ h.destroyed) ∨
      (h.session.owners id = [] ∧ h.session.surroundings.store.isLive id = false ∧
        h.destroyed.count id = 1)) ∧
    (∀ id ∈ h'.entered,
      id ∈ h'.session.destroyed ↔ id ∉ h.destroyed ∧ h'.session.owners id = []) ∧
    (∀ id ∈ h.hosted, h.session.owners id = [] ∧
      (((∃ name, h.session.hosts.get? name = some id) ∧
          h.session.surroundings.store.isLive id = true ∧ id ∉ h.destroyed) ∨
        ((¬ ∃ name, h.session.hosts.get? name = some id) ∧
          h.session.surroundings.store.isLive id = false ∧ h.destroyed.count id = 1))) ∧
    (∀ id ∈ h'.hosted, id ∈ h'.session.destroyed ↔ ∃ name,
      h.session.hosts.get? name = some id ∧ (op = .dropHost name ∨ ∃ n, op = .newHost name n)) ∧
    (∀ id, id.index < h.session.surroundings.store.objects.size ↔
      id ∈ h.entered ∨ id ∈ h.hosted) ∧
    ∀ (o : ObjectBinding) (w : Surroundings),
      let out := (o.take.run w).1
      (Symbol.ofObject out.1).owned = (Symbol.ofObject o).owned ∧
        (Symbol.ofObject out.2).owned = [] ∧
          ∀ w', (Symbol.ofObject out.2).release.run w' = ((), w') := by
  intro h h'
  have hh : h.Accounted := accounted_after ops
  exact ⟨fun id => hh.entered_cases, fun id => hh.entered_destroyed_iff, fun id => hh.hosted_cases,
    fun id => hh.hosted_destroyed_iff, hh.complete, fun o w => ⟨rfl, rfl, fun w' => rfl⟩⟩

/-- A run in which an object is refused, one is borrowed and a tree is cloned. -/
def demo : List Operation :=
  [.newScope "root" "root" "" .matchingNames,
    .newHost "h" (.record .counter { id := "h" }),
    .addObject ⟨"root", .root⟩ "o" "" (some (.own (.record .counter { id := "k" }))),
    .addObject ⟨"root", .root⟩ "b" "" (some (.host "h")),
    .addObject ⟨"root", .root⟩ "o" "" (some (.own (.record .counter { id := "r" }))),
    .clone ⟨"root", .root⟩ "copy"]

/-- Three objects enter in that run: one has its owner, one was refused and destroyed, one is the
owned object of the clone.  Dropping the slot destroys the first; the object of the host, which the
slot borrows, goes when the host drops it. -/
theorem single_ownership_demo :
    (after demo).entered = [⟨1⟩, ⟨2⟩, ⟨3⟩] ∧ (after demo).hosted = [⟨0⟩] ∧
      (∃ p, (after demo).session.owners ⟨1⟩ = [p]) ∧
      (after demo).destroyed.count ⟨2⟩ = 1 ∧
      (∃ p, (after demo).session.owners ⟨3⟩ = [p]) ∧
      ⟨1⟩ ∈ ((after demo).step (.dropSlot "root")).session.destroyed ∧
      ⟨0⟩ ∉ ((after demo).step (.dropSlot "root")).session.destroyed ∧
      ⟨0⟩ ∈ ((after demo).step (.dropHost "h")).session.destroyed := by
  have hentered : (after demo).entered = [⟨1⟩, ⟨2⟩, ⟨3⟩] := by decide +kernel
  have hhosted : (after demo).hosted = [⟨0⟩] := by decide +kernel
  have hkept : (after demo).destroyed = [⟨2⟩] := by decide +kernel
  have hdrop : ((after demo).step (.dropSlot "root")).session.owners ⟨1⟩ = [] := by decide +kernel
  obtain ⟨hcases, hstep, -, hhost, -⟩ := single_ownership demo (.dropSlot "root")
  obtain ⟨-, -, -, hhost', -⟩ := single_ownership demo (.dropHost "h")
  have hone : ∀ id ∈ (after demo).entered, id ∉ (after demo).destroyed →
      ∃ p, (after demo).session.owners id = [p] := by
    intro id hid hlive
    rcases hcases id hid with ⟨howner, -⟩ | ⟨-, -, hcount⟩
    · exact howner
    · exact absurd (List.count_pos_iff.1 (by omega)) hlive
  refine ⟨hentered, hhosted, hone ⟨1⟩ ?_ ?_, ?_, hone ⟨3⟩ ?_ ?_, ?_, ?_, ?_⟩
  · rw [hentered]; decide
  · rw [hkept]; decide
  · rw [hkept]; decide
  · rw [hentered]; decide
  · rw [hkept]; decide
  · refine (hstep ⟨1⟩ ?_).2 ⟨?_, hdrop⟩
    · rw [mem_entered_step, hentered]; decide
    · rw [hkept]; decide
  · intro hmem
    have hmade : ⟨0⟩ ∈ ((after demo).step (.dropSlot "root")).hosted := by
      rw [mem_hosted_step, hhosted]; decide
    obtain ⟨name, -, hop | ⟨n, hop⟩⟩ := (hhost ⟨0⟩ hmade).1 hmem
    · cases hop
    · cases hop
  · refine (hhost' ⟨0⟩ (by rw [mem_hosted_step, hhosted]; decide)).2 ⟨"h", ?_, .inl rfl⟩
    decide +kernel

end History

end ConfigTree
