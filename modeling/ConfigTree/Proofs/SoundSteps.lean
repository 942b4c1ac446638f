import ConfigTree.Proofs.Clone
import ConfigTree.Proofs.Copy
import ConfigTree.Proofs.Registration
import ConfigTree.Proofs.SessionSoundness
import ConfigTree.Session.Step
import Mathlib.Data.List.Induction

/-!
# Every operation keeps a session sound

One lemma for each request says that it leads from a sound session with nothing in hand to such
sessions only, whether it succeeds or fails and wherever it fails.  What is in hand on the way shows
where an operation would lose an object or give it a second owner.  Only two operations change what
the host holds, and they are looked at last.

Main results:
  * `Request.answer_safe` — the operations on trees, and those of the host that keep its objects;
  * `Session.sound_step` — every operation.
-/

namespace ConfigTree

open Effect

/-! ## §1. Safe requests. -/

namespace Session

variable {start : Surroundings} {hosts : Names ObjectId} {hand : List ObjectId} {s : Session}

/-- Surroundings `w` that are `Still` the same leave a session sound. -/
theorem Sound.still {w : Surroundings} (h : s.Sound start hosts hand)
    (hw : s.surroundings.Still w) : Sound start hosts hand { s with surroundings := w } := by
  refine ⟨fun name x hx => (h.slots name x hx).mono (Nat.le_of_eq hw.made.symm), h.hosts_eq,
    fun id => ?_, Surroundings.evolves_trans h.evolves hw.evolves⟩
  show _ = w.alive id
  rw [hw.alive]
  exact h.balance id

/-- The `cells` of the host are kept apart from all this. -/
theorem Sound.withCells (h : s.Sound start hosts hand) (cells : Names CellId) :
    Sound start hosts hand { s with cells := cells } :=
  ⟨h.slots, h.hosts_eq, h.balance, h.evolves⟩

end Session

namespace Request

open Session

variable {α β : Type} {start : Surroundings} {hosts : Names ObjectId} {hand : List ObjectId}
  {s : Session}

/-- The request `r` leads from sound sessions with nothing in hand to such sessions only. -/
def Safe (r : Request α) : Prop :=
  ∀ start hosts s, s.Sound start hosts [] →
    r.Leads s (fun _ s' => s'.Sound start hosts []) fun s' => s'.Sound start hosts []

theorem Safe.map {r : Request α} (h : r.Safe) (f : α → β) : (f <$> r).Safe :=
  fun start hosts s hs => Leads.map (h start hosts s hs)

theorem Safe.done {r : Request Unit} (h : r.Safe) : (Request.done r).Safe :=
  fun start hosts s hs => Leads.bind ((h start hosts s hs).mono (fun _ _ h => h) fun _ h => h)

/-- To `perform` an effect that `Keeps Still` leaves a session sound. -/
theorem leads_perform_still {e : Effect α} {Q : α → Session → Prop} {E : Session → Prop}
    (h : s.Sound start hosts hand) (he : Keeps Surroundings.Still e)
    (hQ : ∀ a s', s'.Sound start hosts hand → Q a s') : (perform e).Leads s Q E :=
  leads_perform (hQ _ _ (h.still (he _)))

theorem leads_putGrows {p : Place} {reach : List ObjectId} {old new : Symbol}
    {Q : Unit → Session → Prop} {E : Session → Prop} (h : s.Sound start hosts hand)
    (hold : s.symbol? p = some old) (hgrows : old.Grows hand reach new)
    (hreach : ∀ id ∈ reach, id.index < s.surroundings.made)
    (hQ : ∀ s', s'.Sound start hosts [] → Q () s') : (put p new).Leads s Q E := by
  have hsound := h.symbol? hold
  refine leads_put h hold hgrows.info (hgrows.coherent hsound.coherent) (fun id hid => ?_)
    (fun id => ?_) fun s' h' _ => hQ s' h'
  · exact (hgrows.objects id hid).elim (hsound.known id) (hreach id)
  · rw [hgrows.owned id]
    rfl

theorem leads_putScope {p : Place} {reach : List ObjectId} {role : Role} {c d : Scope}
    {Q : Unit → Session → Prop} {E : Session → Prop} (h : s.Sound start hosts hand)
    (hold : s.symbol? p = some (.branch role c.info c.policy c.children))
    (hgrows : (Symbol.ofScope c).Grows hand reach (.ofScope d))
    (hreach : ∀ id ∈ reach, id.index < s.surroundings.made)
    (hQ : ∀ s', s'.Sound start hosts [] → Q () s') : (putScope p d).Leads s Q E := by
  refine Leads.bind (leads_branch_of_some hold ?_)
  exact leads_putGrows h hold (hgrows.branch role) hreach hQ

/-- To `register` something in a scope that is there, by `f` that admits what is in `hand`. -/
theorem leads_register {p : Place} {reach : List ObjectId} {role : Role} {c : Scope}
    {f : Scope → Effect (Except SymbolError Scope)} (h : s.Sound start hosts hand)
    (hold : s.symbol? p = some (.branch role c.info c.policy c.children))
    (hf : c.Admits hand reach (f c)) (hreach : ∀ id ∈ reach, id.index < s.surroundings.made) :
    (register p f).Leads s (fun _ s' => s'.Sound start hosts []) fun s' =>
      s'.Sound start hosts [] := by
  have hafter := h.performAll hf.moves
  have hmade := (hf.moves.evolves s.surroundings).made_le
  refine Leads.bind (leads_scope_of_some hold (Leads.bind (leads_perform ?_)))
  -- a refusal has destroyed what was in hand, a success has put it into the scope
  cases hd : ((f c).run s.surroundings).1 with
  | error e =>
    rw [hd] at hafter
    exact hafter
  | ok d =>
    rw [hd] at hafter
    refine Leads.bind (r := putScope p d) (leads_putScope hafter hold (hf.grows _ d hd)
      (fun id hid => ?_) fun s' h' => h')
    exact Nat.lt_of_lt_of_le (hreach id hid) hmade

/-- To `register` something that holds no object is safe. -/
theorem register_safe {p : Place} {reach : List ObjectId}
    {f : Scope → Effect (Except SymbolError Scope)} (hf : ∀ c : Scope, c.Admits [] reach (f c))
    (hreach : reach = []) : (register p f).Safe := by
  intro start hosts s h
  by_cases hfound : ∃ (role : Role) (c : Scope),
      s.symbol? p = some (.branch role c.info c.policy c.children)
  · obtain ⟨role, c, hold⟩ := hfound
    exact leads_register h hold (hf c) fun id hid => by simp [hreach] at hid
  · refine Leads.bind (leads_scope (fun role c hold => ?_) h)
    exact absurd ⟨role, c, hold⟩ hfound

theorem fill_safe {name : String} {x : Symbol} (hx : x.Sound 0) (howned : x.owned = []) :
    (fill name x).Safe := by
  intro start hosts s h
  exact leads_fill (howned ▸ h) (hx.mono (Nat.zero_le _)) fun s' h' => h'

/-! ## §2. Slots and registration. -/

/-- A leaf or an empty branch that is detached and leads to no object is sound. -/
theorem sound_detached {x : Symbol} (hchildren : x.children = []) (hparent : x.info.parent? = none)
    (hobjects : x.objects = []) : x.Sound 0 := by
  refine ⟨.of_leaf hchildren, ?_, fun id hid => ?_⟩
  · rw [Info.path, hparent]
    intro k hk
    cases hk
  · rw [hobjects] at hid
    cases hid

theorem newLinked_safe (slot name description cellName : String) :
    (newLinked slot name description cellName).Safe := by
  intro start hosts s h
  refine Leads.bind (leads_require (fun id _ => ?_) h)
  exact fill_safe (sound_detached rfl rfl rfl) rfl start hosts s h

/-- A handle `hd` on an object of some `origin` is in hand if it owns the object. -/
theorem leads_handle {origin : Origin} {Q : Handle → Session → Prop} (h : s.Sound start hosts [])
    (hQ : ∀ hd s', s'.Sound start hosts (Role.object (some hd)).owned?.toList →
      hd.id.index < s'.surroundings.made → Q hd s') :
    (handle origin).Leads s Q fun s' => s'.Sound start hosts [] := by
  cases origin with
  -- a new object is in hand, one of the host stays with the host
  | own n =>
    have hafter := h.performAll (create_moves n)
    refine Leads.bind (leads_perform (hQ _ _ hafter (hafter.index_lt (.inl ?_))))
    exact List.mem_singleton_self _
  | host name =>
    refine Leads.bind (leads_host (fun id hid => hQ _ _ h (h.index_lt (.inr (.inr ?_)))) h)
    exact Names.mem_holdings hid (List.mem_singleton_self _)
  -- a handle on the object of another symbol is borrowed, whoever owns it
  | boundAt p =>
    refine Leads.bind (leads_object (fun o ho => ?_) h)
    refine Leads.bind (leads_require (fun hd hhd => hQ _ _ h ((h.symbol? ho).known _ ?_)) h)
    refine List.mem_append_left _ ?_
    rw [hhd]
    exact List.mem_singleton_self _

theorem leads_mapM_handle {origin? : Option Origin} {Q : Option Handle → Session → Prop}
    (h : s.Sound start hosts [])
    (hQ : ∀ hd? s', s'.Sound start hosts (Role.object hd?).owned?.toList →
      (∀ hd, hd? = some hd → hd.id.index < s'.surroundings.made) → Q hd? s') :
    (origin?.mapM handle).Leads s Q fun s' => s'.Sound start hosts [] := by
  cases origin? with
  | none => exact hQ none s h fun hd hhd => by cases hhd
  | some origin =>
    refine Leads.map (leads_handle h fun hd s' h' hknown => hQ (some hd) s' h' ?_)
    rintro _ ⟨⟩
    exact hknown

theorem newObject_safe (slot name description : String) (origin? : Option Origin) :
    (newObject slot name description origin?).Safe := by
  intro start hosts s h
  refine Leads.bind (leads_mapM_handle h fun hd? s' h' hknown => ?_)
  refine leads_fill h' ⟨.of_leaf rfl, fun _ hk => absurd hk List.not_mem_nil, fun id hid => ?_⟩
    fun s'' h'' => h''
  cases hd? with
  | none => cases hid
  | some hd =>
    rw [List.mem_singleton.1 hid]
    exact hknown hd rfl

theorem dropSlot_safe (name : String) : (dropSlot name).Safe := by
  intro start hosts s h
  refine Leads.bind (leads_slot (fun x hx => ?_) h)
  exact Leads.bind (leads_modify (leads_perform ((h.eraseSlot hx).perform x.release_moves)))

/-- What `scopeOr` undoes if it does not find its scope. -/
theorem leads_scopeOr {p : Place} {undo : Request Unit} {Q : Scope → Session → Prop}
    {E : Session → Prop}
    (h : ∀ (role : Role) (c : Scope),
      s.symbol? p = some (.branch role c.info c.policy c.children) → Q c s)
    (hundo : undo.Leads s (fun _ s' => E s') E) : (scopeOr p undo).Leads s Q E :=
  leads_tryCatch (leads_scope (fun role c hc => h role c hc) fun _ => Leads.bind hundo)

theorem addObject_safe (p : Place) (name description : String) (origin? : Option Origin) :
    (addObject p name description origin?).Safe := by
  intro start hosts s h
  refine Leads.bind (leads_mapM_handle h fun hd? s' h' hknown => ?_)
  cases hd? with
  | none =>
    exact register_safe (fun c => c.addUnbound_admits name description) rfl start hosts s' h'
  | some hd =>
    refine Leads.bind (leads_scopeOr (fun role c hc => ?_) ?_)
    · refine leads_register h' hc (c.addObject_admits name description hd) fun id hid => ?_
      rw [List.mem_singleton.1 hid]
      exact hknown hd rfl
    · -- the object has found no symbol, and its handle lets go of it
      obtain ⟨id, owned⟩ := hd
      cases owned with
      | false => exact h'
      | true => exact h'.performAll (destroy_moves id)

theorem linkCell_safe (p : Place) (name description cellName : String) (default : Literal) :
    (linkCell p name description cellName default).Safe := by
  intro start hosts s h
  refine Leads.bind (leads_content (fun id c _ => ?_) h)
  dsimp only
  cases c.type.parse? default with
  | none => exact h
  | some x =>
    refine register_safe (fun c' => ?_) rfl start hosts s h
    exact c'.addLinked_admits name description (.cell id) (c.type.read x)

theorem linkField_safe (p : Place) (name description : String) (f : Field)
    (default : f.type.Raw) : (linkField p name description f default).Safe := by
  intro start hosts s h
  refine Leads.bind (leads_object (fun o ho => Leads.bind (leads_perform ?_)) h)
  have hmoves := o.linkField_moves name description f default
  have hafter := h.performAll hmoves
  have hmade := (hmoves.evolves s.surroundings).made_le
  have hgo := o.linkField_grows name description f default s.surroundings
  revert hafter hmade hgo
  generalize (o.linkField name description f default).run s.surroundings = out
  obtain ⟨e | o', w⟩ := out <;> intro hafter hmade hgo
  · exact hafter
  · refine leads_putGrows hafter ho (hgo o' rfl) (fun id hid => ?_) fun s' h' => h'
    exact Nat.lt_of_lt_of_le ((h.symbol? ho).known id hid) hmade

theorem setupConfig_safe (p : Place) (settings : List Setting) :
    (setupConfig p settings).Safe := by
  intro start hosts s h
  refine Leads.bind (leads_object (fun o ho => Leads.bind (leads_perform ?_)) h)
  have hmoves := o.linkSettings_moves settings
  have hafter := h.performAll hmoves
  have hmade := (hmoves.evolves s.surroundings).made_le
  refine Leads.bind (leads_putGrows hafter ho (o.linkSettings_grows settings _) (fun id hid => ?_)
    fun s' h' => ?_)
  · exact Nat.lt_of_lt_of_le ((h.symbol? ho).known id hid) hmade
  · exact leads_accept (fun _ _ => h') h'

theorem registerModule_safe (hostName : String) (p : Place) :
    (registerModule hostName p).Safe := by
  intro start hosts s h
  refine Leads.bind (leads_resident (fun id r hid _ => ?_) h)
  dsimp only
  cases r.native.type.settings? with
  | none => exact h
  | some settings =>
    refine Leads.bind (leads_scope (fun role c hc => Leads.bind (leads_perform ?_)) h)
    have hmoves := c.registerModule_moves id r.native.type settings
    have hgrows := c.registerModule_grows id r.native.type settings s.surroundings
    have hafter := h.performAll hmoves
    have hmade := (hmoves.evolves s.surroundings).made_le
    refine Leads.bind (leads_putScope hafter hc hgrows (fun other hother => ?_) fun s' h' => ?_)
    -- the branch leads to the object of the host, which is alive as the host holds it
    · rw [List.mem_singleton.1 hother]
      have hmem : id ∈ s.hosted := Names.mem_holdings hid (List.mem_singleton_self _)
      exact Nat.lt_of_lt_of_le (h.index_lt (.inr (.inr hmem))) hmade
    · exact Leads.bind (leads_accept (fun _ _ => h') h')

theorem insert_safe (source : String) (p : Place) : (insert source p).Safe := by
  intro start hosts s h
  refine Leads.bind (leads_slot (fun x hx => ?_) h)
  have herase := h.eraseSlot hx
  have hsound := h.slots source x hx
  refine Leads.bind (leads_modify (Leads.bind (leads_scopeOr (fun role c hc => ?_) ?_)))
  · rw [List.append_nil] at herase
    exact leads_register herase hc (c.insert_admits hsound.coherent) hsound.known
  -- no scope: the symbol goes back to its slot, which is empty since it was taken
  · have hback := herase.insertSlot hsound source
    have hempty : (s.slots.erase source).get? source = none := by
      rw [Names.get?_erase, if_pos rfl]
    rw [hempty] at hback
    exact leads_modify hback

/-- What leaves a scope by `remove` and what stays behind. -/
theorem run_remove {c rest : Scope} {name : String} {x : Symbol} {w : Surroundings}
    (h : ((c.remove name).run w).1 = some (x, rest)) :
    ∃ y ∈ c.children, x = y.reroot none ∧ rest.info = c.info ∧ rest.policy = c.policy ∧
      rest.children.Sublist c.children ∧ ∀ id, (Symbol.ownedAll c.children).count id =
        y.owned.count id + (Symbol.ownedAll rest.children).count id := by
  unfold Scope.remove at h
  cases hl : c.lookup? name with
  | none =>
    rw [hl] at h
    cases h
  | some y =>
    rw [hl] at h
    obtain ⟨rfl, rfl⟩ := Prod.mk.inj (Option.some.inj h)
    obtain ⟨before, after, hcs, hname, hbefore, -⟩ := Symbol.split_of_find? hl
    have herase : c.children.eraseP (·.name = name) = before ++ after := by
      rw [hcs, Symbol.eraseP_split hname hbefore]
    refine ⟨y, by rw [hcs]; simp, rfl, rfl, rfl, List.eraseP_sublist, fun id => ?_⟩
    dsimp only
    rw [herase, hcs, Symbol.ownedAll_append, Symbol.ownedAll_append, Symbol.ownedAll,
      List.count_append, List.count_append, List.count_append]
    omega

/-- What leaves a scope by `remove` is in hand once the `rest` of the scope is put back. -/
theorem leads_putRest {p : Place} {role : Role} {c rest : Scope} {name : String} {x : Symbol}
    {w : Surroundings} {Q : Unit → Session → Prop} {E : Session → Prop}
    (h : s.Sound start hosts [])
    (hc : s.symbol? p = some (.branch role c.info c.policy c.children))
    (hout : ((c.remove name).run w).1 = some (x, rest))
    (hQ : ∀ s', s'.Sound start hosts x.owned → x.Sound s'.surroundings.made →
      s'.surroundings = s.surroundings → Q () s') : (putScope p rest).Leads s Q E := by
  obtain ⟨info, policy, cs⟩ := rest
  obtain ⟨y, hy, rfl, rfl, rfl, hsublist, hcount⟩ := run_remove hout
  have hsound := h.symbol? hc
  have hat : (Symbol.branch role c.info c.policy c.children).At [y.name] y := ⟨y, hy, rfl, rfl⟩
  have hysound := hsound.descend? (hsound.coherent.descend?_of_at hat)
  have hcounts (id : ObjectId) : (Symbol.branch role c.info c.policy cs).owned.count id +
      y.owned.count id = (Symbol.branch role c.info c.policy c.children).owned.count id +
        ([] : List ObjectId).count id := by
    have := hcount id
    simp only [Symbol.owned, List.count_append, List.count_nil]
    dsimp only at this
    omega
  refine Leads.bind (leads_branch_of_some hc ?_)
  refine leads_put h hc rfl (Symbol.coherent_sublist hsound.coherent hsublist)
    (fun id hid => hsound.known id (Symbol.objects_branch_subset hsublist.subset hid)) hcounts
    fun s' h' hsame => hQ s' ?_ ?_ hsame
  · rw [Symbol.owned_reroot]
    exact h'
  · rw [hsame]
    exact hysound.detached

/-- Taking a child out of a scope by `remove` makes and destroys nothing. -/
theorem remove_still (c : Scope) (name : String) : Keeps Surroundings.Still (c.remove name) := by
  intro w
  unfold Scope.remove
  cases c.lookup? name <;> exact ⟨rfl, fun _ => rfl, rfl⟩

theorem remove_safe (p : Place) (name : String) (into? : Option String) :
    (remove p name into?).Safe := by
  intro start hosts s h
  refine Leads.bind (leads_scope (fun role c hc => Leads.bind (leads_perform ?_)) h)
  have hafter := h.still (remove_still c name s.surroundings)
  cases hout : ((c.remove name).run s.surroundings).1 with
  | none => exact hafter
  | some out =>
    obtain ⟨x, rest⟩ := out
    refine Leads.bind (leads_putRest hafter hc hout fun s' h' hx _ => ?_)
    -- dropped, or handed to a slot
    cases into? with
    | none => exact Leads.bind (leads_perform (h'.performAll x.release_moves))
    | some slot => exact Leads.bind (leads_fill h' hx fun s'' h'' => h'')

theorem setPolicy_safe (p : Place) (policy : CopyPolicy) : (setPolicy p policy).Safe := by
  intro start hosts s h
  refine Leads.bind (leads_scope (fun role c hc => ?_) h)
  exact leads_putScope h hc (Symbol.grows_policy c policy)
    (fun _ hid => absurd hid List.not_mem_nil) fun s' h' => h'

/-! ## §3. Values. -/

/-- To `change` a symbol by an effect that `Overwrites` it keeps a session sound. -/
theorem leads_change {p : Place} {x : Symbol} {f : Symbol → Effect (Attempt Symbol)}
    (h : s.Sound start hosts []) (hx : s.symbol? p = some x) (hf : x.Overwrites (f x)) :
    (change p x f).Leads s (fun _ s' => s'.Sound start hosts []) fun s' =>
      s'.Sound start hosts [] := by
  obtain ⟨hblank, hwritten⟩ := hf s.surroundings
  have hafter := h.still hwritten.still
  refine Leads.bind (leads_perform (Leads.bind ?_))
  exact leads_putGrows hafter hx (.of_blank hblank) (fun _ hid => absurd hid List.not_mem_nil)
    fun s' h' => leads_accept (fun _ _ => h') h'

theorem assign_safe (p : Place) (target source : Path) : (assign p target source).Safe := by
  intro start hosts s h
  exact Leads.bind (leads_branch (fun x hx =>
    leads_change h hx (x.assign_overwrites target source)) h)

theorem assignValue_safe (p : Place) (target : Path) (v : Value) :
    (assignValue p target v).Safe := by
  intro start hosts s h
  exact Leads.bind (leads_branch (fun x hx =>
    leads_change h hx (x.assignValue_overwrites target v)) h)

theorem set_safe (p : Place) (v : Value) : (set p v).Safe := by
  intro start hosts s h
  refine Leads.bind (leads_scalar (fun x hx => Leads.bind (leads_perform ?_)) h)
  obtain ⟨hblank, hwritten⟩ := x.set_overwrites v s.surroundings
  refine Leads.bind (leads_putGrows (h.still hwritten.still) hx (.of_blank hblank)
    (fun _ hid => absurd hid List.not_mem_nil) fun s' h' => ?_)
  exact leads_accept (fun _ _ => h') h'

theorem leads_ensureApart {dst src : Place} {Q : Unit → Session → Prop} {E : Session → Prop}
    (hQ : Q () s) (hE : E s) : (ensureApart dst src).Leads s Q E := by
  unfold ensureApart
  split
  · exact hE
  · exact hQ

theorem copy_safe (dst src : Place) : (copy dst src).Safe := by
  intro start hosts s h
  refine Leads.bind (leads_ensureApart ?_ h)
  refine Leads.bind (leads_symbol (fun x hx => Leads.bind (leads_symbol (fun y _ => ?_) h)) h)
  exact leads_change h hx (x.copyFrom_overwrites y)

theorem copyScope_safe (dst src : Place) : (copyScope dst src).Safe := by
  intro start hosts s h
  refine Leads.bind (leads_ensureApart ?_ h)
  refine Leads.bind (leads_symbol (fun x hx => Leads.bind (leads_symbol (fun y _ => ?_) h)) h)
  refine Leads.bind (leads_require (fun a ha => Leads.bind (leads_require (fun b _ => ?_) h)) h)
  obtain ⟨role, rfl⟩ := Symbol.eq_of_scope? ha
  exact leads_change h hx (Symbol.copyScope_overwrites role a b)

/-- By `clone`, a clone enters a slot with what was made for it. -/
theorem clone_safe (p : Place) (into : String) : (clone p into).Safe := by
  intro start hosts s h
  refine Leads.bind (leads_symbol (fun x hx => Leads.bind (leads_perform ?_)) h)
  have hsound := h.symbol? hx
  have hafter := h.performAll x.tryClone_moves
  have hmade := (x.tryClone_moves.evolves s.surroundings).made_le
  have hclone := x.tryClone_eq_duplicated s.surroundings
  revert hafter hmade hclone
  generalize x.tryClone.run s.surroundings = out
  obtain ⟨e | y, w⟩ := out <;> intro hafter hmade hclone
  · exact hafter
  · obtain ⟨g, rfl, hg⟩ := hclone y rfl (fun id hid => hsound.known id (x.owned_subset_objects hid))
      (h.nodup_owned_symbol? hx)
    refine leads_fill hafter ⟨?_, ?_, fun id hid => ?_⟩ fun s' h' => h'
    · exact Symbol.coherent_of_frame (Symbol.frame_duplicated g [] x).symm hsound.coherent
    · rw [Symbol.info_of_frame (Symbol.frame_duplicated g [] x)]
      exact hsound.rooted
    -- a clone leads to objects of the original and to those made on the way
    · rcases Symbol.mem_objects_duplicated hid with hid | ⟨old, hold, rfl⟩
      · exact Nat.lt_of_lt_of_le (hsound.known id hid) hmade
      · rw [List.append_nil] at hold
        exact (hg old hold).2

/-- What a `take` leaves behind owns nothing, so all that `o` owned is in hand. -/
theorem leads_putEmptied {p : Place} {o : ObjectBinding} {Q : Unit → Session → Prop}
    {E : Session → Prop} (h : s.Sound start hosts []) (ho : s.symbol? p = some (.ofObject o))
    (hQ : ∀ s', s'.Sound start hosts (Symbol.ofObject o).owned →
      s'.surroundings = s.surroundings → Q () s') :
    (put p (.ofObject ⟨{ o.scope with children := [] }, none⟩)).Leads s Q E := by
  have hcounts (id : ObjectId) :
      (Symbol.ofObject ⟨{ o.scope with children := [] }, none⟩).owned.count id +
        (Symbol.ofObject o).owned.count id =
          (Symbol.ofObject o).owned.count id + ([] : List ObjectId).count id :=
    Nat.add_comm _ _
  exact leads_put h ho rfl (.of_leaf rfl) (fun id hid => by cases hid) hcounts hQ

theorem take_safe (p : Place) (into : String) : (take p into).Safe := by
  intro start hosts s h
  refine Leads.bind (leads_object (fun o ho => Leads.bind (leads_perform ?_)) h)
  have hafter := h.still (still_emit (.moved o.label o.owns) s.surroundings)
  have hsound := h.symbol? ho
  refine Leads.bind (leads_putEmptied hafter ho fun s' h' hsame => ?_)
  exact leads_fill h' (hsound.mono (Nat.le_of_eq (by rw [hsame]; rfl))) fun s'' h'' => h''

/-! ## §4. Objects and cells. -/

theorem value_still (x : Scalar) : Keeps Surroundings.Still x.value := by
  intro w
  rw [Scalar.run_value]
  cases x.peek w.store <;> exact ⟨rfl, fun _ => rfl, rfl⟩

theorem call_still (f : Function) (args : List Value) : Keeps Surroundings.Still (f.call args) := by
  unfold Function.call
  cases f.arity? with
  | none => exact .pure _
  | some n =>
    dsimp only
    split
    · exact .pure _
    · exact (still_report _).bind fun _ => .pure _

theorem object_still (o : ObjectBinding) : Keeps Surroundings.Still o.object := by
  refine still_store.bind fun store => ?_
  cases o.peek store with
  | ok found => exact .pure _
  | error e => exact (still_report e).bind fun _ => .pure _

theorem updateObject_still (o : ObjectBinding) (f : Native → α × Native) :
    Keeps Surroundings.Still (o.updateObject f) := by
  refine (object_still o).bind fun r => ?_
  rcases r with e | ⟨id, n⟩
  · exact .pure _
  · exact fun w => Surroundings.still_setNative w id (f n).2

theorem updateObjectAs_still (o : ObjectBinding) (t : NativeType) (f : Native → α × Native) :
    Keeps Surroundings.Still (o.updateObjectAs t f) := by
  refine (object_still o).bind fun r => ?_
  rcases r with e | ⟨id, n⟩
  · exact .pure _
  · dsimp only
    split
    · exact fun w => Surroundings.still_setNative w id (f n).2
    · exact fun w => Surroundings.still_poisonObject w id

theorem leads_acceptSense {r : Except Fault α} {Q : α → Session → Prop} {E : Session → Prop}
    (h : ∀ a, Q a s) (hE : E s) : (acceptSense r).Leads s Q E := by
  cases r with
  | error e => exact hE
  | ok a => exact h a

theorem leads_acceptAccess {r : Except AccessError α} {Q : α → Session → Prop}
    {E : Session → Prop} (h : ∀ a, Q a s) (hE : E s) : (acceptAccess r).Leads s Q E := by
  cases r with
  | error e => exact hE
  | ok a => exact h a

theorem nativeGet_safe (p : Place) (t : NativeType) : (nativeGet p t).Safe := by
  intro start hosts s h
  refine Leads.bind (leads_object (fun o _ => Leads.bind ?_) h)
  exact leads_perform_still h ((object_still o).map _) fun _ _ h' =>
    leads_acceptTyped (fun _ => h') h'

theorem nativeSet_safe (p : Place) (t : NativeType) (field? : Option FieldName) (x : Literal) :
    (nativeSet p t field? x).Safe := by
  intro start hosts s h
  refine Leads.bind (leads_object (fun o _ => Leads.bind ?_) h)
  exact leads_perform_still h (updateObjectAs_still o t _) fun _ _ h' =>
    Leads.bind (leads_acceptTyped (fun _ => leads_acceptSense (fun _ => h') h') h')

theorem objectSet_safe (p : Place) (field? : Option FieldName) (x : Literal) :
    (objectSet p field? x).Safe := by
  intro start hosts s h
  refine Leads.bind (leads_object (fun o _ => Leads.bind ?_) h)
  exact leads_perform_still h (updateObject_still o _) fun _ _ h' =>
    Leads.bind (leads_accept (fun _ _ => leads_acceptSense (fun _ => h') h') h')

theorem setVar_safe (p : Place) (name : String) (v : Value) : (setVar p name v).Safe := by
  intro start hosts s h
  refine Leads.bind (leads_object (fun o _ => Leads.bind ?_) h)
  exact leads_perform_still h (updateObjectAs_still o .organism _) fun _ _ h' =>
    leads_acceptTyped (fun _ => h') h'

theorem getVar_safe (p : Place) (name : String) : (getVar p name).Safe := by
  intro start hosts s h
  refine Leads.bind ((nativeGet_safe p .organism start hosts s h).mono (fun n s' h' => ?_)
    fun _ h' => h')
  obtain ⟨_ | _ | _, _⟩ := n <;> exact h'

/-- To `putStore` another store with the same objects keeps a session sound. -/
theorem leads_putStore {f : Store → Store} {Q : Unit → Session → Prop} {E : Session → Prop}
    (h : s.Sound start hosts hand) (hf : ∀ w : Surroundings, w.Still (w.withStore (f w.store)))
    (hQ : ∀ s', s'.Sound start hosts hand → Q () s') :
    (store >>= fun st => perform (Effect.putStore (f st))).Leads s Q E :=
  Leads.bind (leads_store (leads_perform (hQ _ (h.still (hf s.surroundings)))))

theorem hostSet_safe (name : String) (field? : Option FieldName) (x : Literal) :
    (hostSet name field? x).Safe := by
  intro start hosts s h
  refine Leads.bind (leads_resident (fun id r _ _ => ?_) h)
  dsimp only
  split
  · exact h
  · refine Leads.bind (leads_acceptSense (fun n => ?_) h)
    exact leads_putStore h (fun w => Surroundings.still_setNative w id n) fun _ h' => h'

theorem poisonHost_safe (name : String) : (poisonHost name).Safe := by
  intro start hosts s h
  refine Leads.bind (leads_host (fun id _ => ?_) h)
  exact leads_putStore h (fun w => Surroundings.still_poisonObject w id) fun _ h' => h'

theorem hostCopy_replace_safe (id : ObjectId) (n? : Option Native) :
    (hostCopy.replace id n?).Safe := by
  intro start hosts s h
  cases n? with
  | none => exact h
  | some n =>
    exact Leads.bind (leads_store (Leads.bind (leads_perform
      (h.still (Surroundings.still_setNative s.surroundings id n)))))

theorem hostCopy_safe (name source : String) (custom : Bool) :
    (hostCopy name source custom).Safe := by
  intro start hosts s h
  refine Leads.bind (leads_host (fun dst _ => Leads.bind (leads_host (fun src _ => ?_) h)) h)
  refine Leads.bind (leads_store (Leads.bind (leads_acceptAccess (fun a => ?_) h)))
  refine Leads.bind (leads_acceptAccess (fun b => ?_) h)
  cases custom with
  | false => exact hostCopy_replace_safe dst _ start hosts s h
  | true =>
    rw [if_pos rfl]
    cases a.describe.strategy? with
    | none => exact h
    | some strategy => exact hostCopy_replace_safe dst _ start hosts s h

theorem newCell_safe (name : String) (t : StorageType) (x : t.Raw) : (newCell name t x).Safe := by
  intro start hosts s h
  refine Leads.bind (leads_store (Leads.bind (leads_perform ?_)))
  have hadd := h.still (Surroundings.still_addCell s.surroundings ⟨t, x, false⟩)
  exact leads_modify (hadd.withCells _)

theorem dropCell_safe (name : String) : (dropCell name).Safe := by
  intro start hosts s h
  exact Leads.bind (leads_require (fun _ _ => leads_modify (h.withCells _)) h)

theorem cellSet_safe (name : String) (x : Literal) : (cellSet name x).Safe := by
  intro start hosts s h
  refine Leads.bind (leads_content (fun id c _ => ?_) h)
  dsimp only
  split
  · exact h
  · cases c.type.parse? x with
    | none => exact h
    | some raw => exact leads_putStore h (fun w => Surroundings.still_setCell w id _) fun _ h' => h'

theorem poisonCell_safe (name : String) : (poisonCell name).Safe := by
  intro start hosts s h
  refine Leads.bind (leads_content (fun id c _ => ?_) h)
  exact leads_putStore h (fun w => Surroundings.still_setCell w id _) fun _ h' => h'

/-! ## §5. What the host holds. -/

/-- By `newHost`, an object `n` takes the place of another of its name, which is destroyed. -/
theorem leads_newHost {name : String} {n : Native} {Q : Unit → Session → Prop}
    {E : Session → Prop} (h : s.Sound start hosts [])
    (hQ : ∀ s', s'.Sound start (s.hosts.insert name s.surroundings.store.nextObject) [] → Q () s') :
    (newHost name n).Leads s Q E := by
  have hcreate := h.performAll (create_moves n)
  have hinsert := hcreate.insertHost name
  refine Leads.bind (leads_get (Leads.bind (leads_perform (Leads.bind (leads_modify ?_)))))
  -- without another of the name nothing is left in hand
  cases hold : s.hosts.get? name with
  | none =>
    refine hQ _ (hinsert.congr fun id => ?_)
    rw [hold]
    rfl
  | some old =>
    refine leads_perform (hQ _ (Sound.performAll (hinsert.congr fun id => ?_) (destroy_moves old)))
    rw [hold]
    rfl

/-- By `dropHost`, the host lets go of an object, which is destroyed, or has none called `name`. -/
theorem leads_dropHost {name : String} (h : s.Sound start hosts []) :
    (dropHost name).Leads s (fun _ s' => s'.Sound start (hosts.erase name) []) fun s' =>
      s'.Sound start (hosts.erase name) [] := by
  by_cases hfound : ∃ id, s.hosts.get? name = some id
  · obtain ⟨id, hid⟩ := hfound
    have herase := h.eraseHost hid
    rw [h.hosts_eq] at herase hid
    refine Leads.bind (Leads.bind (leads_get (leads_require_of_some (by rw [h.hosts_eq, hid]) ?_)))
    refine Leads.bind (leads_modify (leads_perform ?_))
    rw [h.hosts_eq]
    exact herase.performAll (destroy_moves id)
  -- nothing of the name: the request fails, and there is nothing to take out either
  · have hnone : hosts.get? name = none := by
      rw [← h.hosts_eq]
      exact Option.eq_none_iff_forall_ne_some.2 fun id hid => hfound ⟨id, hid⟩
    rw [Names.erase_of_none hnone]
    exact Leads.bind (leads_require (fun id hid => absurd ⟨id, hid⟩ hfound) h)

end Request

/-! ## §6. Steps. -/

/-- Whether the operation leaves the host with the objects it has. -/
def Operation.KeepsHosts : Operation → Prop
  | .newHost .. | .dropHost .. => False
  | _ => True

/-- Whether the operation only asks. -/
def Operation.OnlyAsks : Operation → Prop
  | .lookup .. | .resolve .. | .lexical .. | .names .. | .kindOf .. | .dump .. | .describe ..
  | .sameObject .. => True
  | _ => False

namespace Request

/-- **The operations that only ask, by `OnlyAsks`, change nothing.** -/
theorem answer_silent {op : Operation} (hop : op.OnlyAsks) : (answer op).Silent := by
  cases op with
  | lookup p name => exact (silent_scope p).bind fun _ _ => rfl
  | resolve p path => exact (silent_branch p).bind fun _ _ => rfl
  | lexical p start name => exact (silent_branch p).bind fun _ _ => rfl
  | names p =>
    have hlisting : (listing p).Silent := (silent_scope p).bind fun _ _ => rfl
    exact hlisting.map _
  | kindOf p => exact (silent_symbol p).bind fun _ _ => rfl
  | dump p => exact (silent_symbol p).bind fun _ => silent_store.bind fun _ _ => rfl
  | describe p =>
    have hbinding : (binding p).Silent :=
      (silent_object p).bind fun _ => silent_store.bind fun _ _ => rfl
    exact hbinding.map _
  | sameObject a b =>
    have hsame : (sameObject a b).Silent := by
      refine (silent_object a).bind fun _ => (silent_require _ _).bind fun _ => ?_
      exact (silent_object b).bind fun _ => (silent_require _ _).bind fun _ _ => rfl
    exact hsame.map _
  | _ => exact hop.elim

theorem Silent.safe {r : Request α} (hr : r.Silent) : r.Safe :=
  fun _ _ _ hs => hr.leads (fun _ => hs) hs

/-- **Every operation that leaves the host with its objects, by `KeepsHosts`, is safe.** -/
theorem answer_safe {op : Operation} (hop : op.KeepsHosts) : (answer op).Safe := by
  cases op with
  | newScope slot name description policy =>
    exact (fill_safe (sound_detached rfl rfl rfl) rfl).done
  | newScalar slot name description v => exact (fill_safe (sound_detached rfl rfl rfl) rfl).done
  | newLinked slot name description cell => exact (newLinked_safe slot name description cell).done
  | newFunction slot name description c arity? =>
    exact (fill_safe (sound_detached rfl rfl rfl) rfl).done
  | newObject slot name description origin? =>
    exact (newObject_safe slot name description origin?).done
  | dropSlot slot => exact (dropSlot_safe slot).done
  | addScope p name description =>
    exact (register_safe (fun c => c.addScope_admits name description) rfl).map _
  | addScalar p name description v =>
    exact (register_safe (fun c => c.addScalar_admits name description v) rfl).map _
  | addFunction p name description f arity? =>
    exact (register_safe (fun c => c.addFunction_admits name description f arity?) rfl).map _
  | addObject p name description origin? => exact (addObject_safe p name description origin?).map _
  | linkCell p name description cell default =>
    exact (linkCell_safe p name description cell default).map _
  | linkField p name description f default =>
    exact (linkField_safe p name description f default).done
  | insert source p => exact (insert_safe source p).map _
  | remove p name into? => exact (remove_safe p name into?).map _
  | setPolicy p policy => exact (setPolicy_safe p policy).done
  | lookup | resolve | lexical | names | kindOf | dump | describe | sameObject =>
    exact Silent.safe (answer_silent trivial)
  | get p =>
    intro start hosts s h
    refine Leads.bind (leads_scalar (fun x _ => Leads.bind ?_) h)
    exact leads_perform_still h (value_still x) fun _ _ h' =>
      Leads.bind (leads_accept (fun _ _ => h') h')
  | assign p target source => exact (assign_safe p target source).done
  | assignValue p target v => exact (assignValue_safe p target v).done
  | set p v => exact (set_safe p v).done
  | copy dst src => exact (copy_safe dst src).done
  | copyScope dst src => exact (copyScope_safe dst src).done
  | clone p into => exact (clone_safe p into).done
  | take p into => exact (take_safe p into).done
  | call p args =>
    intro start hosts s h
    refine Leads.bind (leads_function (fun f => Leads.bind ?_) h)
    exact leads_perform_still h (call_still f args) fun _ _ h' =>
      Leads.bind (leads_accept (fun _ _ => h') h')
  | nativeGet p t => exact (nativeGet_safe p t).map _
  | nativeSet p t field? x => exact (nativeSet_safe p t field? x).done
  | objectSet p field? x => exact (objectSet_safe p field? x).done
  | setVar p name v => exact (setVar_safe p name v).map _
  | getVar p name => exact (getVar_safe p name).map _
  | newHost name n => exact hop.elim
  | dropHost name => exact hop.elim
  | hostSet name field? x => exact (hostSet_safe name field? x).done
  | poisonHost name => exact (poisonHost_safe name).done
  | hostCopy name source custom => exact (hostCopy_safe name source custom).map _
  | newCell name t x => exact (newCell_safe name t x).done
  | dropCell name => exact (dropCell_safe name).done
  | cellSet name x => exact (cellSet_safe name x).done
  | poisonCell name => exact (poisonCell_safe name).done
  | registerModule name p => exact (registerModule_safe name p).map _
  | setupConfig p t => exact (setupConfig_safe p _).done

end Request

/-- What the host holds after the operation `op` in `s`. -/
def Operation.hostsAfter (op : Operation) (s : Session) : Names ObjectId :=
  match op with
  | .newHost name _ => s.hosts.insert name s.surroundings.store.nextObject
  | .dropHost name => s.hosts.erase name
  | _ => s.hosts

theorem Operation.hostsAfter_of_keeps {op : Operation} (hop : op.KeepsHosts) (s : Session) :
    op.hostsAfter s = s.hosts := by
  cases op <;> first | rfl | exact hop.elim

namespace Session

/-- The session as an operation finds it: with nothing recorded yet. -/
def quiet (s : Session) : Session :=
  { s with surroundings := { s.surroundings with events := #[], destroyed := #[] } }

/-- The session is sound between operations: its trees are, and every live object is held once, by a
slot or by the host. -/
structure Settled (s : Session) : Prop where
  /-- The trees in the slots are sound. -/
  slots : ∀ name x, s.slots.get? name = some x → x.Sound s.surroundings.made
  /-- Every live object is held once, and no other object is. -/
  balance : ∀ id, s.owned.count id + s.hosted.count id = s.surroundings.alive id

theorem Sound.settled {start : Surroundings} {hosts : Names ObjectId} {s : Session}
    (h : s.Sound start hosts []) : s.Settled :=
  ⟨h.slots, fun id => by
    have := h.balance id
    rw [List.count_nil] at this
    omega⟩

theorem Settled.sound {s : Session} (h : s.Settled) :
    s.quiet.Sound s.quiet.surroundings s.hosts [] :=
  ⟨h.slots, rfl, fun id => by
    have := h.balance id
    rw [List.count_nil, Nat.zero_add]
    exact this, Surroundings.evolves_refl _⟩

/-- Where the request of `op` leads, the `step` leads. -/
theorem step_of_leads {s : Session} {op : Operation} {P : Session → Prop}
    (h : (Request.answer op).Leads s.quiet (fun _ s' => P s') P) : P (s.step op).2 := by
  show P ((Request.answer op).outcome s.quiet).2
  unfold Request.Leads at h
  generalize (Request.answer op).outcome s.quiet = out at h
  obtain ⟨e | a, s'⟩ := out <;> exact h

/-- **Every operation keeps a session `Sound`**, with what the host holds then by `hostsAfter`, and
accounts for every object since it began. -/
theorem sound_step {s : Session} (h : s.Settled) (op : Operation) :
    (s.step op).2.Sound s.quiet.surroundings (op.hostsAfter s) [] := by
  refine step_of_leads ?_
  -- all operations but two leave the books of the host alone
  by_cases hop : op.KeepsHosts
  · rw [Operation.hostsAfter_of_keeps hop]
    exact Request.answer_safe hop _ _ _ h.sound
  · cases op with
    | newHost name n => exact Request.Leads.bind (Request.leads_newHost h.sound fun _ h' => h')
    | dropHost name => exact Request.Leads.bind (Request.leads_dropHost h.sound)
    | _ => exact absurd trivial hop

/-- The session after the run `ops` of operations from the empty one. -/
def after (ops : List Operation) : Session := ops.foldl (fun s op => (s.step op).2) {}

theorem after_concat (ops : List Operation) (op : Operation) :
    after (ops ++ [op]) = ((after ops).step op).2 := by
  rw [after, List.foldl_append]
  rfl

/-- **A session is `Settled` after every run.** -/
theorem settled_after (ops : List Operation) : (after ops).Settled := by
  induction ops using List.reverseRecOn with
  | nil =>
    refine ⟨(fun _ _ hx => nomatch hx), fun id => ?_⟩
    show 0 = Surroundings.alive {} id
    simp [Surroundings.alive, Store.isLive, Store.object?]
  | append_singleton ops op ih =>
    rw [after_concat]
    exact (sound_step ih op).settled

end Session

end ConfigTree
