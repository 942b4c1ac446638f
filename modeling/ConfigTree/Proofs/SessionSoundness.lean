import ConfigTree.Proofs.ObjectAccounts
import ConfigTree.Proofs.Coherence
import ConfigTree.Proofs.RequestLogic

/-!
# Sound sessions

Between operations every live object is held exactly once, by a binding in some slot or by the host,
and the tree in every slot is coherent.  During an operation some objects are held by neither: they
are in the hand of whoever carries the operation out.  `Session.Sound` is the invariant with that
hand in the books, so that it holds at every point of an operation, and with what must have become
of the objects since the operation began.

Main results:
  * `Names.count_insert`, `Names.count_erase` — what a collection holds when an entry changes;
  * `Session.Sound.perform`, `Session.Sound.insertSlot`, `Session.Sound.eraseSlot`,
    `Session.Sound.replaceSlot` — how each step of a request moves objects between slots, host and
    hand;
  * `Request.leads_fill`, `Request.leads_put` — the same for requests.
-/

namespace ConfigTree

/-! ## §1. What a collection holds. -/

namespace Names

variable {α : Type}

/-- The objects that the things in `m` hold by `f`, in the order of their names. -/
def holdings (m : Names α) (f : α → List ObjectId) : List ObjectId := m.values.flatMap f

theorem mem_of_findIn {entries : List (String × α)} {name : String} {x : α}
    (h : findIn name entries = some x) : (name, x) ∈ entries := by
  induction entries with
  | nil => cases h
  | cons e rest ih =>
    rw [findIn] at h
    split at h
    case isTrue heq =>
      cases h
      rw [← heq]
      exact List.mem_cons_self
    case isFalse => exact List.mem_cons_of_mem _ (ih h)

/-- What stands under `name` is among the `holdings`. -/
theorem mem_holdings {m : Names α} {name : String} {x : α} (h : m.get? name = some x)
    {f : α → List ObjectId} {id : ObjectId} (hid : id ∈ f x) : id ∈ m.holdings f :=
  List.mem_flatMap.2 ⟨x, List.mem_map_of_mem (mem_of_findIn h), hid⟩

/-- Each of the `entries` is what stands under its name. -/
theorem get?_of_mem {m : Names α} {name : String} {x : α} (h : (name, x) ∈ m.entries) :
    m.get? name = some x := by
  obtain ⟨entries, hasc⟩ := m
  unfold get?
  induction entries with
  | nil => cases h
  | cons d rest ih =>
    obtain ⟨hlt, hrest⟩ := List.pairwise_cons.1 hasc
    -- an earlier entry of the same name would not come before this one
    rw [findIn]
    rcases List.mem_cons.1 h with rfl | h
    · rw [if_pos rfl]
    · rw [if_neg fun heq : d.1 = name => String.lt_irrefl _ (heq ▸ hlt _ h)]
      exact ih hrest h

theorem findIn_eq_none {entries : List (String × α)} {name : String}
    (h : ∀ e ∈ entries, e.1 ≠ name) : findIn name entries = none := by
  induction entries with
  | nil => rfl
  | cons e rest ih =>
    rw [findIn, if_neg (h e List.mem_cons_self), ih fun d hd => h d (List.mem_cons_of_mem _ hd)]

theorem count_insert (m : Names α) (f : α → List ObjectId) (name : String) (x : α)
    (id : ObjectId) :
    ((m.insert name x).holdings f).count id + ((m.get? name).elim [] f).count id =
      (m.holdings f).count id + (f x).count id := by
  obtain ⟨entries, hasc⟩ := m
  simp only [holdings, values, insert, get?]
  induction entries with
  | nil => simp [insertInto, findIn]
  | cons e rest ih =>
    obtain ⟨hlt, hrest⟩ := List.pairwise_cons.1 hasc
    -- the new entry goes before the first, in place of it, or further back
    by_cases hbefore : name < e.1
    -- all names here come after `name`, so nothing stands under it
    · have hnone : findIn name (e :: rest) = none := by
        refine findIn_eq_none fun d hd heq => ?_
        rcases List.mem_cons.1 hd with rfl | hd
        · exact String.lt_irrefl _ (heq ▸ hbefore)
        · exact String.lt_irrefl _ (String.lt_trans hbefore (heq ▸ hlt d hd))
      simp only [insertInto, if_pos hbefore, hnone, List.map_cons, List.flatMap_cons,
        List.count_append, Option.elim_none, List.count_nil]
      omega
    · by_cases heq : name = e.1
      · simp only [insertInto, if_neg hbefore, if_pos heq, findIn, if_pos heq.symm, List.map_cons,
          List.flatMap_cons, List.count_append, Option.elim_some]
        omega
      · have := ih hrest
        simp only [insertInto, if_neg hbefore, if_neg heq, findIn, if_neg (Ne.symm heq),
          List.map_cons, List.flatMap_cons, List.count_append]
        omega

/-- Taking out what is not there by `erase` changes nothing. -/
theorem erase_of_none {m : Names α} {name : String} (h : m.get? name = none) :
    m.erase name = m := by
  obtain ⟨entries, hasc⟩ := m
  have hkeep : entries.filter (·.1 ≠ name) = entries := by
    refine List.filter_eq_self.2 fun e he => ?_
    have hne : e.1 ≠ name := by
      rintro rfl
      rw [get?_of_mem he] at h
      cases h
    simpa using hne
  simp only [erase, hkeep]

theorem count_erase (m : Names α) (f : α → List ObjectId) (name : String) (id : ObjectId) :
    ((m.erase name).holdings f).count id + ((m.get? name).elim [] f).count id =
      (m.holdings f).count id := by
  obtain ⟨entries, hasc⟩ := m
  simp only [holdings, values, erase, get?]
  induction entries with
  | nil => simp [findIn]
  | cons e rest ih =>
    obtain ⟨hlt, hrest⟩ := List.pairwise_cons.1 hasc
    by_cases heq : e.1 = name
    -- names are ascending, so the others are kept
    · have hkeep : rest.filter (fun d => decide (d.1 ≠ name)) = rest := by
        refine List.filter_eq_self.2 fun d hd => ?_
        have hne : d.1 ≠ name := fun h => String.lt_irrefl _ (h ▸ heq ▸ hlt d hd)
        simpa using hne
      rw [List.filter_cons_of_neg (by simpa using heq), hkeep, findIn, if_pos heq]
      simp only [List.map_cons, List.flatMap_cons, List.count_append, Option.elim_some]
      omega
    · have := ih hrest
      rw [List.filter_cons_of_pos (by simpa using heq), findIn, if_neg heq]
      simp only [List.map_cons, List.flatMap_cons, List.count_append]
      omega

end Names

/-! ## §2. The invariant. -/

/-- What is asked of a symbol in a slot: its tree is `Coherent` below a path that can be spelled,
and it leads to objects only that were `made`. -/
structure Symbol.Sound (made : Nat) (x : Symbol) : Prop where
  /-- The tree is coherent. -/
  coherent : x.Coherent
  /-- The path of the root can be spelled. -/
  rooted : ∀ k ∈ x.info.path.segments, Path.validName k = true
  /-- The objects were made. -/
  known : ∀ id ∈ x.objects, id.index < made

theorem Symbol.Sound.mono {made made' : Nat} {x : Symbol} (h : x.Sound made)
    (hle : made ≤ made') : x.Sound made' :=
  ⟨h.coherent, h.rooted, fun id hid => Nat.lt_of_lt_of_le (h.known id hid) hle⟩

/-- Whatever `descend?` finds in a sound tree is sound. -/
theorem Symbol.Sound.descend? {made : Nat} {x y : Symbol} {ks : List String} (h : x.Sound made)
    (hy : x.descend? ks = some y) : y.Sound made := by
  have hat := at_of_descend? hy
  refine ⟨h.coherent.at_coherent hat, ?_, fun id hid => h.known id (objects_subset_of_at hat hid)⟩
  rw [h.coherent.path_of_at hat]
  intro k hk
  rcases List.mem_append.1 hk with hk | hk
  · exact h.rooted k hk
  · exact h.coherent.valid_of_at hat k hk

/-- A sound symbol that is detached by `reroot none` is sound. -/
theorem Symbol.Sound.detached {made : Nat} {x : Symbol} (h : x.Sound made) :
    (x.reroot none).Sound made := by
  refine ⟨coherent_reroot h.coherent none, ?_, fun id hid => ?_⟩
  · rw [info_reroot]
    exact fun _ hk => absurd hk List.not_mem_nil
  · rw [objects_reroot] at hid
    exact h.known id hid

namespace Session

/-- The objects that the bindings in the slots own. -/
def owned (s : Session) : List ObjectId := s.slots.holdings Symbol.owned

/-- The objects that the host holds. -/
def hosted (s : Session) : List ObjectId := s.hosts.holdings fun id => [id]

/-- The invariant of an operation that began in the surroundings `start`, with the objects `hosts`
of the host and with what is in `hand`: every live object is held once, and no object was lost
since. -/
structure Sound (start : Surroundings) (hosts : Names ObjectId) (hand : List ObjectId)
    (s : Session) : Prop where
  /-- The trees in the slots are sound. -/
  slots : ∀ name x, s.slots.get? name = some x → x.Sound s.surroundings.made
  /-- The host holds the given objects. -/
  hosts_eq : s.hosts = hosts
  /-- Every live object is held once, and no other object is. -/
  balance : ∀ id, hand.count id + s.owned.count id + s.hosted.count id = s.surroundings.alive id
  /-- Every object since the start is accounted for. -/
  evolves : start.Evolves s.surroundings

variable {start : Surroundings} {hosts : Names ObjectId} {hand hand' kept : List ObjectId}
  {s : Session} {α : Type}

/-- Only how often each object is in `hand` matters. -/
theorem Sound.congr (h : s.Sound start hosts hand) (hcount : ∀ id, hand'.count id = hand.count id) :
    s.Sound start hosts hand' :=
  ⟨h.slots, h.hosts_eq, fun id => by rw [hcount, h.balance], h.evolves⟩

/-- What `symbol?` finds in a slot is sound. -/
theorem Sound.symbol? (h : s.Sound start hosts hand) {p : Place} {x : Symbol}
    (hx : s.symbol? p = some x) : x.Sound s.surroundings.made := by
  obtain ⟨tree, htree, hdescend⟩ := Option.bind_eq_some_iff.1 hx
  exact (h.slots _ _ htree).descend? hdescend

/-- An object in `hand`, in a slot or with the host is alive. -/
theorem Sound.isLive (h : s.Sound start hosts hand) {id : ObjectId}
    (hid : id ∈ hand ∨ id ∈ s.owned ∨ id ∈ s.hosted) :
    s.surroundings.store.isLive id = true := by
  have hbalance := h.balance id
  unfold Surroundings.alive at hbalance
  cases hlive : s.surroundings.store.isLive id with
  | true => rfl
  | false =>
    rw [hlive, Bool.toNat_false] at hbalance
    rcases hid with hid | hid | hid <;> have := List.count_pos_iff.2 hid <;> omega

/-- An object that is held was `made`. -/
theorem Sound.index_lt (h : s.Sound start hosts hand) {id : ObjectId}
    (hid : id ∈ hand ∨ id ∈ s.owned ∨ id ∈ s.hosted) : id.index < s.surroundings.made :=
  Store.index_lt_of_isLive (h.isLive hid)

/-- No object is in `hand` twice. -/
theorem Sound.nodup_hand (h : s.Sound start hosts hand) : hand.Nodup := by
  refine List.nodup_iff_count_le_one.2 fun id => ?_
  have hbalance := h.balance id
  have hle := s.surroundings.alive_le_one id
  omega

/-- No object has two owners in the slots. -/
theorem Sound.nodup_owned (h : s.Sound start hosts hand) : s.owned.Nodup := by
  refine List.nodup_iff_count_le_one.2 fun id => ?_
  have hbalance := h.balance id
  have hle := s.surroundings.alive_le_one id
  omega

/-- The slots own what the symbol `x` in one of them owns. -/
theorem owned_sublist_of_slot {name : String} {x : Symbol} (hx : s.slots.get? name = some x) :
    x.owned.Sublist s.owned :=
  List.sublist_flatten_of_mem (List.mem_map_of_mem (List.mem_map_of_mem (Names.mem_of_findIn hx)))

/-- No object has two owners in what `symbol?` finds in a slot. -/
theorem Sound.nodup_owned_symbol? (h : s.Sound start hosts hand) {p : Place} {x : Symbol}
    (hx : s.symbol? p = some x) : x.owned.Nodup := by
  obtain ⟨tree, htree, hdescend⟩ := Option.bind_eq_some_iff.1 hx
  refine (Symbol.owned_sublist_of_at (Symbol.at_of_descend? hdescend)).nodup ?_
  exact (owned_sublist_of_slot htree).nodup h.nodup_owned

/-! ## §3. Steps of a request. -/

/-- **What an effect `Moves` from what it is handed is in hand afterwards.** -/
theorem Sound.perform {e : Effect α} {outs : α → List ObjectId}
    (h : s.Sound start hosts (hand ++ kept)) (he : Effect.Moves hand e outs) :
    Sound start hosts (outs (e.run s.surroundings).1 ++ kept)
      { s with surroundings := (e.run s.surroundings).2 } := by
  obtain ⟨hstart, hmoves⟩ := he s.surroundings
  refine ⟨fun name x hx => (h.slots name x hx).mono hstart.made_le, h.hosts_eq, fun id => ?_,
    Surroundings.evolves_trans h.evolves hstart⟩
  -- what is kept, in a slot or with the host is elsewhere as the effect sees it
  have hafter := hmoves (fun id => kept.count id + s.owned.count id + s.hosted.count id)
    (fun id => by
      have := h.balance id
      rw [List.count_append] at this
      omega) id
  show (outs (e.run s.surroundings).1 ++ kept).count id + s.owned.count id + s.hosted.count id =
    (e.run s.surroundings).2.alive id
  rw [List.count_append]
  omega

/-- What an effect `Moves` from all that is in `hand` is all that is in hand afterwards. -/
theorem Sound.performAll {e : Effect α} {outs : α → List ObjectId} (h : s.Sound start hosts hand)
    (he : Effect.Moves hand e outs) :
    Sound start hosts (outs (e.run s.surroundings).1)
      { s with surroundings := (e.run s.surroundings).2 } := by
  rw [← List.append_nil hand] at h
  have hafter := h.perform he
  rwa [List.append_nil] at hafter

/-- A symbol `x` in hand can be put into the slot `name`; what the slot held is in hand then. -/
theorem Sound.insertSlot {x : Symbol} (h : s.Sound start hosts (x.owned ++ hand))
    (hx : x.Sound s.surroundings.made) (name : String) :
    Sound start hosts ((s.slots.get? name).elim [] Symbol.owned ++ hand)
      { s with slots := s.slots.insert name x } := by
  refine ⟨fun other y hy => ?_, h.hosts_eq, fun id => ?_, h.evolves⟩
  · rw [Names.get?_insert] at hy
    split at hy
    case isTrue => exact Option.some.inj hy ▸ hx
    case isFalse => exact h.slots other y hy
  · have hslots := s.slots.count_insert Symbol.owned name x id
    have hbalance := h.balance id
    show _ + ((s.slots.insert name x).holdings Symbol.owned).count id + s.hosted.count id = _
    rw [List.count_append] at hbalance ⊢
    unfold owned at hbalance
    dsimp only
    omega

/-- What is taken out of the slot `name` is in hand. -/
theorem Sound.eraseSlot {x : Symbol} {name : String} (h : s.Sound start hosts hand)
    (hx : s.slots.get? name = some x) :
    Sound start hosts (x.owned ++ hand) { s with slots := s.slots.erase name } := by
  refine ⟨fun other y hy => ?_, h.hosts_eq, fun id => ?_, h.evolves⟩
  · rw [Names.get?_erase] at hy
    split at hy
    case isTrue => cases hy
    case isFalse => exact h.slots other y hy
  · have hslots := s.slots.count_erase Symbol.owned name id
    have hbalance := h.balance id
    rw [hx, Option.elim_some] at hslots
    show _ + ((s.slots.erase name).holdings Symbol.owned).count id + s.hosted.count id = _
    rw [List.count_append]
    unfold owned at hbalance
    dsimp only
    omega

/-- The session with the tree `new` in a slot that has `old` is sound if the hand makes up for what
the two own. -/
theorem Sound.replaceSlot {old new : Symbol} {name : String} (h : s.Sound start hosts hand)
    (hold : s.slots.get? name = some old) (hnew : new.Sound s.surroundings.made)
    (howned : ∀ id, new.owned.count id + hand'.count id = old.owned.count id + hand.count id) :
    Sound start hosts hand' { s with slots := s.slots.insert name new } := by
  refine ⟨fun other y hy => ?_, h.hosts_eq, fun id => ?_, h.evolves⟩
  · rw [Names.get?_insert] at hy
    split at hy
    case isTrue => exact Option.some.inj hy ▸ hnew
    case isFalse => exact h.slots other y hy
  · have hslots := s.slots.count_insert Symbol.owned name new id
    have hbalance := h.balance id
    have hcount := howned id
    rw [hold, Option.elim_some] at hslots
    show _ + ((s.slots.insert name new).holdings Symbol.owned).count id + s.hosted.count id = _
    unfold owned at hbalance
    dsimp only
    omega

/-- An object `id` in hand can be given to the host; what the host had under `name` is in hand
then. -/
theorem Sound.insertHost {id : ObjectId} (h : s.Sound start hosts [id]) (name : String) :
    Sound start (s.hosts.insert name id) (s.hosts.get? name).toList
      { s with hosts := s.hosts.insert name id } := by
  refine ⟨h.slots, rfl, fun other => ?_, h.evolves⟩
  have hcount := s.hosts.count_insert (fun id => [id]) name id other
  have hbalance := h.balance other
  have hold : ((s.hosts.get? name).elim [] fun id => [id]) = (s.hosts.get? name).toList := by
    cases s.hosts.get? name <;> rfl
  rw [hold] at hcount
  show _ + s.owned.count other + ((s.hosts.insert name id).holdings fun id => [id]).count other = _
  unfold hosted at hbalance
  dsimp only
  omega

/-- What the host has under `name` and lets go of is in hand. -/
theorem Sound.eraseHost {id : ObjectId} {name : String} (h : s.Sound start hosts [])
    (hid : s.hosts.get? name = some id) :
    Sound start (s.hosts.erase name) [id] { s with hosts := s.hosts.erase name } := by
  refine ⟨h.slots, rfl, fun other => ?_, h.evolves⟩
  have hcount := s.hosts.count_erase (fun id => [id]) name other
  have hbalance := h.balance other
  rw [hid, Option.elim_some] at hcount
  show _ + s.owned.count other + ((s.hosts.erase name).holdings fun id => [id]).count other = _
  unfold hosted at hbalance
  rw [List.count_nil] at hbalance
  dsimp only
  omega

end Session

/-! ## §4. Putting and filling. -/

namespace Request

open Session

variable {start : Surroundings} {hosts : Names ObjectId} {hand hand' kept : List ObjectId}
  {s : Session} {E : Session → Prop} {α : Type}

/-- **By `put`, a symbol `new` takes the place of `old`, which has the same name and place**; the
difference between what the two own moves into the hand or out of it. -/
theorem leads_put {p : Place} {old new : Symbol} {Q : Unit → Session → Prop}
    (h : s.Sound start hosts hand) (hold : s.symbol? p = some old) (hinfo : new.info = old.info)
    (hcoherent : new.Coherent) (hknown : ∀ id ∈ new.objects, id.index < s.surroundings.made)
    (howned : ∀ id, new.owned.count id + hand'.count id = old.owned.count id + hand.count id)
    (hQ : ∀ s', s'.Sound start hosts hand' → s'.surroundings = s.surroundings → Q () s') :
    (put p new).Leads s Q E := by
  obtain ⟨tree, htree, hdescend⟩ := Option.bind_eq_some_iff.1 hold
  obtain ⟨tree', hreplace⟩ := Symbol.replace?_of_descend? hdescend new
  have htree' := h.slots _ _ htree
  have hname : new.name = old.name := congrArg Info.name hinfo
  -- coherence by name and place of the new node; what it leads to is known either way
  have hsound : tree'.Sound s.surroundings.made := by
    refine ⟨Symbol.coherent_replace? hreplace hdescend hinfo htree'.coherent hcoherent, ?_, ?_⟩
    · rw [Symbol.info_replace? hreplace hdescend hinfo]
      exact htree'.rooted
    · intro id hid
      rcases Symbol.objects_replace? hreplace hdescend hname id hid with hid | hid
      · exact htree'.known id hid
      · exact hknown id hid
  have hcount (id : ObjectId) : tree'.owned.count id + hand'.count id =
      tree.owned.count id + hand.count id := by
    have h₁ := Symbol.count_owned_replace? hreplace hdescend hname id
    have h₂ := howned id
    omega
  have hafter := h.replaceSlot htree hsound hcount
  refine leads_modify ?_
  rw [htree, Option.bind_some, hreplace]
  exact hQ _ hafter rfl

/-- **By `fill`, a slot gets a symbol `x` in hand**; what was there is destroyed. -/
theorem leads_fill {name : String} {x : Symbol} {Q : Unit → Session → Prop}
    (h : s.Sound start hosts x.owned) (hx : x.Sound s.surroundings.made)
    (hQ : ∀ s', s'.Sound start hosts [] → Q () s') : (fill name x).Leads s Q E := by
  rw [← List.append_nil x.owned] at h
  have hinsert := h.insertSlot hx name
  refine Leads.bind (leads_get (Leads.bind (leads_modify ?_)))
  cases hold : s.slots.get? name with
  | none =>
    rw [hold] at hinsert
    exact hQ _ hinsert
  | some old =>
    rw [hold] at hinsert
    exact leads_perform (hQ _ (hinsert.perform old.release_moves))

end Request

end ConfigTree
