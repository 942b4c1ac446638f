import ConfigTree.Proofs.ScopeNames

/-!
# When symbols were registered

A chronicle is a session together with a clock and, for every place, the time of the registration
that put the symbol there, which the symbol keeps as it moves along with what encloses it.  The
names of a scope are in the order of these times, through every run: whatever an operation leaves in
a scope was there or in the scope that it comes from, in the same order, and what it adds comes
behind.

Main results:
  * `Session.Turn.continues` — what an operation can make of the names of a scope;
  * `Chronicle.Ordered.step`, `Chronicle.ordered_after` — the names of all scopes are in the order
    of registration.
-/

namespace ConfigTree

/-! ## §1. Where symbols come from. -/

namespace Session

variable {s s' : Session} {op : Operation} {done : Bool} {p q q₀ : Place}
  {k name slot : String} {l new : List String}

/-- Where the symbol at `q` was before the operation `op` that has done its work, if it was there: a
symbol that is moved or cloned comes with all that is below it, and what is inserted into a scope is
new there. -/
def origin (s : Session) (op : Operation) (q : Place) : Place :=
  match op with
  | .remove p name (some slot) => if q.slot = slot then (p.child name).below q.path else q
  | .clone p into | .take p into => if q.slot = into then p.below q.path else q
  | .insert source p =>
    match p.way? q with
    | some (k :: j :: ks) =>
      if (s.slots.get? source).map Symbol.name = some k then ⟨source, ⟨j :: ks⟩⟩ else q
    | _ => q
  | _ => q

/-- Where the symbol at `q` was before the operation `op` that has done its work or has not, by
`origin`. -/
def source (s : Session) (op : Operation) (done : Bool) (q : Place) : Place :=
  if done = true then s.origin op q else q

end Session

/-! ## §2. Chronicles. -/

/-- A session, and when what there is at its places was registered. -/
structure Chronicle where
  /-- The session by now. -/
  session : Session := {}
  /-- A time that is not over yet. -/
  clock : Nat := 0
  /-- The time of the last registration at a place. -/
  since : Place → Nat := fun _ => 0

namespace Chronicle

/-- The chronicle after one more operation `op`.  A symbol that was somewhere before, at its
`source`, keeps its time; one that was not is registered now, and settings in the order in which
they are linked. -/
def step (c : Chronicle) (op : Operation) : Chronicle where
  session := (c.session.step op).2
  clock := c.clock + (c.session.settings op).length + 1
  since q :=
    let before := c.session.source op (c.session.succeeds op) q
    if (c.session.symbol? before).isSome then c.since before
    else c.clock + (c.session.settings op).idxOf (q.path.segments.getLastD "")

/-- The chronicle of a run of operations `ops` from the empty session. -/
def after (ops : List Operation) : Chronicle := ops.foldl step {}

theorem after_concat (ops : List Operation) (op : Operation) :
    after (ops ++ [op]) = (after ops).step op := by
  rw [after, List.foldl_append]
  rfl

theorem session_after (ops : List Operation) : (after ops).session = Session.after ops := by
  induction ops using List.reverseRecOn with
  | nil => rfl
  | append_singleton ops op ih =>
    rw [after_concat, Session.after_concat, ← ih]
    rfl

/-- The names of every scope are in the order of their registration. -/
structure Ordered (c : Chronicle) : Prop where
  /-- The times `since` ascend along the names `l` of a scope. -/
  ascending : ∀ p l, c.session.names? p = some l →
    l.Pairwise fun j k => c.since (p.child j) < c.since (p.child k)
  /-- All the times are over, before `clock`. -/
  past : ∀ p l, c.session.names? p = some l → ∀ k ∈ l, c.since (p.child k) < c.clock

end Chronicle

namespace Session

variable {s s' : Session} {op : Operation} {done : Bool} {p q q₀ : Place}
  {k name slot : String} {l l₀ new names : List String} {from? : Place → Place}
  {below : List String → Option (List String)}

/-! ## §3. What an operation can make of the names of a scope. -/

/-- The names `l` are some of those of a scope before, in their order, followed by new ones, in the
order of `settings`. -/
def Continues (s : Session) (from? : Place → Place) (settings : List String) (q : Place)
    (l : List String) : Prop :=
  ∃ q₀ old new, l = old ++ new ∧ old.Sublist ((s.names? q₀).getD []) ∧
    (∀ k ∈ old, from? (q.child k) = q₀.child k) ∧
    (∀ k ∈ new, s.symbol? (from? (q.child k)) = none) ∧
    new.Pairwise fun j k => settings.idxOf j < settings.idxOf k

theorem Continues.of_sublist (h : s.names? q₀ = some l₀) (hl : l.Sublist l₀)
    (hfrom : ∀ k, from? (q.child k) = q₀.child k) : s.Continues from? names q l :=
  ⟨q₀, l, [], (List.append_nil l).symm, by rwa [h], fun k _ => hfrom k, nofun, .nil⟩

theorem Continues.of_leaf {ks : List String} (h : Symbol.leafNames? ks = some l) :
    s.Continues from? names q l := by
  unfold Symbol.leafNames? at h
  split at h <;> cases h
  exact ⟨q, [], [], rfl, List.nil_sublist _, nofun, nofun, .nil⟩

/-- The first of a list of `names`, those in `new`, are in the order of the list, if they differ. -/
theorem pairwise_idxOf (hnew : new <+: names) (h : new.Nodup) :
    new.Pairwise fun j k => names.idxOf j < names.idxOf k := by
  obtain ⟨rest, rfl⟩ := hnew
  rw [List.pairwise_iff_getElem]
  intro i j hi hj hij
  rw [List.idxOf_append_of_mem (List.getElem_mem hi),
    List.idxOf_append_of_mem (List.getElem_mem hj), h.idxOf_getElem _ hi, h.idxOf_getElem _ hj]
  exact hij

/-- Before a symbol entered a scope by one of the names in `new` there was none of its name. -/
theorem symbol?_of_entered (hs' : s'.Settled)
    (h : s'.names? p = (s.names? p).map (· ++ new)) (hk : k ∈ new) :
    s.symbol? (p.child k) = none := by
  cases hl : s.names? p with
  | none => rw [symbol?_child, Option.map_eq_none_iff.1 hl, Option.bind_none]
  | some l =>
    rw [hl] at h
    rw [← Option.not_isSome_iff_eq_none, isSome_symbol?_child hl]
    exact fun hold => (List.nodup_append.1 (hs'.nodup_names h)).2.2 k hold k hk rfl

/-- What enters a scope by the names in `new` is new there and comes behind, so the names `l` go on
by `Continues`. -/
theorem Continues.of_entered (hs' : s'.Settled) (hl : s'.names? q = some l)
    (h : s.namesEntered p new below q = some l)
    (hfrom : ∀ r, (∀ k j ks, p.way? r = some (k :: j :: ks) → k ∉ new) → from? r = r)
    (hbelow : ∀ k ks, k ∈ new → q = p.below ⟨k :: ks⟩ → below ks = some l →
      s.Continues from? names q l)
    (hnew : new.Nodup → new.Pairwise fun j k => names.idxOf j < names.idxOf k) :
    s.Continues from? names q l := by
  unfold namesEntered at h
  split at h
  case h_1 hway =>
    obtain ⟨l₀, hl₀, rfl⟩ := Option.map_eq_some_iff.1 h
    have hnodup := (List.nodup_append.1 (hs'.nodup_names hl)).2.1
    obtain rfl := Place.way?_eq_some.1 hway
    have hstay (k : String) : from? ((p.below ⟨[]⟩).child k) = (p.below ⟨[]⟩).child k := by
      refine hfrom _ fun i j ks hchild => ?_
      rw [Place.child_below, Place.way?_below] at hchild
      cases hchild
    refine ⟨p.below ⟨[]⟩, l₀, new, rfl, by rw [hl₀, Option.getD_some], fun k _ => hstay k,
      fun k hk => ?_, hnew hnodup⟩
    rw [hstay k]
    exact symbol?_of_entered hs' (by rw [hl, hl₀, Option.map_some]) hk
  case h_2 k ks hway =>
    obtain rfl := Place.way?_eq_some.1 hway
    split at h
    case isTrue hk => exact hbelow k ks hk rfl h
    case isFalse hk =>
      refine .of_sublist h (List.Sublist.refl l) fun j => hfrom _ fun i i' js hchild => ?_
      rw [Place.child_below, Place.way?_below, Option.some.injEq, List.cons_append] at hchild
      rwa [← (List.cons.inj hchild).1]
  case h_3 hway =>
    refine .of_sublist h (List.Sublist.refl l) fun j => hfrom _ fun i i' js hchild => ?_
    rcases Place.way?_child_of_none hway j with hnone | hself
    · rw [hnone] at hchild
      cases hchild
    · rw [hself] at hchild
      cases hchild

/-- What is left in a scope of which the symbol `name` has left is in the order in which it was. -/
theorem Continues.of_left (h : s.namesLeft p name q = some l)
    (hfrom : ∀ k, from? (q.child k) = q.child k) : s.Continues from? names q l := by
  unfold namesLeft at h
  split at h
  · obtain ⟨l₀, hl₀, rfl⟩ := Option.map_eq_some_iff.1 h
    exact .of_sublist hl₀ List.erase_sublist hfrom
  · split at h
    · cases h
    · exact .of_sublist h (List.Sublist.refl l) hfrom
  · exact .of_sublist h (List.Sublist.refl l) hfrom

/-- What is offered comes from the slot of an `insert`, or it is a leaf. -/
theorem leaf_of_offer {o : Offer} (h : s.offer? op = some (p, o)) :
    o.symbol.children = [] ∨
      ∃ source, op = .insert source p ∧ s.slots.get? source = some o.symbol := by
  cases op with
  | addScope | addScalar | addFunction =>
    obtain ⟨-, c, -, rfl⟩ := offering_eq_some.1 h
    exact .inl rfl
  | addObject q name description origin? =>
    cases origin? with
    | none =>
      obtain ⟨-, c, -, rfl⟩ := offering_eq_some.1 h
      exact .inl rfl
    | some origin =>
      obtain ⟨hd, -, h⟩ := Option.bind_eq_some_iff.1 h
      obtain ⟨-, c, -, rfl⟩ := offering_eq_some.1 h
      exact .inl rfl
  | linkCell q name description cell default =>
    obtain ⟨⟨id, k⟩, -, h⟩ := Option.bind_eq_some_iff.1 h
    obtain ⟨x, -, h⟩ := Option.bind_eq_some_iff.1 h
    obtain ⟨-, c, -, rfl⟩ := offering_eq_some.1 h
    exact .inl rfl
  | linkField q name description f default =>
    obtain ⟨b, -, h⟩ := Option.bind_eq_some_iff.1 h
    obtain ⟨hd, -, h⟩ := Option.bind_eq_some_iff.1 h
    cases h
    exact .inl rfl
  | insert source r =>
    obtain ⟨x, hx, h⟩ := Option.bind_eq_some_iff.1 h
    split at h
    · cases h
    · obtain ⟨rfl, c, -, rfl⟩ := offering_eq_some.1 h
      exact .inr ⟨source, rfl, hx⟩
  | _ => cases h

/-- What is at or outside the symbol that is offered was where it is, so `origin` is `q`. -/
theorem origin_of_offer {o : Offer} (h : s.offer? op = some (p, o))
    (hq : ∀ k j ks, p.way? q = some (k :: j :: ks) → k ∉ [o.name]) : s.origin op q = q := by
  cases op with
  | insert source r =>
    obtain ⟨x, hx, h⟩ := Option.bind_eq_some_iff.1 h
    split at h
    · cases h
    · obtain ⟨rfl, c, -, rfl⟩ := offering_eq_some.1 h
      unfold origin
      dsimp only
      split
      case h_1 k j ks hway =>
        refine if_neg fun hname => hq k j ks hway ?_
        rw [hx, Option.map_some, Option.some.injEq] at hname
        exact List.mem_singleton.2 hname.symm
      case h_2 => rfl
  | remove | clone | take => cases h
  | _ => rfl

/-- What is below an inserted symbol `x` was below it in the slot `source`. -/
theorem origin_insert_below {source : String} {x : Symbol} (hx : s.slots.get? source = some x)
    (ks : List String) (j : String) :
    s.origin (.insert source p) ((p.below ⟨x.name :: ks⟩).child j) =
      (⟨source, ⟨ks⟩⟩ : Place).child j := by
  obtain ⟨j', js, hjs⟩ : ∃ j' js, ks ++ [j] = j' :: js :=
    List.exists_cons_of_ne_nil (List.append_ne_nil_of_right_ne_nil _ (List.cons_ne_nil _ _))
  unfold origin
  simp only [Place.child_below, Place.way?_below, List.cons_append, hjs, hx, Option.map_some,
    if_true]
  simp [Place.child, Place.below, hjs]

/-- What an operation that has done its work can make of the names of a scope by `Continues`, if it
is not one that makes a series of registrations. -/
theorem Turn.continues_of_done (h : s.Settled) (h' : s'.Settled) (hturn : s.Turn op true s')
    (hop : op.isSeries = false) (hl' : s'.names? q = some l) :
    s.Continues (s.origin op) names q l := by
  have hl : s.namesAfter op q = some l := by rw [← hturn.names?_of_done h h' hop, hl']
  have hmoved {p : Place} (hp : s.names? (p.below q.path) = some l)
      (hfrom : ∀ k, s.origin op (q.child k) = p.below (q.child k).path) :
      s.Continues (s.origin op) names q l :=
    .of_sublist hp (List.Sublist.refl l) fun k => by rw [hfrom, Place.below_path_child]
  have hplain (hfrom : ∀ r, s.origin op r = r)
      (hl : (if op.newSlot? = some q.slot then Symbol.leafNames? q.path.segments
        else s.names? q) = some l) : s.Continues (s.origin op) names q l := by
    split at hl
    · exact .of_leaf hl
    · exact .of_sublist hl (List.Sublist.refl l) fun k => hfrom _
  cases ho : s.offer? op with
  | some found =>
    obtain ⟨p, o⟩ := found
    rw [namesAfter_of_offer ho] at hl
    split at hl
    · cases hl
    refine .of_entered h' hl' hl (fun r => origin_of_offer ho) (fun k ks hk hq hks => ?_)
      fun _ => List.pairwise_singleton _ _
    rcases leaf_of_offer ho with hleaf | ⟨source, rfl, hsource⟩
    · rw [Symbol.namesAt?_of_leaf hleaf] at hks
      exact .of_leaf hks
    -- what is below an inserted symbol was below it in the slot
    · obtain rfl := List.mem_singleton.1 hk
      subst hq
      have hold : s.names? ⟨source, ⟨ks⟩⟩ = some l := by
        rw [names?_eq, hsource]
        exact hks
      exact .of_sublist hold (List.Sublist.refl l) fun j => origin_insert_below hsource ks j
  | none =>
    unfold namesAfter at hl
    rw [ho] at hl
    cases op with
    | remove p name into? =>
      cases into? with
      | none => exact .of_left hl fun k => rfl
      | some slot =>
        dsimp only at hl
        split at hl
        case isTrue hslot =>
          cases hslot
          exact hmoved hl fun k => if_pos rfl
        case isFalse hslot =>
          exact .of_left hl fun k => if_neg fun heq => hslot (congrArg some heq.symm)
    | clone p into =>
      dsimp only at hl
      split at hl
      case isTrue hslot => exact hmoved hl fun k => if_pos hslot
      case isFalse hslot => exact .of_sublist hl (List.Sublist.refl l) fun k => if_neg hslot
    | take p into =>
      dsimp only at hl
      split at hl
      case isTrue hslot => exact hmoved hl fun k => if_pos hslot
      case isFalse hslot =>
        unfold namesEmptied at hl
        split at hl
        · exact .of_leaf hl
        · exact .of_sublist hl (List.Sublist.refl l) fun k => if_neg hslot
    | dropSlot slot =>
      dsimp only at hl
      split at hl
      · cases hl
      · exact .of_sublist hl (List.Sublist.refl l) fun k => rfl
    | insert source p =>
      -- an insertion that has done its work was offered to a scope
      cases hturn with
      | kept hkept => cases hkept rfl
      | planted hnew => cases hnew
      | entered ho' =>
        rw [ho] at ho'
        cases ho'
    | _ => exact hplain (fun r => rfl) hl

/-- **What an operation can make of the names of a scope**: they go on, by `Continues`, from those
of the scope that it was or comes from. -/
theorem Turn.continues (h : s.Settled) (h' : s'.Settled) (hturn : s.Turn op done s')
    (hl : s'.names? q = some l) : s.Continues (s.source op done) (s.settings op) q l := by
  have hsame (hstays : ∀ r, s.source op done r = r) (hkept : s.names? q = some l) :
      s.Continues (s.source op done) (s.settings op) q l :=
    .of_sublist hkept (List.Sublist.refl l) fun k => hstays _
  have hfirst {new : List String} (hnew : new <+: s.settings op) (hnodup : new.Nodup) :=
    pairwise_idxOf hnew hnodup
  cases hseries : op.isSeries with
  | false =>
    cases done with
    | true => exact hturn.continues_of_done h h' hseries hl
    | false =>
      rcases hturn.names?_of_failed hseries q with hkept | ⟨-, hgone⟩
      · exact hsame (fun _ => rfl) (hkept.symm.trans hl)
      · rw [hgone] at hl
        cases hl
  | true =>
    cases op with
    | setupConfig p t =>
      have hstays (r : Place) : s.source (.setupConfig p t) done r = r := ite_self r
      obtain ⟨new, hnew, -, hnames⟩ := hturn.names?_setupConfig h'
      exact .of_entered h' hl ((hnames q).symm.trans hl) (fun r _ => hstays r)
        (fun _ _ _ _ hks => .of_leaf hks) (hfirst hnew)
    | registerModule host p =>
      have hstays (r : Place) : s.source (.registerModule host p) done r = r := ite_self r
      rcases hturn.names?_registerModule h' with ⟨-, hkept⟩ | ⟨m, new, hnew, -, hnames⟩
      · exact hsame hstays ((hkept q).symm.trans hl)
      · refine .of_entered h' hl ((hnames q).symm.trans hl) (fun r _ => hstays r)
          (fun k ks hk hq hks => ?_) fun _ => List.pairwise_singleton _ _
        cases ks with
        | cons j js =>
          rw [Symbol.moduleNames?] at hks
          split at hks
          · exact .of_leaf hks
          · cases hks
        -- the settings are below the new symbol, and so all new
        | nil =>
          obtain rfl := Option.some.inj hks
          have hgone : s.symbol? q = none := by
            subst hq
            refine symbol?_of_entered h' ?_ hk
            rw [hnames p, namesEntered, Place.way?_self]
          refine ⟨q, [], new, rfl, List.nil_sublist _, fun j hj => absurd hj List.not_mem_nil,
            fun j _ => ?_, hfirst hnew (h'.nodup_names hl)⟩
          rw [hstays, symbol?_child, hgone, Option.bind_none]
    | _ => cases hseries

end Session

/-! ## §4. The order of registration. -/

namespace Chronicle

variable {c : Chronicle} {op : Operation} {p q q₀ : Place} {k : String} {l : List String}

theorem since_step_of_some
    (h : (c.session.symbol? (c.session.source op (c.session.succeeds op) q)).isSome = true) :
    (c.step op).since q = c.since (c.session.source op (c.session.succeeds op) q) := if_pos h

theorem since_step_of_none
    (h : c.session.symbol? (c.session.source op (c.session.succeeds op) (p.child k)) = none) :
    (c.step op).since (p.child k) = c.clock + (c.session.settings op).idxOf k := by
  have hlast : (p.child k).path.segments.getLastD "" = k := List.getLastD_concat
  refine (if_neg ?_).trans (by rw [hlast])
  rw [h]
  exact Bool.false_ne_true

/-- **One more operation keeps the order**: what is `Ordered` stays so by `step`. -/
theorem Ordered.step (hc : c.Ordered) (h : c.session.Settled) (h' : (c.step op).session.Settled) :
    (c.step op).Ordered := by
  -- what continues a scope was there before, with its time, or has a time from now on
  have hnames (p : Place) (l : List String) (hl : (c.step op).session.names? p = some l) :
      ∃ q₀ old new, l = old ++ new ∧ old.Sublist ((c.session.names? q₀).getD []) ∧
        (∀ k ∈ old, (c.step op).since (p.child k) = c.since (q₀.child k)) ∧
        (∀ k ∈ new, (c.step op).since (p.child k) =
          c.clock + (c.session.settings op).idxOf k) ∧
        new.Pairwise fun j k =>
          (c.session.settings op).idxOf j < (c.session.settings op).idxOf k := by
    obtain ⟨q₀, old, new, rfl, hold, hfrom, hnew, hrank⟩ :=
      (Session.turn_step h op).continues h h' hl
    refine ⟨q₀, old, new, rfl, hold, fun k hk => ?_, fun k hk => since_step_of_none (hnew k hk),
      hrank⟩
    have hthere : (c.session.symbol? (q₀.child k)).isSome = true := by
      cases hq : c.session.names? q₀ with
      | none =>
        rw [hq] at hold
        rw [List.sublist_nil.1 hold] at hk
        cases hk
      | some l₀ =>
        rw [hq] at hold
        exact (Session.isSome_symbol?_child hq).2 (hold.subset hk)
    rw [← hfrom k hk] at hthere ⊢
    exact since_step_of_some hthere
  have hbefore (q₀ : Place) : ((c.session.names? q₀).getD []).Pairwise
      (fun j k => c.since (q₀.child j) < c.since (q₀.child k)) ∧
      ∀ k ∈ (c.session.names? q₀).getD [], c.since (q₀.child k) < c.clock := by
    cases hq : c.session.names? q₀ with
    | none => exact ⟨.nil, nofun⟩
    | some l₀ => exact ⟨hc.ascending q₀ l₀ hq, hc.past q₀ l₀ hq⟩
  constructor
  · intro p l hl
    obtain ⟨q₀, old, new, rfl, hold, hkept, hadded, hrank⟩ := hnames p l hl
    refine List.pairwise_append.2 ⟨?_, ?_, fun j hj k hk => ?_⟩
    · refine ((hbefore q₀).1.sublist hold).imp_of_mem fun hj hk hlt => ?_
      rwa [hkept _ hj, hkept _ hk]
    · refine hrank.imp_of_mem fun hj hk hlt => ?_
      rw [hadded _ hj, hadded _ hk]
      exact Nat.add_lt_add_left hlt _
    · rw [hkept j hj, hadded k hk]
      exact Nat.lt_add_right _ ((hbefore q₀).2 j (hold.subset hj))
  · intro p l hl k hk
    obtain ⟨q₀, old, new, rfl, hold, hkept, hadded, -⟩ := hnames p l hl
    show _ < c.clock + (c.session.settings op).length + 1
    rcases List.mem_append.1 hk with hk | hk
    · have hpast := (hbefore q₀).2 k (hold.subset hk)
      rw [hkept k hk]
      omega
    · have hrank := List.idxOf_le_length (a := k) (l := c.session.settings op)
      rw [hadded k hk]
      omega

/-- **The names of all scopes are in the order of registration** after every run: the chronicle is
`Ordered`. -/
theorem ordered_after (ops : List Operation) : (after ops).Ordered := by
  induction ops using List.reverseRecOn with
  | nil => exact ⟨nofun, nofun⟩
  | append_singleton ops op ih =>
    have hsettled : (after ops).session.Settled := by
      rw [session_after]
      exact Session.settled_after ops
    have hsettled' : ((after ops).step op).session.Settled := by
      rw [← after_concat, session_after]
      exact Session.settled_after _
    rw [after_concat]
    exact ih.step hsettled hsettled'

end Chronicle

end ConfigTree
