import ConfigTree.Proofs.SlotChanges

/-!
# The names of scopes after an operation

The children of a scope are kept in an order, and their names in that order are all that a host sees
of it.  `Session.namesAfter` tells the names below every symbol after an operation from those before
it: a registration puts one name behind the others, a removal takes one out, what is moved or cloned
keeps its names, and all other operations leave every scope with the names that it had.

Main results:
  * `Session.names?_puts` — a symbol put where one was;
  * `Session.Turn.names?_of_done`, `Session.Turn.names?_of_failed` — the names after an operation
    that has done its work, and after one that has not;
  * `Session.Turn.names?_setupConfig`, `Session.Turn.names?_registerModule` — the names after the
    registrations that a module type asks for.
-/

namespace ConfigTree

/-! ## §1. Ways between places. -/

namespace Place

variable {p q : Place} {k : String} {ks : List String}

/-- The place of the child `k`. -/
def child (p : Place) (k : String) : Place := p.below ⟨[k]⟩

/-- The way from the place `p` to the place `q`, if the first leads to the second. -/
def way? (p q : Place) : Option (List String) :=
  if q.slot = p.slot ∧ p.path.isPrefixOf q.path = true then
    some (q.path.segments.drop p.path.depth)
  else none

theorem way?_eq_some : p.way? q = some ks ↔ q = p.below ⟨ks⟩ := by
  obtain ⟨slot, ⟨js⟩⟩ := p
  obtain ⟨slot', ⟨js'⟩⟩ := q
  simp only [way?, below, Path.isPrefixOf, Path.depth, List.isPrefixOf_iff_prefix, mk.injEq,
    Path.mk.injEq]
  constructor
  · intro h
    split at h
    case isTrue hprefix =>
      obtain ⟨rfl, rest, rfl⟩ := hprefix
      rw [List.drop_left, Option.some.injEq] at h
      exact ⟨rfl, by rw [h]⟩
    case isFalse => cases h
  · rintro ⟨rfl, rfl⟩
    rw [if_pos ⟨rfl, List.prefix_append _ _⟩, List.drop_left]

@[simp] theorem way?_below (p : Place) (ks : List String) : p.way? (p.below ⟨ks⟩) = some ks :=
  way?_eq_some.2 rfl

@[simp] theorem way?_self (p : Place) : p.way? p = some [] :=
  way?_eq_some.2 (by simp [below])

@[simp] theorem way?_child (p : Place) (k : String) : p.way? (p.child k) = some [k] :=
  way?_below p [k]

theorem child_below (p : Place) (ks : List String) (k : String) :
    (p.below ⟨ks⟩).child k = p.below ⟨ks ++ [k]⟩ := by
  simp [child, below]

theorem below_path_child (p q : Place) (k : String) :
    (p.below q.path).child k = p.below (q.child k).path := by
  simp [child, below]

/-- A child of what is not on the way from the place `p`, where `way?` is `none`, is not either, or
is the place itself. -/
theorem way?_child_of_none (h : p.way? q = none) (k : String) :
    p.way? (q.child k) = none ∨ p.way? (q.child k) = some [] := by
  cases hway : p.way? (q.child k) with
  | none => exact .inl rfl
  | some ks =>
    rcases List.eq_nil_or_concat ks with rfl | ⟨js, j, rfl⟩
    · exact .inr rfl
    -- the way to the child goes through what it is a child of
    · have heq := way?_eq_some.1 hway
      rw [List.concat_eq_append, ← child_below] at heq
      have hq : q = p.below ⟨js⟩ := by
        obtain ⟨slot, ⟨qs⟩⟩ := q
        simp only [child, below, mk.injEq, Path.mk.injEq] at heq ⊢
        exact ⟨heq.1, (List.append_inj' heq.2 rfl).1⟩
      rw [hq, way?_below] at h
      cases h

end Place

/-! ## §2. The names of scopes. -/

/-- Whether the operation makes registrations in a series, which can end on the way. -/
def Operation.isSeries : Operation → Bool
  | registerModule .. | setupConfig .. => true
  | _ => false

namespace Session

variable {s s' mid : Session} {op : Operation} {done : Bool} {p q : Place} {x y z : Symbol}
  {k name slot : String} {ks l names emptied : List String}

/-- The names below the symbol at the place `p`, in their order. -/
def names? (s : Session) (p : Place) : Option (List String) := (s.symbol? p).map Symbol.childNames

theorem names?_eq (s : Session) (p : Place) :
    s.names? p = (s.slots.get? p.slot).bind fun tree => tree.namesAt? p.path.segments :=
  Option.map_bind

/-- Below the symbol `x` the names are those of `x.namesAt?`. -/
theorem names?_below (hx : s.symbol? p = some x) (ks : List String) :
    s.names? (p.below ⟨ks⟩) = x.namesAt? ks := by
  obtain ⟨tree, htree, hdescend⟩ := symbol?_eq_some.1 hx
  rw [names?_eq, Place.below, htree]
  exact Symbol.namesAt?_append hdescend ks

theorem names?_self (hx : s.symbol? p = some x) : s.names? p = some x.childNames := by
  rw [names?, hx, Option.map_some]

theorem symbol?_child (s : Session) (p : Place) (k : String) :
    s.symbol? (p.child k) = (s.symbol? p).bind fun x => x.child? k := by
  show (s.slots.get? p.slot).bind (·.descend? (p.path.segments ++ [k])) =
    ((s.slots.get? p.slot).bind (·.descend? p.path.segments)).bind _
  rw [Option.bind_assoc]
  refine Option.bind_congr fun tree _ => ?_
  rw [Symbol.descend?_append]
  refine Option.bind_congr fun x _ => ?_
  rw [Symbol.descend?_cons]
  cases x.child? k <;> simp

/-- There is a symbol called `k` in a scope exactly if it is one of its names, `names?`. -/
theorem isSome_symbol?_child (h : s.names? p = some l) :
    (s.symbol? (p.child k)).isSome = true ↔ k ∈ l := by
  obtain ⟨x, hx, rfl⟩ := Option.map_eq_some_iff.1 h
  rw [symbol?_child, hx, Option.bind_some, Symbol.child?, List.find?_isSome, Symbol.childNames,
    List.mem_map]
  simp

/-- In a `Settled` session the names of a scope differ. -/
theorem Settled.nodup_names (h : s.Settled) (hl : s.names? p = some l) : l.Nodup := by
  obtain ⟨x, hx, rfl⟩ := Option.map_eq_some_iff.1 hl
  obtain ⟨tree, htree, hdescend⟩ := symbol?_eq_some.1 hx
  exact ((h.slots _ _ htree).coherent.at_coherent (Symbol.at_of_descend? hdescend)).unique

theorem Settled.coherent_symbol? (h : s.Settled) (hx : s.symbol? p = some x) : x.Coherent := by
  obtain ⟨tree, htree, hdescend⟩ := symbol?_eq_some.1 hx
  exact (h.slots _ _ htree).coherent.at_coherent (Symbol.at_of_descend? hdescend)

/-! ## §3. Names after a change of slots. -/

theorem names?_alike (h : s.Alike s') (q : Place) : s'.names? q = s.names? q := by
  rw [names?_eq, names?_eq]
  have hframe := h q.slot
  cases htree : s.slots.get? q.slot with
  | none =>
    rw [htree] at hframe
    rw [Option.map_eq_none_iff.1 hframe]
  | some tree =>
    rw [htree] at hframe
    obtain ⟨tree', htree', heq⟩ := Option.map_eq_some_iff.1 hframe
    rw [htree']
    exact Symbol.namesAt?_of_frame heq _

theorem names?_fills (h : s.Fills slot z s') (q : Place) :
    s'.names? q = if q.slot = slot then z.namesAt? q.path.segments else s.names? q := by
  rw [names?_eq, h q.slot, names?_eq]
  split <;> rfl

theorem names?_clears (h : s.Clears emptied s') (q : Place) :
    s'.names? q = if q.slot ∈ emptied then none else s.names? q := by
  rw [names?_eq, h q.slot, names?_eq]
  split <;> rfl

/-- **A symbol `y` put where `x` of its name was** changes the names there and below, and no others
but those in the slots `emptied`. -/
theorem names?_puts (h : s.Puts p x y emptied s') (hname : y.name = x.name) (q : Place) :
    s'.names? q = match p.way? q with
      | some ks => y.namesAt? ks
      | none => if q.slot ≠ p.slot ∧ q.slot ∈ emptied then none else s.names? q := by
  obtain ⟨tree, tree', htree, hdescend, hreplace, hslots⟩ := h
  rw [names?_eq, hslots q.slot]
  cases hway : p.way? q with
  | some ks =>
    rw [Place.way?_eq_some.1 hway]
    exact (congrArg (Option.bind · _) (if_pos rfl)).trans
      (Symbol.namesAt?_replace?_below hreplace hdescend hname ks)
  | none =>
    dsimp only
    by_cases hslot : q.slot = p.slot
    · rw [if_pos hslot, if_neg fun hne => hne.1 hslot, names?_eq, hslot, htree]
      -- the place is in the same tree, and not at or below the symbol
      refine Symbol.namesAt?_replace?_apart hreplace hdescend hname fun hprefix => ?_
      rw [Place.way?, if_pos ⟨hslot, List.isPrefixOf_iff_prefix.2 hprefix⟩] at hway
      cases hway
    · rw [if_neg hslot, names?_eq]
      by_cases hin : q.slot ∈ emptied
      · rw [if_pos hin, if_pos ⟨hslot, hin⟩]
        rfl
      · rw [if_neg hin, if_neg fun hboth => hin hboth.2]

/-- What was put in place by `Puts` is there. -/
theorem Puts.symbol? (h : s.Puts p x y emptied s') (hname : y.name = x.name) :
    s.symbol? p = some x ∧ s'.symbol? p = some y := by
  obtain ⟨tree, tree', htree, hdescend, hreplace, hslots⟩ := h
  refine ⟨symbol?_eq_some.2 ⟨tree, htree, hdescend⟩, symbol?_eq_some.2 ⟨tree', ?_, ?_⟩⟩
  · rw [hslots, if_pos rfl]
  · exact Symbol.descend?_replace? hreplace hdescend hname

/-! ## §4. What becomes of a scope. -/

/-- The names after symbols of the names in `new`, with the names `below` them, have entered the
scope at the place `p`. -/
def namesEntered (s : Session) (p : Place) (new : List String)
    (below : List String → Option (List String)) (q : Place) : Option (List String) :=
  match p.way? q with
  | some [] => (s.names? q).map (· ++ new)
  | some (k :: ks) => if k ∈ new then below ks else s.names? q
  | none => s.names? q

/-- The names after the symbol `name` has left the scope at the place `p`. -/
def namesLeft (s : Session) (p : Place) (name : String) (q : Place) : Option (List String) :=
  match p.way? q with
  | some [] => (s.names? q).map (·.erase name)
  | some (k :: _) => if k = name then none else s.names? q
  | none => s.names? q

/-- The names after the object symbol at the place `p` was emptied. -/
def namesEmptied (s : Session) (p : Place) (q : Place) : Option (List String) :=
  match p.way? q with
  | some ks => Symbol.leafNames? ks
  | none => s.names? q

/-- The names at all places `q` after the operation `op` that has done its work.  A scope has one
more by `namesEntered`, one less by `namesLeft` or none by `namesEmptied`; a slot has the names of
what came into it. -/
def namesAfter (s : Session) (op : Operation) (q : Place) : Option (List String) :=
  match s.offer? op with
  | some (p, o) =>
    if q.slot ∈ op.emptied then none else s.namesEntered p [o.name] o.symbol.namesAt? q
  | none => match op with
    | .remove p name into? =>
      if into? = some q.slot then s.names? ((p.child name).below q.path) else s.namesLeft p name q
    | .clone p into => if q.slot = into then s.names? (p.below q.path) else s.names? q
    | .take p into => if q.slot = into then s.names? (p.below q.path) else s.namesEmptied p q
    | .dropSlot slot => if q.slot = slot then none else s.names? q
    | op =>
      if op.newSlot? = some q.slot then Symbol.leafNames? q.path.segments else s.names? q

/-- A branch with more children, `new`, behind those that it had: the others are found as before,
and of the new ones all have the same names `below` them. -/
theorem names?_of_puts_append {new : List Symbol} {below : List String → Option (List String)}
    (h : s.Puts p x y emptied s') (hs' : s'.Settled) (hname : y.name = x.name)
    (hchildren : y.children = x.children ++ new) (hnew : ∀ c ∈ new, ∀ ks, c.namesAt? ks = below ks)
    (q : Place) : s'.names? q = if q.slot ≠ p.slot ∧ q.slot ∈ emptied then none
      else s.namesEntered p (new.map Symbol.name) below q := by
  obtain ⟨hx, hy⟩ := h.symbol? hname
  have hunique := (hs'.coherent_symbol? hy).unique
  rw [names?_puts h hname, namesEntered]
  cases hway : p.way? q with
  | none => rfl
  | some ks =>
    obtain rfl := Place.way?_eq_some.1 hway
    refine Eq.trans ?_ (if_neg fun hne => hne.1 rfl).symm
    rw [names?_below hx]
    cases ks with
    | nil => simp [Symbol.childNames, hchildren]
    | cons k ks =>
      dsimp only
      rw [Symbol.namesAt?_cons, Symbol.namesAt?_cons, Symbol.child?, hchildren, List.find?_append]
      rw [hchildren, List.map_append, List.nodup_append] at hunique
      split
      case isTrue hk =>
        -- the name is that of a new child, and so of none of the others
        obtain ⟨c, hc, hck⟩ := List.mem_map.1 hk
        have hnone : x.children.find? (fun c => decide (c.name = k)) = none := by
          refine List.find?_eq_none.2 fun d hd => ?_
          simpa using fun hdk => hunique.2.2 _ (List.mem_map_of_mem hd) _ hk hdk
        obtain ⟨d, hd⟩ := Option.isSome_iff_exists.1 (List.find?_isSome (p := fun c : Symbol =>
          decide (c.name = k)).2 ⟨c, hc, by simpa using hck⟩)
        rw [hnone, Option.none_or, hd, Option.bind_some, hnew d (List.mem_of_find?_eq_some hd)]
      case isFalse hk =>
        have hnone : new.find? (fun c => decide (c.name = k)) = none := by
          refine List.find?_eq_none.2 fun d hd => ?_
          simpa using fun hdk : d.name = k => hk (hdk ▸ List.mem_map_of_mem hd)
        rw [hnone, Option.or_none]
        rfl

/-- A branch without the child called `name`. -/
theorem names?_of_puts_erase (h : s.Puts p x (x.withChildren (x.children.eraseP (·.name = name))) []
    s') (hs : s.Settled) (q : Place) (hchild : x.child? name = some y) :
    s'.names? q = s.namesLeft p name q := by
  have hname := x.name_withChildren (x.children.eraseP (·.name = name))
  obtain ⟨hx, -⟩ := h.symbol? hname
  have hunique := (hs.coherent_symbol? hx).unique
  have hchildren := Symbol.children_withChildren (Symbol.child?_mem hchild).1
    (x.children.eraseP (·.name = name))
  rw [names?_puts h hname, namesLeft]
  cases hway : p.way? q with
  | none =>
    dsimp only
    rw [if_neg fun hboth => List.not_mem_nil hboth.2]
  | some ks =>
    rw [Place.way?_eq_some.1 hway, names?_below hx]
    cases ks with
    | nil =>
      dsimp only
      rw [Symbol.namesAt?_nil, Symbol.namesAt?_nil, Symbol.childNames, hchildren,
        Symbol.map_name_eraseP]
      rfl
    | cons k ks =>
      dsimp only
      rw [Symbol.namesAt?_cons, Symbol.namesAt?_cons, Symbol.child?, hchildren]
      split
      case isTrue hk =>
        rw [hk, List.find?_eq_none.2 fun d hd => ?_]
        · rfl
        · simpa using Symbol.name_ne_of_mem_eraseP hunique hd
      case isFalse hk =>
        refine congrArg (Option.bind · _) ?_
        obtain ⟨before, after, hcs, hcn, hbefore, -⟩ := Symbol.split_of_find? hchild
        have hskip : ¬ y.name = k := fun hyk => hk (hyk.symm.trans hcn)
        rw [Symbol.child?, hcs, Symbol.eraseP_split hcn hbefore, List.find?_append,
          List.find?_append, List.find?_cons_of_neg (by simpa using hskip)]

/-! ## §5. Names after an operation. -/

theorem namesEntered_nil (s : Session) (p : Place) (below : List String → Option (List String))
    (q : Place) : s.namesEntered p [] below q = s.names? q := by
  unfold namesEntered
  split
  · cases s.names? q <;> simp
  · exact if_neg List.not_mem_nil
  · rfl

theorem namesAfter_of_offer {o : Offer} (h : s.offer? op = some (p, o)) (q : Place) :
    s.namesAfter op q = if q.slot ∈ op.emptied then none
      else s.namesEntered p [o.name] o.symbol.namesAt? q := by
  unfold namesAfter
  rw [h]

theorem namesAfter_of_newSlot? (h : op.newSlot? = some slot) (q : Place) :
    s.namesAfter op q =
      if q.slot = slot then Symbol.leafNames? q.path.segments else s.names? q := by
  have hslot : op.newSlot? = some q.slot ↔ q.slot = slot := by
    rw [h, Option.some.injEq, eq_comm]
  rw [← if_congr hslot rfl rfl]
  cases op <;> first | rfl | cases h

theorem namesAfter_of_idle (h : op.rearranges = false) (q : Place) :
    s.namesAfter op q = s.names? q := by
  cases op <;> first | rfl | cases h

/-- The slot of a scope that takes an offer `o` is not one of `Operation.emptied`. -/
theorem slot_of_offer {o : Offer} (h : s.offer? op = some (p, o)) : p.slot ∉ op.emptied := by
  cases op with
  | insert source r =>
    obtain ⟨x, hx, h⟩ := Option.bind_eq_some_iff.1 h
    split at h
    · cases h
    · rename_i hapart
      obtain ⟨rfl, -⟩ := offering_eq_some.1 h
      simpa [Operation.emptied] using hapart
  | _ => exact List.not_mem_nil

/-- **The names after an operation that has done its work** are told from those before it, by
`namesAfter`. -/
theorem Turn.names?_of_done (h : s.Settled) (h' : s'.Settled) (hturn : s.Turn op true s')
    (hop : op.isSeries = false) (q : Place) : s'.names? q = s.namesAfter op q := by
  cases hturn with
  | kept hkept halike =>
    have hidle : op.rearranges = false := Bool.eq_false_iff.2 fun hmoves => by cases hkept hmoves
    rw [names?_alike halike, namesAfter_of_idle hidle]
  | planted hnew hz _ hfills =>
    rw [names?_fills hfills, namesAfter_of_newSlot? hnew, Symbol.namesAt?_of_leaf hz]
  | dropped hclears =>
    rw [names?_clears hclears]
    exact if_congr List.mem_singleton rfl rfl
  | @entered _ p o x _ ho _ hx hputs =>
    obtain ⟨role, rfl⟩ := Symbol.eq_of_scope? hx
    have hslot : (q.slot ≠ p.slot ∧ q.slot ∈ op.emptied) ↔ q.slot ∈ op.emptied := by
      refine and_iff_right_of_imp fun hin heq => slot_of_offer ho ?_
      rwa [← heq]
    have hname : [o.entered].map Symbol.name = [o.name] := by
      rw [List.map_singleton, Offer.entered, Symbol.name_reroot, Offer.name]
    rw [namesAfter_of_offer ho, ← if_congr hslot rfl rfl, ← hname]
    refine names?_of_puts_append hputs h' rfl rfl (fun c hc ks => ?_) q
    rw [List.mem_singleton.1 hc]
    exact Symbol.namesAt?_reroot _ _ ks
  | removed hy hputs => exact names?_of_puts_erase hputs h q hy
  | @extracted p name slot x y mid _ hy hputs hfill =>
    have hx := (hputs.symbol? (Symbol.name_withChildren _ _)).1
    have hchild : s.symbol? (p.child name) = some y := by
      rw [symbol?_child, hx, Option.bind_some, hy]
    rw [names?_fills hfill, names?_of_puts_erase hputs h q hy, Symbol.namesAt?_reroot,
      ← names?_below hchild]
    exact if_congr (by rw [Option.some.injEq, eq_comm]) rfl rfl
  | cloned hx hz hfills =>
    rw [names?_fills hfills, Symbol.namesAt?_of_frame hz, ← names?_below hx]
    rfl
  | taken hputs hfill =>
    have hx := (hputs.symbol? rfl).1
    rw [names?_fills hfill, ← names?_below hx, names?_puts hputs rfl]
    refine ite_congr rfl (fun _ => rfl) fun _ => ?_
    unfold namesEmptied
    split
    · exact Symbol.namesAt?_of_leaf rfl _
    · exact if_neg fun hboth => List.not_mem_nil hboth.2
  | linked => cases hop
  | installed => cases hop

/-- **An operation that fails leaves all names as they were**, except in a slot of
`Operation.emptied`, whose symbol was dropped on the way. -/
theorem Turn.names?_of_failed (hturn : s.Turn op false s') (hop : op.isSeries = false)
    (q : Place) : s'.names? q = s.names? q ∨ q.slot ∈ op.emptied ∧ s'.names? q = none := by
  cases hturn with
  | kept _ halike => exact .inl (names?_alike halike q)
  | refused hclears =>
    rw [names?_clears hclears]
    split
    case isTrue hin => exact .inr ⟨hin, rfl⟩
    case isFalse => exact .inl rfl
  | linked => cases hop
  | installed => cases hop

/-- **Settings of a module type enter an object symbol by `setupConfig`** in their order, up to the
first that cannot be linked; those that entered are `new`. -/
theorem Turn.names?_setupConfig {t : NativeType} (h' : s'.Settled)
    (hturn : s.Turn (.setupConfig p t) done s') :
    ∃ new, new <+: s.settings (.setupConfig p t) ∧
      (done = true → new = s.settings (.setupConfig p t)) ∧
      ∀ q, s'.names? q = s.namesEntered p new Symbol.leafNames? q := by
  cases hturn with
  | kept hkept halike =>
    cases hkept rfl
    refine ⟨[], List.nil_prefix, nofun, fun q => ?_⟩
    rw [names?_alike halike, namesEntered_nil]
  | planted hnew => cases hnew
  | entered ho => cases ho
  | @linked _ _ o o' new _ _ hinfo hchildren hnew hputs =>
    refine ⟨new.map Symbol.name, hnew.named, hnew.complete, fun q => ?_⟩
    have hname : (Symbol.ofObject o').name = (Symbol.ofObject o).name := congrArg Info.name hinfo
    rw [names?_of_puts_append hputs h' hname hchildren
      fun c hc => Symbol.namesAt?_of_leaf (hnew.bare c hc)]
    exact if_neg fun hboth => List.not_mem_nil hboth.2

/-- **A module `m` enters a scope by `registerModule`** with its settings in their order, up to the
first that cannot be linked; or it is refused, and all names are what they were. -/
theorem Turn.names?_registerModule {host : String} (h' : s'.Settled)
    (hturn : s.Turn (.registerModule host p) done s') :
    (done = false ∧ ∀ q, s'.names? q = s.names? q) ∨
      ∃ m new, new <+: s.settings (.registerModule host p) ∧
        (done = true → new = s.settings (.registerModule host p)) ∧
        ∀ q, s'.names? q = s.namesEntered p [m] (Symbol.moduleNames? new) q := by
  cases hturn with
  | kept hkept halike => exact .inl ⟨hkept rfl, names?_alike halike⟩
  | planted hnew => cases hnew
  | entered ho => cases ho
  | @installed _ _ c d x new _ _ hx hinfo hchildren hnew hputs =>
    obtain ⟨role, rfl⟩ := Symbol.eq_of_scope? hx
    have hname : ((Symbol.branch role c.info c.policy c.children).withScope d).name =
        (Symbol.branch role c.info c.policy c.children).name := congrArg Info.name hinfo
    have hall {below : List String → Option (List String)}
        (hnew : ∀ c ∈ new, ∀ ks, c.namesAt? ks = below ks) :=
      names?_of_puts_append hputs h' hname hchildren hnew
    have hkeep (q : Place) : ¬ (q.slot ≠ p.slot ∧ q.slot ∈ ([] : List String)) :=
      fun hboth => List.not_mem_nil hboth.2
    rcases hnew with ⟨rfl, hdone⟩ | ⟨m, rfl, hnew⟩
    · refine .inl ⟨hdone, fun q => ?_⟩
      rw [@hall Symbol.leafNames? nofun q, if_neg (hkeep q), List.map_nil, namesEntered_nil]
    · refine .inr ⟨m.name, m.children.map Symbol.name, hnew.named, hnew.complete, fun q => ?_⟩
      rw [hall (fun c hc ks => ?_) q, if_neg (hkeep q), List.map_singleton]
      rw [List.mem_singleton.1 hc]
      exact Symbol.namesAt?_of_module hnew.bare ks

end Session

end ConfigTree
