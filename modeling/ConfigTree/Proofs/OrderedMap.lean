import ConfigTree.Proofs.RegistrationOrder

/-!
# Scopes as ordered maps

To a host a scope is a map from names to symbols that keeps the order of registration.  This module
puts together what is known of the names of scopes: how each operation changes them, that they are
in the order of a chronicle, that lookups agree with them, and that a child which is taken out and
put back becomes the last and is otherwise the symbol that it was.

Main results:
  * `Session.Settled.orderedMap` — all ways of asking for a child agree with the list of names;
  * `Session.Settled.resequenced` — what every operation makes of the names of all scopes;
  * `Session.remove_then_insert` — a child that leaves and comes back is the last;
  * `Chronicle.scope_is_ordered_map` — scopes are ordered maps over whole runs.
-/

namespace ConfigTree

/-! ## §1. Leaving a scope and coming back. -/

namespace Session

variable {s s' : Session} {op : Operation} {p : Place} {name slot : String} {x y : Symbol}
  {c : Scope} {o : Offer}

/-- A slot that an operation `Fills` is of no matter elsewhere. -/
theorem symbol?_of_fills {z : Symbol} (h : s.Fills slot z s') (hslot : p.slot ≠ slot) :
    s'.symbol? p = s.symbol? p := by
  rw [symbol?, h p.slot, if_neg hslot]
  rfl

/-- A scope takes an offer `o` that has no `obstacle?`. -/
theorem succeeds_of_offer (h : s.offer? op = some (p, o))
    (hfree : o.obstacle? s.surroundings.store = none) :
    s.succeeds op = true ∧ (s.step op).2.scope? p = some (o.scope.append o.entered) := by
  have hoffer : s.quiet.offer? op = some (p, o) := h
  obtain ⟨⟨a, ha⟩, hentered⟩ := (Request.answer_decides hoffer).taken hfree
  refine ⟨?_, hentered.scope⟩
  show op.worked ((Request.answer op).outcome s.quiet).1 = true
  rw [ha]
  cases op <;> first | rfl | cases h

/-- A child `y` that is there can be moved into a `slot` by `remove`. -/
theorem succeeds_remove (hx : s.symbol? p = some x) (hy : x.child? name = some y) (slot : String) :
    s.succeeds (.remove p name (some slot)) = true := by
  obtain ⟨role, c, rfl⟩ : ∃ role, ∃ c : Scope, x = .branch role c.info c.policy c.children := by
    cases x with
    | branch role info policy cs => exact ⟨role, ⟨info, policy, cs⟩, rfl⟩
    | _ => cases hy
  have hleads : (Request.answer (.remove p name (some slot))).Leads s.quiet
      (fun a _ => a = .found (some (y.reroot none).found)) fun _ => False := by
    refine Request.Leads.map (Request.Leads.bind (Request.leads_scope_of_some hx
      (Request.Leads.bind (Request.leads_perform ?_))))
    rw [Scope.remove, show c.lookup? name = some y from hy]
    refine Request.Leads.bind (Request.leads_putsScope hx rfl fun mid _ => ?_)
    exact Request.Leads.bind (Request.leads_fills fun s' _ => rfl)
  show Operation.worked (.remove p name (some slot))
    ((Request.answer (.remove p name (some slot))).outcome s.quiet).1 = true
  unfold Request.Leads at hleads
  generalize (Request.answer (.remove p name (some slot))).outcome s.quiet = out at hleads ⊢
  obtain ⟨e | a, s'⟩ := out
  · exact hleads.elim
  · cases hleads
    rfl

/-- **A child `y` that `remove` moves into a `slot`** is a root there, and its scope is left with
the others. -/
theorem step_remove (h : s.Settled) (hx : s.symbol? p = some x) (hy : x.child? name = some y)
    (hslot : slot ≠ p.slot) :
    let out := (s.step (.remove p name (some slot))).2
    out.slots.get? slot = some (y.reroot none) ∧
      out.symbol? p = some (x.withChildren (x.children.eraseP (·.name = name))) := by
  intro out
  have hturn := turn_step h (.remove p name (some slot))
  rw [succeeds_remove hx hy slot] at hturn
  cases hturn with
  | kept hkept => cases hkept rfl
  | planted hnew => cases hnew
  | entered ho => cases ho
  | extracted hy' hputs hfill =>
    obtain ⟨hx', hmid⟩ := hputs.symbol? (Symbol.name_withChildren _ _)
    cases hx.symm.trans hx'
    cases Option.some.inj (hy.symm.trans hy')
    exact ⟨by rw [hfill, if_pos rfl], (symbol?_of_fills hfill hslot.symm).trans hmid⟩

/-- No `obstacle?` is in the way of a child `y` that comes back: its name can be spelled, and no
other child has it. -/
theorem obstacle?_of_removed (h : x.Coherent) (hy : x.child? name = some y)
    (hc : c.children = x.children.eraseP (·.name = name)) (store : Store) :
    (⟨c, y.reroot none, none⟩ : Offer).obstacle? store = none := by
  obtain ⟨hmem, hname⟩ := Symbol.child?_mem hy
  have hvalid := Path.validName_iff.1 (h.valid hmem)
  rw [hname] at hvalid
  rw [Offer.obstacle?_of_none, Scope.refusal?_eq, Symbol.name_reroot, hname, hc,
    if_neg fun hbad => hbad.elim hvalid.1 hvalid.2, if_neg]
  rintro ⟨d, hd, hdn⟩
  exact Symbol.name_ne_of_mem_eraseP h.unique hd hdn

/-- **A child `y` that leaves a scope by `remove` and comes back by `insert` is the last of its
children** and the symbol that it was, with everything below it; meanwhile the `slot` holds it as a
root. -/
theorem remove_then_insert (h : s.Settled) (hc : s.scope? p = some c)
    (hy : c.lookup? name = some y) (hslot : slot ≠ p.slot) :
    let out := (s.step (.remove p name (some slot))).2
    let back := (out.step (.insert slot p)).2
    s.succeeds (.remove p name (some slot)) = true ∧ out.succeeds (.insert slot p) = true ∧
      out.slots.get? slot = some (y.reroot none) ∧
      out.scope? p = some { c with children := c.children.eraseP (·.name = name) } ∧
      back.scope? p =
        some { c with children := c.children.eraseP (·.name = name) ++ [y] } := by
  intro out back
  obtain ⟨x, hx, hrole⟩ := scope?_eq_some.1 hc
  obtain ⟨role, rfl⟩ := Symbol.eq_of_scope? hrole
  have hcoherent := h.coherent_symbol? hx
  obtain ⟨hout, hrest⟩ := step_remove h hx hy hslot
  have hleft : out.scope? p = some { c with children := c.children.eraseP (·.name = name) } :=
    scope?_eq_some.2 ⟨_, hrest, rfl⟩
  let o : Offer :=
    ⟨{ c with children := c.children.eraseP (·.name = name) }, y.reroot none, none⟩
  have hoffer : out.offer? (.insert slot p) = some (p, o) := by
    refine Option.bind_eq_some_iff.2 ⟨_, hout, ?_⟩
    rw [if_neg hslot.symm]
    exact offering_eq_some.2 ⟨rfl, _, hleft, rfl⟩
  obtain ⟨hinserted, hback⟩ :=
    succeeds_of_offer hoffer (obstacle?_of_removed hcoherent hy rfl out.surroundings.store)
  refine ⟨succeeds_remove hx hy slot, hinserted, hout, hleft, hback.trans ?_⟩
  -- a coherent tree is where its parts say it is, and the scope knows where the child was
  have hentered : o.entered = y := by
    obtain ⟨hmem, -⟩ := Symbol.child?_mem (x := .branch role c.info c.policy c.children) hy
    have hplaced : y.info.parent? = some c.info.path := hcoherent.placed hmem
    rw [Offer.entered, Symbol.reroot_reroot]
    show y.reroot (some c.info.path) = y
    rw [← hplaced, Symbol.reroot_self (hcoherent.child hmem)]
  rw [hentered]
  rfl

/-! ## §2. Names, lookups and operations. -/

/-- The scope `c` at `p` is an ordered map: its `names` are listed once each in the order of
registration, told by the times `since`, and all ways of asking for a child agree with the list. -/
structure OrderedMap (s : Session) (since : Place → Nat) (p : Place) (c : Scope) : Prop where
  /-- No name is listed twice in `names`. -/
  nodup : c.names.Nodup
  /-- The `names` are in the order of the last registrations. -/
  ordered : c.names.Pairwise fun j k => since (p.child j) < since (p.child k)
  /-- There is a child of exactly the names that are listed. -/
  mem_iff : ∀ k, k ∈ c.names ↔ (s.symbol? (p.child k)).isSome = true
  /-- There are as many `children` as `names`. -/
  length : c.children.length = c.names.length
  /-- The operation `names` tells the host the list. -/
  listed : (s.step (.names p)).1.result =
    .ok (.listing ⟨c.names, c.info.path.display, c.info.description⟩)
  /-- The operation `lookup` finds a child by its name `k`, and tells whether it is there. -/
  found : ∀ k, (s.step (.lookup p k)).1.result =
    .ok (.child ((s.symbol? (p.child k)).map Symbol.found) (decide (k ∈ c.names)))
  /-- The operation `resolve` leads along the names `ks` from child to child. -/
  resolved : ∀ ks, (s.step (.resolve p ⟨ks⟩)).1.result =
    .ok (.resolved (if ks = [] then none else (s.symbol? (p.below ⟨ks⟩)).map Symbol.found)
      ((s.scope? (p.below ⟨ks⟩)).map (·.info.label)))

theorem names?_of_scope? (hc : s.scope? p = some c) : s.names? p = some c.names := by
  obtain ⟨x, hx, hrole⟩ := scope?_eq_some.1 hc
  obtain ⟨role, rfl⟩ := Symbol.eq_of_scope? hrole
  exact names?_self hx

/-- Below the symbol `x` at `p` a place leads to what `x.descend?` leads to. -/
theorem symbol?_below (hx : s.symbol? p = some x) (ks : List String) :
    s.symbol? (p.below ⟨ks⟩) = x.descend? ks := by
  obtain ⟨tree, htree, hdescend⟩ := symbol?_eq_some.1 hx
  rw [symbol?, Place.below, htree, Option.bind_some, Symbol.descend?_append, hdescend,
    Option.bind_some]

theorem Settled.orderedMap (h : s.Settled) (hc : s.scope? p = some c) {since : Place → Nat}
    (hordered : c.names.Pairwise fun j k => since (p.child j) < since (p.child k)) :
    s.OrderedMap since p c := by
  obtain ⟨x, hx, hrole⟩ := scope?_eq_some.1 hc
  have hnames := names?_of_scope? hc
  have hmem (k : String) : k ∈ c.names ↔ (s.symbol? (p.child k)).isSome = true :=
    (isSome_symbol?_child hnames).symm
  have hfinds := Request.finds_scope (s := s.quiet) p
  rw [show s.quiet.scope? p = some c from hc] at hfinds
  have hlookup (k : String) : c.lookup? k = s.symbol? (p.child k) := by
    obtain ⟨role, rfl⟩ := Symbol.eq_of_scope? hrole
    rw [symbol?_child, hx]
    rfl
  refine ⟨h.nodup_names hnames, hordered, hmem, (List.length_map _).symm, ?_, fun k => ?_,
    fun ks => ?_⟩
  · have hlisting : (Request.listing p).outcome s.quiet =
        (.ok ⟨c.names, c.info.path.display, c.info.description⟩, s.quiet) := hfinds.map _
    show ((Request.answer (.names p)).outcome s.quiet).1 = _
    rw [Request.answer, Request.outcome_map, hlisting]
    rfl
  · have hanswer : (Request.answer (.lookup p k)).outcome s.quiet =
        (.ok (.child ((c.lookup? k).map Symbol.found) (c.contains k)), s.quiet) := hfinds.map _
    have hcontains : c.contains k = decide (k ∈ c.names) := by
      rw [Scope.contains, hlookup, Bool.eq_iff_iff, decide_eq_true_iff, hmem]
    show ((Request.answer (.lookup p k)).outcome s.quiet).1 = _
    rw [hanswer, hlookup, hcontains]
  · have hbranch : (Request.branch p).outcome s.quiet = (.ok x, s.quiet) :=
      Request.outcome_branch hx hrole
    have hresolve : x.resolve? ⟨ks⟩ =
        if ks = [] then none else s.symbol? (p.below ⟨ks⟩) := by
      rw [symbol?_below hx, Symbol.resolve?, Path.isRoot]
      exact if_congr List.isEmpty_iff rfl rfl
    have hscope : x.scopeAt? ⟨ks⟩ = s.scope? (p.below ⟨ks⟩) := by
      rw [scope?, symbol?_below hx, Symbol.scopeAt?]
    show ((Request.answer (.resolve p ⟨ks⟩)).outcome s.quiet).1 = _
    rw [Request.answer, Request.outcome_bind_ok hbranch, hresolve, hscope,
      apply_ite (Option.map Symbol.found)]
    rfl

/-- What the operation `op` makes of the names of all scopes. -/
structure Resequenced (s : Session) (op : Operation) (s' : Session) : Prop where
  /-- A registration of the offer `o` puts one name, `o.name`, behind the others. -/
  appended : ∀ p o, s.offer? op = some (p, o) → s.succeeds op = true →
    s'.names? p = (s.names? p).map (· ++ [o.name])
  /-- A removal by `remove` takes the one `name` out. -/
  removed : ∀ p name into?, op = .remove p name into? → s.succeeds op = true →
    into? ≠ some p.slot → s'.names? p = (s.names? p).map (·.erase name)
  /-- At every place `q` the names are those that the operation asks for, `namesAfter`. -/
  done : op.isSeries = false → s.succeeds op = true → ∀ q, s'.names? q = s.namesAfter op q
  /-- An operation that fails leaves all names as they were, but for those in a slot of
  `Operation.emptied`, whose symbol was dropped on the way. -/
  failed : op.isSeries = false → s.succeeds op = false → ∀ q,
    s'.names? q = s.names? q ∨ q.slot ∈ op.emptied ∧ s'.names? q = none
  /-- An operation that `rearranges` nothing, neither making nor moving nor dropping symbols, leaves
  all names as they were. -/
  idle : op.rearranges = false → ∀ q, s'.names? q = s.names? q
  /-- The `settings` of `setupConfig` are registered one behind the other, all of them unless one
  cannot be linked; those registered are `new`. -/
  settings : ∀ p t, op = .setupConfig p t → ∃ new, new <+: s.settings op ∧
    (s.succeeds op = true → new = s.settings op) ∧
    ∀ q, s'.names? q = s.namesEntered p new Symbol.leafNames? q
  /-- The module `m` of `registerModule` is registered behind the other children, with its settings
  `new` below it; or it is refused. -/
  module : ∀ host p, op = .registerModule host p →
    (s.succeeds op = false ∧ ∀ q, s'.names? q = s.names? q) ∨
    ∃ m new, new <+: s.settings op ∧ (s.succeeds op = true → new = s.settings op) ∧
      ∀ q, s'.names? q = s.namesEntered p [m] (Symbol.moduleNames? new) q

theorem isSeries_of_offer (h : s.offer? op = some (p, o)) : op.isSeries = false := by
  cases op <;> first | rfl | cases h

/-- What a registration of the offer `o` makes of its scope. -/
theorem Turn.names?_of_offer (h : s.Settled) (h' : s'.Settled) (hturn : s.Turn op true s')
    (ho : s.offer? op = some (p, o)) : s'.names? p = (s.names? p).map (· ++ [o.name]) := by
  rw [hturn.names?_of_done h h' (isSeries_of_offer ho), namesAfter_of_offer ho,
    if_neg (slot_of_offer ho), namesEntered, Place.way?_self]

/-- **What every operation makes of the names of all scopes**: from a `Settled` session they are
`Resequenced`. -/
theorem Settled.resequenced (h : s.Settled) (op : Operation) (h' : (s.step op).2.Settled) :
    s.Resequenced op (s.step op).2 := by
  have hturn := turn_step h op
  have hdone (hsucceeds : s.succeeds op = true) : s.Turn op true (s.step op).2 := by
    rwa [hsucceeds] at hturn
  have hfailed (hfails : s.succeeds op = false) : s.Turn op false (s.step op).2 := by
    rwa [hfails] at hturn
  constructor
  · exact fun p o ho hsucceeds => (hdone hsucceeds).names?_of_offer h h' ho
  · rintro p name into? rfl hsucceeds hinto
    rw [(hdone hsucceeds).names?_of_done h h' rfl]
    refine (if_neg hinto).trans ?_
    rw [namesLeft, Place.way?_self]
  · exact fun hseries hsucceeds => (hdone hsucceeds).names?_of_done h h' hseries
  · exact fun hseries hfails => (hfailed hfails).names?_of_failed hseries
  · intro hidle q
    have hseries : op.isSeries = false := by
      cases op <;> first | rfl | cases hidle
    have hemptied : op.emptied = [] := by
      cases op <;> first | rfl | cases hidle
    cases hsucceeds : s.succeeds op with
    | true => rw [(hdone hsucceeds).names?_of_done h h' hseries, namesAfter_of_idle hidle]
    | false =>
      refine ((hfailed hsucceeds).names?_of_failed hseries q).resolve_right fun hgone => ?_
      rw [hemptied] at hgone
      exact List.not_mem_nil hgone.1
  · rintro p t rfl
    exact hturn.names?_setupConfig h'
  · rintro host p rfl
    exact hturn.names?_registerModule h'

end Session

/-! ## §3. Whole runs. -/

namespace Chronicle

variable {c : Chronicle} {op : Operation} {p : Place} {o : Offer}

/-- A registration of the offer `o` has the time `clock` at which it is made. -/
theorem since_step_of_offer (h : c.session.Settled) (h' : (c.step op).session.Settled)
    (ho : c.session.offer? op = some (p, o)) (hsucceeds : c.session.succeeds op = true) :
    (c.step op).since (p.child o.name) = c.clock := by
  have hturn := Session.turn_step h op
  rw [hsucceeds] at hturn
  have hnone : c.session.settings op = [] := by
    cases op <;> first | rfl | cases ho
  have hsource : c.session.source op (c.session.succeeds op) (p.child o.name) =
      p.child o.name := by
    rw [hsucceeds]
    refine Session.origin_of_offer ho fun k j ks hway => ?_
    rw [Place.way?_child] at hway
    cases hway
  have hnew : c.session.symbol? (p.child o.name) = none :=
    Session.symbol?_of_entered h' (hturn.names?_of_offer h h' ho) (List.mem_singleton_self _)
  rw [since_step_of_none (by rw [hsource, hnew]), hnone]
  rfl

/-- **Scopes are ordered maps over whole runs.** After every run each scope lists the names of its
children once each, in the order of their last registrations, and all lookups agree with the list
(`OrderedMap`); each operation makes of the names of all scopes what it should, and of none else
when it fails (`Resequenced`); and a child that is removed and inserted again is the last, and the
symbol that it was. -/
theorem scope_is_ordered_map (ops : List Operation) :
    let s := Session.after ops
    (∀ p x, s.scope? p = some x → s.OrderedMap (after ops).since p x) ∧
    (∀ op p o, s.offer? op = some (p, o) → s.succeeds op = true →
      (after (ops ++ [op])).since (p.child o.name) = (after ops).clock) ∧
    (∀ op, s.Resequenced op (s.step op).2) ∧
    ∀ p x name y slot, s.scope? p = some x → x.lookup? name = some y → slot ≠ p.slot →
      let out := (s.step (.remove p name (some slot))).2
      let back := (out.step (.insert slot p)).2
      s.succeeds (.remove p name (some slot)) = true ∧ out.succeeds (.insert slot p) = true ∧
        out.slots.get? slot = some (y.reroot none) ∧
        out.scope? p = some { x with children := x.children.eraseP (·.name = name) } ∧
        back.scope? p =
          some { x with children := x.children.eraseP (·.name = name) ++ [y] } := by
  intro s
  have hsession : (after ops).session = s := session_after ops
  have hsettled : s.Settled := Session.settled_after ops
  have hsettled' (op : Operation) : (s.step op).2.Settled := by
    have h := Session.settled_after (ops ++ [op])
    rwa [Session.after_concat] at h
  refine ⟨fun p x hx => ?_, fun op p o ho hsucceeds => ?_,
    fun op => hsettled.resequenced op (hsettled' op), fun p x name y slot hx hy hslot =>
      Session.remove_then_insert hsettled hx hy hslot⟩
  · refine hsettled.orderedMap hx ((ordered_after ops).ascending p _ ?_)
    rw [hsession]
    exact Session.names?_of_scope? hx
  · rw [after_concat]
    rw [← hsession] at hsettled ho hsucceeds
    refine since_step_of_offer hsettled ?_ ho hsucceeds
    show ((after ops).session.step op).2.Settled
    rw [hsession]
    exact hsettled' op

/-- A run that registers two scopes, `a` and `b`, the first with a scalar in it. -/
def filing : List Operation :=
  [.newScope "root" "root" "" .matchingNames, .addScope ⟨"root", .root⟩ "a" "",
    .addScalar ⟨"root", ⟨["a"]⟩⟩ "x" "" (.bool true), .addScope ⟨"root", .root⟩ "b" ""]

/-- In the run `filing` the first of two scopes is taken out and put back, and is the second. -/
theorem scope_is_ordered_map_filing :
    let out := ((Session.after filing).step (.remove ⟨"root", .root⟩ "a" (some "held"))).2
    ∃ x y, (Session.after filing).scope? ⟨"root", .root⟩ = some x ∧ x.names = ["a", "b"] ∧
      (out.step (.insert "held" ⟨"root", .root⟩)).2.scope? ⟨"root", .root⟩ = some y ∧
        y.names = ["b", "a"] := by
  intro out
  obtain ⟨-, -, -, hreturns⟩ := scope_is_ordered_map filing
  have hnames : ((Session.after filing).scope? ⟨"root", .root⟩).map Scope.names =
      some ["a", "b"] := by decide +kernel
  have hchild : (((Session.after filing).scope? ⟨"root", .root⟩).bind (·.lookup? "a")).isSome =
      true := by decide +kernel
  obtain ⟨x, hx, hlist⟩ := Option.map_eq_some_iff.1 hnames
  rw [hx, Option.bind_some] at hchild
  obtain ⟨y, hy⟩ := Option.isSome_iff_exists.1 hchild
  obtain ⟨-, -, -, -, hback⟩ := hreturns ⟨"root", .root⟩ x "a" y "held" hx hy (by decide)
  have hname : y.name = "a" := by simpa using List.find?_some hy
  refine ⟨x, _, hx, hlist, hback, ?_⟩
  show (x.children.eraseP (·.name = "a") ++ [y]).map Symbol.name = _
  rw [List.map_append, Symbol.map_name_eraseP, show x.children.map Symbol.name = _ from hlist,
    List.map_singleton, hname]
  rfl

end Chronicle

end ConfigTree
