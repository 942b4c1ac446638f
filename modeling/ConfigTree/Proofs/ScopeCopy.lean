import ConfigTree.Proofs.CopyCourse
import ConfigTree.Proofs.StoreDifferences
import Mathlib.Data.List.Forall2

/-!
# Where two trees meet

A copy between scopes goes down both trees at once.  Seen from the outside it goes along the nodes
of the target, parents before children, and at each of them that has a counterpart in the source it
meets the counterpart: a scalar takes a value, a function what it does, and a scope nothing by
itself.  Up to the first meeting that fails everything is copied, and from there on nothing.

Main results:
  * `Fares.append` — a copy along some nodes and then along others;
  * `Symbol.copyFrom_fares` — a copy goes along its meetings up to the first that fails;
  * `Scope.copyFrom_meets` — when a copy between scopes succeeds, what it leaves if it does, and how
    far it gets if it does not.
-/

namespace ConfigTree

/-! ## §1. Meetings. -/

/-- A node of a tree, with the names that lead to it and with what they lead to in another tree. -/
structure Meeting where
  /-- The names that lead to both. -/
  path : Path
  /-- The node, without what it holds. -/
  target : Symbol
  /-- What stands at the same place of the other tree, if the path is common to both. -/
  source? : Option Symbol

/-- The scalar `x`, `y` after it was given the value of another, `z`, which is read before anything
is written. -/
structure Scalar.Received (s u : Store) (x z y : Scalar) : Prop where
  /-- It has the name and the place, `info`, that it had. -/
  info : y.info = x.info
  /-- It leads to where it led, by `link?`. -/
  link : (Symbol.scalar y).link? = (Symbol.scalar x).link?
  /-- It shows the value converted to its kind, `c`, the `Nearest` to it that its storage can
  show. -/
  value : ∃ v c, z.peek s = .ok v ∧ v.convert (x.kind s) = some c ∧
    y.peek u = .ok (x.shown s c) ∧ x.Nearest s c (x.shown s c)

namespace Symbol

/-- The nodes of the tree `x`, parents before children, each with its counterpart in `src`. -/
def meetings (x src : Symbol) : List Meeting :=
  (x.nodes .root).map fun node => ⟨node.1, node.2, src.descend? node.1.segments⟩

/-- The meetings below the path `here`, if there is anything to meet. -/
def facing (here : Path) (src? : Option Symbol) (x : Symbol) : List Meeting :=
  (x.nodes .root).map fun node =>
    ⟨⟨here.segments ++ node.1.segments⟩, node.2, src?.bind (·.descend? node.1.segments)⟩

theorem meetings_eq_facing (x src : Symbol) : x.meetings src = x.facing .root (some src) := rfl

/-- Why the symbol `x` cannot take over the value of `src`, its children aside: a scalar what
reading the source or writing the target fails with, and any symbol that the kinds do not suit. -/
def refusal? (s : Store) (x src : Symbol) : Option SymbolError :=
  match x, src with
  | scalar x, scalar y => match y.peek s >>= x.write s with
    | .ok _ => none
    | .error e => some e
  | function _, function _ => none
  | branch .scope _ _ _, branch _ _ _ _ => none
  | x, src => some (.typeMismatch x.info.label src.info.label x.kind.article)

/-- The symbol `x` can take over the value of `src`: a scalar that of a scalar that can be read, if
the value `Fits` and there is no `barrier?`; a function that of a function; and a scope that of a
scope or an object. -/
def Accepts (s : Store) (x src : Symbol) : Prop :=
  match x, src with
  | scalar x, scalar y => ∃ v, y.peek s = .ok v ∧ x.Fits s v ∧ x.barrier? s = none
  | function _, function _ => True
  | branch .scope _ _ _, branch _ _ _ _ => True
  | _, _ => False

/-- The symbol `x`, `y` after it took over the value of `src`, its children aside: a scalar shows
the value (`Scalar.Received`), a function does the same for as many arguments, and anything else is
what it was. -/
def TookOver (s u : Store) (x src y : Symbol) : Prop :=
  match x, src with
  | scalar x, scalar z => ∃ y', y = scalar y' ∧ x.Received s u z y'
  | function f, function g => y = function { f with callable := g.callable, arity? := g.arity? }
  | _, _ => y = x

/-- What a symbol `TookOver` depends on the stores if it is a scalar only. -/
theorem TookOver.imp {s s' u u' : Store} {x src y : Symbol} (h : x.TookOver s u src y)
    (hscalar : ∀ x' z y', x = scalar x' → src = scalar z → Scalar.Received s u x' z y' →
      Scalar.Received s' u' x' z y') : x.TookOver s' u' src y := by
  cases x with
  | scalar x =>
    cases src with
    | scalar z =>
      obtain ⟨y', hy, hreceived⟩ := h
      exact ⟨y', hy, hscalar x z y' rfl rfl hreceived⟩
    | _ => exact h
  | function f => cases src <;> exact h
  | branch role info policy cs => cases role <;> cases src <;> exact h

/-- There is no `refusal?` of what a symbol `Accepts`. -/
theorem refusal?_eq_none {s : Store} {x src : Symbol} :
    x.refusal? s src = none ↔ x.Accepts s src := by
  cases x with
  | scalar x =>
    cases src with
    | scalar z =>
      simp only [refusal?, Accepts]
      cases hpeek : z.peek s with
      | error e => simp [bind, Except.bind]
      | ok v =>
        simp only [bind, Except.bind, Except.ok.injEq, exists_eq_left']
        by_cases hfit : x.Fits s v
        · cases hb : x.barrier? s with
          | none =>
            obtain ⟨y, s', hwrite⟩ := Scalar.write_of_clear hfit hb
            simp [hwrite, hfit]
          | some cause => simp [Scalar.write_of_barrier hfit hb]
        · simp [Scalar.write_of_unfit hfit, hfit]
    | _ => simp [refusal?, Accepts]
  | function f => cases src <;> simp [refusal?, Accepts]
  | branch role info policy cs => cases role <;> cases src <;> simp [refusal?, Accepts]

end Symbol

namespace Meeting

/-- The `target` without its counterpart. -/
def node (m : Meeting) : Path × Symbol := (m.path, m.target)

/-- Why the `target` cannot take over the value of the source, if there is one. -/
def refusal? (m : Meeting) (s : Store) : Option SymbolError :=
  m.source?.bind (m.target.refusal? s)

/-- The `target` accepts the value of the source, if there is one, by `Symbol.Accepts`. -/
def Accepts (m : Meeting) (s : Store) : Prop := ∀ z, m.source? = some z → m.target.Accepts s z

/-- The node of the meeting `m` afterwards; a `target` that meets nothing is what it was. -/
def Taken (s u : Store) (m : Meeting) (node : Path × Symbol) : Prop :=
  node.1 = m.path ∧ match m.source? with
    | some z => m.target.TookOver s u z node.2
    | none => node.2 = m.target

/-- Where the `target` keeps its value, if it meets a source. -/
def link? (m : Meeting) : Option Link := m.source?.bind fun _ => m.target.link?

/-- Where the source keeps its value, if there is one. -/
def sourceLink? (m : Meeting) : Option Link := m.source?.bind Symbol.link?

theorem refusal?_eq_none {m : Meeting} {s : Store} : m.refusal? s = none ↔ m.Accepts s := by
  unfold refusal? Accepts
  cases m.source? with
  | none => simp
  | some z => simp [Symbol.refusal?_eq_none]

/-- The meetings `ms` of a copy by matching names alone, none of which is in the way of another. -/
structure Untangled (ms : List Meeting) : Prop where
  /-- No target that meets a source is an object. -/
  object : ∀ m ∈ ms, m.source?.isSome = true → m.target.object? = none
  /-- Every scope that meets a scope or an object takes what has the same name, by
  `matchingNames`. -/
  policy : ∀ m ∈ ms, (m.source?.bind Symbol.scope?).isSome = true →
    ∀ policy, m.target.policy? = some policy → policy = .matchingNames
  /-- No two targets keep their values in the same place, by `link?`. -/
  targets : (ms.filterMap link?).Nodup
  /-- No target keeps its value where a source keeps one, by `sourceLink?`. -/
  sources : ∀ l ∈ ms.filterMap link?, l ∉ ms.filterMap sourceLink?

variable {ms ms' : List Meeting}

/-- A stretch `ms'` of meetings that are `Untangled` is so too. -/
theorem Untangled.sublist (h : Untangled ms) (hsub : ms'.Sublist ms) : Untangled ms' :=
  ⟨fun m hm => h.object m (hsub.subset hm), fun m hm => h.policy m (hsub.subset hm),
    h.targets.sublist (hsub.filterMap link?), fun l hl hmem =>
      h.sources l ((hsub.filterMap link?).subset hl) ((hsub.filterMap sourceLink?).subset hmem)⟩

/-- What the targets of the stretch `ms` lead to is not where the targets of `ms'` do. -/
theorem Untangled.targets_append (h : Untangled (ms ++ ms')) :
    ∀ l ∈ ms.filterMap link?, l ∉ ms'.filterMap link? := by
  have hnodup := h.targets
  rw [List.filterMap_append, List.nodup_append] at hnodup
  exact fun l hl hmem => hnodup.2.2 l hl l hmem rfl

/-! ## §2. How far a copy gets. -/

/-- How a copy fares that gets past the meetings `done` and leaves the meetings `left`. -/
structure Reaches (s u : Store) (done left : List Meeting) (after : List (Path × Symbol))
    (error? : Option SymbolError) : Prop where
  /-- The targets that it got past have `Taken` over; those that are `left` are what they were. -/
  nodes : ∃ done', after = done' ++ left.map node ∧ List.Forall₂ (Taken s u) done done'
  /-- It got past what was accepted only, by `Accepts`. -/
  accepted : ∀ m ∈ done, m.Accepts s
  /-- Nothing else has changed: the stores are `SameBut` for the links of `done`. -/
  store : s.SameBut (done.filterMap link?) u
  /-- Without an error nothing is `left`. -/
  all : error? = none → left = []
  /-- An error is the `refusal?` of the first meeting that is `left`. -/
  first : ∀ e, error? = some e → ∃ m rest, left = m :: rest ∧ m.refusal? s = some e

/-- A copy gets past the first of the meetings `ms`, and ends at the one that fails, if one does: it
`Reaches` so far. -/
def Fares (ms : List Meeting) (s u : Store) (after : List (Path × Symbol))
    (error? : Option SymbolError) : Prop :=
  ∃ done left, ms = done ++ left ∧ Reaches s u done left after error?

variable {m : Meeting} {s t u : Store} {after after' : List (Path × Symbol)} {y : Path × Symbol}
  {error? : Option SymbolError} {e : SymbolError} {links : List Link}

theorem fares_nil (s : Store) : Fares [] s s [] none :=
  ⟨[], [], rfl, ⟨[], rfl, .nil⟩, nofun, .refl _ s, fun _ => rfl, nofun⟩

/-- A meeting `m` that fails with `e`, before anything has changed. -/
theorem fares_refused (h : m.refusal? s = some e) (ms : List Meeting) :
    Fares (m :: ms) s s ((m :: ms).map node) (some e) :=
  ⟨[], m :: ms, rfl, ⟨[], rfl, .nil⟩, nofun, .refl _ s, nofun, fun e' he' =>
    ⟨m, ms, rfl, by rw [← he', h]⟩⟩

/-- A meeting `m` that succeeds, and `y` is its node then. -/
theorem fares_taken (h : m.refusal? s = none) (ht : m.Taken s u y)
    (hs : s.SameBut m.link?.toList u) : Fares [m] s u [y] none := by
  refine ⟨[m], [], rfl, ⟨[y], rfl, .cons ht .nil⟩, ?_, ?_, fun _ => rfl, nofun⟩
  · intro m' hm'
    obtain rfl := List.mem_singleton.1 hm'
    exact refusal?_eq_none.1 h
  · cases hl : m.link? <;> simpa [hl] using hs

/-- Where no meeting has a `source?` nothing happens. -/
theorem fares_apart (h : ∀ m ∈ ms, m.source? = none) (s : Store) :
    Fares ms s s (ms.map node) none := by
  refine ⟨ms, [], (List.append_nil ms).symm, ⟨ms.map node, (List.append_nil _).symm, ?_⟩, ?_,
    .refl _ s, fun _ => rfl, nofun⟩
  · rw [List.forall₂_map_right_iff, List.forall₂_same]
    exact fun m hm => ⟨rfl, by rw [h m hm]; rfl⟩
  · intro m hm z hz
    cases (h m hm).symm.trans hz

/-- Meetings `ms'` after one that fails are not come to. -/
theorem Fares.stop (h : Fares ms s u after (some e)) (ms' : List Meeting) :
    Fares (ms ++ ms') s u (after ++ ms'.map node) (some e) := by
  obtain ⟨done, left, rfl, ⟨done', rfl, htaken⟩, haccepted, hstore, -, hfirst⟩ := h
  refine ⟨done, left ++ ms', List.append_assoc _ _ _, ⟨done', ?_, htaken⟩, haccepted, hstore,
    nofun, fun e' he' => ?_⟩
  · rw [List.map_append, List.append_assoc]
  · obtain ⟨m, rest, rfl, hm⟩ := hfirst e' he'
    exact ⟨m, rest ++ ms', rfl, hm⟩

/-- A value is refused or not, by `refusal?`, as before changes at `links` to what the source does
not show. -/
theorem refusal?_of_sameBut (h : s.SameBut links t)
    (hsource : ∀ l, m.sourceLink? = some l → l ∉ links) : m.refusal? t = m.refusal? s := by
  obtain ⟨path, target, _ | z⟩ := m
  · rfl
  · show target.refusal? t z = target.refusal? s z
    cases target with
    | scalar x =>
      cases z with
      | scalar z =>
        simp only [Symbol.refusal?, h.peek hsource]
        cases z.peek s with
        | error e => rfl
        | ok v =>
          dsimp only [bind, Except.bind]
          cases hwrite : x.write s v with
          | error e => rw [(h.write_error x v e).2 hwrite]
          | ok written =>
            cases hwrite' : x.write t v with
            | error e => cases ((h.write_error x v e).1 hwrite').symm.trans hwrite
            | ok written' => rfl
      | _ => rfl
    | function f => cases z <;> rfl
    | branch role info policy cs => cases role <;> cases z <;> rfl

/-- A node `y` is `Taken` in the same way if scalars are. -/
theorem Taken.imp {s' u' : Store} (ht : m.Taken s u y)
    (hscalar : ∀ x z y', m.target = .scalar x → m.source? = some (.scalar z) →
      Scalar.Received s u x z y' → Scalar.Received s' u' x z y') : m.Taken s' u' y := by
  obtain ⟨path, target, _ | z⟩ := m
  · exact ht
  · exact ⟨ht.1, ht.2.imp fun x z' y' hx hz => hscalar x z' y' hx (congrArg some hz)⟩

/-- What is `Taken` over is what would be before changes at `links` to what the source does not
show. -/
theorem Taken.of_before (ht : m.Taken t u y) (h : s.SameBut links t)
    (hsource : ∀ l, m.sourceLink? = some l → l ∉ links) : m.Taken s u y := by
  refine ht.imp fun x z y' _ hz hreceived => ?_
  obtain ⟨v, c, hpeek, hconvert, hshown, -⟩ := hreceived.value
  have hsame : z.peek t = z.peek s := h.peek fun l hl => hsource l (by rw [sourceLink?, hz]; exact hl)
  rw [hsame] at hpeek
  rw [h.scalarKind] at hconvert
  rw [h.scalarShown] at hshown
  exact ⟨hreceived.info, hreceived.link, v, c, hpeek, hconvert, hshown, x.nearest_shown s c⟩

/-- What was `Taken` over is still there after changes at `links` to what the target does not
show. -/
theorem Taken.of_after (ht : m.Taken s t y) (h : t.SameBut links u)
    (htarget : ∀ l, m.link? = some l → l ∉ links) : m.Taken s u y := by
  refine ht.imp fun x z y' hx hz hreceived => ?_
  obtain ⟨v, c, hpeek, hconvert, hshown, hnearest⟩ := hreceived.value
  have hsame : y'.peek u = y'.peek t := h.peek fun l hl => htarget l (by
    rw [link?, hz, hx]
    exact hreceived.link.symm.trans hl)
  exact ⟨hreceived.info, hreceived.link, v, c, hpeek, hconvert, hsame.trans hshown, hnearest⟩

/-- **A copy along the meetings `ms` and then along `ms'`** is one along all of them, where they are
`Untangled`. -/
theorem Fares.append (h : Fares ms s t after none) (h' : Fares ms' t u after' error?)
    (hu : Untangled (ms ++ ms')) : Fares (ms ++ ms') s u (after ++ after') error? := by
  obtain ⟨done, left, rfl, ⟨done', rfl, htaken⟩, haccepted, hstore, hall, -⟩ := h
  obtain rfl := hall rfl
  rw [List.append_nil] at hu ⊢
  obtain ⟨next, left, rfl, ⟨next', rfl, htaken'⟩, haccepted', hstore', hall', hfirst'⟩ := h'
  -- what is met later is what it was, and what was met before is left alone later
  have hsource (m : Meeting) (hm : m ∈ next ++ left) (l : Link) (hl : m.sourceLink? = some l) :
      l ∉ done.filterMap link? := by
    intro hmem
    refine hu.sources l ?_ ?_
    · rw [List.filterMap_append]
      exact List.mem_append_left _ hmem
    · exact List.mem_filterMap.2 ⟨m, List.mem_append_right _ hm, hl⟩
  have htarget (m : Meeting) (hm : m ∈ done) (l : Link) (hl : m.link? = some l) :
      l ∉ next.filterMap link? := by
    intro hmem
    refine hu.targets_append l (List.mem_filterMap.2 ⟨m, hm, hl⟩) ?_
    rw [List.filterMap_append]
    exact List.mem_append_left _ hmem
  have hrefusal (m : Meeting) (hm : m ∈ next ++ left) : m.refusal? t = m.refusal? s :=
    refusal?_of_sameBut hstore (hsource m hm)
  refine ⟨done ++ next, left, (List.append_assoc _ _ _).symm, ⟨done' ++ next', by simp, ?_⟩, ?_, ?_,
    hall', fun e he => ?_⟩
  · refine List.rel_append ?_ ?_
    · have hboth := (List.forall₂_and_left _ _).2 ⟨fun m hm => hm, htaken⟩
      exact hboth.imp fun m y hm => hm.2.of_after hstore' (htarget m hm.1)
    · have hboth := (List.forall₂_and_left _ _).2 ⟨fun m hm => hm, htaken'⟩
      exact hboth.imp fun m y hm => hm.2.of_before hstore (hsource m (List.mem_append_left _ hm.1))
  · intro m hm
    rcases List.mem_append.1 hm with hm | hm
    · exact haccepted m hm
    · have haccept := refusal?_eq_none.2 (haccepted' m hm)
      rw [hrefusal m (List.mem_append_left _ hm)] at haccept
      exact refusal?_eq_none.1 haccept
  · rw [List.filterMap_append]
    exact hstore.append hstore'
  · obtain ⟨m, rest, rfl, hm⟩ := hfirst' e he
    refine ⟨m, rest, rfl, ?_⟩
    rw [← hrefusal m (List.mem_append_right _ List.mem_cons_self), hm]

end Meeting

/-! ## §3. Copies. -/

namespace Symbol

open Meeting

variable {here : Path} {src? : Option Symbol} {x src : Symbol}

/-- The `nodes` seen from the place `here` are those seen from the root, `shifted`. -/
theorem nodes_eq_map (x : Symbol) (here : Path) :
    x.nodes here = (x.nodes .root).map (shifted here) := by
  rw [nodes, preorder_eq_map, nodes, List.map_map, List.map_map]
  rfl

/-- **The meetings below a path, by `facing`**: that of the node itself, then those of its children,
each with the child of its name on the other side. -/
theorem facing_eq (here : Path) (src? : Option Symbol) (x : Symbol) :
    x.facing here src? = ⟨here, x.alone, src?⟩ ::
      x.children.flatMap fun c => c.facing (here.child c.name) (src?.bind (·.child? c.name)) := by
  rw [facing, nodes_eq, List.map_cons, List.map_flatMap]
  congr 1
  · cases src? <;> simp [Path.root]
  · refine List.flatMap_congr fun c _ => ?_
    rw [nodes_eq_map, List.map_map, facing]
    refine List.map_congr_left fun node _ => ?_
    have hsegments : (shifted (Path.root.child c.name) node).1.segments =
        c.name :: node.1.segments := rfl
    simp only [Function.comp_apply, hsegments, Meeting.mk.injEq]
    refine ⟨by simp [Path.child], rfl, ?_⟩
    cases src? with
    | none => rfl
    | some src => rfl

theorem map_node_facing (here : Path) (src? : Option Symbol) (x : Symbol) :
    (x.facing here src?).map node = x.nodes here := by
  rw [facing, List.map_map, nodes_eq_map x here]
  rfl

/-- The copies into the symbol `x` go along the meetings with the source, by `Fares`. -/
def CopiesFare (x : Symbol) : Prop :=
  ∀ (src : Symbol) (here : Path) (w : Surroundings), Untangled (x.facing here (some src)) →
    let out := (x.copyFrom src).run w
    Fares (x.facing here (some src)) w.store out.2.store (out.1.value.nodes here) out.1.error?

/-- A copy that is refused at once for the `refusal?` `e`. -/
theorem fares_of_refused {e : SymbolError} {w w' : Surroundings} (here : Path)
    (hrun : (x.copyFrom src).run w = (⟨x, some e⟩, w')) (hstore : w'.store = w.store)
    (h : x.alone.refusal? w.store src = some e) :
    let out := (x.copyFrom src).run w
    Fares (x.facing here (some src)) w.store out.2.store (out.1.value.nodes here)
      out.1.error? := by
  dsimp only
  have hmeeting : Meeting.refusal? ⟨here, x.alone, some src⟩ w.store = some e := h
  rw [hrun, ← map_node_facing here (some src), facing_eq, hstore]
  exact fares_refused hmeeting _

/-- A copy from the scalar `z` into the scalar `x` reads the one and writes the other. -/
theorem run_copyFrom_scalar_write (x z : Scalar) (w : Surroundings) :
    let w₀ := w.emit (.copying x.info.label z.info.label)
    ((scalar x).copyFrom (scalar z)).run w = match z.peek w.store >>= x.write w.store with
      | .ok (y, s) => (⟨scalar y, none⟩, w₀.withStore s)
      | .error e => (⟨scalar x, some e⟩, w₀.emit (.reported e)) := by
  intro w₀
  rw [run_copyFrom_scalar]
  cases z.peek w.store with
  | error e => rfl
  | ok v =>
    dsimp only [bind, Except.bind]
    rw [Effect.run_map, Scalar.run_set, show (w.emit _).store = w.store from rfl]
    cases x.write w.store v <;> rfl

/-- A scalar `x` that accepts the value of `z` has `Received` it. -/
theorem received_of_write {x y z : Scalar} {v : Value} {s s' : Store} (hpeek : z.peek s = .ok v)
    (hwrite : x.write s v = .ok (y, s')) : x.Received s s' z y := by
  have haccepts : (scalar x).Accepts s (scalar z) :=
    refusal?_eq_none.1 (by simp [refusal?, hpeek, hwrite, bind, Except.bind])
  obtain ⟨-, -, -, hclear⟩ := haccepts
  let w : Surroundings := { store := s }
  obtain ⟨c, hconvert, hshows⟩ := Scalar.shows_of_write (w := w) hwrite hclear
  have hshown : y.peek s' = .ok (x.shown s c) := by
    have hvalue := hshows.value
    rw [Scalar.run_value, show (w.withStore s').store = s' from rfl] at hvalue
    cases hread : y.peek s' with
    | ok u =>
      rw [hread] at hvalue
      exact congrArg Prod.fst hvalue
    | error e =>
      rw [hread] at hvalue
      cases hvalue
  exact ⟨hshows.info, Scalar.link?_write hwrite, v, c, hpeek, hconvert, hshown,
    x.nearest_shown s c⟩

theorem scalar_fares (x : Scalar) : (scalar x).CopiesFare := by
  intro src here w _
  by_cases hsrc : ∃ z, src = scalar z
  · obtain ⟨z, rfl⟩ := hsrc
    have hrun := run_copyFrom_scalar_write x z w
    cases hwrite : z.peek w.store >>= x.write w.store with
    | error e =>
      rw [hwrite] at hrun
      exact fares_of_refused here hrun rfl (by simp only [alone, withChildren, refusal?, hwrite])
    | ok written =>
      obtain ⟨y, s'⟩ := written
      rw [hwrite] at hrun
      have hrefusal : (scalar x).refusal? w.store (scalar z) = none := by
        simp only [refusal?, hwrite]
      cases hpeek : z.peek w.store with
      | error e =>
        rw [hpeek] at hwrite
        cases hwrite
      | ok v =>
        rw [hpeek] at hwrite
        dsimp only at hrun ⊢
        rw [hrun, facing_eq, nodes_eq]
        exact fares_taken hrefusal ⟨rfl, y, rfl, received_of_write hpeek hwrite⟩
          (Scalar.sameBut_write hwrite)
  · have hrun := run_copyFrom_not_scalar x (fun z hz => hsrc ⟨z, hz⟩) w
    refine fares_of_refused here hrun rfl ?_
    cases src with
    | scalar z => exact absurd ⟨z, rfl⟩ hsrc
    | _ => rfl

theorem function_fares (f : Function) : (function f).CopiesFare := by
  intro src here w _
  by_cases hsrc : ∃ g, src = function g
  · obtain ⟨g, rfl⟩ := hsrc
    dsimp only
    rw [run_copyFrom_function, facing_eq, nodes_eq]
    exact fares_taken rfl ⟨rfl, rfl⟩ (.refl _ _)
  · have hrun := run_copyFrom_not_function f (fun g hg => hsrc ⟨g, hg⟩) w
    refine fares_of_refused here hrun rfl ?_
    cases src with
    | function g => exact absurd ⟨g, rfl⟩ hsrc
    | _ => rfl

theorem source?_of_mem_facing_none {m : Meeting} (h : m ∈ x.facing here none) :
    m.source? = none := by
  obtain ⟨node, -, rfl⟩ := List.mem_map.1 h
  rfl

/-- **The copies of children by `copyChildren` go along the meetings of one child after
another.** -/
theorem copyChildren_fares {cs : List Symbol} (h : ∀ c ∈ cs, c.CopiesFare) (src : Scope)
    (here : Path) (w : Surroundings)
    (hu : Untangled (cs.flatMap fun c => c.facing (here.child c.name) (src.lookup? c.name))) :
    let out := (copyChildren cs src).run w
    Fares (cs.flatMap fun c => c.facing (here.child c.name) (src.lookup? c.name)) w.store
      out.2.store (out.1.value.flatMap fun d => d.nodes (here.child d.name)) out.1.error? := by
  induction cs generalizing w with
  | nil => exact fares_nil w.store
  | cons c cs ih =>
    rw [List.flatMap_cons] at hu ⊢
    have hrest := ih (fun d hd => h d (List.mem_cons_of_mem _ hd))
    have hurest := hu.sublist (List.sublist_append_right _ _)
    have hleft : (cs.flatMap fun c => c.facing (here.child c.name) (src.lookup? c.name)).map node =
        cs.flatMap fun c => c.nodes (here.child c.name) := by
      rw [List.map_flatMap]
      exact List.flatMap_congr fun d _ => map_node_facing _ _ d
    cases hz : src.lookup? c.name with
    | none =>
      rw [hz] at hu
      dsimp only
      rw [run_copyChildren_of_none hz]
      dsimp only [Attempt.map]
      rw [List.flatMap_cons, ← map_node_facing _ none c]
      exact (fares_apart (fun m hm => source?_of_mem_facing_none hm) w.store).append
        (hrest w hurest) hu
    | some z =>
      rw [hz] at hu
      have hchild := h c List.mem_cons_self z (here.child c.name) w
        (hu.sublist (List.sublist_append_left _ _))
      have hname : ((c.copyFrom z).run w).1.value.name = c.name :=
        name_of_blank (c.copyFrom_overwrites z w).1
      dsimp only at hchild ⊢
      rw [run_copyChildren_of_some hz]
      generalize (c.copyFrom z).run w = copied at hchild hname
      obtain ⟨⟨value, _ | e⟩, w₁⟩ := copied
      · dsimp only [Attempt.map] at hchild hname ⊢
        rw [List.flatMap_cons, hname]
        exact hchild.append (hrest w₁ hurest) hu
      · -- the children that follow are what they were
        dsimp only at hchild hname ⊢
        rw [List.flatMap_cons, hname, ← hleft]
        exact hchild.stop _

/-- **A copy between scopes by `copyWith` meets the source, and then goes along the meetings of the
children.** -/
theorem scope_fares {cs : List Symbol} (h : ∀ c ∈ cs, c.CopiesFare) (info : Info)
    (policy : CopyPolicy) (src : Symbol) {from_ : Scope} (hsrc : src.scope? = some from_)
    (here : Path) (w : Surroundings)
    (hu : Untangled ((branch .scope info policy cs).facing here (some src))) :
    let out := (Scope.copyWith ⟨info, policy, cs⟩ from_ (copyChildren cs from_)).run w
    Fares ((branch .scope info policy cs).facing here (some src)) w.store out.2.store
      ((branch .scope info policy out.1.value).nodes here) out.1.error? := by
  have hfacing : (branch .scope info policy cs).facing here (some src) =
      [⟨here, branch .scope info policy [], some src⟩] ++
        cs.flatMap fun c => c.facing (here.child c.name) (from_.lookup? c.name) := by
    rw [facing_eq]
    congr 1
    refine List.flatMap_congr fun c _ => ?_
    rw [Option.bind_some, child?_of_scope? hsrc]
  rw [hfacing] at hu ⊢
  have htakes : (some src).bind Symbol.scope? = some from_ := hsrc
  obtain rfl : policy = .matchingNames :=
    hu.policy _ List.mem_cons_self (htakes ▸ rfl) policy rfl
  have hrun : (Scope.copyWith ⟨info, .matchingNames, cs⟩ from_ (copyChildren cs from_)).run w =
      (copyChildren cs from_).run
        (w.emit (.copyingScope info.label from_.info.label .matchingNames)) := rfl
  have hchildren := copyChildren_fares h from_ here
    (w.emit (.copyingScope info.label from_.info.label .matchingNames))
    (hu.sublist (List.sublist_append_right _ _))
  have hhead : Fares [⟨here, branch .scope info .matchingNames [], some src⟩] w.store w.store
      [(here, branch .scope info .matchingNames [])] none := by
    obtain ⟨role, rfl⟩ := eq_of_scope? hsrc
    exact fares_taken rfl ⟨rfl, rfl⟩ (.refl _ _)
  dsimp only at hchildren ⊢
  rw [hrun, nodes_eq]
  exact hhead.append hchildren hu

/-- **A copy goes along its meetings** up to the first that fails: every symbol `CopiesFare`. -/
theorem copyFrom_fares (x : Symbol) : x.CopiesFare := by
  induction x with
  | scalar s => exact scalar_fares s
  | function f => exact function_fares f
  | branch role info policy cs ih =>
    intro src here w hu
    cases role with
    | object handle? =>
      -- no object takes part
      rw [facing_eq] at hu
      cases hu.object _ List.mem_cons_self rfl
    | scope =>
      cases hsrc : src.scope? with
      | none =>
        refine fares_of_refused here (run_copyFrom_not_scope info policy cs hsrc w) rfl ?_
        cases src with
        | branch => cases hsrc
        | _ => rfl
      | some from_ =>
        dsimp only
        rw [run_copyFrom_scope info policy cs hsrc]
        exact scope_fares ih info policy src hsrc here (w.emit (.copying info.label src.info.label))
          hu

end Symbol

namespace Scope

open Meeting

/-- **The meaning of a copy between scopes, path by path.** Let the `meetings` of `dst` and `src` be
`Untangled`: every scope that takes part copies by matching names, no object of the target takes
part, and no target keeps its value where another or a source does.  Then the copy succeeds exactly
if at every common path the target `Accepts` the value of the source.  It gets past the targets in
their order up to the first that does not (`Reaches`): those before have taken over, those from
there on are what they were, the error is the `refusal?` of the first that fails, and nothing else
has changed.  If none fails, it gets past all. -/
theorem copyFrom_meets (dst src : Scope) (w : Surroundings)
    (hu : Untangled ((Symbol.ofScope dst).meetings (.ofScope src))) :
    let ms := (Symbol.ofScope dst).meetings (.ofScope src)
    let out := (dst.copyFrom src).run w
    (out.1.error? = none ↔ ∀ m ∈ ms, m.Accepts w.store) ∧
    (∃ done left, ms = done ++ left ∧ Reaches w.store out.2.store done left
      ((Symbol.ofScope out.1.value).nodes .root) out.1.error?) ∧
    out.2.destroyed = w.destroyed := by
  intro ms out
  rw [Symbol.meetings_eq_facing] at hu
  obtain ⟨done, left, hms, hreaches⟩ : Fares ms w.store out.2.store
      ((Symbol.ofScope out.1.value).nodes .root) out.1.error? :=
    Symbol.scope_fares (fun c _ => c.copyFrom_fares) dst.info dst.policy (.ofScope src) rfl .root w
      hu
  refine ⟨⟨fun hok => ?_, fun haccepts => ?_⟩, ⟨done, left, hms, hreaches⟩, ?_⟩
  · obtain rfl := hreaches.all hok
    rw [hms, List.append_nil]
    exact hreaches.accepted
  · cases herror : out.1.error? with
    | none => rfl
    | some e =>
      obtain ⟨m, rest, rfl, hm⟩ := hreaches.first e herror
      have hnone := Meeting.refusal?_eq_none.2 (haccepts m (by simp [hms]))
      cases hnone.symm.trans hm
  · exact (copyWith_overwrites dst src
      (Symbol.copyChildren_of_scope_overwrites dst.children src) w).2.destroyed

/-- A flag `a`, and a count in a cell one scope further down. -/
def flagAndCount : Scope where
  info := ⟨"dst", "", none⟩
  children := [.scalar ⟨⟨"a", "", none⟩, .value (.bool false)⟩,
    .branch .scope ⟨"b", "", none⟩ .matchingNames [.scalar ⟨⟨"n", "", none⟩, .linked (.cell ⟨0⟩)⟩]]

/-- A count and a flag for `flagAndCount`, in the other order, and the scalar `c` besides. -/
def countAndFlag : Scope where
  info := ⟨"src", "", none⟩
  children := [.branch .scope ⟨"b", "", none⟩ .matchingNames
      [.scalar ⟨⟨"n", "", none⟩, .value (.string "7")⟩],
    .scalar ⟨⟨"c", "", none⟩, .value (.bool false)⟩,
    .scalar ⟨⟨"a", "", none⟩, .value (.bool true)⟩]

theorem copyFrom_meets_count_and_flag :
    let w : Surroundings := { store := { cells := #[⟨.int .int32, .zero, false⟩] } }
    let out := (flagAndCount.copyFrom countAndFlag).run w
    Untangled ((Symbol.ofScope flagAndCount).meetings (.ofScope countAndFlag)) ∧
      out.1.error? = none ∧
        out.2.store.cells = #[⟨.int .int32, ⟨7, by decide, by decide⟩, false⟩] := by
  intro w out
  have hms : (Symbol.ofScope flagAndCount).meetings (.ofScope countAndFlag) =
      [⟨.root, .branch .scope flagAndCount.info .matchingNames [], some (.ofScope countAndFlag)⟩,
        ⟨⟨["a"]⟩, .scalar ⟨⟨"a", "", none⟩, .value (.bool false)⟩,
          some (.scalar ⟨⟨"a", "", none⟩, .value (.bool true)⟩)⟩,
        ⟨⟨["b"]⟩, .branch .scope ⟨"b", "", none⟩ .matchingNames [],
          some (.branch .scope ⟨"b", "", none⟩ .matchingNames
            [.scalar ⟨⟨"n", "", none⟩, .value (.string "7")⟩])⟩,
        ⟨⟨["b", "n"]⟩, .scalar ⟨⟨"n", "", none⟩, .linked (.cell ⟨0⟩)⟩,
          some (.scalar ⟨⟨"n", "", none⟩, .value (.string "7")⟩)⟩] := rfl
  have hu : Untangled ((Symbol.ofScope flagAndCount).meetings (.ofScope countAndFlag)) := by
    rw [hms]
    constructor
    · simp [Symbol.object?]
    · simp [Symbol.policy?, flagAndCount]
    · decide
    · decide
  obtain ⟨hok, -, -⟩ := copyFrom_meets flagAndCount countAndFlag w hu
  refine ⟨hu, hok.2 fun m hm => Meeting.refusal?_eq_none.1 ?_, by decide +kernel⟩
  · rw [hms] at hm
    simp only [List.mem_cons, List.not_mem_nil, or_false] at hm
    obtain rfl | rfl | rfl | rfl := hm <;> decide +kernel

/-- A number of type `single` in a cell. -/
def narrowNumber : Scope where
  info := ⟨"dst", "", none⟩
  children := [.scalar ⟨⟨"x", "", none⟩, .linked (.cell ⟨0⟩)⟩]

/-- A tenth, as far as eight bytes can tell. -/
def tenth : Value := .double ⟨false, 0x3fb999999999999a, by decide⟩

/-- The value `tenth` for the scope `narrowNumber`. -/
def tenthScope : Scope where
  info := ⟨"src", "", none⟩
  children := [.scalar ⟨⟨"x", "", none⟩, .value tenth⟩]

/-- A copy that succeeds need not leave the value of the source converted to the kind of the target:
in `narrowNumber`, storage of type `single` holds the number nearest to `tenth`. -/
theorem copyFrom_rounds :
    let w : Surroundings := { store := { cells := #[⟨.single, .zero, false⟩] } }
    let x : Scalar := ⟨⟨"x", "", none⟩, .linked (.cell ⟨0⟩)⟩
    let out := (narrowNumber.copyFrom tenthScope).run w
    Untangled ((Symbol.ofScope narrowNumber).meetings (.ofScope tenthScope)) ∧
      out.1.error? = none ∧ tenth.convert (x.kind w.store) = some tenth ∧
      (Symbol.ofScope out.1.value).descend? ["x"] = some (.scalar x) ∧
      x.peek out.2.store = .ok (.double ⟨false, 0x3fb99999a0000000, by decide⟩) ∧
      x.peek out.2.store ≠ .ok tenth := by
  intro w x out
  have hms : (Symbol.ofScope narrowNumber).meetings (.ofScope tenthScope) =
      [⟨.root, .branch .scope narrowNumber.info .matchingNames [], some (.ofScope tenthScope)⟩,
        ⟨⟨["x"]⟩, .scalar x, some (.scalar ⟨⟨"x", "", none⟩, .value tenth⟩)⟩] := rfl
  have hshown : x.peek out.2.store = .ok (.double ⟨false, 0x3fb99999a0000000, by decide⟩) := by
    decide +kernel
  refine ⟨?_, by decide +kernel, by decide +kernel, rfl, hshown, by rw [hshown]; decide⟩
  rw [hms]
  constructor
  · simp [Symbol.object?, x]
  · simp [Symbol.policy?, narrowNumber, x]
  · decide
  · decide

end Scope

end ConfigTree
