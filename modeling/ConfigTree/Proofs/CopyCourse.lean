import ConfigTree.Proofs.TreeNodes
import ConfigTree.Proofs.CopyWrites
import ConfigTree.Proofs.Shape

/-!
# The course of a copy

A copy reads and writes in turns, and what it reads may be what it has just written.  All the same
its course is settled in advance: which values are written, where the copy stops and with what error
depend on the source, and of the target on its shape and on the types and locks behind it only,
never on the values that are there.  `Course` is such a course, and `Scripted` says of an effect
that it has one, whatever the values of what it works on.

Main results:
  * `Scope.copyWith_scripted`, `ObjectBinding.copyWith_scripted` — one branch, given its children;
  * `Symbol.copyFrom_scripted` — every copy takes a course that its source settles.
-/

namespace ConfigTree

/-! ## §1. Courses. -/

/-- The course of an effect that may stop on the way. -/
structure Course (α : Type) where
  /-- What becomes of the `α` that it works on. -/
  change : α → α
  /-- The `Script` of what is written to the store. -/
  writes : Script
  /-- Why it stops, if it does. -/
  error? : Option SymbolError

namespace Course

variable {α β : Type}

/-- The effect `e` on `y` takes the course `c` from the surroundings `u`. -/
structure Taken (c : Course α) (y : α) (e : Effect (Attempt α)) (u : Surroundings) : Prop where
  /-- What is left, `c.change y`, and how it ends. -/
  attempt : (e.run u).1 = ⟨c.change y, c.error?⟩
  /-- What `c.writes` makes of the store. -/
  store : (e.run u).2.store = c.writes.apply u.store
  /-- Nothing was added to `destroyed`. -/
  destroyed : (e.run u).2.destroyed = u.destroyed

/-- Nothing is changed or written, and the end is `error?`. -/
def idle (error? : Option SymbolError) : Course α := ⟨id, [], error?⟩

variable {c : Course α} {y : α} {e : Effect (Attempt α)} {u u' : Surroundings}

/-- Effects `e` and `e'` that end alike take the same course; events before them are no part of
it. -/
theorem Taken.of_run {e' : Effect (Attempt α)} (h : c.Taken y e' u') (hrun : e.run u = e'.run u')
    (hstore : u'.store = u.store) (hdestroyed : u'.destroyed = u.destroyed) : c.Taken y e u := by
  refine ⟨?_, ?_, ?_⟩
  · rw [hrun, h.attempt]
  · rw [hrun, h.store, hstore]
  · rw [hrun, h.destroyed, hdestroyed]

/-- An effect that only reports an error takes the course `idle`. -/
theorem taken_idle {error? : Option SymbolError} (u' : Surroundings)
    (h : e.run u = (⟨y, error?⟩, u')) (hstore : u'.store = u.store)
    (hdestroyed : u'.destroyed = u.destroyed) :
    (idle error?).Taken y e u := by
  refine ⟨?_, ?_, ?_⟩ <;> rw [h]
  · rfl
  · exact hstore
  · exact hdestroyed

end Course

/-- What the effect does to all that are `Like` something is settled by the content of the `objects`
and `cells`: there is a course that is `Taken`, and taking it again changes nothing more. -/
def Scripted {α : Type} (Like : α → Prop) (e : α → Effect (Attempt α)) (objects : List ObjectId)
    (cells : List CellId) : Prop :=
  ∀ s : Store, ∃ c : Course α, (∀ y, c.change (c.change y) = c.change y) ∧
    ∀ y u, Like y → s.Agree objects cells u.store → c.Taken y (e y) u

namespace Symbol

/-! ## §2. What is like a symbol up to values. -/

variable {role : Role} {info : Info} {policy : CopyPolicy} {cs : List Symbol} {y : Symbol}

theorem eq_scalar_of_blank {x : Scalar} (h : y.blank = (scalar x).blank) :
    ∃ y', y = scalar y' ∧ y'.info = x.info ∧ y'.storage.blank = x.storage.blank := by
  cases y with
  | scalar y' =>
    obtain ⟨hinfo, hstorage⟩ := Scalar.mk.inj (Symbol.scalar.inj h)
    exact ⟨y', rfl, hinfo, hstorage⟩
  | function f => cases h
  | branch => cases h

theorem eq_function_of_blank {f : Function} (h : y.blank = (function f).blank) :
    ∃ g, y = function g ∧ g.info = f.info := by
  cases y with
  | function g =>
    obtain ⟨hinfo, -⟩ := Function.mk.inj (Symbol.function.inj h)
    exact ⟨g, rfl, hinfo⟩
  | scalar s => cases h
  | branch => cases h

theorem eq_branch_of_blank (h : y.blank = (branch role info policy cs).blank) :
    ∃ ds, y = branch role info policy ds ∧ blankAll ds = blankAll cs := by
  cases y with
  | branch role' info' policy' ds =>
    obtain ⟨rfl, rfl, rfl, hds⟩ := Symbol.branch.inj h
    exact ⟨ds, rfl, hds⟩
  | scalar s => cases h
  | function f => cases h

/-- The check `shapeMismatch?` looks at names only, so `blank` makes no difference to it. -/
theorem shapeMismatch?_blank (x src : Symbol) :
    x.blank.shapeMismatch? src = x.shapeMismatch? src := by
  induction x generalizing src with
  | scalar s => rfl
  | function f => rfl
  | branch role info policy cs ih =>
    have hnames : (Scope.mk info policy (blankAll cs)).names = (Scope.mk info policy cs).names :=
      childNames_blank (branch role info policy cs)
    have hchildren (s : Scope) : shapeMismatchAll? (blankAll cs) s = shapeMismatchAll? cs s := by
      clear hnames
      induction cs with
      | nil => rfl
      | cons c cs ihcs =>
        rw [blankAll, shapeMismatchAll?, shapeMismatchAll?, name, info_blank,
          ihcs fun d hd => ih d (List.mem_cons_of_mem _ hd)]
        congr 2
        funext y
        exact ih c List.mem_cons_self y
    rw [blank, shapeMismatch?, shapeMismatch?]
    congr 1
    funext s
    have hmissing : (Scope.mk info policy (blankAll cs)).difference? s =
        (Scope.mk info policy cs).difference? s := by
      rw [Scope.difference?_eq, Scope.difference?_eq, hnames]
    dsimp only
    rw [hmissing, hchildren s]
    rfl

end Symbol

/-- So does `shapeMismatch?` between scopes, whose children are `cs` and `ds`. -/
theorem Scope.shapeMismatch?_of_blank {info : Info} {policy : CopyPolicy} {cs ds : List Symbol}
    (h : Symbol.blankAll ds = Symbol.blankAll cs) (src : Scope) :
    (Scope.mk info policy ds).shapeMismatch? src = (Scope.mk info policy cs).shapeMismatch? src := by
  have hblank : (Symbol.branch .scope info policy ds).blank =
      (Symbol.branch .scope info policy cs).blank := congrArg (Symbol.branch .scope info policy) h
  have hsymbols := Symbol.shapeMismatch?_blank (.branch .scope info policy ds) (.ofScope src)
  rw [hblank, Symbol.shapeMismatch?_blank] at hsymbols
  exact hsymbols.symm

/-! ## §3. Leaves. -/

namespace Scalar

variable {y : Scalar} {v : Value} {u : Surroundings}

/-- A write to `y` that is refused with `e` leaves everything: its course is `idle`. -/
theorem taken_of_write_error {e : SymbolError} (h : y.write u.store v = .error e) :
    Course.Taken (.idle (some e)) (Symbol.scalar y) ((·.map .scalar) <$> y.set v) u := by
  have hrun : (y.set v).run u = (⟨y, some e⟩, u.emit (.reported e)) := by rw [run_set, h]
  refine Course.taken_idle (u.emit (.reported e)) ?_ rfl rfl
  rw [Effect.run_map, hrun]
  rfl

/-- A write that is accepted, and makes `y'` of `y`. -/
theorem taken_of_write {c : Course Symbol} {y' : Scalar} {s : Store}
    (h : y.write u.store v = .ok (y', s)) (hchange : c.change (.scalar y) = .scalar y')
    (hwrites : c.writes.apply u.store = s) (herror : c.error? = none) :
    c.Taken (.scalar y) ((·.map .scalar) <$> y.set v) u := by
  have hrun : (y.set v).run u = (⟨y', none⟩, u.withStore s) := by rw [run_set, h]
  constructor <;> rw [Effect.run_map, hrun]
  · rw [hchange, herror]
    rfl
  · exact hwrites.symm
  · rfl

/-- A write to the scalar `x` is settled by the value `v`. -/
theorem set_course (x : Scalar) (v : Value) (s : Store) :
    ∃ c : Course Symbol, (∀ z, c.change (c.change z) = c.change z) ∧
      ∀ (y : Scalar) u, y.info = x.info → y.storage.blank = x.storage.blank →
        s.Agree [] [] u.store → c.Taken (.scalar y) ((·.map .scalar) <$> y.set v) u := by
  obtain ⟨info, current | l⟩ := x
  · -- a scalar that holds its own value takes the new one in place of any of the kind
    have hlike {y : Scalar} (hinfo : y.info = info)
        (hblank : y.storage.blank = (Storage.value current).blank) :
        ∃ old, y = ⟨info, .value old⟩ ∧ old.kind = current.kind := by
      obtain ⟨_, old | _⟩ := y
      · refine ⟨old, by rw [← hinfo], ?_⟩
        rw [← Symbol.kind_blank old.kind, Storage.value.inj hblank, Symbol.kind_blank]
      · cases hblank
    cases hconvert : v.convert current.kind with
    | none =>
      refine ⟨.idle (some (.conversion info.label v.display current.kind)), fun _ => rfl, ?_⟩
      intro y u hinfo hblank _
      obtain ⟨old, rfl, hkind⟩ := hlike hinfo hblank
      refine taken_of_write_error ?_
      simp only [write, hkind, hconvert]
    | some new =>
      refine ⟨⟨fun _ => .scalar ⟨info, .value new⟩, [], none⟩, fun _ => rfl, ?_⟩
      intro y u hinfo hblank _
      obtain ⟨old, rfl, hkind⟩ := hlike hinfo hblank
      refine taken_of_write (s := u.store) ?_ rfl rfl rfl
      simp only [write, hkind, hconvert]
  · have hlike {y : Scalar} (hinfo : y.info = info)
        (hblank : y.storage.blank = (Storage.linked l).blank) : y = ⟨info, .linked l⟩ := by
      obtain ⟨_, _ | _⟩ := y
      · cases hblank
      · cases hinfo
        cases hblank
        rfl
    -- whether the write is refused does not depend on what is at the target
    cases hwrite : l.write s v with
    | error e =>
      refine ⟨.idle (some (writeError ⟨info, .linked l⟩ e)), fun _ => rfl, ?_⟩
      intro y u hinfo hblank hagree
      obtain rfl := hlike hinfo hblank
      obtain ⟨⟨s', hs'⟩, -⟩ | ⟨e', hs', hu'⟩ := l.write_of_face hagree.face hagree.cellFace v
      · cases hwrite.symm.trans hs'
      · cases hwrite.symm.trans hs'
        refine taken_of_write_error ?_
        simp only [write, hu']
    | ok s' =>
      refine ⟨⟨id, [.value l v], none⟩, fun _ => rfl, ?_⟩
      intro y u hinfo hblank hagree
      obtain rfl := hlike hinfo hblank
      obtain ⟨-, u', hu'⟩ | ⟨e', hs', -⟩ := l.write_of_face hagree.face hagree.cellFace v
      · refine taken_of_write (s := u') ?_ rfl ?_ rfl
        · simp only [write, hu']
        · show Write.apply u.store (.value l v) = u'
          rw [Write.apply, hu']
      · cases hwrite.symm.trans hs'

end Scalar

namespace Symbol

/-- The copies into `x` are `Scripted` by their source, whatever the values of `x`. -/
def CopiesScripted (x : Symbol) : Prop :=
  ∀ src : Symbol, Scripted (fun y : Symbol => y.blank = x.blank) (fun y => y.copyFrom src)
    src.objects src.cells

/-- The steps of a copy from the scalar `z` into the scalar `x`: the source is read before anything
is written. -/
theorem run_copyFrom_scalar (x z : Scalar) (w : Surroundings) :
    let w₀ := w.emit (.copying x.info.label z.info.label)
    ((scalar x).copyFrom (scalar z)).run w = match z.peek w.store with
      | .ok v => ((·.map Symbol.scalar) <$> x.set v).run w₀
      | .error e => (⟨scalar x, some e⟩, w₀.emit (.reported e)) := by
  intro w₀
  have hvalue := z.run_value w₀
  rw [copyFrom, Effect.run_bind]
  show ((·.map Symbol.scalar) <$> x.copyFrom (scalar z)).run w₀ = _
  rw [Effect.run_map, Scalar.copyFrom, Effect.run_bind, hvalue, show w₀.store = w.store from rfl]
  cases z.peek w.store <;> rfl

/-- A copy from `src`, which is no scalar, into the scalar `x`. -/
theorem run_copyFrom_not_scalar (x : Scalar) {src : Symbol} (h : ∀ z, src ≠ scalar z)
    (w : Surroundings) :
    let e : SymbolError := .typeMismatch x.info.label src.info.label Kind.scalar.article
    ((scalar x).copyFrom src).run w =
      (⟨scalar x, some e⟩, (w.emit (.copying x.info.label src.info.label)).emit (.reported e)) := by
  intro e
  rw [copyFrom, Scalar.copyFrom.eq_def]
  cases src with
  | scalar z => exact absurd rfl (h z)
  | _ => rfl

/-- A copy from the function `g` into the function `f`. -/
theorem run_copyFrom_function (f g : Function) (w : Surroundings) :
    ((function f).copyFrom (function g)).run w =
      (⟨function { f with callable := g.callable, arity? := g.arity? }, none⟩,
        w.emit (.copying f.info.label g.info.label)) := by
  rw [copyFrom]
  rfl

/-- A copy from `src`, which is no function, into the function `f`. -/
theorem run_copyFrom_not_function (f : Function) {src : Symbol} (h : ∀ g, src ≠ function g)
    (w : Surroundings) :
    let e : SymbolError := .typeMismatch f.info.label src.info.label Kind.function.article
    ((function f).copyFrom src).run w =
      (⟨function f, some e⟩, (w.emit (.copying f.info.label src.info.label)).emit (.reported e)) := by
  intro e
  rw [copyFrom, Function.copyFrom.eq_def]
  cases src with
  | function g => exact absurd rfl (h g)
  | _ => rfl

/-- **A copy into a scalar is settled by its source**: a scalar `CopiesScripted`. -/
theorem scalar_scripted (x : Scalar) : (scalar x).CopiesScripted := by
  intro src s
  by_cases hsrc : ∃ z, src = scalar z
  · obtain ⟨z, rfl⟩ := hsrc
    have hread (u : Surroundings) (h : s.Agree (scalar z).objects (scalar z).cells u.store) :
        z.peek u.store = z.peek s := Scalar.peek_of_agree h
    cases hpeek : z.peek s with
    | error e =>
      refine ⟨.idle (some e), fun _ => rfl, fun y u hy hagree => ?_⟩
      obtain ⟨y, rfl, -, -⟩ := eq_scalar_of_blank hy
      have hrun := run_copyFrom_scalar y z u
      rw [hread u hagree, hpeek] at hrun
      exact Course.taken_idle _ hrun rfl rfl
    | ok v =>
      obtain ⟨c, hsettled, hc⟩ := x.set_course v s
      refine ⟨c, hsettled, fun y u hy hagree => ?_⟩
      obtain ⟨y, rfl, hinfo, hblank⟩ := eq_scalar_of_blank hy
      have hrun := run_copyFrom_scalar y z u
      rw [hread u hagree, hpeek] at hrun
      have hagree' := hagree.mono (List.nil_subset _) (List.nil_subset _)
      exact (hc y (u.emit (.copying y.info.label z.info.label)) hinfo hblank hagree').of_run hrun
        rfl rfl
  · refine ⟨.idle (some (.typeMismatch x.info.label src.info.label Kind.scalar.article)),
      fun _ => rfl, fun y u hy _ => ?_⟩
    obtain ⟨y, rfl, hinfo, -⟩ := eq_scalar_of_blank hy
    have hrun := run_copyFrom_not_scalar y (fun z hz => hsrc ⟨z, hz⟩) u
    rw [hinfo] at hrun
    exact Course.taken_idle _ hrun rfl rfl

/-- **A copy into a function is settled by its source**: a function `CopiesScripted`. -/
theorem function_scripted (f : Function) : (function f).CopiesScripted := by
  intro src s
  by_cases hsrc : ∃ g, src = function g
  · obtain ⟨g, rfl⟩ := hsrc
    refine ⟨⟨fun _ => function { f with callable := g.callable, arity? := g.arity? }, [], none⟩,
      fun _ => rfl, fun y u hy _ => ?_⟩
    obtain ⟨y, rfl, hinfo⟩ := eq_function_of_blank hy
    have hrun := run_copyFrom_function y g u
    rw [hinfo] at hrun
    refine ⟨?_, ?_, ?_⟩ <;> dsimp only <;> rw [hrun]
    · rfl
    · rfl
  · refine ⟨.idle (some (.typeMismatch f.info.label src.info.label Kind.function.article)),
      fun _ => rfl, fun y u hy _ => ?_⟩
    obtain ⟨y, rfl, hinfo⟩ := eq_function_of_blank hy
    have hrun := run_copyFrom_not_function y (fun g hg => hsrc ⟨g, hg⟩) u
    rw [hinfo] at hrun
    exact Course.taken_idle _ hrun rfl rfl

end Symbol

/-! ## §4. Branches. -/

/-- The course `first` of one symbol and then the course `rest` of those that follow. -/
def Course.cons (first : Course Symbol) (rest : Course (List Symbol)) : Course (List Symbol) where
  change
    | [] => []
    | d :: ds => first.change d :: rest.change ds
  writes := first.writes ++ rest.writes
  error? := rest.error?

/-- A course made by `cons` changes nothing more when it is taken again, if neither of its parts
does. -/
theorem Course.settled_cons {first : Course Symbol} {rest : Course (List Symbol)}
    (hfirst : ∀ y, first.change (first.change y) = first.change y)
    (hrest : ∀ ys, rest.change (rest.change ys) = rest.change ys) (ys : List Symbol) :
    (first.cons rest).change ((first.cons rest).change ys) = (first.cons rest).change ys := by
  cases ys with
  | nil => rfl
  | cons d ds => exact congrArg₂ List.cons (hfirst d) (hrest ds)

variable {objects : List ObjectId} {cells : List CellId} {cs : List Symbol}

namespace Symbol

/-- A child `c` without a counterpart is passed over. -/
theorem run_copyChildren_of_none {c : Symbol} {src : Scope} (h : src.lookup? c.name = none)
    (cs : List Symbol) (w : Surroundings) :
    (copyChildren (c :: cs) src).run w =
      (((copyChildren cs src).run w).1.map (c :: ·), ((copyChildren cs src).run w).2) := by
  rw [copyChildren, h]
  rfl

/-- A child `c` with the counterpart `z` is copied, and those that follow it are unless it fails. -/
theorem run_copyChildren_of_some {c z : Symbol} {src : Scope} (h : src.lookup? c.name = some z)
    (cs : List Symbol) (w : Surroundings) :
    (copyChildren (c :: cs) src).run w = match (c.copyFrom z).run w with
      | (⟨value, some e⟩, w₁) => (⟨value :: cs, some e⟩, w₁)
      | (⟨value, none⟩, w₁) => (((copyChildren cs src).run w₁).1.map (value :: ·),
          ((copyChildren cs src).run w₁).2) := by
  rw [copyChildren, h]
  dsimp only
  rw [Effect.run_bind]
  generalize (c.copyFrom z).run w = copied
  obtain ⟨⟨value, _ | e⟩, w₁⟩ := copied <;> rfl

/-- A copy from what holds symbols, the scope `from_`, into a scope. -/
theorem run_copyFrom_scope (info : Info) (policy : CopyPolicy) (cs : List Symbol) {src : Symbol}
    {from_ : Scope} (h : src.scope? = some from_) (w : Surroundings) :
    ((branch .scope info policy cs).copyFrom src).run w =
      ((·.map (branch .scope info policy)) <$>
        Scope.copyWith ⟨info, policy, cs⟩ from_ (copyChildren cs from_)).run
          (w.emit (.copying info.label src.info.label)) := by
  rw [copyFrom, Effect.run_bind, h]
  rfl

/-- A copy from a leaf `src` into a scope. -/
theorem run_copyFrom_not_scope (info : Info) (policy : CopyPolicy) (cs : List Symbol) {src : Symbol}
    (h : src.scope? = none) (w : Surroundings) :
    let e : SymbolError := .typeMismatch info.label src.info.label Kind.scope.article
    ((branch .scope info policy cs).copyFrom src).run w = (⟨branch .scope info policy cs, some e⟩,
      (w.emit (.copying info.label src.info.label)).emit (.reported e)) := by
  intro e
  rw [copyFrom, Effect.run_bind, h]
  rfl

section

variable {first : Course Symbol} {rest : Course (List Symbol)} {d x : Symbol} {ds : List Symbol}
  {src : Scope} {u : Surroundings}

/-- The course of children of which the first, `d`, is passed over. -/
theorem taken_passed (hx : src.lookup? d.name = none) (h : rest.Taken ds (copyChildren ds src) u) :
    ((Course.idle none).cons rest).Taken (d :: ds) (copyChildren (d :: ds) src) u := by
  have hrun := run_copyChildren_of_none hx ds u
  refine ⟨?_, ?_, ?_⟩ <;> rw [hrun]
  · rw [h.attempt]
    rfl
  · exact h.store
  · exact h.destroyed

/-- The course of children of which the first, `d`, fails with `e`: those that follow are left as
they are. -/
theorem taken_stopped {e : SymbolError} (hx : src.lookup? d.name = some x)
    (h : first.Taken d (d.copyFrom x) u) (he : first.error? = some e) :
    (first.cons (.idle (some e))).Taken (d :: ds) (copyChildren (d :: ds) src) u := by
  obtain ⟨hattempt, hstore, hdestroyed⟩ := h
  have hrun := run_copyChildren_of_some hx ds u
  rw [he] at hattempt
  generalize (d.copyFrom x).run u = copied at hattempt hstore hdestroyed hrun
  obtain ⟨_, u₁⟩ := copied
  cases hattempt
  refine ⟨?_, ?_, ?_⟩ <;> rw [hrun]
  · rfl
  · rw [Course.cons, Course.idle, List.append_nil]
    exact hstore
  · exact hdestroyed

/-- The course of children of which the first, `d`, is copied. -/
theorem taken_cons (hx : src.lookup? d.name = some x) (h : first.Taken d (d.copyFrom x) u)
    (he : first.error? = none)
    (hrest : rest.Taken ds (copyChildren ds src) ((d.copyFrom x).run u).2) :
    (first.cons rest).Taken (d :: ds) (copyChildren (d :: ds) src) u := by
  obtain ⟨hattempt, hstore, hdestroyed⟩ := h
  have hrun := run_copyChildren_of_some hx ds u
  rw [he] at hattempt
  generalize (d.copyFrom x).run u = copied at hattempt hstore hdestroyed hrun hrest
  obtain ⟨_, u₁⟩ := copied
  cases hattempt
  refine ⟨?_, ?_, ?_⟩ <;> rw [hrun] <;> dsimp only
  · rw [hrest.attempt]
    rfl
  · rw [hrest.store, Course.cons, Script.apply_append]
    exact congrArg rest.writes.apply hstore
  · exact hrest.destroyed.trans hdestroyed

end

/-- **Copies into many symbols are `Scripted` by their sources.** Each starts where those before it
have left the store, which is the same wherever the sources are. -/
theorem copyChildren_scripted (h : ∀ c ∈ cs, c.CopiesScripted) (src : Scope)
    (hobjects : objectsAll src.children ⊆ objects) (hcells : cellsAll src.children ⊆ cells) :
    Scripted (fun ds => blankAll ds = blankAll cs) (fun ds => copyChildren ds src) objects
      cells := by
  induction cs with
  | nil =>
    refine fun s => ⟨.idle none, fun _ => rfl, fun ds u hds _ => ?_⟩
    cases ds with
    | nil => exact ⟨rfl, rfl, rfl⟩
    | cons d ds => cases hds
  | cons c cs ih =>
    intro s
    have hlike {ds : List Symbol} (hds : blankAll ds = blankAll (c :: cs)) :
        ∃ d ds', ds = d :: ds' ∧ d.blank = c.blank ∧ blankAll ds' = blankAll cs := by
      cases ds with
      | nil => cases hds
      | cons d ds =>
        obtain ⟨hd, hrest⟩ := List.cons.inj hds
        exact ⟨d, ds, rfl, hd, hrest⟩
    have hlookup {d : Symbol} (hd : d.blank = c.blank) : src.lookup? d.name = src.lookup? c.name :=
      congrArg src.lookup? (name_of_blank hd)
    have hrest := ih fun d hd => h d (List.mem_cons_of_mem _ hd)
    cases hx : src.lookup? c.name with
    | none =>
      obtain ⟨rest, hsettled, hk⟩ := hrest s
      refine ⟨(Course.idle none).cons rest, Course.settled_cons (fun _ => rfl) hsettled, ?_⟩
      intro ds u hds hagree
      obtain ⟨d, ds, rfl, hd, hds⟩ := hlike hds
      exact taken_passed ((hlookup hd).trans hx) (hk ds u hds hagree)
    | some x =>
      have hmem : x ∈ src.children := List.mem_of_find?_eq_some hx
      have hxo : x.objects ⊆ objects := fun id hid => hobjects (by
        rw [objectsAll_eq_flatMap]
        exact List.mem_flatMap.2 ⟨x, hmem, hid⟩)
      have hxc : x.cells ⊆ cells := fun id hid => hcells (by
        rw [cellsAll_eq_flatMap]
        exact List.mem_flatMap.2 ⟨x, hmem, hid⟩)
      obtain ⟨first, hfirst, hf⟩ := h c List.mem_cons_self x s
      cases herror : first.error? with
      | some e =>
        refine ⟨first.cons (.idle (some e)), Course.settled_cons hfirst fun _ => rfl, ?_⟩
        intro ds u hds hagree
        obtain ⟨d, ds, rfl, hd, hds⟩ := hlike hds
        exact taken_stopped ((hlookup hd).trans hx) (hf d u hd (hagree.mono hxo hxc)) herror
      | none =>
        obtain ⟨rest, hsettled, hk⟩ := hrest (first.writes.apply s)
        refine ⟨first.cons rest, Course.settled_cons hfirst hsettled, ?_⟩
        intro ds u hds hagree
        obtain ⟨d, ds, rfl, hd, hds⟩ := hlike hds
        have htaken : first.Taken d (d.copyFrom x) u := hf d u hd (hagree.mono hxo hxc)
        -- the others start where the first has left the store
        have hagree₁ : (first.writes.apply s).Agree objects cells
            ((d.copyFrom x).run u).2.store := by
          rw [htaken.store]
          exact hagree.apply first.writes
        exact taken_cons ((hlookup hd).trans hx) htaken herror (hk ds _ hds hagree₁)

end Symbol

/-- What a scope copies by `copyWith` is `Scripted` by its source if what its children copy is. -/
theorem Scope.copyWith_scripted (info : Info) (policy : CopyPolicy) (src : Scope)
    {e : List Symbol → Effect (Attempt (List Symbol))}
    (he : Scripted (fun ds => Symbol.blankAll ds = Symbol.blankAll cs) e objects cells) :
    Scripted (fun ds => Symbol.blankAll ds = Symbol.blankAll cs)
      (fun ds => (Scope.mk info policy ds).copyWith src (e ds)) objects cells := by
  intro s
  have hcheck {ds : List Symbol} (hds : Symbol.blankAll ds = Symbol.blankAll cs) :
      (if policy = .sameShape then (Scope.mk info policy ds).shapeMismatch? src else none) =
        if policy = .sameShape then (Scope.mk info policy cs).shapeMismatch? src else none := by
    rw [shapeMismatch?_of_blank hds]
  cases hmismatch :
      if policy = .sameShape then (Scope.mk info policy cs).shapeMismatch? src else none with
  | some error =>
    refine ⟨.idle (some error), fun _ => rfl, fun ds u hds _ => ?_⟩
    refine Course.taken_idle (u.emit (.reported error)) ?_ rfl rfl
    dsimp only
    rw [copyWith, hcheck hds, hmismatch]
    rfl
  | none =>
    obtain ⟨c, hsettled, hc⟩ := he s
    refine ⟨c, hsettled, fun ds u hds hagree => ?_⟩
    let u₀ := u.emit (.copyingScope info.label src.info.label policy)
    refine (hc ds u₀ hds hagree).of_run ?_ rfl rfl
    dsimp only
    rw [copyWith, hcheck hds, hmismatch]
    rfl

/-- Whether an object takes over another by `copyAs?` is seen from their types. -/
theorem Native.isSome_copyAs?_of_type {t : Descriptor} {a a' : Native} (h : a'.type = a.type)
    (b : Native) : (copyAs? t a' b).isSome = (copyAs? t a b).isSome := by
  unfold copyAs?
  cases t.strategy? with
  | none => exact isSome_copyWith?_of_type h b
  | some strategy => exact isSome_copyWith?_of_type h b

namespace ObjectBinding

/-- Why a copy into an object symbol fails, its `obstacle?`, is seen from the types and locks of
both sides, by `face?`. -/
theorem obstacle?_of_face {s u : Store} (h : ∀ id, u.face? id = s.face? id) (o : ObjectBinding)
    (src : Symbol) : o.obstacle? src u = o.obstacle? src s := by
  have hdescribe (o : ObjectBinding) : o.describe u = o.describe s := by
    unfold describe
    cases o.handle? with
    | none => rfl
    | some handle => exact Store.describe_of_face h handle.id
  have hbound (o : ObjectBinding) : o.isBound u = o.isBound s := by
    rw [isBound, Store.live?_of_face h, isBound]
  simp only [obstacle?, hdescribe, hbound]

/-- **A native copy by `copyObject` is settled by its source**: the target is refused or written
because of its type. -/
theorem copyObject_course (dst src : ObjectBinding) (t : Descriptor) {d h : Handle} {s : Store}
    {a b : Native} (hd : dst.live? s = some d) (ha : s.read d.id = .ok a) (hb : s.read h.id = .ok b)
    (hh : h.id ∈ objects) (cells : List CellId) : ∃ (L : Script) (error? : Option SymbolError),
      ∀ (o : ObjectBinding) (u : Surroundings), o.label = dst.label → o.handle? = dst.handle? →
        s.Agree objects cells u.store →
          ((o.copyObject src t h).run u).1 = error? ∧
          ((o.copyObject src t h).run u).2.store = L.apply u.store ∧
          ((o.copyObject src t h).run u).2.destroyed = u.destroyed := by
  -- what both sides are when it comes to the copy
  have hfound (o : ObjectBinding) (u : Surroundings) (hhandle : o.handle? = dst.handle?)
      (hagree : s.Agree objects cells u.store) : ∃ a', a'.type = a.type ∧
        u.store.read d.id = .ok a' ∧ (o.copyObject src t h).run u =
          if d.id = h.id then (none, u.emit (.sameObject o.label))
          else o.ended src t.strategy?.isSome d.id u (Native.copyAs? t a' b) := by
    obtain ⟨a', ha', htype⟩ :=
      Store.read_of_face? ((hagree.face d.id).trans (Store.face?_of_read ha))
    have hlive : o.live? u.store = some d := by
      rw [live?, hhandle]
      exact (Store.live?_of_face hagree.face dst).trans hd
    exact ⟨a', htype, ha', run_copyObject_of_read hlive ha' ((hagree.read hh).trans hb)⟩
  by_cases hsame : d.id = h.id
  · refine ⟨[], none, fun o u _ hhandle hagree => ?_⟩
    obtain ⟨a', -, -, hrun⟩ := hfound o u hhandle hagree
    rw [if_pos hsame] at hrun
    rw [hrun]
    exact ⟨rfl, rfl, rfl⟩
  · refine ⟨[.object t d.id b], if (Native.copyAs? t a b).isSome then none
      else some (.copyRejected dst.label src.label), fun o u hlabel hhandle hagree => ?_⟩
    obtain ⟨a', htype, ha', hrun⟩ := hfound o u hhandle hagree
    rw [if_neg hsame] at hrun
    have hwrites : Script.apply [.object t d.id b] u.store =
        ((Native.copyAs? t a' b).map (u.store.setNative d.id)).getD u.store := by
      show Store.rewrite u.store d.id (fun n => Native.copyAs? t n b) = _
      rw [Store.rewrite, ha']
    rw [hrun, hwrites, ← Native.isSome_copyAs?_of_type htype b, ← hlabel]
    cases Native.copyAs? t a' b <;> exact ⟨rfl, rfl, rfl⟩

/-- **What an object symbol copies by `copyWith` is `Scripted` by its source** if what its children
copy is. -/
theorem copyWith_scripted (info : Info) (policy : CopyPolicy) (handle? : Option Handle)
    (src : ObjectBinding) {e : List Symbol → Effect (Attempt (List Symbol))}
    (he : Scripted (fun ds => Symbol.blankAll ds = Symbol.blankAll cs) e objects cells)
    (hsrc : (Role.object src.handle?).objects ⊆ objects) :
    Scripted (fun ds => Symbol.blankAll ds = Symbol.blankAll cs)
      (fun ds => (ObjectBinding.mk ⟨info, policy, ds⟩ handle?).copyWith src (e ds)) objects
      cells := by
  intro s
  let dst (ds : List Symbol) : ObjectBinding := ⟨⟨info, policy, ds⟩, handle?⟩
  have hobject : (Symbol.ofObject src).object? = some src := rfl
  cases hobstacle : (dst cs).obstacle? (.ofObject src) s with
  | some error =>
    refine ⟨.idle (some error), fun _ => rfl, fun ds u hds hagree => ?_⟩
    have hobstacle : (dst ds).obstacle? (.ofObject src) u.store = some error :=
      (obstacle?_of_face hagree.face _ _).trans hobstacle
    refine Course.taken_idle (u.emit (.reported error)) ?_ rfl rfl
    rw [run_copyWith, run_copyParties_of_obstacle hobject hobstacle]
  | none =>
    obtain ⟨c, hsettled, hc⟩ := Scope.copyWith_scripted info policy src.scope he s
    obtain ⟨d, h, hd, hh, hfit, -⟩ := run_copyParties_of_clear (w := { store := s }) hobject hobstacle
    let t := s.describe d.id
    -- both objects can be read, and still after the children
    obtain ⟨⟨a₀, ha₀⟩, b₀, hb₀⟩ := readable_of_accepts hfit
    obtain ⟨a, ha, -⟩ := Store.read_of_face?
      ((Store.face?_script c.writes s d.id).trans (Store.face?_of_read ha₀))
    obtain ⟨b, hb, -⟩ := Store.read_of_face?
      ((Store.face?_script c.writes s h.id).trans (Store.face?_of_read hb₀))
    have hd₁ : (dst cs).live? (c.writes.apply s) = some d :=
      (Store.live?_of_face (Store.face?_script c.writes s) _).trans hd
    obtain ⟨L, error?, hL⟩ := copyObject_course (dst cs) src t hd₁ ha hb
      (hsrc (mem_objects_of_live? hh)) cells
    refine ⟨⟨c.change, c.writes ++ L, error?⟩, hsettled, fun ds u hds hagree => ?_⟩
    have hparties : ((dst ds).copyParties src).run u = (.ok (t, h), u) := by
      have hdu : (dst ds).live? u.store = some d := (Store.live?_of_face hagree.face _).trans hd
      have hhu : src.live? u.store = some h := (Store.live?_of_face hagree.face _).trans hh
      rw [run_copyParties, hdu, hhu]
      dsimp only
      rw [Store.describe_of_face hagree.face, Store.describe_of_face hagree.face, if_pos hfit]
    have hportion : c.Taken ds ((dst ds).scope.copyWith src.scope (e ds)) u := hc ds u hds hagree
    -- that the children stop on the way is recorded and changes nothing
    obtain ⟨u₂, hstore, hdestroyed, hrun⟩ : ∃ u₂ : Surroundings,
        u₂.store = c.writes.apply u.store ∧ u₂.destroyed = u.destroyed ∧
        ((dst ds).copyWith src (e ds)).run u =
          (⟨c.change ds, (((dst ds).copyObject src t h).run u₂).1⟩,
            (((dst ds).copyObject src t h).run u₂).2) := by
      obtain ⟨hattempt, hstore, hdestroyed⟩ := hportion
      rw [run_copyWith, hparties]
      dsimp only
      generalize ((dst ds).scope.copyWith src.scope (e ds)).run u = portion at *
      obtain ⟨_, u₁⟩ := portion
      cases hattempt
      refine ⟨_, ?_, ?_, rfl⟩
      · cases c.error? <;> exact hstore
      · cases c.error? <;> exact hdestroyed
    have hagree₂ : (c.writes.apply s).Agree objects cells u₂.store := by
      rw [hstore]
      exact hagree.apply c.writes
    obtain ⟨herror, hwritten, hkept⟩ := hL (dst ds) u₂ rfl rfl hagree₂
    refine ⟨?_, ?_, ?_⟩
    · rw [hrun, herror]
    · rw [hrun, hwritten, hstore, Script.apply_append]
    · rw [hrun, hkept, hdestroyed]

end ObjectBinding

/-! ## §5. Symbols. -/

namespace Symbol

/-- A course that `e` takes on the children of a branch is one of the branch. -/
theorem scripted_branch {role : Role} {info : Info} {policy : CopyPolicy}
    {e : List Symbol → Effect (Attempt (List Symbol))} {src : Symbol}
    (he : Scripted (fun ds => blankAll ds = blankAll cs) e objects cells)
    (hrun : ∀ (ds : List Symbol) (u : Surroundings),
      ((branch role info policy ds).copyFrom src).run u =
        ((·.map (branch role info policy)) <$> e ds).run
          (u.emit (.copying info.label src.info.label))) :
    Scripted (fun y : Symbol => y.blank = (branch role info policy cs).blank)
      (fun y => y.copyFrom src) objects cells := by
  intro s
  obtain ⟨c, hsettled, hc⟩ := he s
  refine ⟨⟨fun y => y.withChildren (c.change y.children), c.writes, c.error?⟩, fun y => ?_, ?_⟩
  · cases y with
    | branch role info policy ds => exact congrArg (branch role info policy) (hsettled ds)
    | _ => rfl
  · intro y u hy hagree
    obtain ⟨ds, rfl, hds⟩ := eq_branch_of_blank hy
    obtain ⟨hattempt, hstore, hdestroyed⟩ :=
      hc ds (u.emit (.copying info.label src.info.label)) hds hagree
    refine ⟨?_, ?_, ?_⟩ <;> dsimp only <;> rw [hrun, Effect.run_map]
    · rw [hattempt]
      rfl
    · exact hstore
    · exact hdestroyed

/-- **Every copy takes a course that its source settles**, whatever the values of the target: every
symbol `CopiesScripted`. -/
theorem copyFrom_scripted (x : Symbol) : x.CopiesScripted := by
  induction x with
  | scalar s => exact scalar_scripted s
  | function f => exact function_scripted f
  | branch role info policy cs ih =>
    intro src
    cases role with
    | scope =>
      cases hsrc : src.scope? with
      | none =>
        let e : SymbolError := .typeMismatch info.label src.info.label Kind.scope.article
        refine fun s => ⟨.idle (some e), fun _ => rfl, fun y u hy _ => ?_⟩
        obtain ⟨ds, rfl, -⟩ := eq_branch_of_blank hy
        exact Course.taken_idle _ (run_copyFrom_not_scope info policy ds hsrc u) rfl rfl
      | some from_ =>
        obtain ⟨role, rfl⟩ := eq_of_scope? hsrc
        exact scripted_branch (Scope.copyWith_scripted info policy from_
          (copyChildren_scripted ih from_ (List.subset_append_right _ _) (List.Subset.refl _)))
          fun ds u => run_copyFrom_scope info policy ds hsrc u
    | object handle? =>
      cases hsrc : src.object? with
      | none =>
        let e : SymbolError := .typeMismatch info.label src.info.label Kind.object.article
        refine fun s => ⟨.idle (some e), fun _ => rfl, fun y u hy _ => ?_⟩
        obtain ⟨ds, rfl, -⟩ := eq_branch_of_blank hy
        refine Course.taken_idle
          ((u.emit (.copying info.label src.info.label)).emit (.reported e)) ?_ rfl rfl
        dsimp only
        rw [copyFrom, Effect.run_bind, hsrc]
        rfl
      | some from_ =>
        obtain rfl := eq_of_object? hsrc
        refine scripted_branch (ObjectBinding.copyWith_scripted info policy handle? from_
          (copyChildren_scripted ih from_.scope (List.subset_append_right _ _)
            (List.Subset.refl _)) (List.subset_append_left _ _)) fun ds u => ?_
        rw [copyFrom, Effect.run_bind, hsrc]
        rfl

end Symbol

end ConfigTree
