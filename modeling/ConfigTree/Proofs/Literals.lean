import ConfigTree.Proofs.Assignment
import ConfigTree.Proofs.Atomicity
import ConfigTree.Proofs.CopyCourse

/-!
# Assigning a value, and assigning a symbol that holds it

A value is written where the target stands.  A symbol is assigned by taking the target out of the
tree, asking what kind of symbol it is, reading the source and writing what was read.  Both ways
lead to the same place, which `Symbol.placed` describes: the same check fails first, or the same
value is written and converted in the same way.  Only what a message calls the value is different,
as a value has no name of its own.

Main results:
  * `Symbol.assignValue_comesTo`, `Symbol.assign_comesTo` — what both ways come to;
  * `Symbol.placed_called` — it depends on the name of the value in one kind of error only;
  * `Session.assign_eq_assignValue` — the steps of a session agree.
-/

namespace ConfigTree

/-! ## §1. What messages call a value. -/

/-- The error with the name `origin` for what was assigned, if it says that its target cannot hold
that. -/
def SymbolError.called (origin : String) : SymbolError → SymbolError
  | typeMismatch target _ expected => typeMismatch target origin expected
  | e => e

/-- The failure with the name `origin` for what was assigned, by `SymbolError.called`. -/
def Failure.called (origin : String) : Failure → Failure
  | symbol e => symbol (e.called origin)
  | e => e

/-- The attempt `a` with the name `origin` for what was assigned, by `SymbolError.called`. -/
def Attempt.called {α : Type} (origin : String) (a : Attempt α) : Attempt α :=
  ⟨a.value, a.error?.map (·.called origin)⟩

/-- That a value `v` cannot be written has nothing to do with where it is from, so `called` leaves
the error as it is. -/
theorem Scalar.called_write {x : Scalar} {s : Store} {v : Value} {e : SymbolError}
    (h : x.write s v = .error e) (origin : String) : e.called origin = e := by
  unfold write at h
  split at h
  case h_1 current _ =>
    cases hconvert : v.convert current.kind with
    | some w =>
      rw [hconvert] at h
      cases h
    | none =>
      rw [hconvert] at h
      cases h
      rfl
  case h_2 l _ =>
    cases hwrite : l.write s v with
    | ok s' =>
      rw [hwrite] at h
      cases h
    | error a =>
      rw [hwrite] at h
      cases h
      cases a <;> rfl

namespace Symbol

variable {x y : Symbol} {target source : Path} {info : Info} {v : Value} {w : Surroundings}

/-! ## §2. What comes of a value. -/

/-- What comes of the value `v` in the symbol `y`, and the store after it.  Only a scalar holds one,
converted to the kind of what it held; a message calls the value `origin`. -/
def taking (y : Symbol) (s : Store) (v : Value) (origin : String) : Attempt Symbol × Store :=
  match y with
  | .scalar z => match z.write s v with
    | .ok (z', s') => (⟨.scalar z', none⟩, s')
    | .error e => (⟨.scalar z, some e⟩, s)
  | y => (⟨y, some (.typeMismatch y.info.label origin y.kind.article)⟩, s)

/-- What comes of the value `v` in the symbol at the path `target`, and the store after it, by
`taking`. -/
def placed (x : Symbol) (target : Path) (s : Store) (v : Value) (origin : String) :
    Attempt Symbol × Store :=
  match x.resolve? target with
  | none => (⟨x, some (.notFound target.display)⟩, s)
  | some y =>
    let taken := y.taking s v origin
    (taken.1.map fun y' => (x.replace? target.segments y').getD x, taken.2)

/-- The name `origin` of the value matters to one kind of error only, the one that `called`
renames. -/
theorem taking_called (y : Symbol) (s : Store) (v : Value) (origin called : String) :
    y.taking s v called =
      ((y.taking s v origin).1.called called, (y.taking s v origin).2) := by
  cases y with
  | function f => rfl
  | branch role info policy cs => rfl
  | scalar z =>
    unfold taking
    dsimp only
    cases hwrite : z.write s v with
    | ok written => rfl
    | error e =>
      show _ = ((⟨scalar z, some (e.called called)⟩ : Attempt Symbol), s)
      rw [z.called_write hwrite]

/-- **What comes of a value at a path, by `placed`, depends on its name `origin` in one kind of
error only.** -/
theorem placed_called (x : Symbol) (target : Path) (s : Store) (v : Value) (origin called : String) :
    x.placed target s v called =
      ((x.placed target s v origin).1.called called, (x.placed target s v origin).2) := by
  unfold placed
  cases x.resolve? target with
  | none => rfl
  | some y =>
    dsimp only
    rw [y.taking_called s v origin called]
    rfl

/-- The effect `e` ends with an attempt and leaves a store, those of `out`, and destroys no
object. -/
structure ComesTo (e : Effect (Attempt Symbol)) (w : Surroundings) (out : Attempt Symbol × Store) :
    Prop where
  /-- What is left, and how it ends, is `out.1`. -/
  attempt : (e.run w).1 = out.1
  /-- What the objects and cells hold is `out.2`. -/
  store : (e.run w).2.store = out.2
  /-- Nothing was added to `destroyed`. -/
  destroyed : (e.run w).2.destroyed = w.destroyed

/-! ## §3. Assigning a value. -/

/-- A scalar `z` that is set by `set` takes the value, as `taking` has it. -/
theorem set_comesTo (z : Scalar) (v : Value) (origin : String) (w : Surroundings) :
    ComesTo ((·.map scalar) <$> z.set v) w ((scalar z).taking w.store v origin) := by
  have hrun : ((·.map scalar) <$> z.set v).run w = _ := Effect.run_map _ _ w
  rw [z.run_set] at hrun
  unfold taking
  dsimp only
  cases hwrite : z.write w.store v with
  | ok written =>
    rw [hwrite] at hrun
    constructor <;> rw [hrun] <;> rfl
  | error e =>
    rw [hwrite] at hrun
    constructor <;> rw [hrun] <;> rfl

/-- What `e` makes of a value in the symbol `y` at the path `target` is put in its place by `e'`. -/
theorem ComesTo.placed {e e' : Effect (Attempt Symbol)} {w₀ : Surroundings} {origin : String}
    (hy : x.resolve? target = some y) (h : ComesTo e w₀ (y.taking w.store v origin))
    (hdestroyed : w₀.destroyed = w.destroyed)
    (hrun : e'.run w =
      ((e.run w₀).1.map fun y' => (x.replace? target.segments y').getD x, (e.run w₀).2)) :
    ComesTo e' w (x.placed target w.store v origin) := by
  unfold Symbol.placed
  rw [hy]
  refine ⟨?_, ?_, ?_⟩ <;> rw [hrun]
  · rw [h.attempt]
  · exact h.store
  · exact h.destroyed.trans hdestroyed

/-- **A value `v` that is assigned by `assignValue` is put where the target stands**, as `placed`
has it. -/
theorem assignValue_comesTo (x : Symbol) (target : Path) (v : Value) (w : Surroundings) :
    ComesTo (x.assignValue target v) w (x.placed target w.store v v.display) := by
  have hassign := assignValue.eq_def x target v
  cases hy : x.resolve? target with
  | none =>
    rw [hassign, placed, hy]
    exact ⟨rfl, rfl, rfl⟩
  | some y =>
    rw [hy] at hassign
    cases y with
    | scalar z =>
      refine (set_comesTo z v v.display (w.emit (.assigningValue target.display v.display))).placed
        hy rfl ?_
      rw [hassign]
      rfl
    | function f =>
      have hself := replace?_self (descend?_of_resolve? hy)
      rw [hassign, placed, hy]
      refine ⟨?_, rfl, rfl⟩
      dsimp only [taking, Attempt.map]
      rw [hself]
      rfl
    | branch role info policy cs =>
      have hself := replace?_self (descend?_of_resolve? hy)
      rw [hassign, placed, hy]
      refine ⟨?_, rfl, rfl⟩
      dsimp only [taking, Attempt.map]
      rw [hself]
      rfl

/-! ## §4. Assigning a symbol that holds the value. -/

/-- A copy from `src`, which is no object, into an object. -/
theorem run_copyFrom_not_object (info : Info) (policy : CopyPolicy) (cs : List Symbol)
    (handle? : Option Handle) {src : Symbol} (h : src.object? = none) (w : Surroundings) :
    let e : SymbolError := .typeMismatch info.label src.info.label Kind.object.article
    ((branch (.object handle?) info policy cs).copyFrom src).run w =
      (⟨branch (.object handle?) info policy cs, some e⟩,
        (w.emit (.copying info.label src.info.label)).emit (.reported e)) := by
  intro e
  rw [copyFrom, Effect.run_bind, h]
  rfl

/-- **A copy from a scalar that holds the value `v`** writes it into a scalar, and fails into a
symbol of any other kind, as `taking` has it; one case for each way to copy. -/
theorem copyFrom_comesTo (y : Symbol) (info : Info) (v : Value) (w : Surroundings) :
    ComesTo (y.copyFrom (.scalar ⟨info, .value v⟩)) w (y.taking w.store v info.label) := by
  cases y with
  | scalar z =>
    have hrun := run_copyFrom_scalar z ⟨info, .value v⟩ w
    have hset := set_comesTo z v info.label (w.emit (.copying z.info.label info.label))
    constructor <;> rw [hrun]
    · exact hset.attempt
    · exact hset.store
    · exact hset.destroyed
  | function f =>
    have hrun : ((function f).copyFrom (.scalar ⟨info, .value v⟩)).run w = _ :=
      run_copyFrom_not_function f (fun _ => Symbol.noConfusion) w
    constructor <;> rw [hrun] <;> rfl
  | branch role binfo policy cs =>
    cases role with
    | scope =>
      have hrun : ((branch .scope binfo policy cs).copyFrom (.scalar ⟨info, .value v⟩)).run w = _ :=
        run_copyFrom_not_scope binfo policy cs rfl w
      constructor <;> rw [hrun] <;> rfl
    | object handle? =>
      have hrun : ((branch (.object handle?) binfo policy cs).copyFrom
          (.scalar ⟨info, .value v⟩)).run w = _ :=
        run_copyFrom_not_object binfo policy cs handle? rfl w
      constructor <;> rw [hrun] <;> rfl

/-- **The value `v` of a symbol that holds one is put in the same place by `assign`.** That the
target is taken out of the tree meanwhile does not show, as neither path goes on from the other. -/
theorem assign_comesTo (hsource : x.resolve? source = some (.scalar ⟨info, .value v⟩))
    (hbelow : target.isPrefixOf source = false) (habove : source.isPrefixOf target = false)
    (w : Surroundings) :
    ComesTo (x.assign target source) w (x.placed target w.store v info.label) := by
  have hne : target ≠ source := by
    rintro rfl
    rw [Path.isPrefixOf_iff.2 List.prefix_rfl] at hbelow
    cases hbelow
  have hapart : ¬ (target.isPrefixOf source || source.isPrefixOf target) = true := by
    rw [hbelow, habove]
    nofun
  cases hy : x.resolve? target with
  | none =>
    -- the target is looked for before the source
    have hobstacle : x.assignObstacle? target source = some (.notFound target.display) := by
      rw [assignObstacle?, if_neg hne, if_neg hapart, hy]
      rfl
    have hrun := run_assign_of_obstacle hobstacle w
    rw [placed, hy]
    constructor <;> rw [hrun] <;> rfl
  | some y =>
    have hclear : x.assignObstacle? target source = none := by
      rw [assignObstacle?, if_neg hne, if_neg hapart, hy, hsource]
      rfl
    obtain ⟨y', z, x', hy', hz, hx', hrun⟩ := run_assign_of_found hclear hne w
    rw [hy] at hy'
    rw [hsource] at hz
    cases hy'
    cases hz
    have hcopied := copyFrom_comesTo y info v (w.emit (.assigning target.display source.display))
    refine hcopied.placed hy rfl ?_
    rw [hrun, Attempt.map, hx', Option.getD_some]

/-- A path `source` leads to a symbol by `resolve?` only in a tree whose root holds others. -/
theorem scope?_of_resolve? (h : x.resolve? source = some y) : ∃ c, x.scope? = some c := by
  cases x with
  | branch role info policy cs => exact ⟨⟨info, policy, cs⟩, rfl⟩
  | _ =>
    unfold resolve? at h
    split at h
    case isTrue => cases h
    case isFalse hroot =>
      -- a leaf has no children to go on to
      obtain ⟨_ | ⟨k, ks⟩⟩ := source
      · exact absurd rfl hroot
      · rw [descend?_cons] at h
        cases h

end Symbol

/-! ## §5. The steps of a session. -/

/-- What changing a symbol `x` by `change` does. -/
theorem Request.outcome_change (p : Place) (x : Symbol) (f : Symbol → Effect (Attempt Symbol))
    (s : Session) :
    let out := (f x).run s.surroundings
    (change p x f).outcome s = (out.1.result.mapError .symbol,
      Session.putAt { s with surroundings := out.2 } p out.1.value) := by
  intro out
  rw [change, outcome_bind_ok (outcome_perform (f x) s), outcome_bind_ok (outcome_put p _ _)]
  cases out.1.result <;> rfl

namespace Session

variable {s : Session} {p : Place} {x : Symbol} {target source : Path} {info : Info} {v : Value}

/-- What is put in a place by `putAt` has nothing to do with the surroundings. -/
theorem putAt_surroundings (s : Session) (w : Surroundings) (p : Place) (x : Symbol) :
    putAt { s with surroundings := w } p x = { putAt s p x with surroundings := w } := by
  unfold putAt
  dsimp only
  cases (s.slots.get? p.slot).bind (·.replace? p.path.segments x) <;> rfl

/-- A step ends with `out` as an attempt at the branch of the place `p` does, with what is left of
it put there and a given store.  Nothing else but the events may be new. -/
structure EndsWith (s : Session) (out : Report × Session) (p : Place)
    (attempt : Attempt Symbol × Store) : Prop where
  /-- What the host is told is the `result` of the attempt. -/
  result : out.1.result = (attempt.1.result.mapError .symbol).map fun _ => Answer.done
  /-- The trees, and the objects and cells of the host, are those of `putAt`. -/
  session : out.2 = { s.putAt p attempt.1.value with surroundings := out.2.surroundings }
  /-- What the objects and cells hold is the store of the attempt. -/
  store : out.2.surroundings.store = attempt.2
  /-- Nothing is in `destroyed`. -/
  destroyed : out.1.destroyed = []

/-- **The step `op` that changes a branch by `f` `EndsWith` what the change comes to.** -/
theorem endsWith_of_comesTo {op : Operation} {f : Symbol → Effect (Attempt Symbol)}
    {out : Attempt Symbol × Store} {c : Scope}
    (hop : Request.answer op = Request.done (Request.branch p >>= fun x => Request.change p x f))
    (hx : s.symbol? p = some x) (hc : x.scope? = some c)
    (h : Symbol.ComesTo (f x) s.quiet.surroundings out) : s.EndsWith (s.step op) p out := by
  have hbranch : (Request.branch p).outcome s.quiet = (.ok x, s.quiet) :=
    Request.outcome_branch (s := s.quiet) hx hc
  have houtcome : (Request.answer op).outcome s.quiet =
      ((out.1.result.mapError .symbol).map fun _ => .done,
        { s.putAt p out.1.value with surroundings := ((f x).run s.quiet.surroundings).2 }) := by
    rw [hop, Request.outcome_done, Request.outcome_bind_ok hbranch, Request.outcome_change,
      putAt_surroundings, h.attempt]
    congr 1
    rw [quiet, putAt_surroundings]
  have hresult : (s.step op).1.result = ((Request.answer op).outcome s.quiet).1 := rfl
  have hleft : (s.step op).2 = ((Request.answer op).outcome s.quiet).2 := rfl
  have hdestroyed : (s.step op).1.destroyed = (s.step op).2.surroundings.destroyed.toList.filterMap
      (·.native.watchedId?) := rfl
  rw [houtcome] at hresult hleft
  refine ⟨hresult, ?_, ?_, ?_⟩
  · rw [hleft]
  · rw [hleft]
    exact h.store
  · rw [hdestroyed, hleft]
    dsimp only
    rw [h.destroyed]
    rfl

/-- **Assigning a value and assigning a symbol that holds it come to the same.** Wherever the path
`source` leads to a scalar that holds the value `v` of its own, and the path `target` neither leads
to it nor goes on from it, the steps of `assignValue` and `assign` end alike, whatever there is at
the target: with the same outcome, the same trees, the same objects and cells of the host, the same
content in all of them, and no object destroyed.  Only what an error calls the value may be
different (`Failure.called`): its `display` in the one case, the `label` of the scalar in the
other. -/
theorem assign_eq_assignValue (s : Session) (p : Place) (x : Symbol) (target source : Path)
    (info : Info) (v : Value) (hx : s.symbol? p = some x)
    (hsource : x.resolve? source = some (.scalar ⟨info, .value v⟩))
    (hbelow : target.isPrefixOf source = false) (habove : source.isPrefixOf target = false) :
    let literal := s.step (.assignValue p target v)
    let symbol := s.step (.assign p target source)
    (literal.1.result = symbol.1.result.mapError (·.called v.display) ∧
      symbol.1.result = literal.1.result.mapError (·.called info.label)) ∧
    (literal.2.slots = symbol.2.slots ∧ literal.2.hosts = symbol.2.hosts ∧
      literal.2.cells = symbol.2.cells) ∧
    literal.2.surroundings.store = symbol.2.surroundings.store ∧
    literal.1.destroyed = symbol.1.destroyed := by
  intro literal symbol
  obtain ⟨c, hc⟩ := Symbol.scope?_of_resolve? hsource
  let store := s.quiet.surroundings.store
  have hliteral : s.EndsWith literal p (x.placed target store v v.display) :=
    endsWith_of_comesTo rfl hx hc (x.assignValue_comesTo target v s.quiet.surroundings)
  have hsymbol : s.EndsWith symbol p (x.placed target store v info.label) :=
    endsWith_of_comesTo rfl hx hc
      (Symbol.assign_comesTo hsource hbelow habove s.quiet.surroundings)
  -- the two attempts differ in what they call the value
  have hcalled (origin called : String) :
      ((((x.placed target store v called).1.result.mapError Failure.symbol).map fun _ =>
          Answer.done) =
        (((x.placed target store v origin).1.result.mapError Failure.symbol).map fun _ =>
          Answer.done).mapError (·.called called)) := by
    rw [x.placed_called target store v origin called]
    obtain ⟨⟨value, _ | e⟩, store'⟩ := x.placed target store v origin <;> rfl
  have hsame := x.placed_called target store v info.label v.display
  have hsession : { literal.2 with surroundings := symbol.2.surroundings } = symbol.2 := by
    rw [hliteral.session, hsymbol.session, hsame]
    rfl
  refine ⟨⟨?_, ?_⟩, ⟨?_, ?_, ?_⟩, ?_, ?_⟩
  · rw [hliteral.result, hsymbol.result]
    exact hcalled _ _
  · rw [hliteral.result, hsymbol.result]
    exact hcalled _ _
  · rw [← hsession]
  · rw [← hsession]
  · rw [← hsession]
  · rw [hliteral.store, hsymbol.store, hsame]
  · rw [hliteral.destroyed, hsymbol.destroyed]

/-- A session with a flag that holds its own value, and a text in a scope beside it. -/
def holding : Session :=
  { slots := Names.empty.insert "root" (.branch .scope ⟨"root", "", none⟩ .matchingNames
      [.scalar ⟨⟨"x", "", some .root⟩, .value (.bool true)⟩,
        .branch .scope ⟨"in", "", some .root⟩ .matchingNames
          [.scalar ⟨⟨"y", "", some ⟨["in"]⟩⟩, .value (.string "")⟩]]) }

/-- In the session `holding`, both ways the text becomes that of the flag, and both ways the scope
is no target for it; the messages call the flag by its value and by its name. -/
theorem assign_eq_assignValue_holding :
    let p : Place := ⟨"root", .root⟩
    let text (s : Session) := ((s.symbol? ⟨"root", ⟨["in", "y"]⟩⟩).bind Symbol.scalar?).map (·.storage)
    (text (holding.step (.assign p ⟨["in", "y"]⟩ ⟨["x"]⟩)).2 = some (.value (.string "true")) ∧
      text (holding.step (.assignValue p ⟨["in", "y"]⟩ (.bool true))).2 =
        some (.value (.string "true"))) ∧
    (holding.step (.assign p ⟨["in"]⟩ ⟨["x"]⟩)).1.result =
        .error (.symbol (.typeMismatch "in" "x" "a scope")) ∧
      (holding.step (.assignValue p ⟨["in"]⟩ (.bool true))).1.result =
        .error (.symbol (.typeMismatch "in" "true" "a scope")) := by
  intro p text
  have htext : text (holding.step (.assign p ⟨["in", "y"]⟩ ⟨["x"]⟩)).2 =
      some (.value (.string "true")) := by decide +kernel
  have hrefused : (holding.step (.assign p ⟨["in"]⟩ ⟨["x"]⟩)).1.result =
      .error (.symbol (.typeMismatch "in" "x" "a scope")) := by rfl
  obtain ⟨-, ⟨hslots, -, -⟩, -, -⟩ := assign_eq_assignValue holding p _ ⟨["in", "y"]⟩ ⟨["x"]⟩ _
    (.bool true) rfl rfl (by decide) (by decide)
  obtain ⟨⟨hresult, -⟩, -, -, -⟩ := assign_eq_assignValue holding p _ ⟨["in"]⟩ ⟨["x"]⟩ _
    (.bool true) rfl rfl (by decide) (by decide)
  refine ⟨⟨htext, ?_⟩, hrefused, ?_⟩
  · rw [← htext]
    show ((((holding.step (.assignValue p ⟨["in", "y"]⟩ (.bool true))).2.slots.get? _).bind
      _).bind _).map _ = _
    rw [hslots]
    rfl
  · rw [hresult, hrefused]
    decide +kernel

end Session

end ConfigTree
