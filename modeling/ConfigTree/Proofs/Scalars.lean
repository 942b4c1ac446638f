import ConfigTree.Proofs.LinkAccess

/-!
# The law of scalars

What was written to a scalar is what it shows, converted to its kind, wherever the value is kept.
Writing checks the value first and the storage second, and a failure changes nothing.

Main results:
  * `Scalar.write_of_unfit`, `Scalar.write_of_barrier`, `Scalar.write_of_clear` — a write fails for
    the value, or for the storage, or succeeds;
  * `Scalar.shows_of_write`, `Scalar.write_back` — what was written is shown, and what is shown is
    accepted;
  * `Scalar.set_law` — when each happens, what is shown and what else is the same afterwards, and
    that a scalar takes back the value that it shows.
-/

namespace ConfigTree

open Surroundings (Written)

/-- The kind of a link is that of the storage it leads to, of `type?`. -/
theorem Link.kind_of_type? {l : Link} {s : Store} {t : StorageType} (h : l.type? s = some t) :
    l.kind s = t.kind := by
  cases l with
  | cell id =>
    obtain ⟨c, hc, rfl⟩ := Option.map_eq_some_iff.1 h
    simp [kind, hc]
  | field target f =>
    cases h
    rfl

namespace Scalar

/-! ## §1. What a scalar takes and shows. -/

/-- The value `v` converts to what the scalar `x` holds: to its kind, and if it is linked into the
range of the storage, by `StorageType.InRange`. -/
def Fits (x : Scalar) (s : Store) (v : Value) : Prop :=
  match x.storage with
  | .value current => ∃ u, v.convert current.kind = some u
  | .linked l => ∀ t, l.type? s = some t → ∃ u, v.convert t.kind = some u ∧ t.InRange u

/-- Why the storage of a scalar is out of reach, if it is: the `Link.barrier?` of its link. -/
def barrier? (x : Scalar) (s : Store) : Option AccessError :=
  match x.storage with
  | .value _ => none
  | .linked l => l.barrier? s

/-- What a scalar shows of a value `v` of its kind: storage of four bytes rounds, by
`StorageType.shown`. -/
def shown (x : Scalar) (s : Store) (v : Value) : Value :=
  match x.storage with
  | .value _ => v
  | .linked l => ((l.type? s).map fun t => t.shown v).getD v

/-- Of two values of the kind of the scalar, `v` is the nearest to `u` that the scalar can show, by
`StorageType.Nearest`. -/
def Nearest (x : Scalar) (s : Store) (u v : Value) : Prop :=
  match x.storage with
  | .value _ => v = u
  | .linked l => ∀ t, l.type? s = some t → t.Nearest u v

theorem nearest_shown (x : Scalar) (s : Store) (u : Value) : x.Nearest s u (x.shown s u) := by
  unfold Nearest shown
  cases x.storage with
  | value _ => rfl
  | linked l =>
    intro t ht
    dsimp only
    rw [ht]
    exact t.nearest_shown u

/-- The storage of a scalar is of four bytes and holds no number, by `StorageType.IsNarrowNaN`. -/
def HoldsNarrowNaN (x : Scalar) (s : Store) : Prop :=
  ∃ l t raw, x.storage = .linked l ∧ l.content? s = some ⟨t, raw⟩ ∧ t.IsNarrowNaN raw

/-- Afterwards the scalar, now `y`, shows the value `u`, and nothing that it does not stand for has
changed. -/
structure Shows (x y : Scalar) (w w' : Surroundings) (u : Value) : Prop where
  /-- Its `value` is read without an error. -/
  value : y.value.run w' = (.ok u, w')
  /-- It has the `kind` it had. -/
  kind : y.kind w'.store = x.kind w.store
  /-- It has the name and the place, `info`, that it had. -/
  info : y.info = x.info
  /-- It leads to where it led, to the link `l` or nowhere. -/
  link : ∀ l, y.storage = .linked l ↔ x.storage = .linked l
  /-- Cells and objects that it does not lead to have not changed; the others were `Written`. -/
  written : Written x.storage.objects x.storage.cells w w'
  /-- Every other link `k`, also one to another field of the same object, holds what it held, by
  `Link.content?`. -/
  content : ∀ k, x.storage ≠ .linked k → k.content? w'.store = k.content? w.store
  /-- Storage is within reach where it was, by `Link.barrier?`. -/
  barrier : ∀ k : Link, k.barrier? w'.store = k.barrier? w.store
  /-- Nothing was reported in `events`. -/
  events : w'.events = w.events

variable {x y : Scalar} {w : Surroundings} {s s' : Store} {u v : Value}

/-! ## §2. One write. -/

/-- A value `Fits` a linked scalar if its storage accepts it by `ofValue?`. -/
theorem fits_linked {info : Info} {l : Link} : (Scalar.mk info (.linked l)).Fits s v ↔
    ∀ t, l.type? s = some t → (t.ofValue? v).isSome := by
  simp only [Fits, StorageType.ofValue?_isSome_iff]

theorem peek_of_barrier {e : AccessError} (h : x.barrier? s = some e) :
    x.peek s = .error (.access x.info.label e) := by
  obtain ⟨info, storage⟩ := x
  cases storage with
  | value u => cases h
  | linked l =>
    have hb : l.barrier? s = some e := h
    simp [peek, Link.read_of_barrier hb, Except.mapError]

/-- A value that does not fit, `¬ x.Fits s v`, is refused whatever the state of the storage. -/
theorem write_of_unfit (h : ¬ x.Fits s v) :
    x.write s v = .error (.conversion x.info.label v.display (x.kind s)) := by
  obtain ⟨info, storage⟩ := x
  cases storage with
  | value u =>
    have hnone : v.convert u.kind = none := by
      simpa [Fits, Option.eq_none_iff_forall_ne_some] using h
    simp [write, hnone, kind]
  | linked l =>
    simp only [Fits, not_forall] at h
    obtain ⟨t, ht, hnone⟩ := h
    have hnone : t.ofValue? v = none := by
      rw [← t.ofValue?_isSome_iff v] at hnone
      simpa using hnone
    simp [write, Link.write_of_unfit ht hnone, writeError, kind, Link.kind_of_type? ht]

/-- A value that `Fits` meets the `barrier?`, if there is one. -/
theorem write_of_barrier {e : AccessError} (hfit : x.Fits s v) (hb : x.barrier? s = some e) :
    x.write s v = .error (.access x.info.label e) := by
  obtain ⟨info, storage⟩ := x
  cases storage with
  | value u => cases hb
  | linked l =>
    have hb : l.barrier? s = some e := hb
    -- a barrier is never a matter of the value
    have hwrite : (Scalar.mk info (.linked l)).writeError e = .access info.label e := by
      obtain rfl | rfl | ⟨expected, actual, rfl⟩ := Link.barrier?_cases hb <;> rfl
    simp [write, Link.write_of_barrier (fits_linked.1 hfit) hb, hwrite]

/-- A value that `Fits` is written where no `barrier?` is. -/
theorem write_of_clear (hfit : x.Fits s v) (hb : x.barrier? s = none) :
    ∃ y s', x.write s v = .ok (y, s') := by
  obtain ⟨info, storage⟩ := x
  cases storage with
  | value u =>
    obtain ⟨c, hc⟩ : ∃ c, v.convert u.kind = some c := hfit
    exact ⟨⟨info, .value c⟩, s, by simp [write, hc]⟩
  | linked l =>
    obtain ⟨s', hs⟩ := Link.write_of_clear (fits_linked.1 hfit) hb
    exact ⟨⟨info, .linked l⟩, s', by simp [write, hs]⟩

/-- **A scalar `x` that was written, and is `y` now, `Shows` the value `u` that `v` is converted
to**, as far as it can be `shown`. -/
theorem shows_of_write (h : x.write w.store v = .ok (y, s)) (hb : x.barrier? w.store = none) :
    ∃ u, v.convert (x.kind w.store) = some u ∧
      x.Shows y w (w.withStore s) (x.shown w.store u) := by
  have hwritten := written_write h
  obtain ⟨info, storage⟩ := x
  cases storage with
  | value current =>
    simp only [write] at h
    cases hc : v.convert current.kind with
    | none => simp [hc] at h
    | some u =>
      simp only [hc, Except.ok.injEq, Prod.mk.injEq] at h
      obtain ⟨rfl, rfl⟩ := h
      exact ⟨u, hc, by rw [run_value]; rfl, Value.kind_of_convert hc, rfl, by simp, hwritten,
        fun k _ => rfl, fun k => rfl, rfl⟩
  | linked l =>
    simp only [write] at h
    cases hl : l.write w.store v with
    | error e => simp [hl] at h
    | ok s' =>
      simp only [hl, Except.ok.injEq, Prod.mk.injEq] at h
      obtain ⟨rfl, rfl⟩ := h
      obtain ⟨t, raw, ht, hraw, hcontent⟩ := Link.content?_write hl
      obtain ⟨u, hu, hshown⟩ := StorageType.toValue?_ofValue? hraw
      have hbarrier := Link.barrier?_of_written hwritten
      have hkind := Link.kind_of_type? ht
      -- what is read is the content that was written
      have hread : l.read s' = .ok (t.shown u) := by
        have hclear : l.barrier? s' = none := (hbarrier l).trans hb
        rw [Link.read_of_clear hclear hcontent, StorageType.read_eq_ok, hshown]
      refine ⟨u, ?_, ?_, ?_, rfl, fun _ => Iff.rfl, hwritten, fun k hk => ?_, hbarrier, rfl⟩
      · show v.convert (l.kind w.store) = some u
        rw [hkind]
        exact hu
      · rw [run_value]
        simp [peek, hread, Except.mapError, shown, ht]
      · show l.kind s' = l.kind w.store
        exact (Link.kind_of_type? ((Link.type?_of_written hwritten l).trans ht)).trans hkind.symm
      · exact Link.content?_write_of_ne hl fun e => hk (e ▸ rfl)

/-! ## §3. Writing back. -/

/-- **A scalar takes back the value that it shows.**  Linked storage then holds its content
`settled`, and where that is the content it held, the `store` is what it was. -/
theorem write_back (h : x.peek w.store = .ok u) :
    ∃ s, x.write w.store u = .ok (x, s) ∧ x.Shows x w (w.withStore s) u ∧
      (¬ x.HoldsNarrowNaN w.store → s = w.store) ∧
      ∀ l t raw, x.storage = .linked l → l.content? w.store = some ⟨t, raw⟩ →
        l.content? s = some ⟨t, t.settled raw⟩ ∧ (t.settled raw = raw → s = w.store) := by
  have hb : x.barrier? w.store = none := by
    cases hb : x.barrier? w.store with
    | none => rfl
    | some e => cases (peek_of_barrier hb).symm.trans h
  obtain ⟨info, storage⟩ := x
  cases storage with
  | value current =>
    cases h
    have hc := Value.convert_kind u
    refine ⟨w.store, by simp [write, hc], ?_, fun _ => rfl, fun _ _ _ hl => nomatch hl⟩
    exact ⟨by rw [run_value]; rfl, rfl, rfl, fun _ => Iff.rfl, Written.of_eq rfl rfl,
      fun _ _ => rfl, fun _ => rfl, rfl⟩
  | linked l =>
    have hb : l.barrier? w.store = none := hb
    obtain ⟨⟨t, raw⟩, hcontent⟩ := Link.content?_of_clear hb
    have hread : t.toValue? raw = some u := by
      rw [← StorageType.read_eq_ok, ← Link.read_of_clear hb hcontent]
      cases hl : l.read w.store with
      | error e => simp [peek, hl, Except.mapError] at h
      | ok u' =>
        simp only [peek, hl, Except.mapError, Except.ok.injEq] at h
        rw [h]
    obtain ⟨s, hs, hsettled, hagain⟩ :=
      Link.write_of_shown (Link.type?_of_content? hcontent) hb hread
    have hwrite : (Scalar.mk info (.linked l)).write w.store u = .ok (⟨info, .linked l⟩, s) := by
      simp [write, hs]
    -- where the content settles as what it was, it is written over itself
    have hself (hsame : t.settled raw = raw) : s = w.store :=
      Link.write_self hs hcontent (by rw [StorageType.ofValue?_toValue? hread, hsame])
    refine ⟨s, hwrite, ?_, fun hnan => ?_, fun l' t' raw' hl' hcontent' => ?_⟩
    · -- what is shown of the value is the value, for the content that was written shows it
      obtain ⟨u', hu', hshows⟩ := shows_of_write hwrite hb
      have hvalue : (Scalar.mk info (.linked l)).value.run (w.withStore s) =
          (.ok u, w.withStore s) := by
        rw [run_value]
        simp [peek, hagain, Except.mapError]
      exact { hshows with value := hvalue }
    · exact hself (StorageType.settled_eq fun h => hnan ⟨l, t, raw, rfl, hcontent, h⟩)
    · cases hl'
      cases hcontent.symm.trans hcontent'
      exact ⟨hsettled, hself⟩

/-! ## §4. The law. -/

/-- **The law of scalars.**  `x.set v` succeeds exactly if `v` `Fits` what `x` holds and no
`barrier?` keeps its storage out of reach; the value is checked first, then the storage, and a
failure reports itself and changes nothing.  After a success the scalar `Shows` the value converted
to its kind, which in storage of four bytes is the `Nearest` number to it, and nothing else has
changed.  A scalar takes back the value `u` that it shows: what its storage holds is `settled` then,
which changes nothing but a NaN of four bytes, and that into the quiet one. -/
theorem set_law (x : Scalar) (v : Value) (w : Surroundings) :
    let out := (x.set v).run w
    (out.1.error? = none ↔ x.Fits w.store v ∧ x.barrier? w.store = none) ∧
    (¬ x.Fits w.store v →
      let e := SymbolError.conversion x.info.label v.display (x.kind w.store)
      out = (⟨x, some e⟩, w.emit (.reported e))) ∧
    (∀ cause, x.Fits w.store v → x.barrier? w.store = some cause →
      let e := SymbolError.access x.info.label cause
      out = (⟨x, some e⟩, w.emit (.reported e))) ∧
    (out.1.error? = none → ∃ u, v.convert (x.kind w.store) = some u ∧
      x.Shows out.1.value w out.2 (x.shown w.store u) ∧ x.Nearest w.store u (x.shown w.store u)) ∧
    (∀ u, (x.value.run w).1 = .ok u →
      let again := (x.set u).run w
      again.1 = ⟨x, none⟩ ∧ x.Shows x w again.2 u ∧
        (¬ x.HoldsNarrowNaN w.store → again.2 = w) ∧
        ∀ l t raw, x.storage = .linked l → l.content? w.store = some ⟨t, raw⟩ →
          l.content? again.2.store = some ⟨t, t.settled raw⟩ ∧
            (t.settled raw = raw → again.2 = w)) := by
  intro out
  have hout : out = (x.set v).run w := rfl
  rw [run_set] at hout
  refine ⟨?_, fun hunfit => ?_, fun cause hfit hb => ?_, fun hok => ?_, fun u hu => ?_⟩
  · by_cases hfit : x.Fits w.store v
    · cases hb : x.barrier? w.store with
      | none =>
        obtain ⟨y, s, hwrite⟩ := write_of_clear hfit hb
        simp [hout, hwrite, hfit]
      | some cause => simp [hout, write_of_barrier hfit hb]
    · simp [hout, write_of_unfit hfit, hfit]
  · rw [hout, write_of_unfit hunfit]
  · rw [hout, write_of_barrier hfit hb]
  · cases hwrite : x.write w.store v with
    | error e => simp [hout, hwrite] at hok
    | ok written =>
      obtain ⟨y, s⟩ := written
      have hb : x.barrier? w.store = none := by
        cases hb : x.barrier? w.store with
        | none => rfl
        | some cause =>
          by_cases hfit : x.Fits w.store v
          · cases (write_of_barrier hfit hb).symm.trans hwrite
          · cases (write_of_unfit hfit).symm.trans hwrite
      rw [hwrite] at hout
      rw [hout]
      obtain ⟨u, hu, hshows⟩ := shows_of_write hwrite hb
      exact ⟨u, hu, hshows, x.nearest_shown w.store u⟩
  · have hpeek : x.peek w.store = .ok u := by
      rw [run_value] at hu
      cases hp : x.peek w.store with
      | error e => simp [hp] at hu
      | ok u' => simpa [hp] using hu
    obtain ⟨s, hwrite, hshows, hsame, hcontent⟩ := write_back hpeek
    show ((x.set u).run w).1 = _ ∧ _
    rw [run_set, hwrite]
    have hback (hs : s = w.store) : w.withStore s = w := by
      rw [hs]
      rfl
    refine ⟨rfl, hshows, fun hnan => hback (hsame hnan), fun l t raw hl hc => ?_⟩
    obtain ⟨hsettled, hself⟩ := hcontent l t raw hl hc
    exact ⟨hsettled, fun h => hback (hself h)⟩

/-- Surroundings with one cell of four bytes, which holds `raw`. -/
def oneCell (raw : Single) (poisoned : Bool) : Surroundings :=
  { store := { cells := #[⟨.single, raw, poisoned⟩] } }

/-- A cell of four bytes refuses what is no number even when it is `poisoned`, and refuses a number
only then; the number that it takes is shown.  A NaN that is written back becomes the quiet one. -/
theorem set_law_cell :
    let x : Scalar := ⟨⟨"rate", "", some .root⟩, .linked (.cell ⟨0⟩)⟩
    let one : Value := .double (.ofInt 1)
    let refused := SymbolError.conversion "rate" "fast" .double
    let barred := SymbolError.access "rate" .lockFailed
    let loud : Single := ⟨true, Format.single.infinity + 1, by decide⟩
    (x.set (.string "fast")).run (oneCell .zero true) =
      (⟨x, some refused⟩, (oneCell .zero true).emit (.reported refused)) ∧
    (x.set (.int .one)).run (oneCell .zero true) =
      (⟨x, some barred⟩, (oneCell .zero true).emit (.reported barred)) ∧
    (∃ y w', (x.set (.int .one)).run (oneCell .zero false) = (⟨y, none⟩, w') ∧
      x.Shows y (oneCell .zero false) w' one) ∧
    ∃ w', (x.set (.double (.nan true))).run (oneCell loud false) = (⟨x, none⟩, w') ∧
      (Link.cell ⟨0⟩).content? w'.store = some ⟨.single, .nan true⟩ := by
  intro x one refused barred loud
  have hone : (Value.int .one).convert .double = some one := by decide +kernel
  have hfits (poisoned : Bool) : x.Fits (oneCell .zero poisoned).store (.int .one) := by
    intro t ht
    cases ht
    exact ⟨one, hone, trivial⟩
  obtain ⟨-, hunfit, -, -, -⟩ := set_law x (.string "fast") (oneCell .zero true)
  obtain ⟨-, -, hbarred, -, -⟩ := set_law x (.int .one) (oneCell .zero true)
  obtain ⟨htaken, -, -, hshows, -⟩ := set_law x (.int .one) (oneCell .zero false)
  obtain ⟨-, -, -, -, hback⟩ := set_law x (.int .one) (oneCell loud false)
  refine ⟨hunfit fun hfit => ?_, hbarred .lockFailed (hfits true) rfl, ?_, ?_⟩
  · obtain ⟨u, hu, -⟩ := hfit .single rfl
    have hnone : (Value.string "fast").convert .double = none := by decide +kernel
    cases hnone.symm.trans hu
  · have hok := htaken.2 ⟨hfits false, rfl⟩
    obtain ⟨u, hu, hu', -⟩ := hshows hok
    refine ⟨_, _, Prod.ext (congrArg (Attempt.mk _) hok) rfl, ?_⟩
    cases hone.symm.trans hu
    have hshown : x.shown (oneCell .zero false).store one = one := by decide +kernel
    exact hshown ▸ hu'
  · obtain ⟨hagain, -, -, hcontent⟩ := hback (.double (.nan true)) (by decide +kernel)
    exact ⟨_, Prod.ext hagain rfl, (hcontent _ .single loud rfl rfl).1⟩

end Scalar

end ConfigTree
