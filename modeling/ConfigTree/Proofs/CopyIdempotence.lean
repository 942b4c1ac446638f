import ConfigTree.Proofs.CopyCourse

/-!
# Copying twice is copying once

A copy that is made again finds its source as it was, so it takes the same course.  What is left to
see is that the same writes to the same places leave what they left before.  They do since no write
looks at what it replaces: each part of an object, and each cell, is left alone by it or gets what
the source says, whatever was there (`Oblivious`).  Only the copies that an object counts tell a
second copy from a first.

Main results:
  * `Oblivious.comp`, `Oblivious.twice` — changes in a row, and a change that is made again;
  * `Script.resident_twice`, `Script.cell_twice` — a script that is run again;
  * `Symbol.copyFrom_idempotent` — a copy that is made again.
-/

namespace ConfigTree

/-! ## §1. Changes that do not look at what they replace. -/

namespace Oblivious

variable {α β : Type} {P : α → Prop} {part : α → β} {f g : α → α} {a : α}

/-- **Two changes `f` and `g` in a row are `Oblivious` if each of them is.** -/
theorem comp (hf : Oblivious P part f) (hg : Oblivious P part g) (hP : ∀ a, P a → P (f a)) :
    Oblivious P part (g ∘ f) := by
  rcases hg with hg | ⟨b, hg⟩
  · rcases hf with hf | ⟨b, hf⟩
    · exact .inl fun a ha => (hg (f a) (hP a ha)).trans (hf a ha)
    · exact .inr ⟨b, fun a ha => (hg (f a) (hP a ha)).trans (hf a ha)⟩
  · exact .inr ⟨b, fun a ha => hg (f a) (hP a ha)⟩

/-- **A change `f` that is made again leaves the `part` that it left.** -/
theorem twice (h : Oblivious P part f) (ha : P a) (hfa : P (f a)) :
    part (f (f a)) = part (f a) := by
  rcases h with h | ⟨b, h⟩
  · exact h (f a) hfa
  · exact (h (f a) hfa).trans (h a ha).symm

end Oblivious

/-! ## §2. The parts of an object. -/

namespace Native

/-- The part `i` of an object of type `t`, and nothing of an object of another type. -/
def look (t : NativeType) (i : t.contract.Part) (n : Native) : Option (t.contract.Look i) :=
  if h : n.type = t then some (t.contract.part i (h ▸ n.data)) else none

@[simp] theorem look_mk (t : NativeType) (i : t.contract.Part) (a : t.Data) :
    look t i ⟨t, a⟩ = some (t.contract.part i a) := dif_pos rfl

theorem look_of_ne {t : NativeType} {n : Native} (i : t.contract.Part) (h : n.type ≠ t) :
    look t i n = none := dif_neg h

/-- The object without the copies that it has counted, by `Contract.uncounted`. -/
def uncounted (n : Native) : Native := ⟨n.type, n.type.contract.uncounted n.data⟩

/-- Some `part` of an object that each way to change an object leaves alone or determines. -/
structure IsPart {β : Type} (part : Native → β) : Prop where
  /-- Writing the field `f` by `set?` leaves the part alone or determines it. -/
  written : ∀ (f : FieldName) (x : f.type.Raw),
    (∀ n m, set? n f x = some m → part m = part n) ∨ ∃ b, ∀ n m, set? n f x = some m → part m = b
  /-- Taking over the content of the object `source` by `copyAs?` leaves the part alone or
  determines it. -/
  copied : ∀ (d : Descriptor) (source : Native),
    (∀ n m, copyAs? d n source = some m → part m = part n) ∨
      ∃ b, ∀ n m, copyAs? d n source = some m → part m = b

/-- A copy leaves alone or determines what the `change` that the type makes of it does, if that is
`Oblivious`. -/
theorem copied_of_oblivious {β : Type} {part : Native → β}
    {copy : (t : NativeType) → t.Data → Option (t.Data → t.Data)} {source : Native}
    (h : ∀ t src change, source = ⟨t, src⟩ → copy t src = some change →
      Oblivious (fun _ => True) (fun a => part ⟨t, a⟩) change) :
    (∀ n m, copyWith? copy n source = some m → part m = part n) ∨
      ∃ b, ∀ n m, copyWith? copy n source = some m → part m = b := by
  obtain ⟨t, src⟩ := source
  cases hcopy : copy t src with
  | none =>
    refine .inl fun n m hm => ?_
    obtain ⟨_, _, _, change, -, hsource, hchange, -⟩ := copyWith?_eq_some.1 hm
    cases hsource
    cases hcopy.symm.trans hchange
  | some change =>
    -- all copies of this source make the same change
    have hmade {n m : Native} (hm : copyWith? copy n ⟨t, src⟩ = some m) :
        ∃ a, n = ⟨t, a⟩ ∧ m = ⟨t, change a⟩ := by
      obtain ⟨_, a, _, change', rfl, hsource, hchange, rfl⟩ := copyWith?_eq_some.1 hm
      cases hsource
      cases hcopy.symm.trans hchange
      exact ⟨a, rfl, rfl⟩
    rcases h t src change rfl hcopy with hkeeps | ⟨b, hfixes⟩
    · refine .inl fun n m hm => ?_
      obtain ⟨a, rfl, rfl⟩ := hmade hm
      exact hkeeps a trivial
    · refine .inr ⟨b, fun n m hm => ?_⟩
      obtain ⟨a, rfl, rfl⟩ := hmade hm
      exact hfixes a trivial

/-- A field `f`, as `get?` shows it, is a part by `IsPart`. -/
theorem isPart_get? (f : FieldName) : IsPart fun n => n.get? f := by
  refine ⟨fun g x => ?_, fun d source => ?_⟩
  · by_cases hf : f = g
    · subst hf
      exact .inr ⟨some x, fun n m h => get?_set? h⟩
    · exact .inl fun n m h => get?_set?_of_ne h hf
  · unfold copyAs?
    cases d.strategy? with
    | none => exact .inr ⟨source.get? f, fun n m h => get?_copyDefault? h f⟩
    | some c =>
      exact copied_of_oblivious fun t src change _ hchange =>
        t.contract.get?_copyCustom? f hchange

/-- So is each part `i` that the contract of a type names, as `look` shows it. -/
theorem isPart_look (t : NativeType) (i : t.contract.Part) : IsPart (look t i) := by
  -- an object of another type shows nothing, before and after
  have hother {n m : Native} (htype : m.type = n.type) (hn : n.type ≠ t) :
      look t i m = look t i n := by
    rw [look_of_ne i hn, look_of_ne i (htype ▸ hn)]
  have hcopied {copy : (u : NativeType) → u.Data → Option (u.Data → u.Data)} (source : Native)
      (h : ∀ src change, copy t src = some change →
        Oblivious (fun _ => True) (t.contract.part i) change) :
      (∀ n m, copyWith? copy n source = some m → look t i m = look t i n) ∨
        ∃ b, ∀ n m, copyWith? copy n source = some m → look t i m = b := by
    refine copied_of_oblivious fun u src change _ hchange => ?_
    by_cases hu : u = t
    · subst hu
      rcases h src change hchange with hkeeps | ⟨b, hfixes⟩
      · exact .inl fun a ha => by simp [hkeeps a ha]
      · exact .inr ⟨some b, fun a ha => by simp [hfixes a ha]⟩
    · exact .inl fun a _ => hother rfl hu
  refine ⟨fun g x => .inl fun n m h => ?_, fun d source => ?_⟩
  · by_cases hn : n.type = t
    · subst hn
      obtain ⟨b, hb, rfl⟩ := set?_eq_some.1 h
      rw [look_mk, n.type.contract.part_set? i hb]
      exact (look_mk n.type i n.data).symm
    · exact hother (type_set? h) hn
  · unfold copyAs?
    cases d.strategy? with
    | none => exact hcopied source fun _ _ h => t.contract.part_copyDefault? i h
    | some c => exact hcopied source fun _ _ h => t.contract.part_copyCustom? i h

/-- **The parts of an object are all there is to it** but the copies that it has counted: where
type, fields and every `look` agree, so does `uncounted`. -/
theorem uncounted_eq_of_parts {n m : Native} (htype : m.type = n.type)
    (hfields : ∀ f, m.get? f = n.get? f)
    (hparts : ∀ t i, look t i m = look t i n) : m.uncounted = n.uncounted := by
  obtain ⟨t, a⟩ := n
  obtain ⟨u, b⟩ := m
  cases htype
  have hdata := t.contract.eq_of_parts hfields fun i => by simpa using hparts t i
  exact congrArg (mk t) hdata

end Native

/-! ## §3. Scripts that are run again. -/

/-- The object behind its lock without the copies that it has counted, by `Native.uncounted`. -/
def Resident.uncounted (r : Resident) : Resident := { r with native := r.native.uncounted }

variable {β : Type} {part : Native → β} {t : NativeType} {lock : Bool}

/-- A `change` that is refused by all objects of a type or by none is `Oblivious` of what it leaves
alone or determines. -/
theorem oblivious_getD {change : Native → Option Native}
    (hsome : ∀ n n', n.type = t → n'.type = t → (change n').isSome = (change n).isSome)
    (hpart : (∀ n m, change n = some m → part m = part n) ∨
      ∃ b, ∀ n m, change n = some m → part m = b) :
    Oblivious (fun n => n.type = t) part fun n => (change n).getD n := by
  rcases hpart with hkeeps | ⟨b, hfixes⟩
  · refine .inl fun n _ => ?_
    show part ((change n).getD n) = part n
    cases hm : change n with
    | none => rfl
    | some m => exact hkeeps n m hm
  · by_cases htaken : ∃ n, n.type = t ∧ (change n).isSome = true
    · obtain ⟨n₀, ht₀, h₀⟩ := htaken
      refine .inr ⟨b, fun n ht => ?_⟩
      obtain ⟨m, hm⟩ := Option.isSome_iff_exists.1 ((hsome n₀ n ht₀ ht).trans h₀)
      show part ((change n).getD n) = b
      rw [hm]
      exact hfixes n m hm
    · refine .inl fun n ht => ?_
      have hnone : change n = none := by
        rw [← Option.not_isSome_iff_eq_none]
        exact fun h => htaken ⟨n, ht, h⟩
      show part ((change n).getD n) = part n
      rw [hnone]
      rfl

namespace Write

/-- What the write `l` makes of an object is `Oblivious` of every part. -/
theorem oblivious_native? (hpart : Native.IsPart part) (l : Write) (id : ObjectId) :
    Oblivious (fun n => n.type = t) part fun n => (l.native? id n).getD n := by
  rcases l with ⟨_ | ⟨target, f⟩, v⟩ | ⟨d, target, source⟩
  · exact .inl fun n _ => rfl
  · by_cases hid : id = target
    · cases hx : f.type.ofValue? v with
      | none =>
        refine .inl fun n _ => ?_
        simp [native?, hid, hx]
      | some x =>
        have hnative (n : Native) : native? id n (value (.field target f) v) = n.embed? f x := by
          rw [native?, if_pos hid, hx, Option.bind_some]
        simp only [hnative]
        refine oblivious_getD (fun n n' hn hn' => ?_) ?_
        · unfold Native.embed?
          rw [hn, hn']
          split
          · rw [Native.isSome_set?, Native.isSome_set?, hn, hn']
          · rfl
        · rcases hpart.written f.name x with h | ⟨b, h⟩
          · refine .inl fun n m hm => ?_
            unfold Native.embed? at hm
            split at hm
            · exact h n m hm
            · cases hm
          · refine .inr ⟨b, fun n m hm => ?_⟩
            unfold Native.embed? at hm
            split at hm
            · exact h n m hm
            · cases hm
    · refine .inl fun n _ => ?_
      simp [native?, hid]
  · by_cases hid : id = target
    · have hnative (n : Native) : native? id n (object d target source) =
          Native.copyAs? d n source := if_pos hid
      simp only [hnative]
      exact oblivious_getD (fun n n' hn hn' => Native.isSome_copyAs?_of_type (hn'.trans hn.symm) source)
        (hpart.copied d source)
    · refine .inl fun n _ => ?_
      simp [native?, hid]

/-- **The write `l` is `Oblivious` of every part of an object.** -/
theorem oblivious_resident (hpart : Native.IsPart part) (l : Write) (id : ObjectId) :
    Oblivious (fun r : Resident => r.native.type = t ∧ r.poisoned = lock)
      (fun r => part r.native) (l.resident id) := by
  cases lock with
  | true =>
    -- behind a poisoned lock nothing is written
    refine .inl fun r hr => ?_
    rw [resident, if_pos hr.2]
  | false =>
    have hresident (r : Resident) (hr : r.poisoned = false) :
        (l.resident id r).native = (l.native? id r.native).getD r.native := by
      rw [resident, if_neg (by rw [hr]; exact Bool.false_ne_true)]
    rcases oblivious_native? (t := t) hpart l id with h | ⟨b, h⟩
    · refine .inl fun r hr => ?_
      dsimp only
      rw [hresident r hr.2]
      exact h r.native hr.1
    · refine .inr ⟨b, fun r hr => ?_⟩
      dsimp only
      rw [hresident r hr.2]
      exact h r.native hr.1

/-- **The write `l` is `Oblivious` of what a cell holds.** -/
theorem oblivious_cell {t : StorageType} (l : Write) (id : CellId) :
    Oblivious (fun c : Cell => c.type = t ∧ c.poisoned = lock) (fun c => c) (l.cell id) := by
  cases lock with
  | true =>
    refine .inl fun c hc => ?_
    rw [cell, if_pos hc.2]
  | false =>
    cases hx : l.raw? id t with
    | none =>
      refine .inl fun c hc => ?_
      obtain ⟨rfl, -⟩ := hc
      simp [cell, hx]
    | some x =>
      refine .inr ⟨⟨t, x, false⟩, fun c hc => ?_⟩
      obtain ⟨type, content, poisoned⟩ := c
      obtain ⟨rfl, rfl⟩ := hc
      simp [cell, hx]

end Write

namespace Script

theorem oblivious_resident (hpart : Native.IsPart part) (L : Script) (id : ObjectId) :
    Oblivious (fun r : Resident => r.native.type = t ∧ r.poisoned = lock)
      (fun r => part r.native) (L.resident id) := by
  induction L with
  | nil => exact .inl fun r _ => rfl
  | cons l L ih =>
    refine (Write.oblivious_resident hpart l id).comp ih fun r hr => ?_
    obtain ⟨htype, hlock⟩ := l.face_resident id r
    exact ⟨htype.trans hr.1, hlock.trans hr.2⟩

theorem oblivious_cell {t : StorageType} (L : Script) (id : CellId) :
    Oblivious (fun c : Cell => c.type = t ∧ c.poisoned = lock) (fun c => c) (L.cell id) := by
  induction L with
  | nil => exact .inl fun c _ => rfl
  | cons l L ih =>
    refine (Write.oblivious_cell l id).comp ih fun c hc => ?_
    obtain ⟨htype, hlock⟩ := l.face_cell id c
    exact ⟨htype.trans hc.1, hlock.trans hc.2⟩

/-- **A script `L` that is run again leaves every object as it left it**, but for the copies that
the object counts (`uncounted`). -/
theorem resident_twice (L : Script) (id : ObjectId) (r : Resident) :
    (L.resident id (L.resident id r)).uncounted = (L.resident id r).uncounted := by
  have hface := L.face_resident id r
  have htwice {β : Type} {part : Native → β} (hpart : Native.IsPart part) :
      part (L.resident id (L.resident id r)).native = part (L.resident id r).native :=
    (L.oblivious_resident hpart id).twice (a := r) ⟨rfl, rfl⟩ hface
  have hface' := L.face_resident id (L.resident id r)
  have hnative := Native.uncounted_eq_of_parts hface'.1
    (fun f => htwice (Native.isPart_get? f)) fun t i => htwice (Native.isPart_look t i)
  rw [Resident.uncounted, Resident.uncounted, hnative, hface'.2]

/-- **A script `L` that is run again leaves every cell as it left it.** -/
theorem cell_twice (L : Script) (id : CellId) (c : Cell) : L.cell id (L.cell id c) = L.cell id c :=
  (L.oblivious_cell id).twice (a := c) ⟨rfl, rfl⟩ (L.face_cell id c)

end Script

/-! ## §4. Copies that are made again. -/

namespace Symbol

/-- **Copying twice is copying once.** Where the target `x` and the source `src` have no live object
and no cell in common, a copy that is made again ends as the `first` did, with the same error or
none, and changes no value, function, cell or object but for the copies that objects count
(`uncounted`).  What the target holds may well be bound or linked more than once. -/
theorem copyFrom_idempotent (x src : Symbol) (w : Surroundings)
    (hobjects : ∀ id, w.store.isLive id = true → id ∈ x.objects → id ∉ src.objects)
    (hcells : ∀ id ∈ x.cells, id ∉ src.cells) :
    let first := (x.copyFrom src).run w
    let second := (first.1.value.copyFrom src).run first.2
    second.1 = first.1 ∧ second.2.destroyed = first.2.destroyed ∧
      (∀ id, second.2.store.cell? id = first.2.store.cell? id) ∧
      ∀ id, (second.2.store.object? id).map Resident.uncounted =
        (first.2.store.object? id).map Resident.uncounted := by
  intro first second
  obtain ⟨c, hsettled, hc⟩ := x.copyFrom_scripted src w.store
  obtain ⟨hblank, hwritten⟩ := x.copyFrom_overwrites src w
  obtain ⟨hattempt, hstore, -⟩ := hc x w rfl (Store.Agree.refl _ _ _)
  -- the source is as it was: what has changed was alive and belongs to the target
  have hagree : w.store.Agree src.objects src.cells first.2.store :=
    .of_written hwritten hobjects hcells
  obtain ⟨hattempt', hstore', hdestroyed'⟩ := hc first.1.value first.2 hblank hagree
  have hvalue : first.1.value = c.change x := congrArg Attempt.value hattempt
  refine ⟨?_, hdestroyed', fun id => ?_, fun id => ?_⟩
  · rw [show second.1 = _ from hattempt', hvalue, hsettled, show first.1 = _ from hattempt]
  · rw [show second.2.store = _ from hstore', show first.2.store = _ from hstore,
      Script.cell?_apply, Script.cell?_apply, Option.map_map]
    congr 1
    funext r
    exact c.writes.cell_twice id r
  · rw [show second.2.store = _ from hstore', show first.2.store = _ from hstore,
      Script.object?_apply, Script.object?_apply, Option.map_map, Option.map_map, Option.map_map]
    congr 1
    funext r
    exact c.writes.resident_twice id r

/-- A `socket` that a scalar below it is linked to: the second copy leaves what the first left and
is counted. -/
theorem copyFrom_idempotent_sockets :
    let x := ofObject (.holding "a" ⟨0⟩ (.linked (.field ⟨0⟩ ObjectBinding.socketText)))
    let src := ofObject (.holding "b" ⟨1⟩ (.value (.string "scopes")))
    let first := (x.copyFrom src).run ObjectBinding.sockets
    let second := (first.1.value.copyFrom src).run first.2
    second.1 = first.1 ∧
      (second.2.store.object? ⟨0⟩).map Resident.uncounted =
        (first.2.store.object? ⟨0⟩).map Resident.uncounted ∧
      second.2.store.read ⟨0⟩ = .ok (.record .socket
        { id := "k", fields := { string := "native" }, defaultCopies := 2 }) := by
  intro x src
  have hobjects : ∀ id ∈ x.objects, id ∉ src.objects := by decide
  obtain ⟨hattempt, -, -, hleft⟩ := copyFrom_idempotent x src ObjectBinding.sockets
    (fun id _ => hobjects id) (by decide)
  exact ⟨hattempt, hleft ⟨0⟩, by decide +kernel⟩

end Symbol

end ConfigTree
