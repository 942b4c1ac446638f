import ConfigTree.Proofs.Links
import ConfigTree.Proofs.Writes

/-!
# Independence of clones

What is written through a clone should not show in the original.  It does not if the clone leads to
nothing that the original owns, and that is so exactly if the original is tethered and does not
borrow what it owns: cells, borrowed objects of the host and links out of the tree make no
difference.  In the other direction nothing is asked for, because what a clone owns was made with
it.

Main results:
  * `Session.step_clone` — a clone that succeeds fills its slot and leaves the others alone;
  * `Session.clone_independence` — when links follow, and when writes stay apart, in every later
    run.
-/

namespace ConfigTree

namespace Session

variable {s : Session} {p : Place} {into : String} {x y : Symbol}

/-! ## §1. The session after a clone. -/

/-- The session after a `clone` that succeeds with `y`: its slot is filled, and what was there is
dropped. -/
theorem step_clone (hx : s.symbol? p = some x)
    (hy : (x.tryClone.run s.quiet.surroundings).1 = .ok y) :
    let cloned := (x.tryClone.run s.quiet.surroundings).2
    (s.step (.clone p into)).2 = { s with
      slots := s.slots.insert into y
      surroundings := (s.slots.get? into).elim cloned fun old => (old.release.run cloned).2 } := by
  intro cloned
  refine step_of_leads (P := fun s' => s' = _) ?_
  refine Request.Leads.bind (Request.Leads.bind ?_)
  refine Request.leads_symbol_of_some hx (Request.Leads.bind (Request.leads_perform ?_))
  rw [hy]
  show (Request.fill into y).Leads _ _ _
  refine Request.Leads.bind (Request.leads_get (Request.Leads.bind (Request.leads_modify ?_)))
  have hslots : s.quiet.slots.get? into = s.slots.get? into := rfl
  rw [hslots]
  cases s.slots.get? into with
  | none => exact rfl
  | some old => exact Request.leads_perform rfl

theorem slots_clone (hx : s.symbol? p = some x)
    (hy : (x.tryClone.run s.quiet.surroundings).1 = .ok y) :
    (s.step (.clone p into)).2.slots = s.slots.insert into y := by
  rw [step_clone hx hy]

theorem reach_clone (hx : s.symbol? p = some x)
    (hy : (x.tryClone.run s.quiet.surroundings).1 = .ok y) (name : String) :
    (s.step (.clone p into)).2.reach name = if name = into then y.objects else s.reach name := by
  unfold reach
  rw [slots_clone hx hy, Names.get?_insert]
  split <;> rfl

/-- What a slot of a `Settled` session reaches was `made`. -/
theorem Settled.reach_lt (h : s.Settled) {name : String} {id : ObjectId} (hid : id ∈ s.reach name) :
    id.index < s.surroundings.made := by
  unfold reach at hid
  cases hx : s.slots.get? name with
  | none =>
    rw [hx] at hid
    cases hid
  | some x =>
    rw [hx] at hid
    exact (h.slots name x hx).known id hid

/-- What a clone `y` that succeeds is, in a `Settled` session: the symbol `duplicated`, with new
objects. -/
theorem Settled.clone_eq (h : s.Settled) (hx : s.symbol? p = some x)
    (hy : (x.tryClone.run s.quiet.surroundings).1 = .ok y) :
    ∃ g, y = x.duplicated g [] ∧ ∀ id ∈ x.owned, s.surroundings.made ≤ (g id).index := by
  have hsound := h.sound.symbol? hx
  obtain ⟨g, rfl, hg⟩ := x.tryClone_eq_duplicated _ y hy
    (fun id hid => hsound.known id (x.owned_subset_objects hid)) (h.sound.nodup_owned_symbol? hx)
  exact ⟨g, rfl, fun id hid => (hg id hid).1⟩

/-- What was `made` before a clone `y` the clone does not own. -/
theorem Settled.clone_new (h : s.Settled) (hx : s.symbol? p = some x)
    (hy : (x.tryClone.run s.quiet.surroundings).1 = .ok y) {id : ObjectId}
    (hid : id.index < s.surroundings.made) : id ∉ y.owned := by
  obtain ⟨g, rfl, hnew⟩ := h.clone_eq hx hy
  rw [Symbol.owned_duplicated, List.mem_map]
  rintro ⟨old, hold, rfl⟩
  exact absurd (hnew old hold) (Nat.not_le.2 hid)

/-- What a symbol of a slot leads to, in a run `later` that brings nothing to where it was not, the
slot reached when the clone was made. -/
theorem objectsAt_of_clone (hx : s.symbol? p = some x)
    (hy : (x.tryClone.run s.quiet.surroundings).1 = .ok y) {later : List Operation}
    (hlater : ∀ op ∈ later, op.KeepsReach) (q : Place) :
    ((s.step (.clone p into)).2.afterwards later).objectsAt q ⊆
      if q.slot = into then y.objects else s.reach q.slot := by
  rw [← reach_clone hx hy]
  exact List.Subset.trans (objectsAt_subset_reach _ q) (reach_afterwards hlater q.slot)

/-! ## §2. Links and writes. -/

/-- **Independence of clones.** For every symbol `x` of every session that a run leads to, and every
clone `y` of it that succeeds: a link to an object that the symbol owns leads in the clone to the
new object of the counterpart of the owner if it stands below the owner, and to the old object
otherwise, and every other link keeps its target; so `LinksFollow` holds of the clone exactly if the
symbol is `Tethered`.  The clone leads to nothing that the symbol owns exactly if the symbol is
`Tethered` and `Unaliased`.  Then no write through the clone, wherever it is by then, changes an
object of the symbol, and in any case no write through the symbol changes an object of the clone.
In a run `later` that brings nothing to where it was not, this holds for all writes through the slot
of the clone and all writes through other slots. -/
theorem clone_independence (ops : List Operation) (p : Place) (into : String) (x y : Symbol)
    (hx : (after ops).symbol? p = some x)
    (hy : (x.tryClone.run (after ops).quiet.surroundings).1 = .ok y) :
    let made := (after ops).surroundings.made
    let cloned := ((after ops).step (.clone p into)).2
    cloned.slots = (after ops).slots.insert into y ∧
    (∀ ks info t f js b, x.At ks (.linked info (.field t f)) → x.At js b → b.ownedHere? = some t →
      ∃ b' t', y.At js b' ∧ b'.ownedHere? = some t' ∧ made ≤ t'.index ∧
        y.At ks (.linked info (.field (if js <+: ks then t' else t) f))) ∧
    (∀ ks info l, x.At ks (.linked info l) → (∀ t ∈ l.objects, t ∉ x.owned) →
      y.At ks (.linked info l)) ∧
    (Symbol.LinksFollow made x y ↔ x.Tethered) ∧
    ((∀ id ∈ y.objects, id ∉ x.owned) ↔ x.Tethered ∧ x.Unaliased) ∧
    (∀ (s : Session) (op : Operation) (q : Place), op.writesAt? = some q →
      (x.Tethered → x.Unaliased → s.objectsAt q ⊆ y.objects → ∀ id ∈ x.owned,
        (s.step op).2.surroundings.store.object? id = s.surroundings.store.object? id) ∧
      (s.objectsAt q ⊆ x.objects → ∀ id ∈ y.owned,
        (s.step op).2.surroundings.store.object? id = s.surroundings.store.object? id)) ∧
    ∀ (later : List Operation) (op : Operation) (q : Place), (∀ op ∈ later, op.KeepsReach) →
      op.writesAt? = some q →
      let s := cloned.afterwards later
      (x.Tethered → x.Unaliased → q.slot = into → ∀ id ∈ x.owned,
        (s.step op).2.surroundings.store.object? id = s.surroundings.store.object? id) ∧
      (q.slot ≠ into → ∀ id ∈ y.owned,
        (s.step op).2.surroundings.store.object? id = s.surroundings.store.object? id) := by
  intro made cloned
  have hsettled := settled_after ops
  have hsound := hsettled.sound.symbol? hx
  have hnodup := hsettled.sound.nodup_owned_symbol? hx
  have hslots : cloned.slots = (after ops).slots.insert into y := slots_clone hx hy
  -- what the symbol leads to and what any slot reaches is older than what the clone owns
  have hknown : ∀ id ∈ x.objects, id ∉ y.owned := fun id hid =>
    hsettled.clone_new hx hy (hsound.known id hid)
  have hreached (name : String) : ∀ id ∈ (after ops).reach name, id ∉ y.owned := fun id hid =>
    hsettled.clone_new hx hy (hsettled.reach_lt hid)
  have hthen {later : List Operation} (hlater : ∀ op ∈ later, op.KeepsReach) (q : Place) :
      (cloned.afterwards later).objectsAt q ⊆ _ := objectsAt_of_clone hx hy hlater q
  obtain ⟨g, rfl, hnew⟩ := hsettled.clone_eq hx hy
  have hold : ∀ id ∈ x.owned, id.index < made := fun id hid =>
    hsound.known id (x.owned_subset_objects hid)
  have hapart := Symbol.apart_duplicated_iff hsound.coherent hnodup hold hnew
  refine ⟨hslots, fun ks info t f js b hz hb hid => ?_,
    fun ks info l hz hl => Symbol.link_kept hsound.coherent hz hl g,
    Symbol.linksFollow_iff hsound.coherent hnodup hold hnew, hapart,
    fun s op q hop => ⟨?_, ?_⟩, fun later op q hlater hop => ?_⟩
  · obtain ⟨b', hb', hid'⟩ := Symbol.owner_duplicated hsound.coherent hb hid g
    refine ⟨b', g t, hb', hid', hnew t (Symbol.mem_owned_iff.2 ⟨js, b, hb, hid⟩), ?_⟩
    exact Symbol.link_duplicated hsound.coherent hnodup hz hb hid g
  · intro htethered hunaliased hwithin
    exact object?_of_apart hop hwithin (hapart.2 ⟨htethered, hunaliased⟩)
  · intro hwithin
    exact object?_of_apart hop hwithin hknown
  · intro s
    have hwithin : s.objectsAt q ⊆ _ := hthen hlater q
    constructor
    · intro htethered hunaliased hslot
      rw [if_pos hslot] at hwithin
      exact object?_of_apart hop hwithin (hapart.2 ⟨htethered, hunaliased⟩)
    · intro hslot
      rw [if_neg hslot] at hwithin
      exact object?_of_apart hop hwithin (hreached q.slot)

/-! ## §3. A link that follows and one that strays. -/

/-- The text of a counter. -/
def counterText : Field := ⟨.record .counter, .record .string, rfl⟩

/-- A run that registers an object and a scalar on one of its fields. -/
def linking : List Operation :=
  [.newScope "root" "root" "" .matchingNames,
    .addObject ⟨"root", .root⟩ "o" "" (some (.own (.record .counter { id := "k" }))),
    .linkField ⟨"root", ⟨["o"]⟩⟩ "x" "" counterText "5"]

/-- The run `linking`, after which the scalar is moved out from under the object. -/
def straying : List Operation :=
  linking ++ [.remove ⟨"root", ⟨["o"]⟩⟩ "x" (some "loose"), .insert "loose" ⟨"root", .root⟩]

/-- What is found of the root of the run `ops` and its clone, if it can be cloned. -/
def rootAndClone? (ops : List Operation) : Option (Symbol × Symbol) :=
  ((after ops).symbol? ⟨"root", .root⟩).bind fun x =>
    (x.tryClone.run (after ops).quiet.surroundings).1.toOption.map fun y => (x, y)

theorem rootAndClone?_eq_some {ops : List Operation} (h : rootAndClone? ops = some (x, y)) :
    (after ops).symbol? ⟨"root", .root⟩ = some x ∧
      (x.tryClone.run (after ops).quiet.surroundings).1 = .ok y := by
  obtain ⟨x', hx, h⟩ := Option.bind_eq_some_iff.1 h
  obtain ⟨y', hy, h⟩ := Option.map_eq_some_iff.1 h
  cases h
  refine ⟨hx, ?_⟩
  revert hy
  generalize (x.tryClone.run (after ops).quiet.surroundings).1 = out
  intro hy
  cases out with
  | error e => cases hy
  | ok z => cases hy; rfl

/-- A link below the owner of its target follows: whatever is written through the clone later, the
object of the original stays as it is. -/
theorem clone_independence_linking :
    ∃ x y, rootAndClone? linking = some (x, y) ∧
      Symbol.LinksFollow (after linking).surroundings.made x y ∧ x.owned = [⟨0⟩] ∧
      ∀ (later : List Operation) (v : Value), (∀ op ∈ later, op.KeepsReach) →
        let s := ((after linking).step (.clone ⟨"root", .root⟩ "copy")).2.afterwards later
        (s.step (.set ⟨"copy", ⟨["o", "x"]⟩⟩ v)).2.surroundings.store.object? ⟨0⟩ =
          s.surroundings.store.object? ⟨0⟩ := by
  have hobjects : (rootAndClone? linking).map (fun c => (c.1.owned, c.2.objects)) =
      some ([⟨0⟩], [⟨1⟩, ⟨1⟩]) := by decide +kernel
  obtain ⟨⟨x, y⟩, hfound, heq⟩ := Option.map_eq_some_iff.1 hobjects
  obtain ⟨hown, hreach⟩ := Prod.mk.inj heq
  obtain ⟨hx, hy⟩ := rootAndClone?_eq_some hfound
  obtain ⟨-, -, -, hfollow, hapart, -, hlater⟩ := clone_independence linking _ "copy" x y hx hy
  have htied : x.Tethered ∧ x.Unaliased := by
    refine hapart.1 fun id hid => ?_
    rw [show y.objects = _ from hreach] at hid
    rw [show x.owned = _ from hown]
    revert id
    decide
  refine ⟨x, y, hfound, hfollow.2 htied.1, hown, fun later v hkeeps => ?_⟩
  refine (hlater later _ ⟨"copy", ⟨["o", "x"]⟩⟩ hkeeps rfl).1 htied.1 htied.2 rfl ⟨0⟩ ?_
  rw [show x.owned = _ from hown]
  decide

/-- A link that was moved out from under the owner of its target does not follow, and what is
written through the clone changes the object of the original. -/
theorem clone_shares_stray_link :
    ∃ x y, rootAndClone? straying = some (x, y) ∧ x.owned = [⟨0⟩] ∧
      ¬ Symbol.LinksFollow (after straying).surroundings.made x y ∧
      let s := ((after straying).step (.clone ⟨"root", .root⟩ "copy")).2
      (s.step (.set ⟨"copy", ⟨["x"]⟩⟩ (.string "9"))).2.surroundings.store.object? ⟨0⟩ ≠
        s.surroundings.store.object? ⟨0⟩ := by
  have hnodes : (rootAndClone? straying).map (fun c => (c.1.owned,
      (c.1.descend? ["x"]).bind Symbol.scalar?, (c.1.descend? ["o"]).bind Symbol.ownedHere?)) =
      some ([⟨0⟩], some ⟨⟨"x", "", some .root⟩, .linked (.field ⟨0⟩ counterText)⟩, some ⟨0⟩) := by
    decide +kernel
  obtain ⟨⟨x, y⟩, hfound, heq⟩ := Option.map_eq_some_iff.1 hnodes
  simp only [Prod.mk.injEq] at heq
  obtain ⟨hown, hlink, howner⟩ := heq
  obtain ⟨hx, hy⟩ := rootAndClone?_eq_some hfound
  refine ⟨x, y, hfound, hown, fun hfollow => ?_, by decide +kernel⟩
  have hsettled := settled_after straying
  have hsound := hsettled.sound.symbol? hx
  obtain ⟨g, rfl, hnew⟩ := hsettled.clone_eq hx hy
  have hold : ∀ id ∈ x.owned, id.index < (after straying).surroundings.made := fun id hid =>
    hsound.known id (x.owned_subset_objects hid)
  have hnodup := hsettled.sound.nodup_owned_symbol? hx
  have htethered := (Symbol.linksFollow_iff hsound.coherent hnodup hold hnew).1 hfollow
  obtain ⟨z, hz, hscalar⟩ := Option.bind_eq_some_iff.1 hlink
  obtain ⟨b, hb, hid⟩ := Option.bind_eq_some_iff.1 howner
  have hlinked : z = .linked ⟨"x", "", some .root⟩ (.field ⟨0⟩ counterText) := by
    cases z with
    | scalar sc => cases hscalar; rfl
    | _ => cases hscalar
  rw [hlinked] at hz
  have hprefix := htethered _ _ _ _ _ _ (Symbol.at_of_descend? hz) (Symbol.at_of_descend? hb) hid
  exact absurd hprefix (by decide)

end Session

end ConfigTree
