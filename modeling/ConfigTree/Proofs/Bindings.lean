import ConfigTree.Proofs.Independence
import ConfigTree.Proofs.TreeNodes

/-!
# Bindings and their links across a clone

A clone duplicates handles by one rule and links by another: a borrowed handle is kept wherever it
stands, and a link is pointed at the duplicate of its target if it stands below the owner.  So a
binding and a link in its own scope to the bound object stay together, except where a binding
borrows an object from a binding that it stands below: there the handle stays with the original and
the link goes on to the duplicate.

Main results:
  * `Symbol.link_in_scope_duplicated` — when a link in the scope of a binding is pointed elsewhere;
  * `Session.clone_keeps_together` — when a link goes where the handle of its binding goes;
  * `Session.clone_parts_alias` — a clone in which the two part.
-/

namespace ConfigTree

namespace Symbol

variable {x y b : Symbol} {ks : List String} {name : String} {id : ObjectId} {h : Handle}
  {link : Info} {f : Field} {g : ObjectId → ObjectId}

/-! ## §1. Borrowing from above. -/

/-- The object `id` belongs to the binding at `ks` in `x` or to one that `ks` is below. -/
def OwnedAbove (x : Symbol) (ks : List String) (id : ObjectId) : Prop :=
  ∃ js b, js <+: ks ∧ x.At js b ∧ b.ownedHere? = some id

/-- Wherever a binding of `x` leads, the links in its own scope to its object lead, in the
counterparts of `y`. -/
def KeepsTogether (x y : Symbol) : Prop :=
  ∀ ks name b h link f, x.At ks b → b.handle? = some h →
    x.At (ks ++ [name]) (linked link (.field h.id f)) →
      ∃ b' h', y.At ks b' ∧ b'.handle? = some h' ∧
        y.At (ks ++ [name]) (linked link (.field h'.id f))

theorem mem_owned_of_ownedAbove (h : x.OwnedAbove ks id) : id ∈ x.owned := by
  obtain ⟨js, b, -, hb, hid⟩ := h
  exact mem_owned_iff.2 ⟨js, b, hb, hid⟩

theorem eq_of_scalar? {s : Scalar} (h : x.scalar? = some s) : x = .scalar s := by
  cases x with
  | scalar t => cases h; rfl
  | _ => cases h

theorem ownedHere?_of_handle? (hb : b.handle? = some h) (howned : h.owned = true) :
    b.ownedHere? = some h.id := by
  rcases b with _ | _ | ⟨_ | _ | ⟨id, owned⟩, info, policy, cs⟩ <;> cases hb
  cases howned
  rfl

theorem ownedHere?_of_borrowed (hb : b.handle? = some h) (hborrowed : h.owned = false) :
    b.ownedHere? = none := by
  rcases b with _ | _ | ⟨_ | _ | ⟨id, owned⟩, info, policy, cs⟩ <;> cases hb
  cases hborrowed
  rfl

/-- The duplicate of a binding `b` owns the new object `g h.id`, or keeps the borrowed one. -/
theorem handle?_duplicated (hb : b.handle? = some h) (g : ObjectId → ObjectId)
    (owners : List ObjectId) :
    (b.duplicated g owners).handle? = some (if h.owned then ⟨g h.id, true⟩ else h) := by
  rcases b with _ | _ | ⟨_ | _ | ⟨id, owned⟩, info, policy, cs⟩ <;> cases hb
  rfl

/-- A `name` ends the way to a link, so whatever is above the link is above its scope: an owner on
the way is `OwnedAbove` the scope `ks`. -/
theorem ownedAbove_of_link (hx : x.Coherent) (hz : x.At (ks ++ [name]) (linked link (.field id f)))
    {js : List String} (hway : js <+: ks ++ [name]) (hb : x.At js b)
    (hid : b.ownedHere? = some id) : x.OwnedAbove ks id := by
  rcases List.prefix_concat_iff.1 hway with heq | hway
  · -- a link owns nothing
    subst heq
    rw [hx.at_unique hb hz] at hid
    cases hid
  · exact ⟨js, b, hway, hb, hid⟩

/-- **A link in the scope at `ks` is pointed at a duplicate exactly if its target `id` is
`OwnedAbove` the scope**, that is by the scope's binding or one above it. -/
theorem link_in_scope_duplicated (hx : x.Coherent) (hnodup : x.owned.Nodup)
    (hz : x.At (ks ++ [name]) (linked link (.field id f))) (g : ObjectId → ObjectId) :
    (x.OwnedAbove ks id → (x.duplicated g []).At (ks ++ [name]) (linked link (.field (g id) f))) ∧
    (¬ x.OwnedAbove ks id →
      (x.duplicated g []).At (ks ++ [name]) (linked link (.field id f))) := by
  constructor
  · rintro ⟨js, b, hway, hb, hid⟩
    have hlink := link_duplicated hx hnodup hz hb hid g
    rwa [if_pos (hway.trans (List.prefix_append _ _))] at hlink
  · intro habove
    by_cases hown : id ∈ x.owned
    · obtain ⟨js, b, hb, hid⟩ := mem_owned_iff.1 hown
      have hlink := link_duplicated hx hnodup hz hb hid g
      rwa [if_neg fun hway => habove (ownedAbove_of_link hx hz hway hb hid)] at hlink
    · apply link_kept hx hz _ g
      intro t ht
      rwa [List.mem_singleton.1 ht]

/-- The binding `c` that owns the object `id` above the place `ks` of `x` has a counterpart at the
same place `js` of the duplicate, and that owns the new object `g id`.  The way to it is shorter
than `ks` if what stands at `ks` does not own the object itself. -/
theorem owner_above_duplicated (hx : x.Coherent) (h : x.OwnedAbove ks id) (hb : x.At ks b)
    (hnot : b.ownedHere? ≠ some id) (g : ObjectId → ObjectId) :
    ∃ js c c', js <+: ks ∧ js ≠ ks ∧ x.At js c ∧ c.ownedHere? = some id ∧
      (x.duplicated g []).At js c' ∧ c'.ownedHere? = some (g id) := by
  obtain ⟨js, c, hway, hc, hid⟩ := h
  have hne : js ≠ ks := by
    intro heq
    subst heq
    rw [hx.at_unique hc hb] at hid
    exact hnot hid
  obtain ⟨c', hc', hid'⟩ := owner_duplicated hx hc hid g
  exact ⟨js, c, c', hway, hne, hc, hid, hc', hid'⟩

end Symbol

namespace Session

/-! ## §2. Clones in a session. -/

/-- **When a clone keeps a binding and its links together.**  For every symbol `x` of every session
that a run leads to, every clone `y` of it that succeeds, and every binding `b` in it with a link in
its own scope to its object `h.id`: the counterpart of the link leads to the object `h'.id` of the
counterpart `b'` exactly if `b` owns the object, or no binding above `b` does (`Symbol.OwnedAbove`).
Where the two part, `b` borrows the object from a binding `c` that it is nested beneath.  Then `b'`
has the handle of `b` still, and the link leads to the new object that the counterpart `c'` of that
very owner has. -/
theorem clone_keeps_together (ops : List Operation) (p : Place) (x y : Symbol)
    (hx : (after ops).symbol? p = some x)
    (hy : (x.tryClone.run (after ops).quiet.surroundings).1 = .ok y) :
    ∀ ks name b h link f, x.At ks b → b.handle? = some h →
      x.At (ks ++ [name]) (.linked link (.field h.id f)) →
        ∃ b' h' t, y.At ks b' ∧ b'.handle? = some h' ∧
          y.At (ks ++ [name]) (.linked link (.field t f)) ∧
          (t = h'.id ↔ h.owned = true ∨ ¬ x.OwnedAbove ks h.id) ∧
          (t ≠ h'.id → h' = h ∧ h.owned = false ∧ (after ops).surroundings.made ≤ t.index ∧
            ∃ js c c', js <+: ks ∧ js ≠ ks ∧ x.At js c ∧ c.ownedHere? = some h.id ∧
              y.At js c' ∧ c'.ownedHere? = some t) := by
  intro ks name b h link f hb hh hz
  have hsettled := settled_after ops
  have hsound := hsettled.sound.symbol? hx
  have hnodup := hsettled.sound.nodup_owned_symbol? hx
  obtain ⟨g, rfl, hnew⟩ := hsettled.clone_eq hx hy
  obtain ⟨owners, hb', -⟩ := Symbol.at_duplicated hsound.coherent hb g []
  have hh' := Symbol.handle?_duplicated hh g owners
  obtain ⟨hfollows, hstays⟩ :=
    Symbol.link_in_scope_duplicated hsound.coherent hnodup hz g
  by_cases howned : h.owned = true
  · -- the binding is the owner, and both go on to the new object
    have habove : x.OwnedAbove ks h.id :=
      ⟨ks, b, List.prefix_rfl, hb, Symbol.ownedHere?_of_handle? hh howned⟩
    rw [if_pos howned] at hh'
    exact ⟨_, _, g h.id, hb', hh', hfollows habove, by simp [howned], fun hne => absurd rfl hne⟩
  · rw [if_neg howned] at hh'
    by_cases habove : x.OwnedAbove ks h.id
    · -- the binding borrows from above: only the link goes on
      have hmem := Symbol.mem_owned_of_ownedAbove habove
      have hlow := hsound.known h.id (x.owned_subset_objects hmem)
      have hhigh := hnew h.id hmem
      have hne : g h.id ≠ h.id := by
        intro heq
        rw [heq] at hhigh
        exact absurd hlow (Nat.not_lt.2 hhigh)
      have hborrows : h.owned = false := Bool.eq_false_iff.2 howned
      have hnot : b.ownedHere? ≠ some h.id := by
        rw [Symbol.ownedHere?_of_borrowed hh hborrows]
        exact nofun
      have howner := Symbol.owner_above_duplicated hsound.coherent habove hb hnot g
      exact ⟨_, _, g h.id, hb', hh', hfollows habove, by simp [hne, howned, habove],
        fun _ => ⟨rfl, hborrows, hhigh, howner⟩⟩
    · exact ⟨_, _, h.id, hb', hh', hstays habove, by simp [habove], fun hne => absurd rfl hne⟩

/-- In the run `linking` the binding at `o` owns the object, and in the clone `y` the link at `o.x`
goes where the handle `h'` goes. -/
theorem clone_keeps_together_linking :
    ∃ x y b' h', rootAndClone? linking = some (x, y) ∧ y.At ["o"] b' ∧ b'.handle? = some h' ∧
      y.At ["o", "x"] (.linked ⟨"x", "", some ⟨["o"]⟩⟩ (.field h'.id counterText)) := by
  have hnodes : (rootAndClone? linking).map (fun c => ((c.1.descend? ["o"]).bind Symbol.handle?,
      (c.1.descend? ["o", "x"]).bind Symbol.scalar?)) =
      some (some ⟨⟨0⟩, true⟩,
        some ⟨⟨"x", "", some ⟨["o"]⟩⟩, .linked (.field ⟨0⟩ counterText)⟩) := by
    decide +kernel
  obtain ⟨⟨x, y⟩, hfound, heq⟩ := Option.map_eq_some_iff.1 hnodes
  obtain ⟨hhandle, hscalar⟩ := Prod.mk.inj heq
  obtain ⟨hx, hy⟩ := rootAndClone?_eq_some hfound
  obtain ⟨b, hb, hh⟩ := Option.bind_eq_some_iff.1 hhandle
  obtain ⟨z, hz, hzs⟩ := Option.bind_eq_some_iff.1 hscalar
  rw [Symbol.eq_of_scalar? hzs] at hz
  obtain ⟨b', h', t, hb', hh', hz', htogether, -⟩ := clone_keeps_together linking _ x y hx hy
    ["o"] "x" b _ _ counterText (Symbol.at_of_descend? hb) hh (Symbol.at_of_descend? hz)
  rw [htogether.2 (.inl rfl)] at hz'
  exact ⟨x, y, b', h', hfound, hb', hh', hz'⟩

/-- A run that registers an object `o`, in it another binding of the same object, and in that one a
scalar on a field of the object. -/
def aliasing : List Operation :=
  [.newScope "root" "root" "" .matchingNames,
    .addObject ⟨"root", .root⟩ "o" "" (some (.own (.record .counter { id := "k" }))),
    .addObject ⟨"root", ⟨["o"]⟩⟩ "b" "" (some (.boundAt ⟨"root", ⟨["o"]⟩⟩)),
    .linkField ⟨"root", ⟨["o", "b"]⟩⟩ "x" "" counterText "5"]

/-- In the run `aliasing`, a binding that borrows from the binding that it stands in is cloned
without its link: root and clone are not `Symbol.KeepsTogether`. -/
theorem clone_parts_alias :
    ∃ x y, rootAndClone? aliasing = some (x, y) ∧ ¬ Symbol.KeepsTogether x y := by
  have hnodes : (rootAndClone? aliasing).map (fun c =>
      ((c.1.descend? ["o", "b"]).bind Symbol.handle?,
        (c.1.descend? ["o", "b", "x"]).bind Symbol.scalar?,
        (c.2.descend? ["o", "b"]).bind Symbol.handle?,
        (c.2.descend? ["o", "b", "x"]).bind Symbol.scalar?)) =
      some (some ⟨⟨0⟩, false⟩,
        some ⟨⟨"x", "", some ⟨["o", "b"]⟩⟩, .linked (.field ⟨0⟩ counterText)⟩,
        some ⟨⟨0⟩, false⟩,
        some ⟨⟨"x", "", some ⟨["o", "b"]⟩⟩, .linked (.field ⟨1⟩ counterText)⟩) := by
    decide +kernel
  obtain ⟨⟨x, y⟩, hfound, heq⟩ := Option.map_eq_some_iff.1 hnodes
  simp only [Prod.mk.injEq] at heq
  obtain ⟨hhandle, hscalar, hhandle', hscalar'⟩ := heq
  obtain ⟨hx, hy⟩ := rootAndClone?_eq_some hfound
  refine ⟨x, y, hfound, fun htogether => ?_⟩
  obtain ⟨b, hb, hh⟩ := Option.bind_eq_some_iff.1 hhandle
  obtain ⟨z, hz, hzs⟩ := Option.bind_eq_some_iff.1 hscalar
  rw [Symbol.eq_of_scalar? hzs] at hz
  obtain ⟨b', h', hb', hh', hz'⟩ := htogether ["o", "b"] "x" b _ _ counterText
    (Symbol.at_of_descend? hb) hh (Symbol.at_of_descend? hz)
  -- in the clone the ways to both are the only ones, and what stands there leads apart
  have hsettled := settled_after aliasing
  have hcoherent : y.Coherent := by
    obtain ⟨g, rfl, -⟩ := hsettled.clone_eq hx hy
    exact Symbol.coherent_duplicated (hsettled.sound.symbol? hx).coherent g []
  rw [hcoherent.descend?_of_at hb', Option.bind_some, hh'] at hhandle'
  rw [show ["o", "b", "x"] = ["o", "b"] ++ ["x"] from rfl,
    hcoherent.descend?_of_at hz'] at hscalar'
  cases hhandle'
  cases hscalar'

end Session

end ConfigTree
