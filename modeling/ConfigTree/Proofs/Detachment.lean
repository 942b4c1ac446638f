import ConfigTree.Proofs.SlotChanges

/-!
# Detached symbols

The symbol in a slot is enclosed by nothing.  A new one stores no parent, and one that was removed
from its scope was detached on the way.  A clone and what is taken from an object symbol keep the
parent that the original stores, so they say that they are where the original is.  `Whereabouts`
records over a run which slots hold such a symbol.

Main results:
  * `Session.Turn.displaced` — what an operation makes of the record;
  * `Whereabouts.detached_unless_displaced` — the record tells which slots hold detached symbols,
    and so where all symbols say that they are;
  * `Session.clone_keeps_parent` — a clone of a symbol below a root is not detached.
-/

namespace ConfigTree

/-! ## §1. Operations that fill slots. -/

namespace Operation

/-- The slot that an operation fills. -/
def fills? : Operation → Option String
  | newScope slot .. | newScalar slot .. | newLinked slot .. | newFunction slot ..
  | newObject slot .. => some slot
  | remove _ _ into? => into?
  | clone _ into | take _ into => some into
  | _ => none

/-- Whether the symbol that an operation puts into a slot stores a parent, if it is known which of
the symbols in the slots do, by `displaced`. -/
def displaces (displaced : String → Bool) : Operation → Bool
  | clone p _ | take p _ => !p.path.isRoot || displaced p.slot
  | _ => false

/-- Which of the symbols in the slots store a parent after the operation `op` that has done its work
or has not. -/
def displacedAfter (op : Operation) (done : Bool) (displaced : String → Bool) (name : String) :
    Bool :=
  if done = true ∧ op.fills? = some name then op.displaces displaced else displaced name

variable {op : Operation} {done : Bool} {displaced : String → Bool} {slot name : String}

theorem displacedAfter_of_fills (h : op.fills? = some slot) (displaced : String → Bool) :
    op.displacedAfter true displaced slot = op.displaces displaced := by
  rw [displacedAfter, if_pos ⟨rfl, h⟩]

theorem displacedAfter_of_ne (h : op.fills? ≠ some name) (done : Bool)
    (displaced : String → Bool) : op.displacedAfter done displaced name = displaced name := by
  rw [displacedAfter, if_neg fun hfills => h hfills.2]

theorem rearranges_of_fills (h : op.fills? = some slot) : op.rearranges = true := by
  cases op <;> first | rfl | cases h

theorem fills_of_newSlot (h : op.newSlot? = some slot) :
    op.fills? = some slot ∧ ∀ displaced, op.displaces displaced = false := by
  cases op <;> first | exact ⟨h, fun _ => rfl⟩ | cases h

theorem fills_of_offer {s : Session} {found : Place × Offer} (h : s.offer? op = some found) :
    op.fills? = none := by
  cases op <;> first | rfl | cases h

end Operation

/-! ## §2. Parents of the symbols in slots. -/

namespace Session

variable {s s' : Session} {op : Operation} {done : Bool} {p : Place} {x y z : Symbol}
  {name : String}

/-- A symbol `x` stores a parent if it stands below the `tree` in its slot, or is that symbol and
this one stores a parent. -/
theorem Settled.isSome_parent? (h : s.Settled) (hx : s.symbol? p = some x) :
    ∃ tree, s.slots.get? p.slot = some tree ∧
      x.info.parent?.isSome = (!p.path.isRoot || tree.info.parent?.isSome) := by
  obtain ⟨tree, htree, hdescend⟩ := symbol?_eq_some.1 hx
  have hcoherent := (h.slots _ _ htree).coherent
  have hat := Symbol.at_of_descend? hdescend
  refine ⟨tree, htree, ?_⟩
  by_cases hroot : p.path.segments = []
  · rw [hroot] at hat
    rw [(Symbol.at_nil _ _).1 hat, Path.isRoot, hroot]
    rfl
  -- every other node stores the path of the one that encloses it
  · rw [← List.dropLast_append_getLast hroot] at hat
    obtain ⟨z, hz, hchild⟩ := Symbol.at_append.1 hat
    have hempty : p.path.isRoot = false := by
      rwa [Path.isRoot, List.isEmpty_eq_false_iff]
    rw [hcoherent.parent?_of_at hz hchild, hempty]
    rfl

/-- The symbols in the slots have the names and places that they had, their `info`, in sessions that
are `Alike`. -/
theorem Alike.info (h : s.Alike s') (hx : s'.slots.get? name = some x) :
    ∃ x₀, s.slots.get? name = some x₀ ∧ x.info = x₀.info := by
  have hframe := h name
  rw [hx] at hframe
  obtain ⟨x₀, hx₀, heq⟩ := Option.map_eq_some_iff.1 hframe.symm
  exact ⟨x₀, hx₀, (Symbol.info_of_frame heq).symm⟩

theorem Clears.info {emptied : List String} (h : s.Clears emptied s')
    (hx : s'.slots.get? name = some x) : ∃ x₀, s.slots.get? name = some x₀ ∧ x.info = x₀.info := by
  rw [h name] at hx
  split at hx
  · cases hx
  · exact ⟨x, hx, rfl⟩

/-- Putting a symbol `y` where `z` of its name and place was keeps those of the symbols in slots. -/
theorem Puts.info {emptied : List String} (h : s.Puts p z y emptied s') (hinfo : y.info = z.info)
    (hx : s'.slots.get? name = some x) : ∃ x₀, s.slots.get? name = some x₀ ∧ x.info = x₀.info := by
  obtain ⟨tree, tree', htree, hdescend, hreplace, hslots⟩ := h
  rw [hslots name] at hx
  split at hx
  case isTrue heq =>
    cases hx
    exact ⟨tree, heq ▸ htree, Symbol.info_replace? hreplace hdescend hinfo⟩
  case isFalse =>
    split at hx
    · cases hx
    · exact ⟨x, hx, rfl⟩

/-- **What an operation makes of the record `displaced`** of the symbols that store a parent, by
`displacedAfter`. -/
theorem Turn.displaced {displaced : String → Bool} (h : s.Settled)
    (hd : ∀ name x, s.slots.get? name = some x → x.info.parent?.isSome = displaced name)
    (hturn : s.Turn op done s') (hx : s'.slots.get? name = some x) :
    x.info.parent?.isSome = op.displacedAfter done displaced name := by
  -- a symbol that was in the slot before says the same as before
  have hstays (hinfo : ∃ x₀, s.slots.get? name = some x₀ ∧ x.info = x₀.info) :
      x.info.parent?.isSome = displaced name := by
    obtain ⟨x₀, hx₀, heq⟩ := hinfo
    rw [heq]
    exact hd name x₀ hx₀
  -- a symbol from some place keeps the parent that it stores there
  have hmoved {p : Place} {y : Symbol} (hy : s.symbol? p = some y) (hinfo : x.info = y.info) :
      x.info.parent?.isSome = (!p.path.isRoot || displaced p.slot) := by
    obtain ⟨tree, htree, heq⟩ := h.isSome_parent? hy
    rw [hinfo, heq, hd p.slot tree htree]
  cases hturn with
  | kept hop hslots =>
    have hfails : ¬ (done = true ∧ op.fills? = some name) := by
      rintro ⟨rfl, hfills⟩
      exact absurd (hop (Operation.rearranges_of_fills hfills)) nofun
    rw [Operation.displacedAfter, if_neg hfails]
    exact hstays (hslots.info hx)
  | planted hop hz hparent hslots =>
    obtain ⟨hfills, hnone⟩ := Operation.fills_of_newSlot hop
    rw [hslots name] at hx
    split at hx
    case isTrue heq =>
      cases hx
      rw [heq, Operation.displacedAfter_of_fills hfills, hnone, hparent]
      rfl
    case isFalse hne =>
      rw [Operation.displacedAfter_of_ne (by rw [hfills]; simpa [eq_comm] using hne)]
      exact hstays ⟨x, hx, rfl⟩
  | dropped hslots =>
    rw [Operation.displacedAfter_of_ne (by nofun)]
    exact hstays (hslots.info hx)
  | entered ho hfree hc hput =>
    rw [Operation.displacedAfter_of_ne (by rw [Operation.fills_of_offer ho]; nofun)]
    obtain ⟨role, rfl⟩ := Symbol.eq_of_scope? hc
    exact hstays (hput.info rfl hx)
  | refused hslots =>
    rw [Operation.displacedAfter_of_ne (by nofun)]
    exact hstays (hslots.info hx)
  | removed hy hput =>
    rw [Operation.displacedAfter_of_ne (by nofun)]
    exact hstays (hput.info (Symbol.info_withChildren _ _) hx)
  | @extracted p k slot y c mid _ hy hput hfill =>
    rw [hfill name] at hx
    split at hx
    case isTrue heq =>
      cases hx
      -- on its way into a slot the symbol was detached
      rw [heq, Operation.displacedAfter_of_fills rfl, Symbol.info_reroot]
      rfl
    case isFalse hne =>
      rw [Operation.displacedAfter_of_ne (by rintro ⟨⟩; exact hne rfl)]
      exact hstays (hput.info (Symbol.info_withChildren _ _) hx)
  | @cloned p into y z _ hy hz hslots =>
    rw [hslots name] at hx
    split at hx
    case isTrue heq =>
      cases hx
      rw [heq, Operation.displacedAfter_of_fills rfl]
      exact hmoved hy (Symbol.info_of_frame hz)
    case isFalse hne =>
      rw [Operation.displacedAfter_of_ne (by rintro ⟨⟩; exact hne rfl)]
      exact hstays ⟨x, hx, rfl⟩
  | @taken p into o mid _ hput hfill =>
    rw [hfill name] at hx
    split at hx
    case isTrue heq =>
      cases hx
      obtain ⟨tree, -, htree, hdescend, -⟩ := hput
      rw [heq, Operation.displacedAfter_of_fills rfl]
      exact hmoved (symbol?_eq_some.2 ⟨tree, htree, hdescend⟩) rfl
    case isFalse hne =>
      rw [Operation.displacedAfter_of_ne (by rintro ⟨⟩; exact hne rfl)]
      exact hstays (hput.info rfl hx)
  | linked hinfo hchildren hnew hput =>
    rw [Operation.displacedAfter_of_ne (by nofun)]
    exact hstays (hput.info hinfo hx)
  | installed hc hinfo hchildren hnew hput =>
    rw [Operation.displacedAfter_of_ne (by nofun)]
    obtain ⟨role, rfl⟩ := Symbol.eq_of_scope? hc
    exact hstays (hput.info hinfo hx)

/-- What a `clone` or a `take` puts into a slot has the name and the place of the symbol `x` that it
was made from. -/
theorem Turn.info_of_moved {into : String} (hturn : s.Turn op true s')
    (hop : op = .clone p into ∨ op = .take p into) :
    ∃ x z, s.symbol? p = some x ∧ s'.slots.get? into = some z ∧ z.info = x.info := by
  cases hturn with
  | kept hkept =>
    have hfills : op.fills? = some into := by
      rcases hop with rfl | rfl <;> rfl
    exact absurd (hkept (Operation.rearranges_of_fills hfills)) nofun
  | planted hnew => rcases hop with rfl | rfl <;> cases hnew
  | entered ho => rcases hop with rfl | rfl <;> cases ho
  | cloned hx hz hslots =>
    rcases hop with hop | hop <;> cases hop
    exact ⟨_, _, hx, by rw [hslots, if_pos rfl], Symbol.info_of_frame hz⟩
  | taken hput hfill =>
    rcases hop with hop | hop <;> cases hop
    obtain ⟨tree, -, htree, hdescend, -⟩ := hput
    exact ⟨_, _, symbol?_eq_some.2 ⟨tree, htree, hdescend⟩, by rw [hfill, if_pos rfl], rfl⟩
  | _ => rcases hop with hop | hop <;> cases hop

end Session

/-! ## §3. Where symbols say that they are. -/

/-- A session, and which of its slots hold a symbol that was cloned or taken with a stored
parent. -/
structure Whereabouts where
  /-- The session by now. -/
  session : Session := {}
  /-- Whether the symbol in a slot stores a parent, by `displaces`. -/
  displaced : String → Bool := fun _ => false

namespace Whereabouts

/-- The record after one more operation `op`. -/
def step (h : Whereabouts) (op : Operation) : Whereabouts where
  session := (h.session.step op).2
  displaced := op.displacedAfter (h.session.succeeds op) h.displaced

/-- The record of a run of operations `ops` from the empty session. -/
def after (ops : List Operation) : Whereabouts := ops.foldl step {}

theorem after_concat (ops : List Operation) (op : Operation) :
    after (ops ++ [op]) = (after ops).step op := by
  rw [after, List.foldl_append]
  rfl

theorem session_after (ops : List Operation) : (after ops).session = Session.after ops := by
  induction ops using List.reverseRecOn with
  | nil => rfl
  | append_singleton ops op ih =>
    rw [after_concat, Session.after_concat, ← ih]
    rfl

/-- **The record `displaced` of every run is right.** -/
theorem displaced_after (ops : List Operation) (name : String) (x : Symbol)
    (hx : (after ops).session.slots.get? name = some x) :
    x.info.parent?.isSome = (after ops).displaced name := by
  induction ops using List.reverseRecOn generalizing name x with
  | nil => cases hx
  | append_singleton ops op ih =>
    rw [after_concat] at hx ⊢
    have hsettled : (after ops).session.Settled := by
      rw [session_after]
      exact Session.settled_after ops
    exact (Session.turn_step hsettled op).displaced hsettled ih hx

/-- **Which symbols are detached.** After every run the symbol in a slot stores no parent exactly if
the slot is not `displaced`: it was not last filled by a clone or a take of a symbol below another,
or of one that stores a parent itself, for those keep the stored parent of the original.  Without a
parent the path is the root path, the label is the bare name, and the path of every symbol below is
the way to it; with one they all go on from that parent. -/
theorem detached_unless_displaced (ops : List Operation) :
    let h := after ops
    (∀ name x, h.session.slots.get? name = some x →
      (x.info.parent? = none ↔ h.displaced name = false) ∧
      (x.info.parent? = none → x.info.path = .root ∧ x.info.label = x.name ∧
        ∀ ks y, x.At ks y → y.info.path = ⟨ks⟩) ∧
      ∀ q, x.info.parent? = some q → x.info.path = q.child x.name ∧
        x.info.label = (q.child x.name).display ∧
          ∀ ks y, x.At ks y → y.info.path = ⟨q.segments ++ x.name :: ks⟩) ∧
    ∀ op p into, op = .clone p into ∨ op = .take p into → h.session.succeeds op = true →
      ∃ x z, h.session.symbol? p = some x ∧
        (h.session.step op).2.slots.get? into = some z ∧ z.info = x.info := by
  intro h
  have hsettled : h.session.Settled := by
    rw [show h.session = Session.after ops from session_after ops]
    exact Session.settled_after ops
  refine ⟨fun name x hx => ?_, fun op p into hop hworks => ?_⟩
  · have hcoherent := (hsettled.slots name x hx).coherent
    have hrecord := displaced_after ops name x hx
    refine ⟨?_, fun hnone => ?_, fun q hq => ?_⟩
    · rw [← Option.isNone_iff_eq_none, ← Option.isSome_eq_false_iff, hrecord]
    · have hpath : x.info.path = .root := by rw [Info.path, hnone]
      refine ⟨hpath, by rw [Info.label, hnone, Symbol.name], fun ks y hy => ?_⟩
      rw [hcoherent.path_of_at hy, hpath]
      rfl
    · have hpath : x.info.path = q.child x.name := by rw [Info.path, hq, Symbol.name]
      refine ⟨hpath, by rw [Info.label, hq, Symbol.name], fun ks y hy => ?_⟩
      rw [hcoherent.path_of_at hy, hpath, Path.child, List.append_assoc, List.singleton_append]
  · have hturn := Session.turn_step hsettled op
    rw [hworks] at hturn
    exact hturn.info_of_moved hop

/-- A run that clones a scope below another into the slot `copy`, and removes it afterwards into the
slot `loose`. -/
def cloning : List Operation :=
  [.newScope "root" "root" "" .matchingNames, .addScope ⟨"root", .root⟩ "a" "",
    .addScope ⟨"root", ⟨["a"]⟩⟩ "b" "", .addScalar ⟨"root", ⟨["a", "b"]⟩⟩ "x" "" (.bool true),
    .clone ⟨"root", ⟨["a", "b"]⟩⟩ "copy", .remove ⟨"root", ⟨["a"]⟩⟩ "b" (some "loose")]

/-- In the run `cloning` the symbol that was removed is detached, the clone is not. -/
theorem detached_unless_displaced_cloning :
    (∃ x, (after cloning).session.slots.get? "loose" = some x ∧ x.info.path = .root) ∧
      ∃ x, (after cloning).session.slots.get? "copy" = some x ∧ x.info.parent? ≠ none := by
  have hslot (name : String) (h : ((after cloning).session.slots.get? name).isSome = true) :
      ∃ x, (after cloning).session.slots.get? name = some x := Option.isSome_iff_exists.1 h
  obtain ⟨x, hx⟩ := hslot "loose" (by decide +kernel)
  obtain ⟨z, hz⟩ := hslot "copy" (by decide +kernel)
  obtain ⟨hrecord, hdetached, -⟩ := (detached_unless_displaced cloning).1 "loose" x hx
  obtain ⟨hrecord', -, -⟩ := (detached_unless_displaced cloning).1 "copy" z hz
  have hloose : (after cloning).displaced "loose" = false := by decide +kernel
  have hcopy : (after cloning).displaced "copy" = true := by decide +kernel
  refine ⟨⟨x, hx, (hdetached (hrecord.2 hloose)).1⟩, z, hz, fun hnone => ?_⟩
  rw [hrecord'.1 hnone] at hcopy
  cases hcopy

end Whereabouts

/-- **A clone is not always detached**: in the run `cloning` that of a symbol below a root stores
the parent of the original. -/
theorem Session.clone_keeps_parent :
    ¬ ∀ ops name x, (after ops).slots.get? name = some x →
      x.info.parent? = none ∧ x.info.path = .root ∧ x.info.label = x.name ∧
        ∀ ks y, x.At ks y → y.info.path = ⟨ks⟩ := by
  intro h
  have hparent : ((after Whereabouts.cloning).slots.get? "copy").map (·.info.parent?) =
      some (some ⟨["a"]⟩) := by decide +kernel
  obtain ⟨x, hx, hstored⟩ := Option.map_eq_some_iff.1 hparent
  obtain ⟨hnone, -⟩ := h Whereabouts.cloning "copy" x hx
  rw [hnone] at hstored
  cases hstored

end ConfigTree
