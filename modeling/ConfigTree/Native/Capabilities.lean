import ConfigTree.Descriptor
import ConfigTree.StorageType

/-!
# What native objects can do

A host type takes part in copies, clones and links through its `Capabilities` and through nothing
else: how its objects describe themselves, which fields they show to links, how one of them is
copied into another, and what duplicating one yields.  `Contract` is what the types promise of these
operations.  Whatever is proved of native objects is proved from the contract, for any type that
keeps it.

The promises on copies are those that a copy strategy makes: a copy that is refused leaves the
target as it was, which holds here by the type of `Capabilities.copyCustom?`, and a copy that is
applied twice does no harm, since it leaves each part of the target alone or overwrites it
(`Oblivious`).
-/

namespace ConfigTree

/-! ## §1. Fields and duplicates. -/

/-- The fields that objects can show. -/
inductive FieldName where
  /-- The field of a record that has type `t`. -/
  | record (t : StorageType)
  /-- The trait to select on. -/
  | fitnessTrait
  /-- How many organisms to select. -/
  | topCount
  /-- How many copies to make. -/
  | copyCount
  /-- Which population to select from. -/
  | popId
deriving DecidableEq, Repr

/-- The type of the field `f`. -/
abbrev FieldName.type : FieldName → StorageType
  | record t => t
  | fitnessTrait => .string
  | topCount | copyCount => .int .size
  | popId => .int .int32

/-- What duplicating an object of type `α` yields. -/
inductive Duplicate (α : Type) where
  /-- Nothing: the type cannot be duplicated. -/
  | unsupported
  /-- A handle that owns nothing. -/
  | unowned
  /-- An object `copy` of its own. -/
  | fresh (copy : α)
deriving DecidableEq, Repr

/-- The duplicate with its object changed by `f`. -/
def Duplicate.map {α β : Type} (f : α → β) : Duplicate α → Duplicate β
  | unsupported => .unsupported
  | unowned => .unowned
  | fresh copy => .fresh (f copy)

/-! ## §2. Capabilities. -/

/-- What host objects of type `α` can do. -/
structure Capabilities (α : Type) where
  /-- The name that the type is registered under. -/
  name : String
  /-- What objects say of their type, throughout their lives. -/
  descriptor : Descriptor
  /-- What the host is told when an object is destroyed, if it watches the type. -/
  watchedId? : α → Option String
  /-- Whether objects have the field `f`. -/
  hasField : (f : FieldName) → Bool
  /-- The content of the field `f`, if the object has it. -/
  get? : α → (f : FieldName) → Option f.type.Raw
  /-- The object after the field `f` is written, if it has it. -/
  set? : α → (f : FieldName) → f.type.Raw → Option α
  /-- What copying an object in the default way makes of the target, unless it is refused. -/
  copyDefault? : α → Option (α → α)
  /-- What a custom strategy that copies an object makes of the target, unless it is refused. -/
  copyCustom? : CopyStrategy → α → Option (α → α)
  /-- What duplicating an object yields. -/
  duplicate : α → Duplicate α

/-! ## §3. The contract. -/

/-- The change `f` leaves a `part` of everything that satisfies `P` alone, or puts the same there
whatever there was. -/
def Oblivious {α β : Type} (P : α → Prop) (part : α → β) (f : α → α) : Prop :=
  (∀ a, P a → part (f a) = part a) ∨ ∃ b, ∀ a, P a → part (f a) = b

/-- What a host type promises of its capabilities `c`.  An object is made of its fields, of some
other parts, and of the copies that it has counted. -/
structure Contract {α : Type} (c : Capabilities α) where
  /-- The object with nothing in its fields. -/
  bare : α → α
  /-- The object without what tells it from its duplicates. -/
  content : α → α
  /-- The object without the copies that it has counted. -/
  uncounted : α → α
  /-- What there is to an object beside its fields and the copies that it has counted. -/
  Part : Type
  /-- What a part is made of. -/
  Look : Part → Type
  /-- The part `i` of an object. -/
  part : (i : Part) → α → Look i
  /-- All objects show the same fields. -/
  isSome_get? : ∀ a f, (c.get? a f).isSome = c.hasField f
  /-- What can be shown can be written. -/
  isSome_set? : ∀ a f x, (c.set? a f x).isSome = c.hasField f
  /-- What was written is shown. -/
  get?_set? : ∀ {a b f x}, c.set? a f x = some b → c.get? b f = some x
  /-- Writing what is shown changes nothing. -/
  set?_get? : ∀ {a f x}, c.get? a f = some x → c.set? a f x = some a
  /-- Writing one field leaves the others as they are. -/
  get?_set?_of_ne : ∀ {a b f g x}, c.set? a f x = some b → g ≠ f → c.get? b g = c.get? a g
  /-- Writing a field changes nothing but fields. -/
  bare_set? : ∀ {a b f x}, c.set? a f x = some b → bare b = bare a
  /-- An object is what is in its fields and what is not. -/
  eq_of_bare : ∀ {a b}, bare a = bare b → (∀ f, c.get? a f = c.get? b f) → a = b
  /-- Writing a field changes no other part. -/
  part_set? : ∀ {a b f x} i, c.set? a f x = some b → part i b = part i a
  /-- The parts of an object are all there is to it but the copies that it has counted. -/
  eq_of_parts : ∀ {a b}, (∀ f, c.get? a f = c.get? b f) → (∀ i, part i a = part i b) →
    uncounted a = uncounted b
  /-- A default copy takes over every field. -/
  get?_copyDefault? : ∀ {source change}, c.copyDefault? source = some change →
    ∀ a f, c.get? (change a) f = c.get? source f
  /-- A default copy overwrites the other parts or leaves them alone. -/
  part_copyDefault? : ∀ {source change} i, c.copyDefault? source = some change →
    Oblivious (fun _ => True) (part i) change
  /-- A custom copy overwrites fields or leaves them alone. -/
  get?_copyCustom? : ∀ {s source change} f, c.copyCustom? s source = some change →
    Oblivious (fun _ => True) (fun a => c.get? a f) change
  /-- A custom copy overwrites the other parts or leaves them alone. -/
  part_copyCustom? : ∀ {s source change} i, c.copyCustom? s source = some change →
    Oblivious (fun _ => True) (part i) change
  /-- A duplicate has the content of the original. -/
  content_duplicate : ∀ {a b}, c.duplicate a = .fresh b → content b = content a
  /-- The fields are part of the content. -/
  get?_content : ∀ a f, c.get? (content a) f = c.get? a f

end ConfigTree
