import ConfigTree.Native.Capabilities

/-!
# Host records

The simplest objects a host can bind: a record with one field of every storage type.  The kinds of
record share this layout and differ only in how they are described, copied and duplicated.  A record
also counts the copies that were made into it.
-/

namespace ConfigTree

/-! ## §1. Kinds and fields. -/

/-- The kinds of host record. -/
inductive RecordKind where
  /-- Copied and duplicated in the plain way. -/
  | counter
  /-- Cannot be duplicated. -/
  | socket
  /-- Copied by a custom strategy, and only in part. -/
  | genome
  /-- Refuses to be copied into. -/
  | refuser
  /-- Has a custom strategy that refuses every copy, and cannot be duplicated. -/
  | vetoer
  /-- Duplicates into a handle that owns nothing. -/
  | leaky
  /-- Another kind under the name of the counters. -/
  | mimic
  /-- Does not tell its type. -/
  | ghost
deriving DecidableEq, Repr

/-- One field of every storage type. -/
structure Fields where
  /-- The field that holds a truth value. -/
  bool : Bool := false
  /-- The field of type `int32`. -/
  int32 : Word .int32 := .zero
  /-- The field of type `int64`. -/
  int64 : Word .int64 := .zero
  /-- The field of type `uint32`. -/
  uint32 : Word .uint32 := .zero
  /-- The field of type `uint64`. -/
  uint64 : Word .uint64 := .zero
  /-- The field that holds a size. -/
  size : Word .size := .zero
  /-- The field of four bytes. -/
  single : Single := .zero
  /-- The field of eight bytes. -/
  double : Double := .zero
  /-- The field that holds a text. -/
  string : String := ""
deriving DecidableEq, Repr

namespace Fields

/-- The field of type `t`. -/
def get (f : Fields) : (t : StorageType) → t.Raw
  | .bool => f.bool
  | .int .int32 => f.int32
  | .int .int64 => f.int64
  | .int .uint32 => f.uint32
  | .int .uint64 => f.uint64
  | .int .size => f.size
  | .single => f.single
  | .double => f.double
  | .string => f.string

/-- The fields after the one of a type is written. -/
def set (f : Fields) : (t : StorageType) → t.Raw → Fields
  | .bool, x => { f with bool := x }
  | .int .int32, x => { f with int32 := x }
  | .int .int64, x => { f with int64 := x }
  | .int .uint32, x => { f with uint32 := x }
  | .int .uint64, x => { f with uint64 := x }
  | .int .size, x => { f with size := x }
  | .single, x => { f with single := x }
  | .double, x => { f with double := x }
  | .string, x => { f with string := x }

@[simp] theorem get_set (f : Fields) (t : StorageType) (x : t.Raw) : (f.set t x).get t = x := by
  rcases t with _ | (_ | _ | _ | _ | _) | _ | _ | _ <;> rfl

@[simp] theorem set_get (f : Fields) (t : StorageType) : f.set t (f.get t) = f := by
  rcases t with _ | (_ | _ | _ | _ | _) | _ | _ | _ <;> rfl

theorem get_set_of_ne (f : Fields) {t u : StorageType} (h : u ≠ t) (x : t.Raw) :
    (f.set t x).get u = f.get u := by
  rcases t with _ | (_ | _ | _ | _ | _) | _ | _ | _ <;>
    rcases u with _ | (_ | _ | _ | _ | _) | _ | _ | _ <;> first | rfl | exact absurd rfl h

/-- Records that show the same by `get` for every type have the same fields. -/
theorem eq_of_get {f g : Fields} (h : ∀ t, f.get t = g.get t) : f = g := by
  cases f
  cases g
  rw [Fields.mk.injEq]
  exact ⟨h .bool, h (.int .int32), h (.int .int64), h (.int .uint32), h (.int .uint64),
    h (.int .size), h .single, h .double, h .string⟩

end Fields

/-- A host record. -/
structure Record where
  /-- What the host calls it. -/
  id : String
  /-- Its fields. -/
  fields : Fields := {}
  /-- How often it was copied into in the default way. -/
  defaultCopies : Nat := 0
  /-- How often it was copied into by a custom strategy. -/
  customCopies : Nat := 0
deriving DecidableEq, Repr

namespace Record

/-! ## §2. What records can do. -/

/-- The record after `source` is copied into it in the default way. -/
def copyDefault (source r : Record) : Record :=
  { r with fields := source.fields, defaultCopies := r.defaultCopies + 1 }

/-- The record after the sequence and the label of `source` are copied into it. -/
def copyGenome (source r : Record) : Record :=
  { r with
    fields := { r.fields with int64 := source.fields.int64, string := source.fields.string }
    customCopies := r.customCopies + 1 }

/-- A record of its own with the fields of `r`. -/
def renewed (r : Record) : Record := { id := r.id ++ "'", fields := r.fields }

end Record

namespace RecordKind

/-- The name that a kind of record is registered under. -/
def registeredName : RecordKind → String
  | counter | mimic => "Counter"
  | socket => "Socket"
  | genome => "Genome"
  | refuser => "Refuser"
  | vetoer => "Vetoer"
  | leaky => "Leaky"
  | ghost => "Ghost"

/-- What records of a `kind` can do. -/
def capabilities (kind : RecordKind) : Capabilities Record where
  name := kind.registeredName
  descriptor := match kind with
    | genome => (Descriptor.named kind.registeredName).withStrategy .genome
    | vetoer => (Descriptor.named kind.registeredName).withStrategy .refusal
    | ghost => .void
    | _ => .named kind.registeredName
  watchedId? r := some r.id
  hasField
    | .record _ => true
    | _ => false
  get? r
    | .record t => some (r.fields.get t)
    | _ => none
  set? r
    | .record t, x => some { r with fields := r.fields.set t x }
    | _, _ => none
  copyDefault? source := if kind = refuser then none else some source.copyDefault
  copyCustom?
    | .genome, source => if kind = genome then some source.copyGenome else none
    | _, _ => none
  duplicate r := match kind with
    | socket | vetoer => .unsupported
    | leaky => .unowned
    | _ => .fresh r.renewed

end RecordKind

namespace Record

/-! ## §3. What records promise. -/

/-- The record `r` with nothing in its fields. -/
def bare (r : Record) : Record := { r with fields := {} }

/-- The record `r` without its name and the copies that it has counted. -/
def content (r : Record) : Record := { id := "", fields := r.fields }

/-- The record `r` without the copies that it has counted. -/
def uncounted (r : Record) : Record := { r with defaultCopies := 0, customCopies := 0 }

variable {kind : RecordKind} {a b source : Record} {f g : FieldName}

theorem get?_set?_of_ne {x : f.type.Raw} (h : kind.capabilities.set? a f x = some b)
    (hne : g ≠ f) : kind.capabilities.get? b g = kind.capabilities.get? a g := by
  cases f with
  | record t =>
    cases h
    cases g with
    | record u =>
      have hu : u ≠ t := fun heq => hne (congrArg FieldName.record heq)
      exact congrArg some (a.fields.get_set_of_ne hu x)
    | _ => rfl
  | _ => cases h

theorem eq_of_get? (h : ∀ f, kind.capabilities.get? a f = kind.capabilities.get? b f) :
    a.fields = b.fields :=
  Fields.eq_of_get fun t => Option.some.inj (h (.record t))

/-- Of the fields `copyGenome` overwrites the sequence and the label, and leaves the others
alone. -/
theorem get?_copyGenome (source : Record) (f : FieldName) :
    Oblivious (fun _ => True) (fun a => kind.capabilities.get? a f) source.copyGenome := by
  by_cases hf : f = .record (.int .int64) ∨ f = .record .string
  · refine .inr ⟨kind.capabilities.get? source f, fun a _ => ?_⟩
    rcases hf with rfl | rfl <;> rfl
  · refine .inl fun a _ => ?_
    rcases f with (_ | (_ | _ | _ | _ | _) | _ | _ | _) | _ | _ | _ | _ <;>
      first | rfl | exact absurd (by simp) hf

/-- Records keep the `Contract`: beside its fields a record has its name, which no copy changes. -/
def contract (kind : RecordKind) : Contract kind.capabilities where
  bare := bare
  content := content
  uncounted := uncounted
  Part := Unit
  Look _ := String
  part _ r := r.id
  isSome_get? a f := by cases f <;> rfl
  isSome_set? a f x := by cases f <;> rfl
  get?_set? {a b f x} h := by
    cases f with
    | record t =>
      cases h
      exact congrArg some (a.fields.get_set t x)
    | _ => cases h
  set?_get? {a f x} h := by
    cases f with
    | record t =>
      cases h
      show some { a with fields := a.fields.set t (a.fields.get t) } = some a
      rw [Fields.set_get]
    | _ => cases h
  get?_set?_of_ne := get?_set?_of_ne
  bare_set? {a b f x} h := by
    cases f <;> cases h
    rfl
  eq_of_bare {a b} hbare hfields := by
    have hget := eq_of_get? hfields
    cases a
    cases b
    simp_all [bare]
  part_set? {a b f x} _ h := by
    cases f <;> cases h
    rfl
  eq_of_parts {a b} hfields hparts := by
    have hid : a.id = b.id := hparts ()
    rw [uncounted, uncounted, eq_of_get? hfields, hid]
  get?_copyDefault? {source change} h a f := by
    obtain ⟨-, h⟩ := Option.ite_none_left_eq_some.1 h
    cases h
    cases f <;> rfl
  part_copyDefault? {source change} _ h := by
    obtain ⟨-, h⟩ := Option.ite_none_left_eq_some.1 h
    cases h
    exact .inl fun _ _ => rfl
  get?_copyCustom? {s source change} f h := by
    cases s with
    | genome =>
      obtain ⟨-, h⟩ := Option.ite_none_right_eq_some.1 h
      cases h
      exact get?_copyGenome source f
    | _ => cases h
  part_copyCustom? {s source change} _ h := by
    cases s with
    | genome =>
      obtain ⟨-, h⟩ := Option.ite_none_right_eq_some.1 h
      cases h
      exact .inl fun _ _ => rfl
    | _ => cases h
  content_duplicate {a b} h := by cases kind <;> cases h <;> rfl
  get?_content a f := by cases f <;> rfl

end Record

end ConfigTree
