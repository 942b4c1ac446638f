import ConfigTree.Native.Modules
import ConfigTree.Native.Record

/-!
# Native objects

The objects that can be bound into a tree.  A native object is a type that the host registered with
the data of one object of it, and whatever it does, it does by the capabilities of its type.  The
types are listed in one place, each with its capabilities and the contract that it keeps; everything
else about native objects is said in terms of these two.

A copy returns the changed object, or nothing if it was refused; a refused copy cannot have touched
anything.
-/

namespace ConfigTree

/-! ## §1. Types and fields. -/

/-- The types of native objects. -/
inductive NativeType where
  /-- A kind of host record. -/
  | record (kind : RecordKind)
  /-- The elite selection module. -/
  | elite
  /-- A kind of organism. -/
  | organism
deriving DecidableEq, Repr

namespace NativeType

/-- What an object of type `t` consists of. -/
abbrev Data : NativeType → Type
  | record _ => Record
  | elite => EliteSelection
  | organism => Organism

instance : (t : NativeType) → DecidableEq t.Data
  | record _ => inferInstanceAs (DecidableEq Record)
  | elite => inferInstanceAs (DecidableEq EliteSelection)
  | organism => inferInstanceAs (DecidableEq Organism)

instance : (t : NativeType) → Repr t.Data
  | record _ => inferInstanceAs (Repr Record)
  | elite => inferInstanceAs (Repr EliteSelection)
  | organism => inferInstanceAs (Repr Organism)

/-- What objects of type `t` can do. -/
def capabilities : (t : NativeType) → Capabilities t.Data
  | record kind => kind.capabilities
  | elite => EliteSelection.capabilities
  | organism => Organism.capabilities

/-- What objects of type `t` promise. -/
def contract : (t : NativeType) → Contract t.capabilities
  | record kind => Record.contract kind
  | elite => EliteSelection.contract
  | organism => Organism.contract

/-- The name that the type `t` is registered under. -/
def registeredName (t : NativeType) : String := t.capabilities.name

/-- The descriptor that objects of type `t` give of themselves. -/
def descriptor (t : NativeType) : Descriptor := t.capabilities.descriptor

/-- Whether objects of type `t` have the field `f`. -/
def hasField (t : NativeType) (f : FieldName) : Bool := t.capabilities.hasField f

end NativeType

/-- A field of a type that has it. -/
structure Field where
  /-- The type of the objects. -/
  owner : NativeType
  /-- The name of the field. -/
  name : FieldName
  /-- Objects of the type have the field. -/
  valid : owner.hasField name = true
deriving DecidableEq, Repr

namespace Field

/-- The type of what the field `f` holds. -/
abbrev type (f : Field) : StorageType := f.name.type

/-- The field `name` of the type `owner`, if there is one. -/
def of? (owner : NativeType) (name : FieldName) : Option Field :=
  if h : owner.hasField name = true then some ⟨owner, name, h⟩ else none

end Field

/-! ## §2. Objects. -/

/-- A native object. -/
structure Native where
  /-- The type of the object. -/
  type : NativeType
  /-- What the object consists of. -/
  data : type.Data
deriving DecidableEq, Repr

namespace Native

/-- A host record of the given `kind`. -/
@[match_pattern] abbrev record (kind : RecordKind) (r : Record) : Native := ⟨.record kind, r⟩

/-- An elite selection module. -/
@[match_pattern] abbrev elite (m : EliteSelection) : Native := ⟨.elite, m⟩

/-- A kind of organism. -/
@[match_pattern] abbrev organism (o : Organism) : Native := ⟨.organism, o⟩

/-- What the object `n` says of its type. -/
def describe (n : Native) : Descriptor := n.type.descriptor

/-- What the host is told when `n` is destroyed, if it watches the type. -/
def watchedId? (n : Native) : Option String := n.type.capabilities.watchedId? n.data

/-- The content of the field `f`, if `n` has it. -/
def get? (n : Native) (f : FieldName) : Option f.type.Raw := n.type.capabilities.get? n.data f

/-- The object after `x` is written to its field `f`, if it has it. -/
def set? (n : Native) (f : FieldName) (x : f.type.Raw) : Option Native :=
  (n.type.capabilities.set? n.data f x).map (mk n.type)

/-! ## §3. Copying and duplicating. -/

/-- The object `dst` after its type copies `src` into it by `copy`; nothing if `src` is of another
type, or the copy is refused. -/
def copyWith? (copy : (t : NativeType) → t.Data → Option (t.Data → t.Data)) (dst src : Native) :
    Option Native :=
  if h : src.type = dst.type then
    (copy dst.type (h ▸ src.data)).map fun change => ⟨dst.type, change dst.data⟩
  else none

/-- The object `dst` after `src` is copied into it in the default way, unless that is refused. -/
def copyDefault? (dst src : Native) : Option Native :=
  copyWith? (fun t => t.capabilities.copyDefault?) dst src

/-- The object `dst` after the custom strategy `s` copies `src` into it, unless that is refused. -/
def copyCustom? (s : CopyStrategy) (dst src : Native) : Option Native :=
  copyWith? (fun t => t.capabilities.copyCustom? s) dst src

/-- The object `dst` after `src` is copied into it as the descriptor `d` of `dst` demands. -/
def copyAs? (d : Descriptor) (dst src : Native) : Option Native :=
  match d.strategy? with
  | some s => copyCustom? s dst src
  | none => copyDefault? dst src

/-- What duplicating `n` yields. -/
def duplicate (n : Native) : Duplicate Native :=
  (n.type.capabilities.duplicate n.data).map (mk n.type)

/-! ## §4. Small laws. -/

variable {n m : Native} {f g : FieldName} {x : f.type.Raw}

/-- A write to a field is one that the type knows of. -/
theorem set?_eq_some : n.set? f x = some m ↔
    ∃ b, n.type.capabilities.set? n.data f x = some b ∧ m = ⟨n.type, b⟩ := by
  rw [set?, Option.map_eq_some_iff]
  exact exists_congr fun b => and_congr_right fun _ => eq_comm

theorem type_set? (h : n.set? f x = some m) : m.type = n.type := by
  obtain ⟨b, -, rfl⟩ := set?_eq_some.1 h
  rfl

theorem get?_set? (h : n.set? f x = some m) : m.get? f = some x := by
  obtain ⟨b, hb, rfl⟩ := set?_eq_some.1 h
  exact n.type.contract.get?_set? hb

theorem set?_get? (h : n.get? f = some x) : n.set? f x = some n :=
  set?_eq_some.2 ⟨n.data, n.type.contract.set?_get? h, rfl⟩

theorem get?_set?_of_ne (h : n.set? f x = some m) (hne : g ≠ f) : m.get? g = n.get? g := by
  obtain ⟨b, hb, rfl⟩ := set?_eq_some.1 h
  exact n.type.contract.get?_set?_of_ne hb hne

theorem isSome_get? (n : Native) (f : FieldName) : (n.get? f).isSome = n.type.hasField f :=
  n.type.contract.isSome_get? n.data f

theorem isSome_set? (n : Native) (f : FieldName) (x : f.type.Raw) :
    (n.set? f x).isSome = n.type.hasField f := by
  rw [set?, Option.isSome_map]
  exact n.type.contract.isSome_set? n.data f x

/-- **A copy is between objects of one type**, and it is one that the type knows of. -/
theorem copyWith?_eq_some {copy : (t : NativeType) → t.Data → Option (t.Data → t.Data)}
    {a b : Native} : copyWith? copy a b = some m ↔
      ∃ t dst src change, a = ⟨t, dst⟩ ∧ b = ⟨t, src⟩ ∧ copy t src = some change ∧
        m = ⟨t, change dst⟩ := by
  obtain ⟨t, dst⟩ := a
  obtain ⟨u, src⟩ := b
  unfold copyWith?
  constructor
  · intro h
    split at h
    · rename_i htype
      cases htype
      obtain ⟨change, hchange, rfl⟩ := Option.map_eq_some_iff.1 h
      exact ⟨_, dst, src, change, rfl, rfl, hchange, rfl⟩
    · cases h
  · rintro ⟨v, dst', src', change, ⟨⟩, ⟨⟩, hchange, rfl⟩
    rw [dif_pos rfl]
    exact Option.map_eq_some_iff.2 ⟨change, hchange, rfl⟩

/-- A copy leaves the type of the target as it is. -/
theorem type_copyWith? {copy : (t : NativeType) → t.Data → Option (t.Data → t.Data)} {a b : Native}
    (h : copyWith? copy a b = some m) : m.type = a.type := by
  obtain ⟨t, dst, src, change, rfl, -, -, rfl⟩ := copyWith?_eq_some.1 h
  rfl

/-- Whether a copy is refused is seen from the type of the target. -/
theorem isSome_copyWith?_of_type {copy : (t : NativeType) → t.Data → Option (t.Data → t.Data)}
    {a a' : Native} (h : a'.type = a.type) (b : Native) :
    (copyWith? copy a' b).isSome = (copyWith? copy a b).isSome := by
  obtain ⟨t, dst⟩ := a
  obtain ⟨u, dst'⟩ := a'
  cases h
  unfold copyWith?
  split
  · rw [Option.isSome_map, Option.isSome_map]
  · rfl

/-- A duplicate is one that the type knows of. -/
theorem duplicate_eq_fresh :
    n.duplicate = .fresh m ↔ ∃ b, n.type.capabilities.duplicate n.data = .fresh b ∧
      m = ⟨n.type, b⟩ := by
  unfold duplicate
  cases n.type.capabilities.duplicate n.data with
  | unsupported | unowned => simp [Duplicate.map]
  | fresh b => simp [Duplicate.map, eq_comm]

end Native

end ConfigTree
