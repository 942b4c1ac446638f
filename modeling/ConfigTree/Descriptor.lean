import ConfigTree.Text.Dump
import ConfigTree.TypeHash

/-!
# Type descriptors

What is known of an object's type at run time: its identity, its registered name, and how its values
are copied if not in the default way.  Only the identity decides whether two types fit, and the void
type fits nothing, itself included.
-/

namespace ConfigTree

/-- The custom ways to copy one object into another. -/
inductive CopyStrategy where
  /-- Copies the sequence and the label of a genome and nothing else. -/
  | genome
  /-- Copies the variables of an organism and keeps its name. -/
  | variables
  /-- Refuses every copy. -/
  | refusal
deriving DecidableEq, Repr

/-- The type of an object at run time. -/
structure Descriptor where
  /-- The identity of the type. -/
  hash : TypeHash
  /-- The name it is registered under. -/
  name : String
  /-- The custom way to copy, if there is one. -/
  strategy? : Option CopyStrategy := none
deriving DecidableEq, Repr

namespace Descriptor

/-- The type registered under `name`. -/
def named (name : String) : Descriptor := ⟨.ofName name, name, none⟩

/-- The type of what has none. -/
def void : Descriptor := ⟨.empty, "void", none⟩

/-- The type `d` with the custom way `s` to copy. -/
def withStrategy (d : Descriptor) (s : CopyStrategy) : Descriptor := { d with strategy? := some s }

/-- Whether `d` has the identity of `void`. -/
def isVoid (d : Descriptor) : Bool := d.hash.isEmpty

/-- Whether the descriptors `a` and `b` have one identity. -/
def same (a b : Descriptor) : Bool := a.hash == b.hash

/-- Whether objects described by `src` may be copied into objects described by `dst`. -/
def accepts (dst src : Descriptor) : Bool := !dst.isVoid && dst.same src

/-- The descriptor `d` as a dump shows it. -/
def dump (d : Descriptor) : String :=
  Text.Dump.record "TypeDescriptor"
    [⟨"name", Text.quote d.name⟩, ⟨"hash", d.hash.dump⟩,
      ⟨"custom_copy", Text.Dump.flag d.strategy?.isSome⟩]

end Descriptor

end ConfigTree
