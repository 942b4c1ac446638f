import ConfigTree.Value

/-!
# Errors

Why an operation on the tree fails.  An `AccessError` says why linked storage could not be read or
written; a `SymbolError` is what the author of a configuration is told.  Each cause is a constructor
that names the parties, and the wording stands in the two `message` functions only.
-/

namespace ConfigTree

/-- Why storage behind a `Link` could not be read or written. -/
inductive AccessError where
  /-- The linked object is not of the type that the link expects. -/
  | typeMismatch (expected actual : String)
  /-- A value does not fit the storage, or what is stored fits no value. -/
  | conversion (value : String) (kind : Value.Kind)
  /-- The linked object has been destroyed. -/
  | dangling
  /-- The lock of the storage is poisoned. -/
  | lockFailed
deriving DecidableEq, Repr

/-- Why an operation on a `Symbol` fails. -/
inductive SymbolError where
  /-- The scope already has a child of this name. -/
  | nameCollision (scope name : String)
  /-- No path can spell the name. -/
  | invalidName (scope name : String)
  /-- The source of an assignment is not what its target needs. -/
  | typeMismatch (target origin expected : String)
  /-- Both sides are objects, of types that do not fit. -/
  | incompatibleNativeType (target origin targetType originType : String)
  /-- The object symbol has no live object. -/
  | unbound (name : String)
  /-- The copy between two objects was refused. -/
  | copyRejected (target origin : String)
  /-- The owned object cannot be duplicated. -/
  | cloneUnsupported (name typeName : String)
  /-- Only one of two scopes has this entry, though their shapes must agree. -/
  | shapeMismatch (target origin entry : String)
  /-- The value does not convert to the kind of the scalar. -/
  | conversion (target value : String) (kind : Value.Kind)
  /-- The path leads to no symbol. -/
  | notFound (path : String)
  /-- One side of the assignment contains the other. -/
  | overlappingAssignment (target origin : String)
  /-- The function takes another number of arguments. -/
  | arityMismatch (name : String) (expected actual : Nat)
  /-- Linked storage failed. -/
  | access (name : String) (error : AccessError)
deriving DecidableEq, Repr

/-- The text of an `AccessError`. -/
def AccessError.message : AccessError → String
  | typeMismatch expected actual => s!"type mismatch: expected {expected}, got {actual}"
  | conversion value kind => s!"cannot convert '{value}' to {kind.name}"
  | dangling => "linked object has been dropped"
  | lockFailed => "failed to acquire lock"

namespace SymbolError

/-- The text of a `SymbolError`. -/
def message : SymbolError → String
  | nameCollision scope name =>
    s!"name collision: '{name}' is already defined in scope '{scope}'"
  | invalidName scope name =>
    s!"invalid name '{name}' in scope '{scope}': names must be non-empty and contain no '.'"
  | typeMismatch target origin expected =>
    s!"trying to assign '{origin}' to '{target}', but '{origin}' is not {expected}"
  | incompatibleNativeType target origin targetType originType =>
    s!"trying to assign '{origin}' ({originType}) to '{target}' ({targetType}): " ++
      "incompatible object types"
  | unbound name => s!"object '{name}' is not bound to a native object"
  | copyRejected target origin => s!"native copy from '{origin}' to '{target}' was rejected"
  | cloneUnsupported name typeName =>
    s!"cannot clone '{name}': native type {typeName} does not support cloning"
  | shapeMismatch target origin entry =>
    s!"cannot copy '{origin}' into '{target}': entry '{entry}' exists on only one side"
  | conversion target value kind => s!"cannot assign '{value}' to '{target}': expected {kind.name}"
  | notFound path => s!"unknown symbol '{path}'"
  | overlappingAssignment target origin =>
    s!"cannot assign '{origin}' to '{target}': one contains the other"
  | arityMismatch name expected actual =>
    s!"function '{name}' expects {expected} argument(s), got {actual}"
  | access name error => s!"cannot access '{name}': {error.message}"

/-- Whether the error is a `nameCollision`. -/
def isNameCollision : SymbolError → Bool
  | nameCollision .. => true
  | _ => false

/-- Whether the error is a `typeMismatch` of two symbols. -/
def isTypeMismatch : SymbolError → Bool
  | typeMismatch .. => true
  | _ => false

/-- Whether the error is an `incompatibleNativeType`. -/
def isIncompatibleNativeType : SymbolError → Bool
  | incompatibleNativeType .. => true
  | _ => false

end SymbolError

end ConfigTree
