import ConfigTree.Literal
import ConfigTree.Session.Basic

/-!
# Operations of a session

What a host can ask of a session, and what it is answered.  Operations name slots, hosts and cells
by their names and symbols by their places; whatever is stored comes as a literal where the type of
the storage is known only to the session.
-/

namespace ConfigTree

/-! ## §1. Operations. -/

/-- Where the object of a new object symbol comes from. -/
inductive Origin where
  /-- It is new and belongs to the symbol. -/
  | own (n : Native)
  /-- It is an object of the host. -/
  | host (name : String)
  /-- It is the object that another symbol has. -/
  | boundAt (p : Place)

/-- What a host can ask of a `Session`. -/
inductive Operation where
  /-- Puts an empty scope into a slot. -/
  | newScope (slot name description : String) (policy : CopyPolicy)
  /-- Puts a scalar with its own value into a slot. -/
  | newScalar (slot name description : String) (v : Value)
  /-- Puts a scalar on a cell into a slot. -/
  | newLinked (slot name description cell : String)
  /-- Puts a function into a slot. -/
  | newFunction (slot name description : String) (c : Callable) (arity? : Option Nat)
  /-- Puts an object symbol into a slot. -/
  | newObject (slot name description : String) (origin? : Option Origin)
  /-- Drops what is in a slot. -/
  | dropSlot (slot : String)
  /-- Registers an empty scope. -/
  | addScope (scope : Place) (name description : String)
  /-- Registers a scalar with its own value. -/
  | addScalar (scope : Place) (name description : String) (v : Value)
  /-- Registers a function. -/
  | addFunction (scope : Place) (name description : String) (c : Callable) (arity? : Option Nat)
  /-- Registers an object symbol. -/
  | addObject (scope : Place) (name description : String) (origin? : Option Origin)
  /-- Registers a scalar on a cell. -/
  | linkCell (scope : Place) (name description cell : String) (default : Literal)
  /-- Registers a scalar on a field of a bound object. -/
  | linkField (object : Place) (name description : String) (f : Field) (default : f.type.Raw)
  /-- Moves a symbol out of a slot into a scope. -/
  | insert (source : String) (scope : Place)
  /-- Moves a symbol out of a scope into a slot, or drops it. -/
  | remove (scope : Place) (name : String) (into? : Option String)
  /-- Changes how a scope is copied into. -/
  | setPolicy (scope : Place) (policy : CopyPolicy)
  /-- Looks for a child. -/
  | lookup (scope : Place) (name : String)
  /-- Looks for the symbol and the scope at a path. -/
  | resolve (scope : Place) (path : Path)
  /-- Looks for a name from a path outward. -/
  | lexical (scope : Place) (start : Path) (name : String)
  /-- Lists the children. -/
  | names (scope : Place)
  /-- Reads a scalar. -/
  | get (scalar : Place)
  /-- Asks what kind of symbol there is. -/
  | kindOf (symbol : Place)
  /-- Writes out everything in a symbol. -/
  | dump (symbol : Place)
  /-- Assigns one symbol of a scope to another. -/
  | assign (scope : Place) (target source : Path)
  /-- Assigns a value to a symbol of a scope. -/
  | assignValue (scope : Place) (target : Path) (v : Value)
  /-- Writes a scalar. -/
  | set (scalar : Place) (v : Value)
  /-- Copies the value of a symbol into one of another slot. -/
  | copy (dst src : Place)
  /-- Copies the children of a scope into those of one of another slot. -/
  | copyScope (dst src : Place)
  /-- Clones a symbol into a slot. -/
  | clone (symbol : Place) (into : String)
  /-- Moves the content of an object symbol into a slot. -/
  | take (object : Place) (into : String)
  /-- Calls a function. -/
  | call (function : Place) (args : List Value)
  /-- Reads a bound object as one of a type. -/
  | nativeGet (object : Place) (t : NativeType)
  /-- Writes a field of a bound object as one of a type. -/
  | nativeSet (object : Place) (t : NativeType) (field? : Option FieldName) (x : Literal)
  /-- Writes a field of a bound object. -/
  | objectSet (object : Place) (field? : Option FieldName) (x : Literal)
  /-- Sets a variable of a bound organism. -/
  | setVar (object : Place) (name : String) (v : Value)
  /-- Reads a variable of a bound organism. -/
  | getVar (object : Place) (name : String)
  /-- Asks what an object symbol is bound to. -/
  | describe (object : Place)
  /-- Asks whether two object symbols have one object. -/
  | sameObject (a b : Place)
  /-- Makes an object of the host. -/
  | newHost (host : String) (n : Native)
  /-- Destroys an object of the host. -/
  | dropHost (host : String)
  /-- Writes a field of an object of the host. -/
  | hostSet (host : String) (field? : Option FieldName) (x : Literal)
  /-- Poisons the lock of an object of the host. -/
  | poisonHost (host : String)
  /-- Copies one object of the host into another, in the default way or by the custom strategy. -/
  | hostCopy (host source : String) (custom : Bool)
  /-- Makes a cell of the host. -/
  | newCell (cell : String) (t : StorageType) (x : t.Raw)
  /-- Lets go of a cell of the host. -/
  | dropCell (cell : String)
  /-- Writes a cell of the host. -/
  | cellSet (cell : String) (x : Literal)
  /-- Poisons the lock of a cell of the host. -/
  | poisonCell (cell : String)
  /-- Registers an object of the host as a module. -/
  | registerModule (host : String) (scope : Place)
  /-- Links the settings of a module type. -/
  | setupConfig (object : Place) (t : NativeType)

/-! ## §2. Answers. -/

/-- What is told of a symbol that was found. -/
structure Found where
  /-- What kind of symbol it is. -/
  kind : Symbol.Kind
  /-- Its path. -/
  path : String
  /-- What it is for. -/
  description : String
deriving DecidableEq, Repr

/-- What is told of the symbol `x`. -/
def Symbol.found (x : Symbol) : Found := ⟨x.kind, x.info.path.display, x.info.description⟩

/-- What is told of a scope. -/
structure Listing where
  /-- The names of the children. -/
  names : List String
  /-- The path of the scope. -/
  path : String
  /-- What it is for. -/
  description : String
deriving DecidableEq, Repr

/-- What is told of an object symbol. -/
structure BindingReport where
  /-- Whether it owns its object. -/
  owns : Bool
  /-- Whether its object is alive. -/
  bound : Bool
  /-- The type of the object, written out. -/
  type : String
  /-- The handle, written out. -/
  handle? : Option String
deriving DecidableEq, Repr

/-- What a host is answered to an `Operation`. -/
inductive Answer where
  /-- It is done. -/
  | done
  /-- Yes or no. -/
  | flag (b : Bool)
  /-- Yes or no, if the question had a sense. -/
  | optionalFlag (b? : Option Bool)
  /-- A text. -/
  | text (s : String)
  /-- A value, if there is one. -/
  | value (v? : Option Value)
  /-- A symbol, if there is one. -/
  | found (x? : Option Found)
  /-- A child, if there is one, and whether there is one. -/
  | child (x? : Option Found) (contains : Bool)
  /-- The symbol and the label of the scope at a path. -/
  | resolved (x? : Option Found) (scope? : Option String)
  /-- The children of a scope. -/
  | listing (l : Listing)
  /-- The kind of a symbol. -/
  | kind (k : Symbol.Kind)
  /-- An object. -/
  | native (n : Native)
  /-- What an object symbol is bound to. -/
  | binding (r : BindingReport)
deriving DecidableEq, Repr

end ConfigTree
