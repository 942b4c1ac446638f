import ConfigTree.Session.Names
import ConfigTree.Symbol.Basic
import ConfigTree.Symbol.Object

/-!
# Sessions

A session is what a host works with: trees in named slots, its own objects and cells, and what
surrounds them.  What a host asks of a session can fail, because an operation on a tree fails or
because the request itself is wrong; `Failure` says why.
-/

namespace ConfigTree

/-- The trees, objects and cells of a host. -/
structure Session where
  /-- The trees. -/
  slots : Names Symbol := .empty
  /-- The objects that the host holds. -/
  hosts : Names ObjectId := .empty
  /-- The cells that the host holds. -/
  cells : Names CellId := .empty
  /-- What surrounds the trees. -/
  surroundings : Surroundings := {}

/-- Where a `Symbol` is. -/
structure Place where
  /-- The slot of its tree. -/
  slot : String
  /-- The way from the symbol in the slot; the root path leads to that symbol itself. -/
  path : Path
deriving DecidableEq, Repr

/-- What a `Request` can ask for in vain. -/
inductive Noun where
  /-- A slot in use. -/
  | slot
  /-- A symbol at a place. -/
  | symbol
  /-- A symbol that holds others. -/
  | scope
  /-- An object symbol. -/
  | object
  /-- A scalar. -/
  | scalar
  /-- A function. -/
  | function
  /-- A handle in an object symbol. -/
  | handle
  /-- An object of the host. -/
  | host
  /-- A cell of the host. -/
  | cell
  /-- A lock that is not poisoned. -/
  | lock
deriving DecidableEq, Repr

/-- How a failed request calls the `Noun` it asked for. -/
def Noun.name : Noun → String
  | slot => "slot"
  | symbol => "symbol"
  | scope => "scope"
  | object => "object"
  | scalar => "scalar"
  | function => "function"
  | handle => "native"
  | host => "host"
  | cell => "cell"
  | lock => "poisoned"

/-- What makes a `Request` senseless. -/
inductive Fault where
  /-- Both sides of a copy are in one slot. -/
  | sameSlot
  /-- The object has no such field. -/
  | field
  /-- The object of the host is no module. -/
  | host
  /-- The literal does not fit the storage. -/
  | literal
deriving DecidableEq, Repr

/-- How a failed request calls its `Fault`. -/
def Fault.name : Fault → String
  | sameSlot => "same slot"
  | field => "field"
  | host => "host"
  | literal => "raw"

/-- Why a `Request` fails. -/
inductive Failure where
  /-- Something is not there. -/
  | missing (what : Noun)
  /-- The request makes no sense. -/
  | senseless (why : Fault)
  /-- The operation on the tree failed. -/
  | symbol (error : SymbolError)
  /-- An object of the host could not be reached. -/
  | access (error : AccessError)
  /-- A bound object was asked for as a type that it is not. -/
  | mistyped (how : Mistyped)
deriving DecidableEq, Repr

/-- The text of the fault `m` of the host, with the types spelled by `spell`. -/
def Mistyped.message (m : Mistyped) (spell : NativeType → String) : String :=
  let asked := spell m.asked
  s!"object '{m.label}' holds {m.holds} but was accessed as {asked}"

end ConfigTree
