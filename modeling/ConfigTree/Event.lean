import ConfigTree.Error
import ConfigTree.Symbol.Info

/-!
# Events

What can happen during an operation, kept by cause.  `Event.level`, `Event.message` and
`Event.fields` say how an event is shown in a log.
-/

namespace ConfigTree

/-- How important an `Event` is. -/
inductive Level where
  /-- The author of the configuration should know. -/
  | warn
  /-- The structure of a tree changes. -/
  | debug
  /-- Something is copied, duplicated or dropped. -/
  | trace
deriving DecidableEq, Repr

namespace Level

/-- The name of a `Level` in logs. -/
def name : Level → String
  | warn => "WARN"
  | debug => "DEBUG"
  | trace => "TRACE"

/-- How much a log of a `Level` lets through. -/
def rank : Level → Nat
  | warn => 0
  | debug => 1
  | trace => 2

/-- Whether a log of level `log` shows an event of level `event`. -/
def admits (log event : Level) : Bool := event.rank ≤ log.rank

end Level

/-- What happens during an operation. -/
inductive Event where
  /-- An error is reported. -/
  | reported (error : SymbolError)
  /-- The children of an object could not all be copied. -/
  | partialCopy (dst src : String) (error : SymbolError)
  /-- A symbol enters a scope. -/
  | registered (scope name : String) (kind : Symbol.Kind)
  /-- An object is about to be registered. -/
  | binding (name : String) (owned : Bool) (typeName : String)
  /-- A symbol leaves a scope. -/
  | removed (scope name : String)
  /-- The content of an object symbol moves out of it. -/
  | moved (name : String) (owned : Bool)
  /-- An object symbol is cloned. -/
  | cloned (name : String) (owned : Bool)
  /-- A module is registered with all its settings. -/
  | moduleRegistered (label typeName : String) (entries : Nat)
  /-- An assignment between symbols begins. -/
  | assigning (target source : String)
  /-- An assignment of a value begins. -/
  | assigningValue (target value : String)
  /-- The value of a symbol is copied into another. -/
  | copying (dst src : String)
  /-- The children of a scope are copied into those of another. -/
  | copyingScope (dst src : String) (policy : CopyPolicy)
  /-- Both sides of a copy are bound to one object. -/
  | sameObject (dst : String)
  /-- An object is copied into another, or refuses to be. -/
  | copiedObject (dst src : String) (custom applied : Bool)
  /-- An owned object is duplicated, or refuses to be. -/
  | duplicatedOwned (success : Bool)
  /-- A handle that owns nothing is duplicated. -/
  | duplicatedBorrowed
  /-- A symbol that owns its object is dropped. -/
  | dropping (name : String)
deriving DecidableEq, Repr

namespace Event

/-- The `Level` of an event; only errors and copies that stay partial are warned of. -/
def level : Event → Level
  | reported .. | partialCopy .. => .warn
  | registered .. | binding .. | removed .. | moved .. | cloned .. | moduleRegistered ..
  | assigning .. | assigningValue .. => .debug
  | copying .. | copyingScope .. | sameObject .. | copiedObject .. | duplicatedOwned ..
  | duplicatedBorrowed | dropping .. => .trace

/-- The text of an event. -/
def message : Event → String
  | reported error => error.message
  | partialCopy .. => "scope portion partially copied"
  | registered .. => "registered symbol"
  | binding .. => "binding native object"
  | removed .. => "removed symbol"
  | moved .. => "moved object binding"
  | cloned .. => "cloned object binding"
  | moduleRegistered .. => "registered module"
  | assigning .. => "span assign"
  | assigningValue .. => "span assign_value"
  | copying .. => "copy value"
  | copyingScope .. => "copy scope"
  | sameObject .. => "copy from the same object is a no-op"
  | copiedObject .. => "copy native object"
  | duplicatedOwned .. => "duplicating owned native object"
  | duplicatedBorrowed => "duplicating borrowed native handle"
  | dropping .. => "dropping owned native object"

/-- The particulars of an event, each under its name. -/
def fields : Event → List (String × String)
  | reported _ | duplicatedBorrowed => []
  | partialCopy dst src error => [("dst", dst), ("src", src), ("error", error.message)]
  | registered scope name kind => [("scope", scope), ("name", name), ("kind", kind.name)]
  | binding name owned typeName =>
    [("name", name), ("owned", toString owned), ("native_type", typeName)]
  | removed scope name => [("scope", scope), ("name", name)]
  | moved name owned | cloned name owned => [("name", name), ("owned", toString owned)]
  | moduleRegistered label typeName entries =>
    [("module", label), ("native_type", typeName), ("entries", toString entries)]
  | assigning target source => [("dst", target), ("src", source)]
  | assigningValue target value => [("dst", target), ("value", value)]
  | copying dst src => [("dst", dst), ("src", src)]
  | copyingScope dst src policy => [("dst", dst), ("src", src), ("policy", policy.dump)]
  | sameObject dst => [("dst", dst)]
  | copiedObject dst src custom applied =>
    [("dst", dst), ("src", src), ("custom", toString custom), ("applied", toString applied)]
  | duplicatedOwned success => [("cloned", toString success)]
  | dropping name => [("name", name)]

end Event

end ConfigTree
