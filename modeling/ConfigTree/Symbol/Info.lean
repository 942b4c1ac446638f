import ConfigTree.Path

/-!
# What every symbol carries

Kinds of symbols, the policy by which a scope is copied, and the name, description and parent path
that every symbol has.  The parent path is a copy of where the symbol is; it is kept up to date by
the operations that attach and detach symbols.
-/

namespace ConfigTree

/-- The kinds of symbols. -/
inductive Symbol.Kind where
  /-- Holds one value. -/
  | scalar
  /-- Holds other symbols. -/
  | scope
  /-- Holds other symbols and is bound to a native object. -/
  | object
  /-- Can be called. -/
  | function
deriving DecidableEq, Repr

namespace Symbol.Kind

/-- The name of a `Kind` in logs. -/
def name : Kind → String
  | scalar => "scalar"
  | scope => "scope"
  | object => "object"
  | function => "function"

/-- The name of a `Kind` with its article, for messages. -/
def article : Kind → String
  | scalar => "a scalar"
  | scope => "a scope"
  | object => "an object"
  | function => "a function"

/-- What symbols of a `Kind` can do, as bits: 1 holds symbols, 2 is bound to an object, 4 holds a
value, 8 can be called. -/
def capabilities : Kind → Nat
  | scope => 1
  | object => 3
  | scalar => 4
  | function => 8

/-- Whether symbols of kind `k` hold other symbols. -/
def isScope (k : Kind) : Bool := k == .scope || k == .object

end Symbol.Kind

/-- How a `Scope` is copied into. -/
inductive CopyPolicy where
  /-- Children of the same name are copied, others are left alone. -/
  | matchingNames
  /-- Both sides must have the same names, all the way down. -/
  | sameShape
deriving DecidableEq, Repr

/-- The name of a `CopyPolicy` in logs and dumps. -/
def CopyPolicy.dump : CopyPolicy → String
  | matchingNames => "MatchingNames"
  | sameShape => "SameShape"

/-- The name and place of a `Symbol`. -/
structure Info where
  /-- The name, unique in the enclosing scope. -/
  name : String
  /-- What the symbol is for. -/
  description : String
  /-- The path of the enclosing scope; nothing for a detached symbol. -/
  parent? : Option Path := none
deriving DecidableEq, Repr

namespace Info

/-- The path of the symbol; that of a detached symbol is the `root`. -/
def path (i : Info) : Path :=
  match i.parent? with
  | some p => p.child i.name
  | none => .root

/-- How messages call the symbol: by its `path`, or by its name if it is detached. -/
def label (i : Info) : String :=
  match i.parent? with
  | some p => (p.child i.name).display
  | none => i.name

/-- The same symbol below the parent `parent?`. -/
def withParent (i : Info) (parent? : Option Path) : Info := { i with parent? := parent? }

/-- How messages call a child `name` of the symbol. -/
def childLabel (i : Info) (name : String) : String := (i.path.child name).display

end Info

end ConfigTree
