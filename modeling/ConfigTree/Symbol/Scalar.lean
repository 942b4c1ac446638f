import ConfigTree.Symbol.Basic

/-!
# Scalars and functions

Reading and writing one value, and calling.  `Scalar.peek` and `Scalar.write` say what happens to
the store and the scalar; `Scalar.value` and `Scalar.set` do it and report the error, if there is
one.
-/

namespace ConfigTree

namespace Scalar

/-- The `Value.Kind` of the scalar `x` in the store `s`. -/
def kind (x : Scalar) (s : Store) : Value.Kind :=
  match x.storage with
  | .value v => v.kind
  | .linked l => l.kind s

/-- Whether the value of `x` is kept outside the tree. -/
def isLinked (x : Scalar) : Bool :=
  match x.storage with
  | .value _ => false
  | .linked _ => true

/-- The value of `x` in the store `s`. -/
def peek (x : Scalar) (s : Store) : Except SymbolError Value :=
  match x.storage with
  | .value v => .ok v
  | .linked l => (l.read s).mapError (.access x.info.label)

/-- How a failure to write `x` is put to the author: a value that does not fit is not a matter of
`access`. -/
def writeError (x : Scalar) : AccessError → SymbolError
  | .conversion value kind => .conversion x.info.label value kind
  | e => .access x.info.label e

/-- The scalar `x` and the store `s` after `v` is written, converted to what the scalar holds. -/
def write (x : Scalar) (s : Store) (v : Value) : Except SymbolError (Scalar × Store) :=
  match x.storage with
  | .value current =>
    match v.convert current.kind with
    | some w => .ok ({ x with storage := .value w }, s)
    | none => .error (.conversion x.info.label v.display current.kind)
  | .linked l =>
    match l.write s v with
    | .ok s => .ok (x, s)
    | .error e => .error (x.writeError e)

/-- Reads the value of `x` and reports an error. -/
def value (x : Scalar) : Effect (Except SymbolError Value) := do
  match x.peek (← Effect.store) with
  | .ok v => return .ok v
  | .error e => return .error (← Effect.report e)

/-- Writes the value `v`; the scalar keeps its old one if that fails. -/
def set (x : Scalar) (v : Value) : Effect (Attempt Scalar) := do
  match x.write (← Effect.store) v with
  | .ok (x, s) =>
    Effect.putStore s
    return ⟨x, none⟩
  | .error e => return ⟨x, some (← Effect.report e)⟩

/-- Writes the value of `src` to `dst`; `src` must be a scalar. -/
def copyFrom (dst : Scalar) (src : Symbol) : Effect (Attempt Scalar) := do
  match src with
  | .scalar s =>
    match ← s.value with
    | .ok v => dst.set v
    | .error e => return ⟨dst, some e⟩
  | _ =>
    let e := .typeMismatch dst.info.label src.info.label Symbol.Kind.scalar.article
    return ⟨dst, some (← Effect.report e)⟩

end Scalar

/-- The answer of the callable `c` to `args`. -/
def Callable.apply (c : Callable) (args : List Value) : Except SymbolError Value :=
  match c with
  | sum => .ok (.int (IntType.int64.wrap (args.foldl (fun n v => n + integer v) 0)))
  | count => .ok (.int (IntType.int64.wrap args.length))
  | concat => .ok (.string (String.join (args.map Value.display)))
  | first => match args with
    | v :: _ => .ok v
    | [] => .error (.notFound "first")
  | fail => .error (.unbound "fail")
where
  -- what an argument adds to a sum
  integer : Value → Int
    | .int n => n.val
    | _ => 0

namespace Function

/-- Calls `f` with `args`, if it takes as many. -/
def call (f : Function) (args : List Value) : Effect (Except SymbolError Value) := do
  match f.arity? with
  | none => return f.callable.apply args
  | some n =>
    if n = args.length then return f.callable.apply args
    else return .error (← Effect.report (.arityMismatch f.info.label n args.length))

/-- Lets `dst` do what `src` does, which must be a function. -/
def copyFrom (dst : Function) (src : Symbol) : Effect (Attempt Function) := do
  match src with
  | .function f => return ⟨{ dst with callable := f.callable, arity? := f.arity? }, none⟩
  | _ =>
    let e := .typeMismatch dst.info.label src.info.label Symbol.Kind.function.article
    return ⟨dst, some (← Effect.report e)⟩

end Function

end ConfigTree
