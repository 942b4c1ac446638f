import ConfigTree.Symbol.Basic

/-!
# Dropping symbols

When a symbol is dropped, the objects that it owns are destroyed: those of its children in their
order, and then its own.  Objects that a symbol merely borrows, and the targets of its links, stay.
-/

namespace ConfigTree.Symbol

mutual

/-- Drops a symbol and all that it holds, and destroys the objects in `owned`. -/
def release : Symbol → Effect Unit
  | scalar _ => return
  | function _ => return
  | branch role info _ cs =>
    match role.owned? with
    | none => releaseAll cs
    | some id => do
      Effect.emit (.dropping info.label)
      releaseAll cs
      Effect.destroy id

/-- Drops symbols in their order, each by `release`. -/
def releaseAll : List Symbol → Effect Unit
  | [] => return
  | c :: cs => do
    c.release
    releaseAll cs

end

mutual

/-- The objects that the `release` of a symbol destroys, in order. -/
def owned : Symbol → List ObjectId
  | scalar _ => []
  | function _ => []
  | branch role _ _ cs => ownedAll cs ++ role.owned?.toList

/-- The objects that `releaseAll` destroys, in order. -/
def ownedAll : List Symbol → List ObjectId
  | [] => []
  | c :: cs => c.owned ++ ownedAll cs

end

end ConfigTree.Symbol
