import ConfigTree.Symbol.Basic
import ConfigTree.Text.Dump

/-!
# Dumps of symbols

A dump writes a symbol out with everything in it: names, places, values, links and children.  It
looks through links and handles, so it depends on the store.
-/

namespace ConfigTree

open Text (quote)
open Text.Dump (Part record openRecord case option flag list map)

/-- The path `p` in a dump. -/
def Path.dump (p : Path) : String :=
  record "SymbolPath" [⟨"segments", list (p.segments.map quote)⟩]

/-- The name and place of a symbol in a dump. -/
def Info.dump (i : Info) : String :=
  record "SymbolInfo"
    [⟨"name", quote i.name⟩, ⟨"description", quote i.description⟩,
      ⟨"parent", option (i.parent?.map Path.dump)⟩]

/-- A `Value` in a dump. -/
def Value.dump : Value → String
  | bool b => case "Bool" (flag b)
  | int n => case "Int" (toString n.val)
  | double d => case "Double" d.dump
  | string s => case "String" (quote s)

/-- A `Link` in a dump: what is stored in a cell, but only the type of a field. -/
def Link.dump (s : Store) : Link → String
  | cell id => match s.cell? id with
    | some c =>
      openRecord "RwLock" [⟨"data", c.type.dump c.content⟩, ⟨"poisoned", flag c.poisoned⟩]
    | none => openRecord "RwLock" []
  | field target f =>
    record "FieldLink"
      [⟨"object", quote f.owner.registeredName⟩, ⟨"field", quote f.type.name⟩,
        ⟨"live", flag (s.isLive target)⟩]

/-- The handle `h` in a dump. -/
def Handle.dump (s : Store) (h : Handle) : String :=
  record "NativeObject"
    [⟨"owned", flag h.owned⟩, ⟨"live", flag (s.isLive h.id)⟩,
      ⟨"type", quote (s.describe h.id).name⟩]

/-- The scalar `x` in a dump. -/
def Scalar.dump (s : Store) (x : Scalar) : String :=
  let storage := match x.storage with
    | .value v => case "Value" v.dump
    | .linked l => case "Linked" (l.dump s)
  record "Scalar" [⟨"info", x.info.dump⟩, ⟨"storage", storage⟩]

/-- The function `f` in a dump. -/
def Function.dump (f : Function) : String :=
  openRecord "Function" [⟨"info", f.info.dump⟩, ⟨"arity", option (f.arity?.map toString)⟩]

namespace Symbol

/-- The part of a branch that all branches have, in a dump. -/
def dumpScope (info : Info) (policy : CopyPolicy) (children : List (String × String)) : String :=
  record "Scope"
    [⟨"info", info.dump⟩, ⟨"children", map children⟩, ⟨"copy_policy", policy.dump⟩]

mutual

/-- A symbol in a dump. -/
def dump (s : Store) : Symbol → String
  | scalar x => case "Scalar" (x.dump s)
  | function f => case "Function" f.dump
  | branch .scope info policy cs => case "Scope" (dumpScope info policy (dumpAll s cs))
  | branch (.object handle?) info policy cs =>
    case "Object" (record "ObjectBinding"
      [⟨"scope", dumpScope info policy (dumpAll s cs)⟩,
        ⟨"native", option (handle?.map (Handle.dump s))⟩])

/-- Symbols in a dump, each under its name. -/
def dumpAll (s : Store) : List Symbol → List (String × String)
  | [] => []
  | c :: cs => (c.name, c.dump s) :: dumpAll s cs

end

end Symbol

end ConfigTree
