import ConfigTree.Native.Capabilities

/-!
# Host modules

The two kinds of object that belong to an evolution run: the module that selects the elite of a
population, which shows its settings as fields, and the type of an organism, a bag of variables in
the order in which they were first set.
-/

namespace ConfigTree

/-! ## §1. The elite. -/

/-- Selects the fittest organisms of a population for replication. -/
structure EliteSelection where
  /-- What the module is called. -/
  name : String
  /-- What it is for. -/
  description : String
  /-- The trait to select on. -/
  fitnessTrait : String := "fitness"
  /-- How many organisms to select. -/
  topCount : Word .size := .one
  /-- How many copies to make of each. -/
  copyCount : Word .size := .one
  /-- Which population to select from. -/
  popId : Word .int32 := .zero
deriving DecidableEq, Repr

namespace EliteSelection

/-- The module under its usual name. -/
def standard : EliteSelection where
  name := "SelectElite"
  description := "Module to choose the top fitness organisms for replication."

/-- The module `m` with the settings of the module `other`. -/
def withSettings (m other : EliteSelection) : EliteSelection :=
  { other with name := m.name, description := m.description }

/-- What an `EliteSelection` can do.  It has no custom way to be copied and cannot be duplicated. -/
def capabilities : Capabilities EliteSelection where
  name := "SelectElite"
  descriptor := .named "SelectElite"
  watchedId? _ := none
  hasField
    | .fitnessTrait | .topCount | .copyCount | .popId => true
    | .record _ => false
  get? m
    | .fitnessTrait => some m.fitnessTrait
    | .topCount => some m.topCount
    | .copyCount => some m.copyCount
    | .popId => some m.popId
    | .record _ => none
  set? m
    | .fitnessTrait, x => some { m with fitnessTrait := x }
    | .topCount, x => some { m with topCount := x }
    | .copyCount, x => some { m with copyCount := x }
    | .popId, x => some { m with popId := x }
    | .record _, _ => none
  copyDefault? source := some fun m => m.withSettings source
  copyCustom? _ _ := none
  duplicate _ := .unsupported

/-- The module `m` with nothing in its settings. -/
def bare (m : EliteSelection) : EliteSelection := { name := m.name, description := m.description }

variable {a b : EliteSelection} {f g : FieldName}

theorem get?_set?_of_ne {x : f.type.Raw} (h : capabilities.set? a f x = some b) (hne : g ≠ f) :
    capabilities.get? b g = capabilities.get? a g := by
  cases f <;> cases h <;> cases g <;> first | rfl | exact absurd rfl hne

theorem eq_of_bare (hbare : a.bare = b.bare)
    (hfields : ∀ f, capabilities.get? a f = capabilities.get? b f) : a = b := by
  have hfitness : a.fitnessTrait = b.fitnessTrait := Option.some.inj (hfields .fitnessTrait)
  have htop : a.topCount = b.topCount := Option.some.inj (hfields .topCount)
  have hcopy : a.copyCount = b.copyCount := Option.some.inj (hfields .copyCount)
  have hpop : a.popId = b.popId := Option.some.inj (hfields .popId)
  cases a
  cases b
  simp_all [bare]

/-- Elite modules keep the `Contract`: beside its fields a module has its name and its
description. -/
def contract : Contract capabilities where
  bare := bare
  content := id
  uncounted := id
  Part := Unit
  Look _ := EliteSelection
  part _ := bare
  isSome_get? _ f := by cases f <;> rfl
  isSome_set? _ f _ := by cases f <;> rfl
  get?_set? {_ _ f _} h := by cases f <;> cases h <;> rfl
  set?_get? {_ f _} h := by cases f <;> cases h <;> rfl
  get?_set?_of_ne := get?_set?_of_ne
  bare_set? {_ _ f _} h := by cases f <;> cases h <;> rfl
  eq_of_bare := eq_of_bare
  part_set? {_ _ f _} _ h := by cases f <;> cases h <;> rfl
  eq_of_parts hfields hparts := eq_of_bare (hparts ()) hfields
  get?_copyDefault? h _ f := by
    cases h
    cases f <;> rfl
  part_copyDefault? _ h := by
    cases h
    exact .inl fun _ _ => rfl
  get?_copyCustom? _ h := nomatch h
  part_copyCustom? _ h := nomatch h
  content_duplicate h := nomatch h
  get?_content _ _ := rfl

end EliteSelection

/-! ## §2. Organisms. -/

/-- A kind of organism. -/
structure Organism where
  /-- What the kind is called. -/
  name : String
  /-- Its variables, each name once, in the order in which they were first set. -/
  vars : List (String × Value) := []
deriving DecidableEq, Repr

namespace Organism

/-- The value of the variable `name`. -/
def var? (o : Organism) (name : String) : Option Value :=
  o.vars.lookup name

/-- The variables after `name` is set to `v`; a new one goes to the end. -/
def insertVar (name : String) (v : Value) : List (String × Value) → List (String × Value)
  | [] => [(name, v)]
  | (n, w) :: rest => if n = name then (n, v) :: rest else (n, w) :: insertVar name v rest

/-- The organism after the variable `name` is set to `v`. -/
def setVar (o : Organism) (name : String) (v : Value) : Organism :=
  { o with vars := insertVar name v o.vars }

/-- What an `Organism` can do.  It shows no fields; a default copy takes over all of it, and the
strategy of organisms its variables. -/
def capabilities : Capabilities Organism where
  name := "OrganismType"
  descriptor := (Descriptor.named "OrganismType").withStrategy .variables
  watchedId? _ := none
  hasField _ := false
  get? _ _ := none
  set? _ _ _ := none
  copyDefault? source := some fun _ => source
  copyCustom?
    | .variables, source => some fun o => { o with vars := source.vars }
    | .genome, _ | .refusal, _ => none
  duplicate o := .fresh o

/-- Organisms keep the `Contract`: without fields, an organism is its name and its variables. -/
def contract : Contract capabilities where
  bare := id
  content := id
  uncounted := id
  Part := Bool
  Look
    | true => String
    | false => List (String × Value)
  part
    | true => name
    | false => vars
  isSome_get? _ _ := rfl
  isSome_set? _ _ _ := rfl
  get?_set? h := nomatch h
  set?_get? h := nomatch h
  get?_set?_of_ne h := nomatch h
  bare_set? h := nomatch h
  eq_of_bare h _ := h
  part_set? _ h := nomatch h
  eq_of_parts {a b} _ hparts := by
    obtain ⟨name, vars⟩ := a
    obtain ⟨name', vars'⟩ := b
    have hname : name = name' := hparts true
    have hvars : vars = vars' := hparts false
    rw [hname, hvars]
  get?_copyDefault? _ _ _ := rfl
  part_copyDefault? i h := by
    cases h
    exact .inr ⟨_, fun _ _ => rfl⟩
  get?_copyCustom? _ _ := .inl fun _ _ => rfl
  part_copyCustom? {s source change} i h := by
    cases s with
    | genome | refusal => cases h
    | _ =>
      cases h
      cases i with
      | true => exact .inl fun _ _ => rfl
      | false => exact .inr ⟨source.vars, fun _ _ => rfl⟩
  content_duplicate h := by
    cases h
    rfl
  get?_content _ _ := rfl

end Organism

end ConfigTree
