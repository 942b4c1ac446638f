/-!
# Things by name

What a session keeps is kept by name, and shown and torn down in the order of the names.  So the
entries are a list in ascending order, and each name stands once.
-/

namespace ConfigTree

/-- Things by name, in ascending order of the names. -/
structure Names (α : Type) where
  /-- The entries. -/
  entries : List (String × α) := []
  /-- The names ascend. -/
  ascending : entries.Pairwise (·.1 < ·.1) := by exact .nil

namespace Names

variable {α : Type}

/-! ## §1. Operations. -/

/-- No things. -/
def empty : Names α := {}

/-- The entries with `x` under `name`, in place of what has that name. -/
def insertInto (name : String) (x : α) : List (String × α) → List (String × α)
  | [] => [(name, x)]
  | e :: rest =>
    if name < e.1 then (name, x) :: e :: rest
    else if name = e.1 then (name, x) :: rest
    else e :: insertInto name x rest

theorem fst_of_mem_insertInto {name : String} {x : α} {entries : List (String × α)}
    {e : String × α} (h : e ∈ insertInto name x entries) : e.1 = name ∨ e ∈ entries := by
  induction entries with
  | nil => simp_all [insertInto]
  | cons d rest ih =>
    simp only [insertInto] at h
    split at h
    · rcases List.mem_cons.1 h with rfl | h
      · exact .inl rfl
      · exact .inr h
    · split at h
      · rcases List.mem_cons.1 h with rfl | h
        · exact .inl rfl
        · exact .inr (List.mem_cons_of_mem _ h)
      · rcases List.mem_cons.1 h with rfl | h
        · exact .inr List.mem_cons_self
        · exact (ih h).imp id (List.mem_cons_of_mem _)

theorem ascending_insertInto {name : String} {x : α} {entries : List (String × α)}
    (h : entries.Pairwise (·.1 < ·.1)) : (insertInto name x entries).Pairwise (·.1 < ·.1) := by
  induction entries with
  | nil => simp [insertInto]
  | cons d rest ih =>
    have hd := List.pairwise_cons.1 h
    simp only [insertInto]
    split
    case isTrue hlt =>
      refine List.pairwise_cons.2 ⟨fun e he => ?_, h⟩
      rcases List.mem_cons.1 he with rfl | he
      · exact hlt
      · exact String.lt_trans hlt (hd.1 e he)
    case isFalse hge =>
      split
      case isTrue heq => exact List.pairwise_cons.2 ⟨fun e he => heq ▸ hd.1 e he, hd.2⟩
      case isFalse hne =>
        refine List.pairwise_cons.2 ⟨fun e he => ?_, ih hd.2⟩
        rcases fst_of_mem_insertInto he with hname | he
        · rw [hname]
          exact Decidable.byContradiction fun h =>
            hne (String.le_antisymm (String.not_lt.1 h) (String.not_lt.1 hge))
        · exact hd.1 e he

/-- What stands first under `name` among the entries. -/
def findIn (name : String) : List (String × α) → Option α
  | [] => none
  | e :: rest => if e.1 = name then some e.2 else findIn name rest

/-- The thing called `name`. -/
def get? (m : Names α) (name : String) : Option α := findIn name m.entries

/-- The things with `x` under `name`, in place of what has that name. -/
def insert (m : Names α) (name : String) (x : α) : Names α :=
  ⟨insertInto name x m.entries, ascending_insertInto m.ascending⟩

/-- The things without that called `name`. -/
def erase (m : Names α) (name : String) : Names α :=
  ⟨m.entries.filter (·.1 ≠ name), m.ascending.filter _⟩

/-- The things in the order of their names. -/
def values (m : Names α) : List α := m.entries.map (·.2)

/-! ## §2. Small laws. -/

theorem findIn_insertInto (entries : List (String × α)) (name other : String) (x : α) :
    findIn other (insertInto name x entries) =
      if other = name then some x else findIn other entries := by
  induction entries with
  | nil => simp [insertInto, findIn, eq_comm]
  | cons d rest ih => grind [insertInto, findIn]

theorem findIn_filter_ne (entries : List (String × α)) (name other : String) :
    findIn other (entries.filter (·.1 ≠ name)) =
      if other = name then none else findIn other entries := by
  induction entries with
  | nil => simp [findIn]
  | cons d rest ih => grind [findIn]

@[simp] theorem get?_insert (m : Names α) (name other : String) (x : α) :
    (m.insert name x).get? other = if other = name then some x else m.get? other :=
  findIn_insertInto m.entries name other x

@[simp] theorem get?_erase (m : Names α) (name other : String) :
    (m.erase name).get? other = if other = name then none else m.get? other :=
  findIn_filter_ne m.entries name other

end Names

end ConfigTree
