import ConfigTree.Proofs.Tree
import ConfigTree.Symbol.Assign
import Mathlib.Data.List.InsertIdx

/-!
# Replacing a node of a tree

Every operation on a tree finds a node, makes another symbol of it and puts that in its place.
These are the laws of that last step, for a symbol of the same name: what is found afterwards, what
a second replacement does, and what the tree as a whole keeps.  An assignment takes its target out
of the tree and puts it back; `Symbol.attach?_of_detach?` says that this is such a replacement too.

Main results:
  * `Symbol.replace?_of_descend?` — a node that can be found can be replaced;
  * `Symbol.descend?_replace?` and `Symbol.replace?_replace?` — reading and writing again;
  * `Symbol.blank_replace?` — a replacement that changes values only changes values only;
  * `Symbol.attach?_of_detach?` — putting back what was taken out is a replacement.
-/

namespace ConfigTree.Symbol

/-! ## §1. One level. -/

/-- The first symbol called `k` splits the others into those `before` it and those `after` it. -/
theorem split_of_find? {cs : List Symbol} {k : String} {c : Symbol}
    (h : cs.find? (·.name = k) = some c) :
    ∃ before after, cs = before ++ c :: after ∧ c.name = k ∧ (∀ b ∈ before, b.name ≠ k) ∧
      ∀ new, replaceNamed k new cs = before ++ new :: after := by
  induction cs with
  | nil => cases h
  | cons d cs ih =>
    by_cases hd : d.name = k
    · rw [List.find?_cons_of_pos (by simpa using hd), Option.some.injEq] at h
      subst h
      exact ⟨[], cs, rfl, hd, by simp, fun new => by simp [replaceNamed, hd]⟩
    · rw [List.find?_cons_of_neg (by simpa using hd)] at h
      obtain ⟨before, after, rfl, hc, hbefore, hnew⟩ := ih h
      refine ⟨d :: before, after, rfl, hc, ?_, fun new => ?_⟩
      · intro b hb
        rcases List.mem_cons.1 hb with rfl | hb
        · exact hd
        · exact hbefore b hb
      · rw [replaceNamed, if_neg hd, hnew]
        rfl

theorem find?_split {before after : List Symbol} {c : Symbol} {k : String} (hc : c.name = k)
    (hbefore : ∀ b ∈ before, b.name ≠ k) :
    (before ++ c :: after).find? (·.name = k) = some c := by
  rw [List.find?_append, List.find?_eq_none.2 fun b hb => by simpa using hbefore b hb]
  simp [hc]

theorem eraseP_split {before after : List Symbol} {c : Symbol} {k : String} (hc : c.name = k)
    (hbefore : ∀ b ∈ before, b.name ≠ k) :
    (before ++ c :: after).eraseP (·.name = k) = before ++ after := by
  rw [List.eraseP_append_right _ fun b hb => by simpa using hbefore b hb,
    List.eraseP_cons_of_pos (by simpa using hc)]

theorem replaceNamed_split {before after : List Symbol} {c : Symbol} {k : String} (hc : c.name = k)
    (hbefore : ∀ b ∈ before, b.name ≠ k) (new : Symbol) :
    replaceNamed k new (before ++ c :: after) = before ++ new :: after := by
  induction before with
  | nil => simp [replaceNamed, hc]
  | cons b before ih =>
    rw [List.cons_append, replaceNamed, if_neg (hbefore b List.mem_cons_self),
      ih fun d hd => hbefore d (List.mem_cons_of_mem _ hd)]
    rfl

/-- Replacing the first symbol called `k` by `replaceNamed` is replacing it at its index. -/
theorem replaceNamed_eq_set {cs : List Symbol} {k : String} {i : Nat}
    (h : cs.findIdx? (·.name = k) = some i) (new : Symbol) :
    replaceNamed k new cs = cs.set i new := by
  induction cs generalizing i with
  | nil => cases h
  | cons d cs ih =>
    rw [List.findIdx?_cons] at h
    by_cases hd : d.name = k
    · rw [if_pos (by simpa using hd), Option.some.injEq] at h
      subst h
      simp [replaceNamed, hd]
    · rw [if_neg (by simpa using hd)] at h
      obtain ⟨j, hj, rfl⟩ := Option.map_eq_some_iff.1 h
      rw [replaceNamed, if_neg hd, ih hj]
      rfl

@[simp] theorem withChildren_withChildren (x : Symbol) (cs ds : List Symbol) :
    (x.withChildren cs).withChildren ds = x.withChildren ds := by
  cases x <;> rfl

@[simp] theorem info_withChildren (x : Symbol) (cs : List Symbol) :
    (x.withChildren cs).info = x.info := by
  cases x <;> rfl

/-- A symbol `x` that has a child takes the children `cs` by `withChildren`. -/
theorem children_withChildren {x c : Symbol} (h : c ∈ x.children) (cs : List Symbol) :
    (x.withChildren cs).children = cs := by
  cases x with
  | branch => rfl
  | _ => cases h

/-! ## §2. Along a list of names. -/

theorem replace?_nil (x new : Symbol) : x.replace? [] new = some new := by
  simp [replace?]

theorem replace?_cons {x y new : Symbol} {k : String} {ks : List String} :
    x.replace? (k :: ks) new = some y ↔ ∃ c d, x.child? k = some c ∧ c.replace? ks new = some d ∧
      y = x.withChildren (replaceNamed k d x.children) := by
  simp only [replace?, bind, pure, Option.bind_eq_some_iff, Option.some.injEq]
  constructor
  · rintro ⟨c, hc, d, hd, rfl⟩
    exact ⟨c, d, hc, hd, rfl⟩
  · rintro ⟨c, d, hc, hd, rfl⟩
    exact ⟨c, hc, d, hd, rfl⟩

/-- **A node that `descend?` finds can be replaced.** -/
theorem replace?_of_descend? {x old : Symbol} {ks : List String} (h : x.descend? ks = some old)
    (new : Symbol) : ∃ y, x.replace? ks new = some y := by
  induction ks generalizing x with
  | nil => exact ⟨new, replace?_nil x new⟩
  | cons k ks ih =>
    rw [descend?_cons] at h
    obtain ⟨c, hc, hold⟩ := Option.bind_eq_some_iff.1 h
    obtain ⟨d, hd⟩ := ih hold
    exact ⟨_, replace?_cons.2 ⟨c, d, hc, hd, rfl⟩⟩

/-- A replacement below the root keeps the `info` of the root, and one of the root has that of
`new`. -/
theorem info_replace? {x y old new : Symbol} {ks : List String} (h : x.replace? ks new = some y)
    (hold : x.descend? ks = some old) (hinfo : new.info = old.info) : y.info = x.info := by
  cases ks with
  | nil =>
    rw [replace?_nil, Option.some.injEq] at h
    rw [descend?_nil, Option.some.injEq] at hold
    rw [← h, hold, hinfo]
  | cons k ks =>
    obtain ⟨c, d, -, -, rfl⟩ := replace?_cons.1 h
    exact info_withChildren _ _

theorem name_replace? {x y old new : Symbol} {ks : List String} (h : x.replace? ks new = some y)
    (hold : x.descend? ks = some old) (hname : new.name = old.name) : y.name = x.name := by
  cases ks with
  | nil =>
    rw [replace?_nil, Option.some.injEq] at h
    rw [descend?_nil, Option.some.injEq] at hold
    rw [← h, hold, hname]
  | cons k ks =>
    obtain ⟨c, d, -, -, rfl⟩ := replace?_cons.1 h
    rw [name, info_withChildren, name]

/-- The step that all laws of `replace?` share: along `k :: ks` the children split around the one
that is replaced, and the new one has its name. -/
theorem split_of_replace? {x y old new : Symbol} {k : String} {ks : List String}
    (h : x.replace? (k :: ks) new = some y) (hold : x.descend? (k :: ks) = some old)
    (hname : new.name = old.name) :
    ∃ before c d after, x.children = before ++ c :: after ∧ c.name = k ∧ d.name = k ∧
      (∀ b ∈ before, b.name ≠ k) ∧ c.descend? ks = some old ∧ c.replace? ks new = some d ∧
      y = x.withChildren (before ++ d :: after) ∧ y.children = before ++ d :: after := by
  obtain ⟨c, d, hc, hd, rfl⟩ := replace?_cons.1 h
  rw [descend?_cons, hc, Option.bind_some] at hold
  obtain ⟨before, after, hsplit, hck, hbefore, hnew⟩ := split_of_find? hc
  have hmem : c ∈ x.children := hsplit ▸ by simp
  -- the new child keeps the name: at the bottom by `hname`, above it as nothing else is renamed
  have hdk : d.name = k := (name_replace? hd hold hname).trans hck
  refine ⟨before, c, d, after, hsplit, hck, hdk, hbefore, hold, hd, ?_, ?_⟩
  · rw [hnew]
  · rw [children_withChildren hmem, hnew]

/-- **What `replace?` has put in place is found there by `descend?`.** -/
theorem descend?_replace? {x y old new : Symbol} {ks : List String}
    (h : x.replace? ks new = some y) (hold : x.descend? ks = some old)
    (hname : new.name = old.name) : y.descend? ks = some new := by
  induction ks generalizing x y with
  | nil =>
    rw [replace?_nil, Option.some.injEq] at h
    rw [descend?_nil, h]
  | cons k ks ih =>
    obtain ⟨before, c, d, after, -, -, hdk, hbefore, hc, hd, -, hy⟩ :=
      split_of_replace? h hold hname
    rw [descend?_cons, child?, hy, find?_split hdk hbefore, Option.bind_some]
    exact ih hd hc

/-- **Of two replacements at one place the second counts.** -/
theorem replace?_replace? {x y old new : Symbol} {ks : List String}
    (h : x.replace? ks new = some y) (hold : x.descend? ks = some old)
    (hname : new.name = old.name) (other : Symbol) :
    y.replace? ks other = x.replace? ks other := by
  induction ks generalizing x y with
  | nil => rw [replace?_nil, replace?_nil]
  | cons k ks ih =>
    obtain ⟨before, c, d, after, hx, hck, hdk, hbefore, hc, hd, rfl, hy⟩ :=
      split_of_replace? h hold hname
    -- both trees hold a child of the name `k` at the same place
    have hyc : (x.withChildren (before ++ d :: after)).child? k = some d := by
      rw [child?, hy, find?_split hdk hbefore]
    have hxc : x.child? k = some c := by
      rw [child?, hx, find?_split hck hbefore]
    simp only [replace?, hyc, hxc, hy, hx, bind, Option.bind_some, withChildren_withChildren,
      replaceNamed_split hck hbefore, replaceNamed_split hdk hbefore, ih hd hc]

/-- Replacing a node below another, at `js ++ ks`, is replacing the latter by what comes of it. -/
theorem replace?_append {x y z new : Symbol} {js ks : List String}
    (hy : x.descend? js = some y) (hz : y.replace? ks new = some z) :
    x.replace? (js ++ ks) new = x.replace? js z := by
  induction js generalizing x with
  | nil =>
    rw [descend?_nil, Option.some.injEq] at hy
    rw [List.nil_append, replace?_nil, hy, hz]
  | cons j js ih =>
    rw [descend?_cons] at hy
    obtain ⟨c, hc, hy⟩ := Option.bind_eq_some_iff.1 hy
    simp only [List.cons_append, replace?, hc, bind, Option.bind_some, ih hy]

/-- **A replacement by a symbol with the same `blank` keeps the `blank` of the tree.** -/
theorem blank_replace? {x y old new : Symbol} {ks : List String} (h : x.replace? ks new = some y)
    (hold : x.descend? ks = some old) (hblank : new.blank = old.blank) : y.blank = x.blank := by
  induction ks generalizing x y with
  | nil =>
    rw [replace?_nil, Option.some.injEq] at h
    rw [descend?_nil, Option.some.injEq] at hold
    rw [← h, hold, hblank]
  | cons k ks ih =>
    -- equal up to values, and so of one name
    have hname : new.name = old.name := name_of_blank hblank
    obtain ⟨before, c, d, after, hx, -, -, -, hc, hd, rfl, -⟩ := split_of_replace? h hold hname
    cases x with
    | branch role info policy cs =>
      have hcs : cs = before ++ c :: after := hx
      simp [withChildren, blank, blankAll_eq_map, hcs, ih hd hc]
    | scalar s => exact absurd hx (by simp [children])
    | function f => exact absurd hx (by simp [children])

/-- The `objects` of a tree after a replacement were there before, or come with `new`. -/
theorem objects_replace? {x y old new : Symbol} {ks : List String} (h : x.replace? ks new = some y)
    (hold : x.descend? ks = some old) (hname : new.name = old.name) :
    ∀ id ∈ y.objects, id ∈ x.objects ∨ id ∈ new.objects := by
  induction ks generalizing x y with
  | nil =>
    rw [replace?_nil, Option.some.injEq] at h
    intro id hid
    exact .inr (h ▸ hid)
  | cons k ks ih =>
    obtain ⟨before, c, d, after, hx, -, -, -, hc, hd, rfl, -⟩ := split_of_replace? h hold hname
    cases x with
    | branch role info policy cs =>
      have hcs : cs = before ++ c :: after := hx
      intro id hid
      have hnew := ih hd hc id
      simp only [withChildren, objects, hcs, objectsAll_eq_flatMap, List.flatMap_append,
        List.flatMap_cons, List.mem_append] at hid ⊢
      -- in the role, before the replaced child, in it, or after it
      rcases hid with hid | hid | hid | hid
      · exact .inl (.inl hid)
      · exact .inl (.inr (.inl hid))
      · exact (hnew hid).imp_left fun h => .inr (.inr (.inl h))
      · exact .inl (.inr (.inr (.inr hid)))
    | _ => exact absurd hx (by simp [children])

/-- A replacement changes the objects `owned` in a tree by those of the node. -/
theorem count_owned_replace? {x y old new : Symbol} {ks : List String}
    (h : x.replace? ks new = some y) (hold : x.descend? ks = some old)
    (hname : new.name = old.name) (id : ObjectId) :
    y.owned.count id + old.owned.count id = x.owned.count id + new.owned.count id := by
  induction ks generalizing x y with
  | nil =>
    rw [replace?_nil, Option.some.injEq] at h
    rw [descend?_nil, Option.some.injEq] at hold
    rw [h, hold, Nat.add_comm]
  | cons k ks ih =>
    obtain ⟨before, c, d, after, hx, -, -, -, hc, hd, rfl, -⟩ := split_of_replace? h hold hname
    cases x with
    | branch role info policy cs =>
      have hcs : cs = before ++ c :: after := hx
      have hnode := ih hd hc
      simp only [withChildren, owned, hcs, ownedAll_append, ownedAll, List.count_append]
      omega
    | _ => exact absurd hx (by simp [children])

/-! ## §3. Taking out and putting back. -/

/-- What `detach?` took out of a tree stood in the scope at `parent`, first of its name. -/
theorem split_of_detach? {x : Symbol} {parent : Path} {name : String} {d : Detached}
    (h : x.detach? parent name = some d) :
    ∃ p, x.descend? parent.segments = some p ∧ p.child? name = some d.symbol ∧
      p.children.findIdx? (·.name = name) = some d.index ∧
      x.replace? parent.segments (p.withChildren (p.children.eraseIdx d.index)) = some d.rest := by
  simp only [detach?, bind, pure, Option.bind_eq_some_iff, Option.some.injEq] at h
  obtain ⟨p, hp, i, hi, found, hfound, rest, hrest, rfl⟩ := h
  refine ⟨p, hp, ?_, hi, hrest⟩
  rw [child?, List.find?_eq_bind_findIdx?_getElem?, hi, Option.bind_some, hfound]

/-- **Putting back what `detach?` took out, or another symbol in its place, is a `replace?`.** -/
theorem attach?_of_detach? {x : Symbol} {parent : Path} {name : String} {d : Detached}
    (h : x.detach? parent name = some d) (new : Symbol) :
    d.rest.attach? parent d.index new = x.replace? (parent.segments ++ [name]) new := by
  obtain ⟨p, hp, hchild, hidx, hrest⟩ := split_of_detach? h
  obtain ⟨hmem, -⟩ := child?_mem hchild
  -- taking a child out leaves the name of its scope, so the scope is found again
  have hname : (p.withChildren (p.children.eraseIdx d.index)).name = p.name := by
    rw [Symbol.name, info_withChildren, Symbol.name]
  have hlt : d.index < p.children.length := (List.findIdx?_eq_some_iff_findIdx_eq.1 hidx).1
  -- what is put back stands at the index it was taken from
  have hput : p.replace? [name] new = some (p.withChildren (p.children.set d.index new)) :=
    replace?_cons.2 ⟨d.symbol, new, hchild, replace?_nil _ _, by
      rw [replaceNamed_eq_set hidx]⟩
  rw [replace?_append hp hput, attach?, descend?_replace? hrest hp hname]
  simp only [bind, Option.bind_some, children_withChildren hmem, withChildren_withChildren,
    List.insertIdx_eraseIdx_self (Nat.ne_of_lt hlt), replace?_replace? hrest hp hname]

end ConfigTree.Symbol
