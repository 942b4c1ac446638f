import ConfigTree.Path
import Mathlib.Data.List.Induction

/-!
# Paths

A path goes outward name by name, and the paths on the way are its prefixes.

A path is written with dots between its names and read by splitting at the dots.  Reading drops
empty pieces and cannot tell a dot inside a name from one between two names, so it undoes writing on
just those paths whose names are nonempty and free of dots.  All paths that are read are of this
kind, and reading turns a dot between two texts into going on from one path by the other.

Main results:
  * `Path.mem_outward` — the paths on the way outward are the prefixes;
  * `Path.ofDotted_display_iff` — which paths read back from what is written for them;
  * `Path.validName_of_mem_ofDotted` — every name that is read can be written;
  * `Path.ofDotted_append_dot` — reading takes a dot between texts to putting paths together;
  * `Path.dotted_codec` — reading and writing of paths.
-/

namespace ConfigTree

namespace Path

variable {p q : Path} {k s : String}

/-! ## §1. The way outward from a path. -/

/-- Every path is the `root` path or a `child` of another. -/
theorem induct {motive : Path → Prop} (root : motive root)
    (child : ∀ p k, motive p → motive (p.child k)) (p : Path) : motive p := by
  obtain ⟨ks⟩ := p
  induction ks using List.reverseRecOn with
  | nil => exact root
  | append_singleton ks k ih => exact child ⟨ks⟩ k ih

theorem segments_of_splitLast? (h : p.splitLast? = some (q, k)) :
    p.segments = q.segments ++ [k] := by
  induction p using induct with
  | root => cases h
  | child r j _ =>
    rw [splitLast?_child, Option.some.injEq, Prod.mk.injEq] at h
    rw [← h.1, ← h.2, child]

@[simp] theorem depth_child (p : Path) (k : String) : (p.child k).depth = p.depth + 1 := by
  simp [depth, child]

@[simp] theorem parent?_root : root.parent? = none := rfl

@[simp] theorem parent?_child (p : Path) (k : String) : (p.child k).parent? = some p := by
  rw [parent?, splitLast?_child, Option.map_some]

theorem eq_of_child_eq {j : String} (h : p.child j = q.child k) : p = q := by
  have hparent := congrArg parent? h
  rwa [parent?_child, parent?_child, Option.some.injEq] at hparent

/-- **The path of the enclosing scope has a smaller `depth`**, so the way outward has an end. -/
theorem depth_lt_of_parent? (h : q.parent? = some p) : p.depth < q.depth := by
  induction q using induct with
  | root => cases h
  | child q k _ =>
    rw [parent?_child, Option.some.injEq] at h
    rw [depth_child, h]
    exact Nat.lt_succ_self _

@[simp] theorem ancestors_root : root.ancestors = [] := rfl

/-- The `ancestors` of `p.child k` begin at `p`. -/
@[simp] theorem ancestors_child (p : Path) (k : String) :
    (p.child k).ancestors = p :: p.ancestors := by
  have htake : ∀ n ∈ (List.range p.depth).reverse,
      (⟨(p.child k).segments.take n⟩ : Path) = ⟨p.segments.take n⟩ := by
    intro n hn
    have hlt : n < p.segments.length := List.mem_range.1 (List.mem_reverse.1 hn)
    rw [child, List.take_append_of_le_length (Nat.le_of_lt hlt)]
  have hself : (⟨(p.child k).segments.take p.depth⟩ : Path) = p := by
    rw [child, depth, List.take_left]
  rw [ancestors, depth_child, List.range_succ, List.reverse_append, List.reverse_singleton,
    List.singleton_append, List.map_cons, hself, List.map_congr_left htake, ancestors]

theorem isPrefixOf_iff : p.isPrefixOf q = true ↔ p.segments <+: q.segments :=
  List.isPrefixOf_iff_prefix

theorem isPrefixOf_root : q.isPrefixOf root = true ↔ q = root := by
  rw [isPrefixOf_iff, root, List.prefix_nil, Path.mk.injEq]

/-- A prefix of `p.child k` is that path itself or a prefix of `p`. -/
theorem isPrefixOf_child : q.isPrefixOf (p.child k) = true ↔
    q = p.child k ∨ q.isPrefixOf p = true := by
  rw [isPrefixOf_iff, isPrefixOf_iff, child, List.prefix_concat_iff, Path.mk.injEq]

theorem depth_le_of_isPrefixOf (h : q.isPrefixOf p = true) : q.depth ≤ p.depth :=
  (isPrefixOf_iff.1 h).length_le

/-- **The path `p` and its `ancestors` are the prefixes of `p`.** -/
theorem mem_outward : q ∈ p :: p.ancestors ↔ q.isPrefixOf p = true := by
  induction p using induct with
  | root => rw [ancestors_root, List.mem_singleton, isPrefixOf_root]
  | child p k ih => rw [ancestors_child, List.mem_cons, ih, isPrefixOf_child]

/-! ## §2. The pieces of a text. -/

/-- The `pieces` of `cs` are those that `List.splitOn` parts it into. -/
theorem pieces_eq_splitOn (cs : List Char) : pieces cs = cs.splitOn '.' := by
  induction cs with
  | nil => rfl
  | cons c cs ih =>
    rw [pieces, List.splitOn_cons_eq_if_modifyHead, ih]
    simp only [beq_iff_eq]
    split
    · rfl
    · cases hsplit : cs.splitOn '.' with
      | nil => exact absurd hsplit (List.splitOn_ne_nil '.' cs)
      | cons first others => rfl

/-- A dot anywhere in a text parts its `pieces`. -/
theorem pieces_append_dot (cs ds : List Char) :
    pieces (cs ++ '.' :: ds) = pieces cs ++ pieces ds := by
  simp only [pieces_eq_splitOn, List.splitOn_append_cons_self]

/-- Names without dots are the `pieces` of the text that joins them with dots. -/
theorem pieces_intercalate {names : List (List Char)} (h : ∀ cs ∈ names, '.' ∉ cs)
    (hne : names ≠ []) : pieces (['.'].intercalate names) = names := by
  rw [pieces_eq_splitOn, List.splitOn_intercalate '.' h hne]

/-- None of the `pieces` of a text has a dot in it. -/
theorem not_mem_of_mem_pieces {cs piece : List Char} (h : piece ∈ pieces cs) : '.' ∉ piece := by
  induction cs generalizing piece with
  | nil =>
    rw [List.mem_singleton.1 h]
    exact List.not_mem_nil
  | cons c cs ih =>
    unfold pieces at h
    split at h
    · -- the dot ends an empty piece, and the others are those of the rest
      rcases List.mem_cons.1 h with rfl | h
      · exact List.not_mem_nil
      · exact ih h
    · -- any other character goes on to the first piece of the rest
      rename_i hc
      have hdot : ¬ '.' = c := fun heq => hc heq.symm
      cases hpieces : pieces cs with
      | nil =>
        rw [pieces_eq_splitOn] at hpieces
        exact absurd hpieces (List.splitOn_ne_nil '.' cs)
      | cons first others =>
        rw [hpieces] at h ih
        rcases List.mem_cons.1 h with rfl | h
        · simp [hdot, ih List.mem_cons_self]
        · exact ih (List.mem_cons_of_mem _ h)

/-! ## §3. Paths that are read. -/

theorem validName_iff : validName k = true ↔ k ≠ "" ∧ '.' ∉ k.toList := by
  simp [validName]

/-- **Every name on a path that `ofDotted` reads can be written**: it comes from a nonempty
piece. -/
theorem validName_of_mem_ofDotted (h : k ∈ (ofDotted s).segments) : validName k = true := by
  obtain ⟨piece, hpiece, rfl⟩ := List.mem_map.1 h
  obtain ⟨hmem, hne⟩ := List.mem_filter.1 hpiece
  have hdot := not_mem_of_mem_pieces hmem
  rw [validName_iff, String.toList_ofList]
  refine ⟨fun hempty => ?_, hdot⟩
  have hnil := congrArg String.toList hempty
  rw [String.toList_ofList] at hnil
  simp [hnil] at hne

/-- **A dot between the texts `a` and `b` puts the path of `b` after that of `a`.** -/
theorem ofDotted_append_dot (a b : String) :
    ofDotted (a ++ "." ++ b) = ⟨(ofDotted a).segments ++ (ofDotted b).segments⟩ := by
  have htext : (a ++ "." ++ b).toList = a.toList ++ '.' :: b.toList := by simp
  unfold ofDotted
  rw [htext, pieces_append_dot, List.filter_append, List.map_append]

/-! ## §4. Paths that read back. -/

/-- The `pieces` of `p.display` are the names of `p`, if none of them has a dot in it. -/
theorem pieces_display (hne : p.segments ≠ []) (h : ∀ k ∈ p.segments, '.' ∉ k.toList) :
    pieces p.display.toList = p.segments.map String.toList := by
  rw [display, String.toList_intercalate]
  refine pieces_intercalate ?_ (by simpa using hne)
  intro cs hcs
  obtain ⟨k, hk, rfl⟩ := List.mem_map.1 hcs
  exact h k hk

/-- **A path of names that are valid by `validName` can be read back.** -/
theorem ofDotted_display (h : ∀ k ∈ p.segments, validName k = true) :
    ofDotted p.display = p := by
  obtain ⟨segments⟩ := p
  have hvalid := fun k hk => validName_iff.1 (h k hk)
  by_cases hnil : segments = []
  · -- the root path is written as the empty text, which has one piece, the empty one
    subst hnil
    rfl
  · have hpieces := pieces_display hnil fun k hk => (hvalid k hk).2
    -- dropping empty pieces drops nothing: no name is empty
    have hfilter : (segments.map String.toList).filter (· ≠ []) = segments.map String.toList := by
      refine List.filter_eq_self.2 fun cs hcs => ?_
      obtain ⟨k, hk, rfl⟩ := List.mem_map.1 hcs
      simpa using (hvalid k hk).1
    rw [ofDotted, hpieces, hfilter, List.map_map]
    simp [Function.comp_def]

/-- **The paths that read back are those of valid names**, by `validName`, which are the paths that
can be read. -/
theorem ofDotted_display_iff :
    ofDotted p.display = p ↔ ∀ k ∈ p.segments, validName k = true := by
  constructor
  · intro h k hk
    rw [← h] at hk
    exact validName_of_mem_ofDotted hk
  · exact ofDotted_display

/-- **Reading and writing of paths.** A path `p` reads back from `p.display` just if its names are
nonempty and free of dots; so are all names that `ofDotted` reads, and what was read reads back; and
a text that goes on after a dot spells a path that goes on. -/
theorem dotted_codec :
    (∀ p : Path, ofDotted p.display = p ↔ ∀ k ∈ p.segments, k ≠ "" ∧ '.' ∉ k.toList) ∧
      (∀ s : String, (∀ k ∈ (ofDotted s).segments, k ≠ "" ∧ '.' ∉ k.toList) ∧
        ofDotted (ofDotted s).display = ofDotted s) ∧
      ∀ a b : String,
        ofDotted (a ++ "." ++ b) = ⟨(ofDotted a).segments ++ (ofDotted b).segments⟩ ∧
          (ofDotted a).isPrefixOf (ofDotted (a ++ "." ++ b)) = true := by
  refine ⟨fun p => ?_, fun s => ⟨?_, ?_⟩, fun a b => ⟨ofDotted_append_dot a b, ?_⟩⟩
  · simp only [ofDotted_display_iff, validName_iff]
  · intro k hk
    exact validName_iff.1 (validName_of_mem_ofDotted hk)
  · exact ofDotted_display fun k hk => validName_of_mem_ofDotted hk
  · rw [isPrefixOf_iff, ofDotted_append_dot]
    exact List.prefix_append _ _

/-- Two names with stray dots around them read as a path that reads back, and a name with a dot in
it does not. -/
theorem dotted_codec_stray_dots :
    ("select" ∈ (ofDotted ".main..select.").segments ∧ "select" ≠ "" ∧ '.' ∉ "select".toList) ∧
      ofDotted (display ⟨["main", "select"]⟩) = ⟨["main", "select"]⟩ ∧
      ofDotted (display ⟨["main.select"]⟩) ≠ ⟨["main.select"]⟩ := by
  obtain ⟨reads_back, names, -⟩ := dotted_codec
  have hmem : "select" ∈ (ofDotted ".main..select.").segments := by decide
  refine ⟨⟨hmem, (names ".main..select.").1 "select" hmem⟩, (reads_back _).2 (by decide), ?_⟩
  intro h
  have hdot := ((reads_back ⟨["main.select"]⟩).1 h "main.select" List.mem_cons_self).2
  exact hdot (by decide)

end Path

end ConfigTree
