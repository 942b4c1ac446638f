import ConfigTree.Proofs.Clone
import Mathlib.Data.List.Pairwise

/-!
# Links across a clone

A clone has its own objects, and its links should lead to these.  A link is pointed at the duplicate
of its target only if it stands below the binding that owns the target; a tree all of whose links do
is called tethered.  A link that was moved out from under the owner, but not out of the tree, is the
one that a clone shares with the original.

Main results:
  * `Symbol.owner_unique` — an object has one owner in a tree that owns no object twice;
  * `Symbol.link_duplicated` — what becomes of a link to an owned object;
  * `Symbol.linksFollow_iff` — the links of a clone follow exactly if the tree is tethered;
  * `Symbol.apart_duplicated_iff` — when a clone leads to nothing that the original owns.
-/

namespace ConfigTree

namespace Symbol

variable {x y z b c : Symbol} {js ks : List String} {id : ObjectId}

/-! ## §1. Nodes and their objects. -/

/-- The objects that a node itself leads to. -/
def objectsHere : Symbol → List ObjectId
  | scalar s => s.storage.objects
  | function _ => []
  | branch role _ _ _ => role.objects

theorem objects_eq (x : Symbol) : x.objects = x.objectsHere ++ objectsAll x.children := by
  cases x with
  | scalar s => exact (List.append_nil _).symm
  | function f => rfl
  | branch role info policy cs => rfl

theorem owned_eq (x : Symbol) : x.owned = ownedAll x.children ++ x.ownedHere?.toList := by
  cases x <;> rfl

/-- A tree leads to what its nodes lead to by `objectsHere`. -/
theorem mem_objects_iff : id ∈ x.objects ↔ ∃ ks z, x.At ks z ∧ id ∈ z.objectsHere := by
  constructor
  · intro h
    induction x with
    | scalar s => exact ⟨[], _, rfl, h⟩
    | function f => cases h
    | branch role info policy cs ih =>
      rw [objects_eq, List.mem_append, objectsAll_eq_flatMap, List.mem_flatMap] at h
      rcases h with h | ⟨c, hc, h⟩
      · exact ⟨[], _, rfl, h⟩
      · obtain ⟨ks, z, hz, hid⟩ := ih c hc h
        exact ⟨c.name :: ks, z, ⟨c, hc, rfl, hz⟩, hid⟩
  · rintro ⟨ks, z, hz, hid⟩
    refine objects_subset_of_at hz ?_
    rw [objects_eq]
    exact List.mem_append_left _ hid

/-- A tree owns what its bindings own by `ownedHere?`. -/
theorem mem_owned_iff : id ∈ x.owned ↔ ∃ ks z, x.At ks z ∧ z.ownedHere? = some id := by
  rw [← List.count_pos_iff, count_owned x .root, List.countP_pos_iff]
  constructor
  · rintro ⟨⟨p, z⟩, hmem, hid⟩
    obtain ⟨ks, -, hz⟩ := mem_preorder.1 hmem
    exact ⟨ks, z, hz, by simpa using hid⟩
  · rintro ⟨ks, z, hz, hid⟩
    exact ⟨(⟨Path.root.segments ++ ks⟩, z), mem_preorder.2 ⟨ks, rfl, hz⟩, by simpa using hid⟩

/-- **An object has one owner in a tree that owns no object twice**, in that `x.owned` has no
duplicates. -/
theorem owner_unique (h : x.owned.Nodup) (hb : x.At js b) (hc : x.At ks c)
    (hbid : b.ownedHere? = some id) (hcid : c.ownedHere? = some id) : js = ks := by
  induction js generalizing x ks with
  | nil =>
    cases ks with
    | nil => rfl
    | cons k ks =>
      -- the root owns what is owned below it
      obtain ⟨d, hd, -, hc⟩ := hc
      rw [(at_nil _ _).1 hb] at hbid
      rw [owned_eq, hbid] at h
      have hbelow : id ∈ ownedAll x.children := by
        rw [ownedAll_eq_flatMap, List.mem_flatMap]
        exact ⟨d, hd, mem_owned_iff.2 ⟨ks, c, hc, hcid⟩⟩
      exact absurd rfl ((List.nodup_append.1 h).2.2 id hbelow id (List.mem_singleton_self _))
  | cons j js ih =>
    obtain ⟨d, hd, rfl, hb⟩ := hb
    have hdid : id ∈ d.owned := mem_owned_iff.2 ⟨js, b, hb, hbid⟩
    rw [owned_eq] at h
    obtain ⟨hbelow, -, hdisjoint⟩ := List.nodup_append.1 h
    rw [ownedAll_eq_flatMap] at hbelow
    cases ks with
    | nil =>
      rw [(at_nil _ _).1 hc] at hcid
      refine absurd rfl (hdisjoint id ?_ id ?_)
      · rw [ownedAll_eq_flatMap, List.mem_flatMap]
        exact ⟨d, hd, hdid⟩
      · rw [hcid]
        exact List.mem_singleton_self _
    | cons k ks =>
      obtain ⟨e, he, rfl, hc⟩ := hc
      have heid : id ∈ e.owned := mem_owned_iff.2 ⟨ks, c, hc, hcid⟩
      obtain ⟨hself, hpairwise⟩ := List.nodup_flatMap.1 hbelow
      -- the children own disjoint objects, so the way down is the same
      have hsame : d = e := by
        by_contra hne
        have : Std.Symm (Function.onFun List.Disjoint owned) :=
          ⟨fun _ _ hdisjoint _ he hd => hdisjoint hd he⟩
        exact hpairwise.forall hd he hne hdid heid
      subst hsame
      rw [ih (hself d hd) hb hc]

/-! ## §2. Tethered links. -/

/-- A scalar that is kept outside the tree, by the link `l`. -/
def linked (info : Info) (l : Link) : Symbol := .scalar ⟨info, .linked l⟩

/-- Every link to an object that the tree `x` owns stands below the binding that owns the object. -/
def Tethered (x : Symbol) : Prop :=
  ∀ ks info t f js b, x.At ks (linked info (.field t f)) → x.At js b → b.ownedHere? = some t →
    js <+: ks

/-- No binding of the tree `x` borrows an object that the tree owns. -/
def Unaliased (x : Symbol) : Prop :=
  ∀ ks info policy cs h, x.At ks (.branch (.object (some h)) info policy cs) → h.owned = false →
    h.id ∉ x.owned

/-- The links of the tree `x` follow its objects into the tree `y`, where these were made anew, with
indices from `made` on. -/
structure LinksFollow (made : Nat) (x y : Symbol) : Prop where
  /-- A link to an owned object leads to the new object of the counterpart of the owner. -/
  followed : ∀ ks info t f js b, x.At ks (linked info (.field t f)) → x.At js b →
    b.ownedHere? = some t → ∃ b' t', y.At js b' ∧ b'.ownedHere? = some t' ∧ made ≤ t'.index ∧
      y.At ks (linked info (.field t' f))
  /-- Any other link keeps its target. -/
  kept : ∀ ks info l, x.At ks (linked info l) → (∀ t ∈ l.objects, t ∉ x.owned) →
    y.At ks (linked info l)

/-! ## §3. Links of a duplicate. -/

section Duplicate

variable {info : Info} {l : Link} {t : ObjectId} {f : Field} {g : ObjectId → ObjectId}
  {owners : List ObjectId} {made : Nat}

/-- Whatever stands in a tree that was `duplicated` is the counterpart of something. -/
theorem at_of_duplicated (h : (x.duplicated g owners).At ks z) : ∃ y, x.At ks y := by
  induction ks generalizing x owners with
  | nil => exact ⟨x, rfl⟩
  | cons k ks ih =>
    obtain ⟨c, hc, hname, hz⟩ := h
    rw [children_duplicated] at hc
    obtain ⟨d, hd, rfl⟩ := List.mem_map.1 hc
    obtain ⟨y, hy⟩ := ih hz
    exact ⟨y, d, hd, (name_duplicated g _ d).symm.trans hname, hy⟩

theorem coherent_duplicated (hx : x.Coherent) (g : ObjectId → ObjectId) (owners : List ObjectId) :
    (x.duplicated g owners).Coherent :=
  coherent_of_frame (frame_duplicated g owners x).symm hx

/-- The counterpart of an owner `b` owns the object `t` under its new name `g t`. -/
theorem owner_duplicated (hx : x.Coherent) (hb : x.At js b) (hid : b.ownedHere? = some t)
    (g : ObjectId → ObjectId) :
    ∃ b', (x.duplicated g []).At js b' ∧ b'.ownedHere? = some (g t) := by
  obtain ⟨owners, hat, -⟩ := at_duplicated hx hb g []
  refine ⟨_, hat, ?_⟩
  rw [ownedHere?_duplicated, hid, Option.map_some]

/-- **A link to an owned object `t` is pointed at `g t` exactly if it stands below the owner.** -/
theorem link_duplicated (hx : x.Coherent) (hnodup : x.owned.Nodup)
    (hz : x.At ks (linked info (.field t f))) (hb : x.At js b) (hid : b.ownedHere? = some t)
    (g : ObjectId → ObjectId) :
    (x.duplicated g []).At ks (linked info (.field (if js <+: ks then g t else t) f)) := by
  obtain ⟨owners, hat, howners⟩ := at_duplicated hx hz g []
  -- its owner is above the link exactly if the names of the one begin those of the other
  have hmem : t ∈ owners ↔ js <+: ks := by
    rw [howners]
    constructor
    · rintro (hnil | ⟨js', b', hprefix, -, hb', hid'⟩)
      · cases hnil
      · rwa [owner_unique hnodup hb hb' hid hid']
    · intro hprefix
      refine .inr ⟨js, b, hprefix, ?_, hb, hid⟩
      rintro rfl
      rw [hx.at_unique hb hz] at hid
      cases hid
  have htarget : (linked info (.field t f)).duplicated g owners =
      linked info (.field (if t ∈ owners then g t else t) f) := rfl
  rw [htarget] at hat
  simpa only [hmem] using hat

/-- A link that leads to nothing that the tree owns is kept. -/
theorem link_kept (hx : x.Coherent) (hz : x.At ks (linked info l))
    (hl : ∀ t ∈ l.objects, t ∉ x.owned) (g : ObjectId → ObjectId) :
    (x.duplicated g []).At ks (linked info l) := by
  obtain ⟨owners, hat, howners⟩ := at_duplicated hx hz g []
  cases l with
  | cell id => exact hat
  | field t f =>
    have hmem : t ∉ owners := by
      rw [howners]
      rintro (hnil | ⟨js, b, -, -, hb, hid⟩)
      · cases hnil
      · exact hl t (List.mem_singleton_self t) (mem_owned_iff.2 ⟨js, b, hb, hid⟩)
    have htarget : (linked info (.field t f)).duplicated g owners =
        linked info (.field (if t ∈ owners then g t else t) f) := rfl
    rwa [htarget, if_neg hmem] at hat

/-- **The links of a duplicate follow, by `LinksFollow`, exactly if the tree is `Tethered`.** -/
theorem linksFollow_iff (hx : x.Coherent) (hnodup : x.owned.Nodup)
    (hold : ∀ id ∈ x.owned, id.index < made) (hnew : ∀ id ∈ x.owned, made ≤ (g id).index) :
    LinksFollow made x (x.duplicated g []) ↔ x.Tethered := by
  constructor
  · intro h ks info t f js b hz hb hid
    obtain ⟨b', t', -, -, hfresh, hz'⟩ := h.followed ks info t f js b hz hb hid
    have hcounterpart := link_duplicated hx hnodup hz hb hid g
    by_contra hprefix
    rw [if_neg hprefix] at hcounterpart
    -- the counterpart still leads to the old object, which is not a new one
    have hsame := (coherent_duplicated hx g []).at_unique hz' hcounterpart
    have hlt := hold t (mem_owned_iff.2 ⟨js, b, hb, hid⟩)
    have htarget : t' = t := by
      unfold linked at hsame
      injection hsame with hscalar
      injection hscalar with _ hstorage
      injection hstorage with hlink
      injection hlink
    rw [htarget] at hfresh
    omega
  · intro h
    refine ⟨fun ks info t f js b hz hb hid => ?_, fun ks info l hz hl => link_kept hx hz hl g⟩
    have hcounterpart := link_duplicated hx hnodup hz hb hid g
    rw [if_pos (h ks info t f js b hz hb hid)] at hcounterpart
    obtain ⟨b', hb', hid'⟩ := owner_duplicated hx hb hid g
    exact ⟨b', g t, hb', hid', hnew t (mem_owned_iff.2 ⟨js, b, hb, hid⟩), hcounterpart⟩

/-- What a duplicate of a `Tethered` and `Unaliased` tree leads to is new, or is nothing that the
tree owns. -/
theorem new_or_foreign (hx : x.Coherent) (htethered : x.Tethered) (hunaliased : x.Unaliased)
    (hid : id ∈ (x.duplicated g []).objects) : (∃ old ∈ x.owned, id = g old) ∨ id ∉ x.owned := by
  obtain ⟨ks, z', hz', hhere⟩ := mem_objects_iff.1 hid
  obtain ⟨z, hz⟩ := at_of_duplicated hz'
  obtain ⟨owners, hat, howners⟩ := at_duplicated hx hz g []
  rw [(coherent_duplicated hx g []).at_unique hz' hat] at hhere
  rcases z with ⟨info, _ | _ | ⟨t, f⟩⟩ | _ | ⟨_ | _ | ⟨old, owned⟩, info, policy, cs⟩
  · cases hhere
  · cases hhere
  · have hhere : id = if t ∈ owners then g t else t := List.mem_singleton.1 hhere
    split at hhere
    case isTrue hmem =>
      left
      obtain hnil | ⟨js, b, -, -, hb, hbid⟩ := (howners t).1 hmem
      · cases hnil
      · exact ⟨t, mem_owned_iff.2 ⟨js, b, hb, hbid⟩, hhere⟩
    case isFalse hmem =>
      right
      subst hhere
      intro hown
      -- a link to an owned object stands below the owner, so it would have been pointed elsewhere
      obtain ⟨js, b, hb, hbid⟩ := mem_owned_iff.1 hown
      have hprefix := htethered ks info id f js b hz hb hbid
      refine hmem ((howners id).2 (.inr ⟨js, b, hprefix, ?_, hb, hbid⟩))
      rintro rfl
      rw [hx.at_unique hb hz] at hbid
      cases hbid
  · cases hhere
  · cases hhere
  · cases hhere
  · cases owned with
    | true => exact .inl ⟨old, mem_owned_iff.2 ⟨ks, _, hz, rfl⟩, List.mem_singleton.1 hhere⟩
    | false =>
      rw [show id = old from List.mem_singleton.1 hhere]
      exact .inr (hunaliased ks info policy cs ⟨old, false⟩ hz rfl)

/-- **When a duplicate leads to nothing that the tree owns**: if the tree is `Tethered` and
`Unaliased`. -/
theorem apart_duplicated_iff (hx : x.Coherent) (hnodup : x.owned.Nodup)
    (hold : ∀ id ∈ x.owned, id.index < made) (hnew : ∀ id ∈ x.owned, made ≤ (g id).index) :
    (∀ id ∈ (x.duplicated g []).objects, id ∉ x.owned) ↔ x.Tethered ∧ x.Unaliased := by
  constructor
  · intro h
    refine ⟨fun ks info t f js b hz hb hid => ?_, fun ks info policy cs handle hz hborrowed => ?_⟩
    · have hcounterpart := link_duplicated hx hnodup hz hb hid g
      by_contra hprefix
      rw [if_neg hprefix] at hcounterpart
      refine h t (mem_objects_iff.2 ⟨ks, _, hcounterpart, ?_⟩) (mem_owned_iff.2 ⟨js, b, hb, hid⟩)
      exact List.mem_singleton_self t
    · -- a borrowed handle is kept
      obtain ⟨owners, hat, -⟩ := at_duplicated hx hz g []
      refine h handle.id (mem_objects_iff.2 ⟨ks, _, hat, ?_⟩)
      obtain ⟨id, owned⟩ := handle
      cases hborrowed
      exact List.mem_singleton_self id
  · rintro ⟨htethered, hunaliased⟩ id hid hown
    rcases new_or_foreign hx htethered hunaliased hid with ⟨old, hmem, rfl⟩ | hforeign
    · have hlow := hnew old hmem
      have hhigh := hold _ hown
      omega
    · exact hforeign hown

end Duplicate

end Symbol

end ConfigTree
