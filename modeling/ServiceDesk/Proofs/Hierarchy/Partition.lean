import Mathlib.Algebra.GroupWithZero.Nat
import Mathlib.Data.List.Perm.Basic
import ServiceDesk.Proofs.Hierarchy.Assembly
import ServiceDesk.Proofs.Hierarchy.Limits

/-!
All trees of a flat list that may be damaged in any way. They grow and use up the list exactly if no
id is there twice and from every entity the climb over the parent links ends at a root, within the
greatest depth. Then they start from the entities without a parent, and hold every entity once. If
they do not, the list is to blame, for the search only ever goes to ids that are there.
-/

namespace ServiceDesk

open Hierarchy

namespace Hierarchy

variable {α : Type} [Nested α] {items : List α}

theorem nodup_of_firstRepeat? (h : firstRepeat? [] (items.map Nested.id) = none) :
    (items.map Nested.id).Nodup := by
  by_contra hrepeat
  obtain ⟨_, _, _, _, _, _, hfirst⟩ :=
    Tree.firstRepeat?_eq_some [] (by simpa using hrepeat) List.nodup_nil
  rw [h] at hfirst
  cases hfirst

/-- No id is there twice, and every climb ends at a root within the greatest depth. -/
structure Climbable (items : List α) : Prop where
  distinct : (items.map Nested.id).Nodup
  climbs : ∀ item ∈ items, ∃ above,
    (Lineage.ofItems items).ancestors (Nested.id item) = .ok above ∧ above.length < maxDepth

/-- The climbs judge a flat list as its levels do. -/
theorem climbable_iff_forest : Climbable items ↔ Forest (linksOf items) := by
  constructor
  · rintro ⟨hnodup, hclimbs⟩
    refine .of_levels (by rwa [keys_linksOf]) fun id hid => ?_
    rw [keys_linksOf] at hid
    obtain ⟨item, hitem, rfl⟩ := List.mem_map.1 hid
    obtain ⟨above, habove, hshort⟩ := hclimbs item hitem
    have hlevel := Lineage.level_of_ancestors habove
    rw [Lineage.links_ofItems hnodup] at hlevel
    exact ⟨above.length + 1, hshort, hlevel⟩
  · intro hforest
    have hnodup := hforest.nodup
    rw [keys_linksOf] at hnodup
    refine ⟨hnodup, fun item hitem => ?_⟩
    have hid : Nested.id item ∈ keys (linksOf items) :=
      mem_keys_of_mem (mem_linksOf.2 ⟨item, hitem, rfl, rfl⟩)
    obtain ⟨level, hle, hlevel⟩ := hforest.shallow _ hid
    rw [← Lineage.links_ofItems hnodup] at hlevel
    obtain ⟨above, habove, rfl, _⟩ := Lineage.ancestors_of_level hlevel
    exact ⟨above, habove, hle⟩

end Hierarchy

namespace Tree

variable {α : Type} [Nested α] {items : List α} {trees : List (Tree α)}

/-- All trees of a flat list have grown from its roots, and every id was used. -/
theorem forestOfItems_eq_ok (h : forestOfItems items = .ok trees) :
    (items.map Nested.id).Nodup ∧ ∃ used,
      growAll (Tree.grow items maxDepth) (rootIds items) [] = .ok (trees, used) ∧
        ∀ item ∈ items, Nested.id item ∈ used := by
  rw [forestOfItems] at h
  split at h
  · cases h
  · rename_i hnone
    obtain ⟨⟨grown, used⟩, hgrow, h⟩ := bind_eq_ok.1 h
    dsimp only at h
    split at h
    · cases h
    · rename_i hstray
      cases h
      refine ⟨nodup_of_firstRepeat? hnone, used, hgrow, fun item hitem => ?_⟩
      simpa using List.find?_eq_none.1 hstray item hitem

/-- The trees of a flat list start from its roots and draw the list. -/
theorem draws_of_forestOfItems (h : forestOfItems items = .ok trees) :
    List.Forall₂ (fun id tree => Nested.id tree.entity = id ∧ tree.Draws items)
      (rootIds items) trees := by
  obtain ⟨hnodup, used, hgrow, _⟩ := forestOfItems_eq_ok h
  exact growAll_forall₂ (fun _ _ _ _ htree => draws_of_grow hnodup htree) hgrow

theorem draws_of_mem (h : forestOfItems items = .ok trees) {tree : Tree α} (htree : tree ∈ trees) :
    tree.Draws items := by
  obtain ⟨_, _, _, hdraws⟩ := exists_of_forall₂ (draws_of_forestOfItems h) htree
  exact hdraws

/-- Every entity of the list has a root above it, from which the levels suffice for it. -/
theorem forest_of_forestOfItems (h : forestOfItems items = .ok trees) :
    Forest (linksOf items) := by
  obtain ⟨hnodup, used, hgrow, hused⟩ := forestOfItems_eq_ok h
  have hdraws := draws_of_forestOfItems h
  have hroom : List.Forall₂ (fun id _ => ∀ other steps, Below (linksOf items) id other steps →
      steps < maxDepth) (rootIds items) trees :=
    growAll_forall₂ (fun _ _ _ _ htree _ _ => room_of_grow hnodup htree) hgrow
  refine .of_levels (by rwa [keys_linksOf]) fun id hid => ?_
  rw [keys_linksOf] at hid
  obtain ⟨item, hitem, rfl⟩ := List.mem_map.1 hid
  have hmem := hused item hitem
  rw [used_of_growAll (fun _ _ _ _ => used_of_grow) hgrow, List.append_nil, List.mem_reverse] at hmem
  obtain ⟨other, hother, hsame⟩ := List.mem_map.1 hmem
  obtain ⟨tree, htree, hother⟩ := List.mem_flatMap.1 hother
  obtain ⟨_, hroot, rfl, hdrawn⟩ := exists_of_forall₂ hdraws htree
  obtain ⟨_, steps, hbelow⟩ := (mem_preorder_iff hnodup hdrawn).1 hother
  obtain ⟨_, _, hshort⟩ := exists_of_forall₂ hroom.flip hroot
  rw [hsame] at hbelow
  refine ⟨1 + steps, ?_, (Level.root (mem_rootIds.1 hroot)).of_below hbelow⟩
  have := hshort _ _ hbelow
  omega

/-- Trees that show the entities of a flat list: they start from those without a parent, hold every
entity once, and have the children of every node, each in the order of the list. -/
structure Partitions (items : List α) (trees : List (Tree α)) : Prop where
  roots : trees.map entity = items.filter fun item => Nested.parentId item = none
  whole : (trees.flatMap preorder).Perm items
  ordered : ∀ tree ∈ trees, ∀ node, Within node tree → node.children.map entity =
    items.filter fun item => Nested.parentId item = some (Nested.id node.entity)

/-- The sizes of the trees add up to the length of the list. -/
theorem Partitions.sum_size (h : Partitions items trees) :
    (trees.map size).sum = items.length := by
  rw [← h.whole.length_eq, List.length_flatMap]
  exact congrArg List.sum (List.map_congr_left fun tree _ => tree.size_eq_length)

theorem partitions_of_forestOfItems (h : forestOfItems items = .ok trees) :
    Partitions items trees := by
  obtain ⟨hnodup, used, hgrow, hused⟩ := forestOfItems_eq_ok h
  have honce := nodup_of_growAll (fun _ _ _ _ => nodup_of_grow) hgrow List.nodup_nil
  rw [used_of_growAll (fun _ _ _ _ => used_of_grow) hgrow, List.append_nil] at honce hused
  rw [List.nodup_reverse] at honce
  have hsub : ∀ item ∈ trees.flatMap preorder, item ∈ items := by
    intro item hmem
    obtain ⟨tree, htree, hitem⟩ := List.mem_flatMap.1 hmem
    exact ((mem_preorder_iff hnodup (draws_of_mem h htree)).1 hitem).1
  refine ⟨?_, ?_, fun tree htree node hnode => (draws_of_mem h htree node hnode).2⟩
  · refine map_entity_of_forall₂ hnodup (List.filter_subset_self _)
      ((draws_of_forestOfItems h).imp ?_)
    exact fun _ _ hroot => ⟨hroot.1, (hroot.2 _ .whole).1⟩
  · refine (List.perm_ext_iff_of_nodup honce.of_map hnodup.of_map).2 fun item => ⟨hsub item, ?_⟩
    intro hitem
    obtain ⟨other, hother, hsame⟩ := List.mem_map.1 (List.mem_reverse.1 (hused item hitem))
    rwa [← eq_of_id hnodup (hsub other hother) hitem hsame]

theorem forestOfItems_eq_error {error : DeskError} (h : forestOfItems items = .error error) :
    ∃ blamed, error = .corrupt blamed := by
  rw [forestOfItems] at h
  split at h
  · rename_i id _
    cases h
    exact ⟨id, rfl⟩
  · cases hgrow : growAll (Tree.grow items maxDepth) (rootIds items) [] with
    | error fault =>
        simp only [hgrow, bind, Except.bind] at h
        cases h
        obtain ⟨root, hroot, _, hfault⟩ := growAll_eq_error hgrow
        exact grow_eq_error (mem_keys_of_mem (mem_rootIds.1 hroot)) hfault
    | ok grown =>
        simp only [hgrow, bind, Except.bind] at h
        split at h
        · rename_i stray _
          cases h
          exact ⟨Nested.id stray, rfl⟩
        · cases h

/-- All trees of a flat list are there just if every entity climbs to a root within the greatest
depth, and then they hold every entity of the list once. Otherwise the list is blamed. -/
theorem forestOfItems_partitions (items : List α) :
    ((forestOfItems items).isOk = true ↔ Climbable items) ∧
    (∀ trees, forestOfItems items = .ok trees → Partitions items trees) ∧
    (¬Climbable items → ∃ blamed, forestOfItems items = .error (.corrupt blamed)) := by
  have hsound : ∀ trees, forestOfItems items = .ok trees → Climbable items :=
    fun trees htrees => climbable_iff_forest.2 (forest_of_forestOfItems htrees)
  refine ⟨⟨fun hok => ?_, fun hclimb => forestOfItems_isOk (climbable_iff_forest.1 hclimb)⟩,
    fun trees htrees => partitions_of_forestOfItems htrees, fun hbroken => ?_⟩
  · cases htrees : forestOfItems items with
    | ok trees => exact hsound trees htrees
    | error fault =>
        rw [htrees] at hok
        cases hok
  · cases htrees : forestOfItems items with
    | ok trees => exact absurd (hsound trees htrees) hbroken
    | error fault =>
        obtain ⟨blamed, rfl⟩ := forestOfItems_eq_error htrees
        exact ⟨blamed, rfl⟩

end Tree

end ServiceDesk
