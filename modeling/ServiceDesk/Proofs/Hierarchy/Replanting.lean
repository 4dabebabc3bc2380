import ServiceDesk.Proofs.Hierarchy.Views

/-!
Trees that are laid out flat and grown again. In pre-order the children of a node keep their order,
although all that is below one of them comes before the next. So the entities of a tree in pre-order
are a flat list from which the same tree grows, and those of all trees one from which all of them do,
whatever the list was like from which they grew at first.
-/

namespace ServiceDesk

open Hierarchy

namespace Tree

variable {α : Type}

/-! ### Pre-order keeps what stands side by side in order -/

/-- A part of a list without repetition is told by its members. -/
theorem eq_filter_of_sublist {flat row : List α} {select : α → Bool} (hnodup : flat.Nodup)
    (hsub : row.Sublist flat) (hmem : ∀ item ∈ flat, item ∈ row ↔ select item = true) :
    row = flat.filter select := by
  have hall : row.filter select = row :=
    List.filter_eq_self.2 fun item hitem => (hmem item (hsub.subset hitem)).1 hitem
  have hinto : row.Sublist (flat.filter select) := hall ▸ hsub.filter select
  refine hinto.eq_of_length_le (List.subperm_of_subset (hnodup.filter _) ?_).length_le
  intro item hitem
  obtain ⟨hflat, hselect⟩ := List.mem_filter.1 hitem
  exact (hmem item hflat).2 hselect

theorem entity_mem_preorder (tree : Tree α) : tree.entity ∈ tree.preorder := by
  rw [preorder_eq_cons]
  exact List.mem_cons_self

/-- The roots of some trees keep their order when all trees are laid out. -/
theorem entities_sublist (trees : List (Tree α)) :
    (trees.map entity).Sublist (trees.flatMap preorder) := by
  induction trees with
  | nil => exact List.Sublist.refl _
  | cons tree trees ih =>
      have hroot : [tree.entity].Sublist tree.preorder :=
        List.singleton_sublist.2 tree.entity_mem_preorder
      rw [List.map_cons, List.flatMap_cons]
      exact hroot.append ih

/-- One of several trees is laid out without a gap. -/
theorem preorder_sublist_flatMap {tree : Tree α} {trees : List (Tree α)} (h : tree ∈ trees) :
    tree.preorder.Sublist (trees.flatMap preorder) := by
  obtain ⟨front, rest, rfl⟩ := List.append_of_mem h
  rw [List.flatMap_append, List.flatMap_cons]
  exact (List.sublist_append_left _ _).trans (List.sublist_append_right _ _)

theorem Within.preorder_sublist {node tree : Tree α} (h : Within node tree) :
    node.preorder.Sublist tree.preorder := by
  induction h with
  | whole => exact List.Sublist.refl _
  | child hchild _ ih =>
      rw [preorder_node]
      exact (ih.trans (preorder_sublist_flatMap hchild)).cons _

/-! ### What a layout draws -/

variable [Nested α] {items flat : List α} {tree : Tree α} {trees : List (Tree α)} {root : Uuid}

/-- A tree draws every list in which it is laid out and which adds nothing to the list it has been
drawn from: the children of a node are in the list, in their order, and nothing else there has the
node for its parent. -/
theorem Draws.of_sublist (h : tree.Draws items) (hnodup : flat.Nodup) (hsub : flat ⊆ items)
    (hlaid : tree.preorder.Sublist flat) : tree.Draws flat := by
  intro node hwithin
  obtain ⟨_, hchildren⟩ := h node hwithin
  have hnode : node.preorder.Sublist flat := hwithin.preorder_sublist.trans hlaid
  have hrow : (node.children.map entity).Sublist flat := by
    rw [preorder_eq_cons] at hnode
    exact (entities_sublist node.children).trans (List.sublist_of_cons_sublist hnode)
  refine ⟨hnode.subset node.entity_mem_preorder, eq_filter_of_sublist hnodup hrow fun item hitem => ?_⟩
  rw [hchildren, List.mem_filter]
  exact and_iff_right (hsub hitem)

/-- Fewer entities leave a list sound below a root that is still there. -/
theorem Rooted.subset (h : Rooted items root) (hnodup : (flat.map Nested.id).Nodup)
    (hsub : flat ⊆ items) (hroot : root ∈ flat.map Nested.id) : Rooted flat root where
  distinct := hnodup
  known := hroot
  free := fun hcircle => h.free (hcircle.mono (List.map_subset _ hsub))
  shallow := fun id steps hbelow => h.shallow id steps (hbelow.mono (List.map_subset _ hsub))

/-! ### Growing again -/

theorem ofItems_preorder (h : ofItems items root = .ok tree) :
    ofItems tree.preorder root = .ok tree := by
  obtain ⟨hrooted, hrebuilds⟩ := rebuilds_of_ofItems h
  obtain ⟨hstart, hdraws⟩ := draws_of_ofItems h
  have hsub : tree.preorder ⊆ items := fun item hitem => ((hrebuilds.whole item).1 hitem).1
  have hroot : root ∈ tree.preorder.map Nested.id :=
    hstart ▸ List.mem_map_of_mem tree.entity_mem_preorder
  have hsound : Rooted tree.preorder root := hrooted.subset hrebuilds.once hsub hroot
  refine ofItems_of_isOk hsound.ofItems_isOk ?_ hstart
  exact hdraws.of_sublist hrebuilds.once.of_map hsub (List.Sublist.refl _)

theorem forestOfItems_flatMap_preorder (h : forestOfItems items = .ok trees) :
    forestOfItems (trees.flatMap preorder) = .ok trees := by
  obtain ⟨hdistinct, _⟩ := forestOfItems_eq_ok h
  obtain ⟨hroots, hwhole, _⟩ := partitions_of_forestOfItems h
  have hnodup : ((trees.flatMap preorder).map Nested.id).Nodup :=
    (hwhole.map Nested.id).nodup_iff.2 hdistinct
  have hforest : Forest (linksOf (trees.flatMap preorder)) :=
    (forest_of_forestOfItems h).perm (hwhole.map _).symm
  obtain ⟨grown, hgrown⟩ := exists_of_isOk (forestOfItems_isOk hforest)
  have htops : trees.map entity =
      (trees.flatMap preorder).filter fun item => Nested.parentId item = none := by
    refine eq_filter_of_sublist hnodup.of_map (entities_sublist trees) fun item hitem => ?_
    rw [hroots, List.mem_filter]
    exact and_iff_right (hwhole.subset hitem)
  have hsame : grown = trees := by
    refine eq_of_map_entity ((partitions_of_forestOfItems hgrown).roots.trans htops.symm) ?_
    intro a ha b hb hentity
    have hdraws : b.Draws (trees.flatMap preorder) :=
      (draws_of_mem h hb).of_sublist hnodup.of_map hwhole.subset (preorder_sublist_flatMap hb)
    exact Draws.unique hnodup (draws_of_mem hgrown ha) hdraws (congrArg Nested.id hentity)
  rw [hgrown, hsame]

/-- From the entities of a tree in pre-order the same tree grows, and from those of all trees, one
tree after another, the same trees. -/
theorem regrows_from_preorder (items : List α) :
    (∀ root tree, ofItems items root = .ok tree → ofItems tree.preorder root = .ok tree) ∧
    ∀ trees, forestOfItems items = .ok trees →
      forestOfItems (trees.flatMap preorder) = .ok trees :=
  ⟨fun _ _ => ofItems_preorder, fun _ => forestOfItems_flatMap_preorder⟩

/-- The branch comes before its head office in the list, and behind it in the layout. -/
theorem regrows_from_preorder_offices :
    let tree : Tree Organization := .node offices[1] [.node offices[0] []]
    ofItems offices ⟨1, by decide⟩ = .ok tree ∧
    ofItems [offices[1], offices[0]] ⟨1, by decide⟩ = .ok tree ∧
    forestOfItems offices = .ok [tree] ∧ forestOfItems [offices[1], offices[0]] = .ok [tree] := by
  intro tree
  have htree : ofItems offices ⟨1, by decide⟩ = .ok tree := by rfl
  have hforest : forestOfItems offices = .ok [tree] := by rfl
  have hlayout : tree.preorder = [offices[1], offices[0]] := by simp [tree, preorder, visit]
  obtain ⟨hone, hall⟩ := regrows_from_preorder offices
  have hagain := hone _ tree htree
  have hagainAll := hall [tree] hforest
  rw [List.flatMap_cons, List.flatMap_nil, List.append_nil, hlayout] at hagainAll
  rw [hlayout] at hagain
  exact ⟨htree, hagain, hforest, hagainAll⟩

end Tree

end ServiceDesk
