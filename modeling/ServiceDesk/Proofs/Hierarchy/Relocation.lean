import ServiceDesk.Proofs.Hierarchy.Views
import ServiceDesk.Proofs.Store.Contents

/-!
An entity of a forest that is hung below another one. All that lies below it moves with it: its tree
keeps its shape, and the paths in it differ from those before by what leads to its root. What does
not lie below it keeps its path, for the entities above a node are the same in every flat list that
has the node and all of them.
-/

namespace ServiceDesk

open Hierarchy

namespace Tree

variable {α : Type} {trees : List (Tree α)} {node tree : Tree α} {above below : List α}

/-! ### Places that are put together -/

/-- A place in a tree is a place in every forest that has the tree. -/
theorem Sits.within (h : Sits [tree] below node) (hsits : Sits trees above tree) :
    Sits trees (below ++ above) node := by
  induction h with
  | root htree =>
      cases List.mem_singleton.1 htree
      exact hsits
  | child _ hchild ih => exact ih.child hchild

/-- Whatever a tree holds has its place where the tree has. -/
theorem Sits.exists_of_mem {item : α} (hsits : Sits trees above tree) (hitem : item ∈ tree.preorder) :
    ∃ above node, Sits trees above node ∧ node.entity = item := by
  induction tree using Tree.induction generalizing above with
  | node entity children ih =>
      rw [preorder_node, List.mem_cons, List.mem_flatMap] at hitem
      rcases hitem with rfl | ⟨child, hchild, hitem⟩
      · exact ⟨above, _, hsits, rfl⟩
      · exact ih child hchild (hsits.child hchild) hitem

variable [Nested α] {items others : List α}

/-- The names from the topmost of the entities `above` down to an entity, as a path. -/
def pathFrom (above : List α) (item : α) : String :=
  Walk.delimiter.intercalate ((item :: above).reverse.map Nested.name)

theorem pathFrom_append (below above : List α) (middle item : α) :
    pathFrom (below ++ middle :: above) item =
      pathFrom above middle ++ Walk.delimiter ++ pathFrom below item := by
  have hsplit : ((item :: (below ++ middle :: above)).reverse.map Nested.name) =
      (middle :: above).reverse.map Nested.name ++ (item :: below).reverse.map Nested.name := by
    rw [← List.map_append, ← List.reverse_append, List.cons_append]
  rw [pathFrom, hsplit, String.intercalate_append_of_ne_nil (by simp) (by simp)]
  rfl

/-- Every entity of a flat list has its place in the trees of the list. -/
theorem exists_sits (hforest : forestOfItems items = .ok trees) {item : α} (hitem : item ∈ items) :
    ∃ above node, Sits trees above node ∧ node.entity = item := by
  have hmem := (partitions_of_forestOfItems hforest).whole.mem_iff.2 hitem
  obtain ⟨tree, htree, hitem⟩ := List.mem_flatMap.1 hmem
  exact (Sits.root htree).exists_of_mem hitem

theorem Sits.pathWithin_eq (hforest : forestOfItems items = .ok trees) (h : Sits trees above node) :
    pathWithin items (Nested.id node.entity) = .ok (pathFrom above node.entity) := by
  obtain ⟨hnodup, _⟩ := forestOfItems_eq_ok hforest
  have hfound : ∀ item ∈ items,
      (Lookup.ofItems DeskError.notFound items).find (Nested.id item) = .ok item :=
    fun _ hitem => find_of_mem DeskError.notFound hnodup hitem
  simp only [pathWithin, hfound _ (h.draws hforest _ .whole).1, h.path hforest hfound, bind,
    Except.bind]
  rfl

/-- An entity has the same place in every forest that has it and all that is above it. -/
theorem Sits.carry {others : List α} {trees' : List (Tree α)}
    (hforest : forestOfItems items = .ok trees) (hother : forestOfItems others = .ok trees')
    (h : Sits trees above node) (hkept : ∀ entity ∈ node.entity :: above, entity ∈ others) :
    ∃ children, Sits trees' above (.node node.entity children) := by
  induction h with
  | @root tree htree =>
      have hmem : tree.entity ∈ others.filter fun item => Nested.parentId item = none :=
        List.mem_filter.2 ⟨hkept _ List.mem_cons_self,
          decide_eq_true ((Sits.root htree).parentId hforest)⟩
      rw [← (partitions_of_forestOfItems hother).roots] at hmem
      obtain ⟨⟨_, children⟩, htree', rfl⟩ := List.mem_map.1 hmem
      exact ⟨children, .root htree'⟩
  | @child above entity _ child hparent hchild ih =>
      obtain ⟨children, hsits⟩ := ih fun other hmem => hkept other (List.mem_cons_of_mem _ hmem)
      obtain ⟨_, hchildren⟩ : _ ∧ children.map Tree.entity =
          others.filter fun item => Nested.parentId item = some (Nested.id entity) :=
        hsits.draws hother _ .whole
      have hmem : child.entity ∈ children.map Tree.entity := by
        rw [hchildren]
        exact List.mem_filter.2 ⟨hkept _ List.mem_cons_self,
          decide_eq_true ((hparent.child hchild).parentId hforest)⟩
      obtain ⟨⟨_, below⟩, hbelow, hentity⟩ := List.mem_map.1 hmem
      cases hentity
      exact ⟨below, hsits.child hbelow⟩

end Tree

namespace Hierarchy

/-! ### A tree in another place -/

/-- What stands before the names of a tree on the paths in it, if the root of the tree has the parent
`target`. -/
def leadTo (path : Uuid → Except DeskError String) : Option Uuid → Except DeskError String
  | none => .ok ""
  | some target => (path target).map (· ++ Walk.delimiter)

/-- A tree hangs in another place: its root has the parent `target` and otherwise the same id, name
and children, in the same order. The paths in it lead over the path that the target had before, and
all other paths are the same. -/
structure Relocated {α : Type} [Nested α] (target : Option Uuid) (tree tree' : Tree α)
    (path path' : Uuid → Except DeskError String) : Prop where
  id : Nested.id tree'.entity = Nested.id tree.entity
  name : Nested.name tree'.entity = Nested.name tree.entity
  parentId : Nested.parentId tree'.entity = target
  children : tree'.children = tree.children
  inside : ∃ lead, leadTo path target = .ok lead ∧ ∀ above node, Tree.Sits [tree'] above node →
    path' (Nested.id node.entity) = .ok (lead ++ Tree.pathFrom above node.entity)
  outside : ∀ id ∉ tree.preorder.map Nested.id, path' id = path id

/-- The paths of some ids may be read off more paths, if the others are missing where they were first
looked for and do not change. -/
theorem Relocated.widen {α : Type} [Nested α] {target : Option Uuid} {tree tree' : Tree α}
    {path path' wide wide' : Uuid → Except DeskError String}
    (h : Relocated target tree tree' path path') (known : List Uuid)
    (hpath : ∀ id ∈ known, wide id = path id) (hpath' : ∀ id ∈ known, wide' id = path' id)
    (hmissing : ∀ id ∉ known, path id = .error (.notFound id))
    (hmissing' : ∀ id ∉ known, path' id = .error (.notFound id))
    (hrest : ∀ id ∉ known, wide' id = wide id) : Relocated target tree tree' wide wide' := by
  obtain ⟨lead, hlead, hinside⟩ := h.inside
  refine ⟨h.id, h.name, h.parentId, h.children, ⟨lead, ?_, fun above node hsits => ?_⟩,
    fun id hout => ?_⟩
  · cases target with
    | none => exact hlead
    | some id =>
        have hknown : id ∈ known := by
          by_contra hnew
          rw [leadTo, hmissing id hnew] at hlead
          cases hlead
        rw [leadTo, hpath id hknown]
        exact hlead
  · have hsame := hinside above node hsits
    have hknown : Nested.id node.entity ∈ known := by
      by_contra hnew
      rw [hmissing' _ hnew] at hsame
      cases hsame
    exact (hpath' _ hknown).trans hsame
  · by_cases hknown : id ∈ known
    · rw [hpath' id hknown, hpath id hknown, h.outside id hout]
    · exact hrest id hknown

/-! ### One entity with another parent -/

variable {α : Type} [Nested α] {items : List α} {old moved : α} {id : Uuid}

/-- A stored entity of a forest gets another parent, and a forest is left. The entity keeps its id. -/
structure Rehung (items : List α) (old moved : α) : Prop where
  stored : old ∈ items
  id : Nested.id moved = Nested.id old
  before : Forest (linksOf items)
  after : Forest (linksOf (put items moved))

namespace Rehung

variable (h : Rehung items old moved)

include h

theorem nodup : (items.map Nested.id).Nodup := by
  rw [← keys_linksOf]
  exact h.before.nodup

theorem nodup_put : ((put items moved).map Nested.id).Nodup := by
  rw [← keys_linksOf]
  exact h.after.nodup

theorem known : Nested.id old ∈ keys (linksOf items) :=
  mem_keys_of_mem (mem_linksOf.2 ⟨old, h.stored, rfl, rfl⟩)

theorem kept {other : α} (hother : other ∈ items) (hne : Nested.id other ≠ Nested.id old) :
    other ∈ put items moved :=
  mem_put.2 (Or.inr ⟨hother, h.id ▸ hne⟩)

theorem under_iff : Under (linksOf (put items moved)) (Nested.id old) id ↔
    Under (linksOf items) (Nested.id old) id := by
  rw [linksOf_put, h.id]
  exact exists_congr fun _ => below_relink

/-- Neither the old nor the new parent of the entity lies below it, so there the children stay. -/
theorem children_kept (hunder : Under (linksOf items) (Nested.id old) id) :
    (put items moved).filter (fun item => Nested.parentId item = some id) =
      items.filter fun item => Nested.parentId item = some id := by
  have hold : Nested.parentId old ≠ some id := fun hparent =>
    h.before.not_under_child (mem_linksOf.2 ⟨old, h.stored, rfl, hparent⟩) hunder
  have hmoved : Nested.parentId moved ≠ some id := fun hparent =>
    h.after.not_under_child (mem_linksOf.2 ⟨moved, mem_put.2 (Or.inl rfl), h.id, hparent⟩)
      (h.under_iff.2 hunder)
  rw [filter_put, if_neg (by simpa using hmoved)]
  intro stored hstored hid
  cases Tree.eq_of_id h.nodup hstored h.stored (hid.trans h.id)
  rw [decide_eq_false hold, decide_eq_false hmoved]

/-- A tree further down stays as it is. -/
theorem draws_below {tree : Tree α} (hdraws : tree.Draws items)
    (hunder : Under (linksOf items) (Nested.id old) (Nested.id tree.entity))
    (hne : Nested.id tree.entity ≠ Nested.id old) : tree.Draws (put items moved) := by
  induction tree using Tree.induction with
  | node entity children ih =>
      obtain ⟨hentity, hchildren⟩ : entity ∈ items ∧ children.map Tree.entity =
          items.filter fun item => Nested.parentId item = some (Nested.id entity) := hdraws _ .whole
      intro inner hwithin
      cases hwithin with
      | whole => exact ⟨h.kept hentity hne, hchildren.trans (h.children_kept hunder).symm⟩
      | @child child _ _ hchild hwithin =>
          have hlink := hdraws.link_iff.2 ⟨child, hchild, rfl⟩
          refine ih child hchild (hdraws.of_child hchild) (hunder.step hlink) ?_ inner hwithin
          intro hself
          rw [hself] at hlink
          exact h.before.not_under_child hlink hunder

/-- The tree below the entity is the same but for the entity itself. -/
theorem draws_put {children : List (Tree α)} (hdraws : (Tree.node old children).Draws items) :
    (Tree.node moved children).Draws (put items moved) := by
  obtain ⟨_, hchildren⟩ : old ∈ items ∧ children.map Tree.entity =
      items.filter fun item => Nested.parentId item = some (Nested.id old) := hdraws _ .whole
  intro inner hwithin
  cases hwithin with
  | whole =>
      refine ⟨mem_put.2 (Or.inl rfl), hchildren.trans ?_⟩
      rw [Tree.entity, h.id, h.children_kept (Under.refl _ _)]
  | @child child _ _ hchild hwithin =>
      have hlink := hdraws.link_iff.2 ⟨child, hchild, rfl⟩
      refine h.draws_below (hdraws.of_child hchild) ((Under.refl _ _).step hlink) ?_ inner hwithin
      intro hself
      rw [hself] at hlink
      exact h.before.acyclic _ (.parent hlink)

/-- What does not lie below the entity keeps its path, and what is missing is still missing. -/
theorem path_outside (hout : ¬Under (linksOf items) (Nested.id old) id) :
    pathWithin (put items moved) id = pathWithin items id := by
  by_cases hknown : id ∈ items.map Nested.id
  · obtain ⟨item, hitem, rfl⟩ := List.mem_map.1 hknown
    obtain ⟨trees, htrees⟩ := exists_of_isOk (Tree.forestOfItems_isOk h.before)
    obtain ⟨trees', htrees'⟩ := exists_of_isOk (Tree.forestOfItems_isOk h.after)
    obtain ⟨above, node, hsits, rfl⟩ := Tree.exists_sits htrees hitem
    have hkept : ∀ entity ∈ node.entity :: above, entity ∈ put items moved := by
      intro entity hmem
      rcases List.mem_cons.1 hmem with rfl | hmem
      · exact h.kept hitem fun hself => hout (hself ▸ Under.refl _ _)
      · obtain ⟨hentity, hancestor⟩ := hsits.ancestor htrees entity hmem
        exact h.kept hentity fun hself => hout (hself ▸ Under.of_ancestor hancestor)
    obtain ⟨children, hcarried⟩ := hsits.carry htrees htrees' hkept
    have hpath := hcarried.pathWithin_eq htrees'
    rw [hsits.pathWithin_eq htrees]
    exact hpath
  · have hstill : id ∉ (put items moved).map Nested.id := by
      rw [mem_map_id_put, h.id]
      rintro (rfl | hmem)
      · exact hknown (List.mem_map_of_mem h.stored)
      · exact hknown hmem
    rw [pathWithin_of_unknown hknown, pathWithin_of_unknown hstill]

/-- Where the tree of the entity hangs, the paths in it go on from the path of the new parent. -/
theorem path_inside {children : List (Tree α)}
    (hdraws : (Tree.node moved children).Draws (put items moved)) :
    ∃ lead, leadTo (pathWithin items) (Nested.parentId moved) = .ok lead ∧
      ∀ below node, Tree.Sits [.node moved children] below node →
        pathWithin (put items moved) (Nested.id node.entity) =
          .ok (lead ++ Tree.pathFrom below node.entity) := by
  obtain ⟨trees, htrees⟩ := exists_of_isOk (Tree.forestOfItems_isOk h.after)
  obtain ⟨above, root, hsits, hroot⟩ := Tree.exists_sits htrees (hdraws _ .whole).1
  cases Tree.Draws.unique h.nodup_put (hsits.draws htrees) hdraws (congrArg Nested.id hroot)
  have hparent : Nested.parentId moved = above.head?.map Nested.id := hsits.parentId htrees
  have hpath : ∀ below node, Tree.Sits [.node moved children] below node →
      pathWithin (put items moved) (Nested.id node.entity) =
        .ok (Tree.pathFrom (below ++ above) node.entity) :=
    fun below node hbelow => (hbelow.within hsits).pathWithin_eq htrees
  cases hsits with
  | root _ =>
      refine ⟨"", by rw [hparent]; rfl, fun below node hbelow => ?_⟩
      rw [hpath below node hbelow, List.append_nil, String.empty_append]
  | @child rest top _ _ htop _ =>
      -- The new parent does not lie below the entity, so its path is the same as before.
      have hout : ¬Under (linksOf items) (Nested.id old) (Nested.id top) := fun hunder =>
        h.after.not_under_child (mem_linksOf.2 ⟨moved, mem_put.2 (Or.inl rfl), h.id, hparent⟩)
          (h.under_iff.2 hunder)
      have hlead : pathWithin items (Nested.id top) = .ok (Tree.pathFrom rest top) := by
        rw [← h.path_outside hout]
        exact htop.pathWithin_eq htrees
      refine ⟨Tree.pathFrom rest top ++ Walk.delimiter, ?_, fun below node hbelow => ?_⟩
      · rw [hparent, List.head?_cons, Option.map_some, leadTo, hlead]
        rfl
      · rw [hpath below node hbelow, Tree.pathFrom_append]

/-- The entity takes its tree with it, and leaves everything else in its place. -/
theorem relocated (hname : Nested.name moved = Nested.name old) :
    ∃ children, Tree.ofItems items (Nested.id old) = .ok (.node old children) ∧
      Tree.ofItems (put items moved) (Nested.id old) = .ok (.node moved children) ∧
      Relocated (Nested.parentId moved) (.node old children) (.node moved children)
        (pathWithin items) (pathWithin (put items moved)) := by
  obtain ⟨trees, htrees⟩ := exists_of_isOk (Tree.forestOfItems_isOk h.before)
  obtain ⟨above, ⟨_, children⟩, hsits, rfl⟩ := Tree.exists_sits htrees h.stored
  have hdraws := hsits.draws htrees
  have hmoved := h.draws_put hdraws
  refine ⟨children, Tree.ofItems_of_draws h.before hdraws,
    h.id ▸ Tree.ofItems_of_draws h.after hmoved, h.id, hname, rfl, rfl, h.path_inside hmoved, ?_⟩
  intro id hout
  refine h.path_outside fun hunder => hout ?_
  have hid := hunder.mem_keys h.known
  rw [keys_linksOf] at hid
  obtain ⟨item, hitem, rfl⟩ := List.mem_map.1 hid
  exact List.mem_map_of_mem ((Tree.mem_preorder_iff h.nodup hdraws).2 ⟨hitem, hunder⟩)

end Rehung

end Hierarchy

end ServiceDesk
