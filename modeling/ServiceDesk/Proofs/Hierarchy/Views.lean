import ServiceDesk.Proofs.Hierarchy.Partition

/-!
The ways to look at a forest tell the same. Wherever a node sits in the trees of a flat list: its own
tree is the one below it, the climb from it passes the entities above it, its height is the number of
levels from it downwards, and its path names the entities from the root down to it. A tree that draws
a list is told by the list and its root, so what is shown of a node does not depend on where the
search began.
-/

namespace ServiceDesk

open Hierarchy

namespace Tree

variable {α : Type}

mutual

/-- The number of levels of a tree. -/
def levels : Tree α → Nat
  | .node _ children => deepest children + 1

def deepest : List (Tree α) → Nat
  | [] => 0
  | tree :: trees => max (levels tree) (deepest trees)

end

theorem levels_le_deepest {tree : Tree α} {trees : List (Tree α)} (h : tree ∈ trees) :
    tree.levels ≤ deepest trees := by
  induction trees with
  | nil => cases h
  | cons other trees ih =>
      rw [deepest]
      rcases List.mem_cons.1 h with rfl | hrest
      · exact Nat.le_max_left _ _
      · exact Nat.le_trans (ih hrest) (Nat.le_max_right _ _)

theorem exists_levels_eq_deepest {trees : List (Tree α)} (h : trees ≠ []) :
    ∃ tree ∈ trees, tree.levels = deepest trees := by
  induction trees with
  | nil => exact absurd rfl h
  | cons tree trees ih =>
      rw [deepest]
      by_cases hle : deepest trees ≤ tree.levels
      · exact ⟨tree, List.mem_cons_self, (Nat.max_eq_left hle).symm⟩
      · have hlt := Nat.lt_of_not_le hle
        have hsome : trees ≠ [] := by
          rintro rfl
          exact Nat.not_lt_zero _ hlt
        obtain ⟨deep, hdeep, hlevels⟩ := ih hsome
        exact ⟨deep, List.mem_cons_of_mem _ hdeep,
          hlevels.trans (Nat.max_eq_right (Nat.le_of_lt hlt)).symm⟩

/-- A node sits in a forest below the entities `above`, the nearest of which comes first. Its level is
one more than their number. -/
inductive Sits (trees : List (Tree α)) : List α → Tree α → Prop
  | root {tree} (htree : tree ∈ trees) : Sits trees [] tree
  | child {above entity children child} (hparent : Sits trees above (.node entity children))
      (hchild : child ∈ children) : Sits trees (entity :: above) child

variable {trees others : List (Tree α)}

/-- Trees that start from the same entities are the same if each of them is told by its root. -/
theorem eq_of_map_entity (hroots : trees.map entity = others.map entity)
    (hsame : ∀ a ∈ trees, ∀ b ∈ others, a.entity = b.entity → a = b) : trees = others := by
  induction trees generalizing others with
  | nil => exact (List.map_eq_nil_iff.1 hroots.symm).symm
  | cons tree trees ih =>
      obtain ⟨other, rest, rfl, hroot, hrest⟩ := List.map_eq_cons_iff.1 hroots.symm
      rw [hsame tree List.mem_cons_self other List.mem_cons_self hroot.symm,
        ih hrest.symm fun a ha b hb => hsame a (List.mem_cons_of_mem _ ha) b (List.mem_cons_of_mem _ hb)]

variable [Nested α] {items above : List α} {node tree : Tree α}

/-- A list has no more than one tree to draw from each of its entities. -/
theorem Draws.unique (hnodup : (items.map Nested.id).Nodup) {a b : Tree α} (ha : a.Draws items)
    (hb : b.Draws items) (hroot : Nested.id a.entity = Nested.id b.entity) : a = b := by
  induction a using Tree.induction generalizing b with
  | node entity children ih =>
      obtain ⟨other, others⟩ := b
      obtain ⟨hentity, hchildren⟩ := ha _ .whole
      obtain ⟨hother, hothers⟩ := hb _ .whole
      cases eq_of_id hnodup hentity hother hroot
      -- Both lists of children start from the same filter of the list, so the roots agree in order.
      have hsame : children = others := by
        refine eq_of_map_entity (hchildren.trans hothers.symm) ?_
        intro child hchild next hnext heq
        exact ih child hchild (ha.of_child hchild) (hb.of_child hnext) (congrArg Nested.id heq)
      rw [hsame]

/-- What lies so far below the root of a tree in the list has its place among the levels. -/
theorem lt_levels (hnodup : (items.map Nested.id).Nodup) (hdraws : tree.Draws items) {id : Uuid}
    {steps : Nat} (hbelow : Below (linksOf items) (Nested.id tree.entity) id steps) :
    steps < tree.levels := by
  rw [← keys_linksOf] at hnodup
  induction tree using Tree.induction generalizing steps with
  | node entity children ih =>
      rw [levels]
      cases steps with
      | zero => exact Nat.succ_pos _
      | succ steps =>
          obtain ⟨other, hlink, hbelow⟩ := hbelow.to_child hnodup
          obtain ⟨child, hchild, rfl⟩ := hdraws.link_iff.1 hlink
          have hdeep := ih child hchild (hdraws.of_child hchild) hbelow
          exact Nat.succ_lt_succ (Nat.lt_of_lt_of_le hdeep (levels_le_deepest hchild))

/-- On the last level of a tree there is something. -/
theorem exists_below_levels (hforest : Forest (linksOf items)) (hdraws : tree.Draws items) :
    ∃ id steps, Below (linksOf items) (Nested.id tree.entity) id steps ∧
      steps + 1 = tree.levels := by
  induction tree using Tree.induction with
  | node entity children ih =>
      rw [levels]
      by_cases hleaf : children = []
      · cases hleaf
        exact ⟨_, 0, .top, rfl⟩
      · obtain ⟨child, hchild, hlevels⟩ := exists_levels_eq_deepest hleaf
        obtain ⟨id, steps, hbelow, hlast⟩ := ih child hchild (hdraws.of_child hchild)
        have hlink := hdraws.link_iff.2 ⟨child, hchild, rfl⟩
        exact ⟨id, steps + 1, hbelow.of_child (hforest.acyclic _) hlink, by rw [hlast, hlevels]⟩

/-! ### Where a node sits -/

namespace Sits

variable (hforest : forestOfItems items = .ok trees)

include hforest

theorem draws (h : Sits trees above node) : node.Draws items := by
  induction h with
  | root htree => exact draws_of_mem hforest htree
  | child _ hchild ih => exact ih.of_child hchild

theorem parentId (h : Sits trees above node) :
    Nested.parentId node.entity = above.head?.map Nested.id := by
  cases h with
  | root htree =>
      have hmem : node.entity ∈ trees.map entity := List.mem_map_of_mem htree
      rw [(partitions_of_forestOfItems hforest).roots, List.mem_filter, decide_eq_true_eq] at hmem
      exact hmem.2
  | @child _ parent children _ hparent hchild =>
      obtain ⟨_, hchildren⟩ : _ ∧ children.map entity =
          items.filter fun item => Nested.parentId item = some (Nested.id parent) :=
        hparent.draws hforest _ .whole
      have hmem : node.entity ∈ children.map entity := List.mem_map_of_mem hchild
      rw [hchildren, List.mem_filter, decide_eq_true_eq] at hmem
      exact hmem.2

theorem link (h : Sits trees above node) :
    (Nested.id node.entity, above.head?.map Nested.id) ∈ linksOf items :=
  mem_linksOf.2 ⟨node.entity, (h.draws hforest _ .whole).1, rfl, h.parentId hforest⟩

theorem level (h : Sits trees above node) :
    Level (linksOf items) (Nested.id node.entity) (above.length + 1) := by
  induction h with
  | root htree => exact .root ((Sits.root htree).link hforest)
  | child hparent hchild ih => exact .child ((hparent.child hchild).link hforest) ih

theorem ancestor (h : Sits trees above node) : ∀ entity ∈ above, entity ∈ items ∧
    Ancestor (linksOf items) (Nested.id node.entity) (Nested.id entity) := by
  induction h with
  | root htree => exact fun _ hmem => nomatch hmem
  | child hparent hchild ih =>
      have hlink := (hparent.child hchild).link hforest
      intro entity hmem
      rcases List.mem_cons.1 hmem with rfl | hmem
      · exact ⟨(hparent.draws hforest _ .whole).1, .parent hlink⟩
      · exact ⟨(ih entity hmem).1, .above hlink (ih entity hmem).2⟩

/-- The climb from a node passes what is above it. -/
theorem climb (h : Sits trees above node) (start : Uuid) {steps : Nat}
    (hsteps : above.length ≤ steps) :
    (Lineage.ofItems items).climb start steps (above.head?.map Nested.id) =
      .ok (above.map Nested.id) := by
  obtain ⟨hnodup, _⟩ := forestOfItems_eq_ok hforest
  induction h generalizing steps with
  | root htree => exact Lineage.climb_none start steps
  | child hparent hchild ih =>
      obtain ⟨fewer, rfl⟩ := Nat.exists_eq_add_of_le' hsteps
      have hlink := hparent.link hforest
      rw [← Lineage.links_ofItems hnodup] at hlink
      exact Lineage.climb_succ hlink (ih (Nat.le_add_left _ fewer))

theorem ancestors (h : Sits trees above node) :
    (Lineage.ofItems items).ancestors (Nested.id node.entity) = .ok (above.map Nested.id) := by
  obtain ⟨hnodup, _⟩ := forestOfItems_eq_ok hforest
  have hlink := h.link hforest
  have hlevel := h.level hforest
  rw [← Lineage.links_ofItems hnodup] at hlink hlevel
  rw [Lineage.ancestors, Lineage.parent?_eq_some.2 hlink]
  exact h.climb hforest _ (Nat.le_of_succ_le (hlevel.le_length (Lineage.nodup _)))

theorem height (h : Sits trees above node) :
    (Lineage.ofItems items).height (Nested.id node.entity) = node.levels := by
  obtain ⟨hnodup, _⟩ := forestOfItems_eq_ok hforest
  have hlinks := Lineage.links_ofItems hnodup
  have hdraws := h.draws hforest
  apply Nat.le_antisymm
  · obtain ⟨id, steps, hbelow, hheight⟩ := (Lineage.ofItems items).exists_below (Nested.id node.entity)
    rw [hlinks] at hbelow
    rw [← hheight]
    exact lt_levels hnodup hdraws hbelow
  · obtain ⟨id, steps, hbelow, hlast⟩ :=
      exists_below_levels (forest_of_forestOfItems hforest) hdraws
    rw [← hlinks] at hbelow
    rw [← hlast]
    exact Lineage.lt_height hbelow

/-- The walk from a node names what is above it, if it has not met any of this before. -/
theorem names {ε : Type} {lookup : Lookup ε α}
    (hlookup : ∀ item ∈ items, lookup.find (Nested.id item) = .ok item) (h : Sits trees above node)
    {seen : List Uuid} (hseen : ∀ entity ∈ above, Nested.id entity ∉ seen) (below : List String) :
    (Walk.climb lookup seen below (above.head?.map Nested.id)).names =
      .ok ((above.map Nested.name).reverse ++ below) := by
  induction h generalizing seen below with
  | root htree =>
      rw [List.head?_nil, Option.map_none, Walk.climb_none]
      rfl
  | @child above entity children child hparent hchild ih =>
      have hfound := hlookup entity (hparent.draws hforest _ .whole).1
      -- The walk goes on with one more id, and nothing above the entity has this id again.
      have hnext : ∀ other ∈ above, Nested.id other ∉ Nested.id entity :: seen := by
        intro other hother hmem
        rcases List.mem_cons.1 hmem with hsame | hold
        · have hcircle := (hparent.ancestor hforest other hother).2
          rw [hsame] at hcircle
          exact (forest_of_forestOfItems hforest).acyclic _ hcircle
        · exact hseen other (List.mem_cons_of_mem _ hother) hold
      have hparentId : Nested.parentId entity = _ := hparent.parentId hforest
      rw [List.head?_cons, Option.map_some,
        Walk.climb_found _ (hseen entity List.mem_cons_self) hfound, hparentId, ih hnext]
      simp

theorem path {ε : Type} {lookup : Lookup ε α}
    (hlookup : ∀ item ∈ items, lookup.find (Nested.id item) = .ok item)
    (h : Sits trees above node) :
    (Walk.ofEntity lookup node.entity).path =
      .ok (Walk.delimiter.intercalate ((node.entity :: above).reverse.map Nested.name)) := by
  have hseen : ∀ entity ∈ above, Nested.id entity ∉ [Nested.id node.entity] := by
    intro entity hmem hself
    have hcircle := (h.ancestor hforest entity hmem).2
    rw [List.mem_singleton.1 hself] at hcircle
    exact (forest_of_forestOfItems hforest).acyclic _ hcircle
  rw [Walk.path, Walk.ofEntity, h.parentId hforest, h.names hforest hlookup hseen]
  simp [Except.map]

end Sits

theorem find_of_mem {ε : Type} (missing : Uuid → ε) (hnodup : (items.map Nested.id).Nodup) {item : α}
    (hitem : item ∈ items) : (Lookup.ofItems missing items).find (Nested.id item) = .ok item := by
  obtain ⟨found, hmem, hfind, hid⟩ :=
    lookup_of_mem_keys missing (mem_keys_of_mem (mem_linksOf.2 ⟨item, hitem, rfl, rfl⟩))
  rw [hfind, eq_of_id hnodup hmem hitem hid]

/-- What grows from a root draws the list from there. -/
theorem draws_of_ofItems {root : Uuid} (h : ofItems items root = .ok node) :
    Nested.id node.entity = root ∧ node.Draws items := by
  obtain ⟨hrooted, _⟩ := rebuilds_of_ofItems h
  rw [ofItems_of_known hrooted.distinct hrooted.known] at h
  cases hgrow : Tree.grow items maxDepth root [] with
  | error fault =>
      rw [hgrow] at h
      cases h
  | ok grown =>
      rw [hgrow] at h
      cases h
      exact draws_of_grow hrooted.distinct hgrow

/-- If a tree grows from a root, it is the one that draws the list from there. -/
theorem ofItems_of_isOk {root : Uuid} (hok : (ofItems items root).isOk = true)
    (hdraws : node.Draws items) (hstart : Nested.id node.entity = root) :
    ofItems items root = .ok node := by
  obtain ⟨grown, hgrown⟩ := exists_of_isOk hok
  obtain ⟨hrooted, _⟩ := rebuilds_of_ofItems hgrown
  obtain ⟨hroot, hgrownDraws⟩ := draws_of_ofItems hgrown
  rw [hgrown, Draws.unique hrooted.distinct hgrownDraws hdraws (hroot.trans hstart.symm)]

/-- In a forest the tree below an entity is the one that draws the list from there. -/
theorem ofItems_of_draws (hforest : Forest (linksOf items)) (hdraws : node.Draws items) :
    ofItems items (Nested.id node.entity) = .ok node := by
  have hentity : node.entity ∈ items := (hdraws _ .whole).1
  have hknown := mem_keys_of_mem (mem_linksOf.2 ⟨node.entity, hentity, rfl, rfl⟩)
  exact ofItems_of_isOk (ofItems_isOk hforest hknown) hdraws rfl

/-- All views of a forest tell the same of a node that sits in it: its own tree, its ancestors from
the nearest upwards, its height, and the names on its path from the root down to it. -/
theorem views_agree {ε : Type} (missing : Uuid → ε) (items : List α) {trees : List (Tree α)}
    (hforest : forestOfItems items = .ok trees) {above : List α} {node : Tree α}
    (hsits : Sits trees above node) :
    ofItems items (Nested.id node.entity) = .ok node ∧
    (Lineage.ofItems items).ancestors (Nested.id node.entity) = .ok (above.map Nested.id) ∧
    (Lineage.ofItems items).height (Nested.id node.entity) = node.levels ∧
    (Walk.ofEntity (Lookup.ofItems missing items) node.entity).path =
      .ok (Walk.delimiter.intercalate ((node.entity :: above).reverse.map Nested.name)) ∧
    pathWithin items (Nested.id node.entity) =
      .ok (Walk.delimiter.intercalate ((node.entity :: above).reverse.map Nested.name)) := by
  obtain ⟨hnodup, _⟩ := forestOfItems_eq_ok hforest
  have hdraws := hsits.draws hforest
  have hpath : ∀ {ε : Type} (missing : Uuid → ε),
      (Walk.ofEntity (Lookup.ofItems missing items) node.entity).path = _ :=
    fun missing => hsits.path hforest fun _ hitem => find_of_mem missing hnodup hitem
  refine ⟨ofItems_of_draws (forest_of_forestOfItems hforest) hdraws, hsits.ancestors hforest,
    hsits.height hforest, hpath missing, ?_⟩
  have hfound := find_of_mem DeskError.notFound hnodup (hdraws _ .whole).1
  simp only [pathWithin, hfound, hpath DeskError.notFound, bind, Except.bind]

/-- A head office and a branch below it, the branch first. -/
def offices : List Organization :=
  [⟨⟨2, by decide⟩, "Branch", none, some ⟨1, by decide⟩, true, ⟨0, 0, .inl (by decide)⟩,
    ⟨0, 0, .inl (by decide)⟩⟩,
   ⟨⟨1, by decide⟩, "Head", none, none, true, ⟨0, 0, .inl (by decide)⟩, ⟨0, 0, .inl (by decide)⟩⟩]

theorem views_agree_branch :
    forestOfItems offices = .ok [.node offices[1] [.node offices[0] []]] ∧
    Sits [.node offices[1] [.node offices[0] []]] [offices[1]] (.node offices[0] []) ∧
    (Lineage.ofItems offices).height ⟨2, by decide⟩ = 1 ∧
    pathWithin offices ⟨2, by decide⟩ = .ok "Head / Branch" := by
  have hforest : forestOfItems offices = .ok [.node offices[1] [.node offices[0] []]] := by rfl
  have hsits : Sits [.node offices[1] [.node offices[0] []]] [offices[1]] (.node offices[0] []) :=
    .child (.root List.mem_cons_self) List.mem_cons_self
  obtain ⟨_, _, hheight, _, hpath⟩ := views_agree DeskError.notFound offices hforest hsits
  exact ⟨hforest, hsits, hheight, hpath⟩

end Tree

end ServiceDesk
