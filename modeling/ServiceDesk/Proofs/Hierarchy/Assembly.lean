import Mathlib.Data.List.Forall2
import ServiceDesk.Proofs.Hierarchy.Growth

/-!
The tree below one id of a flat list that may be damaged in any way. It grows exactly if no id is
there twice, the root is there and not above itself, and nothing below it lies too deep. Then the
tree holds the root and all that lies below it once each, with the children of every node in the
order of the list. If it does not grow, the list is to blame, or the root that is not there.
-/

namespace ServiceDesk

open Hierarchy

namespace Tree

variable {α : Type}

@[elab_as_elim]
theorem induction {motive : Tree α → Prop}
    (node : ∀ entity children, (∀ child ∈ children, motive child) → motive (.node entity children)) :
    ∀ tree, motive tree
  | .node entity children => node entity children fun child _ => induction node child

/-- A node of a tree, with all that is below it: the tree itself, or a node of one of its children. -/
inductive Within : Tree α → Tree α → Prop
  | whole {tree} : Within tree tree
  | child {node child entity children} (hchild : child ∈ children) (hwithin : Within node child) :
      Within node (.node entity children)

/-! ### Pre-order -/

theorem visit_append (xs ys : List (Tree α)) : visit (xs ++ ys) = visit xs ++ visit ys := by
  fun_induction visit xs with
  | case1 => rfl
  | case2 entity children stack ih =>
      rw [List.cons_append, visit, ← List.append_assoc, ih, List.cons_append]

/-- The trees on a stack are visited one after another. -/
theorem visit_eq_flatMap (trees : List (Tree α)) : visit trees = trees.flatMap preorder := by
  induction trees with
  | nil => rw [visit, List.flatMap_nil]
  | cons tree trees ih =>
      rw [List.flatMap_cons, ← ih, preorder, ← visit_append, List.singleton_append]

/-- A node comes before all that is below it, and its children come in their order. -/
theorem preorder_node (entity : α) (children : List (Tree α)) :
    preorder (.node entity children) = entity :: children.flatMap preorder := by
  rw [preorder, visit, List.append_nil, visit_eq_flatMap]

theorem preorder_eq_cons (tree : Tree α) :
    tree.preorder = tree.entity :: tree.children.flatMap preorder := by
  cases tree with
  | node entity children => exact preorder_node entity children

theorem length_visit (stack : List (Tree α)) : (visit stack).length = weights stack := by
  fun_induction visit stack with
  | case1 => rfl
  | case2 entity children stack ih =>
      rw [List.length_cons, ih, weights_append, weights, weight]
      omega

theorem countFrom_eq (count : Nat) (stack : List (Tree α)) :
    countFrom count stack = count + weights stack := by
  fun_induction countFrom count stack with
  | case1 count => rfl
  | case2 count entity children stack ih =>
      rw [ih, weights_pushAll, weights, weight]
      omega

/-- The nodes that are counted are those that are visited, though in another order. -/
theorem size_eq_length (tree : Tree α) : tree.size = tree.preorder.length := by
  rw [size, countFrom_eq, preorder, length_visit, Nat.zero_add]

/-! ### What has grown -/

variable {grow : Uuid → List Uuid → Except DeskError (Tree α × List Uuid)} {id : Uuid}
  {ids seen used : List Uuid} {tree : Tree α} {trees : List (Tree α)}

theorem growAll_cons_eq_ok (h : growAll grow (id :: ids) seen = .ok (trees, used)) :
    ∃ first mid rest, grow id seen = .ok (first, mid) ∧ growAll grow ids mid = .ok (rest, used) ∧
      trees = first :: rest := by
  obtain ⟨⟨first, mid⟩, hfirst, h⟩ := bind_eq_ok.1 h
  obtain ⟨⟨rest, last⟩, hrest, h⟩ := bind_eq_ok.1 h
  cases h
  exact ⟨first, mid, rest, hfirst, hrest, rfl⟩

/-- What every tree has in common with its id, all trees have in common with their ids. -/
theorem growAll_forall₂ {related : Uuid → Tree α → Prop}
    (hgrow : ∀ id seen tree used, grow id seen = .ok (tree, used) → related id tree)
    (h : growAll grow ids seen = .ok (trees, used)) : List.Forall₂ related ids trees := by
  induction ids generalizing seen trees with
  | nil =>
      cases h
      exact .nil
  | cons id ids ih =>
      obtain ⟨first, mid, rest, hfirst, hrest, rfl⟩ := growAll_cons_eq_ok h
      exact .cons (hgrow _ _ _ _ hfirst) (ih hrest)

theorem exists_of_forall₂ {β γ : Type} {related : β → γ → Prop} {xs : List β} {ys : List γ}
    (h : List.Forall₂ related xs ys) {y : γ} (hy : y ∈ ys) : ∃ x ∈ xs, related x y := by
  induction h with
  | nil => cases hy
  | cons hfirst _ ih =>
      rcases List.mem_cons.1 hy with rfl | hrest
      · exact ⟨_, List.mem_cons_self, hfirst⟩
      · obtain ⟨x, hx, hrelated⟩ := ih hrest
        exact ⟨x, List.mem_cons_of_mem _ hx, hrelated⟩

theorem growAll_eq_error {error : DeskError} (h : growAll grow ids seen = .error error) :
    ∃ id ∈ ids, ∃ seen, grow id seen = .error error := by
  induction ids generalizing seen with
  | nil => cases h
  | cons id ids ih =>
      cases hfirst : grow id seen with
      | error fault =>
          rw [growAll, hfirst] at h
          cases h
          exact ⟨id, List.mem_cons_self, seen, hfirst⟩
      | ok grown =>
          cases hrest : growAll grow ids grown.2 with
          | error fault =>
              simp only [growAll, hfirst, hrest, bind, Except.bind] at h
              cases h
              obtain ⟨other, hmem, hother⟩ := ih hrest
              exact ⟨other, List.mem_cons_of_mem _ hmem, hother⟩
          | ok all =>
              simp only [growAll, hfirst, hrest, bind, Except.bind] at h
              cases h

/-- Trees that use no id twice use none twice side by side. -/
theorem nodup_of_growAll
    (hgrow : ∀ id seen tree used, grow id seen = .ok (tree, used) → seen.Nodup → used.Nodup)
    (h : growAll grow ids seen = .ok (trees, used)) (hseen : seen.Nodup) : used.Nodup := by
  induction ids generalizing seen trees with
  | nil =>
      cases h
      exact hseen
  | cons id ids ih =>
      obtain ⟨first, mid, rest, hfirst, hrest, rfl⟩ := growAll_cons_eq_ok h
      exact ih hrest (hgrow _ _ _ _ hfirst hseen)

variable [Nested α] {items : List α} {levels : Nat}

/-- A tree that has grown starts from the entity that is there, and its children have grown with one
level less. -/
theorem grow_eq_ok (h : Tree.grow items levels id seen = .ok (tree, used)) :
    ∃ fewer entity children, levels = fewer + 1 ∧ id ∉ seen ∧ entity ∈ items ∧
      Nested.id entity = id ∧ tree = .node entity children ∧
        growAll (Tree.grow items fewer) (childIds items id) (id :: seen) = .ok (children, used) := by
  cases levels with
  | zero => cases h
  | succ fewer =>
      rw [Tree.grow] at h
      split at h
      · cases h
      · rename_i hnew
        split at h
        · cases h
        · rename_i entity hentity
          obtain ⟨⟨children, all⟩, hchildren, h⟩ := bind_eq_ok.1 h
          cases h
          have hid : Nested.id entity = id := by simpa using List.find?_some hentity
          exact ⟨fewer, entity, children, rfl, hnew, List.mem_of_find?_eq_some hentity, hid, rfl,
            hchildren⟩

/-- Trees that use up ids in pre-order, the latest first, do so side by side. -/
theorem used_of_growAll
    (hgrow : ∀ id seen tree used, grow id seen = .ok (tree, used) →
      used = (tree.preorder.map Nested.id).reverse ++ seen)
    (h : growAll grow ids seen = .ok (trees, used)) :
    used = ((trees.flatMap preorder).map Nested.id).reverse ++ seen := by
  induction ids generalizing seen trees with
  | nil =>
      cases h
      rfl
  | cons id ids ih =>
      obtain ⟨first, mid, rest, hfirst, hrest, rfl⟩ := growAll_cons_eq_ok h
      rw [ih hrest, hgrow _ _ _ _ hfirst]
      simp

theorem used_of_grow (h : Tree.grow items levels id seen = .ok (tree, used)) :
    used = (tree.preorder.map Nested.id).reverse ++ seen := by
  induction levels generalizing id seen tree used with
  | zero => cases h
  | succ levels ih =>
      obtain ⟨fewer, entity, children, hlevels, _, _, rfl, rfl, hchildren⟩ := grow_eq_ok h
      cases hlevels
      rw [used_of_growAll (fun _ _ _ _ => ih) hchildren, preorder_node]
      simp

theorem nodup_of_grow (h : Tree.grow items levels id seen = .ok (tree, used)) (hseen : seen.Nodup) :
    used.Nodup := by
  induction levels generalizing id seen tree used with
  | zero => cases h
  | succ levels ih =>
      obtain ⟨fewer, entity, children, hlevels, hnew, _, _, rfl, hchildren⟩ := grow_eq_ok h
      cases hlevels
      exact nodup_of_growAll (fun _ _ _ _ => ih) hchildren (List.nodup_cons.2 ⟨hnew, hseen⟩)

/-- Every node of a tree is an entity of a flat list, with the children that it has in the list. -/
def Draws (items : List α) (tree : Tree α) : Prop :=
  ∀ node, Within node tree → node.entity ∈ items ∧ node.children.map entity =
    items.filter fun item => Nested.parentId item = some (Nested.id node.entity)

theorem Draws.of_child {entity : α} {children : List (Tree α)}
    (h : (node entity children).Draws items) {child : Tree α} (hchild : child ∈ children) :
    child.Draws items :=
  fun inner hwithin => h inner (.child hchild hwithin)

/-- What the list has directly below a node starts one of its children. -/
theorem Draws.link_iff {entity : α} {children : List (Tree α)}
    (h : (node entity children).Draws items) :
    (id, some (Nested.id entity)) ∈ linksOf items ↔
      ∃ child ∈ children, Nested.id child.entity = id := by
  obtain ⟨_, hchildren⟩ : _ ∧ children.map Tree.entity =
      items.filter fun item => Nested.parentId item = some (Nested.id entity) := h _ .whole
  have hmem : ∀ item, item ∈ children.map Tree.entity ↔
      item ∈ items ∧ Nested.parentId item = some (Nested.id entity) := by
    intro item
    rw [hchildren, List.mem_filter, decide_eq_true_eq]
  rw [mem_linksOf]
  constructor
  · rintro ⟨item, hitem, rfl, hparent⟩
    obtain ⟨child, hchild, rfl⟩ := List.mem_map.1 ((hmem item).2 ⟨hitem, hparent⟩)
    exact ⟨child, hchild, rfl⟩
  · rintro ⟨child, hchild, rfl⟩
    obtain ⟨hitem, hparent⟩ := (hmem child.entity).1 (List.mem_map_of_mem hchild)
    exact ⟨child.entity, hitem, rfl, hparent⟩

theorem eq_of_id (hnodup : (items.map Nested.id).Nodup) {a b : α} (ha : a ∈ items) (hb : b ∈ items)
    (hid : Nested.id a = Nested.id b) : a = b :=
  List.inj_on_of_nodup_map hnodup ha hb hid

/-- Trees that start from the ids of some entities start from these entities. -/
theorem map_entity_of_forall₂ (hnodup : (items.map Nested.id).Nodup) {chosen : List α}
    (hsub : chosen ⊆ items)
    (h : List.Forall₂ (fun id tree => Nested.id tree.entity = id ∧ tree.entity ∈ items)
      (chosen.map Nested.id) trees) : trees.map entity = chosen := by
  induction chosen generalizing trees with
  | nil =>
      cases h
      rfl
  | cons item rest ih =>
      cases h with
      | cons hfirst hrest =>
          obtain ⟨hitem, hsub⟩ := List.cons_subset.1 hsub
          rw [List.map_cons, ih hsub hrest, eq_of_id hnodup hfirst.2 hitem hfirst.1]

theorem draws_of_grow (hnodup : (items.map Nested.id).Nodup)
    (h : Tree.grow items levels id seen = .ok (tree, used)) :
    Nested.id tree.entity = id ∧ tree.Draws items := by
  induction levels generalizing id seen tree used with
  | zero => cases h
  | succ levels ih =>
      obtain ⟨fewer, entity, children, hlevels, _, hentity, rfl, rfl, hchildren⟩ := grow_eq_ok h
      cases hlevels
      have hgrown : List.Forall₂ (fun id tree => Nested.id tree.entity = id ∧ tree.Draws items)
          (childIds items (Nested.id entity)) children :=
        growAll_forall₂ (fun _ _ _ _ hgrow => ih hgrow) hchildren
      refine ⟨rfl, ?_⟩
      intro node hwithin
      cases hwithin with
      | whole =>
          refine ⟨hentity, map_entity_of_forall₂ hnodup (List.filter_subset_self _) (hgrown.imp ?_)⟩
          exact fun _ _ hdraws => ⟨hdraws.1, (hdraws.2 _ .whole).1⟩
      | child hchild hwithin =>
          obtain ⟨_, _, _, hdraws⟩ := exists_of_forall₂ hgrown hchild
          exact hdraws node hwithin

/-- A tree that draws a list holds what lies below its root in the list. -/
theorem mem_preorder_iff (hnodup : (items.map Nested.id).Nodup) (hdraws : tree.Draws items)
    {item : α} : item ∈ tree.preorder ↔
      item ∈ items ∧ Under (linksOf items) (Nested.id tree.entity) (Nested.id item) := by
  induction tree using Tree.induction with
  | node entity children ih =>
      have hentity : entity ∈ items := (hdraws _ .whole).1
      have hchild : ∀ child ∈ children, (item ∈ child.preorder ↔ item ∈ items ∧
          Under (linksOf items) (Nested.id child.entity) (Nested.id item)) :=
        fun child hmem => ih child hmem (hdraws.of_child hmem)
      rw [preorder_node, List.mem_cons, List.mem_flatMap, Tree.entity, under_iff_child]
      simp only [hdraws.link_iff]
      constructor
      · rintro (rfl | ⟨child, hmem, hbelow⟩)
        · exact ⟨hentity, Or.inl rfl⟩
        · obtain ⟨hitem, hunder⟩ := (hchild child hmem).1 hbelow
          exact ⟨hitem, Or.inr ⟨_, ⟨child, hmem, rfl⟩, hunder⟩⟩
      · rintro ⟨hitem, heq | ⟨_, ⟨child, hmem, rfl⟩, hunder⟩⟩
        · exact Or.inl (eq_of_id hnodup hitem hentity heq)
        · exact Or.inr ⟨child, hmem, (hchild child hmem).2 ⟨hitem, hunder⟩⟩

/-- A tree has grown only if the levels suffice for all that lies below its root. -/
theorem room_of_grow (hnodup : (items.map Nested.id).Nodup)
    (h : Tree.grow items levels id seen = .ok (tree, used)) {other : Uuid} {steps : Nat}
    (hbelow : Below (linksOf items) id other steps) : steps < levels := by
  induction levels generalizing id seen tree used steps with
  | zero => cases h
  | succ levels ih =>
      obtain ⟨fewer, entity, children, hlevels, _, _, rfl, rfl, hchildren⟩ := grow_eq_ok h
      cases hlevels
      have hgrown : List.Forall₂
          (fun child _ => ∀ steps, Below (linksOf items) child other steps → steps < levels)
          (childIds items (Nested.id entity)) children :=
        growAll_forall₂ (fun _ _ _ _ hgrow _ hbelow => ih hgrow hbelow) hchildren
      cases steps with
      | zero => exact Nat.succ_pos levels
      | succ steps =>
          rw [← keys_linksOf] at hnodup
          obtain ⟨child, hlink, hbelow⟩ := hbelow.to_child hnodup
          obtain ⟨_, _, hroom⟩ := exists_of_forall₂ hgrown.flip (mem_childIds.2 hlink)
          exact Nat.succ_lt_succ (hroom steps hbelow)

/-- A tree that draws a list and uses no id twice does not start above itself. -/
theorem not_ancestor_self_of_draws (hnodup : (items.map Nested.id).Nodup)
    (hdraws : tree.Draws items) (honce : (tree.preorder.map Nested.id).Nodup) :
    ¬Ancestor (linksOf items) (Nested.id tree.entity) (Nested.id tree.entity) := by
  cases tree with
  | node entity children =>
      have hentity : entity ∈ items := (hdraws _ .whole).1
      rw [preorder_node, List.map_cons, List.nodup_cons] at honce
      intro hcircle
      obtain ⟨id, hlink, hunder⟩ := ancestor_self_iff.1 hcircle
      obtain ⟨child, hchild, rfl⟩ := hdraws.link_iff.1 hlink
      have hagain : entity ∈ child.preorder :=
        (mem_preorder_iff hnodup (hdraws.of_child hchild)).2 ⟨hentity, hunder⟩
      exact honce.1 (List.mem_map_of_mem (List.mem_flatMap.2 ⟨child, hchild, hagain⟩))

/-- A known id is never reported missing. -/
theorem grow_eq_error {error : DeskError} (hid : id ∈ keys (linksOf items))
    (h : Tree.grow items levels id seen = .error error) : ∃ blamed, error = .corrupt blamed := by
  induction levels generalizing id seen with
  | zero =>
      cases h
      exact ⟨id, rfl⟩
  | succ levels ih =>
      rw [Tree.grow] at h
      split at h
      · cases h
        exact ⟨id, rfl⟩
      · obtain ⟨entity, hentity⟩ := find?_of_mem_keys hid
        simp only [hentity] at h
        cases hall : growAll (Tree.grow items levels) (childIds items id) (id :: seen) with
        | ok grown =>
            simp only [hall, bind, Except.bind] at h
            cases h
        | error fault =>
            simp only [hall, bind, Except.bind] at h
            cases h
            obtain ⟨child, hchild, _, hfault⟩ := growAll_eq_error hall
            exact ih (mem_keys_of_mem (mem_childIds.1 hchild)) hfault

/-- The first id that is there twice splits the list at the entity that repeats it. -/
theorem firstRepeat?_eq_some (seen : List Uuid) (hseen : ¬(seen ++ items.map Nested.id).Nodup)
    (hnodup : seen.Nodup) :
    ∃ before again after, items = before ++ again :: after ∧
      (seen ++ before.map Nested.id).Nodup ∧ Nested.id again ∈ seen ++ before.map Nested.id ∧
      firstRepeat? seen (items.map Nested.id) = some (Nested.id again) := by
  induction items generalizing seen with
  | nil => exact absurd (by simpa using hnodup) hseen
  | cons item rest ih =>
      by_cases hmem : Nested.id item ∈ seen
      · refine ⟨[], item, rest, rfl, by simpa using hnodup, by simpa using hmem, ?_⟩
        rw [List.map_cons, firstRepeat?, if_pos hmem]
      · have hnext : (Nested.id item :: seen).Nodup := List.nodup_cons.2 ⟨hmem, hnodup⟩
        have hperm : ∀ ids : List Uuid,
            (seen ++ Nested.id item :: ids).Perm (Nested.id item :: seen ++ ids) :=
          fun ids => List.perm_middle
        rw [List.map_cons, (hperm _).nodup_iff] at hseen
        obtain ⟨before, again, after, rfl, hbefore, hagain, hfirst⟩ := ih _ hseen hnext
        refine ⟨item :: before, again, after, rfl, ?_, ?_, ?_⟩
        · rw [List.map_cons, (hperm _).nodup_iff]
          exact hbefore
        · rw [List.map_cons, (hperm _).mem_iff]
          exact hagain
        · rw [List.map_cons, firstRepeat?, if_neg hmem, hfirst]

variable (items) (root : Uuid)

/-- What a flat list must be like for the tree below `root` to be there. -/
structure Rooted : Prop where
  distinct : (items.map Nested.id).Nodup
  known : root ∈ items.map Nested.id
  free : ¬Ancestor (linksOf items) root root
  shallow : ∀ id steps, Below (linksOf items) root id steps → steps + 1 ≤ maxDepth

/-- A tree shows `root` and all that lies below it in a flat list, each entity once, with the
children of every node in the order of the list. -/
structure Rebuilds (tree : Tree α) : Prop where
  start : Nested.id tree.entity = root
  once : (tree.preorder.map Nested.id).Nodup
  whole : ∀ item, item ∈ tree.preorder ↔
    item ∈ items ∧ (Nested.id item = root ∨ Ancestor (linksOf items) (Nested.id item) root)
  ordered : ∀ node, Within node tree → node.children.map entity =
    items.filter fun item => Nested.parentId item = some (Nested.id node.entity)

variable {items} {root}

theorem ofItems_of_unknown (hnodup : (items.map Nested.id).Nodup)
    (hroot : root ∉ items.map Nested.id) : ofItems items root = .error (.notFound root) := by
  rw [ofItems, firstRepeat?_eq_none hnodup (fun _ _ hmem => by cases hmem)]
  exact if_neg hroot

theorem ofItems_of_repeat (hnodup : ¬(items.map Nested.id).Nodup) (root : Uuid) :
    ∃ before again after, items = before ++ again :: after ∧ (before.map Nested.id).Nodup ∧
      Nested.id again ∈ before.map Nested.id ∧
      ofItems items root = .error (.corrupt (Nested.id again)) := by
  obtain ⟨before, again, after, hitems, hbefore, hagain, hfirst⟩ :=
    firstRepeat?_eq_some [] (by simpa using hnodup) List.nodup_nil
  refine ⟨before, again, after, hitems, by simpa using hbefore, by simpa using hagain, ?_⟩
  rw [ofItems, hfirst]

/-- The tree of a flat list needs a sound list and then shows all that it should. -/
theorem rebuilds_of_ofItems (h : ofItems items root = .ok tree) :
    Rooted items root ∧ Rebuilds items root tree := by
  by_cases hnodup : (items.map Nested.id).Nodup
  · by_cases hroot : root ∈ items.map Nested.id
    · rw [ofItems_of_known hnodup hroot] at h
      cases hgrow : Tree.grow items maxDepth root [] with
      | error fault =>
          rw [hgrow] at h
          cases h
      | ok grown =>
          rw [hgrow] at h
          cases h
          obtain ⟨tree, used⟩ := grown
          obtain ⟨hstart, hdraws⟩ := draws_of_grow hnodup hgrow
          have honce : (tree.preorder.map Nested.id).Nodup := by
            have hused := nodup_of_grow hgrow List.nodup_nil
            rw [used_of_grow hgrow, List.append_nil, List.nodup_reverse] at hused
            exact hused
          refine ⟨⟨hnodup, hroot, ?_, ?_⟩, hstart, honce, ?_, fun node hnode => (hdraws node hnode).2⟩
          · exact hstart ▸ not_ancestor_self_of_draws hnodup hdraws honce
          · exact fun id steps hbelow => room_of_grow hnodup hgrow hbelow
          · intro item
            rw [mem_preorder_iff hnodup hdraws, under_iff_ancestor, hstart]
    · rw [ofItems_of_unknown hnodup hroot] at h
      cases h
  · obtain ⟨_, _, _, _, _, _, herror⟩ := ofItems_of_repeat hnodup root
    rw [herror] at h
    cases h

theorem Rooted.ofItems_isOk (h : Rooted items root) : (ofItems items root).isOk = true := by
  have hnodup := h.distinct
  have hroot := h.known
  rw [← keys_linksOf] at hnodup hroot
  obtain ⟨tree, used, hgrow, _⟩ := grows_grow hnodup hroot h.free h.shallow []
    (fun _ _ hmem => by cases hmem)
  rw [ofItems_of_known h.distinct h.known, hgrow]
  rfl

/-- The tree below an id of a flat list is there just if the list is sound below the id, and then it
shows exactly what the list has there. Otherwise the first repeated id is blamed, or else the root if
it is missing, or else the list. -/
theorem ofItems_rebuilds (items : List α) (root : Uuid) :
    ((ofItems items root).isOk = true ↔ Rooted items root) ∧
    (∀ tree, ofItems items root = .ok tree → Rebuilds items root tree) ∧
    (¬(items.map Nested.id).Nodup → ∃ before again after, items = before ++ again :: after ∧
      (before.map Nested.id).Nodup ∧ Nested.id again ∈ before.map Nested.id ∧
      ofItems items root = .error (.corrupt (Nested.id again))) ∧
    ((items.map Nested.id).Nodup → root ∉ items.map Nested.id →
      ofItems items root = .error (.notFound root)) ∧
    ((items.map Nested.id).Nodup → root ∈ items.map Nested.id → ¬Rooted items root →
      ∃ blamed, ofItems items root = .error (.corrupt blamed)) := by
  refine ⟨⟨?_, Rooted.ofItems_isOk⟩, fun tree htree => (rebuilds_of_ofItems htree).2,
    fun hnodup => ofItems_of_repeat hnodup root, ofItems_of_unknown, ?_⟩
  · intro hok
    cases htree : ofItems items root with
    | error fault =>
        rw [htree] at hok
        cases hok
    | ok tree => exact (rebuilds_of_ofItems htree).1
  · intro hnodup hroot hunsound
    cases htree : ofItems items root with
    | ok tree => exact absurd (rebuilds_of_ofItems htree).1 hunsound
    | error fault =>
        rw [ofItems_of_known hnodup hroot] at htree
        cases hgrow : Tree.grow items maxDepth root [] with
        | ok grown =>
            rw [hgrow] at htree
            cases htree
        | error cause =>
            rw [hgrow] at htree
            cases htree
            rw [← keys_linksOf] at hroot
            obtain ⟨blamed, rfl⟩ := grow_eq_error hroot hgrow
            exact ⟨blamed, rfl⟩

end Tree

end ServiceDesk
