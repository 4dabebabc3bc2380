import ServiceDesk.Hierarchy.Path
import ServiceDesk.Hierarchy.Tree
import ServiceDesk.Proofs.Hierarchy.Subtrees

/-!
A flat list whose links form a forest can be shown in every way: the tree below each of its ids
grows, all trees grow and use every entity, and each id has a path. Growing takes one level away for
every level it goes down, and the ids used by a tree are exactly those below its root, so two trees
side by side never meet. For one tree to grow it is enough that its root is not above itself and that
the levels suffice, whatever else there is in the list.
-/

namespace ServiceDesk.Hierarchy

variable {links : Links} {id top : Uuid}

theorem firstRepeat?_eq_none {seen ids : List Uuid} (hnodup : ids.Nodup)
    (hseen : ∀ id ∈ ids, id ∉ seen) : firstRepeat? seen ids = none := by
  induction ids generalizing seen with
  | nil => rfl
  | cons id ids ih =>
      obtain ⟨hout, hrest⟩ := List.nodup_cons.1 hnodup
      rw [firstRepeat?, if_neg (hseen id List.mem_cons_self)]
      refine ih hrest ?_
      intro other hother hmem
      rcases List.mem_cons.1 hmem with rfl | hmem
      · exact hout hother
      · exact hseen other (List.mem_cons_of_mem _ hother) hmem

variable {α : Type} [Nested α] {items : List α}

theorem mem_childIds : id ∈ childIds items top ↔ (id, some top) ∈ linksOf items := by
  simp only [childIds, mem_linksOf, List.mem_map, List.mem_filter, decide_eq_true_eq]
  constructor
  · rintro ⟨item, ⟨hmem, hparent⟩, hid⟩
    exact ⟨item, hmem, hid, hparent⟩
  · rintro ⟨item, hmem, hid, hparent⟩
    exact ⟨item, ⟨hmem, hparent⟩, hid⟩

theorem mem_rootIds : id ∈ rootIds items ↔ (id, none) ∈ linksOf items := by
  simp only [rootIds, mem_linksOf, List.mem_map, List.mem_filter, decide_eq_true_eq]
  constructor
  · rintro ⟨item, ⟨hmem, hparent⟩, hid⟩
    exact ⟨item, hmem, hid, hparent⟩
  · rintro ⟨item, hmem, hid, hparent⟩
    exact ⟨item, ⟨hmem, hparent⟩, hid⟩

theorem nodup_childIds (hnodup : (keys (linksOf items)).Nodup) : (childIds items top).Nodup := by
  rw [keys_linksOf] at hnodup
  exact hnodup.sublist (List.filter_sublist.map _)

theorem nodup_rootIds (hnodup : (keys (linksOf items)).Nodup) : (rootIds items).Nodup := by
  rw [keys_linksOf] at hnodup
  exact hnodup.sublist (List.filter_sublist.map _)

end ServiceDesk.Hierarchy

namespace ServiceDesk.Tree

open Hierarchy

variable {α : Type} {links : Links}

/-- Growing from an id succeeds and uses up exactly the ids below it. -/
def Grows (links : Links) (grow : Uuid → List Uuid → Except DeskError (Tree α × List Uuid))
    (id : Uuid) : Prop :=
  ∀ seen, (∀ other, Under links id other → other ∉ seen) →
    ∃ tree used, grow id seen = .ok (tree, used) ∧
      ∀ other, other ∈ used ↔ other ∈ seen ∨ Under links id other

/-- Trees that have nothing in common grow side by side. -/
theorem growAll_eq_ok {grow : Uuid → List Uuid → Except DeskError (Tree α × List Uuid)}
    {ids : List Uuid} (hgrows : ∀ id ∈ ids, Grows links grow id)
    (hapart : ids.Pairwise fun a b => ∀ other, Under links a other → ¬Under links b other)
    {seen : List Uuid} (hseen : ∀ id ∈ ids, ∀ other, Under links id other → other ∉ seen) :
    ∃ trees used, growAll grow ids seen = .ok (trees, used) ∧
      ∀ other, other ∈ used ↔ other ∈ seen ∨ ∃ id ∈ ids, Under links id other := by
  induction ids generalizing seen with
  | nil => exact ⟨[], seen, rfl, by simp⟩
  | cons id ids ih =>
      obtain ⟨hfirst, hrest⟩ := List.pairwise_cons.1 hapart
      obtain ⟨tree, used, hgrow, hused⟩ := hgrows id List.mem_cons_self seen
        (hseen id List.mem_cons_self)
      have hfresh : ∀ next ∈ ids, ∀ other, Under links next other → other ∉ used := by
        intro next hnext other hunder hmem
        rcases (hused other).1 hmem with hold | hid
        · exact hseen next (List.mem_cons_of_mem _ hnext) other hunder hold
        · exact hfirst next hnext other hid hunder
      obtain ⟨trees, all, hgrowAll, hall⟩ :=
        ih (fun next hnext => hgrows next (List.mem_cons_of_mem _ hnext)) hrest hfresh
      refine ⟨tree :: trees, all, ?_, ?_⟩
      · simp only [growAll, hgrow, hgrowAll, bind, Except.bind]
      · intro other
        rw [hall, hused, or_assoc]
        simp

variable [Nested α] {items : List α}

/-- The ids next to each other below one parent, or without a parent, grow trees of their own. -/
theorem pairwise_apart (hnodup : (keys links).Nodup) {ids : List Uuid} {parent : Option Uuid}
    (hfree : ∀ id, parent = some id → ¬Ancestor links id id) (hids : ids.Nodup)
    (hlinks : ∀ id ∈ ids, (id, parent) ∈ links) :
    ids.Pairwise fun a b => ∀ other, Under links a other → ¬Under links b other := by
  refine hids.imp_of_mem ?_
  intro a b ha hb hne other hunder
  exact hunder.apart hnodup hfree (hlinks a ha) (hlinks b hb) hne

theorem find?_of_mem_keys {id : Uuid} (hid : id ∈ keys (linksOf items)) :
    ∃ item, (items.find? fun item => Nested.id item = id) = some item := by
  rw [keys_linksOf] at hid
  obtain ⟨item, hmem, heq⟩ := List.mem_map.1 hid
  rw [← Option.isSome_iff_exists, List.find?_isSome]
  exact ⟨item, hmem, by simpa using heq⟩

/-- The tree below a known id grows if the id is not above itself and the levels suffice. -/
theorem grows_grow (hnodup : (keys (linksOf items)).Nodup) {levels : Nat} {id : Uuid}
    (hid : id ∈ keys (linksOf items)) (hfree : ¬Ancestor (linksOf items) id id)
    (hroom : ∀ other steps, Below (linksOf items) id other steps → steps < levels) :
    Grows (linksOf items) (grow items levels) id := by
  induction levels generalizing id with
  | zero => exact absurd (hroom id 0 .top) (Nat.lt_irrefl 0)
  | succ levels ih =>
      intro seen hseen
      have hnew : id ∉ seen := hseen id (Under.refl _ id)
      obtain ⟨entity, hentity⟩ := find?_of_mem_keys hid
      have hchildren : ∀ child ∈ childIds items id, (child, some id) ∈ linksOf items :=
        fun child hchild => mem_childIds.1 hchild
      have hfresh : ∀ child ∈ childIds items id, ∀ other, Under (linksOf items) child other →
          other ∉ id :: seen := by
        intro child hchild other hunder hmem
        have hlink := hchildren child hchild
        rcases List.mem_cons.1 hmem with rfl | hold
        · exact hfree (ancestor_self_iff.2 ⟨child, hlink, hunder⟩)
        · exact hseen other (under_iff_child.2 (Or.inr ⟨child, hlink, hunder⟩)) hold
      have hgrows : ∀ child ∈ childIds items id, Grows (linksOf items) (grow items levels) child := by
        intro child hchild
        have hlink := hchildren child hchild
        refine ih (mem_keys_of_mem hlink) (not_ancestor_self_child hnodup hfree hlink) ?_
        intro other steps hbelow
        exact Nat.lt_of_succ_lt_succ (hroom other (steps + 1) (hbelow.of_child hfree hlink))
      have hnone : ∀ parent, some id = some parent → ¬Ancestor (linksOf items) parent parent :=
        fun _ heq => Option.some.inj heq ▸ hfree
      have hapart := pairwise_apart hnodup hnone (nodup_childIds hnodup) hchildren
      obtain ⟨trees, used, hgrow, hused⟩ := growAll_eq_ok hgrows hapart hfresh
      refine ⟨.node entity trees, used, ?_, ?_⟩
      · rw [grow, if_neg hnew]
        simp only [hentity, hgrow, bind, Except.bind]
      · intro other
        rw [hused, List.mem_cons, under_iff_child]
        simp only [mem_childIds]
        constructor
        · rintro ((hid | hold) | hbelow)
          · exact Or.inr (Or.inl hid)
          · exact Or.inl hold
          · exact Or.inr (Or.inr hbelow)
        · rintro (hold | hid | hbelow)
          · exact Or.inl (Or.inr hold)
          · exact Or.inl (Or.inl hid)
          · exact Or.inr hbelow

/-- In a forest the greatest depth leaves levels enough for the tree below every id. -/
theorem grows_of_forest (hforest : Forest (linksOf items)) {id : Uuid}
    (hid : id ∈ keys (linksOf items)) : Grows (linksOf items) (grow items maxDepth) id := by
  obtain ⟨level, _, hlevel⟩ := hforest.shallow id hid
  refine grows_grow hforest.nodup hid (hforest.acyclic id) ?_
  intro other steps hbelow
  have hpos := hlevel.pos
  have hle := hforest.level_le (hlevel.of_below hbelow)
  omega

/-- Without a repeated id, the tree below a known root is what has grown from the root. -/
theorem ofItems_of_known {root : Uuid} (hnodup : (items.map Nested.id).Nodup)
    (hroot : root ∈ items.map Nested.id) :
    ofItems items root = (Tree.grow items maxDepth root []).map (·.1) := by
  rw [ofItems, firstRepeat?_eq_none hnodup (fun _ _ hmem => by cases hmem)]
  exact if_pos hroot

theorem ofItems_isOk (hforest : Forest (linksOf items)) {root : Uuid}
    (hroot : root ∈ keys (linksOf items)) : (ofItems items root).isOk = true := by
  obtain ⟨tree, used, hgrow, _⟩ := grows_of_forest hforest hroot [] (fun _ _ hmem => by cases hmem)
  have hnodup := hforest.nodup
  rw [keys_linksOf] at hroot hnodup
  rw [ofItems_of_known hnodup hroot, hgrow]
  rfl

/-- All trees of a forest grow, and no entity is left. -/
theorem forestOfItems_isOk (hforest : Forest (linksOf items)) :
    (forestOfItems items).isOk = true := by
  have hnodup := hforest.nodup
  rw [keys_linksOf] at hnodup
  have hroots : ∀ root ∈ rootIds items, (root, none) ∈ linksOf items :=
    fun root hroot => mem_rootIds.1 hroot
  have hgrows : ∀ root ∈ rootIds items, Grows (linksOf items) (grow items maxDepth) root :=
    fun root hroot => grows_of_forest hforest (mem_keys_of_mem (hroots root hroot))
  have hunused : ∀ root ∈ rootIds items, ∀ other, Under (linksOf items) root other →
      other ∉ ([] : List Uuid) := fun _ _ _ _ hmem => by cases hmem
  obtain ⟨trees, used, hgrow, hused⟩ := growAll_eq_ok hgrows
    (pairwise_apart hforest.nodup (fun id _ => hforest.acyclic id) (nodup_rootIds hforest.nodup) hroots)
    hunused
  have hcovered : ∀ {id level}, Level (linksOf items) id level →
      ∃ root ∈ rootIds items, Under (linksOf items) root id := by
    intro id level hlevel
    induction hlevel with
    | @root id hlink => exact ⟨id, mem_rootIds.2 hlink, Under.refl _ id⟩
    | child hlink _ ih =>
        obtain ⟨root, hroot, hunder⟩ := ih
        exact ⟨root, hroot, hunder.step hlink⟩
  have hstray : (items.find? fun item => Nested.id item ∉ used) = none := by
    rw [List.find?_eq_none]
    intro item hmem
    have hkey : Nested.id item ∈ keys (linksOf items) := by
      rw [keys_linksOf]
      exact List.mem_map_of_mem hmem
    obtain ⟨level, _, hlevel⟩ := hforest.shallow _ hkey
    simpa using (hused _).2 (Or.inr (hcovered hlevel))
  rw [forestOfItems, firstRepeat?_eq_none hnodup (fun _ _ hmem => by cases hmem)]
  simp only [hgrow, hstray, bind, Except.bind]
  rfl

end ServiceDesk.Tree

namespace ServiceDesk.Hierarchy

variable {α : Type} [Nested α] {items : List α}

/-- With no id twice it does not matter from which end an entity is looked up. -/
theorem lookup_of_mem_keys {ε : Type} (missing : Uuid → ε) {id : Uuid}
    (hid : id ∈ keys (linksOf items)) :
    ∃ item ∈ items, (Lookup.ofItems missing items).find id = .ok item ∧ Nested.id item = id := by
  have hfound : ((items.reverse).find? fun item => Nested.id item = id).isSome := by
    rw [keys_linksOf] at hid
    obtain ⟨item, hmem, heq⟩ := List.mem_map.1 hid
    rw [List.find?_isSome]
    exact ⟨item, List.mem_reverse.2 hmem, by simpa using heq⟩
  obtain ⟨item, hitem⟩ := Option.isSome_iff_exists.1 hfound
  refine ⟨item, List.mem_reverse.1 (List.mem_of_find?_eq_some hitem), ?_, ?_⟩
  · simp only [Lookup.ofItems, hitem]
  · simpa using List.find?_some hitem

/-- A walk ends at a root if it has met none of the ids that are still above it. -/
theorem climb_isOk {ε : Type} (missing : Uuid → ε) (hforest : Forest (linksOf items)) {id : Uuid}
    {level : Nat} (hlevel : Level (linksOf items) id level) {seen : List Uuid}
    (hseen : ∀ other, Under (linksOf items) other id → other ∉ seen) (names : List String) :
    ∃ all, (Walk.climb (Lookup.ofItems missing items) seen names (some id)).names = .ok all := by
  induction hlevel generalizing seen names with
  | @root id hlink =>
      obtain ⟨item, hmem, hfind, hid⟩ := lookup_of_mem_keys missing (mem_keys_of_mem hlink)
      have hroot : Nested.parentId item = none :=
        link_unique hforest.nodup (mem_linksOf.2 ⟨item, hmem, hid, rfl⟩) hlink
      rw [Walk.climb_found _ (hseen id (Under.refl _ id)) hfind, hroot, Walk.climb_none]
      exact ⟨_, rfl⟩
  | @child id parent level hlink _ ih =>
      obtain ⟨item, hmem, hfind, hid⟩ := lookup_of_mem_keys missing (mem_keys_of_mem hlink)
      have hparent : Nested.parentId item = some parent :=
        link_unique hforest.nodup (mem_linksOf.2 ⟨item, hmem, hid, rfl⟩) hlink
      have hnext : ∀ other, Under (linksOf items) other parent → other ∉ id :: seen := by
        intro other hunder hother
        rcases List.mem_cons.1 hother with rfl | hold
        · exact hforest.not_under_child hlink hunder
        · exact hseen other (hunder.step hlink) hold
      rw [Walk.climb_found _ (hseen id (Under.refl _ id)) hfind, hparent]
      exact ih hnext _

theorem pathWithin_isOk (hforest : Forest (linksOf items)) {id : Uuid}
    (hid : id ∈ keys (linksOf items)) : (pathWithin items id).isOk = true := by
  obtain ⟨item, hmem, hfind, rfl⟩ := lookup_of_mem_keys DeskError.notFound hid
  have hwalk : ∃ names, (Walk.ofEntity (Lookup.ofItems DeskError.notFound items) item).names =
      .ok names := by
    have hlink : (Nested.id item, Nested.parentId item) ∈ linksOf items :=
      mem_linksOf.2 ⟨item, hmem, rfl, rfl⟩
    rw [Walk.ofEntity]
    cases hparent : Nested.parentId item with
    | none =>
        rw [Walk.climb_none]
        exact ⟨_, rfl⟩
    | some parent =>
        rw [hparent] at hlink
        obtain ⟨level, _, hlevel⟩ := hforest.shallow parent (hforest.parent_known hlink)
        refine climb_isOk _ hforest hlevel ?_ _
        rintro other hunder hother
        cases List.mem_singleton.1 hother
        exact hforest.not_under_child hlink hunder
  obtain ⟨names, hnames⟩ := hwalk
  simp only [pathWithin, hfind, Walk.path, hnames, bind, Except.bind, Except.map]
  rfl

theorem pathWithin_of_unknown {id : Uuid} (hid : id ∉ items.map Nested.id) :
    pathWithin items id = .error (.notFound id) := by
  have hnone : (items.reverse.find? fun item => Nested.id item = id) = none := by
    rw [List.find?_eq_none]
    intro item hmem hsame
    exact hid (List.mem_map.2 ⟨item, List.mem_reverse.1 hmem, by simpa using hsame⟩)
  simp only [pathWithin, Lookup.ofItems, hnone]
  rfl

end ServiceDesk.Hierarchy
