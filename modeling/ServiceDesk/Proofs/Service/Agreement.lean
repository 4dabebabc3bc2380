import ServiceDesk.Proofs.Hierarchy.Partition
import ServiceDesk.Proofs.Service.Isolation

/-!
Flat reads and tree reads of the same entities. A listing and a count pick rows of a table by their
parent; a tree and a forest are grown from one complete read. In every store that requests lead to
they agree: a listing under a parent returns the children that the tree of the parent shows, the
count is their number, and a listing of the roots returns the entities that the trees start from.
-/

namespace ServiceDesk

open Hierarchy Service Operation

section Reads

variable {α : Type}

/-- A listing returns the entities that some trees start from, in any order. -/
def ReturnsTops (listing : Except StoreFault (List α)) (trees : List (Tree α)) : Prop :=
  ∃ listed, listing = .ok listed ∧ (trees.map Tree.entity).Perm listed

variable [Nested α] {cut : α → α} {items all : List α}

/-- A complete read of the entities of a forest. It returns them in some order, and may cut them, but
changes neither their ids nor their parents. -/
structure ReadOf (cut : α → α) (items all : List α) : Prop where
  forest : Forest (linksOf items)
  id : ∀ item, Nested.id (cut item) = Nested.id item
  parent : ∀ item, Nested.parentId (cut item) = Nested.parentId item
  perm : all.Perm (items.map cut)

namespace ReadOf

theorem links (h : ReadOf cut items all) : (linksOf all).Perm (linksOf items) := by
  have hcut : linksOf (items.map cut) = linksOf items := by
    rw [linksOf, linksOf, List.map_map]
    exact List.map_congr_left fun item _ => Prod.ext (h.id item) (h.parent item)
  exact hcut ▸ h.perm.map _

theorem under (h : ReadOf cut items all) (parent : Option Uuid) :
    (all.filter fun item => Nested.parentId item = parent).Perm
      ((items.filter fun item => Nested.parentId item = parent).map cut) := by
  have hcut : ((fun item => decide (Nested.parentId item = parent)) ∘ cut) =
      fun item => decide (Nested.parentId item = parent) :=
    funext fun item => by rw [Function.comp_apply, h.parent]
  have hkept := h.perm.filter fun item => decide (Nested.parentId item = parent)
  rwa [List.filter_map, hcut] at hkept

theorem tree (h : ReadOf cut items all) {id : Uuid} (hid : id ∈ keys (linksOf items)) :
    ∃ tree, Tree.ofItems all id = .ok tree ∧
      (items.filter fun item => Nested.parentId item = some id).length = tree.children.length ∧
      (tree.children.map Tree.entity).Perm
        ((items.filter fun item => Nested.parentId item = some id).map cut) := by
  obtain ⟨tree, htree⟩ := exists_of_isOk
    (Tree.ofItems_isOk (h.forest.perm h.links.symm) ((h.links.map _).mem_iff.2 hid))
  obtain ⟨_, hrebuilds⟩ := Tree.rebuilds_of_ofItems htree
  have hchildren : (tree.children.map Tree.entity).Perm
      ((items.filter fun item => Nested.parentId item = some id).map cut) := by
    rw [hrebuilds.ordered tree .whole, hrebuilds.start]
    exact h.under (some id)
  refine ⟨tree, htree, ?_, hchildren⟩
  simpa only [List.length_map] using hchildren.length_eq.symm

theorem trees (h : ReadOf cut items all) :
    ∃ trees, Tree.forestOfItems all = .ok trees ∧ (trees.map Tree.size).sum = items.length ∧
      (trees.map Tree.entity).Perm
        ((items.filter fun item => Nested.parentId item = none).map cut) := by
  obtain ⟨trees, htrees⟩ :=
    exists_of_isOk (Tree.forestOfItems_isOk (h.forest.perm h.links.symm))
  have hpartitions := Tree.partitions_of_forestOfItems htrees
  refine ⟨trees, htrees, ?_, ?_⟩
  · rw [hpartitions.sum_size, h.perm.length_eq, List.length_map]
  · rw [hpartitions.roots]
    exact h.under none

end ReadOf

end Reads

/-! ### Listings by parent -/

namespace Query

variable {κ : Type}

/-- The query for what is directly under a parent, or for the roots if there is no parent. -/
def under (query : Query κ) (parent : Option Uuid) : Query κ :=
  { query with parentId := parent, rootOnly := parent.isNone }

/-- A query with no filter of its own, and with room for so many rows from the first one on. -/
structure Covers (query : Query κ) (rows : Nat) : Prop where
  active : query.isActive = none
  part : query.nameContains = none
  start : query.offset = 0
  room : rows ≤ min query.limit Store.greatestNumber

end Query

theorem Uuid.map_text_beq (parentId : Option Uuid) (id : Uuid) :
    (parentId.map text == some id.text) = decide (parentId = some id) := by
  cases parentId <;> simp

namespace Store

theorem matchesCommon_under {κ : Type} {query : Query κ} {rows : Nat} (hcovers : query.Covers rows)
    (name : String) (parent parentId : Option Uuid) (isActive : Activity) :
    matchesCommon (query.under parent) name (parentId.map Uuid.text) isActive =
      decide (parentId = parent) := by
  rw [matchesCommon, Query.under, hcovers.active, hcovers.part]
  cases parent with
  | none => cases parentId <;> simp [passes]
  | some id => simp [passes, Uuid.map_text_beq]

/-- A page from the first row on, with room for all rows that pass the filters, is read as these. -/
theorem decodeAll_page {α ρ : Type} {row : α → ρ} {cut : α → α} {items : List α}
    {decodeAll : List ρ → Except StoreFault (List α)}
    (hdecode : ∀ chosen ⊆ items, decodeAll (chosen.map row) = .ok (chosen.map cut))
    (test : ρ → Bool) (before : ρ → ρ → Bool) {limit : Nat}
    (hroom : (items.map row).countP test ≤ min limit greatestNumber) :
    ∃ listed, decodeAll (page 0 limit (((items.map row).filter test).mergeSort before)) =
        .ok listed ∧
      ((items.filter fun item => test (row item)).map cut).Perm listed := by
  let chosen := (items.filter fun item => test (row item)).mergeSort fun a b =>
    before (row a) (row b)
  have hperm : chosen.Perm (items.filter fun item => test (row item)) := List.mergeSort_perm _ _
  have hsorted : ((items.map row).filter test).mergeSort before = chosen.map row := by
    rw [List.filter_map, List.map_mergeSort]
    · rfl
    · exact fun _ _ _ _ => rfl
  have hpage : page 0 limit (chosen.map row) = chosen.map row := by
    rw [← hsorted, page, Nat.zero_min, List.drop_zero, List.take_of_length_le]
    rwa [List.length_mergeSort, ← List.countP_eq_length_filter]
  refine ⟨chosen.map cut, ?_, hperm.symm.map cut⟩
  rw [hsorted, hpage]
  exact hdecode chosen fun item hitem => List.mem_of_mem_filter (hperm.mem_iff.1 hitem)

end Store

namespace Contents

variable {contents : Contents} {parent : Option Uuid}

/-- A listing under a parent, or of the roots, returns the organizations that are stored there. -/
theorem listOrganizations_under
    (hplain : ∀ organization ∈ contents.organizations, organization.IsPlain)
    {query : Query OrganizationSort} (hcovers : query.Covers
      (contents.store.organizations.countP (Store.matchesOrganization (query.under parent)))) :
    ∃ listed, contents.store.listOrganizations (query.under parent) = .ok listed ∧
      ((contents.organizations.filter fun organization => organization.parentId = parent).map
        Organization.toMicros).Perm listed := by
  have hdecode : ∀ chosen ⊆ contents.organizations,
      OrganizationRow.decodeAll (chosen.map .ofOrganization) =
        .ok (chosen.map Organization.toMicros) := by
    intro chosen hchosen
    rw [OrganizationRow.decodeAll_map, if_pos fun organization hmem => hplain _ (hchosen hmem)]
  have hmatches : ∀ organization,
      Store.matchesOrganization (query.under parent) (.ofOrganization organization) =
        decide (organization.parentId = parent) :=
    fun _ => Store.matchesCommon_under hcovers _ _ _ _
  obtain ⟨listed, hlisted, hperm⟩ := Store.decodeAll_page hdecode _ _ hcovers.room
  simp only [hmatches] at hperm
  rw [← hcovers.start] at hlisted
  exact ⟨listed, hlisted, hperm⟩

/-- A listing for an organization returns its categories under a parent, or its roots. -/
theorem listCategories_under (hplain : ∀ category ∈ contents.categories, category.IsPlain)
    {query : Query CategorySort} (hcovers : query.Covers
      (contents.store.categories.countP (Store.matchesCategory (query.under parent))))
    {tenant : Uuid} (htenant : query.organizationId = some tenant) :
    ∃ listed, contents.store.listCategories (query.under parent) = .ok listed ∧
      (((contents.categoriesOf tenant).filter fun category => category.parentId = parent).map
        Category.toMicros).Perm listed := by
  have hdecode : ∀ chosen ⊆ contents.categories,
      CategoryRow.decodeAll (chosen.map .ofCategory) = .ok (chosen.map Category.toMicros) := by
    intro chosen hchosen
    rw [CategoryRow.decodeAll_map, if_pos fun category hmem => hplain _ (hchosen hmem)]
  have hmatches : ∀ category,
      Store.matchesCategory (query.under parent) (.ofCategory category) =
        (decide (category.parentId = parent) && decide (category.organizationId = tenant)) := by
    intro category
    have howner : (query.under parent).organizationId = some tenant := htenant
    have hcommon := Store.matchesCommon_under hcovers category.name parent category.parentId
      (.ofBool category.isActive)
    rw [Store.matchesCategory, howner, Bool.and_comm]
    simp [Store.passes, CategoryRow.ofCategory, hcommon]
  obtain ⟨listed, hlisted, hperm⟩ := Store.decodeAll_page hdecode _ _ hcovers.room
  simp only [hmatches] at hperm
  rw [← hcovers.start] at hlisted
  rw [categoriesOf, List.filter_filter]
  exact ⟨listed, hlisted, hperm⟩

/-! ### Counts -/

theorem countChildOrganizations_store (contents : Contents) (id : Uuid) :
    contents.store.countChildOrganizations id =
      (contents.organizations.filter fun organization => organization.parentId = some id).length := by
  rw [Store.countChildOrganizations, store, List.countP_map, List.countP_eq_length_filter]
  exact congrArg List.length
    (List.filter_congr fun organization _ => Uuid.map_text_beq organization.parentId id)

theorem countOrganizationCategories_store (contents : Contents) (id : Uuid) :
    contents.store.countOrganizationCategories id = (contents.categoriesOf id).length := by
  rw [Store.countOrganizationCategories, store, List.countP_map, List.countP_eq_length_filter]
  refine congrArg List.length (List.filter_congr fun category _ => ?_)
  simp [CategoryRow.ofCategory]

theorem Legal.organizationId_of_child (h : contents.Legal) {tenant id : Uuid}
    (hid : id ∈ keys (linksOf (contents.categoriesOf tenant))) {category : Category}
    (hmem : category ∈ contents.categories) (hparent : category.parentId = some id) :
    category.organizationId = tenant := by
  have hown : category ∈ contents.categoriesOf category.organizationId :=
    List.mem_filter.2 ⟨hmem, by simp⟩
  have hthere := (h.categories category.organizationId).parent_known
    (mem_linksOf.2 ⟨category, hown, rfl, hparent⟩)
  rw [keys_linksOf] at hthere
  obtain ⟨above, habove, rfl⟩ := List.mem_map.1 hthere
  obtain ⟨hstored, howner⟩ := List.mem_filter.1 habove
  rw [← h.organizationId_of_mem hid above hstored rfl]
  simpa [eq_comm] using howner

/-- The rows under a category are counted in all organizations, but they are all in one. -/
theorem Legal.countChildCategories_store (h : contents.Legal) {tenant id : Uuid}
    (hid : id ∈ keys (linksOf (contents.categoriesOf tenant))) :
    contents.store.countChildCategories id =
      ((contents.categoriesOf tenant).filter fun category => category.parentId = some id).length := by
  rw [Store.countChildCategories, store, List.countP_map, List.countP_eq_length_filter, categoriesOf,
    List.filter_filter]
  refine congrArg List.length (List.filter_congr fun category hmem => ?_)
  refine (Uuid.map_text_beq category.parentId id).trans ?_
  by_cases hparent : category.parentId = some id
  · simp [hparent, h.organizationId_of_child hid hmem hparent]
  · simp [hparent]

/-! ### All reads of one store -/

theorem exists_of_assigned {tenant id : Uuid} (hassigned : contents.store.Assigns tenant id) :
    ∃ category ∈ contents.categoriesOf tenant, category.id = id := by
  obtain ⟨_, hrow, hid⟩ := hassigned
  obtain ⟨hstored, howner⟩ := List.mem_filter.1 hrow
  obtain ⟨category, hmem, rfl⟩ := List.mem_map.1 hstored
  refine ⟨category, List.mem_filter.2 ⟨hmem, ?_⟩, Uuid.text_injective (Option.some.inj hid)⟩
  simpa [CategoryRow.ofCategory] using howner

namespace Sound

variable {given : List Uuid}

theorem organizations_readOf (h : contents.Sound given) : ReadOf Organization.toMicros
    contents.organizations ((byCreation contents.organizations).map Organization.toMicros) where
  forest := h.legal.organizations
  id _ := rfl
  parent _ := rfl
  perm := (List.mergeSort_perm _ _).map _

theorem categories_readOf (h : contents.Sound given) (tenant : Uuid) : ReadOf Category.toMicros
    (contents.categoriesOf tenant)
    ((categoriesByCreation (contents.categoriesOf tenant)).map Category.toMicros) where
  forest := h.legal.categories tenant
  id _ := rfl
  parent _ := rfl
  perm := (List.mergeSort_perm _ _).map _

theorem organizationTree_agrees (h : contents.Sound given) {id : Uuid}
    (hthere : (contents.store.findOrganization? id).isSome) :
    ∃ tree, (Inquiry.organizationTree id).outcome contents.store = .ok tree ∧
      contents.store.countChildOrganizations id = tree.children.length ∧
      ∀ query : Query OrganizationSort, query.Covers
          (contents.store.organizations.countP (Store.matchesOrganization (query.under (some id)))) →
        ReturnsTops (contents.store.listOrganizations (query.under (some id))) tree.children := by
  rw [findOrganization?_store, Option.isSome_map, organization?_isSome, ← keys_linksOf] at hthere
  obtain ⟨tree, htree, hlength, hchildren⟩ := h.organizations_readOf.tree hthere
  refine ⟨tree, ?_, ?_, fun query hcovers => ?_⟩
  · rw [Inquiry.outcome, Inquiry.operation, perform_organizationTree h.answer_allOrganizations]
    exact htree
  · exact (countChildOrganizations_store contents id).trans hlength
  · obtain ⟨listed, hlisted, hperm⟩ := listOrganizations_under h.organizations_plain hcovers
    exact ⟨listed, hlisted, hchildren.trans hperm⟩

theorem organizationForest_agrees (h : contents.Sound given) :
    ∃ trees, Inquiry.organizationForest.outcome contents.store = .ok trees ∧
      (trees.map Tree.size).sum = contents.store.organizations.length ∧
      ∀ query : Query OrganizationSort, query.Covers
          (contents.store.organizations.countP (Store.matchesOrganization (query.under none))) →
        ReturnsTops (contents.store.listOrganizations (query.under none)) trees := by
  obtain ⟨trees, htrees, hsize, hroots⟩ := h.organizations_readOf.trees
  refine ⟨trees, ?_, ?_, fun query hcovers => ?_⟩
  · rw [Inquiry.outcome, Inquiry.operation, perform_organizationForest h.answer_allOrganizations]
    exact htrees
  · rw [hsize, store, List.length_map]
  · obtain ⟨listed, hlisted, hperm⟩ := listOrganizations_under h.organizations_plain hcovers
    exact ⟨listed, hlisted, hroots.trans hperm⟩

theorem categoryTree_agrees (h : contents.Sound given) {tenant id : Uuid}
    (hassigned : contents.store.Assigns tenant id) :
    ∃ tree, (Inquiry.categoryTree id).outcome contents.store = .ok tree ∧
      contents.store.countChildCategories id = tree.children.length ∧
      ∀ query : Query CategorySort, query.organizationId = some tenant → query.Covers
          (contents.store.categories.countP (Store.matchesCategory (query.under (some id)))) →
        ReturnsTops (contents.store.listCategories (query.under (some id))) tree.children := by
  obtain ⟨category, hmem, rfl⟩ := exists_of_assigned hassigned
  obtain ⟨root, hroot, _⟩ := h.getCategory_answer (List.mem_of_mem_filter hmem)
  have hid : category.id ∈ keys (linksOf (contents.categoriesOf tenant)) :=
    mem_keys_of_mem (mem_linksOf.2 ⟨category, hmem, rfl, rfl⟩)
  obtain ⟨tree, htree, hlength, hchildren⟩ := (h.categories_readOf tenant).tree hid
  refine ⟨tree, ?_, ?_, fun query htenant hcovers => ?_⟩
  · have hall := h.answer_categoriesFor tenant
    rw [← h.organizationId_of_assigned hassigned hroot] at hall htree
    rw [Inquiry.outcome, Inquiry.operation, perform_categoryTree hroot hall]
    exact htree
  · exact (h.legal.countChildCategories_store hid).trans hlength
  · obtain ⟨listed, hlisted, hperm⟩ := listCategories_under h.categories_plain hcovers htenant
    exact ⟨listed, hlisted, hchildren.trans hperm⟩

theorem categoryForest_agrees (h : contents.Sound given) {tenant : Uuid}
    (hthere : (contents.store.findOrganization? tenant).isSome) :
    ∃ trees, (Inquiry.categoryForest tenant).outcome contents.store = .ok trees ∧
      (trees.map Tree.size).sum = contents.store.countOrganizationCategories tenant ∧
      ∀ query : Query CategorySort, query.organizationId = some tenant → query.Covers
          (contents.store.categories.countP (Store.matchesCategory (query.under none))) →
        ReturnsTops (contents.store.listCategories (query.under none)) trees := by
  obtain ⟨organization, horganization⟩ := h.getOrganization_of_row hthere
  obtain ⟨trees, htrees, hsize, hroots⟩ := (h.categories_readOf tenant).trees
  refine ⟨trees, ?_, ?_, fun query htenant hcovers => ?_⟩
  · rw [Inquiry.outcome, Inquiry.operation,
      perform_categoryForest horganization (h.answer_categoriesFor tenant)]
    exact htrees
  · rw [hsize, countOrganizationCategories_store]
  · obtain ⟨listed, hlisted, hperm⟩ := listCategories_under h.categories_plain hcovers htenant
    exact ⟨listed, hlisted, hroots.trans hperm⟩

end Sound

end Contents

/-- Whatever requests have been served from the empty store on, with new ids and a clock within the
years 0 to 9999. For every organization that is there: the tree of one of its categories shows as many
children as are counted, and these are what a listing under the category returns; the trees of all its
categories have as many nodes in all as are counted for the organization, and start from what a listing
of the roots returns. The listings may be sorted in any way, if they have no other filter and room for
all rows that pass. The same holds for the organizations themselves. -/
theorem flat_and_tree_reads_agree (requests : List Request)
    (hids : (requests.filterMap Request.generated?).Nodup)
    (hclock : ∀ now ∈ requests.filterMap Request.clock?, now.IsPlain) :
    let store := serveAll Store.empty requests
    (∀ tenant : Uuid, (store.findOrganization? tenant).isSome →
      (∀ id, store.Assigns tenant id → ∃ tree,
        (Inquiry.categoryTree id).outcome store = .ok tree ∧
        store.countChildCategories id = tree.children.length ∧
        ∀ query : Query CategorySort, query.organizationId = some tenant → query.Covers
            (store.categories.countP (Store.matchesCategory (query.under (some id)))) →
          ReturnsTops (store.listCategories (query.under (some id))) tree.children) ∧
      ∃ trees, (Inquiry.categoryForest tenant).outcome store = .ok trees ∧
        (trees.map Tree.size).sum = store.countOrganizationCategories tenant ∧
        ∀ query : Query CategorySort, query.organizationId = some tenant → query.Covers
            (store.categories.countP (Store.matchesCategory (query.under none))) →
          ReturnsTops (store.listCategories (query.under none)) trees) ∧
    (∀ id, (store.findOrganization? id).isSome → ∃ tree,
      (Inquiry.organizationTree id).outcome store = .ok tree ∧
      store.countChildOrganizations id = tree.children.length ∧
      ∀ query : Query OrganizationSort, query.Covers
          (store.organizations.countP (Store.matchesOrganization (query.under (some id)))) →
        ReturnsTops (store.listOrganizations (query.under (some id))) tree.children) ∧
    ∃ trees, Inquiry.organizationForest.outcome store = .ok trees ∧
      (trees.map Tree.size).sum = store.organizations.length ∧
      ∀ query : Query OrganizationSort, query.Covers
          (store.organizations.countP (Store.matchesOrganization (query.under none))) →
        ReturnsTops (store.listOrganizations (query.under none)) trees := by
  obtain ⟨contents, hstore, hsound⟩ := serveAll_sound requests Contents.Sound.empty hids
    (fun _ _ => List.not_mem_nil) hclock
  change serveAll Store.empty requests = contents.store at hstore
  rw [hstore]
  refine ⟨fun tenant hthere => ⟨fun id hassigned => ?_, ?_⟩, fun id hthere => ?_, ?_⟩
  · exact hsound.categoryTree_agrees hassigned
  · exact hsound.categoryForest_agrees hthere
  · exact hsound.organizationTree_agrees hthere
  · exact hsound.organizationForest_agrees

/-- An organization, a category in it and another one below this category. -/
def Request.nestedDesk : List Request :=
  [.createOrganization ⟨.ofSeconds 60, .small 1⟩ ⟨"Desk", "", none⟩,
    .createCategory ⟨.ofSeconds 61, .small 2⟩ (.small 1) ⟨"Mail", "", none⟩,
    .createCategory ⟨.ofSeconds 62, .small 3⟩ (.small 1) ⟨"Spam", "", some (.small 2)⟩]

/-- One category is shown and listed below the first. -/
theorem flat_and_tree_reads_agree_nestedDesk :
    let store := serveAll Store.empty Request.nestedDesk
    ∃ tree, (Inquiry.categoryTree (.small 2)).outcome store = .ok tree ∧ tree.children.length = 1 ∧
      ReturnsTops (store.listCategories { organizationId := some (.small 1),
                                          parentId := some (.small 2),
                                          limit := 1, sortBy := .name }) tree.children := by
  intro store
  let query : Query CategorySort :=
    { organizationId := some (.small 1), limit := 1, sortBy := .name }
  have hfacts : (store.findOrganization? (.small 1)).isSome ∧
      (∃ row ∈ store.categoryRows (.small 1), row.id = some (Uuid.small 2).text) ∧
      store.countChildCategories (.small 2) = 1 ∧
      store.categories.countP (Store.matchesCategory (query.under (some (.small 2)))) ≤ 1 := by
    decide +kernel
  obtain ⟨hthere, hassigned, hcount, hroom⟩ := hfacts
  obtain ⟨hcategories, _⟩ := flat_and_tree_reads_agree Request.nestedDesk (by decide) (by decide)
  obtain ⟨tree, htree, hchildren, hlisted⟩ := (hcategories (.small 1) hthere).1 (.small 2) hassigned
  refine ⟨tree, htree, hchildren.symm.trans hcount, ?_⟩
  exact hlisted query rfl ⟨rfl, rfl, rfl, hroom⟩

end ServiceDesk
