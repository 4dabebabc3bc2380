import ServiceDesk.Proofs.Hierarchy.Forest
import ServiceDesk.Proofs.Store.Rows
import ServiceDesk.Service.Categories
import ServiceDesk.Store.Listing

/-!
What a store holds, as lists of entities. Reading it finds these entities, cut to microseconds, and
each write leaves a store that holds the changed lists. The contents are legal when the parent links
of all organizations, and those of the categories of each organization, form a forest.
-/

namespace ServiceDesk

namespace Hierarchy

variable {α : Type} [Nested α]

/-- Replace the entity of the same id, or add the entity behind all others. -/
def put (items : List α) (item : α) : List α :=
  if Nested.id item ∈ items.map Nested.id then
    items.map fun stored => if Nested.id stored = Nested.id item then item else stored
  else items ++ [item]

theorem linksOf_put (items : List α) (item : α) :
    linksOf (put items item) = Lineage.relink (linksOf items) (Nested.id item) (Nested.parentId item) := by
  have hkeys : (linksOf items).map (·.1) = items.map Nested.id := keys_linksOf items
  rw [put, Lineage.relink, hkeys]
  split
  · rw [linksOf, linksOf, List.map_map, List.map_map]
    apply List.map_congr_left
    intro stored _
    simp only [Function.comp_apply]
    split <;> rfl
  · simp [linksOf]

theorem mem_put {items : List α} {item other : α} :
    other ∈ put items item ↔
      other = item ∨ (other ∈ items ∧ Nested.id other ≠ Nested.id item) := by
  unfold put
  split
  · rename_i hknown
    rw [List.mem_map]
    constructor
    · rintro ⟨stored, hmem, rfl⟩
      split
      · exact Or.inl rfl
      · rename_i hid
        exact Or.inr ⟨hmem, hid⟩
    · rintro (rfl | ⟨hmem, hid⟩)
      · obtain ⟨stored, hmem, hid⟩ := List.mem_map.1 hknown
        exact ⟨stored, hmem, if_pos hid⟩
      · exact ⟨other, hmem, if_neg hid⟩
  · rename_i hnew
    rw [List.mem_append, List.mem_singleton]
    constructor
    · rintro (hmem | rfl)
      · exact Or.inr ⟨hmem, fun hid => hnew (List.mem_map.2 ⟨other, hmem, hid⟩)⟩
      · exact Or.inl rfl
    · rintro (rfl | ⟨hmem, _⟩)
      · exact Or.inr rfl
      · exact Or.inl hmem

theorem mem_map_id_put {items : List α} {item : α} {id : Uuid} :
    id ∈ (put items item).map Nested.id ↔ id = Nested.id item ∨ id ∈ items.map Nested.id := by
  rw [← keys_linksOf, ← keys_linksOf, linksOf_put, mem_keys_relink]

theorem nodup_put {items : List α} (h : (items.map Nested.id).Nodup) (item : α) :
    ((put items item).map Nested.id).Nodup := by
  rw [← keys_linksOf, linksOf_put]
  refine Lineage.nodup_relink ?_ _ _
  rw [← keys, keys_linksOf]
  exact h

/-- A selection that keeps an entity and its old form alike sees the change, or nothing at all. -/
theorem filter_put (select : α → Bool) {items : List α} {item : α}
    (hsame : ∀ stored ∈ items, Nested.id stored = Nested.id item → select stored = select item) :
    (put items item).filter select =
      if select item then put (items.filter select) item else items.filter select := by
  by_cases hknown : Nested.id item ∈ items.map Nested.id
  · have hmap : (put items item).filter select = (items.filter select).map fun stored =>
        if Nested.id stored = Nested.id item then item else stored := by
      rw [put, if_pos hknown, List.filter_map]
      congr 1
      apply List.filter_congr
      intro stored hmem
      rw [Function.comp_apply]
      split
      · rename_i heq
        exact (hsame stored hmem heq).symm
      · rfl
    rw [hmap]
    split
    · rename_i hselect
      rw [put, if_pos]
      obtain ⟨stored, hmem, heq⟩ := List.mem_map.1 hknown
      exact List.mem_map.2 ⟨stored, List.mem_filter.2 ⟨hmem, by rwa [hsame stored hmem heq]⟩, heq⟩
    · rename_i hselect
      rw [List.map_congr_left, List.map_id]
      intro stored hstored
      obtain ⟨hmem, hkept⟩ := List.mem_filter.1 hstored
      rw [if_neg]
      · rfl
      · intro heq
        exact hselect (hsame stored hmem heq ▸ hkept)
  · have hstill : Nested.id item ∉ (items.filter select).map Nested.id :=
      fun hmem => hknown ((List.filter_sublist.map _).subset hmem)
    rw [put, if_neg hknown, put, if_neg hstill, List.filter_append]
    cases hselect : select item with
    | true => simp [hselect]
    | false => simp [hselect]

/-- With no id twice, the entity that is found under an id is the one that has it. -/
theorem find?_id_eq_some {items : List α} (hnodup : (items.map Nested.id).Nodup) {id : Uuid}
    {item : α} : (items.find? fun item => Nested.id item = id) = some item ↔
      item ∈ items ∧ Nested.id item = id := by
  constructor
  · exact fun hfound => ⟨List.mem_of_find?_eq_some hfound, by simpa using List.find?_some hfound⟩
  · rintro ⟨hmem, hid⟩
    have hsome : (items.find? fun item => Nested.id item = id).isSome := by
      rw [List.find?_isSome]
      exact ⟨item, hmem, decide_eq_true hid⟩
    obtain ⟨other, hfound⟩ := Option.isSome_iff_exists.1 hsome
    have hother : Nested.id other = id := by simpa using List.find?_some hfound
    rw [hfound, List.inj_on_of_nodup_map hnodup (List.mem_of_find?_eq_some hfound) hmem
      (hother.trans hid.symm)]

theorem find?_id_put (items : List α) (item : α) (id : Uuid) :
    ((put items item).find? fun other => Nested.id other = id) =
      if id = Nested.id item then some item else items.find? fun other => Nested.id other = id := by
  have hfind := Store.find?_put (fun item : α => some (Nested.id item).text) items item rfl id.text
  simpa [put] using hfind

theorem find?_id_filter (items : List α) (gone id : Uuid) :
    ((items.filter fun item => Nested.id item ≠ gone).find? fun item => Nested.id item = id) =
      if id = gone then none else items.find? fun item => Nested.id item = id := by
  have hfind := Store.find?_filter_ne (fun item : α => some (Nested.id item).text) items gone.text
    id.text
  simpa [bne] using hfind

theorem linksOf_filter (items : List α) (gone : Uuid) :
    linksOf (items.filter fun item => Nested.id item ≠ gone) =
      (linksOf items).filter fun link => link.1 ≠ gone := by
  rw [linksOf, linksOf, List.filter_map]
  rfl

end Hierarchy

open Hierarchy

/-- Entities in the order of their insertion. -/
structure Contents where
  organizations : List Organization
  categories : List Category

namespace Contents

/-- The store whose rows are written from the entities. -/
def store (contents : Contents) : Store where
  organizations := contents.organizations.map .ofOrganization
  categories := contents.categories.map .ofCategory

def empty : Contents := ⟨[], []⟩

def organization? (contents : Contents) (id : Uuid) : Option Organization :=
  contents.organizations.find? fun organization => organization.id = id

def category? (contents : Contents) (id : Uuid) : Option Category :=
  contents.categories.find? fun category => category.id = id

def categoriesOf (contents : Contents) (organizationId : Uuid) : List Category :=
  contents.categories.filter fun category => category.organizationId = organizationId

/-- The organization that a save leaves behind. -/
def mergeOrganization (contents : Contents) (organization : Organization) : Organization :=
  match contents.organization? organization.id with
  | none => organization
  | some stored => { organization with createdAt := stored.createdAt }

def mergeCategory (contents : Contents) (category : Category) : Category :=
  match contents.category? category.id with
  | none => category
  | some stored =>
    { category with organizationId := stored.organizationId, createdAt := stored.createdAt }

def putOrganization (contents : Contents) (organization : Organization) : Contents :=
  { contents with
    organizations := put contents.organizations (contents.mergeOrganization organization) }

def putCategory (contents : Contents) (category : Category) : Contents :=
  { contents with categories := put contents.categories (contents.mergeCategory category) }

def dropOrganization (contents : Contents) (id : Uuid) : Contents :=
  { contents with
    organizations := contents.organizations.filter fun organization => organization.id ≠ id }

def dropCategory (contents : Contents) (id : Uuid) : Contents :=
  { contents with categories := contents.categories.filter fun category => category.id ≠ id }

variable {contents : Contents}

theorem organization?_eq_some (hnodup : (contents.organizations.map Nested.id).Nodup) {id : Uuid}
    {stored : Organization} :
    contents.organization? id = some stored ↔ stored ∈ contents.organizations ∧ stored.id = id :=
  find?_id_eq_some hnodup

theorem category?_eq_some (hnodup : (contents.categories.map Nested.id).Nodup) {id : Uuid}
    {stored : Category} :
    contents.category? id = some stored ↔ stored ∈ contents.categories ∧ stored.id = id :=
  find?_id_eq_some hnodup

/-! ### Reading -/

theorem findOrganization?_store (contents : Contents) (id : Uuid) :
    contents.store.findOrganization? id = (contents.organization? id).map .ofOrganization := by
  have hkey : (fun row => row.id == some id.text) ∘ OrganizationRow.ofOrganization =
      fun organization => decide (organization.id = id) := by
    funext organization
    simp [OrganizationRow.ofOrganization]
  rw [Store.findOrganization?, store, List.find?_map, hkey, organization?]

theorem findCategory?_store (contents : Contents) (id : Uuid) :
    contents.store.findCategory? id = (contents.category? id).map .ofCategory := by
  have hkey : (fun row => row.id == some id.text) ∘ CategoryRow.ofCategory =
      fun category => decide (category.id = id) := by
    funext category
    simp [CategoryRow.ofCategory]
  rw [Store.findCategory?, store, List.find?_map, hkey, category?]

theorem getOrganization_store (contents : Contents) (id : Uuid) :
    contents.store.getOrganization id =
      match contents.organization? id with
      | none => .ok none
      | some stored => if stored.IsPlain then .ok (some stored.toMicros) else .error .timestamp := by
  rw [Store.getOrganization, findOrganization?_store]
  cases contents.organization? id with
  | none => rfl
  | some stored =>
      simp only [Option.map_some, OrganizationRow.toOrganization_ofOrganization]
      split <;> rfl

theorem getCategory_store (contents : Contents) (id : Uuid) :
    contents.store.getCategory id =
      match contents.category? id with
      | none => .ok none
      | some stored => if stored.IsPlain then .ok (some stored.toMicros) else .error .timestamp := by
  rw [Store.getCategory, findCategory?_store]
  cases contents.category? id with
  | none => rfl
  | some stored =>
      simp only [Option.map_some, CategoryRow.toCategory_ofCategory]
      split <;> rfl

/-- If all organizations can be read back, a look-up finds what is stored, cut to microseconds. -/
theorem getOrganization_of_plain (h : ∀ organization ∈ contents.organizations, organization.IsPlain)
    (id : Uuid) : contents.store.getOrganization id =
      .ok ((contents.organization? id).map Organization.toMicros) := by
  rw [getOrganization_store]
  cases hfound : contents.organization? id with
  | none => rfl
  | some stored => exact if_pos (h stored (List.mem_of_find?_eq_some hfound))

theorem getCategory_of_plain (h : ∀ category ∈ contents.categories, category.IsPlain)
    (id : Uuid) : contents.store.getCategory id =
      .ok ((contents.category? id).map Category.toMicros) := by
  rw [getCategory_store]
  cases hfound : contents.category? id with
  | none => rfl
  | some stored => exact if_pos (h stored (List.mem_of_find?_eq_some hfound))

theorem answer_getOrganization_of_plain
    (h : ∀ organization ∈ contents.organizations, organization.IsPlain) (id : Uuid) :
    (contents.store.answer (.getOrganization id)).1 =
      .ok ((contents.organization? id).map Organization.toMicros) := by
  change (contents.store.getOrganization id).mapError StoreError.failed = _
  rw [getOrganization_of_plain h]
  rfl

theorem answer_getCategory_of_plain (h : ∀ category ∈ contents.categories, category.IsPlain)
    (id : Uuid) : (contents.store.answer (.getCategory id)).1 =
      .ok ((contents.category? id).map Category.toMicros) := by
  change (contents.store.getCategory id).mapError StoreError.failed = _
  rw [getCategory_of_plain h]
  rfl

/-- The organizations in the order of creation. -/
def byCreation (organizations : List Organization) : List Organization :=
  organizations.mergeSort fun a b => decide (encodeInstant a.createdAt ≤ encodeInstant b.createdAt)

def categoriesByCreation (categories : List Category) : List Category :=
  categories.mergeSort fun a b => decide (encodeInstant a.createdAt ≤ encodeInstant b.createdAt)

theorem allOrganizations_store (contents : Contents) :
    contents.store.allOrganizations =
      if ∀ organization ∈ contents.organizations, organization.IsPlain then
        .ok ((byCreation contents.organizations).map Organization.toMicros)
      else .error .timestamp := by
  have hsort : (contents.organizations.map OrganizationRow.ofOrganization).mergeSort
      (fun a b => decide (a.createdAt ≤ b.createdAt)) =
        (byCreation contents.organizations).map .ofOrganization := by
    rw [byCreation, List.map_mergeSort]
    exact fun _ _ _ _ => rfl
  rw [Store.allOrganizations, store, hsort, OrganizationRow.decodeAll_map]
  simp only [byCreation, List.mem_mergeSort]

theorem filter_rows_organizationId (contents : Contents) (organizationId : Uuid) :
    (contents.categories.map CategoryRow.ofCategory).filter
      (fun row => row.organizationId == organizationId.text) =
        (contents.categoriesOf organizationId).map .ofCategory := by
  have hkey : (fun row => row.organizationId == organizationId.text) ∘ CategoryRow.ofCategory =
      fun category => decide (category.organizationId = organizationId) := by
    funext category
    simp [CategoryRow.ofCategory]
  rw [List.filter_map, hkey, categoriesOf]

theorem categoriesFor_store (contents : Contents) (organizationId : Uuid) :
    contents.store.categoriesFor organizationId =
      if ∀ category ∈ contents.categoriesOf organizationId, category.IsPlain then
        .ok ((categoriesByCreation (contents.categoriesOf organizationId)).map Category.toMicros)
      else .error .timestamp := by
  have hsort : ((contents.categoriesOf organizationId).map CategoryRow.ofCategory).mergeSort
      (fun a b => decide (a.createdAt ≤ b.createdAt)) =
        (categoriesByCreation (contents.categoriesOf organizationId)).map .ofCategory := by
    rw [categoriesByCreation, List.map_mergeSort]
    exact fun _ _ _ _ => rfl
  rw [Store.categoriesFor, store, filter_rows_organizationId, hsort, CategoryRow.decodeAll_map]
  simp only [categoriesByCreation, List.mem_mergeSort]

/-! ### Writing -/

/-- Putting a row in place follows putting the entity in place. -/
theorem putRow_map {α ρ : Type} [Nested α] (row : α → ρ) (key : ρ → Option String)
    (hkey : ∀ item, key (row item) = some (Nested.id item).text) (items : List α) (item : α) :
    (if (items.map row).any (key · == key (row item)) then
        (items.map row).map fun stored => if key stored = key (row item) then row item else stored
      else items.map row ++ [row item]) = (put items item).map row := by
  have hknown : (items.map row).any (key · == key (row item)) =
      decide (Nested.id item ∈ items.map Nested.id) := by
    rw [Bool.eq_iff_iff]
    simp [hkey]
  rw [hknown, put]
  simp only [decide_eq_true_eq]
  split
  · rw [List.map_map, List.map_map]
    apply List.map_congr_left
    intro stored _
    simp only [Function.comp_apply, hkey, Option.some.injEq, Uuid.text_inj]
    split
    · rfl
    · rfl
  · simp

theorem mergeOrganization_store (contents : Contents) (organization : Organization) :
    contents.store.mergeOrganization organization =
      .ofOrganization (contents.mergeOrganization organization) := by
  rw [Store.mergeOrganization, findOrganization?_store, mergeOrganization]
  cases contents.organization? organization.id with
  | none => rfl
  | some stored => rfl

theorem mergeCategory_store (contents : Contents) (category : Category) :
    contents.store.mergeCategory category = .ofCategory (contents.mergeCategory category) := by
  rw [Store.mergeCategory, findCategory?_store, mergeCategory]
  cases contents.category? category.id with
  | none => rfl
  | some stored => rfl

theorem mergeOrganization_isPlain {organization : Organization}
    (hstored : ∀ stored ∈ contents.organizations, stored.IsPlain) (h : organization.IsPlain) :
    (contents.mergeOrganization organization).IsPlain := by
  rw [mergeOrganization]
  split
  · exact h
  · rename_i stored hfound
    exact ⟨(hstored stored (List.mem_of_find?_eq_some hfound)).1, h.2⟩

theorem mergeCategory_isPlain {category : Category}
    (hstored : ∀ stored ∈ contents.categories, stored.IsPlain) (h : category.IsPlain) :
    (contents.mergeCategory category).IsPlain := by
  rw [mergeCategory]
  split
  · exact h
  · rename_i stored hfound
    exact ⟨(hstored stored (List.mem_of_find?_eq_some hfound)).1, h.2⟩

theorem saveOrganization_store {organization : Organization} {next : Store}
    (h : contents.store.saveOrganization organization = .ok next) :
    next = (contents.putOrganization organization).store := by
  have hput := putRow_map OrganizationRow.ofOrganization OrganizationRow.id (fun _ => rfl)
    contents.organizations (contents.mergeOrganization organization)
  rw [Store.saveOrganization_eq_ok h, mergeOrganization_store]
  exact congrArg (fun rows => (⟨rows, contents.categories.map .ofCategory⟩ : Store)) hput

theorem saveCategory_store {category : Category} {next : Store}
    (h : contents.store.saveCategory category = .ok next) :
    next = (contents.putCategory category).store := by
  have hput := putRow_map CategoryRow.ofCategory CategoryRow.id (fun _ => rfl)
    contents.categories (contents.mergeCategory category)
  rw [Store.saveCategory_eq_ok h, mergeCategory_store]
  exact congrArg (fun rows => (⟨contents.organizations.map .ofOrganization, rows⟩ : Store)) hput

/-- Other rows refer to an organization if it is the parent of one or owns a category. -/
theorem organizationReferences_store (contents : Contents) (id : Uuid) :
    contents.store.organizationReferences id = 0 ↔
      (∀ organization ∈ contents.organizations, organization.id ≠ id →
        organization.parentId ≠ some id) ∧
      ∀ category ∈ contents.categories, category.organizationId ≠ id := by
  rw [Store.organizationReferences, store, Nat.add_eq_zero_iff, List.countP_eq_zero,
    List.countP_eq_zero, List.forall_mem_map, List.forall_mem_map]
  simp [OrganizationRow.ofOrganization, CategoryRow.ofCategory]

theorem categoryReferences_store (contents : Contents) (id : Uuid) :
    contents.store.categoryReferences id = 0 ↔
      ∀ category ∈ contents.categories, category.id ≠ id → category.parentId ≠ some id := by
  rw [Store.categoryReferences, store, List.countP_eq_zero, List.forall_mem_map]
  simp [CategoryRow.ofCategory]

/-- An organization that could be deleted had no others below it and owned no category. -/
theorem deleteOrganization_store {id : Uuid} {next : Store}
    (h : contents.store.deleteOrganization id = .ok (true, next)) :
    next = (contents.dropOrganization id).store ∧
      (∀ organization ∈ contents.organizations, organization.id ≠ id →
        organization.parentId ≠ some id) ∧
      ∀ category ∈ contents.categories, category.organizationId ≠ id := by
  obtain ⟨_, hfree, rfl⟩ := Store.deleteOrganization_eq_ok h
  refine ⟨?_, (organizationReferences_store contents id).1 hfree⟩
  simp only [dropOrganization, store, Store.mk.injEq, and_true]
  rw [List.filter_map]
  simp [Function.comp_def, OrganizationRow.ofOrganization, bne]

theorem deleteCategory_store {id : Uuid} {next : Store}
    (h : contents.store.deleteCategory id = .ok (true, next)) :
    next = (contents.dropCategory id).store ∧
      ∀ category ∈ contents.categories, category.id ≠ id → category.parentId ≠ some id := by
  obtain ⟨_, hfree, rfl⟩ := Store.deleteCategory_eq_ok h
  refine ⟨?_, (categoryReferences_store contents id).1 hfree⟩
  simp only [dropCategory, store, Store.mk.injEq, true_and]
  rw [List.filter_map]
  simp [Function.comp_def, CategoryRow.ofCategory, bne]

/-! ### Legal contents -/

theorem mergeOrganization_id (contents : Contents) (organization : Organization) :
    Nested.id (contents.mergeOrganization organization) = organization.id := by
  rw [mergeOrganization]
  split <;> rfl

theorem mergeOrganization_parentId (contents : Contents) (organization : Organization) :
    Nested.parentId (contents.mergeOrganization organization) = organization.parentId := by
  rw [mergeOrganization]
  split <;> rfl

theorem mergeCategory_id (contents : Contents) (category : Category) :
    Nested.id (contents.mergeCategory category) = category.id := by
  rw [mergeCategory]
  split <;> rfl

theorem mergeCategory_parentId (contents : Contents) (category : Category) :
    Nested.parentId (contents.mergeCategory category) = category.parentId := by
  rw [mergeCategory]
  split <;> rfl

theorem mergeCategory_name (contents : Contents) (category : Category) :
    (contents.mergeCategory category).name = category.name := by
  rw [mergeCategory]
  split <;> rfl

/-- The links of the organizations form a forest, and so do those of the categories of each
organization: a parent is known and of the same organization, no entity lies above itself, and no
tree has more levels than allowed. No id is held twice. -/
structure Legal (contents : Contents) : Prop where
  organizations : Forest (linksOf contents.organizations)
  categories : ∀ organizationId, Forest (linksOf (contents.categoriesOf organizationId))
  categories_nodup : (contents.categories.map Nested.id).Nodup

theorem Legal.empty : Legal empty where
  organizations := Forest.empty
  categories _ := Forest.empty
  categories_nodup := List.nodup_nil

theorem Legal.organizations_nodup (h : contents.Legal) :
    (contents.organizations.map Nested.id).Nodup := by
  rw [← keys_linksOf]
  exact h.organizations.nodup

/-- The links of all categories form a forest, too. -/
theorem Legal.forest_categories (h : contents.Legal) : Forest (linksOf contents.categories) := by
  refine .of_levels (by rw [keys_linksOf]; exact h.categories_nodup) fun id hmem => ?_
  rw [keys_linksOf] at hmem
  obtain ⟨category, hcategory, rfl⟩ := List.mem_map.1 hmem
  have hkey : Nested.id category ∈
      keys (linksOf (contents.categoriesOf category.organizationId)) := by
    rw [keys_linksOf]
    exact List.mem_map_of_mem (List.mem_filter.2 ⟨hcategory, by simp⟩)
  obtain ⟨level, hle, hlevel⟩ := (h.categories _).shallow _ hkey
  exact ⟨level, hle, hlevel.mono (List.map_subset _ (List.filter_subset_self _))⟩

theorem linksOf_putOrganization (contents : Contents) (organization : Organization) :
    linksOf (contents.putOrganization organization).organizations =
      Lineage.relink (linksOf contents.organizations) organization.id organization.parentId := by
  rw [putOrganization, linksOf_put, mergeOrganization_id, mergeOrganization_parentId]

/-- A save of a category that stays in its organization puts it in place there. -/
theorem categoriesOf_putCategory {category : Category}
    (hsame : ∀ stored ∈ contents.categories, stored.id = category.id →
      stored.organizationId = category.organizationId) (organizationId : Uuid) :
    (contents.putCategory category).categoriesOf organizationId =
      if category.organizationId = organizationId then
        put (contents.categoriesOf organizationId) (contents.mergeCategory category)
      else contents.categoriesOf organizationId := by
  have howner : (contents.mergeCategory category).organizationId = category.organizationId := by
    rw [mergeCategory]
    split
    · rfl
    · rename_i stored hfound
      exact hsame stored (List.mem_of_find?_eq_some hfound) (by simpa using List.find?_some hfound)
  rw [putCategory, categoriesOf, categoriesOf, filter_put]
  · simp only [howner, decide_eq_true_eq]
  · intro stored hmem heq
    rw [howner, hsame stored hmem (heq.trans (mergeCategory_id contents category))]

/-- A save of a category that stays in its organization changes one link there. -/
theorem linksOf_putCategory {category : Category}
    (hsame : ∀ stored ∈ contents.categories, stored.id = category.id →
      stored.organizationId = category.organizationId) (organizationId : Uuid) :
    linksOf ((contents.putCategory category).categoriesOf organizationId) =
      if category.organizationId = organizationId then
        Lineage.relink (linksOf (contents.categoriesOf organizationId)) category.id category.parentId
      else linksOf (contents.categoriesOf organizationId) := by
  rw [categoriesOf_putCategory hsame]
  split
  · rw [linksOf_put, mergeCategory_id, mergeCategory_parentId]
  · rfl

theorem Legal.putOrganization (h : contents.Legal) {organization : Organization}
    (hforest : Forest (Lineage.relink (linksOf contents.organizations) organization.id
      organization.parentId)) : (contents.putOrganization organization).Legal where
  organizations := by rwa [linksOf_putOrganization]
  categories := h.categories
  categories_nodup := h.categories_nodup

theorem Legal.putCategory (h : contents.Legal) {category : Category}
    (hsame : ∀ stored ∈ contents.categories, stored.id = category.id →
      stored.organizationId = category.organizationId)
    (hforest : Forest (Lineage.relink (linksOf (contents.categoriesOf category.organizationId))
      category.id category.parentId)) : (contents.putCategory category).Legal where
  organizations := h.organizations
  categories := by
    intro organizationId
    rw [linksOf_putCategory hsame]
    split
    · rename_i heq
      rwa [← heq]
    · exact h.categories organizationId
  categories_nodup := nodup_put h.categories_nodup _

/-- A save of an organization with the parent that is stored changes no link. -/
theorem Legal.keepOrganization (h : contents.Legal) {organization : Organization}
    (hlink : (organization.id, organization.parentId) ∈ linksOf contents.organizations) :
    (contents.putOrganization organization).Legal := by
  apply h.putOrganization
  rw [relink_of_mem h.organizations.nodup hlink]
  exact h.organizations

theorem Legal.organizationId_of_mem (h : contents.Legal) {organizationId id : Uuid}
    (hmem : id ∈ keys (linksOf (contents.categoriesOf organizationId))) :
    ∀ stored ∈ contents.categories, stored.id = id → stored.organizationId = organizationId := by
  intro stored hstored hid
  rw [keys_linksOf] at hmem
  obtain ⟨category, hcategory, heq⟩ := List.mem_map.1 hmem
  obtain ⟨hold, howner⟩ := List.mem_filter.1 hcategory
  have hsame : stored = category :=
    List.inj_on_of_nodup_map h.categories_nodup hstored hold (hid.trans heq.symm)
  rw [hsame]
  simpa using howner

/-- A save of a category with the organization and the parent that are stored changes no link. -/
theorem Legal.keepCategory (h : contents.Legal) {category : Category}
    (hlink : (category.id, category.parentId) ∈
      linksOf (contents.categoriesOf category.organizationId)) :
    (contents.putCategory category).Legal := by
  apply h.putCategory (h.organizationId_of_mem (mem_keys_of_mem hlink))
  rw [relink_of_mem (h.categories _).nodup hlink]
  exact h.categories _

theorem Legal.dropOrganization (h : contents.Legal) {id : Uuid}
    (hleaf : ∀ organization ∈ contents.organizations, organization.id ≠ id →
      organization.parentId ≠ some id) : (contents.dropOrganization id).Legal where
  organizations := by
    rw [Contents.dropOrganization]
    refine (linksOf_filter contents.organizations id) ▸ h.organizations.prune ?_
    intro child hlink
    obtain ⟨organization, hmem, hid, hparent⟩ := mem_linksOf.1 hlink
    by_cases hself : organization.id = id
    · cases hid.symm.trans hself
      exact h.organizations.acyclic _ (.parent hlink)
    · exact hleaf organization hmem hself hparent
  categories := h.categories
  categories_nodup := h.categories_nodup

theorem Legal.dropCategory (h : contents.Legal) {id : Uuid}
    (hleaf : ∀ category ∈ contents.categories, category.id ≠ id → category.parentId ≠ some id) :
    (contents.dropCategory id).Legal where
  organizations := h.organizations
  categories := by
    intro organizationId
    have hcomm : (contents.dropCategory id).categoriesOf organizationId =
        (contents.categoriesOf organizationId).filter fun category => Nested.id category ≠ id := by
      rw [Contents.dropCategory, categoriesOf, categoriesOf, List.filter_filter, List.filter_filter]
      simp only [Bool.and_comm]
      rfl
    rw [hcomm, linksOf_filter]
    refine (h.categories organizationId).prune ?_
    intro child hlink
    obtain ⟨category, hmem, hid, hparent⟩ := mem_linksOf.1 hlink
    by_cases hself : category.id = id
    · cases hid.symm.trans hself
      exact (h.categories organizationId).acyclic _ (.parent hlink)
    · exact hleaf category (List.mem_of_mem_filter hmem) hself hparent
  categories_nodup := h.categories_nodup.sublist (List.filter_sublist.map _)

end Contents

end ServiceDesk
