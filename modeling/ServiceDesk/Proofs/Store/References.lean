import ServiceDesk.Proofs.Service.Requests
import ServiceDesk.Proofs.Store.Contents

/-!
References between rows. While no reference dangles a save has nothing to mend, so it goes through
just if the parent is there, the organization of a new category is there, and no other row has taken
the name or the domain. A row to which others refer is not deleted. So no write leaves a reference
that dangles.
-/

namespace ServiceDesk

open Hierarchy

theorem Uuid.text_ne_empty (id : Uuid) : id.text ≠ "" := by
  intro hempty
  have hread := ofText?_text id
  rw [hempty, show ofText? "" = none by decide] at hread
  cases hread

/-- A missing parent is told from every other one by its text. -/
theorem Uuid.getD_text_inj {a b : Option Uuid} :
    (a.map text).getD "" = (b.map text).getD "" ↔ a = b := by
  cases a with
  | none =>
      cases b with
      | none => simp
      | some b => simp [(text_ne_empty b).symm]
  | some a =>
      cases b with
      | none => simp [text_ne_empty a]
      | some b => simp

namespace Store

theorem map_key {α ρ : Type} [Nested α] (row : α → ρ) (key : ρ → Option String)
    (hkey : ∀ item, key (row item) = some (Nested.id item).text) (items : List α) :
    (items.map row).map key = (items.map Nested.id).map fun id => some id.text := by
  rw [List.map_map, List.map_map]
  exact List.map_congr_left fun item _ => hkey item

theorem some_text_injective : Function.Injective fun id : Uuid => some id.text :=
  fun _ _ heq => Uuid.text_injective (Option.some.inj heq)

/-- Rows have different keys if the entities have different ids from which they are written. -/
theorem nodup_map_key {α ρ : Type} [Nested α] (row : α → ρ) (key : ρ → Option String)
    (hkey : ∀ item, key (row item) = some (Nested.id item).text) {items : List α}
    (h : (items.map Nested.id).Nodup) : ((items.map row).map key).Nodup := by
  rw [map_key row key hkey]
  exact h.map some_text_injective

theorem dangles_map {α ρ : Type} [Nested α] (row : α → ρ) (key : ρ → Option String)
    (hkey : ∀ item, key (row item) = some (Nested.id item).text) (items : List α)
    (reference : Option Uuid) :
    dangles ((items.map row).map key) (reference.map Uuid.text) = false ↔
      ∀ id, reference = some id → id ∈ items.map Nested.id := by
  cases reference with
  | none => simp [dangles]
  | some id =>
      have hmem : some id.text ∈ (items.map Nested.id).map (fun id => some id.text) ↔
          id ∈ items.map Nested.id := List.mem_map_of_injective some_text_injective
      rw [dangles, map_key row key hkey, Option.map_some, Option.isSome_some, Bool.true_and, Bool.not_eq_false',
        List.contains_iff_mem, hmem]
      exact ⟨fun h _ heq => Option.some.inj heq ▸ h, fun h => h id rfl⟩

theorem organizationViolation?_eq_none {others : List OrganizationRow} {row : OrganizationRow} :
    organizationViolation? others 0 row = none ↔
      ¬(row.parentId.isSome ∧ row.parentId = row.id) ∧
      ¬(row.domain.isSome ∧ others.any (·.domain == row.domain)) ∧
      ¬others.any (·.name == row.name) ∧ dangles (others.map (·.id)) row.parentId = false := by
  rw [organizationViolation?]
  split
  · rename_i hself
    exact iff_of_false nofun fun hall => hall.1 hself
  · rename_i hself
    split
    · rename_i hdomain
      exact iff_of_false nofun fun hall => hall.2.1 hdomain
    · rename_i hdomain
      split
      · rename_i hname
        exact iff_of_false nofun fun hall => hall.2.2.1 hname
      · rename_i hname
        cases dangles (others.map (·.id)) row.parentId with
        | true => exact iff_of_false nofun fun hall => nomatch hall.2.2.2
        | false => exact iff_of_true rfl ⟨hself, hdomain, hname, rfl⟩

theorem categoryViolation?_eq_none {organizations : List OrganizationRow}
    {others : List CategoryRow} {isNew : Bool} {row : CategoryRow} :
    categoryViolation? organizations others isNew 0 row = none ↔
      ¬(row.parentId.isSome ∧ row.parentId = row.id) ∧ ¬others.any (clashes row) ∧
      (isNew = true → dangles (organizations.map (·.id)) (some row.organizationId) = false) ∧
      dangles (others.map (·.id)) row.parentId = false := by
  rw [categoryViolation?]
  split
  · rename_i hself
    exact iff_of_false nofun fun hall => hall.1 hself
  · rename_i hself
    split
    · rename_i hname
      exact iff_of_false nofun fun hall => hall.2.1 hname
    · rename_i hname
      cases isNew <;> cases dangles (organizations.map (·.id)) (some row.organizationId) <;>
        cases dangles (others.map (·.id)) row.parentId <;> simp [hself, hname]

end Store

namespace Contents

variable {contents : Contents} {lost : Uuid → Prop}

/-- No id is held twice and no reference dangles, but for those to organizations that are lost. -/
structure Closed (lost : Uuid → Prop) (contents : Contents) : Prop where
  organizations_nodup : (contents.organizations.map Nested.id).Nodup
  categories_nodup : (contents.categories.map Nested.id).Nodup
  organization_parents : ∀ organization ∈ contents.organizations, ∀ parent,
    organization.parentId = some parent → parent ∈ contents.organizations.map Nested.id
  category_parents : ∀ category ∈ contents.categories, ∀ parent,
    category.parentId = some parent → parent ∈ contents.categories.map Nested.id
  owners : ∀ category ∈ contents.categories, ¬lost category.organizationId →
    category.organizationId ∈ contents.organizations.map Nested.id

/-- In legal contents nothing dangles, but for the organizations of categories. -/
theorem Legal.closed (h : contents.Legal)
    (howners : ∀ category ∈ contents.categories, ¬lost category.organizationId →
      category.organizationId ∈ contents.organizations.map Nested.id) : contents.Closed lost where
  organizations_nodup := h.organizations_nodup
  categories_nodup := h.categories_nodup
  organization_parents := by
    intro organization hmem parent hparent
    rw [← keys_linksOf]
    exact h.organizations.parent_known (mem_linksOf.2 ⟨organization, hmem, rfl, hparent⟩)
  category_parents := by
    intro category hmem parent hparent
    rw [← keys_linksOf]
    exact h.forest_categories.parent_known (mem_linksOf.2 ⟨category, hmem, rfl, hparent⟩)
  owners := howners

theorem Closed.empty : Closed lost empty :=
  Legal.empty.closed fun _ hmem => by cases hmem

/-- What is asked of an organization that is saved. -/
structure AdmitsOrganization (contents : Contents) (organization : Organization) : Prop where
  parent : ∀ parent, organization.parentId = some parent →
    parent ≠ organization.id ∧ parent ∈ contents.organizations.map Nested.id
  domain : ∀ other ∈ contents.organizations, other.id ≠ organization.id →
    organization.domain.isSome → other.domain ≠ organization.domain
  name : ∀ other ∈ contents.organizations, other.id ≠ organization.id →
    other.name ≠ organization.name

/-- What is asked of a category that is saved. One that is there already stays in its organization. -/
structure AdmitsCategory (contents : Contents) (category : Category) : Prop where
  parent : ∀ parent, category.parentId = some parent →
    parent ≠ category.id ∧ parent ∈ contents.categories.map Nested.id
  owner : category.id ∉ contents.categories.map Nested.id →
    category.organizationId ∈ contents.organizations.map Nested.id
  name : ∀ other ∈ contents.categories, other.id ≠ category.id →
    other.organizationId = (contents.mergeCategory category).organizationId →
    other.parentId = category.parentId → other.name ≠ category.name

theorem organization?_isSome (contents : Contents) (id : Uuid) :
    (contents.organization? id).isSome ↔ id ∈ contents.organizations.map Nested.id := by
  rw [organization?, List.find?_isSome, List.mem_map]
  simp only [decide_eq_true_eq]
  exact Iff.rfl

theorem category?_isSome (contents : Contents) (id : Uuid) :
    (contents.category? id).isSome ↔ id ∈ contents.categories.map Nested.id := by
  rw [category?, List.find?_isSome, List.mem_map]
  simp only [decide_eq_true_eq]
  exact Iff.rfl

theorem organization?_eq_none (contents : Contents) (id : Uuid) :
    contents.organization? id = none ↔ id ∉ contents.organizations.map Nested.id := by
  rw [← organization?_isSome, Option.not_isSome_iff_eq_none]

theorem category?_eq_none (contents : Contents) (id : Uuid) :
    contents.category? id = none ↔ id ∉ contents.categories.map Nested.id := by
  rw [← category?_isSome, Option.not_isSome_iff_eq_none]

/-- Rows beside the one of an organization are those of the other organizations. -/
theorem other_organizations (contents : Contents) (id : Uuid) :
    contents.store.organizations.filter (·.id != some id.text) =
      (contents.organizations.filter fun other => other.id ≠ id).map .ofOrganization := by
  rw [store, List.filter_map]
  simp [Function.comp_def, OrganizationRow.ofOrganization, bne]

theorem other_categories (contents : Contents) (id : Uuid) :
    contents.store.categories.filter (·.id != some id.text) =
      (contents.categories.filter fun other => other.id ≠ id).map .ofCategory := by
  rw [store, List.filter_map]
  simp [Function.comp_def, CategoryRow.ofCategory, bne]

/-- Two rows clash just if their categories are siblings of the same name. -/
theorem clashes_ofCategory (a b : Category) :
    Store.clashes (.ofCategory a) (.ofCategory b) =
      decide (a.organizationId = b.organizationId ∧ a.parentId = b.parentId ∧ a.name = b.name) := by
  rw [Bool.eq_iff_iff, decide_eq_true_eq, Store.clashes]
  simp [CategoryRow.ofCategory, Uuid.getD_text_inj, and_assoc]

theorem mem_map_id_filter {α : Type} [Nested α] {items : List α} {id gone : Uuid} :
    id ∈ (items.filter fun item => Nested.id item ≠ gone).map Nested.id ↔
      id ≠ gone ∧ id ∈ items.map Nested.id := by
  simp only [List.mem_map, List.mem_filter, decide_eq_true_eq]
  constructor
  · rintro ⟨item, ⟨hmem, hne⟩, rfl⟩
    exact ⟨hne, item, hmem, rfl⟩
  · rintro ⟨hne, item, hmem, rfl⟩
    exact ⟨item, ⟨hmem, hne⟩, rfl⟩

/-- No row is its own parent just if no entity is. -/
theorem not_own_parent (id : Uuid) (parentId : Option Uuid) :
    ¬((parentId.map Uuid.text).isSome ∧ parentId.map Uuid.text = some id.text) ↔
      ¬parentId = some id := by
  cases parentId <;> simp

/-- An id is a parent beside an entity just if it is another one of those that are there. -/
theorem parent_iff {α : Type} [Nested α] (items : List α) (id : Uuid) (parentId : Option Uuid) :
    (¬parentId = some id ∧ ∀ parent, parentId = some parent →
      parent ∈ (items.filter fun other => Nested.id other ≠ id).map Nested.id) ↔
      ∀ parent, parentId = some parent → parent ≠ id ∧ parent ∈ items.map Nested.id := by
  simp only [mem_map_id_filter]
  exact ⟨And.right, fun h => ⟨fun hself => (h id hself).1 rfl, h⟩⟩

theorem any_others {α ρ : Type} [Nested α] (row : α → ρ) (items : List α) (id : Uuid)
    (taken : ρ → Bool) :
    ¬((items.filter fun other => Nested.id other ≠ id).map row).any taken = true ↔
      ∀ other ∈ items, Nested.id other ≠ id → taken (row other) = false := by
  simp

/-- The constraints on the row of an organization are what is asked of the organization. -/
theorem organizationViolation?_ofOrganization (contents : Contents) (organization : Organization) :
    Store.organizationViolation? ((contents.organizations.filter fun other =>
        other.id ≠ organization.id).map .ofOrganization) 0 (.ofOrganization organization) = none ↔
      contents.AdmitsOrganization organization := by
  have hself := not_own_parent organization.id organization.parentId
  have hknown := Store.dangles_map OrganizationRow.ofOrganization OrganizationRow.id (fun _ => rfl)
    (contents.organizations.filter fun other => other.id ≠ organization.id) organization.parentId
  have hparent := parent_iff contents.organizations organization.id organization.parentId
  have hdomain : ¬(organization.domain.isSome ∧ ((contents.organizations.filter fun other =>
      Nested.id other ≠ organization.id).map OrganizationRow.ofOrganization).any
        (·.domain == organization.domain) = true) ↔
      ∀ other ∈ contents.organizations, other.id ≠ organization.id →
        organization.domain.isSome → other.domain ≠ organization.domain := by
    rw [not_and, any_others]
    simp only [OrganizationRow.ofOrganization, beq_eq_false_iff_ne]
    exact ⟨fun h other hmem hne hsome => h hsome other hmem hne,
      fun h hsome other hmem hne => h other hmem hne hsome⟩
  have hname := any_others OrganizationRow.ofOrganization contents.organizations organization.id
    (·.name == organization.name)
  simp only [OrganizationRow.ofOrganization, beq_eq_false_iff_ne] at hname
  rw [Store.organizationViolation?_eq_none]
  refine (and_congr hself (and_congr hdomain (and_congr hname hknown))).trans ⟨?_, ?_⟩
  · rintro ⟨hown, hdomain, hname, hknown⟩
    exact ⟨hparent.1 ⟨hown, hknown⟩, hdomain, hname⟩
  · rintro ⟨hparents, hdomain, hname⟩
    obtain ⟨hown, hknown⟩ := hparent.2 hparents
    exact ⟨hown, hdomain, hname, hknown⟩

/-- The time of creation plays no part in it. -/
theorem admitsOrganization_merge (contents : Contents) (organization : Organization) :
    contents.AdmitsOrganization (contents.mergeOrganization organization) ↔
      contents.AdmitsOrganization organization := by
  rw [mergeOrganization]
  split
  · exact Iff.rfl
  · exact ⟨fun h => ⟨h.parent, h.domain, h.name⟩, fun h => ⟨h.parent, h.domain, h.name⟩⟩

/-- The constraints on the row of a category are what is asked of the category, in the organization
in which it stays. -/
theorem categoryViolation?_ofCategory (contents : Contents) (category : Category)
    {merged : Category} (hmerged : contents.mergeCategory category = merged) :
    Store.categoryViolation? contents.store.organizations ((contents.categories.filter fun other =>
        other.id ≠ category.id).map .ofCategory) (contents.category? category.id).isNone 0
          (.ofCategory merged) = none ↔ contents.AdmitsCategory category := by
  have hid : merged.id = category.id := hmerged ▸ mergeCategory_id contents category
  have hparentId : merged.parentId = category.parentId :=
    hmerged ▸ mergeCategory_parentId contents category
  have hself : ¬((merged.parentId.map Uuid.text).isSome ∧
      merged.parentId.map Uuid.text = some merged.id.text) ↔
        ¬category.parentId = some category.id := by
    rw [not_own_parent, hid, hparentId]
  have hknown := Store.dangles_map CategoryRow.ofCategory CategoryRow.id (fun _ => rfl)
    (contents.categories.filter fun other => other.id ≠ category.id) merged.parentId
  have howner : ((contents.category? category.id).isNone = true →
      Store.dangles (contents.store.organizations.map (·.id)) (some merged.organizationId.text) =
        false) ↔ (category.id ∉ contents.categories.map Nested.id →
          category.organizationId ∈ contents.organizations.map Nested.id) := by
    have hdangles := Store.dangles_map OrganizationRow.ofOrganization OrganizationRow.id
      (fun _ => rfl) contents.organizations (some merged.organizationId)
    rw [Option.isNone_iff_eq_none, ← category?_eq_none]
    refine imp_congr_right fun hnew => hdangles.trans ?_
    have hsame : merged.organizationId = category.organizationId := by
      rw [← hmerged, mergeCategory, hnew]
    rw [hsame]
    exact ⟨fun h => h _ rfl, fun h _ heq => Option.some.inj heq ▸ h⟩
  have hparent := parent_iff contents.categories category.id category.parentId
  have hname : ¬((contents.categories.filter fun other => Nested.id other ≠ category.id).map
      CategoryRow.ofCategory).any (Store.clashes (.ofCategory merged)) = true ↔
      ∀ other ∈ contents.categories, other.id ≠ category.id →
        other.organizationId = merged.organizationId → other.parentId = category.parentId →
          other.name ≠ category.name := by
    have hmergedName : merged.name = category.name :=
      hmerged ▸ mergeCategory_name contents category
    rw [any_others]
    simp only [clashes_ofCategory, hparentId, hmergedName, decide_eq_false_iff_not, not_and]
    refine forall₃_congr fun other _ _ => ?_
    rw [eq_comm, eq_comm (a := category.parentId), ne_eq, eq_comm (a := category.name)]
  rw [Store.categoryViolation?_eq_none]
  refine (and_congr hself (and_congr hname (and_congr howner hknown))).trans ⟨?_, ?_⟩
  · rintro ⟨hown, hname, howner, hknown⟩
    rw [hparentId] at hknown
    exact ⟨hparent.1 ⟨hown, hknown⟩, howner, hmerged ▸ hname⟩
  · rintro ⟨hparents, howner, hname⟩
    obtain ⟨hown, hknown⟩ := hparent.2 hparents
    exact ⟨hown, hmerged ▸ hname, howner, hparentId ▸ hknown⟩

namespace Closed

/-- No row waits for an organization that is not there and not lost. -/
theorem mendedByOrganization (h : contents.Closed lost) {id : Uuid} (hpresent : ¬lost id) :
    contents.store.mendedByOrganization id = 0 := by
  rw [Store.mendedByOrganization, findOrganization?_store, Option.isSome_map]
  split
  · rfl
  · rename_i hmissing
    rw [organization?_isSome] at hmissing
    rw [organizationReferences_store]
    refine ⟨fun organization hmem _ hparent => ?_, fun category hmem howner => ?_⟩
    · exact hmissing (h.organization_parents organization hmem id hparent)
    · exact hmissing (howner ▸ h.owners category hmem (howner ▸ hpresent))

theorem mendedByCategory (h : contents.Closed lost) (id : Uuid) :
    contents.store.mendedByCategory id = 0 := by
  rw [Store.mendedByCategory, findCategory?_store, Option.isSome_map]
  split
  · rfl
  · rename_i hmissing
    rw [category?_isSome] at hmissing
    rw [categoryReferences_store]
    exact fun category hmem _ hparent => hmissing (h.category_parents category hmem id hparent)

/-- A save of an organization goes through just if the organization is admitted. -/
theorem saveOrganization_eq_ok (h : contents.Closed lost) {organization : Organization}
    (hpresent : ¬lost organization.id) {next : Store} :
    contents.store.saveOrganization organization = .ok next ↔
      contents.AdmitsOrganization organization ∧
        next = (contents.putOrganization organization).store := by
  have hviolation := (organizationViolation?_ofOrganization contents
    (contents.mergeOrganization organization)).trans (admitsOrganization_merge contents organization)
  have hid : (contents.mergeOrganization organization).id = organization.id :=
    mergeOrganization_id contents organization
  constructor
  · intro hsave
    refine ⟨hviolation.1 ?_, saveOrganization_store hsave⟩
    rw [Store.saveOrganization, h.mendedByOrganization hpresent, Store.mergeOrganization_id,
      other_organizations, mergeOrganization_store] at hsave
    rw [hid]
    split at hsave
    · cases hsave
    · assumption
  · rintro ⟨hadmits, rfl⟩
    have hnone := hviolation.2 hadmits
    rw [hid] at hnone
    cases hsave : contents.store.saveOrganization organization with
    | ok next => rw [saveOrganization_store hsave]
    | error violation =>
        rw [Store.saveOrganization, h.mendedByOrganization hpresent, Store.mergeOrganization_id,
          other_organizations, mergeOrganization_store, hnone] at hsave
        cases hsave

theorem saveCategory_eq_ok (h : contents.Closed lost) {category : Category} {next : Store} :
    contents.store.saveCategory category = .ok next ↔
      contents.AdmitsCategory category ∧ next = (contents.putCategory category).store := by
  have hviolation := categoryViolation?_ofCategory contents category rfl
  have hnew : (contents.store.findCategory? category.id).isNone =
      (contents.category? category.id).isNone := by
    rw [findCategory?_store, Option.isNone_map]
  constructor
  · intro hsave
    refine ⟨hviolation.1 ?_, saveCategory_store hsave⟩
    rw [Store.saveCategory, h.mendedByCategory, Store.mergeCategory_id, other_categories,
      mergeCategory_store, hnew] at hsave
    split at hsave
    · cases hsave
    · assumption
  · rintro ⟨hadmits, rfl⟩
    have hnone := hviolation.2 hadmits
    cases hsave : contents.store.saveCategory category with
    | ok next => rw [saveCategory_store hsave]
    | error violation =>
        rw [Store.saveCategory, h.mendedByCategory, Store.mergeCategory_id, other_categories,
          mergeCategory_store, hnew, hnone] at hsave
        cases hsave

theorem putOrganization (h : contents.Closed lost) {organization : Organization}
    (hadmits : contents.AdmitsOrganization organization) :
    (contents.putOrganization organization).Closed lost where
  organizations_nodup := nodup_put h.organizations_nodup _
  categories_nodup := h.categories_nodup
  organization_parents := by
    intro other hmem parent hparent
    refine mem_map_id_put.2 (Or.inr ?_)
    rcases mem_put.1 hmem with rfl | ⟨hold, _⟩
    · exact (hadmits.parent parent
        ((mergeOrganization_parentId contents organization).symm.trans hparent)).2
    · exact h.organization_parents other hold parent hparent
  category_parents := h.category_parents
  owners category hmem hpresent := mem_map_id_put.2 (Or.inr (h.owners category hmem hpresent))

theorem putCategory (h : contents.Closed lost) {category : Category}
    (hadmits : contents.AdmitsCategory category) : (contents.putCategory category).Closed lost where
  organizations_nodup := h.organizations_nodup
  categories_nodup := nodup_put h.categories_nodup _
  organization_parents := h.organization_parents
  category_parents := by
    intro other hmem parent hparent
    refine mem_map_id_put.2 (Or.inr ?_)
    rcases mem_put.1 hmem with rfl | ⟨hold, _⟩
    · exact (hadmits.parent parent
        ((mergeCategory_parentId contents category).symm.trans hparent)).2
    · exact h.category_parents other hold parent hparent
  owners := by
    intro other hmem hpresent
    rcases mem_put.1 hmem with rfl | ⟨hold, _⟩
    · cases hfound : contents.category? category.id with
      | none =>
          have hnew : category.id ∉ contents.categories.map Nested.id := by
            rw [← category?_isSome, hfound]
            exact nofun
          rw [mergeCategory, hfound]
          exact hadmits.owner hnew
      | some stored =>
          rw [mergeCategory, hfound] at hpresent ⊢
          exact h.owners stored (List.mem_of_find?_eq_some hfound) hpresent
    · exact h.owners other hold hpresent

theorem dropOrganization (h : contents.Closed lost) {id : Uuid}
    (hleaf : ∀ organization ∈ contents.organizations, organization.id ≠ id →
      organization.parentId ≠ some id)
    (hunused : ∀ category ∈ contents.categories, category.organizationId ≠ id) :
    (contents.dropOrganization id).Closed lost where
  organizations_nodup := h.organizations_nodup.sublist (List.filter_sublist.map _)
  categories_nodup := h.categories_nodup
  organization_parents := by
    intro other hmem parent hparent
    obtain ⟨hold, hother⟩ := List.mem_filter.1 hmem
    have hne : parent ≠ id := by
      rintro rfl
      exact hleaf other hold (by simpa using hother) hparent
    exact mem_map_id_filter.2 ⟨hne, h.organization_parents other hold parent hparent⟩
  category_parents := h.category_parents
  owners := by
    intro category hmem hpresent
    exact mem_map_id_filter.2 ⟨hunused category hmem, h.owners category hmem hpresent⟩

theorem dropCategory (h : contents.Closed lost) {id : Uuid}
    (hleaf : ∀ category ∈ contents.categories, category.id ≠ id → category.parentId ≠ some id) :
    (contents.dropCategory id).Closed lost where
  organizations_nodup := h.organizations_nodup
  categories_nodup := h.categories_nodup.sublist (List.filter_sublist.map _)
  organization_parents := h.organization_parents
  category_parents := by
    intro other hmem parent hparent
    obtain ⟨hold, hother⟩ := List.mem_filter.1 hmem
    have hne : parent ≠ id := by
      rintro rfl
      exact hleaf other hold (by simpa using hother) hparent
    exact mem_map_id_filter.2 ⟨hne, h.category_parents other hold parent hparent⟩
  owners category hmem hpresent := h.owners category (List.mem_of_mem_filter hmem) hpresent

end Closed

/-- What contents may become by a call on their store. -/
inductive Becomes (contents : Contents) : Store.Call → Contents → Prop
  | same {call} : Becomes contents call contents
  | saveOrganization {organization} (hsave : contents.store.saveOrganization organization =
      .ok (contents.putOrganization organization).store) :
      Becomes contents (.saveOrganization organization) (contents.putOrganization organization)
  | saveCategory {category} (hsave : contents.store.saveCategory category =
      .ok (contents.putCategory category).store) :
      Becomes contents (.saveCategory category) (contents.putCategory category)
  | deleteOrganization {id}
      (hleaf : ∀ organization ∈ contents.organizations, organization.id ≠ id →
        organization.parentId ≠ some id)
      (hunused : ∀ category ∈ contents.categories, category.organizationId ≠ id) :
      Becomes contents (.deleteOrganization id) (contents.dropOrganization id)
  | deleteCategory {id}
      (hleaf : ∀ category ∈ contents.categories, category.id ≠ id → category.parentId ≠ some id) :
      Becomes contents (.deleteCategory id) (contents.dropCategory id)

def after (contents : Contents) : Store.Call → Contents
  | .saveOrganization organization => contents.putOrganization organization
  | .deleteOrganization id => contents.dropOrganization id
  | .saveCategory category => contents.putCategory category
  | .deleteCategory id => contents.dropCategory id
  | _ => contents

theorem dropOrganization_of_missing {id : Uuid} (h : contents.organization? id = none) :
    contents.dropOrganization id = contents := by
  rw [organization?, List.find?_eq_none] at h
  rw [dropOrganization, List.filter_eq_self.2 fun organization hmem => by simpa using h organization hmem]

theorem dropCategory_of_missing {id : Uuid} (h : contents.category? id = none) :
    contents.dropCategory id = contents := by
  rw [category?, List.find?_eq_none] at h
  rw [dropCategory, List.filter_eq_self.2 fun category hmem => by simpa using h category hmem]

/-- A call that goes through leaves the store of the contents after it. -/
theorem answer_eq_ok {call : Store.Call} {result : call.Result}
    (h : (contents.store.answer call).1 = .ok result) :
    (contents.store.answer call).2 = (contents.after call).store ∧
      contents.Becomes call (contents.after call) := by
  have hpair := Store.answer_eq h
  cases call with
  | saveOrganization organization =>
      have hsave := Store.answer_saveOrganization hpair
      have hnext := saveOrganization_store hsave
      exact ⟨hnext, .saveOrganization (hnext ▸ hsave)⟩
  | saveCategory category =>
      have hsave := Store.answer_saveCategory hpair
      have hnext := saveCategory_store hsave
      exact ⟨hnext, .saveCategory (hnext ▸ hsave)⟩
  | deleteOrganization id =>
      have hdelete := Store.ofWrite_eq_ok hpair
      cases result with
      | false =>
          obtain ⟨hmissing, hnext⟩ := Store.deleteOrganization_eq_false hdelete
          rw [findOrganization?_store, Option.map_eq_none_iff] at hmissing
          rw [after, dropOrganization_of_missing hmissing]
          exact ⟨hnext, .same⟩
      | true =>
          obtain ⟨hnext, hleaf, hunused⟩ := deleteOrganization_store hdelete
          exact ⟨hnext, .deleteOrganization hleaf hunused⟩
  | deleteCategory id =>
      have hdelete := Store.ofWrite_eq_ok hpair
      cases result with
      | false =>
          obtain ⟨hmissing, hnext⟩ := Store.deleteCategory_eq_false hdelete
          rw [findCategory?_store, Option.map_eq_none_iff] at hmissing
          rw [after, dropCategory_of_missing hmissing]
          exact ⟨hnext, .same⟩
      | true =>
          obtain ⟨hnext, hleaf⟩ := deleteCategory_store hdelete
          exact ⟨hnext, .deleteCategory hleaf⟩
  | _ => exact ⟨rfl, .same⟩

/-- A call leaves the store of some contents. -/
theorem answer_becomes (contents : Contents) (call : Store.Call) : ∃ after : Contents,
    (contents.store.answer call).2 = after.store ∧ contents.Becomes call after := by
  cases hanswer : (contents.store.answer call).1 with
  | error fault => exact ⟨contents, Store.answer_of_error hanswer, .same⟩
  | ok result => exact ⟨contents.after call, answer_eq_ok hanswer⟩

/-- Nothing comes to dangle by a call, unless it saves an organization that is lost. -/
theorem Becomes.closed {call : Store.Call} {after : Contents} (hcall : contents.Becomes call after)
    (h : contents.Closed lost)
    (hpresent : ∀ organization, call = .saveOrganization organization → ¬lost organization.id) :
    after.Closed lost := by
  cases hcall with
  | same => exact h
  | saveOrganization hsave =>
      exact h.putOrganization ((h.saveOrganization_eq_ok (hpresent _ rfl)).1 hsave).1
  | saveCategory hsave => exact h.putCategory (h.saveCategory_eq_ok.1 hsave).1
  | deleteOrganization hleaf hunused => exact h.dropOrganization hleaf hunused
  | deleteCategory hleaf => exact h.dropCategory hleaf

/-- Organizations can be read back after a call if the one that it saves can. -/
theorem Becomes.organizations_plain {call : Store.Call} {after : Contents}
    (hcall : contents.Becomes call after)
    (h : ∀ organization ∈ contents.organizations, organization.IsPlain)
    (hsaved : ∀ organization, call = .saveOrganization organization → organization.IsPlain) :
    ∀ organization ∈ after.organizations, organization.IsPlain := by
  cases hcall with
  | same => exact h
  | saveOrganization _ =>
      intro other hmem
      rcases mem_put.1 hmem with rfl | ⟨hold, _⟩
      · exact mergeOrganization_isPlain h (hsaved _ rfl)
      · exact h other hold
  | saveCategory _ => exact h
  | deleteOrganization _ _ => exact fun other hmem => h other (List.mem_of_mem_filter hmem)
  | deleteCategory _ => exact h

theorem Becomes.categories_plain {call : Store.Call} {after : Contents}
    (hcall : contents.Becomes call after)
    (h : ∀ category ∈ contents.categories, category.IsPlain)
    (hsaved : ∀ category, call = .saveCategory category → category.IsPlain) :
    ∀ category ∈ after.categories, category.IsPlain := by
  cases hcall with
  | same => exact h
  | saveOrganization _ => exact h
  | saveCategory _ =>
      intro other hmem
      rcases mem_put.1 hmem with rfl | ⟨hold, _⟩
      · exact mergeCategory_isPlain h (hsaved _ rfl)
      · exact h other hold
  | deleteOrganization _ _ => exact h
  | deleteCategory _ => exact fun other hmem => h other (List.mem_of_mem_filter hmem)

end Contents

end ServiceDesk
