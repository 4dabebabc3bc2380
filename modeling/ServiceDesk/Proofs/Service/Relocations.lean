import ServiceDesk.Proofs.Hierarchy.Relocation
import ServiceDesk.Proofs.Service.Admission
import ServiceDesk.Proofs.Service.Inquiries
import ServiceDesk.Proofs.Service.Readback

/-!
What a move shows afterwards. A move that goes through saves one row with another parent. So every
complete read has the row in its old place with the new parent, for it keeps its time of creation, and
the tree below it moves with it: trees and paths of organizations, and those of categories, are told
by such reads alone.
-/

namespace ServiceDesk

open Hierarchy Service Operation

/-! ### Reads of a list in which one entity has changed -/

namespace Hierarchy

variable {α : Type} [Nested α] {items : List α} {item : α}

theorem map_put (cut : α → α) (hcut : ∀ item, Nested.id (cut item) = Nested.id item) :
    (put items item).map cut = put (items.map cut) (cut item) := by
  have hids : (items.map cut).map Nested.id = items.map Nested.id := by
    rw [List.map_map]
    exact List.map_congr_left fun item _ => hcut item
  rw [put, put, hids, hcut]
  split
  · rw [List.map_map, List.map_map]
    refine List.map_congr_left fun stored _ => ?_
    simp only [Function.comp_apply, hcut]
    split <;> rfl
  · rw [List.map_append, List.map_singleton]

theorem map_id_put (hknown : Nested.id item ∈ items.map Nested.id) :
    (put items item).map Nested.id = items.map Nested.id := by
  rw [put, if_pos hknown, List.map_map]
  refine List.map_congr_left fun stored _ => ?_
  rw [Function.comp_apply]
  split
  · rename_i hid
    exact hid.symm
  · rfl

/-- An entity that changes in nothing by which the list is sorted stays in its place. -/
theorem mergeSort_put (before : α → α → Bool) (hknown : Nested.id item ∈ items.map Nested.id)
    (hbefore : ∀ stored ∈ items, Nested.id stored = Nested.id item →
      ∀ other, before item other = before stored other ∧ before other item = before other stored) :
    (put items item).mergeSort before = put (items.mergeSort before) item := by
  have hstill : Nested.id item ∈ (items.mergeSort before).map Nested.id :=
    ((List.mergeSort_perm _ _).map Nested.id).mem_iff.2 hknown
  have hswap : ∀ stored ∈ items, ∀ other,
      before (if Nested.id stored = Nested.id item then item else stored) other =
          before stored other ∧
        before other (if Nested.id stored = Nested.id item then item else stored) =
          before other stored := by
    intro stored hstored other
    split
    · rename_i hid
      exact hbefore stored hstored hid other
    · exact ⟨rfl, rfl⟩
  rw [put, if_pos hknown, put, if_pos hstill, List.map_mergeSort]
  intro a ha b hb
  rw [(hswap a ha _).1, (hswap b hb _).2]

end Hierarchy

/-- Neither table has gained or lost an id. -/
def Store.SameIds (store after : Store) : Prop :=
  after.organizations.map (·.id) = store.organizations.map (·.id) ∧
    after.categories.map (·.id) = store.categories.map (·.id)

namespace Contents

variable {contents : Contents} {id : Uuid}

/-- The organizations as they are read, all at once. -/
def readOrganizations (contents : Contents) : List Organization :=
  (byCreation contents.organizations).map Organization.toMicros

/-- The categories of one organization as they are read, all at once. -/
def readCategories (contents : Contents) (tenant : Uuid) : List Category :=
  (categoriesByCreation (contents.categoriesOf tenant)).map Category.toMicros

theorem mem_readCategories {tenant : Uuid} : id ∈ (contents.readCategories tenant).map Nested.id ↔
    id ∈ keys (linksOf (contents.categoriesOf tenant)) := by
  rw [← keys_linksOf, readCategories, linksOf_toMicros_categories]
  exact (((List.mergeSort_perm _ _).map _).map _).mem_iff

/-- What is read with the categories of an organization is what is found there. -/
theorem Legal.mem_readCategories_iff (h : contents.Legal) {tenant : Uuid} :
    id ∈ (contents.readCategories tenant).map Nested.id ↔
      ∃ category, contents.category? id = some category ∧ category.organizationId = tenant := by
  rw [mem_readCategories, keys_linksOf, List.mem_map]
  refine exists_congr fun category => ?_
  rw [category?_eq_some h.categories_nodup, categoriesOf, List.mem_filter, decide_eq_true_eq]
  exact and_right_comm

namespace Sound

variable {given : List Uuid} (h : contents.Sound given)

include h

theorem organizationTree_outcome (id : Uuid) : (Inquiry.organizationTree id).outcome contents.store =
    Tree.ofItems contents.readOrganizations id :=
  congrArg Prod.fst (perform_organizationTree h.answer_allOrganizations id)

theorem organizationPath_outcome (id : Uuid) : (Inquiry.organizationPath id).outcome contents.store =
    pathWithin contents.readOrganizations id :=
  congrArg Prod.fst (perform_organizationPath h.answer_allOrganizations id)

/-- A category that is read with those of an organization has its tree among them. -/
theorem categoryTree_of_mem {tenant : Uuid}
    (hid : id ∈ (contents.readCategories tenant).map Nested.id) :
    (Inquiry.categoryTree id).outcome contents.store =
      Tree.ofItems (contents.readCategories tenant) id := by
  obtain ⟨category, hfound, rfl⟩ := h.legal.mem_readCategories_iff.1 hid
  have hanswer := h.answer_getCategory id
  rw [hfound] at hanswer
  exact congrArg Prod.fst (perform_categoryTree hanswer (h.answer_categoriesFor _))

theorem categoryPath_outcome (id : Uuid) : (Inquiry.categoryPath id).outcome contents.store =
    match contents.category? id with
    | none => .error (.notFound id)
    | some category => pathWithin (contents.readCategories category.organizationId) id := by
  have hanswer := h.answer_getCategory id
  cases hfound : contents.category? id with
  | none =>
      rw [hfound] at hanswer
      rw [Inquiry.outcome, Inquiry.operation, Service.categoryPath,
        perform_bind_error (perform_getCategory_missing hanswer)]
  | some category =>
      rw [hfound] at hanswer
      exact congrArg Prod.fst (perform_categoryPath hanswer (h.answer_categoriesFor _))

/-- A category that is read with those of an organization has its path among them. -/
theorem categoryPath_of_mem {tenant : Uuid}
    (hid : id ∈ (contents.readCategories tenant).map Nested.id) :
    (Inquiry.categoryPath id).outcome contents.store =
      pathWithin (contents.readCategories tenant) id := by
  obtain ⟨category, hfound, rfl⟩ := h.legal.mem_readCategories_iff.1 hid
  rw [h.categoryPath_outcome, hfound]

end Sound

/-! ### Reads after a save -/

/-- A save of a stored organization changes it in its place among all that are read. -/
theorem Legal.readOrganizations_put (h : contents.Legal) {organization : Organization}
    (hknown : organization.id ∈ contents.organizations.map Nested.id) :
    (contents.putOrganization organization).readOrganizations =
      put contents.readOrganizations (contents.mergeOrganization organization).toMicros := by
  have hid := mergeOrganization_id contents organization
  have hcreated : ∀ stored ∈ contents.organizations,
      Nested.id stored = Nested.id (contents.mergeOrganization organization) →
        (contents.mergeOrganization organization).createdAt = stored.createdAt := by
    intro stored hstored hsame
    rw [mergeOrganization,
      (organization?_eq_some h.organizations_nodup).2 ⟨hstored, hsame.trans hid⟩]
  have hsorted : byCreation (put contents.organizations (contents.mergeOrganization organization)) =
      put (byCreation contents.organizations) (contents.mergeOrganization organization) := by
    refine mergeSort_put _ (hid.symm ▸ hknown) fun stored hstored hsame other => ?_
    rw [hcreated stored hstored hsame]
    exact ⟨rfl, rfl⟩
  rw [readOrganizations, Contents.putOrganization, hsorted, map_put Organization.toMicros fun _ => rfl]
  rfl

theorem Legal.readCategories_put (h : contents.Legal) {category : Category}
    (hknown : category.id ∈ keys (linksOf (contents.categoriesOf category.organizationId))) :
    (contents.putCategory category).readCategories category.organizationId =
      put (contents.readCategories category.organizationId)
        (contents.mergeCategory category).toMicros := by
  have hid := mergeCategory_id contents category
  have hcreated : ∀ stored ∈ contents.categoriesOf category.organizationId,
      Nested.id stored = Nested.id (contents.mergeCategory category) →
        (contents.mergeCategory category).createdAt = stored.createdAt := by
    intro stored hstored hsame
    rw [mergeCategory, (category?_eq_some h.categories_nodup).2
      ⟨List.mem_of_mem_filter hstored, hsame.trans hid⟩]
  have hsorted : categoriesByCreation (put (contents.categoriesOf category.organizationId)
        (contents.mergeCategory category)) =
      put (categoriesByCreation (contents.categoriesOf category.organizationId))
        (contents.mergeCategory category) := by
    rw [keys_linksOf, ← hid] at hknown
    refine mergeSort_put _ hknown fun stored hstored hsame other => ?_
    rw [hcreated stored hstored hsame]
    exact ⟨rfl, rfl⟩
  have hsame := h.organizationId_of_mem hknown
  rw [readCategories, categoriesOf_putCategory hsame, if_pos rfl, hsorted,
    map_put Category.toMicros fun _ => rfl]
  rfl

theorem Legal.readCategories_put_other (h : contents.Legal) {category : Category} {tenant : Uuid}
    (hknown : category.id ∈ keys (linksOf (contents.categoriesOf category.organizationId)))
    (hne : category.organizationId ≠ tenant) :
    (contents.putCategory category).readCategories tenant = contents.readCategories tenant := by
  have hsame := h.organizationId_of_mem hknown
  rw [readCategories, categoriesOf_putCategory hsame, if_neg hne]
  rfl

theorem sameIds_putOrganization {organization : Organization}
    (hknown : organization.id ∈ contents.organizations.map Nested.id) :
    contents.store.SameIds (contents.putOrganization organization).store := by
  rw [← mergeOrganization_id contents organization] at hknown
  have hids := congrArg (List.map fun id : Uuid => some id.text) (map_id_put hknown)
  rw [List.map_map, List.map_map] at hids
  refine ⟨?_, rfl⟩
  simp only [store, putOrganization, List.map_map]
  exact hids

theorem sameIds_putCategory {category : Category}
    (hknown : category.id ∈ contents.categories.map Nested.id) :
    contents.store.SameIds (contents.putCategory category).store := by
  rw [← mergeCategory_id contents category] at hknown
  have hids := congrArg (List.map fun id : Uuid => some id.text) (map_id_put hknown)
  rw [List.map_map, List.map_map] at hids
  refine ⟨rfl, ?_⟩
  simp only [store, putCategory, List.map_map]
  exact hids

namespace Sound

variable {given : List Uuid} (h : contents.Sound given)

include h

/-- A stored organization that is saved with another parent is hung there in all reads. -/
theorem rehung_organization {stored moved : Organization} (hmem : stored ∈ contents.organizations)
    (hid : moved.id = stored.id)
    (hcut : (contents.mergeOrganization moved).toMicros = moved.toMicros)
    (hafter : (contents.putOrganization moved).Sound given) :
    (contents.putOrganization moved).readOrganizations =
        put contents.readOrganizations moved.toMicros ∧
      Rehung contents.readOrganizations stored.toMicros moved.toMicros := by
  have hknown : moved.id ∈ contents.organizations.map Nested.id :=
    List.mem_map.2 ⟨stored, hmem, hid.symm⟩
  have hread : (contents.putOrganization moved).readOrganizations =
      put contents.readOrganizations moved.toMicros := by
    rw [h.legal.readOrganizations_put hknown, hcut]
  refine ⟨hread, List.mem_map_of_mem (List.mem_mergeSort.2 hmem), hid, ?_, ?_⟩
  · exact h.legal.organizations.perm (allOrganizations_answer h.answer_allOrganizations).symm
  · rw [← hread]
    exact hafter.legal.organizations.perm
      (allOrganizations_answer hafter.answer_allOrganizations).symm

/-- A stored category that is saved with another parent is hung there in all reads of its
organization. -/
theorem rehung_category {stored moved : Category}
    (hown : stored ∈ contents.categoriesOf moved.organizationId) (hid : moved.id = stored.id)
    (hcut : (contents.mergeCategory moved).toMicros = moved.toMicros)
    (hafter : (contents.putCategory moved).Sound given) :
    (contents.putCategory moved).readCategories moved.organizationId =
        put (contents.readCategories moved.organizationId) moved.toMicros ∧
      Rehung (contents.readCategories moved.organizationId) stored.toMicros moved.toMicros := by
  have hknown : moved.id ∈ keys (linksOf (contents.categoriesOf moved.organizationId)) :=
    mem_keys_of_mem (mem_linksOf.2 ⟨stored, hown, hid.symm, rfl⟩)
  have hread : (contents.putCategory moved).readCategories moved.organizationId =
      put (contents.readCategories moved.organizationId) moved.toMicros := by
    rw [h.legal.readCategories_put hknown, hcut]
  refine ⟨hread, List.mem_map_of_mem (List.mem_mergeSort.2 hown), hid, ?_, ?_⟩
  · exact (h.legal.categories _).perm (categoriesFor_answer (h.answer_categoriesFor _)).symm
  · rw [← hread]
    exact (hafter.legal.categories _).perm
      (categoriesFor_answer (hafter.answer_categoriesFor _)).symm

/-- What is not read with the categories of the organization of a saved one keeps its path. -/
theorem categoryPath_elsewhere {moved : Category}
    (hself : moved.id ∈ (contents.readCategories moved.organizationId).map Nested.id)
    (hafter : (contents.putCategory moved).Sound given)
    (hout : id ∉ (contents.readCategories moved.organizationId).map Nested.id) :
    (Inquiry.categoryPath id).outcome (contents.putCategory moved).store =
      (Inquiry.categoryPath id).outcome contents.store := by
  have hfound : (contents.putCategory moved).category? id = contents.category? id := by
    refine (find?_id_put _ _ _).trans (if_neg ?_)
    rw [mergeCategory_id]
    rintro rfl
    exact hout hself
  rw [hafter.categoryPath_outcome, h.categoryPath_outcome, hfound]
  cases hcategory : contents.category? id with
  | none => rfl
  | some category =>
      have hforeign : moved.organizationId ≠ category.organizationId := fun hsame =>
        hout (h.legal.mem_readCategories_iff.2 ⟨category, hcategory, hsame.symm⟩)
      dsimp only
      rw [h.legal.readCategories_put_other (mem_readCategories.1 hself) hforeign]

end Sound

/-! ### Moves -/

namespace Orderly

variable {given : List Uuid} (h : contents.Orderly given) {stamp : Stamp} (hnow : stamp.now.IsPlain)
  {target : Option Uuid} {after : Store}

include h hnow

/-- A move of an organization that goes through has saved it with its new parent, and the contents
stay sound. -/
theorem moveOrganization_saved {moved : Organization}
    (hserve : (Request.moveOrganization stamp id target).serve contents.store =
      (.ok (.organization moved), after)) :
    ∃ stored ∈ contents.organizations, stored.id = id ∧
      moved = { stored.toMicros with parentId := target }.touch stamp.now ∧
      (contents.mergeOrganization moved).toMicros = moved.toMicros ∧
      after = (contents.putOrganization moved).store ∧ (contents.putOrganization moved).Sound given := by
  cases ((Request.moveOrganization stamp id target).delivers contents.store).done _ _ hserve with
  | moveOrganization hanswer hmoved hsave =>
      obtain ⟨stored, hfound, rfl, hplain, rfl⟩ := organization?_of_answer hanswer
      obtain ⟨hmem, _⟩ := (organization?_eq_some h.sound.legal.organizations_nodup).1 hfound
      have hok : ((Request.moveOrganization stamp stored.id target).serve contents.store).1.isOk =
          true := by
        rw [hserve]
        rfl
      obtain ⟨_, hknown, hbounded⟩ :=
        (h.moveOrganization_iff stamp stored.id target).1 (succeeds_map.1 hok)
      rw [linksOf_hangOrganization hmem h.sound.legal.organizations_nodup] at hbounded
      rw [← keys_linksOf] at hknown
      have hsaved : moved.IsPlain := by
        rw [hmoved]
        exact ⟨hplain.1.toMicros, hplain.2.toMicros.latest hnow⟩
      have horigin : moved.Origin contents.store none := by
        rw [hmoved]
        exact .stored hanswer rfl rfl
      have hlegal : (contents.putOrganization moved).Legal := by
        refine h.sound.legal.putOrganization ?_
        rw [hmoved]
        exact hbounded.forest h.sound.legal.organizations hknown
      have hgiven : moved.id ∈ given := by
        rw [hmoved]
        exact h.sound.organizations_given stored hmem
      exact ⟨stored, hmem, rfl, hmoved,
        (merge_organization_origin horigin (fun _ hnone => nomatch hnone) hsaved).2,
        saveOrganization_store hsave, h.sound.putOrganization hlegal hsaved hgiven⟩

/-- A move of a category that goes through has saved it with its new parent. -/
theorem moveCategory_saved {moved : Category}
    (hserve : (Request.moveCategory stamp id target).serve contents.store =
      (.ok (.category moved), after)) :
    ∃ stored ∈ contents.categories, stored.id = id ∧
      moved = { stored.toMicros with parentId := target }.touch stamp.now ∧
      (contents.mergeCategory moved).toMicros = moved.toMicros ∧
      after = (contents.putCategory moved).store ∧ (contents.putCategory moved).Sound given := by
  cases ((Request.moveCategory stamp id target).delivers contents.store).done _ _ hserve with
  | moveCategory hanswer hmoved hsave =>
      obtain ⟨stored, hfound, rfl, hplain, rfl⟩ := category?_of_answer hanswer
      obtain ⟨hmem, _⟩ := (category?_eq_some h.sound.legal.categories_nodup).1 hfound
      have hok : ((Request.moveCategory stamp stored.id target).serve contents.store).1.isOk =
          true := by
        rw [hserve]
        rfl
      obtain ⟨other, hother, hid, hknown, hbounded, _⟩ :=
        (h.moveCategory_iff stamp stored.id target).1 (succeeds_map.1 hok)
      cases Tree.eq_of_id h.sound.legal.categories_nodup hother hmem hid
      rw [linksOf_hangCategory hmem h.sound.legal.categories_nodup] at hbounded
      rw [← keys_linksOf] at hknown
      have hsaved : moved.IsPlain := by
        rw [hmoved]
        exact ⟨hplain.1.toMicros, hplain.2.toMicros.latest hnow⟩
      have horigin : moved.Origin contents.store none := by
        rw [hmoved]
        exact .stored hanswer rfl rfl rfl
      have hlegal : (contents.putCategory moved).Legal := by
        have hsub : linksOf (contents.categoriesOf stored.organizationId) ⊆
            linksOf contents.categories := List.map_subset _ (List.filter_subset_self _)
        have hown : stored.id ∈ keys (linksOf (contents.categoriesOf stored.organizationId)) :=
          mem_keys_of_mem (mem_linksOf.2 ⟨stored, List.mem_filter.2 ⟨hmem, by simp⟩, rfl, rfl⟩)
        rw [hmoved]
        exact h.sound.legal.putCategory (h.sound.legal.organizationId_of_mem hown)
          ((hbounded.mono (relink_subset hsub _ _)).forest (h.sound.legal.categories _) hknown)
      have hgiven : moved.id ∈ given := by
        rw [hmoved]
        exact h.sound.categories_given stored hmem
      exact ⟨stored, hmem, rfl, hmoved,
        (merge_category_origin horigin (fun _ hnone => nomatch hnone) hsaved).2,
        saveCategory_store hsave, h.sound.putCategory hlegal hsaved hgiven⟩

/-- After a move of an organization its tree is shown where it has been moved to. -/
theorem relocates_organization {moved : Organization}
    (hserve : (Request.moveOrganization stamp id target).serve contents.store =
      (.ok (.organization moved), after)) :
    ∃ found children,
      (Inquiry.organizationTree id).outcome contents.store = .ok (.node found children) ∧
      (Inquiry.organizationTree id).outcome after = .ok (.node moved.toMicros children) ∧
      moved = { found with parentId := target }.touch stamp.now ∧
      Relocated target (.node found children) (.node moved.toMicros children)
        (fun other => (Inquiry.organizationPath other).outcome contents.store)
        (fun other => (Inquiry.organizationPath other).outcome after) := by
  obtain ⟨stored, hmem, rfl, hmoved, hcut, rfl, hsound⟩ := h.moveOrganization_saved hnow hserve
  have hid : moved.id = stored.id := by
    rw [hmoved]
    rfl
  have htarget : Nested.parentId moved.toMicros = target := by
    rw [hmoved]
    rfl
  obtain ⟨hread, hrehung⟩ := h.sound.rehung_organization hmem hid hcut hsound
  obtain ⟨children, htree, htree', hrelocated⟩ := hrehung.relocated (by rw [hmoved]; rfl)
  refine ⟨stored.toMicros, children, ?_, ?_, hmoved, ?_⟩
  · rw [h.sound.organizationTree_outcome]
    exact htree
  · rw [hsound.organizationTree_outcome, hread]
    exact htree'
  · simp only [h.sound.organizationPath_outcome, hsound.organizationPath_outcome, hread]
    exact htarget ▸ hrelocated

/-- After a move of a category its tree is shown where it has been moved to. The paths in other
organizations are read in other lists and stay the same. -/
theorem relocates_category {moved : Category}
    (hserve : (Request.moveCategory stamp id target).serve contents.store =
      (.ok (.category moved), after)) :
    ∃ found children,
      (Inquiry.categoryTree id).outcome contents.store = .ok (.node found children) ∧
      (Inquiry.categoryTree id).outcome after = .ok (.node moved.toMicros children) ∧
      moved = { found with parentId := target }.touch stamp.now ∧
      Relocated target (.node found children) (.node moved.toMicros children)
        (fun other => (Inquiry.categoryPath other).outcome contents.store)
        (fun other => (Inquiry.categoryPath other).outcome after) := by
  obtain ⟨stored, hmem, rfl, hmoved, hcut, rfl, hsound⟩ := h.moveCategory_saved hnow hserve
  have hid : moved.id = stored.id := by
    rw [hmoved]
    rfl
  have htarget : Nested.parentId moved.toMicros = target := by
    rw [hmoved]
    rfl
  have howner : moved.organizationId = stored.organizationId := by
    rw [hmoved]
    rfl
  have hown : stored ∈ contents.categoriesOf moved.organizationId :=
    List.mem_filter.2 ⟨hmem, decide_eq_true howner.symm⟩
  obtain ⟨hread, hrehung⟩ := h.sound.rehung_category hown hid hcut hsound
  obtain ⟨children, htree, htree', hrelocated⟩ := hrehung.relocated (by rw [hmoved]; rfl)
  have hself : stored.id ∈ (contents.readCategories moved.organizationId).map Nested.id :=
    List.mem_map.2 ⟨_, hrehung.stored, rfl⟩
  have hids : ((contents.putCategory moved).readCategories moved.organizationId).map Nested.id =
      (contents.readCategories moved.organizationId).map Nested.id := by
    rw [hread]
    exact map_id_put (List.mem_map.2 ⟨_, hrehung.stored, hid.symm⟩)
  refine ⟨stored.toMicros, children, ?_, ?_, hmoved, ?_⟩
  · rw [h.sound.categoryTree_of_mem hself]
    exact htree
  · rw [hsound.categoryTree_of_mem (hids.symm ▸ hself), hread]
    exact htree'
  · rw [← hread, htarget] at hrelocated
    exact hrelocated.widen ((contents.readCategories moved.organizationId).map Nested.id)
      (fun _ hother => h.sound.categoryPath_of_mem hother)
      (fun _ hother => hsound.categoryPath_of_mem (hids ▸ hother))
      (fun _ hother => pathWithin_of_unknown hother)
      (fun _ hother => pathWithin_of_unknown (hids ▸ hother))
      (fun _ hother => h.sound.categoryPath_elsewhere (hid ▸ hself) hsound hother)

/-- A move of an organization changes no path of a category, and no id. -/
theorem moveOrganization_keeps {moved : Organization}
    (hserve : (Request.moveOrganization stamp id target).serve contents.store =
      (.ok (.organization moved), after)) :
    (∀ other, (Inquiry.categoryPath other).outcome after =
      (Inquiry.categoryPath other).outcome contents.store) ∧ contents.store.SameIds after := by
  obtain ⟨stored, hmem, rfl, hmoved, _, rfl, hsound⟩ := h.moveOrganization_saved hnow hserve
  have hknown : moved.id ∈ contents.organizations.map Nested.id :=
    List.mem_map.2 ⟨stored, hmem, (congrArg Organization.id hmoved).symm⟩
  refine ⟨fun other => ?_, sameIds_putOrganization hknown⟩
  rw [hsound.categoryPath_outcome, h.sound.categoryPath_outcome]
  rfl

/-- A move of a category changes no path of an organization, and no id. -/
theorem moveCategory_keeps {moved : Category}
    (hserve : (Request.moveCategory stamp id target).serve contents.store =
      (.ok (.category moved), after)) :
    (∀ other, (Inquiry.organizationPath other).outcome after =
      (Inquiry.organizationPath other).outcome contents.store) ∧ contents.store.SameIds after := by
  obtain ⟨stored, hmem, rfl, hmoved, _, rfl, hsound⟩ := h.moveCategory_saved hnow hserve
  have hknown : moved.id ∈ contents.categories.map Nested.id :=
    List.mem_map.2 ⟨stored, hmem, (congrArg Category.id hmoved).symm⟩
  refine ⟨fun other => ?_, sameIds_putCategory hknown⟩
  rw [hsound.organizationPath_outcome, h.sound.organizationPath_outcome]
  rfl

end Orderly

end Contents

/-! ### A move that goes through -/

namespace Service

variable {store after : Store} {stamp : Stamp} {id parentId : Uuid}

/-- A move below a parent goes through if each of its parts does. -/
theorem perform_moveOrganization {stored moved : Organization} {all : List Organization}
    (hstored : (store.answer (.getOrganization id)).1 = .ok (some stored))
    (hchange : stored.changeParent (some parentId) stamp.now = .ok moved)
    (hall : (store.answer .allOrganizations).1 = .ok all)
    (hcheck : checkMove (Lineage.ofItems all) id parentId = .ok ())
    (hsave : store.saveOrganization moved = .ok after) :
    (moveOrganization stamp id (some parentId)).perform Store.answer store = (.ok moved, after) := by
  refine (perform_holding _ _).trans ((perform_bind (perform_getOrganization hstored) _).trans ?_)
  refine (perform_bind (perform_judge_ok hchange) _).trans ?_
  refine (perform_bind (perform_ask rfl hall) _).trans ?_
  refine (perform_bind (perform_judge_ok hcheck) _).trans ?_
  exact perform_bind (perform_saveOrganization hsave) _

theorem perform_moveCategory {stored above moved : Category} {all : List Category}
    (hstored : (store.answer (.getCategory id)).1 = .ok (some stored))
    (hchange : stored.changeParent (some parentId) stamp.now = .ok moved)
    (habove : (store.answer (.getCategory parentId)).1 = .ok (some above))
    (htenant : checkTenant moved above = .ok ())
    (hall : (store.answer (.categoriesFor stored.organizationId)).1 = .ok all)
    (hcheck : checkMove (Lineage.ofItems all) id parentId = .ok ())
    (hsave : store.saveCategory moved = .ok after) :
    (moveCategory stamp id (some parentId)).perform Store.answer store = (.ok moved, after) := by
  refine (perform_holding _ _).trans ((perform_bind (perform_getCategory hstored) _).trans ?_)
  refine (perform_bind (perform_judge_ok hchange) _).trans ?_
  refine (perform_bind (perform_getCategory habove) _).trans ?_
  refine (perform_bind (perform_judge_ok htenant) _).trans ?_
  refine (perform_bind (perform_ask rfl hall) _).trans ?_
  refine (perform_bind (perform_judge_ok hcheck) _).trans ?_
  exact perform_bind (perform_saveCategory hsave) _

end Service

/-! ### Reachable stores -/

/-- Whatever requests have been served one after another from the empty store on, with new ids and a
clock within the years 0 to 9999: a move that goes through next takes the tree below its id with it, of
an organization or of a category. The tree is shown with the same nodes in the same places below its
root; the path of each of its nodes is the path of the new parent and the names from the root down to
the node, or these names alone without a parent; every other path is the same, and so are all ids. -/
theorem moves_relocate_subtrees (requests : List Request)
    (hids : (requests.filterMap Request.generated?).Nodup)
    (hclock : ∀ now ∈ requests.filterMap Request.clock?, now.IsPlain)
    (stamp : Stamp) (hnow : stamp.now.IsPlain) (id : Uuid) (target : Option Uuid) :
    let store := serveAll Store.empty requests
    (∀ moved after, (Request.moveOrganization stamp id target).serve store =
        (.ok (.organization moved), after) →
      (∃ found children, (Inquiry.organizationTree id).outcome store = .ok (.node found children) ∧
        (Inquiry.organizationTree id).outcome after = .ok (.node moved.toMicros children) ∧
        moved = { found with parentId := target }.touch stamp.now ∧
        Relocated target (.node found children) (.node moved.toMicros children)
          (fun other => (Inquiry.organizationPath other).outcome store)
          (fun other => (Inquiry.organizationPath other).outcome after)) ∧
      (∀ other, (Inquiry.categoryPath other).outcome after =
        (Inquiry.categoryPath other).outcome store) ∧ store.SameIds after) ∧
    (∀ moved after, (Request.moveCategory stamp id target).serve store =
        (.ok (.category moved), after) →
      (∃ found children, (Inquiry.categoryTree id).outcome store = .ok (.node found children) ∧
        (Inquiry.categoryTree id).outcome after = .ok (.node moved.toMicros children) ∧
        moved = { found with parentId := target }.touch stamp.now ∧
        Relocated target (.node found children) (.node moved.toMicros children)
          (fun other => (Inquiry.categoryPath other).outcome store)
          (fun other => (Inquiry.categoryPath other).outcome after)) ∧
      (∀ other, (Inquiry.organizationPath other).outcome after =
        (Inquiry.organizationPath other).outcome store) ∧ store.SameIds after) := by
  obtain ⟨given, contents, hstore, horderly, _⟩ := serveAll_orderly requests hids hclock
  rw [hstore]
  refine ⟨fun moved after hserve => ⟨?_, ?_⟩, fun moved after hserve => ⟨?_, ?_⟩⟩
  · exact horderly.relocates_organization hnow hserve
  · exact horderly.moveOrganization_keeps hnow hserve
  · exact horderly.relocates_category hnow hserve
  · exact horderly.moveCategory_keeps hnow hserve

def Category.filed (number : Nat) (name : String) (parentId : Option Uuid) : Category :=
  ⟨.small number, .small 3, name, "", parentId, true, .ofSeconds 0, .ofSeconds 0⟩

/-- A branch with a team below it and a desk beside it, and the mail of the desk with spam below it and
letters beside it. -/
def Contents.twoLevels : Contents where
  organizations := [.small 1 "Branch" none, .small 2 "Team" (some (.small 1)), .small 3 "Desk" none]
  categories := [.filed 4 "Mail" none, .filed 5 "Spam" (some (.small 4)), .filed 6 "Letters" none]

def Request.twoLevels : List Request :=
  let stamp (number : Nat) : Stamp := ⟨.ofSeconds 0, .small number⟩
  [.createOrganization (stamp 1) ⟨"Branch", "", none⟩,
    .createOrganization (stamp 2) ⟨"Team", "", some (.small 1)⟩,
    .createOrganization (stamp 3) ⟨"Desk", "", none⟩,
    .createCategory (stamp 4) (.small 3) ⟨"Mail", "", none⟩,
    .createCategory (stamp 5) (.small 3) ⟨"Spam", "", some (.small 4)⟩,
    .createCategory (stamp 6) (.small 3) ⟨"Letters", "", none⟩]

theorem serveAll_twoLevels :
    serveAll Store.empty Request.twoLevels = Contents.twoLevels.store := by decide +kernel

theorem allOrganizations_twoLevels : (Contents.twoLevels.store.answer .allOrganizations).1 =
    .ok Contents.twoLevels.organizations := by
  have hsorted : Contents.twoLevels.store.organizations.mergeSort
      (fun a b => decide (a.createdAt ≤ b.createdAt)) = Contents.twoLevels.store.organizations :=
    List.mergeSort_of_pairwise (by decide +kernel)
  change (OrganizationRow.decodeAll
    (Contents.twoLevels.store.organizations.mergeSort _)).mapError _ = _
  rw [hsorted]
  decide +kernel

theorem categoriesFor_twoLevels : (Contents.twoLevels.store.answer (.categoriesFor (.small 3))).1 =
    .ok Contents.twoLevels.categories := by
  let owned := Contents.twoLevels.store.categories.filter (·.organizationId == (Uuid.small 3).text)
  have hsorted : owned.mergeSort (fun a b => decide (a.createdAt ≤ b.createdAt)) = owned :=
    List.mergeSort_of_pairwise (by decide +kernel)
  change (CategoryRow.decodeAll (owned.mergeSort _)).mapError _ = _
  rw [hsorted]
  decide +kernel

/-- The branch is moved below the desk and the mail below the letters. The paths of what is below them
lead there. -/
theorem moves_relocate_subtrees_twoLevels :
    let store := serveAll Store.empty Request.twoLevels
    let stamp : Stamp := ⟨.ofSeconds 60, .small 7⟩
    (∃ moved after, (Request.moveOrganization stamp (.small 1) (some (.small 3))).serve store =
        (.ok (.organization moved), after) ∧
      (Inquiry.organizationPath (.small 2)).outcome after = .ok "Desk / Branch / Team") ∧
    ∃ moved after, (Request.moveCategory stamp (.small 4) (some (.small 6))).serve store =
        (.ok (.category moved), after) ∧
      (Inquiry.categoryPath (.small 5)).outcome after = .ok "Letters / Mail / Spam" := by
  intro store stamp
  have hmoves := moves_relocate_subtrees Request.twoLevels (by decide) (by decide) stamp (by decide)
  simp only [store, serveAll_twoLevels] at hmoves ⊢
  constructor
  · have hall := allOrganizations_twoLevels
    have hstored : (Contents.twoLevels.store.answer (.getOrganization (.small 1))).1 =
        .ok (some (.small 1 "Branch" none)) := by decide +kernel
    have hcheck : checkMove (Lineage.ofItems Contents.twoLevels.organizations) (.small 1) (.small 3) =
        .ok () := by decide +kernel
    obtain ⟨after, hsave⟩ := exists_of_isOk (show (Contents.twoLevels.store.saveOrganization
      { Organization.small 1 "Branch" (some (.small 3)) with updatedAt := .ofSeconds 60 }).isOk = true
        by decide +kernel)
    have hserve : (Request.moveOrganization stamp (.small 1) (some (.small 3))).serve
        Contents.twoLevels.store = (.ok (.organization _), after) :=
      perform_bind (perform_moveOrganization hstored rfl hall hcheck hsave) _
    have hpath : pathWithin Contents.twoLevels.organizations (.small 3) = .ok "Desk" := by
      decide +kernel
    obtain ⟨⟨_, _, hfound, _, _, hrelocated⟩, _⟩ :=
      (hmoves (.small 1) (some (.small 3))).1 _ _ hserve
    cases hfound.symm.trans (congrArg Prod.fst (perform_organizationTree hall (.small 1)))
    obtain ⟨_, hlead, hinside⟩ := hrelocated.inside
    rw [leadTo, Inquiry.outcome, Inquiry.operation, perform_organizationPath hall, hpath] at hlead
    cases hlead
    have hteam := hinside _ _ (.child (.root List.mem_cons_self) List.mem_cons_self)
    refine ⟨_, _, hserve, hteam.trans ?_⟩
    decide +kernel
  · have hall := categoriesFor_twoLevels
    have hstored : (Contents.twoLevels.store.answer (.getCategory (.small 4))).1 =
        .ok (some (.filed 4 "Mail" none)) := by decide +kernel
    have habove : (Contents.twoLevels.store.answer (.getCategory (.small 6))).1 =
        .ok (some (.filed 6 "Letters" none)) := by decide +kernel
    have hcheck : checkMove (Lineage.ofItems Contents.twoLevels.categories) (.small 4) (.small 6) =
        .ok () := by decide +kernel
    obtain ⟨after, hsave⟩ := exists_of_isOk (show (Contents.twoLevels.store.saveCategory
      { Category.filed 4 "Mail" (some (.small 6)) with updatedAt := .ofSeconds 60 }).isOk = true
        by decide +kernel)
    have hserve : (Request.moveCategory stamp (.small 4) (some (.small 6))).serve
        Contents.twoLevels.store = (.ok (.category _), after) :=
      perform_bind (perform_moveCategory hstored rfl habove rfl hall hcheck hsave) _
    have hpath : pathWithin Contents.twoLevels.categories (.small 6) = .ok "Letters" := by
      decide +kernel
    obtain ⟨⟨_, _, hfound, _, _, hrelocated⟩, _⟩ :=
      (hmoves (.small 4) (some (.small 6))).2 _ _ hserve
    cases hfound.symm.trans (congrArg Prod.fst (perform_categoryTree hstored hall))
    obtain ⟨_, hlead, hinside⟩ := hrelocated.inside
    rw [leadTo, Inquiry.outcome, Inquiry.operation, perform_categoryPath habove hall, hpath] at hlead
    cases hlead
    have hspam := hinside _ _ (.child (.root List.mem_cons_self) List.mem_cons_self)
    refine ⟨_, _, hserve, hspam.trans ?_⟩
    decide +kernel

end ServiceDesk
