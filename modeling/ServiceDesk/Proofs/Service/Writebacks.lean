import ServiceDesk.Proofs.Service.Admission
import ServiceDesk.Proofs.Service.Validity

/-!
Changes that write back what was read. Every stored field is in its normal form, which its rule
leaves as it is, and a row does not stand in its own way when it is put in its place again. So such a
change is never refused, and no more than the time of change is another one afterwards.
-/

namespace ServiceDesk

open Hierarchy Service Time

/-! ### What a change makes of an entity -/

theorem Time.Instant.latest_latest (a b : Instant) : (a.latest b).latest b = a.latest b := by
  simp only [Instant.latest]
  split
  · exact ite_self b
  · rfl

namespace Service

/-- The changes that give every field of an organization the value that it has. -/
def OrganizationChanges.of (organization : Organization) : OrganizationChanges :=
  ⟨some organization.name, some (organization.domain.getD ""), some organization.isActive⟩

def CategoryChanges.of (category : Category) : CategoryChanges :=
  ⟨some category.name, some category.description, some category.isActive⟩

theorem changeOrganization_of {organization : Organization} (h : organization.Normal)
    (now : Instant) :
    changeOrganization (.of organization) now organization = .ok (organization.touch now) := by
  have hname := h.name.name_eq
  have hdomain := Rules.domain_getD h.domain
  simp only [changeOrganization, OrganizationChanges.of, applying, Organization.rename,
    Organization.changeDomain, Organization.setActive, Organization.touch, hname, hdomain, bind,
    Except.bind, Instant.latest_latest]

theorem changeCategory_of {category : Category} (h : category.Normal) (now : Instant) :
    changeCategory (.of category) now category = .ok (category.touch now) := by
  have hname := h.name.name_eq
  have hdescription := h.description.description_eq
  simp only [changeCategory, CategoryChanges.of, applying, Category.rename, Category.describe,
    Category.setActive, Category.touch, hname, hdescription, bind, Except.bind,
    Instant.latest_latest]

end Service

/-! ### Rows with another time of change -/

namespace Store

/-- The store with another time of change in the row of one organization. -/
def dateOrganization (store : Store) (id : Uuid) (updatedAt : String) : Store :=
  { store with
    organizations := store.organizations.map fun row =>
      if row.id = some id.text then { row with updatedAt } else row }

def dateCategory (store : Store) (id : Uuid) (updatedAt : String) : Store :=
  { store with
    categories := store.categories.map fun row =>
      if row.id = some id.text then { row with updatedAt } else row }

end Store

namespace Contents

/-- The contents with another time of change of one organization. -/
def dateOrganization (contents : Contents) (id : Uuid) (updatedAt : Instant) : Contents :=
  { contents with
    organizations := contents.organizations.map fun organization =>
      if organization.id = id then { organization with updatedAt } else organization }

def dateCategory (contents : Contents) (id : Uuid) (updatedAt : Instant) : Contents :=
  { contents with
    categories := contents.categories.map fun category =>
      if category.id = id then { category with updatedAt } else category }

theorem store_dateOrganization (contents : Contents) (id : Uuid) (updatedAt : Instant) :
    (contents.dateOrganization id updatedAt).store =
      contents.store.dateOrganization id (encodeInstant updatedAt) := by
  have hrow (organization : Organization) :
      OrganizationRow.ofOrganization
          (if organization.id = id then { organization with updatedAt } else organization) =
        if (OrganizationRow.ofOrganization organization).id = some id.text then
          { OrganizationRow.ofOrganization organization with updatedAt := encodeInstant updatedAt }
        else .ofOrganization organization := by
    have hid : (OrganizationRow.ofOrganization organization).id = some id.text ↔
        organization.id = id := Option.some_inj.trans Uuid.text_inj
    simp only [hid, apply_ite OrganizationRow.ofOrganization]
    rfl
  simp only [store, dateOrganization, Store.dateOrganization, List.map_map, Function.comp_def, hrow]

theorem store_dateCategory (contents : Contents) (id : Uuid) (updatedAt : Instant) :
    (contents.dateCategory id updatedAt).store =
      contents.store.dateCategory id (encodeInstant updatedAt) := by
  have hrow (category : Category) :
      CategoryRow.ofCategory
          (if category.id = id then { category with updatedAt } else category) =
        if (CategoryRow.ofCategory category).id = some id.text then
          { CategoryRow.ofCategory category with updatedAt := encodeInstant updatedAt }
        else .ofCategory category := by
    have hid : (CategoryRow.ofCategory category).id = some id.text ↔ category.id = id :=
      Option.some_inj.trans Uuid.text_inj
    simp only [hid, apply_ite CategoryRow.ofCategory]
    rfl
  simp only [store, dateCategory, Store.dateCategory, List.map_map, Function.comp_def, hrow]

end Contents

/-! ### Saving an entity again -/

theorem Hierarchy.Forest.parent_ne {α : Type} [Nested α] {items : List α}
    (h : Forest (linksOf items)) {item : α} (hmem : item ∈ items) {parent : Uuid}
    (hparent : Nested.parentId item = some parent) : parent ≠ Nested.id item := by
  rintro rfl
  exact h.not_under_child (mem_linksOf.2 ⟨item, hmem, rfl, hparent⟩) (Under.refl _ _)

namespace Contents.Orderly

variable {given : List Uuid} {contents : Contents}

/-- What is stored is admitted again with another time of change. -/
theorem saveOrganization_dated (h : Orderly given contents) {stored : Organization}
    (hmem : stored ∈ contents.organizations) (updatedAt : Instant) :
    contents.store.saveOrganization { stored.toMicros with updatedAt } =
      .ok (contents.store.dateOrganization stored.id (encodeInstant updatedAt)) := by
  have hadmits : contents.AdmitsOrganization { stored.toMicros with updatedAt } :=
    (h.admits_moved_organization hmem { stored.toMicros with updatedAt } rfl rfl rfl).2
      fun parent hparent => ⟨h.sound.legal.organizations.parent_ne hmem hparent,
        h.closed.organization_parents stored hmem parent hparent⟩
  have hstored : contents.organization? stored.id = some stored :=
    (organization?_eq_some h.closed.organizations_nodup).2 ⟨hmem, rfl⟩
  have hmerged : contents.mergeOrganization { stored.toMicros with updatedAt } =
      { stored with updatedAt } := mergeOrganization_stored hstored
  have hput : contents.putOrganization { stored.toMicros with updatedAt } =
      contents.dateOrganization stored.id updatedAt := by
    rw [putOrganization, hmerged, dateOrganization]
    exact congrArg (fun rows => (⟨rows, contents.categories⟩ : Contents))
      (map_eq_put h.closed.organizations_nodup hmem
        (fun organization => { organization with updatedAt }) rfl).symm
  rw [← store_dateOrganization, ← hput]
  exact (h.closed.saveOrganization_eq_ok id).2 ⟨hadmits, rfl⟩

theorem saveCategory_dated (h : Orderly given contents) {stored : Category}
    (hmem : stored ∈ contents.categories) (updatedAt : Instant) :
    contents.store.saveCategory { stored.toMicros with updatedAt } =
      .ok (contents.store.dateCategory stored.id (encodeInstant updatedAt)) := by
  have hstored : contents.category? stored.id = some stored :=
    (category?_eq_some h.closed.categories_nodup).2 ⟨hmem, rfl⟩
  have hmerged : contents.mergeCategory { stored.toMicros with updatedAt } =
      { stored with updatedAt } := mergeCategory_stored hstored
  have hadmits : contents.AdmitsCategory { stored.toMicros with updatedAt } := by
    rw [admitsCategory_iff, hmerged]
    refine ⟨fun parent hparent => ⟨h.sound.legal.forest_categories.parent_ne hmem hparent,
      h.closed.category_parents stored hmem parent hparent⟩, fun hnew => ?_, fun other hother hne => ?_⟩
    · exact absurd (List.mem_map_of_mem hmem) hnew
    · exact h.distinct.categories other hother stored hmem hne
  have hput : contents.putCategory { stored.toMicros with updatedAt } =
      contents.dateCategory stored.id updatedAt := by
    rw [putCategory, hmerged, dateCategory]
    exact congrArg (fun rows => (⟨contents.organizations, rows⟩ : Contents))
      (map_eq_put h.closed.categories_nodup hmem
        (fun category => { category with updatedAt }) rfl).symm
  rw [← store_dateCategory, ← hput]
  exact h.closed.saveCategory_eq_ok.2 ⟨hadmits, rfl⟩

end Contents.Orderly

namespace Contents

variable {contents : Contents}

/-- The time of change that is stored is as exact as a row can tell. -/
theorem dateOrganization_stored (hnodup : (contents.organizations.map Nested.id).Nodup)
    {stored : Organization} (hmem : stored ∈ contents.organizations) :
    contents.store.dateOrganization stored.id (encodeInstant stored.updatedAt.toMicros) =
      contents.store := by
  have hsame : contents.dateOrganization stored.id stored.updatedAt = contents := by
    refine congrArg (fun rows => (⟨rows, contents.categories⟩ : Contents)) ?_
    refine (List.map_congr_left fun organization hother => ?_).trans (List.map_id _)
    split
    · rename_i hid
      rw [List.inj_on_of_nodup_map hnodup hother hmem hid]
      rfl
    · rfl
  rw [encodeInstant_toMicros, ← store_dateOrganization, hsame]

theorem dateCategory_stored (hnodup : (contents.categories.map Nested.id).Nodup)
    {stored : Category} (hmem : stored ∈ contents.categories) :
    contents.store.dateCategory stored.id (encodeInstant stored.updatedAt.toMicros) =
      contents.store := by
  have hsame : contents.dateCategory stored.id stored.updatedAt = contents := by
    refine congrArg (fun rows => (⟨contents.organizations, rows⟩ : Contents)) ?_
    refine (List.map_congr_left fun category hother => ?_).trans (List.map_id _)
    split
    · rename_i hid
      rw [List.inj_on_of_nodup_map hnodup hother hmem hid]
      rfl
    · rfl
  rw [encodeInstant_toMicros, ← store_dateCategory, hsame]

end Contents

/-! ### Changes on a store -/

namespace Service

open Operation

variable {store after : Store} {stamp : Stamp} {id : Uuid}

theorem perform_updateOrganization {changes : OrganizationChanges}
    {stored organization : Organization}
    (hstored : (store.answer (.getOrganization id)).1 = .ok (some stored))
    (hchange : changeOrganization changes stamp.now stored = .ok organization)
    (hsave : store.saveOrganization organization = .ok after) :
    (updateOrganization stamp id changes).perform Store.answer store = (.ok organization, after) := by
  calc (updateOrganization stamp id changes).perform Store.answer store
      = (judge (changeOrganization changes stamp.now stored) >>= fun changed =>
          ask (.saveOrganization changed) >>= fun _ => pure changed).perform Store.answer store :=
        perform_bind (perform_getOrganization hstored) _
    _ = (ask (.saveOrganization organization) >>= fun _ => pure organization).perform
          Store.answer store := perform_bind (perform_judge_ok hchange) _
    _ = (.ok organization, after) := perform_bind (perform_saveOrganization hsave) _

theorem perform_updateCategory {changes : CategoryChanges} {stored category : Category}
    (hstored : (store.answer (.getCategory id)).1 = .ok (some stored))
    (hchange : changeCategory changes stamp.now stored = .ok category)
    (hsave : store.saveCategory category = .ok after) :
    (updateCategory stamp id changes).perform Store.answer store = (.ok category, after) := by
  calc (updateCategory stamp id changes).perform Store.answer store
      = (judge (changeCategory changes stamp.now stored) >>= fun changed =>
          ask (.saveCategory changed) >>= fun _ => pure changed).perform Store.answer store :=
        perform_bind (perform_getCategory hstored) _
    _ = (ask (.saveCategory category) >>= fun _ => pure category).perform Store.answer store :=
        perform_bind (perform_judge_ok hchange) _
    _ = (.ok category, after) := perform_bind (perform_saveCategory hsave) _

end Service

namespace Contents.Orderly

variable {given : List Uuid} {contents : Contents} {id : Uuid}

/-- What a look-up returns is stored, cut to microseconds. -/
theorem answer_of_getOrganization (h : Orderly given contents) {organization : Organization}
    (hget : ((getOrganization id).perform Store.answer contents.store).1 = .ok organization) :
    ∃ stored ∈ contents.organizations, stored.id = id ∧ organization = stored.toMicros ∧
      (contents.store.answer (.getOrganization id)).1 = .ok (some organization) := by
  have hanswer := ((delivers_getOrganization contents.store id).done organization _
    (Prod.ext hget rfl)).2
  obtain ⟨stored, hstored, hid, _, hread⟩ := organization?_of_answer hanswer
  have hmem := ((organization?_eq_some h.closed.organizations_nodup).1 hstored).1
  exact ⟨stored, hmem, hid, hread, hanswer⟩

theorem answer_of_getCategory (h : Orderly given contents) {category : Category}
    (hget : ((getCategory id).perform Store.answer contents.store).1 = .ok category) :
    ∃ stored ∈ contents.categories, stored.id = id ∧ category = stored.toMicros ∧
      (contents.store.answer (.getCategory id)).1 = .ok (some category) := by
  have hanswer := ((delivers_getCategory contents.store id).done category _ (Prod.ext hget rfl)).2
  obtain ⟨stored, hstored, hid, _, hread⟩ := category?_of_answer hanswer
  have hmem := ((category?_eq_some h.closed.categories_nodup).1 hstored).1
  exact ⟨stored, hmem, hid, hread, hanswer⟩

theorem updateOrganization_idle (h : Orderly given contents) (hnormal : contents.Normal)
    (stamp : Stamp) {organization : Organization}
    (hget : ((getOrganization id).perform Store.answer contents.store).1 = .ok organization) :
    (updateOrganization stamp id (.of organization)).perform Store.answer contents.store =
      (.ok (organization.touch stamp.now), contents.store.dateOrganization id
        (encodeInstant (organization.updatedAt.latest stamp.now))) ∧
    (updateOrganization stamp id ⟨none, none, none⟩).perform Store.answer contents.store =
      (.ok organization, contents.store) := by
  obtain ⟨stored, hmem, rfl, rfl, hanswer⟩ := h.answer_of_getOrganization hget
  obtain ⟨hname, hdomain⟩ := hnormal.organizations stored hmem
  have hread : stored.toMicros.Normal := ⟨hname, hdomain⟩
  refine ⟨perform_updateOrganization hanswer (changeOrganization_of hread stamp.now)
    (h.saveOrganization_dated hmem _), perform_updateOrganization hanswer rfl ?_⟩
  have hsave := h.saveOrganization_dated hmem stored.updatedAt.toMicros
  rwa [dateOrganization_stored h.closed.organizations_nodup hmem] at hsave

theorem updateCategory_idle (h : Orderly given contents) (hnormal : contents.Normal)
    (stamp : Stamp) {category : Category}
    (hget : ((getCategory id).perform Store.answer contents.store).1 = .ok category) :
    (updateCategory stamp id (.of category)).perform Store.answer contents.store =
      (.ok (category.touch stamp.now), contents.store.dateCategory id
        (encodeInstant (category.updatedAt.latest stamp.now))) ∧
    (updateCategory stamp id ⟨none, none, none⟩).perform Store.answer contents.store =
      (.ok category, contents.store) := by
  obtain ⟨stored, hmem, rfl, rfl, hanswer⟩ := h.answer_of_getCategory hget
  obtain ⟨hname, hdescription, howner⟩ := hnormal.categories stored hmem
  have hread : stored.toMicros.Normal := ⟨hname, hdescription, howner⟩
  refine ⟨perform_updateCategory hanswer (changeCategory_of hread stamp.now)
    (h.saveCategory_dated hmem _), perform_updateCategory hanswer rfl ?_⟩
  have hsave := h.saveCategory_dated hmem stored.updatedAt.toMicros
  rwa [dateCategory_stored h.closed.categories_nodup hmem] at hsave

end Contents.Orderly

/-! ### Reachable stores -/

/-- Serving one request with a new id keeps the contents orderly and all fields in normal form. -/
theorem Request.serve_orderly_normal {request : Request} {given : List Uuid} {contents : Contents}
    (hclock : request.IsPlain) (hnew : ∀ id, request.generated? = some id → id ∉ given)
    (h : contents.Orderly given ∧ contents.Normal) : ∃ after : Contents,
      (request.serve contents.store).2 = after.store ∧
        after.Orderly (request.generated?.toList ++ given) ∧ after.Normal := by
  obtain ⟨horderly, hnormal⟩ := h
  obtain ⟨after, hafter, rfl | ⟨past, call, hallows, hcurrent, hcall⟩⟩ :=
    request.serve_current contents
  · exact ⟨after, hafter, ⟨horderly.sound.mono (List.subset_append_right _ _), horderly.closed,
      horderly.distinct⟩, hnormal⟩
  · have hsound := hallows.sound hclock hnew horderly.sound
      (fun event hmem => (hcurrent event hmem).fits) hcall
    have hclosed := hcall.closed horderly.closed fun _ _ hlost => hlost
    have hdistinct := hcall.distinct horderly.closed (fun _ _ hlost => hlost) horderly.distinct
    exact ⟨after, hafter, ⟨hsound, hclosed, hdistinct⟩, request.keeps_normal hallows
      (fun event hmem => (hcurrent event hmem).readFrom hnormal) hnormal hcall⟩

/-- Whatever requests have been served one after another from the empty store on, with new ids and a
clock within the years 0 to 9999: a change that gives every field of a stored organization or category
the value that was read goes through at any time, and of the whole store it changes no more than the
time of change in the one row. A change of no field returns what was read and changes nothing. -/
theorem writing_back_is_idle (requests : List Request)
    (hids : (requests.filterMap Request.generated?).Nodup)
    (hclock : ∀ now ∈ requests.filterMap Request.clock?, now.IsPlain) (stamp : Stamp) (id : Uuid) :
    let store := serveAll Store.empty requests
    (∀ organization, ((getOrganization id).perform Store.answer store).1 = .ok organization →
      (updateOrganization stamp id ⟨some organization.name, some (organization.domain.getD ""),
          some organization.isActive⟩).perform Store.answer store =
        (.ok (organization.touch stamp.now), store.dateOrganization id
          (encodeInstant (organization.updatedAt.latest stamp.now))) ∧
      (updateOrganization stamp id ⟨none, none, none⟩).perform Store.answer store =
        (.ok organization, store)) ∧
    (∀ category, ((getCategory id).perform Store.answer store).1 = .ok category →
      (updateCategory stamp id ⟨some category.name, some category.description,
          some category.isActive⟩).perform Store.answer store =
        (.ok (category.touch stamp.now), store.dateCategory id
          (encodeInstant (category.updatedAt.latest stamp.now))) ∧
      (updateCategory stamp id ⟨none, none, none⟩).perform Store.answer store =
        (.ok category, store)) := by
  obtain ⟨given, contents, hstore, ⟨horderly, hnormal⟩, _⟩ := serveAll_empty_induction
    (motive := fun given contents => contents.Orderly given ∧ contents.Normal) requests hids hclock
    ⟨.empty, .empty⟩ fun _ _ _ hplain hnew h => Request.serve_orderly_normal hplain hnew h
  simp only [hstore]
  exact ⟨fun _ => horderly.updateOrganization_idle hnormal stamp,
    fun _ => horderly.updateCategory_idle hnormal stamp⟩

/-- A desk with a domain and a category is written back a minute later. -/
theorem writing_back_is_idle_desk :
    let stamp (number : Nat) : Stamp := ⟨.ofSeconds number, .small number⟩
    let requests : List Request :=
      [.createOrganization (stamp 1) ⟨" Desk ", "Desk.Org", none⟩,
        .createCategory (stamp 2) (.small 1) ⟨"Mail", " By mail ", none⟩]
    let store := serveAll Store.empty requests
    let desk : Organization :=
      ⟨.small 1, "Desk", some "desk.org", none, true, .ofSeconds 1, .ofSeconds 1⟩
    let mail : Category :=
      ⟨.small 2, .small 1, "Mail", "By mail", none, true, .ofSeconds 2, .ofSeconds 2⟩
    (((getOrganization (.small 1)).perform Store.answer store).1 = .ok desk ∧
      (updateOrganization (stamp 60) (.small 1) ⟨some "Desk", some "desk.org", some true⟩).perform
          Store.answer store =
        (.ok (desk.touch (.ofSeconds 60)),
          store.dateOrganization (.small 1) "1970-01-01T00:01:00.000000Z") ∧
      (updateOrganization (stamp 60) (.small 1) ⟨none, none, none⟩).perform Store.answer store =
        (.ok desk, store)) ∧
    (((getCategory (.small 2)).perform Store.answer store).1 = .ok mail ∧
      (updateCategory (stamp 60) (.small 2) ⟨some "Mail", some "By mail", some true⟩).perform
          Store.answer store =
        (.ok (mail.touch (.ofSeconds 60)),
          store.dateCategory (.small 2) "1970-01-01T00:01:00.000000Z")) := by
  intro stamp requests store desk mail
  have hdesk : ((getOrganization (.small 1)).perform Store.answer store).1 = .ok desk := by
    decide +kernel
  have hmail : ((getCategory (.small 2)).perform Store.answer store).1 = .ok mail := by
    decide +kernel
  have hminute : encodeInstant (.ofSeconds 60) = "1970-01-01T00:01:00.000000Z" := by
    decide +kernel
  have horganization := (writing_back_is_idle requests (by decide) (by decide) (stamp 60)
    (.small 1)).1 desk hdesk
  have hcategory := (writing_back_is_idle requests (by decide) (by decide) (stamp 60)
    (.small 2)).2 mail hmail
  rw [← hminute]
  exact ⟨⟨hdesk, horganization⟩, hmail, hcategory.1⟩

end ServiceDesk
