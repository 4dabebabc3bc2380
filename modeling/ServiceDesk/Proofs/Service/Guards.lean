import ServiceDesk.Proofs.Service.Footprints
import ServiceDesk.Proofs.Service.Joining
import ServiceDesk.Proofs.Store.Ledger

/-!
The guards of the two deletions. Before a row is deleted the rows that refer to it are counted, and
a count that is not zero ends the request. The counts are taken from other queries than the store's
own test for references; they come to the same number as long as no row is its own parent, which no
write ever leaves. So the guards stop every deletion that the store would refuse and no other one.
-/

namespace ServiceDesk

open Hierarchy Service Operation

/-! ### Stores that can be read back -/

/-- The stores that calls and requests lead to from the empty one, if all times that they bring along
can be read back. -/
inductive Store.Dated : Store → Prop
  | empty : Dated Store.empty
  | answer {store} (h : Dated store) (call : Store.Call) (hplain : call.IsPlain) :
      Dated (store.answer call).2
  | serve {store} (h : Dated store) (request : Request) (hplain : request.IsPlain) :
      Dated (request.serve store).2

/-- Contents that can be read back, in which no reference dangles and nothing is its own parent. -/
structure Contents.Readable (contents : Contents) : Prop where
  closed : contents.Closed fun _ => False
  organizations_plain : ∀ organization ∈ contents.organizations, organization.IsPlain
  categories_plain : ∀ category ∈ contents.categories, category.IsPlain
  organizations_apart : ∀ organization ∈ contents.organizations,
    organization.parentId ≠ some organization.id
  categories_apart : ∀ category ∈ contents.categories, category.parentId ≠ some category.id

namespace Contents

variable {contents after : Contents} {call : Store.Call}

theorem Readable.empty : Contents.empty.Readable where
  closed := .empty
  organizations_plain := fun _ hmem => nomatch hmem
  categories_plain := fun _ hmem => nomatch hmem
  organizations_apart := fun _ hmem => nomatch hmem
  categories_apart := fun _ hmem => nomatch hmem

theorem Becomes.organizations_apart (hcall : contents.Becomes call after)
    (hclosed : contents.Closed fun _ => False)
    (h : ∀ organization ∈ contents.organizations, organization.parentId ≠ some organization.id) :
    ∀ organization ∈ after.organizations, organization.parentId ≠ some organization.id := by
  cases hcall with
  | same => exact h
  | @saveOrganization organization hsave =>
      have hadmits := ((hclosed.saveOrganization_eq_ok fun hlost => hlost).1 hsave).1
      intro other hmem
      rcases mem_put.1 hmem with rfl | ⟨hold, _⟩
      · rintro hown
        have hid : (contents.mergeOrganization organization).id = organization.id :=
          mergeOrganization_id contents organization
        have hparentId : (contents.mergeOrganization organization).parentId = organization.parentId :=
          mergeOrganization_parentId contents organization
        exact (hadmits.parent organization.id (by rw [← hparentId, hown, hid])).1 rfl
      · exact h other hold
  | saveCategory _ => exact h
  | deleteOrganization _ _ => exact fun other hmem => h other (List.mem_of_mem_filter hmem)
  | deleteCategory _ => exact h

theorem Becomes.categories_apart (hcall : contents.Becomes call after)
    (hclosed : contents.Closed fun _ => False)
    (h : ∀ category ∈ contents.categories, category.parentId ≠ some category.id) :
    ∀ category ∈ after.categories, category.parentId ≠ some category.id := by
  cases hcall with
  | same => exact h
  | saveOrganization _ => exact h
  | @saveCategory category hsave =>
      have hadmits := (hclosed.saveCategory_eq_ok.1 hsave).1
      intro other hmem
      rcases mem_put.1 hmem with rfl | ⟨hold, _⟩
      · rintro hown
        have hid : (contents.mergeCategory category).id = category.id :=
          mergeCategory_id contents category
        have hparentId : (contents.mergeCategory category).parentId = category.parentId :=
          mergeCategory_parentId contents category
        exact (hadmits.parent category.id (by rw [← hparentId, hown, hid])).1 rfl
      · exact h other hold
  | deleteOrganization _ _ => exact h
  | deleteCategory _ => exact fun other hmem => h other (List.mem_of_mem_filter hmem)

/-- Contents stay readable by a call, if what it saves can be read back. -/
theorem Readable.becomes (h : contents.Readable) (hcall : contents.Becomes call after)
    (horganization : ∀ organization, call = .saveOrganization organization → organization.IsPlain)
    (hcategory : ∀ category, call = .saveCategory category → category.IsPlain) :
    after.Readable where
  closed := hcall.closed h.closed fun _ _ hlost => hlost
  organizations_plain := hcall.organizations_plain h.organizations_plain horganization
  categories_plain := hcall.categories_plain h.categories_plain hcategory
  organizations_apart := hcall.organizations_apart h.closed h.organizations_apart
  categories_apart := hcall.categories_apart h.closed h.categories_apart

end Contents

theorem Request.Allows.plain_category {request : Request} {past : List Event} {category : Category}
    {good : Contents → Prop} (h : request.Allows past (.saveCategory category))
    (hclock : request.IsPlain) (hreads : ∀ event ∈ past, event.ReadFrom good) :
    category.IsPlain := by
  rcases h.origin_category with ⟨_, _, hplain⟩ | ⟨id, stored, hread, _, _, hplain⟩
  · exact hplain hclock
  · obtain ⟨old, _, hanswer⟩ := hreads _ hread
    exact hplain hclock (Contents.getCategory_answer hanswer).2.2

/-- A request with a plain time keeps contents readable. -/
theorem Request.keeps_readable {request : Request} (hclock : request.IsPlain) :
    request.Keeps Contents.Readable := by
  intro past call contents after hallows hreads h hcall
  refine h.becomes hcall ?_ ?_
  · rintro organization rfl
    exact hallows.plain_organization hclock hreads
  · rintro category rfl
    exact hallows.plain_category hclock hreads

theorem Store.Dated.contents {store : Store} (h : store.Dated) :
    ∃ contents : Contents, store = contents.store ∧ contents.Readable := by
  induction h with
  | empty => exact ⟨.empty, rfl, .empty⟩
  | answer _ call hplain ih =>
      obtain ⟨contents, rfl, hreadable⟩ := ih
      obtain ⟨after, hafter, hcall⟩ := contents.answer_becomes call
      refine ⟨after, hafter, hreadable.becomes hcall ?_ ?_⟩
      · rintro organization rfl
        exact hplain
      · rintro category rfl
        exact hplain
  | serve _ request hplain ih =>
      obtain ⟨contents, rfl, hreadable⟩ := ih
      exact Request.Keeps.serve (Request.keeps_readable hplain) hreadable

/-! ### The counts -/

namespace Contents

variable {contents : Contents} (h : contents.Readable) (id : Uuid)

include h

/-- The two counts come to the number of the rows that refer to an organization. -/
theorem Readable.count_organization : contents.store.countChildOrganizations id +
    contents.store.countOrganizationCategories id = contents.store.organizationReferences id := by
  have hchildren : contents.store.countChildOrganizations id = contents.store.organizations.countP
      (fun row => row.id != some id.text && row.parentId == some id.text) := by
    refine List.countP_congr fun row hmem => ?_
    obtain ⟨organization, horganization, rfl⟩ := List.mem_map.1 hmem
    have hapart := h.organizations_apart organization horganization
    simp only [OrganizationRow.ofOrganization, Bool.and_eq_true, bne_iff_ne, beq_iff_eq, ne_eq,
      Option.some.injEq, Uuid.text_inj]
    refine (and_iff_right_of_imp fun hparent hself => hapart ?_).symm
    obtain ⟨parent, hsome, htext⟩ := Option.map_eq_some_iff.1 hparent
    rw [hsome, hself, Uuid.text_injective htext]
  rw [hchildren, Store.countOrganizationCategories, Store.organizationReferences]

theorem Readable.count_category :
    contents.store.countChildCategories id = contents.store.categoryReferences id := by
  refine List.countP_congr fun row hmem => ?_
  obtain ⟨category, hcategory, rfl⟩ := List.mem_map.1 hmem
  have hapart := h.categories_apart category hcategory
  simp only [CategoryRow.ofCategory, Bool.and_eq_true, bne_iff_ne, beq_iff_eq, ne_eq,
    Option.some.injEq, Uuid.text_inj]
  refine (and_iff_right_of_imp fun hparent hself => hapart ?_).symm
  obtain ⟨parent, hsome, htext⟩ := Option.map_eq_some_iff.1 hparent
  rw [hsome, hself, Uuid.text_injective htext]

end Contents

/-! ### What a deletion should answer -/

/-- A deletion by request answers what the store's own deletion of an id comes to, and never lets the
store refuse it: a conflict is found by a guard before the store is asked. -/
structure Request.Mirrors (request : Request) (id : Uuid) (store : Store)
    (own : Except Violation (Bool × Store)) : Prop where
  deleted : ∀ after, request.serve store = (.ok .deleted, after) ↔ own = .ok (true, after)
  missing : (request.serve store).1 = .error (.notFound id) ↔ own = .ok (false, store)
  conflict : (∃ cause, (request.serve store).1 = .error (.conflict cause)) ↔
    ∃ violation, own = .error violation
  guarded : ∀ violation, (request.serve store).1 ≠ .error (.conflict (.violated violation))

/-- It is enough to look at each of the three things that the store's own deletion may come to. -/
theorem Request.Mirrors.of_cases {request : Request} {id : Uuid} {store : Store}
    {own : Except Violation (Bool × Store)} (cause : Conflict)
    (hcause : ∀ violation, cause ≠ .violated violation)
    (hmissing : ∀ same, own = .ok (false, same) →
      same = store ∧ request.serve store = (.error (.notFound id), store))
    (hrefused : ∀ violation, own = .error violation →
      request.serve store = (.error (.conflict cause), store))
    (hdeleted : ∀ after, own = .ok (true, after) → request.serve store = (.ok .deleted, after)) :
    request.Mirrors id store own := by
  rcases own with violation | ⟨_ | _, next⟩
  · have hserve := hrefused violation rfl
    constructor <;> simp [hserve, hcause]
  · obtain ⟨rfl, hserve⟩ := hmissing next rfl
    constructor <;> simp [hserve]
  · have hserve := hdeleted next rfl
    constructor <;> simp [hserve]

namespace Store

variable {store : Store} {id : Uuid} {violation : Violation}

/-- A deletion is refused for the rows that refer to the row. -/
theorem deleteOrganization_eq_error (h : store.deleteOrganization id = .error violation) :
    (store.findOrganization? id).isSome ∧ 0 < store.organizationReferences id := by
  rw [deleteOrganization] at h
  split at h
  · cases h
  · rename_i hfound
    split at h
    · rename_i hused
      exact ⟨by simpa [Option.isSome_iff_ne_none] using hfound, hused⟩
    · cases h

theorem deleteCategory_eq_error (h : store.deleteCategory id = .error violation) :
    (store.findCategory? id).isSome ∧ 0 < store.categoryReferences id := by
  rw [deleteCategory] at h
  split at h
  · cases h
  · rename_i hfound
    split at h
    · rename_i hused
      exact ⟨by simpa [Option.isSome_iff_ne_none] using hfound, hused⟩
    · cases h

end Store

/-! ### What the deletions answer -/

namespace Service

variable {store : Store} {id : Uuid}

theorem serve_deleteOrganization : (Request.deleteOrganization id).serve store =
    (((deleteOrganization id).perform Store.answer store).1.map fun _ => .deleted,
      ((deleteOrganization id).perform Store.answer store).2) := perform_map _ _

theorem serve_deleteCategory : (Request.deleteCategory id).serve store =
    (((deleteCategory id).perform Store.answer store).1.map fun _ => .deleted,
      ((deleteCategory id).perform Store.answer store).2) := perform_map _ _

/-- The cause that the guards give for not deleting an organization. -/
def organizationConflict (store : Store) (id : Uuid) : Conflict :=
  if 0 < store.countChildOrganizations id then
    .childOrganizations id (store.countChildOrganizations id)
  else .ownedCategories id (store.countOrganizationCategories id)

theorem perform_countChildOrganizations : (ask (.countChildOrganizations id)).perform Store.answer
    store = (.ok (store.countChildOrganizations id), store) := perform_ask rfl rfl

theorem perform_countOrganizationCategories : (ask (.countOrganizationCategories id)).perform
    Store.answer store = (.ok (store.countOrganizationCategories id), store) := perform_ask rfl rfl

theorem perform_countChildCategories : (ask (.countChildCategories id)).perform Store.answer
    store = (.ok (store.countChildCategories id), store) := perform_ask rfl rfl

/-- An organization that is found is not deleted as long as something is counted. -/
theorem deleteOrganization_counted {stored : Organization}
    (hstored : (store.answer (.getOrganization id)).1 = .ok (some stored))
    (hcount : 0 < store.countChildOrganizations id + store.countOrganizationCategories id) :
    (deleteOrganization id).perform Store.answer store =
      (.error (.conflict (organizationConflict store id)), store) := by
  rw [deleteOrganization, perform_bind (perform_getOrganization hstored),
    perform_bind perform_countChildOrganizations, organizationConflict]
  by_cases hchildren : 0 < store.countChildOrganizations id
  · rw [if_pos hchildren, if_pos hchildren]
    rfl
  · have howned : 0 < store.countOrganizationCategories id := by omega
    rw [if_neg hchildren, if_neg hchildren, perform_bind perform_countOrganizationCategories,
      if_pos howned]
    rfl

theorem deleteOrganization_uncounted {stored : Organization} {after : Store}
    (hstored : (store.answer (.getOrganization id)).1 = .ok (some stored))
    (hcount : store.countChildOrganizations id + store.countOrganizationCategories id = 0)
    (hdelete : store.deleteOrganization id = .ok (true, after)) :
    (deleteOrganization id).perform Store.answer store = (.ok (), after) := by
  have hchildren : ¬0 < store.countChildOrganizations id := by omega
  have howned : ¬0 < store.countOrganizationCategories id := by omega
  have hask : (ask (.deleteOrganization id)).perform Store.answer store = (.ok true, after) := by
    change ((store.ofWrite (store.deleteOrganization id)).1.mapError DeskError.ofStore,
      (store.ofWrite (store.deleteOrganization id)).2) = _
    rw [hdelete]
    rfl
  rw [deleteOrganization, perform_bind (perform_getOrganization hstored),
    perform_bind perform_countChildOrganizations, if_neg hchildren,
    perform_bind perform_countOrganizationCategories, if_neg howned, perform_bind hask]
  rfl

theorem deleteCategory_counted {stored : Category}
    (hstored : (store.answer (.getCategory id)).1 = .ok (some stored))
    (hcount : 0 < store.countChildCategories id) :
    (deleteCategory id).perform Store.answer store =
      (.error (.conflict (.childCategories id (store.countChildCategories id))), store) := by
  rw [deleteCategory, perform_bind (perform_getCategory hstored),
    perform_bind perform_countChildCategories, if_pos hcount]
  rfl

theorem deleteCategory_uncounted {stored : Category} {after : Store}
    (hstored : (store.answer (.getCategory id)).1 = .ok (some stored))
    (hcount : store.countChildCategories id = 0)
    (hdelete : store.deleteCategory id = .ok (true, after)) :
    (deleteCategory id).perform Store.answer store = (.ok (), after) := by
  have hchildren : ¬0 < store.countChildCategories id := by omega
  have hask : (ask (.deleteCategory id)).perform Store.answer store = (.ok true, after) := by
    change ((store.ofWrite (store.deleteCategory id)).1.mapError DeskError.ofStore,
      (store.ofWrite (store.deleteCategory id)).2) = _
    rw [hdelete]
    rfl
  rw [deleteCategory, perform_bind (perform_getCategory hstored),
    perform_bind perform_countChildCategories, if_neg hchildren, perform_bind hask]
  rfl

end Service

namespace Contents

variable {contents : Contents} (h : contents.Readable) (id : Uuid)

include h

theorem Readable.organization_found (hfound : (contents.store.findOrganization? id).isSome) :
    ∃ stored, (contents.store.answer (.getOrganization id)).1 = .ok (some stored) := by
  rw [findOrganization?_store, Option.isSome_map] at hfound
  obtain ⟨held, hheld⟩ := Option.isSome_iff_exists.1 hfound
  refine ⟨held.toMicros, ?_⟩
  rw [answer_getOrganization_of_plain h.organizations_plain, hheld]
  rfl

theorem Readable.category_found (hfound : (contents.store.findCategory? id).isSome) :
    ∃ stored, (contents.store.answer (.getCategory id)).1 = .ok (some stored) := by
  rw [findCategory?_store, Option.isSome_map] at hfound
  obtain ⟨held, hheld⟩ := Option.isSome_iff_exists.1 hfound
  refine ⟨held.toMicros, ?_⟩
  rw [answer_getCategory_of_plain h.categories_plain, hheld]
  rfl

theorem Readable.mirrors_deleteOrganization : (Request.deleteOrganization id).Mirrors id
    contents.store (contents.store.deleteOrganization id) := by
  have hcount := h.count_organization id
  refine .of_cases (organizationConflict contents.store id) ?_ ?_ ?_ ?_
  · intro violation
    rw [organizationConflict]
    split <;> exact nofun
  · intro same hown
    obtain ⟨hnone, hsame⟩ := Store.deleteOrganization_eq_false hown
    rw [findOrganization?_store, Option.map_eq_none_iff] at hnone
    have hmissing : (contents.store.answer (.getOrganization id)).1 = .ok none := by
      rw [answer_getOrganization_of_plain h.organizations_plain, hnone]
      rfl
    rw [serve_deleteOrganization, Service.deleteOrganization,
      perform_bind_error (perform_getOrganization_missing hmissing)]
    exact ⟨hsame, rfl⟩
  · intro violation hown
    obtain ⟨hfound, hused⟩ := Store.deleteOrganization_eq_error hown
    obtain ⟨stored, hstored⟩ := h.organization_found id hfound
    rw [serve_deleteOrganization, deleteOrganization_counted hstored (hcount ▸ hused)]
    rfl
  · intro after hown
    obtain ⟨hfound, hfree, _⟩ := Store.deleteOrganization_eq_ok hown
    obtain ⟨stored, hstored⟩ := h.organization_found id hfound
    rw [serve_deleteOrganization, deleteOrganization_uncounted hstored (hcount.trans hfree) hown]
    rfl

theorem Readable.mirrors_deleteCategory : (Request.deleteCategory id).Mirrors id contents.store
    (contents.store.deleteCategory id) := by
  have hcount := h.count_category id
  refine .of_cases (.childCategories id (contents.store.countChildCategories id)) nofun ?_ ?_ ?_
  · intro same hown
    obtain ⟨hnone, hsame⟩ := Store.deleteCategory_eq_false hown
    rw [findCategory?_store, Option.map_eq_none_iff] at hnone
    have hmissing : (contents.store.answer (.getCategory id)).1 = .ok none := by
      rw [answer_getCategory_of_plain h.categories_plain, hnone]
      rfl
    rw [serve_deleteCategory, Service.deleteCategory,
      perform_bind_error (perform_getCategory_missing hmissing)]
    exact ⟨hsame, rfl⟩
  · intro violation hown
    obtain ⟨hfound, hused⟩ := Store.deleteCategory_eq_error hown
    obtain ⟨stored, hstored⟩ := h.category_found id hfound
    rw [serve_deleteCategory, deleteCategory_counted hstored (hcount ▸ hused)]
    rfl
  · intro after hown
    obtain ⟨hfound, hfree, _⟩ := Store.deleteCategory_eq_ok hown
    obtain ⟨stored, hstored⟩ := h.category_found id hfound
    rw [serve_deleteCategory, deleteCategory_uncounted hstored (hcount.trans hfree) hown]
    rfl

end Contents

/-- Whatever calls and requests with plain times have led to a store, a deletion by request goes
through just if the store's own deletion finds the row and takes it away, is refused by a guard just
if the store would refuse it, and misses the row just if the store does. -/
theorem guards_mirror_references {store : Store} (hdated : store.Dated) (id : Uuid) :
    (Request.deleteOrganization id).Mirrors id store (store.deleteOrganization id) ∧
    (Request.deleteCategory id).Mirrors id store (store.deleteCategory id) := by
  obtain ⟨contents, rfl, hreadable⟩ := hdated.contents
  exact ⟨hreadable.mirrors_deleteOrganization id, hreadable.mirrors_deleteCategory id⟩

/-- A category of another organization below the first one. -/
def Category.spam : Category :=
  { Category.mail with id := .small 4, organizationId := .small 3, name := "Spam",
                       parentId := some (.small 2) }

/-- Two organizations with one category each, of which one lies below the other. Only a direct save can
bring this about. -/
def Store.strayChild : Store :=
  let desk := (Store.empty.answer (.saveOrganization (.small 1 "Desk" none))).2
  let help := (desk.answer (.saveOrganization (.small 3 "Help" none))).2
  let mail := (help.answer (.saveCategory .mail)).2
  (mail.answer (.saveCategory .spam)).2

/-- The child in the other organization is counted by the guard as it is by the store. -/
theorem guards_mirror_references_stray : Store.strayChild.Dated ∧
    ∃ cause, ((Request.deleteCategory (.small 2)).serve Store.strayChild).1 =
      .error (.conflict cause) := by
  have hfirst : (Time.Instant.ofSeconds 0).IsPlain := by decide
  have hlater : (Time.Instant.ofSeconds 60).IsPlain := by decide
  have hdesk := Store.Dated.empty.answer (.saveOrganization (.small 1 "Desk" none)) ⟨hfirst, hfirst⟩
  have hhelp := hdesk.answer (.saveOrganization (.small 3 "Help" none)) ⟨hfirst, hfirst⟩
  have hmail := hhelp.answer (.saveCategory .mail) ⟨hlater, hlater⟩
  have hdated : Store.strayChild.Dated := hmail.answer (.saveCategory .spam) ⟨hlater, hlater⟩
  have hown : Store.strayChild.deleteCategory (.small 2) = .error .brokenReference := by
    decide +kernel
  exact ⟨hdated, (guards_mirror_references hdated (.small 2)).2.conflict.2 ⟨_, hown⟩⟩

end ServiceDesk
