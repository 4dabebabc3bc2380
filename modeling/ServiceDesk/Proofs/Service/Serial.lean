import ServiceDesk.Proofs.Hierarchy.Growth
import ServiceDesk.Proofs.Service.Outcomes
import ServiceDesk.Proofs.Service.Writes
import ServiceDesk.Proofs.Store.References

/-!
Requests served one after another. Each of them leaves the store as it was or makes one write that
its protocol allows, after reads that were answered from the same store. So from the empty store on
the contents stay legal, whatever the requests are, and every tree, forest and path can be shown.
-/

namespace ServiceDesk

open Hierarchy Service Operation

/-! ### One request -/

/-- An exchange in which the store would give the same answer now. -/
def Event.Current (store : Store) : Event → Prop
  | .exchange call answer => (store.answer call).1 = answer
  | _ => True

theorem Event.Current.fits {contents : Contents} {event : Event} (h : event.Current contents.store) :
    event.Fits contents := by
  cases event with
  | exchange call answer => exact ⟨contents, h, .refl call.layout contents⟩
  | acquire layout => trivial
  | release layout => trivial

namespace Request

variable {request : Request} {past : List Event} {action : Action (Except DeskError Reply)}

/-- A request that goes on from current reads changes nothing, or makes one allowed write after
reads that are current. -/
theorem Obeys.run_store (h : request.Obeys past action) (store : Store)
    (hcurrent : ∀ event ∈ past, event.Current store) :
    (action.run Store.answer store).2 = store ∨
      ∃ past call result, request.Allows past call ∧ call.isWrite = true ∧
        (∀ event ∈ past, event.Current store) ∧
        store.answer call = (.ok result, (action.run Store.answer store).2) := by
  induction action generalizing past with
  | done outcome => exact Or.inl rfl
  | call c next ih =>
      obtain ⟨⟨_, hallows⟩, hnext⟩ := h
      rw [Action.run_call]
      cases hwrite : c.isWrite with
      | false =>
          rw [Store.answer_of_read hwrite]
          refine ih _ (hnext _) ?_
          exact List.forall_mem_cons.2 ⟨rfl, hcurrent⟩
      | true =>
          have hfinal : pending (.exchange c (store.answer c).1 :: past) = false := by
            simp [pending, Event.isFinal, hwrite]
          obtain ⟨outcome, hending⟩ :=
            Option.isSome_iff_exists.1 (Obeys.ending?_isSome (hnext _) hfinal)
          rw [Action.run_of_ending? hending]
          cases hanswer : (store.answer c).1 with
          | error fault => exact Or.inl (Store.answer_of_error hanswer)
          | ok result => exact Or.inr ⟨past, c, result, hallows, hwrite, hcurrent, Prod.ext hanswer rfl⟩
  | acquire layout next ih => exact ih h.2 (List.forall_mem_cons.2 ⟨trivial, hcurrent⟩)
  | release layout next ih => exact ih h.2 (List.forall_mem_cons.2 ⟨trivial, hcurrent⟩)

end Request

/-! ### Sound contents -/

/-- Contents that are legal, of which every timestamp can be read back, and which hold only entities
with ids that have been given away. -/
structure Contents.Sound (given : List Uuid) (contents : Contents) : Prop where
  legal : contents.Legal
  organizations_plain : ∀ organization ∈ contents.organizations, organization.IsPlain
  categories_plain : ∀ category ∈ contents.categories, category.IsPlain
  organizations_given : ∀ organization ∈ contents.organizations, organization.id ∈ given
  categories_given : ∀ category ∈ contents.categories, category.id ∈ given

namespace Contents.Sound

variable {given : List Uuid} {contents : Contents}

theorem empty : Sound [] Contents.empty where
  legal := .empty
  organizations_plain := fun _ hmem => by cases hmem
  categories_plain := fun _ hmem => by cases hmem
  organizations_given := fun _ hmem => by cases hmem
  categories_given := fun _ hmem => by cases hmem

theorem organization_given (h : Sound given contents) {id : Uuid}
    (hmem : id ∈ contents.organizations.map Nested.id) : id ∈ given := by
  obtain ⟨organization, horganization, rfl⟩ := List.mem_map.1 hmem
  exact h.organizations_given organization horganization

theorem category_given (h : Sound given contents) {id : Uuid}
    (hmem : id ∈ contents.categories.map Nested.id) : id ∈ given := by
  obtain ⟨category, hcategory, rfl⟩ := List.mem_map.1 hmem
  exact h.categories_given category hcategory

theorem mono (h : Sound given contents) {more : List Uuid} (hsub : given ⊆ more) :
    Sound more contents where
  legal := h.legal
  organizations_plain := h.organizations_plain
  categories_plain := h.categories_plain
  organizations_given organization hmem := hsub (h.organizations_given organization hmem)
  categories_given category hmem := hsub (h.categories_given category hmem)

theorem putOrganization (h : Sound given contents) {organization : Organization}
    (hlegal : (contents.putOrganization organization).Legal) (hplain : organization.IsPlain)
    (hgiven : organization.id ∈ given) : Sound given (contents.putOrganization organization) where
  legal := hlegal
  organizations_plain := by
    intro other hmem
    rcases mem_put.1 hmem with rfl | ⟨hold, _⟩
    · exact mergeOrganization_isPlain h.organizations_plain hplain
    · exact h.organizations_plain other hold
  categories_plain := h.categories_plain
  organizations_given := by
    intro other hmem
    rcases mem_put.1 hmem with rfl | ⟨hold, _⟩
    · have hid : (contents.mergeOrganization organization).id = organization.id :=
        mergeOrganization_id contents organization
      rwa [hid]
    · exact h.organizations_given other hold
  categories_given := h.categories_given

theorem putCategory (h : Sound given contents) {category : Category}
    (hlegal : (contents.putCategory category).Legal) (hplain : category.IsPlain)
    (hgiven : category.id ∈ given) : Sound given (contents.putCategory category) where
  legal := hlegal
  organizations_plain := h.organizations_plain
  categories_plain := by
    intro other hmem
    rcases mem_put.1 hmem with rfl | ⟨hold, _⟩
    · exact mergeCategory_isPlain h.categories_plain hplain
    · exact h.categories_plain other hold
  organizations_given := h.organizations_given
  categories_given := by
    intro other hmem
    rcases mem_put.1 hmem with rfl | ⟨hold, _⟩
    · have hid : (contents.mergeCategory category).id = category.id :=
        mergeCategory_id contents category
      rwa [hid]
    · exact h.categories_given other hold

theorem dropOrganization (h : Sound given contents) {id : Uuid}
    (hlegal : (contents.dropOrganization id).Legal) : Sound given (contents.dropOrganization id) where
  legal := hlegal
  organizations_plain other hmem := h.organizations_plain other (List.mem_of_mem_filter hmem)
  categories_plain := h.categories_plain
  organizations_given other hmem := h.organizations_given other (List.mem_of_mem_filter hmem)
  categories_given := h.categories_given

theorem dropCategory (h : Sound given contents) {id : Uuid}
    (hlegal : (contents.dropCategory id).Legal) : Sound given (contents.dropCategory id) where
  legal := hlegal
  organizations_plain := h.organizations_plain
  categories_plain other hmem := h.categories_plain other (List.mem_of_mem_filter hmem)
  organizations_given := h.organizations_given
  categories_given other hmem := h.categories_given other (List.mem_of_mem_filter hmem)

end Contents.Sound

namespace Request.Allows

variable {request : Request} {past : List Event} {given : List Uuid} {contents : Contents}

/-- An organization that may be saved after current reads leaves legal contents. -/
theorem legal_organization {organization : Organization}
    (h : request.Allows past (.saveOrganization organization))
    (hnew : ∀ id, request.generated? = some id → id ∉ given) (hsound : contents.Sound given)
    (hfits : ∀ event ∈ past, event.Fits contents) :
    (contents.putOrganization organization).Legal := by
  cases hlock : request.lock? with
  | none => exact hsound.legal.keepOrganization (h.link_organization hlock hfits)
  | some layout =>
      cases (h.held_of_write rfl hlock).2
      refine hsound.legal.putOrganization (h.forest_organization hlock hsound.legal
        (fun event hmem => hfits event (guarded_subset past hmem)) ?_)
      intro id hid hmem
      rw [keys_linksOf] at hmem
      exact hnew _ hid (hsound.organization_given hmem)

theorem legal_category {category : Category} (h : request.Allows past (.saveCategory category))
    (hnew : ∀ id, request.generated? = some id → id ∉ given) (hsound : contents.Sound given)
    (hfits : ∀ event ∈ past, event.Fits contents) : (contents.putCategory category).Legal := by
  cases hlock : request.lock? with
  | none => exact hsound.legal.keepCategory (h.link_category hlock hfits)
  | some layout =>
      cases (h.held_of_write rfl hlock).2
      have hfresh : ∀ id, request.generated? = some id →
          id ∉ contents.categories.map Nested.id :=
        fun id hid hmem => hnew id hid (hsound.category_given hmem)
      obtain ⟨hsame, hforest⟩ := h.forest_category hlock hsound.legal
        (fun event hmem => hfits event (guarded_subset past hmem)) hfresh
      exact hsound.legal.putCategory hsame hforest

/-- An organization that may be saved after current reads has an id that is given away by then, and
timestamps that can be read back. -/
theorem given_organization {organization : Organization}
    (h : request.Allows past (.saveOrganization organization)) (hclock : request.IsPlain)
    (hsound : contents.Sound given) (hfits : ∀ event ∈ past, event.Fits contents) :
    organization.id ∈ request.generated?.toList ++ given ∧ organization.IsPlain := by
  rcases h.origin_organization with ⟨hid, _, hplain⟩ | ⟨id, stored, hread, hid, hplain⟩
  · exact ⟨by simp [hid], hplain hclock⟩
  · obtain ⟨old, hfound, hsame⟩ := hfits _ hread
    obtain ⟨hself, hlink, hold⟩ := Contents.getOrganization_answer hfound
    rw [show linksOf old.organizations = linksOf contents.organizations from hsame] at hlink
    obtain ⟨other, hmem, hother, _⟩ := mem_linksOf.1 hlink
    have hsaved : organization.id = other.id := (hid.trans hself).trans hother.symm
    rw [hsaved]
    exact ⟨List.mem_append_right _ (hsound.organizations_given other hmem), hplain hclock hold⟩

theorem given_category {category : Category} (h : request.Allows past (.saveCategory category))
    (hclock : request.IsPlain) (hsound : contents.Sound given)
    (hfits : ∀ event ∈ past, event.Fits contents) :
    category.id ∈ request.generated?.toList ++ given ∧ category.IsPlain := by
  rcases h.origin_category with ⟨hid, _, hplain⟩ | ⟨id, stored, hread, hid, _, hplain⟩
  · exact ⟨by simp [hid], hplain hclock⟩
  · obtain ⟨old, hfound, hsame⟩ := hfits _ hread
    obtain ⟨hself, hlink, hold⟩ := Contents.getCategory_answer hfound
    rw [show linksOf (old.categoriesOf _) = linksOf (contents.categoriesOf _) from hsame _]
      at hlink
    obtain ⟨other, hmem, hother, _⟩ := mem_linksOf.1 hlink
    have hsaved : category.id = other.id := (hid.trans hself).trans hother.symm
    have hgiven := hsound.categories_given other (List.mem_of_mem_filter hmem)
    rw [hsaved]
    exact ⟨List.mem_append_right _ hgiven, hplain hclock hold⟩

/-- An allowed write after current reads keeps the contents sound. -/
theorem sound {call : Store.Call} {after : Contents} (h : request.Allows past call)
    (hclock : request.IsPlain) (hnew : ∀ id, request.generated? = some id → id ∉ given)
    (hsound : contents.Sound given) (hfits : ∀ event ∈ past, event.Fits contents)
    (hcall : contents.Becomes call after) : after.Sound (request.generated?.toList ++ given) := by
  have hmore := hsound.mono (List.subset_append_right request.generated?.toList given)
  cases hcall with
  | same => exact hmore
  | saveOrganization _ =>
      obtain ⟨hgiven, hplain⟩ := h.given_organization hclock hsound hfits
      exact hmore.putOrganization (h.legal_organization hnew hsound hfits) hplain hgiven
  | saveCategory _ =>
      obtain ⟨hgiven, hplain⟩ := h.given_category hclock hsound hfits
      exact hmore.putCategory (h.legal_category hnew hsound hfits) hplain hgiven
  | deleteOrganization hleaf _ => exact hmore.dropOrganization (hsound.legal.dropOrganization hleaf)
  | deleteCategory hleaf => exact hmore.dropCategory (hsound.legal.dropCategory hleaf)

end Request.Allows

/-- Serving one request leaves the store of some contents, which differ by an allowed write after
reads that are current. -/
theorem Request.serve_current (request : Request) (contents : Contents) : ∃ after : Contents,
    (request.serve contents.store).2 = after.store ∧ (after = contents ∨
      ∃ past call, request.Allows past call ∧ (∀ event ∈ past, event.Current contents.store) ∧
        contents.Becomes call after) := by
  rcases request.obeys_operation.run_store contents.store
      (fun _ hmem => by cases hmem) with hsame | ⟨past, call, _, hallows, _, hcurrent, hanswer⟩
  · exact ⟨contents, hsame, Or.inl rfl⟩
  · obtain ⟨after, hafter, hcall⟩ := contents.answer_becomes call
    refine ⟨after, ?_, Or.inr ⟨past, call, hallows, hcurrent, hcall⟩⟩
    rw [hanswer] at hafter
    exact hafter

/-- What was read by then fits the contents. -/
theorem Request.serve_becomes (request : Request) (contents : Contents) : ∃ after : Contents,
    (request.serve contents.store).2 = after.store ∧ (after = contents ∨
      ∃ past call, request.Allows past call ∧ (∀ event ∈ past, event.Fits contents) ∧
        contents.Becomes call after) := by
  obtain ⟨after, hafter, hsame | ⟨past, call, hallows, hcurrent, hcall⟩⟩ :=
    request.serve_current contents
  · exact ⟨after, hafter, Or.inl hsame⟩
  · exact ⟨after, hafter, Or.inr ⟨past, call, hallows,
      fun event hmem => (hcurrent event hmem).fits, hcall⟩⟩

/-- Serving one request with a new id keeps the contents sound. -/
theorem Request.serve_sound {request : Request} {given : List Uuid} {contents : Contents}
    (hclock : request.IsPlain)
    (hnew : ∀ id, request.generated? = some id → id ∉ given) (hsound : contents.Sound given) :
    ∃ after : Contents, (request.serve contents.store).2 = after.store ∧
      after.Sound (request.generated?.toList ++ given) := by
  obtain ⟨after, hafter, rfl | ⟨past, call, hallows, hfits, hcall⟩⟩ :=
    request.serve_becomes contents
  · exact ⟨after, hafter, hsound.mono (List.subset_append_right _ _)⟩
  · exact ⟨after, hafter, hallows.sound hclock hnew hsound hfits hcall⟩

/-! ### What can be shown -/

namespace Contents.Sound

variable {given : List Uuid} {contents : Contents}

theorem answer_getOrganization (h : Sound given contents) (id : Uuid) :
    (contents.store.answer (.getOrganization id)).1 =
      .ok ((contents.organization? id).map Organization.toMicros) :=
  answer_getOrganization_of_plain h.organizations_plain id

theorem answer_getCategory (h : Sound given contents) (id : Uuid) :
    (contents.store.answer (.getCategory id)).1 =
      .ok ((contents.category? id).map Category.toMicros) :=
  answer_getCategory_of_plain h.categories_plain id

theorem answer_allOrganizations (h : Sound given contents) :
    (contents.store.answer .allOrganizations).1 =
      .ok ((byCreation contents.organizations).map Organization.toMicros) := by
  change contents.store.allOrganizations.mapError StoreError.failed = _
  rw [allOrganizations_store, if_pos h.organizations_plain]
  rfl

theorem answer_categoriesFor (h : Sound given contents) (organizationId : Uuid) :
    (contents.store.answer (.categoriesFor organizationId)).1 =
      .ok ((categoriesByCreation (contents.categoriesOf organizationId)).map Category.toMicros) := by
  have hplain : ∀ category ∈ contents.categoriesOf organizationId, category.IsPlain :=
    fun category hmem => h.categories_plain category (List.mem_of_mem_filter hmem)
  change (contents.store.categoriesFor organizationId).mapError StoreError.failed = _
  rw [categoriesFor_store, if_pos hplain]
  rfl

theorem getOrganization_answer (h : Sound given contents) {organization : Organization}
    (hmem : organization ∈ contents.organizations) :
    ∃ stored, (contents.store.answer (.getOrganization organization.id)).1 = .ok (some stored) := by
  obtain ⟨stored, hstored⟩ := Option.isSome_iff_exists.1
    ((contents.organization?_isSome organization.id).2 (List.mem_map_of_mem hmem))
  exact ⟨stored.toMicros, by rw [h.answer_getOrganization, hstored, Option.map_some]⟩

theorem getCategory_answer (h : Sound given contents) {category : Category}
    (hmem : category ∈ contents.categories) : ∃ stored,
      (contents.store.answer (.getCategory category.id)).1 = .ok (some stored) ∧
        category ∈ contents.categoriesOf stored.organizationId := by
  obtain ⟨stored, hstored⟩ := Option.isSome_iff_exists.1
    ((contents.category?_isSome category.id).2 (List.mem_map_of_mem hmem))
  have hanswer : (contents.store.answer (.getCategory category.id)).1 =
      .ok (some stored.toMicros) := by
    rw [h.answer_getCategory, hstored, Option.map_some]
  refine ⟨stored.toMicros, hanswer, List.mem_filter.2 ⟨hmem, ?_⟩⟩
  have hlink := (Contents.getCategory_answer hanswer).2.1
  simpa using h.legal.organizationId_of_mem (mem_keys_of_mem hlink) category hmem rfl

/-- All organizations are read as a forest with the ids that are stored. -/
theorem organizations_read (h : Sound given contents) :
    ∃ all, (contents.store.answer .allOrganizations).1 = .ok all ∧ Forest (linksOf all) ∧
      ∀ organization ∈ contents.organizations, organization.id ∈ keys (linksOf all) := by
  have hperm := allOrganizations_answer h.answer_allOrganizations
  refine ⟨_, h.answer_allOrganizations, h.legal.organizations.perm hperm.symm, ?_⟩
  intro organization hmem
  refine (hperm.map _).mem_iff.2 ?_
  exact mem_keys_of_mem (mem_linksOf.2 ⟨organization, hmem, rfl, rfl⟩)

/-- The categories of an organization are read as a forest with the ids that are stored. -/
theorem categories_read (h : Sound given contents) (organizationId : Uuid) :
    ∃ all, (contents.store.answer (.categoriesFor organizationId)).1 = .ok all ∧
      Forest (linksOf all) ∧
        ∀ category ∈ contents.categoriesOf organizationId, category.id ∈ keys (linksOf all) := by
  have hperm := categoriesFor_answer (h.answer_categoriesFor organizationId)
  refine ⟨_, h.answer_categoriesFor organizationId,
    (h.legal.categories organizationId).perm hperm.symm, ?_⟩
  intro category hmem
  refine (hperm.map _).mem_iff.2 ?_
  exact mem_keys_of_mem (mem_linksOf.2 ⟨category, hmem, rfl, rfl⟩)

end Contents.Sound

/-- Every tree, forest and path of what a store holds can be shown. -/
structure Contents.Shown (contents : Contents) : Prop where
  organizationForest : (organizationForest.perform Store.answer contents.store).1.isOk = true
  organizationTree : ∀ organization ∈ contents.organizations,
    ((organizationTree organization.id).perform Store.answer contents.store).1.isOk = true
  organizationPath : ∀ organization ∈ contents.organizations,
    ((organizationPath organization.id).perform Store.answer contents.store).1.isOk = true
  categoryForest : ∀ organization ∈ contents.organizations,
    ((categoryForest organization.id).perform Store.answer contents.store).1.isOk = true
  categoryTree : ∀ category ∈ contents.categories,
    ((categoryTree category.id).perform Store.answer contents.store).1.isOk = true
  categoryPath : ∀ category ∈ contents.categories,
    ((categoryPath category.id).perform Store.answer contents.store).1.isOk = true

theorem Contents.Sound.shown {given : List Uuid} {contents : Contents}
    (h : contents.Sound given) : contents.Shown where
  organizationForest := by
    obtain ⟨all, hall, hforest, _⟩ := h.organizations_read
    rw [perform_organizationForest hall]
    exact Tree.forestOfItems_isOk hforest
  organizationTree := by
    intro organization hmem
    obtain ⟨all, hall, hforest, hknown⟩ := h.organizations_read
    rw [perform_organizationTree hall]
    exact Tree.ofItems_isOk hforest (hknown organization hmem)
  organizationPath := by
    intro organization hmem
    obtain ⟨all, hall, hforest, hknown⟩ := h.organizations_read
    rw [perform_organizationPath hall]
    exact pathWithin_isOk hforest (hknown organization hmem)
  categoryForest := by
    intro organization hmem
    obtain ⟨stored, hstored⟩ := h.getOrganization_answer hmem
    obtain ⟨all, hall, hforest, _⟩ := h.categories_read organization.id
    rw [perform_categoryForest hstored hall]
    exact Tree.forestOfItems_isOk hforest
  categoryTree := by
    intro category hmem
    obtain ⟨stored, hstored, howner⟩ := h.getCategory_answer hmem
    obtain ⟨all, hall, hforest, hknown⟩ := h.categories_read stored.organizationId
    rw [perform_categoryTree hstored hall]
    exact Tree.ofItems_isOk hforest (hknown category howner)
  categoryPath := by
    intro category hmem
    obtain ⟨stored, hstored, howner⟩ := h.getCategory_answer hmem
    obtain ⟨all, hall, hforest, hknown⟩ := h.categories_read stored.organizationId
    rw [perform_categoryPath hstored hall]
    exact pathWithin_isOk hforest (hknown category howner)

/-! ### Runs -/

/-- What holds at first and is kept by every request with a new id holds after a run. -/
theorem serveAll_induction {motive : List Uuid → Contents → Prop} {given : List Uuid}
    {contents : Contents} (requests : List Request)
    (hids : (requests.filterMap Request.generated?).Nodup)
    (hnew : ∀ id ∈ requests.filterMap Request.generated?, id ∉ given)
    (hstart : motive given contents)
    (hstep : ∀ request ∈ requests, ∀ given contents,
      (∀ id, request.generated? = some id → id ∉ given) → motive given contents →
        ∃ after : Contents, (request.serve contents.store).2 = after.store ∧
          motive (request.generated?.toList ++ given) after) :
    ∃ (given' : List Uuid) (after : Contents), serveAll contents.store requests = after.store ∧
      motive given' after ∧ given' ⊆ requests.filterMap Request.generated? ++ given := by
  induction requests generalizing given contents with
  | nil => exact ⟨given, contents, rfl, hstart, List.Subset.refl _⟩
  | cons request requests ih =>
      have hsplit : (request :: requests).filterMap Request.generated? =
          request.generated?.toList ++ requests.filterMap Request.generated? := by
        cases hid : request.generated? with
        | none => rw [List.filterMap_cons_none hid, Option.toList_none, List.nil_append]
        | some id => rw [List.filterMap_cons_some hid, Option.toList_some, List.singleton_append]
      rw [hsplit] at hids hnew ⊢
      obtain ⟨_, hrest, hapart⟩ := List.nodup_append.1 hids
      obtain ⟨next, hserve, hnext⟩ := hstep request List.mem_cons_self given contents
        (fun id hid => hnew id (List.mem_append_left _ (by simp [hid]))) hstart
      have hfresh : ∀ id ∈ requests.filterMap Request.generated?,
          id ∉ request.generated?.toList ++ given := by
        intro id hid hmem
        rcases List.mem_append.1 hmem with hsame | hold
        · exact hapart id hsame id hid rfl
        · exact hnew id (List.mem_append_right _ hid) hold
      obtain ⟨given', after, hafter, hmotive, hsub⟩ := ih hrest hfresh hnext
        fun other hmem => hstep other (List.mem_cons_of_mem _ hmem)
      refine ⟨given', after, ?_, hmotive, fun id hid => ?_⟩
      · rw [serveAll, List.foldl_cons, hserve]
        exact hafter
      · have hmem := hsub hid
        simp only [List.mem_append] at hmem ⊢
        tauto

/-- What holds of the empty store and is kept by every request with a new id and a plain time holds
after a run. -/
theorem serveAll_empty_induction {motive : List Uuid → Contents → Prop} (requests : List Request)
    (hids : (requests.filterMap Request.generated?).Nodup)
    (hclock : ∀ now ∈ requests.filterMap Request.clock?, now.IsPlain)
    (hstart : motive [] Contents.empty)
    (hstep : ∀ (request : Request) given contents, request.IsPlain →
      (∀ id, request.generated? = some id → id ∉ given) → motive given contents →
        ∃ after : Contents, (request.serve contents.store).2 = after.store ∧
          motive (request.generated?.toList ++ given) after) :
    ∃ (given : List Uuid) (contents : Contents), serveAll Store.empty requests = contents.store ∧
      motive given contents ∧ given ⊆ requests.filterMap Request.generated? := by
  obtain ⟨given, contents, hstore, hkept, hsub⟩ := serveAll_induction requests hids
    (fun _ _ hmem => by cases hmem) hstart fun request hmem given contents hnew hkept =>
      hstep request given contents
        (fun now hnow => hclock now (List.mem_filterMap.2 ⟨request, hmem, hnow⟩)) hnew hkept
  exact ⟨given, contents, hstore, hkept, by rwa [List.append_nil] at hsub⟩

/-- A run from sound contents keeps them sound, if it gives away new ids and the clock stays within
the years that have no sign. -/
theorem serveAll_sound {given : List Uuid} {contents : Contents} (requests : List Request)
    (hsound : contents.Sound given) (hids : (requests.filterMap Request.generated?).Nodup)
    (hnew : ∀ id ∈ requests.filterMap Request.generated?, id ∉ given)
    (hclock : ∀ now ∈ requests.filterMap Request.clock?, now.IsPlain) :
    ∃ after : Contents, serveAll contents.store requests = after.store ∧
      after.Sound (requests.filterMap Request.generated? ++ given) := by
  obtain ⟨given', after, hafter, hkept, hsub⟩ := serveAll_induction
    (motive := fun given contents => contents.Sound given) requests hids hnew hsound
    fun request hmem given contents hfresh hsound => Request.serve_sound
      (fun now hnow => hclock now (List.mem_filterMap.2 ⟨request, hmem, hnow⟩)) hfresh hsound
  exact ⟨after, hafter, hkept.mono hsub⟩

/-- Whatever requests are served one after another from the empty store on, with new ids and a clock
within the years 0 to 9999: after each of them the store holds forests of at most the greatest depth,
the categories of each organization by themselves, and every tree, forest and path can be shown. -/
theorem forest_after_every_request (requests : List Request)
    (hids : (requests.filterMap Request.generated?).Nodup)
    (hclock : ∀ now ∈ requests.filterMap Request.clock?, now.IsPlain) :
    ∀ served, served <+: requests → ∃ contents : Contents,
      serveAll Store.empty served = contents.store ∧ contents.Legal ∧ contents.Shown := by
  intro served hserved
  obtain ⟨contents, hstore, hsound⟩ := serveAll_sound served Contents.Sound.empty
    (hids.sublist (hserved.sublist.filterMap _)) (fun _ _ hmem => by cases hmem)
    (fun now hmem => hclock now ((hserved.sublist.filterMap _).subset hmem))
  exact ⟨contents, hstore, hsound.legal, hsound.shown⟩

/-- A run that builds a tree, moves a part of it and takes a leaf away. -/
theorem forest_after_a_short_run :
    let stamp (number : Nat) : Stamp := ⟨.ofSeconds number, .small number⟩
    ∃ contents : Contents, serveAll Store.empty
      [.createOrganization (stamp 1) ⟨"Root", "", none⟩,
        .createOrganization (stamp 2) ⟨"Branch", "", some (stamp 1).id⟩,
        .createCategory (stamp 3) (stamp 1).id ⟨"Mail", "", none⟩,
        .moveOrganization (stamp 4) (stamp 2).id none,
        .deleteOrganization (stamp 2).id] = contents.store ∧ contents.Legal ∧ contents.Shown := by
  intro stamp
  exact forest_after_every_request _ (by decide) (by decide) _ (List.prefix_refl _)

end ServiceDesk
