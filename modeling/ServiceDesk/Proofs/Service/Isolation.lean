import ServiceDesk.Proofs.Listing.Shapes
import ServiceDesk.Proofs.Service.Footprints
import ServiceDesk.Proofs.Store.Listings

/-!
The categories of one organization, its rows in the table that all organizations share. What an
inquiry about them is told depends on these rows alone, and a request that is made for another
organization leaves them as they are.
-/

namespace ServiceDesk

open Hierarchy Service Operation

def Store.categoryRows (store : Store) (tenant : Uuid) : List CategoryRow :=
  store.categories.filter (·.organizationId == tenant.text)

/-- A category of this id belongs to the organization. -/
def Store.Assigns (store : Store) (tenant id : Uuid) : Prop :=
  ∃ row ∈ store.categoryRows tenant, row.id = some id.text

/-- Inquiries about the categories of an organization. -/
def Inquiry.Regards (store : Store) (tenant : Uuid) : Inquiry → Prop
  | .category id => store.Assigns tenant id
  | .categories organizationId _ => organizationId = tenant
  | .categoryTree id => store.Assigns tenant id
  | .categoryForest organizationId => organizationId = tenant
  | .categoryPath id => store.Assigns tenant id
  | _ => False

/-- Requests to change the categories of an organization, or to delete it. -/
def Request.Meddles (store : Store) (tenant : Uuid) : Request → Prop
  | .deleteOrganization id => id = tenant
  | .createCategory _ organizationId _ => organizationId = tenant
  | .updateCategory _ id _ => store.Assigns tenant id
  | .moveCategory _ id _ => store.Assigns tenant id
  | .deleteCategory id => store.Assigns tenant id
  | _ => False

/-! ### What a swapped row leaves -/

namespace Store.Swaps

variable {ρ : Type} {key : ρ → Option String} {id : Uuid} {old? new? : Option ρ}
  {before after : List ρ}

theorem filter_eq (h : Swaps key id old? new? before after) (select : ρ → Bool)
    (hold : ∀ row ∈ old?, select row = false) (hnew : ∀ row ∈ new?, select row = false) :
    after.filter select = before.filter select := by
  obtain ⟨front, back, _, _, _⟩ := h
  have hnone : ∀ row? : Option ρ, (∀ row ∈ row?, select row = false) →
      row?.toList.filter select = [] := by
    intro row? hrow
    simpa [List.filter_eq_nil_iff] using hrow
  simp only [List.filter_append, hnone old? hold, hnone new? hnew]

theorem mem_old {old : ρ} (h : Swaps key id (some old) new? before after) :
    old ∈ before ∧ key old = some id.text := by
  cases h with
  | intro front back _ hold _ => exact ⟨by simp, hold old rfl⟩

theorem key_mem (h : Swaps key id old? new? before after) {text : String}
    (hthere : ∃ row ∈ before, key row = some text) (hkept : text = id.text → new?.isSome) :
    ∃ row ∈ after, key row = some text := by
  obtain ⟨front, back, _, hold, hnew⟩ := h
  obtain ⟨row, hmem, hkey⟩ := hthere
  by_cases hself : text = id.text
  · obtain ⟨new, rfl⟩ := Option.isSome_iff_exists.1 (hkept hself)
    exact ⟨new, by simp, hself ▸ hnew new rfl⟩
  · refine ⟨row, ?_, hkey⟩
    simp only [List.mem_append, Option.mem_toList] at hmem ⊢
    rcases hmem with (hfront | hswapped) | hback
    · exact Or.inl (Or.inl hfront)
    · exact absurd (Option.some.inj (hkey.symm.trans (hold row hswapped))) hself
    · exact Or.inr hback

end Store.Swaps

/-- The rows of an organization stay as they are when the swapped rows belong to another one. -/
theorem Store.SwapsCategory.categoryRows {id tenant : Uuid} {old? new? : Option CategoryRow}
    {before after : Store} (h : Store.SwapsCategory id old? new? before after)
    (hold : ∀ row ∈ old?, row.organizationId ≠ tenant.text)
    (hnew : ∀ row ∈ new?, row.organizationId ≠ tenant.text) :
    after.categoryRows tenant = before.categoryRows tenant :=
  h.row.filter_eq _ (fun row hrow => by simpa using hold row hrow)
    fun row hrow => by simpa using hnew row hrow

/-- A request that touches one row and does not meddle leaves the rows of an organization. -/
theorem Request.Touches.categoryRows {request : Request} {reply : Reply} {before after : Store}
    (h : request.Touches reply before after) {tenant : Uuid}
    (hapart : ¬request.Meddles before tenant) :
    after.categoryRows tenant = before.categoryRows tenant := by
  have hforeign : ∀ {id old new?}, Store.SwapsCategory id (some old) new? before after →
      ¬before.Assigns tenant id → old.organizationId ≠ tenant.text := by
    rintro id old new? hrow hmissing howner
    obtain ⟨hmem, hid⟩ := hrow.row.mem_old
    exact hmissing ⟨old, List.mem_filter.2 ⟨hmem, by simpa using howner⟩, hid⟩
  have hsame : ∀ {id old? new?}, Store.SwapsOrganization id old? new? before after →
      after.categoryRows tenant = before.categoryRows tenant := by
    intro id old? new? hrow
    rw [Store.categoryRows, hrow.rest, Store.categoryRows]
  cases h with
  | createOrganization _ hrow => exact hsame hrow
  | updateOrganization hrow _ => exact hsame hrow
  | moveOrganization hrow _ => exact hsame hrow
  | deleteOrganization hrow => exact hsame hrow
  | createCategory _ howner hrow =>
      refine hrow.categoryRows nofun ?_
      rintro _ ⟨⟩ htenant
      exact hapart (howner.symm.trans (Uuid.text_injective htenant))
  | updateCategory hrow hkept =>
      have hold := hforeign hrow hapart
      refine hrow.categoryRows ?_ ?_
      · rintro _ ⟨⟩
        exact hold
      · rintro _ ⟨⟩
        rwa [hkept.organizationId]
  | moveCategory hrow hkept =>
      have hold := hforeign hrow hapart
      refine hrow.categoryRows ?_ ?_
      · rintro _ ⟨⟩
        exact hold
      · rintro _ ⟨⟩
        rwa [hkept]
  | deleteCategory hrow =>
      refine hrow.categoryRows ?_ nofun
      rintro _ ⟨⟩
      exact hforeign hrow hapart

theorem Store.findOrganization?_isSome {store : Store} {id : Uuid} :
    (store.findOrganization? id).isSome ↔ ∃ row ∈ store.organizations, row.id = some id.text := by
  rw [Store.findOrganization?, List.find?_isSome]
  simp only [beq_iff_eq]

theorem Request.Touches.organization_kept {request : Request} {reply : Reply} {before after : Store}
    (h : request.Touches reply before after) {tenant : Uuid}
    (hapart : ¬request.Meddles before tenant) (hthere : (before.findOrganization? tenant).isSome) :
    (after.findOrganization? tenant).isSome := by
  have hkept : ∀ {id old? new?}, Store.SwapsOrganization id old? new? before after →
      (tenant.text = id.text → new?.isSome) → (after.findOrganization? tenant).isSome :=
    fun hrow hnew => Store.findOrganization?_isSome.2
      (hrow.row.key_mem (Store.findOrganization?_isSome.1 hthere) hnew)
  have hsame : ∀ {id old? new?}, Store.SwapsCategory id old? new? before after →
      (after.findOrganization? tenant).isSome := by
    intro id old? new? hrow
    rwa [Store.findOrganization?, hrow.rest]
  cases h with
  | createOrganization _ hrow => exact hkept hrow fun _ => rfl
  | updateOrganization hrow _ => exact hkept hrow fun _ => rfl
  | moveOrganization hrow _ => exact hkept hrow fun _ => rfl
  | deleteOrganization hrow =>
      exact hkept hrow fun heq => absurd (Uuid.text_injective heq).symm hapart
  | createCategory _ _ hrow => exact hsame hrow
  | updateCategory hrow _ => exact hsame hrow
  | moveCategory hrow _ => exact hsame hrow
  | deleteCategory hrow => exact hsame hrow

/-! ### Outcomes in two stores -/

namespace Operation

variable {α β : Type} {before after : Store} {id : Uuid}

/-- An operation has the same outcome in two stores. -/
def SameOutcome (before after : Store) (operation : Operation α) : Prop :=
  (operation.perform Store.answer after).1 = (operation.perform Store.answer before).1

theorem sameOutcome_ask {call : Store.Call}
    (hsame : (after.answer call).1 = (before.answer call).1) :
    SameOutcome before after (ask call) :=
  congrArg (Except.mapError DeskError.ofStore) hsame

/-- What only reads is followed by the same if it has the same outcome. -/
theorem sameOutcome_bind {operation : Operation α} {next : α → Operation β}
    (hbefore : (operation.perform Store.answer before).2 = before)
    (hafter : (operation.perform Store.answer after).2 = after)
    (hsame : SameOutcome before after operation)
    (hnext : ∀ value, (operation.perform Store.answer before).1 = .ok value →
      SameOutcome before after (next value)) :
    SameOutcome before after (operation >>= next) := by
  cases houtcome : (operation.perform Store.answer before).1 with
  | error error =>
      rw [SameOutcome, perform_bind_error (Prod.ext houtcome hbefore),
        perform_bind_error (Prod.ext (hsame.trans houtcome) hafter)]
  | ok value =>
      rw [SameOutcome, perform_bind (Prod.ext houtcome hbefore),
        perform_bind (Prod.ext (hsame.trans houtcome) hafter)]
      exact hnext value houtcome

theorem sameOutcome_ask_bind {call : Store.Call} {next : call.Result → Operation β}
    (hread : call.isWrite = false) (hsame : (after.answer call).1 = (before.answer call).1)
    (hnext : ∀ result, SameOutcome before after (next result)) :
    SameOutcome before after (ask call >>= next) :=
  sameOutcome_bind (Store.answer_of_read hread) (Store.answer_of_read hread) (sameOutcome_ask hsame)
    fun result _ => hnext result

theorem sameOutcome_getCategory
    (hsame : (after.answer (.getCategory id)).1 = (before.answer (.getCategory id)).1) :
    SameOutcome before after (getCategory id) := by
  refine sameOutcome_ask_bind rfl hsame fun found => ?_
  cases found with
  | none => rfl
  | some category => rfl

theorem sameOutcome_getCategory_bind {next : Category → Operation β}
    (hsame : (after.answer (.getCategory id)).1 = (before.answer (.getCategory id)).1)
    (hnext : ∀ category, (before.answer (.getCategory id)).1 = .ok (some category) →
      SameOutcome before after (next category)) :
    SameOutcome before after (getCategory id >>= next) := by
  refine sameOutcome_bind (congrArg Prod.snd (Inquiry.perform_eq (.category id) before))
    (congrArg Prod.snd (Inquiry.perform_eq (.category id) after)) (sameOutcome_getCategory hsame) ?_
  intro category hcategory
  exact hnext category ((delivers_getCategory before id).done category _ (Prod.ext hcategory rfl)).2

end Operation

/-! ### What is told depends on the rows -/

namespace Store

variable {tenant : Uuid} {before after : Store}

/-- All categories of an organization are read from its rows. -/
theorem answer_categoriesFor_eq (hrows : after.categoryRows tenant = before.categoryRows tenant) :
    (after.answer (.categoriesFor tenant)).1 = (before.answer (.categoriesFor tenant)).1 := by
  have hread : ∀ store : Store, store.categoriesFor tenant =
      CategoryRow.decodeAll ((store.categoryRows tenant).mergeSort fun a b =>
        decide (a.createdAt ≤ b.createdAt)) := fun _ => rfl
  change (after.categoriesFor tenant).mapError StoreError.failed =
    (before.categoriesFor tenant).mapError StoreError.failed
  rw [hread, hread, hrows]

/-- A query for one organization finds rows of this organization. -/
theorem foundCategories_eq {query : Query CategorySort} (hquery : query.organizationId = some tenant)
    (store : Store) : store.foundCategories query =
      ((store.categoryRows tenant).filter fun row =>
        matchesCommon query row.name row.parentId row.isActive).mergeSort fun a b =>
          mayPrecede query.sortOrder (categoryColumn a query.sortBy, a.id)
            (categoryColumn b query.sortBy, b.id) := by
  have hmatches : matchesCategory query = fun row =>
      matchesCommon query row.name row.parentId row.isActive &&
        (row.organizationId == tenant.text) := by
    funext row
    rw [matchesCategory, hquery, Bool.and_comm]
    rfl
  rw [foundCategories, categoryRows, List.filter_filter, hmatches]

theorem answer_listCategories_eq {query : Query CategorySort}
    (hquery : query.organizationId = some tenant)
    (hrows : after.categoryRows tenant = before.categoryRows tenant) :
    (after.answer (.listCategories query)).1 = (before.answer (.listCategories query)).1 := by
  change (after.listCategories query).mapError StoreError.failed =
    (before.listCategories query).mapError StoreError.failed
  rw [listCategories, foundCategories_eq hquery, hrows, ← foundCategories_eq hquery]
  rfl

theorem findCategory?_of_mem {store : Store} {id : Uuid}
    (hnodup : (store.categories.map CategoryRow.id).Nodup) {row : CategoryRow}
    (hmem : row ∈ store.categories) (hid : row.id = some id.text) :
    store.findCategory? id = some row := by
  have hsome : (store.findCategory? id).isSome := by
    rw [findCategory?, List.find?_isSome]
    exact ⟨row, hmem, by simpa using hid⟩
  obtain ⟨found, hfound⟩ := Option.isSome_iff_exists.1 hsome
  have hkey : found.id = some id.text := by simpa using List.find?_some hfound
  rw [hfound, List.inj_on_of_nodup_map hnodup (List.mem_of_find?_eq_some hfound) hmem
    (hkey.trans hid.symm)]

theorem answer_getCategory_eq {id : Uuid}
    (hbefore : (before.categories.map CategoryRow.id).Nodup)
    (hafter : (after.categories.map CategoryRow.id).Nodup)
    (hrows : after.categoryRows tenant = before.categoryRows tenant)
    (hassigned : before.Assigns tenant id) :
    (after.answer (.getCategory id)).1 = (before.answer (.getCategory id)).1 := by
  obtain ⟨row, hmem, hid⟩ := hassigned
  have hfirst := findCategory?_of_mem hbefore (List.mem_of_mem_filter hmem) hid
  rw [← hrows] at hmem
  have hsecond := findCategory?_of_mem hafter (List.mem_of_mem_filter hmem) hid
  change (after.getCategory id).mapError StoreError.failed =
    (before.getCategory id).mapError StoreError.failed
  rw [getCategory, getCategory, hfirst, hsecond]

end Store

theorem Criteria.organizationId_of_shape {κ : Type} [SortKey κ] {criteria : Criteria}
    {query : Query κ} (h : criteria.shape κ = .ok query) :
    query.organizationId = criteria.organizationId := (shape_eq_ok.1 h).scope.1

namespace Contents.Sound

variable {given more : List Uuid} {contents before after : Contents} {tenant : Uuid}

theorem nodup_rows (h : contents.Sound given) :
    (contents.store.categories.map CategoryRow.id).Nodup :=
  Store.nodup_map_key CategoryRow.ofCategory CategoryRow.id (fun _ => rfl) h.legal.categories_nodup

theorem getOrganization_of_row (h : contents.Sound given)
    (hthere : (contents.store.findOrganization? tenant).isSome) :
    ∃ organization, (contents.store.answer (.getOrganization tenant)).1 = .ok (some organization) := by
  rw [findOrganization?_store, Option.isSome_map] at hthere
  obtain ⟨stored, hstored⟩ := Option.isSome_iff_exists.1 hthere
  exact ⟨stored.toMicros, by rw [h.answer_getOrganization, hstored, Option.map_some]⟩

/-- A category that is assigned to an organization is read as one of this organization. -/
theorem organizationId_of_assigned (h : contents.Sound given) {id : Uuid} {category : Category}
    (hassigned : contents.store.Assigns tenant id)
    (hfound : (contents.store.answer (.getCategory id)).1 = .ok (some category)) :
    category.organizationId = tenant := by
  obtain ⟨row, hmem, hid⟩ := hassigned
  obtain ⟨hrow, howner⟩ := List.mem_filter.1 hmem
  obtain ⟨stored, hstored, _, _, rfl⟩ := category?_of_answer hfound
  have hsame := Store.findCategory?_of_mem h.nodup_rows hrow hid
  rw [findCategory?_store, hstored, Option.map_some] at hsame
  cases hsame
  simpa [CategoryRow.ofCategory, Category.toMicros] using howner

/-- Inquiries about the categories of an organization are told the same in two stores with the same
rows for it. -/
theorem outcome_eq (hbefore : before.Sound given) (hafter : after.Sound more)
    (hrows : after.store.categoryRows tenant = before.store.categoryRows tenant)
    (hthere : (before.store.findOrganization? tenant).isSome)
    (hstill : (after.store.findOrganization? tenant).isSome) {inquiry : Inquiry}
    (hregards : inquiry.Regards before.store tenant) :
    inquiry.outcome after.store = inquiry.outcome before.store := by
  have hfound : ∀ {id}, before.store.Assigns tenant id →
      (after.store.answer (.getCategory id)).1 = (before.store.answer (.getCategory id)).1 :=
    Store.answer_getCategory_eq hbefore.nodup_rows hafter.nodup_rows hrows
  have hall := Store.answer_categoriesFor_eq hrows
  cases inquiry with
  | category id => exact sameOutcome_getCategory (hfound hregards)
  | categories organizationId criteria =>
      cases hregards
      refine sameOutcome_bind rfl rfl rfl fun query hquery => sameOutcome_ask ?_
      exact Store.answer_listCategories_eq (Criteria.organizationId_of_shape hquery) hrows
  | categoryTree id =>
      refine sameOutcome_getCategory_bind (hfound hregards) fun root hroot => ?_
      cases hbefore.organizationId_of_assigned hregards hroot
      exact sameOutcome_ask_bind rfl hall fun all => rfl
  | categoryForest organizationId =>
      cases hregards
      obtain ⟨_, hfirst⟩ := hbefore.getOrganization_of_row hthere
      obtain ⟨_, hsecond⟩ := hafter.getOrganization_of_row hstill
      have hnext : SameOutcome before.store after.store
          (ask (.categoriesFor tenant) >>= fun all => judge (Tree.forestOfItems all)) :=
        sameOutcome_ask_bind rfl hall fun all => rfl
      change SameOutcome before.store after.store (Service.categoryForest tenant)
      rw [SameOutcome, Service.categoryForest, perform_bind (perform_getOrganization hfirst),
        perform_bind (perform_getOrganization hsecond)]
      exact hnext
  | categoryPath id =>
      refine sameOutcome_getCategory_bind (hfound hregards) fun category hcategory => ?_
      cases hbefore.organizationId_of_assigned hregards hcategory
      exact sameOutcome_ask_bind rfl hall fun all => rfl
  | _ => cases hregards

end Contents.Sound

/-! ### Runs -/

/-- A request with a new id that does not meddle leaves the rows of an organization, and the
organization itself. -/
theorem Contents.Sound.serve_apart {given : List Uuid} {contents : Contents}
    (h : contents.Sound given) {request : Request}
    (hnew : ∀ id, request.generated? = some id → id ∉ given) {tenant : Uuid}
    (hthere : (contents.store.findOrganization? tenant).isSome)
    (hapart : ¬request.Meddles contents.store tenant) :
    (request.serve contents.store).2.categoryRows tenant = contents.store.categoryRows tenant ∧
      ((request.serve contents.store).2.findOrganization? tenant).isSome := by
  have hdelivers := request.delivers contents.store
  rcases hserve : request.serve contents.store with ⟨outcome, after⟩
  cases outcome with
  | error error =>
      cases hdelivers.unchanged error after hserve
      exact ⟨rfl, hthere⟩
  | ok reply =>
      have hunused : ∀ id, request.generated? = some id →
          contents.organization? id = none ∧ contents.category? id = none := by
        intro id hid
        rw [Contents.organization?_eq_none, Contents.category?_eq_none]
        exact ⟨fun hmem => hnew id hid (h.organization_given hmem),
          fun hmem => hnew id hid (h.category_given hmem)⟩
      have htouches := (hdelivers.done reply after hserve).touches h.legal.organizations_nodup
        h.legal.categories_nodup hunused
      exact ⟨htouches.categoryRows hapart, htouches.organization_kept hapart hthere⟩

/-- A listing for an organization returns categories of this organization. -/
theorem Contents.Sound.listed_categories {given : List Uuid} {contents : Contents}
    (h : contents.Sound given) {tenant : Uuid} {criteria : Criteria} {found : List Category}
    (hfound : (Inquiry.categories tenant criteria).outcome contents.store = .ok found) :
    ∀ category ∈ found, category.organizationId = tenant := by
  have hensures : Ensures contents.store (fun found _ => ∃ query : Query CategorySort,
      query.organizationId = some tenant ∧
        (contents.store.answer (.listCategories query)).1 = .ok found)
      (listCategories tenant criteria) :=
    ensures_judge_bind fun query hquery found after hrun =>
      ⟨query, Criteria.organizationId_of_shape hquery, congrArg Prod.fst (perform_ask_eq_ok hrun)⟩
  obtain ⟨query, hquery, hanswer⟩ := hensures found _ (Prod.ext hfound rfl)
  obtain ⟨listed, hlisted, hpage⟩ := Contents.listCategories_store h.categories_plain query
  have hsame : Except.mapError StoreError.failed (contents.store.listCategories query) =
      .ok found := hanswer
  rw [hlisted] at hsame
  cases hsame
  intro category hmem
  have hrow : CategoryRow.ofCategory category ∈ found.map .ofCategory := List.mem_map_of_mem hmem
  rw [hpage, Store.foundCategories_eq hquery] at hrow
  have hsorted := List.mem_mergeSort.1 (List.mem_of_mem_drop (List.mem_of_mem_take hrow))
  have howner := (List.mem_filter.1 (List.mem_of_mem_filter hsorted)).2
  simpa [CategoryRow.ofCategory] using howner

/-- Whatever requests have been served from the empty store on, with new ids and a clock within the
years 0 to 9999. Inquiries about the categories of an organization are told the same before and after
one more request, unless it is made to change one of these categories or to delete the organization,
and the same before and after any other inquiry. A listing returns categories of the organization that
it is made for, whatever organization the criteria name. -/
theorem categories_isolated (requests : List Request)
    (hids : (requests.filterMap Request.generated?).Nodup)
    (hclock : ∀ now ∈ requests.filterMap Request.clock?, now.IsPlain) (tenant : Uuid) :
    let store := serveAll Store.empty requests
    (∀ request : Request, (∀ id, request.generated? = some id →
        id ∉ requests.filterMap Request.generated?) → request.IsPlain →
      (store.findOrganization? tenant).isSome → ¬request.Meddles store tenant →
      ∀ inquiry : Inquiry, inquiry.Regards store tenant →
        inquiry.outcome (request.serve store).2 = inquiry.outcome store) ∧
    (∀ inquiry other : Inquiry,
      inquiry.outcome (other.operation.perform Store.answer store).2 = inquiry.outcome store) ∧
    ∀ criteria : Criteria,
      (∀ found, (Inquiry.categories tenant criteria).outcome store = .ok found →
        ∀ category ∈ found, category.organizationId = tenant) ∧
      ∀ organizationId, (Inquiry.categories tenant { criteria with organizationId }).outcome store =
        (Inquiry.categories tenant criteria).outcome store := by
  intro store
  obtain ⟨contents, hstore, hsound⟩ := serveAll_sound requests .empty hids
    (fun _ _ => List.not_mem_nil) hclock
  rw [List.append_nil] at hsound
  refine ⟨?_, fun inquiry other => ?_, fun criteria => ⟨fun found hfound => ?_, fun _ => rfl⟩⟩
  · intro request hnew hplain hthere hapart inquiry hregards
    rw [show store = contents.store from hstore] at hthere hapart hregards ⊢
    obtain ⟨hrows, hstill⟩ := hsound.serve_apart hnew hthere hapart
    obtain ⟨after, hafter, hsafe⟩ := Request.serve_sound hplain hnew hsound
    rw [hafter] at hrows hstill ⊢
    exact hsound.outcome_eq hsafe hrows hthere hstill hregards
  · rw [other.perform_eq]
  · rw [show store = contents.store from hstore] at hfound
    exact hsound.listed_categories hfound

/-- Two organizations are created, and a category in the first of them. -/
def Request.twoDesks : List Request :=
  [.createOrganization ⟨.ofSeconds 60, .small 1⟩ ⟨"Desk", "", none⟩,
    .createOrganization ⟨.ofSeconds 61, .small 2⟩ ⟨"Branch", "", none⟩,
    .createCategory ⟨.ofSeconds 62, .small 3⟩ (.small 1) ⟨"Mail", "", none⟩]

/-- A category of the same name that is created in the second organization is not seen in the first. -/
theorem categories_isolated_twoDesks :
    let store := serveAll Store.empty Request.twoDesks
    let request := Request.createCategory ⟨.ofSeconds 63, .small 4⟩ (.small 2) ⟨"Mail", "", none⟩
    store.Assigns (.small 1) (.small 3) ∧ (request.serve store).1.isOk = true ∧
      (∀ inquiry : Inquiry, inquiry.Regards store (.small 1) →
        inquiry.outcome (request.serve store).2 = inquiry.outcome store) := by
  intro store request
  have hassigned : ∃ row ∈ store.categoryRows (.small 1), row.id = some (Uuid.small 3).text := by
    decide +kernel
  have hapart : ¬request.Meddles store (.small 1) := show Uuid.small 2 ≠ .small 1 by decide
  refine ⟨hassigned, by decide +kernel, ?_⟩
  refine (categories_isolated Request.twoDesks (by decide) (by decide) (.small 1)).1 request ?_ ?_
    (by decide +kernel) hapart
  · rintro _ ⟨⟩
    decide
  · rintro _ ⟨⟩
    decide

end ServiceDesk
