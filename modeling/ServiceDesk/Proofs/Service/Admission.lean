import ServiceDesk.Proofs.Hierarchy.Limits
import ServiceDesk.Proofs.Service.Serial
import ServiceDesk.Proofs.Store.Uniqueness

/-!
When creations and moves go through. Requests that are served one after another leave a store in
which every row can be read, no reference dangles and no name is taken twice. There a creation or a
move succeeds just if what it asks for is there and the store that it would leave is a legal one: its
checks refuse no more than that, and the constraints of the store refuse what they let through.
-/

namespace ServiceDesk

open Hierarchy Service

/-! ### Orderly contents -/

/-- Sound contents in which no reference dangles and no name is taken twice. -/
structure Contents.Orderly (given : List Uuid) (contents : Contents) : Prop where
  sound : contents.Sound given
  closed : contents.Closed fun _ => False
  distinct : contents.Distinct

theorem Contents.Orderly.empty : Orderly [] Contents.empty where
  sound := .empty
  closed := .empty
  distinct := .empty

/-- Serving one request with a new id keeps the contents orderly. -/
theorem Request.serve_orderly {request : Request} {given : List Uuid} {contents : Contents}
    (hclock : request.IsPlain) (hnew : ∀ id, request.generated? = some id → id ∉ given)
    (h : contents.Orderly given) : ∃ after : Contents,
      (request.serve contents.store).2 = after.store ∧
        after.Orderly (request.generated?.toList ++ given) := by
  obtain ⟨after, hafter, rfl | ⟨past, call, hallows, hfits, hcall⟩⟩ :=
    request.serve_becomes contents
  · exact ⟨after, hafter, h.sound.mono (List.subset_append_right _ _), h.closed, h.distinct⟩
  · exact ⟨after, hafter, hallows.sound hclock hnew h.sound hfits hcall,
      hcall.closed h.closed fun _ _ hlost => hlost,
      hcall.distinct h.closed (fun _ _ hlost => hlost) h.distinct⟩

/-- A run from the empty store on leaves orderly contents with ids that were given away in it. -/
theorem serveAll_orderly (requests : List Request)
    (hids : (requests.filterMap Request.generated?).Nodup)
    (hclock : ∀ now ∈ requests.filterMap Request.clock?, now.IsPlain) :
    ∃ (given : List Uuid) (contents : Contents), serveAll Store.empty requests = contents.store ∧
      contents.Orderly given ∧ given ⊆ requests.filterMap Request.generated? :=
  serveAll_empty_induction requests hids hclock Contents.Orderly.empty
    fun _ _ _ hplain hnew horderly => Request.serve_orderly hplain hnew horderly

/-! ### The same contents with another parent -/

namespace Contents

/-- The contents in which one organization has another parent and nothing else is changed. -/
def hangOrganization (contents : Contents) (id : Uuid) (parentId : Option Uuid) : Contents :=
  { contents with
    organizations := contents.organizations.map fun organization =>
      if organization.id = id then { organization with parentId } else organization }

def hangCategory (contents : Contents) (id : Uuid) (parentId : Option Uuid) : Contents :=
  { contents with
    categories := contents.categories.map fun category =>
      if category.id = id then { category with parentId } else category }

/-- To change the only entity of an id is to put the changed one in its place. -/
theorem map_eq_put {α : Type} [Nested α] {items : List α} (hnodup : (items.map Nested.id).Nodup)
    {item : α} (hmem : item ∈ items) (change : α → α)
    (hchange : Nested.id (change item) = Nested.id item) :
    items.map (fun other => if Nested.id other = Nested.id item then change other else other) =
      put items (change item) := by
  rw [put, hchange, if_pos (List.mem_map_of_mem hmem)]
  apply List.map_congr_left
  intro other hother
  split
  · rename_i hid
    rw [List.inj_on_of_nodup_map hnodup hother hmem hid]
  · rfl

variable {contents : Contents} {parentId : Option Uuid}

theorem linksOf_hangOrganization {stored : Organization} (hmem : stored ∈ contents.organizations)
    (hnodup : (contents.organizations.map Nested.id).Nodup) :
    linksOf (contents.hangOrganization stored.id parentId).organizations =
      Lineage.relink (linksOf contents.organizations) stored.id parentId := by
  have hput := map_eq_put hnodup hmem (fun organization => { organization with parentId }) rfl
  exact (congrArg linksOf hput).trans (linksOf_put _ _)

theorem hangCategory_eq_put {stored : Category} (hmem : stored ∈ contents.categories)
    (hnodup : (contents.categories.map Nested.id).Nodup) :
    (contents.hangCategory stored.id parentId).categories =
      put contents.categories { stored with parentId } :=
  map_eq_put hnodup hmem (fun category => { category with parentId }) rfl

theorem linksOf_hangCategory {stored : Category} (hmem : stored ∈ contents.categories)
    (hnodup : (contents.categories.map Nested.id).Nodup) (parentId : Option Uuid) :
    linksOf (contents.hangCategory stored.id parentId).categories =
      Lineage.relink (linksOf contents.categories) stored.id parentId := by
  rw [hangCategory_eq_put hmem hnodup]
  exact linksOf_put _ _

/-- The links of all categories form a forest after a change if those of the organization do. -/
theorem Legal.relink_categories (h : contents.Legal) {stored : Category}
    (hmem : stored ∈ contents.categories)
    (hforest : Forest (Lineage.relink (linksOf (contents.categoriesOf stored.organizationId))
      stored.id parentId)) :
    Forest (Lineage.relink (linksOf contents.categories) stored.id parentId) := by
  have hsame : ∀ other ∈ contents.categories, other.id = stored.id →
      other.organizationId = stored.organizationId := by
    intro other hother hid
    rw [List.inj_on_of_nodup_map h.categories_nodup hother hmem hid]
  have hput : (contents.putCategory { stored with parentId }).Legal := h.putCategory hsame hforest
  have hlinks := hput.forest_categories
  rwa [Contents.putCategory, linksOf_put, mergeCategory_id, mergeCategory_parentId] at hlinks

end Contents

/-! ### What goes through -/

namespace Contents.Sound

open Operation

variable {β : Type} {given : List Uuid} {contents : Contents} {id : Uuid}

theorem succeeds_getOrganization_bind (h : Sound given contents)
    {next : Organization → Operation β} :
    Succeeds contents.store (getOrganization id >>= next) ↔ ∃ stored,
      contents.organization? id = some stored ∧ Succeeds contents.store (next stored.toMicros) := by
  rw [Service.succeeds_getOrganization_bind (h.answer_getOrganization id)]
  simp [Option.map_eq_some_iff]

theorem succeeds_getCategory_bind (h : Sound given contents) {next : Category → Operation β} :
    Succeeds contents.store (getCategory id >>= next) ↔ ∃ stored,
      contents.category? id = some stored ∧ Succeeds contents.store (next stored.toMicros) := by
  rw [Service.succeeds_getCategory_bind (h.answer_getCategory id)]
  simp [Option.map_eq_some_iff]

end Contents.Sound

namespace Contents.Orderly

open Operation

variable {given : List Uuid} {contents : Contents} {id : Uuid}

theorem succeeds_saveOrganization (h : Orderly given contents) (organization : Organization) :
    Succeeds contents.store (ask (.saveOrganization organization) >>= fun _ => pure organization) ↔
      contents.AdmitsOrganization organization := by
  have hsave : ∀ next, contents.store.saveOrganization organization = .ok next ↔ _ :=
    fun _ => h.closed.saveOrganization_eq_ok id
  rw [succeeds_ask_pure, Store.answer]
  cases hresult : contents.store.saveOrganization organization with
  | ok next => exact iff_of_true rfl ((hsave next).1 hresult).1
  | error violation =>
      refine iff_of_false nofun fun hadmits => ?_
      cases hresult.symm.trans ((hsave _).2 ⟨hadmits, rfl⟩)

theorem succeeds_saveCategory (h : Orderly given contents) (category : Category) :
    Succeeds contents.store (ask (.saveCategory category) >>= fun _ => pure category) ↔
      contents.AdmitsCategory category := by
  have hsave : ∀ next, contents.store.saveCategory category = .ok next ↔ _ :=
    fun _ => h.closed.saveCategory_eq_ok
  rw [succeeds_ask_pure, Store.answer]
  cases hresult : contents.store.saveCategory category with
  | ok next => exact iff_of_true rfl ((hsave next).1 hresult).1
  | error violation =>
      refine iff_of_false nofun fun hadmits => ?_
      cases hresult.symm.trans ((hsave _).2 ⟨hadmits, rfl⟩)

theorem found_in_iff (h : Orderly given contents) {organizationId : Uuid} :
    (∃ stored, contents.category? id = some stored ∧ stored.organizationId = organizationId) ↔
      id ∈ (contents.categoriesOf organizationId).map Nested.id := by
  rw [List.mem_map]
  refine exists_congr fun stored => ?_
  rw [category?_eq_some h.closed.categories_nodup, categoriesOf, List.mem_filter, decide_eq_true_eq]
  exact and_right_comm

/-- An organization that is saved after a check of all organizations. -/
theorem succeeds_checked_organization (h : Orderly given contents) (organization : Organization)
    (check : List Organization → Except DeskError Unit) :
    Succeeds contents.store (ask .allOrganizations >>= fun all => judge (check all) >>= fun _ =>
      ask (.saveOrganization organization) >>= fun _ => pure organization) ↔
      check ((byCreation contents.organizations).map Organization.toMicros) = .ok () ∧
        contents.AdmitsOrganization organization := by
  rw [succeeds_read_bind rfl h.sound.answer_allOrganizations, succeeds_judge_bind]
  constructor
  · exact fun ⟨_, hcheck, hsave⟩ => ⟨hcheck, (h.succeeds_saveOrganization _).1 hsave⟩
  · exact fun ⟨hcheck, hadmits⟩ => ⟨(), hcheck, (h.succeeds_saveOrganization _).2 hadmits⟩

theorem checkTenant_eq_ok {category parent : Category} :
    checkTenant category parent = .ok () ↔ parent.organizationId = category.organizationId := by
  simp [checkTenant, Category.belongsTo]

/-- A category that is saved after a look at its parent and a check of all categories of its
organization. -/
theorem succeeds_checked_category (h : Orderly given contents) (category : Category) (parent : Uuid)
    (check : List Category → Except DeskError Unit) :
    Succeeds contents.store (getCategory parent >>= fun above =>
      judge (checkTenant category above) >>= fun _ =>
        ask (.categoriesFor category.organizationId) >>= fun all => judge (check all) >>= fun _ =>
          ask (.saveCategory category) >>= fun _ => pure category) ↔
      parent ∈ (contents.categoriesOf category.organizationId).map Nested.id ∧
        check ((categoriesByCreation (contents.categoriesOf category.organizationId)).map
          Category.toMicros) = .ok () ∧ contents.AdmitsCategory category := by
  have hanswer := h.sound.answer_categoriesFor category.organizationId
  constructor
  · intro hsucceeds
    obtain ⟨above, habove, hrest⟩ := h.sound.succeeds_getCategory_bind.1 hsucceeds
    obtain ⟨_, htenant, hrest⟩ := succeeds_judge_bind.1 hrest
    obtain ⟨_, hcheck, hsave⟩ := succeeds_judge_bind.1 ((succeeds_read_bind rfl hanswer).1 hrest)
    have hparent := h.found_in_iff.1 ⟨above, habove, checkTenant_eq_ok.1 htenant⟩
    exact ⟨hparent, hcheck, (h.succeeds_saveCategory _).1 hsave⟩
  · rintro ⟨hparent, hcheck, hadmits⟩
    obtain ⟨above, habove, howner⟩ := h.found_in_iff.2 hparent
    refine h.sound.succeeds_getCategory_bind.2 ⟨above, habove, ?_⟩
    refine succeeds_judge_bind.2 ⟨(), checkTenant_eq_ok.2 howner, ?_⟩
    refine (succeeds_read_bind rfl hanswer).2 (succeeds_judge_bind.2 ⟨(), hcheck, ?_⟩)
    exact (h.succeeds_saveCategory _).2 hadmits

/-- A stored organization with another parent is admitted just if the parent is another one. -/
theorem admits_moved_organization (h : Orderly given contents) {stored : Organization}
    (hmem : stored ∈ contents.organizations) (moved : Organization) (hid : moved.id = stored.id)
    (hname : moved.name = stored.name) (hdomain : moved.domain = stored.domain) :
    contents.AdmitsOrganization moved ↔ ∀ parent, moved.parentId = some parent →
      parent ≠ stored.id ∧ parent ∈ contents.organizations.map Nested.id := by
  rw [admitsOrganization_iff, hid]
  refine ⟨And.left, fun hparent => ⟨hparent, fun other hother hne => ?_⟩⟩
  have hdiffers := h.distinct.organizations other hother stored hmem hne
  rw [Organization.Differs, hname, hdomain]
  exact hdiffers

/-- The check of a move tells whether the forest that the move leaves stays within its limits. -/
theorem checkMove_organizations_iff (h : Orderly given contents) {stored : Organization}
    (hmem : stored ∈ contents.organizations) {parent : Uuid}
    (hparent : parent ∈ contents.organizations.map Nested.id) :
    checkMove (Lineage.ofItems ((byCreation contents.organizations).map Organization.toMicros))
        stored.id parent = .ok () ↔
      Bounded (linksOf (contents.hangOrganization stored.id (some parent)).organizations) := by
  have hforest := h.sound.legal.organizations
  have hperm := allOrganizations_answer h.sound.answer_allOrganizations
  rw [← keys_linksOf] at hparent
  rw [linksOf_hangOrganization hmem h.closed.organizations_nodup]
  exact checkMove_iff hforest (links_ofItems_perm hforest hperm) hparent

/-- An organization can be moved just if it is there, its new parent is, and the forest stays within
its limits. -/
theorem moveOrganization_iff (h : Orderly given contents) (stamp : Stamp) (id : Uuid)
    (parentId : Option Uuid) :
    Succeeds contents.store (moveOrganization stamp id parentId) ↔
      id ∈ contents.organizations.map Nested.id ∧
      (∀ parent, parentId = some parent → parent ∈ contents.organizations.map Nested.id) ∧
      Bounded (linksOf (contents.hangOrganization id parentId).organizations) := by
  rw [← organization?_isSome, Option.isSome_iff_exists, ← exists_and_right]
  refine succeeds_holding.trans (h.sound.succeeds_getOrganization_bind.trans ?_)
  refine exists_congr fun stored => and_congr_right fun hfound => ?_
  obtain ⟨hmem, rfl⟩ := (organization?_eq_some h.closed.organizations_nodup).1 hfound
  cases parentId with
  | none =>
      have hadmits := (h.admits_moved_organization hmem (stored.toMicros.moveToRoot stamp.now)
        rfl rfl rfl).2 fun _ hnone => nomatch hnone
      refine (h.succeeds_saveOrganization _).trans (iff_of_true hadmits ⟨nofun, ?_⟩)
      rw [linksOf_hangOrganization hmem h.closed.organizations_nodup]
      exact (h.sound.legal.organizations.uproot stored.id).bounded
  | some parent =>
      have hadmits := h.admits_moved_organization hmem
        ({ stored.toMicros with parentId := some parent }.touch stamp.now) rfl rfl rfl
      have hrest := h.succeeds_checked_organization
        ({ stored.toMicros with parentId := some parent }.touch stamp.now)
        fun all => checkMove (Lineage.ofItems all) stored.id parent
      refine succeeds_judge_bind.trans ⟨?_, ?_⟩
      · rintro ⟨moved, hmoved, hsucceeds⟩
        cases Organization.changeParent_eq_ok hmoved
        obtain ⟨hcheck, hsaved⟩ := hrest.1 hsucceeds
        obtain ⟨_, hparent⟩ := hadmits.1 hsaved parent rfl
        exact ⟨fun _ heq => Option.some.inj heq ▸ hparent,
          (h.checkMove_organizations_iff hmem hparent).1 hcheck⟩
      · rintro ⟨hparents, hbounded⟩
        have hparent := hparents parent rfl
        have hcheck := (h.checkMove_organizations_iff hmem hparent).2 hbounded
        rw [linksOf_hangOrganization hmem h.closed.organizations_nodup] at hbounded
        refine ⟨_, if_neg fun hself => hbounded.ne (Option.some.inj hself),
          hrest.2 ⟨hcheck, hadmits.2 fun _ heq => ?_⟩⟩
        cases heq
        exact ⟨hbounded.ne, hparent⟩

theorem notMem_organizations (h : Orderly given contents) (hnew : id ∉ given) :
    id ∉ keys (linksOf contents.organizations) := by
  rw [keys_linksOf]
  intro hmem
  obtain ⟨other, hother, rfl⟩ := List.mem_map.1 hmem
  exact hnew (h.sound.organizations_given other hother)

theorem notMem_categories (h : Orderly given contents) (hnew : id ∉ given) :
    id ∉ keys (linksOf contents.categories) := by
  rw [keys_linksOf]
  intro hmem
  obtain ⟨other, hother, rfl⟩ := List.mem_map.1 hmem
  exact hnew (h.sound.categories_given other hother)

theorem notMem_categoriesOf (h : Orderly given contents) (hnew : id ∉ given)
    (organizationId : Uuid) : id ∉ keys (linksOf (contents.categoriesOf organizationId)) := by
  intro hmem
  refine h.notMem_categories hnew ?_
  rw [keys_linksOf] at hmem ⊢
  exact List.map_subset _ (List.filter_subset_self _) hmem

/-- A new organization is admitted just if its parent is there and its name and domain are free. -/
theorem admits_new_organization (h : Orderly given contents) {organization : Organization}
    (hnew : organization.id ∉ given) : contents.AdmitsOrganization organization ↔
      (∀ parent, organization.parentId = some parent →
        parent ∈ contents.organizations.map Nested.id) ∧
      ∀ other ∈ contents.organizations, other.Differs organization := by
  have hfresh := h.notMem_organizations hnew
  rw [keys_linksOf] at hfresh
  rw [admitsOrganization_iff]
  constructor
  · rintro ⟨hparent, hdiffers⟩
    refine ⟨fun parent hsome => (hparent parent hsome).2, fun other hmem => hdiffers other hmem ?_⟩
    exact fun heq => hfresh (heq ▸ List.mem_map_of_mem hmem)
  · rintro ⟨hparent, hdiffers⟩
    refine ⟨fun parent hsome => ⟨?_, hparent parent hsome⟩, fun other hmem _ => hdiffers other hmem⟩
    rintro rfl
    exact hfresh (hparent _ hsome)

/-- The check of the depth below a known parent tells whether it is above the last level. -/
theorem checkDepth_organizations_iff (h : Orderly given contents) (hnew : id ∉ given)
    (parent : Uuid) : (parent ∈ contents.organizations.map Nested.id ∧
      (Lineage.ofItems ((byCreation contents.organizations).map Organization.toMicros)).checkDepth
        id (some parent) = .ok ()) ↔
      ∃ level < maxDepth, Level (linksOf contents.organizations) parent level := by
  have hforest := h.sound.legal.organizations
  have hperm := allOrganizations_answer h.sound.answer_allOrganizations
  rw [← keys_linksOf]
  exact checkDepth_new_iff hforest (links_ofItems_perm hforest hperm)
    (h.notMem_organizations hnew) parent

theorem checkDepth_categories_iff (h : Orderly given contents) (hnew : id ∉ given)
    (organizationId parent : Uuid) :
    (parent ∈ (contents.categoriesOf organizationId).map Nested.id ∧
      (Lineage.ofItems ((categoriesByCreation (contents.categoriesOf organizationId)).map
        Category.toMicros)).checkDepth id (some parent) = .ok ()) ↔
      ∃ level < maxDepth, Level (linksOf (contents.categoriesOf organizationId)) parent level := by
  have hforest := h.sound.legal.categories organizationId
  have hperm := categoriesFor_answer (h.sound.answer_categoriesFor organizationId)
  rw [← keys_linksOf]
  exact checkDepth_new_iff hforest (links_ofItems_perm hforest hperm)
    (h.notMem_categoriesOf hnew organizationId) parent

/-- An organization can be created just if its input makes one, its parent is there and not on the
last level, and no other one has taken its name or its domain. -/
theorem succeeds_createOrganization (h : Orderly given contents) (stamp : Stamp)
    (input : NewOrganization) (hnew : stamp.id ∉ given) :
    Succeeds contents.store (createOrganization stamp input) ↔ ∃ organization,
      Organization.ofInput stamp.id input.name input.domain input.parentId stamp.now =
        .ok organization ∧
      (∀ parent, input.parentId = some parent →
        ∃ level < maxDepth, Level (linksOf contents.organizations) parent level) ∧
      ∀ other ∈ contents.organizations, other.Differs organization := by
  refine succeeds_judge_bind.trans
    (exists_congr fun organization => and_congr_right fun hinput => succeeds_holding.trans ?_)
  obtain ⟨hid, hparent, _, _⟩ := Organization.ofInput_eq_ok hinput
  have hadmits := h.admits_new_organization (hid ▸ hnew)
  rw [hparent] at hadmits
  cases hsome : input.parentId with
  | none =>
      rw [hsome] at hadmits
      refine (h.succeeds_saveOrganization organization).trans (hadmits.trans ?_)
      exact and_congr_left fun _ => iff_of_true nofun nofun
  | some parent =>
      rw [hsome] at hadmits
      have hroom := h.checkDepth_organizations_iff hnew parent
      have hrest := h.succeeds_checked_organization organization
        fun all => (Lineage.ofItems all).checkDepth organization.id (some parent)
      refine h.sound.succeeds_getOrganization_bind.trans ⟨?_, ?_⟩
      · rintro ⟨above, hfound, hsucceeds⟩
        obtain ⟨hdepth, hsaved⟩ := hrest.1 hsucceeds
        obtain ⟨hknown, hdiffers⟩ := hadmits.1 hsaved
        refine ⟨fun _ heq => ?_, hdiffers⟩
        cases heq
        exact hroom.1 ⟨hknown parent rfl, hid ▸ hdepth⟩
      · rintro ⟨hlevels, hdiffers⟩
        obtain ⟨hknown, hdepth⟩ := hroom.2 (hlevels parent rfl)
        obtain ⟨above, hfound⟩ :=
          Option.isSome_iff_exists.1 ((contents.organization?_isSome parent).2 hknown)
        refine ⟨above, hfound, hrest.2 ⟨hid ▸ hdepth, hadmits.2 ⟨fun _ heq => ?_, hdiffers⟩⟩⟩
        cases heq
        exact hknown

/-- The same, told by the fields. -/
theorem createOrganization_iff (h : Orderly given contents) (stamp : Stamp)
    (input : NewOrganization) (hnew : stamp.id ∉ given) :
    Succeeds contents.store (createOrganization stamp input) ↔
      ∃ name domain, Rules.name input.name = .ok name ∧ Rules.domain input.domain = .ok domain ∧
        (∀ parent, input.parentId = some parent →
          ∃ level < maxDepth, Level (linksOf contents.organizations) parent level) ∧
        ∀ other ∈ contents.organizations,
          other.name ≠ name ∧ (domain.isSome → other.domain ≠ domain) := by
  refine (h.succeeds_createOrganization stamp input hnew).trans ⟨?_, ?_⟩
  · rintro ⟨organization, hinput, hlevels, hdiffers⟩
    obtain ⟨name, domain, hname, hdomain, _, rfl⟩ := Organization.ofInput_eq_ok_iff.1 hinput
    exact ⟨name, domain, hname, hdomain, hlevels, hdiffers⟩
  · rintro ⟨name, domain, hname, hdomain, hlevels, hdiffers⟩
    have hself : input.parentId ≠ some stamp.id := by
      intro hself
      obtain ⟨level, _, hlevel⟩ := hlevels stamp.id hself
      exact h.notMem_organizations hnew hlevel.mem_keys
    exact ⟨_, Organization.ofInput_eq_ok_iff.2 ⟨name, domain, hname, hdomain, hself, rfl⟩, hlevels,
      hdiffers⟩

/-- A stored category with another parent is admitted just if the parent is another one and the
category has no sibling of its name there. -/
theorem admits_moved_category (h : Orderly given contents) {stored : Category}
    (hmem : stored ∈ contents.categories) (moved : Category) (hid : moved.id = stored.id)
    (hname : moved.name = stored.name) : contents.AdmitsCategory moved ↔
      (∀ parent, moved.parentId = some parent →
        parent ≠ stored.id ∧ parent ∈ contents.categories.map Nested.id) ∧
      Apart Category.Differs (contents.hangCategory stored.id moved.parentId).categories := by
  have hstored : contents.category? moved.id = some stored :=
    (category?_eq_some h.closed.categories_nodup).2 ⟨hmem, hid.symm⟩
  have hknown : stored.id ∈ contents.categories.map Nested.id := List.mem_map_of_mem hmem
  rw [admitsCategory_iff, hangCategory_eq_put hmem h.closed.categories_nodup,
    apart_put Category.Differs.symm h.distinct.categories, mergeCategory, hstored, hid]
  simp only [Category.Differs, hname]
  exact and_congr_right fun _ => and_iff_right fun hnew => absurd hknown hnew

/-- The check of a move sees the categories of one organization only, and yet it tells whether the
forest of all categories stays within its limits. -/
theorem checkMove_categories_iff (h : Orderly given contents) {stored : Category}
    (hmem : stored ∈ contents.categories) {parent : Uuid}
    (hparent : parent ∈ (contents.categoriesOf stored.organizationId).map Nested.id) :
    checkMove (Lineage.ofItems ((categoriesByCreation
        (contents.categoriesOf stored.organizationId)).map Category.toMicros)) stored.id parent =
      .ok () ↔ Bounded (linksOf (contents.hangCategory stored.id (some parent)).categories) := by
  have hforest := h.sound.legal.categories stored.organizationId
  have hanswer := h.sound.answer_categoriesFor stored.organizationId
  have hperm := links_ofItems_perm hforest (categoriesFor_answer hanswer)
  have hsub : linksOf (contents.categoriesOf stored.organizationId) ⊆ linksOf contents.categories :=
    List.map_subset _ (List.filter_subset_self _)
  rw [← keys_linksOf] at hparent
  rw [linksOf_hangCategory hmem h.closed.categories_nodup]
  constructor
  · intro hcheck
    have hmoved := forest_of_checkMove hforest hperm.symm.subset hparent hcheck
    exact (h.sound.legal.relink_categories hmem hmoved).bounded
  · intro hbounded
    exact (checkMove_iff hforest hperm hparent).2 (hbounded.mono (relink_subset hsub _ _))

/-- A category can be moved just if it is there, its new parent is in its organization, the forest
stays within its limits and no two siblings get the same name. -/
theorem moveCategory_iff (h : Orderly given contents) (stamp : Stamp) (id : Uuid)
    (parentId : Option Uuid) :
    Succeeds contents.store (moveCategory stamp id parentId) ↔
      ∃ category ∈ contents.categories, category.id = id ∧
        (∀ parent, parentId = some parent →
          parent ∈ (contents.categoriesOf category.organizationId).map Nested.id) ∧
        Bounded (linksOf (contents.hangCategory id parentId).categories) ∧
        Apart Category.Differs (contents.hangCategory id parentId).categories := by
  refine succeeds_holding.trans (h.sound.succeeds_getCategory_bind.trans ?_)
  refine exists_congr fun stored => ?_
  rw [category?_eq_some h.closed.categories_nodup, and_assoc]
  refine and_congr_right fun hmem => and_congr_right ?_
  rintro rfl
  cases parentId with
  | none =>
      have hadmits := h.admits_moved_category hmem (stored.toMicros.moveToRoot stamp.now) rfl rfl
      have hbounded := (h.sound.legal.forest_categories.uproot stored.id).bounded
      rw [linksOf_hangCategory hmem h.closed.categories_nodup]
      refine (h.succeeds_saveCategory _).trans (hadmits.trans ⟨?_, ?_⟩)
      · exact fun ⟨_, hapart⟩ => ⟨nofun, hbounded, hapart⟩
      · exact fun ⟨_, _, hapart⟩ => ⟨nofun, hapart⟩
  | some parent =>
      have hadmits := h.admits_moved_category hmem
        ({ stored.toMicros with parentId := some parent }.touch stamp.now) rfl rfl
      have hrest := h.succeeds_checked_category
        ({ stored.toMicros with parentId := some parent }.touch stamp.now) parent
        fun all => checkMove (Lineage.ofItems all) stored.id parent
      refine succeeds_judge_bind.trans ⟨?_, ?_⟩
      · rintro ⟨moved, hmoved, hsucceeds⟩
        cases Category.changeParent_eq_ok hmoved
        obtain ⟨hparent, hcheck, hsaved⟩ := hrest.1 hsucceeds
        obtain ⟨_, hapart⟩ := hadmits.1 hsaved
        exact ⟨fun _ heq => Option.some.inj heq ▸ hparent,
          (h.checkMove_categories_iff hmem hparent).1 hcheck, hapart⟩
      · rintro ⟨hparents, hbounded, hapart⟩
        have hparent := hparents parent rfl
        have hcheck := (h.checkMove_categories_iff hmem hparent).2 hbounded
        rw [linksOf_hangCategory hmem h.closed.categories_nodup] at hbounded
        refine ⟨_, if_neg fun hself => hbounded.ne (Option.some.inj hself),
          hrest.2 ⟨hparent, hcheck, hadmits.2 ⟨fun _ heq => ?_, hapart⟩⟩⟩
        cases heq
        exact ⟨hbounded.ne, List.map_subset _ (List.filter_subset_self _) hparent⟩

/-- A new category is admitted just if its parent and its organization are there and its name is
free in its place. -/
theorem admits_new_category (h : Orderly given contents) {category : Category}
    (hnew : category.id ∉ given) : contents.AdmitsCategory category ↔
      (∀ parent, category.parentId = some parent → parent ∈ contents.categories.map Nested.id) ∧
      category.organizationId ∈ contents.organizations.map Nested.id ∧
      ∀ other ∈ contents.categories, other.Differs category := by
  have hfresh := h.notMem_categories hnew
  rw [keys_linksOf] at hfresh
  have hnone : contents.category? category.id = none := by
    rwa [category?_eq_none]
  rw [admitsCategory_iff, mergeCategory, hnone]
  constructor
  · rintro ⟨hparent, howner, hdiffers⟩
    refine ⟨fun parent hsome => (hparent parent hsome).2, howner hfresh,
      fun other hmem => hdiffers other hmem ?_⟩
    exact fun heq => hfresh (heq ▸ List.mem_map_of_mem hmem)
  · rintro ⟨hparent, howner, hdiffers⟩
    refine ⟨fun parent hsome => ⟨?_, hparent parent hsome⟩, fun _ => howner,
      fun other hmem _ => hdiffers other hmem⟩
    rintro rfl
    exact hfresh (hparent _ hsome)

/-- A category can be created just if its input makes one, its organization is there, its parent is
there in this organization and not on the last level, and no sibling has its name. -/
theorem succeeds_createCategory (h : Orderly given contents) (stamp : Stamp) (organizationId : Uuid)
    (input : NewCategory) (hnew : stamp.id ∉ given) :
    Succeeds contents.store (createCategory stamp organizationId input) ↔ ∃ category,
      Category.ofInput stamp.id organizationId input.name input.description input.parentId
        stamp.now = .ok category ∧
      organizationId ∈ contents.organizations.map Nested.id ∧
      (∀ parent, input.parentId = some parent → ∃ level < maxDepth,
        Level (linksOf (contents.categoriesOf organizationId)) parent level) ∧
      ∀ other ∈ contents.categories, other.Differs category := by
  refine succeeds_judge_bind.trans (exists_congr fun category => and_congr_right fun hinput => ?_)
  obtain ⟨hid, rfl, hparent, _, _⟩ := Category.ofInput_eq_ok hinput
  rw [← organization?_isSome, Option.isSome_iff_exists, ← exists_and_right]
  refine h.sound.succeeds_getOrganization_bind.trans
    (exists_congr fun owner => and_congr_right fun hfound => succeeds_holding.trans ?_)
  have hthere : category.organizationId ∈ contents.organizations.map Nested.id := by
    rw [← organization?_isSome, hfound]
    rfl
  have hadmits := h.admits_new_category (hid ▸ hnew)
  rw [hparent, and_iff_right hthere] at hadmits
  cases hsome : input.parentId with
  | none =>
      rw [hsome] at hadmits
      refine (h.succeeds_saveCategory category).trans (hadmits.trans ?_)
      exact and_congr_left fun _ => iff_of_true nofun nofun
  | some parent =>
      rw [hsome] at hadmits
      have hroom := h.checkDepth_categories_iff hnew category.organizationId parent
      refine (h.succeeds_checked_category category parent
        fun all => (Lineage.ofItems all).checkDepth category.id (some parent)).trans ⟨?_, ?_⟩
      · rintro ⟨hknown, hdepth, hsaved⟩
        obtain ⟨_, hdiffers⟩ := hadmits.1 hsaved
        refine ⟨fun _ heq => ?_, hdiffers⟩
        cases heq
        exact hroom.1 ⟨hknown, hid ▸ hdepth⟩
      · rintro ⟨hlevels, hdiffers⟩
        obtain ⟨hknown, hdepth⟩ := hroom.2 (hlevels parent rfl)
        refine ⟨hknown, hid ▸ hdepth, hadmits.2 ⟨fun _ heq => ?_, hdiffers⟩⟩
        cases heq
        exact List.map_subset _ (List.filter_subset_self _) hknown

/-- The same, told by the fields. -/
theorem createCategory_iff (h : Orderly given contents) (stamp : Stamp) (organizationId : Uuid)
    (input : NewCategory) (hnew : stamp.id ∉ given) :
    Succeeds contents.store (createCategory stamp organizationId input) ↔
      ∃ name description, Rules.name input.name = .ok name ∧
        Rules.description input.description = .ok description ∧
        Rules.tenant organizationId = .ok organizationId ∧
        organizationId ∈ contents.organizations.map Nested.id ∧
        (∀ parent, input.parentId = some parent → ∃ level < maxDepth,
          Level (linksOf (contents.categoriesOf organizationId)) parent level) ∧
        ∀ other ∈ contents.categoriesOf organizationId,
          other.parentId = input.parentId → other.name ≠ name := by
  refine (h.succeeds_createCategory stamp organizationId input hnew).trans ⟨?_, ?_⟩
  · rintro ⟨category, hinput, hthere, hlevels, hdiffers⟩
    obtain ⟨name, description, hname, hdescription, htenant, _, rfl⟩ :=
      Category.ofInput_eq_ok_iff.1 hinput
    refine ⟨name, description, hname, hdescription, htenant, hthere, hlevels, fun other hmem => ?_⟩
    obtain ⟨hmem, howner⟩ := List.mem_filter.1 hmem
    exact hdiffers other hmem (by simpa using howner)
  · rintro ⟨name, description, hname, hdescription, htenant, hthere, hlevels, hdiffers⟩
    have hself : input.parentId ≠ some stamp.id := by
      intro hself
      obtain ⟨level, _, hlevel⟩ := hlevels stamp.id hself
      exact h.notMem_categoriesOf hnew organizationId hlevel.mem_keys
    refine ⟨_, Category.ofInput_eq_ok_iff.2
      ⟨name, description, hname, hdescription, htenant, hself, rfl⟩, hthere, hlevels, ?_⟩
    intro other hmem howner
    exact hdiffers other (List.mem_filter.2 ⟨hmem, by simpa using howner⟩)

end Contents.Orderly

/-! ### Reachable stores -/

/-- What decides over creations and moves on a store. Creations have ids that are not used yet. -/
structure Contents.Decides (used : List Uuid) (contents : Contents) : Prop where
  /-- The organization and its new parent are there, and the forest stays within its limits. -/
  moveOrganization : ∀ stamp id parentId,
    ((Request.moveOrganization stamp id parentId).serve contents.store).1.isOk = true ↔
      id ∈ contents.organizations.map Nested.id ∧
      (∀ parent, parentId = some parent → parent ∈ contents.organizations.map Nested.id) ∧
      Bounded (linksOf (contents.hangOrganization id parentId).organizations)
  /-- The category is there and its new parent is in its organization, the forest stays within its
  limits, and no two siblings get the same name. -/
  moveCategory : ∀ stamp id parentId,
    ((Request.moveCategory stamp id parentId).serve contents.store).1.isOk = true ↔
      ∃ category ∈ contents.categories, category.id = id ∧
        (∀ parent, parentId = some parent →
          parent ∈ (contents.categoriesOf category.organizationId).map Nested.id) ∧
        Bounded (linksOf (contents.hangCategory id parentId).categories) ∧
        Apart Category.Differs (contents.hangCategory id parentId).categories
  /-- The fields are valid, the parent is there and not on the last level, and no other organization
  has the name or the domain. -/
  createOrganization : ∀ stamp input, stamp.id ∉ used →
    (((Request.createOrganization stamp input).serve contents.store).1.isOk = true ↔
      ∃ name domain, Rules.name input.name = .ok name ∧ Rules.domain input.domain = .ok domain ∧
        (∀ parent, input.parentId = some parent →
          ∃ level < maxDepth, Level (linksOf contents.organizations) parent level) ∧
        ∀ other ∈ contents.organizations,
          other.name ≠ name ∧ (domain.isSome → other.domain ≠ domain))
  /-- The fields are valid, the organization is there, the parent is there in this organization and
  not on the last level, and no sibling has the name. -/
  createCategory : ∀ stamp organizationId input, stamp.id ∉ used →
    (((Request.createCategory stamp organizationId input).serve contents.store).1.isOk = true ↔
      ∃ name description, Rules.name input.name = .ok name ∧
        Rules.description input.description = .ok description ∧
        Rules.tenant organizationId = .ok organizationId ∧
        organizationId ∈ contents.organizations.map Nested.id ∧
        (∀ parent, input.parentId = some parent → ∃ level < maxDepth,
          Level (linksOf (contents.categoriesOf organizationId)) parent level) ∧
        ∀ other ∈ contents.categoriesOf organizationId,
          other.parentId = input.parentId → other.name ≠ name)

theorem Contents.Orderly.decides {given used : List Uuid} {contents : Contents}
    (h : contents.Orderly given) (hsub : given ⊆ used) : contents.Decides used where
  moveOrganization stamp id parentId :=
    Operation.succeeds_map.trans (h.moveOrganization_iff stamp id parentId)
  moveCategory stamp id parentId :=
    Operation.succeeds_map.trans (h.moveCategory_iff stamp id parentId)
  createOrganization stamp input hnew :=
    Operation.succeeds_map.trans
      (h.createOrganization_iff stamp input fun hmem => hnew (hsub hmem))
  createCategory stamp organizationId input hnew :=
    Operation.succeeds_map.trans
      (h.createCategory_iff stamp organizationId input fun hmem => hnew (hsub hmem))

/-- Whatever requests have been served one after another from the empty store on, with new ids and a
clock within the years 0 to 9999: a creation or a move that is served next succeeds just if what it
asks for is there and it leaves a legal store. -/
theorem writes_succeed_iff_legal (requests : List Request)
    (hids : (requests.filterMap Request.generated?).Nodup)
    (hclock : ∀ now ∈ requests.filterMap Request.clock?, now.IsPlain) :
    ∃ contents : Contents, serveAll Store.empty requests = contents.store ∧
      contents.Decides (requests.filterMap Request.generated?) := by
  obtain ⟨given, contents, hstore, horderly, hsub⟩ := serveAll_orderly requests hids hclock
  exact ⟨contents, hstore, horderly.decides hsub⟩

/-- A run that leaves an organization with one category. There a second category of the same name is
refused, and one of another name is not. -/
theorem writes_succeed_iff_legal_mail :
    let stamp (number : Nat) : Stamp := ⟨.ofSeconds number, .small number⟩
    let store := serveAll Store.empty
      [.createOrganization (stamp 1) ⟨"Desk", "", none⟩,
        .createCategory (stamp 2) (stamp 1).id ⟨"Mail", "", none⟩]
    let filed (name : String) :=
      (Request.createCategory (stamp 3) (stamp 1).id ⟨name, "", none⟩).serve store
    (filed "Mail").1.isOk = false ∧ (filed "Chat").1.isOk = true ∧
      ∃ contents : Contents, store = contents.store ∧
        contents.Decides [.small 1, .small 2] := by
  intro stamp store filed
  refine ⟨by decide +kernel, by decide +kernel, ?_⟩
  exact writes_succeed_iff_legal _ (by decide) (by decide)

end ServiceDesk
