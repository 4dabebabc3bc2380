import ServiceDesk.Proofs.Hierarchy.Checks
import ServiceDesk.Proofs.Service.Protocol
import ServiceDesk.Proofs.Store.Contents
import ServiceDesk.Proofs.Text.NormalForms

/-!
What the writes of a request do to legal contents. A request knows the store by what it has read, so
its writes are judged against reads that were answered from contents with the same links as the ones
that are written to. Updates have to put back the parent that is stored.
-/

namespace ServiceDesk

open Hierarchy Service Time

/-! ### What a change leaves as it is -/

/-- Input makes an organization if its fields pass their rules and it is not its own parent. -/
theorem Organization.ofInput_eq_ok_iff {id : Uuid} {name domain : String} {parentId : Option Uuid}
    {now : Instant} {organization : Organization} :
    Organization.ofInput id name domain parentId now = .ok organization ↔
      ∃ normal host, Rules.name name = .ok normal ∧ Rules.domain domain = .ok host ∧
        parentId ≠ some id ∧ organization = ⟨id, normal, host, parentId, true, now, now⟩ := by
  rw [ofInput]
  simp only [bind_eq_ok]
  constructor
  · rintro ⟨normal, hname, host, hdomain, h⟩
    split at h
    · cases h
    · rename_i hself
      exact ⟨normal, host, hname, hdomain, hself, (Except.ok.inj h).symm⟩
  · rintro ⟨normal, host, hname, hdomain, hself, rfl⟩
    exact ⟨normal, hname, host, hdomain, if_neg hself⟩

theorem Category.ofInput_eq_ok_iff {id organizationId : Uuid} {name description : String}
    {parentId : Option Uuid} {now : Instant} {category : Category} :
    Category.ofInput id organizationId name description parentId now = .ok category ↔
      ∃ normal text, Rules.name name = .ok normal ∧ Rules.description description = .ok text ∧
        Rules.tenant organizationId = .ok organizationId ∧ parentId ≠ some id ∧
          category = ⟨id, organizationId, normal, text, parentId, true, now, now⟩ := by
  rw [ofInput]
  simp only [bind_eq_ok]
  constructor
  · rintro ⟨normal, hname, text, hdescription, owner, howner, h⟩
    cases (Rules.tenant_eq_ok howner).1
    split at h
    · cases h
    · rename_i hself
      exact ⟨normal, text, hname, hdescription, howner, hself, (Except.ok.inj h).symm⟩
  · rintro ⟨normal, text, hname, hdescription, howner, hself, rfl⟩
    exact ⟨normal, hname, text, hdescription, organizationId, howner, if_neg hself⟩

theorem Organization.ofInput_eq_ok {id : Uuid} {name domain : String} {parentId : Option Uuid}
    {now : Instant} {organization : Organization}
    (h : Organization.ofInput id name domain parentId now = .ok organization) :
    organization.id = id ∧ organization.parentId = parentId ∧ organization.createdAt = now ∧
      organization.updatedAt = now := by
  obtain ⟨normal, host, _, _, _, rfl⟩ := Organization.ofInput_eq_ok_iff.1 h
  exact ⟨rfl, rfl, rfl, rfl⟩

theorem Category.ofInput_eq_ok {id organizationId : Uuid} {name description : String}
    {parentId : Option Uuid} {now : Instant} {category : Category}
    (h : Category.ofInput id organizationId name description parentId now = .ok category) :
    category.id = id ∧ category.organizationId = organizationId ∧ category.parentId = parentId ∧
      category.createdAt = now ∧ category.updatedAt = now := by
  obtain ⟨normal, text, _, _, _, _, rfl⟩ := Category.ofInput_eq_ok_iff.1 h
  exact ⟨rfl, rfl, rfl, rfl, rfl⟩

theorem Organization.changeParent_eq_ok {stored organization : Organization}
    {parentId : Option Uuid} {now : Instant}
    (h : stored.changeParent parentId now = .ok organization) :
    organization = { stored with parentId }.touch now := by
  rw [changeParent] at h
  split at h
  · cases h
  · exact (Except.ok.inj h).symm

theorem Category.changeParent_eq_ok {stored category : Category} {parentId : Option Uuid}
    {now : Instant} (h : stored.changeParent parentId now = .ok category) :
    category = { stored with parentId }.touch now := by
  rw [changeParent] at h
  split at h
  · cases h
  · exact (Except.ok.inj h).symm

/-- One organization is another one after an update: it has the same id, parent and time of creation,
and its timestamps can still be read back if the clock shows a plain time. -/
structure Organization.Updates (now : Instant) (stored organization : Organization) : Prop where
  id : organization.id = stored.id
  parentId : organization.parentId = stored.parentId
  createdAt : organization.createdAt = stored.createdAt
  plain : now.IsPlain → stored.IsPlain → organization.IsPlain

structure Category.Updates (now : Instant) (stored category : Category) : Prop where
  id : category.id = stored.id
  organizationId : category.organizationId = stored.organizationId
  parentId : category.parentId = stored.parentId
  createdAt : category.createdAt = stored.createdAt
  plain : now.IsPlain → stored.IsPlain → category.IsPlain

theorem Organization.Updates.trans {now : Instant} {a b c : Organization} (hab : a.Updates now b)
    (hbc : b.Updates now c) : a.Updates now c where
  id := hbc.id.trans hab.id
  parentId := hbc.parentId.trans hab.parentId
  createdAt := hbc.createdAt.trans hab.createdAt
  plain hnow ha := hbc.plain hnow (hab.plain hnow ha)

theorem Category.Updates.trans {now : Instant} {a b c : Category} (hab : a.Updates now b)
    (hbc : b.Updates now c) : a.Updates now c where
  id := hbc.id.trans hab.id
  organizationId := hbc.organizationId.trans hab.organizationId
  parentId := hbc.parentId.trans hab.parentId
  createdAt := hbc.createdAt.trans hab.createdAt
  plain hnow ha := hbc.plain hnow (hab.plain hnow ha)

namespace Service

/-- A change that may be absent is related to what it changes as the change itself is. -/
theorem applying_eq_ok {α β : Type} {related : α → α → Prop} {change : Option β}
    {apply : α → β → Except DeskError α} {entity changed : α} (hself : related entity entity)
    (happly : ∀ value changed, apply entity value = .ok changed → related entity changed)
    (h : applying change apply entity = .ok changed) : related entity changed := by
  cases change with
  | none =>
      cases h
      exact hself
  | some value => exact happly value changed h

theorem changeOrganization_eq_ok {changes : OrganizationChanges} {now : Instant}
    {stored organization : Organization}
    (h : changeOrganization changes now stored = .ok organization) :
    stored.Updates now organization := by
  have hself : ∀ organization : Organization, organization.Updates now organization :=
    fun _ => ⟨rfl, rfl, rfl, fun _ hplain => hplain⟩
  obtain ⟨renamed, hrename, h⟩ := bind_eq_ok.1 h
  obtain ⟨moved, hdomain, hactive⟩ := bind_eq_ok.1 h
  have hrenamed : stored.Updates now renamed := by
    refine applying_eq_ok (hself stored) ?_ hrename
    intro name changed hchange
    obtain ⟨normal, _, hchange⟩ := bind_eq_ok.1 hchange
    cases hchange
    exact ⟨rfl, rfl, rfl, fun hnow hplain => ⟨hplain.1, hplain.2.latest hnow⟩⟩
  have hmoved : renamed.Updates now moved := by
    refine applying_eq_ok (hself renamed) ?_ hdomain
    intro domain changed hchange
    obtain ⟨normal, _, hchange⟩ := bind_eq_ok.1 hchange
    cases hchange
    exact ⟨rfl, rfl, rfl, fun hnow hplain => ⟨hplain.1, hplain.2.latest hnow⟩⟩
  have hset : moved.Updates now organization := by
    refine applying_eq_ok (hself moved) ?_ hactive
    intro isActive changed hchange
    cases hchange
    exact ⟨rfl, rfl, rfl, fun hnow hplain => ⟨hplain.1, hplain.2.latest hnow⟩⟩
  exact (hrenamed.trans hmoved).trans hset

theorem changeCategory_eq_ok {changes : CategoryChanges} {now : Instant}
    {stored category : Category} (h : changeCategory changes now stored = .ok category) :
    stored.Updates now category := by
  have hself : ∀ category : Category, category.Updates now category :=
    fun _ => ⟨rfl, rfl, rfl, rfl, fun _ hplain => hplain⟩
  obtain ⟨renamed, hrename, h⟩ := bind_eq_ok.1 h
  obtain ⟨described, hdescribe, hactive⟩ := bind_eq_ok.1 h
  have hrenamed : stored.Updates now renamed := by
    refine applying_eq_ok (hself stored) ?_ hrename
    intro name changed hchange
    obtain ⟨normal, _, hchange⟩ := bind_eq_ok.1 hchange
    cases hchange
    exact ⟨rfl, rfl, rfl, rfl, fun hnow hplain => ⟨hplain.1, hplain.2.latest hnow⟩⟩
  have hdescribed : renamed.Updates now described := by
    refine applying_eq_ok (hself renamed) ?_ hdescribe
    intro description changed hchange
    obtain ⟨normal, _, hchange⟩ := bind_eq_ok.1 hchange
    cases hchange
    exact ⟨rfl, rfl, rfl, rfl, fun hnow hplain => ⟨hplain.1, hplain.2.latest hnow⟩⟩
  have hset : described.Updates now category := by
    refine applying_eq_ok (hself described) ?_ hactive
    intro isActive changed hchange
    cases hchange
    exact ⟨rfl, rfl, rfl, rfl, fun hnow hplain => ⟨hplain.1, hplain.2.latest hnow⟩⟩
  exact (hrenamed.trans hdescribed).trans hset

end Service

/-! ### What an answer tells about the contents -/

namespace Contents

variable {contents : Contents} {id : Uuid}

/-- An organization that is found is stored under its id, with more precise timestamps. -/
theorem organization?_of_answer {found : Organization}
    (h : (contents.store.answer (.getOrganization id)).1 = .ok (some found)) :
    ∃ stored, contents.organization? id = some stored ∧ stored.id = id ∧ stored.IsPlain ∧
      found = stored.toMicros := by
  change (contents.store.getOrganization id).mapError StoreError.failed = _ at h
  rw [getOrganization_store] at h
  cases hfound : contents.organization? id with
  | none => rw [hfound] at h; cases h
  | some stored =>
      rw [hfound] at h
      dsimp only at h
      split at h
      · rename_i hplain
        cases h
        exact ⟨stored, rfl, by simpa using List.find?_some hfound, hplain, rfl⟩
      · cases h

theorem category?_of_answer {found : Category}
    (h : (contents.store.answer (.getCategory id)).1 = .ok (some found)) :
    ∃ stored, contents.category? id = some stored ∧ stored.id = id ∧ stored.IsPlain ∧
      found = stored.toMicros := by
  change (contents.store.getCategory id).mapError StoreError.failed = _ at h
  rw [getCategory_store] at h
  cases hfound : contents.category? id with
  | none => rw [hfound] at h; cases h
  | some stored =>
      rw [hfound] at h
      dsimp only at h
      split at h
      · rename_i hplain
        cases h
        exact ⟨stored, rfl, by simpa using List.find?_some hfound, hplain, rfl⟩
      · cases h

theorem getOrganization_answer {stored : Organization}
    (h : (contents.store.answer (.getOrganization id)).1 = .ok (some stored)) :
    stored.id = id ∧ (id, stored.parentId) ∈ linksOf contents.organizations ∧ stored.IsPlain := by
  obtain ⟨held, hfound, hid, hplain, rfl⟩ := organization?_of_answer h
  have hmem : held ∈ contents.organizations := List.mem_of_find?_eq_some hfound
  exact ⟨hid, mem_linksOf.2 ⟨held, hmem, hid, rfl⟩, hplain.1.toMicros, hplain.2.toMicros⟩

theorem getCategory_answer {stored : Category}
    (h : (contents.store.answer (.getCategory id)).1 = .ok (some stored)) :
    stored.id = id ∧ (id, stored.parentId) ∈ linksOf (contents.categoriesOf stored.organizationId) ∧
      stored.IsPlain := by
  obtain ⟨held, hfound, hid, hplain, rfl⟩ := category?_of_answer h
  have hmem : held ∈ contents.categoriesOf held.organizationId :=
    List.mem_filter.2 ⟨List.mem_of_find?_eq_some hfound, by simp⟩
  exact ⟨hid, mem_linksOf.2 ⟨held, hmem, hid, rfl⟩, hplain.1.toMicros, hplain.2.toMicros⟩

theorem linksOf_toMicros (organizations : List Organization) :
    linksOf (organizations.map Organization.toMicros) = linksOf organizations := by
  rw [linksOf, linksOf, List.map_map]
  rfl

theorem linksOf_toMicros_categories (categories : List Category) :
    linksOf (categories.map Category.toMicros) = linksOf categories := by
  rw [linksOf, linksOf, List.map_map]
  rfl

theorem allOrganizations_answer {all : List Organization}
    (h : (contents.store.answer .allOrganizations).1 = .ok all) :
    (linksOf all).Perm (linksOf contents.organizations) := by
  change contents.store.allOrganizations.mapError StoreError.failed = _ at h
  rw [allOrganizations_store] at h
  split at h
  · cases h
    rw [linksOf_toMicros]
    exact (List.mergeSort_perm _ _).map _
  · cases h

theorem categoriesFor_answer {organizationId : Uuid} {all : List Category}
    (h : (contents.store.answer (.categoriesFor organizationId)).1 = .ok all) :
    (linksOf all).Perm (linksOf (contents.categoriesOf organizationId)) := by
  change (contents.store.categoriesFor organizationId).mapError StoreError.failed = _ at h
  rw [categoriesFor_store] at h
  split at h
  · cases h
    rw [linksOf_toMicros_categories]
    exact (List.mergeSort_perm _ _).map _
  · cases h

/-- Contents with the same links in one layout. -/
def SameLinks (layout : Layout) (a b : Contents) : Prop :=
  match layout with
  | .organizations => linksOf a.organizations = linksOf b.organizations
  | .categories => ∀ organizationId,
      linksOf (a.categoriesOf organizationId) = linksOf (b.categoriesOf organizationId)

theorem SameLinks.refl (layout : Layout) (contents : Contents) :
    SameLinks layout contents contents := by
  cases layout with
  | organizations => rfl
  | categories => exact fun _ => rfl

theorem SameLinks.trans {layout : Layout} {a b c : Contents} (hab : SameLinks layout a b)
    (hbc : SameLinks layout b c) : SameLinks layout a c := by
  cases layout with
  | organizations => exact Eq.trans hab hbc
  | categories => exact fun organizationId => (hab organizationId).trans (hbc organizationId)

/-- Saving an organization with the parent that is stored keeps the links. -/
theorem SameLinks.putOrganization (hlegal : contents.Legal) {organization : Organization}
    (hlink : (organization.id, organization.parentId) ∈ linksOf contents.organizations)
    (layout : Layout) : SameLinks layout contents (contents.putOrganization organization) := by
  cases layout with
  | organizations =>
      change linksOf _ = linksOf _
      rw [linksOf_putOrganization, relink_of_mem hlegal.organizations.nodup hlink]
  | categories => exact fun _ => rfl

theorem SameLinks.putCategory (hlegal : contents.Legal) {category : Category}
    (hlink : (category.id, category.parentId) ∈
      linksOf (contents.categoriesOf category.organizationId)) (layout : Layout) :
    SameLinks layout contents (contents.putCategory category) := by
  cases layout with
  | organizations => exact rfl
  | categories =>
      intro organizationId
      rw [linksOf_putCategory (hlegal.organizationId_of_mem (mem_keys_of_mem hlink))]
      split
      · rename_i heq
        subst heq
        rw [relink_of_mem (hlegal.categories _).nodup hlink]
      · rfl

end Contents

/-- A request to which the clock shows a year without a sign. -/
def Request.IsPlain (request : Request) : Prop :=
  ∀ now, request.clock? = some now → now.IsPlain

/-- An exchange that was answered from contents with the links of the present ones. -/
def Event.Fits (contents : Contents) : Event → Prop
  | .exchange call answer => ∃ old : Contents, (old.store.answer call).1 = answer ∧
      Contents.SameLinks call.layout old contents
  | _ => True

namespace Request.Allows

variable {request : Request} {past : List Event} {contents : Contents}

/-- A request with a lock writes under it, and to the table of the lock. -/
theorem held_of_write {call : Store.Call} (h : request.Allows past call)
    (hwrite : call.isWrite = true) {layout : Layout} (hlock : request.lock? = some layout) :
    held past = some layout ∧ call.layout = layout := by
  cases h with
  | look _ hread => cases hwrite.symm.trans hread
  | read _ _ _ hread => cases hwrite.symm.trans hread
  | tenant => cases hwrite
  | updateOrganization _ _ => cases hlock
  | updateCategory _ _ => cases hlock
  | deleteOrganization => cases hlock
  | deleteCategory => cases hlock
  | createOrganization hheld _ _ => cases hlock; exact ⟨hheld, rfl⟩
  | uprootOrganization hheld _ => cases hlock; exact ⟨hheld, rfl⟩
  | moveOrganization hheld _ _ _ _ => cases hlock; exact ⟨hheld, rfl⟩
  | createCategory hheld _ _ => cases hlock; exact ⟨hheld, rfl⟩
  | uprootCategory hheld _ => cases hlock; exact ⟨hheld, rfl⟩
  | moveCategory hheld _ _ _ _ => cases hlock; exact ⟨hheld, rfl⟩

theorem layout_of_read {call : Store.Call} (h : request.Allows past call)
    (hread : call.isWrite = false) (hlocks : request.lock?.isSome = true) {layout : Layout}
    (hheld : held past = some layout) : call.layout = layout := by
  cases h with
  | look hnone _ =>
      rw [hnone] at hlocks
      cases hlocks
  | read _ hother hlayout _ => exact hlayout.trans (Option.some.inj (hother.symm.trans hheld))
  | tenant => cases hheld
  | _ => cases hread

/-- What a creation or a move of an organization saves may be hung where it says, if the list that was
judged has all links and the parent has not gone since. -/
theorem graft_organization {organization : Organization} {links : Links}
    (h : request.Allows past (.saveOrganization organization))
    (hlock : request.lock? = some .organizations) (hforest : Forest links)
    (hlisted : ∀ all, .exchange .allOrganizations (.ok all) ∈ guarded past →
      (keys (linksOf all)).Nodup ∧ links ⊆ linksOf all ∧ ∀ parent,
        organization.parentId = some parent → parent ∈ keys (linksOf all) → parent ∈ keys links)
    (hfound : ∀ id stored, .exchange (.getOrganization id) (.ok (some stored)) ∈ guarded past →
      stored.id = id)
    (hfresh : ∀ id, request.generated? = some id → id ∉ keys links) :
    Forest (Lineage.relink links organization.id organization.parentId) := by
  cases h with
  | look _ hread => cases hread
  | read _ _ _ hread => cases hread
  | updateOrganization _ _ => cases hlock
  | createOrganization _ hinput hdepth =>
      obtain ⟨hid, hparent, _, _⟩ := Organization.ofInput_eq_ok hinput
      cases hparentId : organization.parentId with
      | none => exact hforest.uproot organization.id
      | some parent =>
          obtain ⟨all, hall, hroom⟩ := hdepth parent (hparent ▸ hparentId)
          obtain ⟨hnodup, hsub, hkept⟩ := hlisted all hall
          have hmem := hkept parent hparentId (parent_of_checkDepth hnodup hroom)
          have hnew : organization.id ∉ keys links := hid ▸ hfresh _ rfl
          exact forest_of_insertion hforest hnodup hsub hmem hnew hroom
  | uprootOrganization _ _ => exact hforest.uproot _
  | moveOrganization _ hstored hchange hall hcheck =>
      obtain ⟨hnodup, hsub, hkept⟩ := hlisted _ hall
      obtain ⟨_, _, hroom⟩ := bind_eq_ok.1 hcheck
      have hid := hfound _ _ hstored
      rw [Organization.changeParent_eq_ok hchange] at hkept ⊢
      have hmem := hkept _ rfl (parent_of_checkDepth hnodup hroom)
      rw [← hid] at hcheck
      exact forest_of_move hforest hnodup hsub hmem hcheck

/-- What a creation or a move of a category saves stays in its organization and may be hung where it
says, if the list that was judged has all links and the parent has not gone since. -/
theorem graft_category {category : Category} (h : request.Allows past (.saveCategory category))
    (hlock : request.lock? = some .categories)
    (hforest : ∀ organizationId, Forest (linksOf (contents.categoriesOf organizationId)))
    (hlisted : ∀ organizationId all, .exchange (.categoriesFor organizationId) (.ok all) ∈
      guarded past → (keys (linksOf all)).Nodup ∧
        linksOf (contents.categoriesOf organizationId) ⊆ linksOf all ∧ ∀ parent,
          category.parentId = some parent → parent ∈ keys (linksOf all) →
            parent ∈ keys (linksOf (contents.categoriesOf organizationId)))
    (hfound : ∀ id stored, .exchange (.getCategory id) (.ok (some stored)) ∈ guarded past →
      stored.id = id ∧ ∀ other ∈ contents.categories, other.id = id →
        other.organizationId = stored.organizationId)
    (hfresh : ∀ id, request.generated? = some id → id ∉ contents.categories.map Nested.id) :
    (∀ stored ∈ contents.categories, stored.id = category.id →
      stored.organizationId = category.organizationId) ∧
    Forest (Lineage.relink (linksOf (contents.categoriesOf category.organizationId)) category.id
      category.parentId) := by
  cases h with
  | look _ hread => cases hread
  | read _ _ _ hread => cases hread
  | updateCategory _ _ => cases hlock
  | createCategory _ hinput hdepth =>
      obtain ⟨hid, howner, hparent, _, _⟩ := Category.ofInput_eq_ok hinput
      have hnew : category.id ∉ contents.categories.map Nested.id := hid ▸ hfresh _ rfl
      refine ⟨fun stored hmem heq => absurd (List.mem_map.2 ⟨stored, hmem, heq⟩) hnew, ?_⟩
      cases hparentId : category.parentId with
      | none => exact (hforest _).uproot category.id
      | some parent =>
          obtain ⟨all, hall, hroom⟩ := hdepth parent (hparent ▸ hparentId)
          rw [← howner] at hall
          obtain ⟨hnodup, hsub, hkept⟩ := hlisted _ all hall
          have hmem := hkept parent hparentId (parent_of_checkDepth hnodup hroom)
          refine forest_of_insertion (hforest _) hnodup hsub hmem ?_ hroom
          intro hkey
          rw [keys_linksOf] at hkey
          exact hnew ((List.filter_sublist.map _).subset hkey)
  | uprootCategory _ hstored =>
      obtain ⟨hid, howner⟩ := hfound _ _ hstored
      exact ⟨fun other hmem heq => howner other hmem (heq.trans hid), (hforest _).uproot _⟩
  | moveCategory _ hstored hchange hall hcheck =>
      obtain ⟨hid, howner⟩ := hfound _ _ hstored
      obtain ⟨hnodup, hsub, hkept⟩ := hlisted _ _ hall
      obtain ⟨_, _, hroom⟩ := bind_eq_ok.1 hcheck
      rw [Category.changeParent_eq_ok hchange] at hkept ⊢
      have hmem := hkept _ rfl (parent_of_checkDepth hnodup hroom)
      rw [← hid] at hcheck
      exact ⟨fun other hmem heq => howner other hmem (heq.trans hid),
        forest_of_move (hforest _) hnodup hsub hmem hcheck⟩

/-- A creation or a move of an organization that was judged against the present links. -/
theorem forest_organization {organization : Organization}
    (h : request.Allows past (.saveOrganization organization))
    (hlock : request.lock? = some .organizations) (hlegal : contents.Legal)
    (hfits : ∀ event ∈ guarded past, event.Fits contents)
    (hfresh : ∀ id, request.generated? = some id → id ∉ keys (linksOf contents.organizations)) :
    Forest (Lineage.relink (linksOf contents.organizations) organization.id
      organization.parentId) := by
  refine h.graft_organization hlock hlegal.organizations ?_ ?_ hfresh
  · intro all hall
    obtain ⟨old, hanswer, hsame⟩ := hfits _ hall
    have hperm := Contents.allOrganizations_answer hanswer
    rw [show linksOf old.organizations = linksOf contents.organizations from hsame] at hperm
    have hkeys : (keys (linksOf all)).Perm (keys (linksOf contents.organizations)) := hperm.map _
    exact ⟨hkeys.nodup_iff.2 hlegal.organizations.nodup, hperm.symm.subset,
      fun parent _ hmem => hkeys.mem_iff.1 hmem⟩
  · intro id stored hstored
    obtain ⟨_, hanswer, _⟩ := hfits _ hstored
    exact (Contents.getOrganization_answer hanswer).1

theorem forest_category {category : Category} (h : request.Allows past (.saveCategory category))
    (hlock : request.lock? = some .categories) (hlegal : contents.Legal)
    (hfits : ∀ event ∈ guarded past, event.Fits contents)
    (hfresh : ∀ id, request.generated? = some id → id ∉ contents.categories.map Nested.id) :
    (∀ stored ∈ contents.categories, stored.id = category.id →
      stored.organizationId = category.organizationId) ∧
    Forest (Lineage.relink (linksOf (contents.categoriesOf category.organizationId)) category.id
      category.parentId) := by
  refine h.graft_category hlock hlegal.categories ?_ ?_ hfresh
  · intro organizationId all hall
    obtain ⟨old, hanswer, hsame⟩ := hfits _ hall
    have hperm := Contents.categoriesFor_answer hanswer
    rw [show linksOf (old.categoriesOf _) = linksOf (contents.categoriesOf _) from hsame _] at hperm
    have hkeys : (keys (linksOf all)).Perm
        (keys (linksOf (contents.categoriesOf organizationId))) := hperm.map _
    exact ⟨hkeys.nodup_iff.2 (hlegal.categories organizationId).nodup, hperm.symm.subset,
      fun parent _ hmem => hkeys.mem_iff.1 hmem⟩
  · intro id stored hstored
    obtain ⟨old, hanswer, hsame⟩ := hfits _ hstored
    obtain ⟨hid, hlink, _⟩ := Contents.getCategory_answer hanswer
    rw [show linksOf (old.categoriesOf stored.organizationId) =
      linksOf (contents.categoriesOf stored.organizationId) from hsame stored.organizationId] at hlink
    exact ⟨hid, hlegal.organizationId_of_mem (mem_keys_of_mem hlink)⟩

/-- An update saves an organization with the parent that is stored. -/
theorem link_organization {organization : Organization}
    (h : request.Allows past (.saveOrganization organization)) (hlock : request.lock? = none)
    (hfits : ∀ event ∈ past, event.Fits contents) :
    (organization.id, organization.parentId) ∈ linksOf contents.organizations := by
  cases h with
  | look _ hread => cases hread
  | read hother _ _ _ => cases hlock.symm.trans hother
  | createOrganization _ _ _ => cases hlock
  | uprootOrganization _ _ => cases hlock
  | moveOrganization _ _ _ _ _ => cases hlock
  | updateOrganization hstored hchange =>
      obtain ⟨old, hfound, hsame⟩ := hfits _ hstored
      obtain ⟨hid, hlink, _⟩ := Contents.getOrganization_answer hfound
      have hupdates := changeOrganization_eq_ok hchange
      rw [hupdates.id, hupdates.parentId, hid]
      exact (show linksOf old.organizations = linksOf contents.organizations from hsame) ▸ hlink

theorem link_category {category : Category} (h : request.Allows past (.saveCategory category))
    (hlock : request.lock? = none) (hfits : ∀ event ∈ past, event.Fits contents) :
    (category.id, category.parentId) ∈ linksOf (contents.categoriesOf category.organizationId) := by
  cases h with
  | look _ hread => cases hread
  | read hother _ _ _ => cases hlock.symm.trans hother
  | createCategory _ _ _ => cases hlock
  | uprootCategory _ _ => cases hlock
  | moveCategory _ _ _ _ _ => cases hlock
  | @updateCategory _ _ _ _ stored _ hstored hchange =>
      obtain ⟨old, hfound, hsame⟩ := hfits _ hstored
      obtain ⟨hid, hlink, _⟩ := Contents.getCategory_answer hfound
      have hupdates := changeCategory_eq_ok hchange
      rw [hupdates.id, hupdates.organizationId, hupdates.parentId, hid]
      exact hsame stored.organizationId ▸ hlink

/-- An organization that is saved is the one that its request creates, or was read by it. -/
theorem origin_organization {organization : Organization}
    (h : request.Allows past (.saveOrganization organization)) :
    (request.generated? = some organization.id ∧ request.lock? = some .organizations ∧
      (request.IsPlain → organization.IsPlain)) ∨
    ∃ id stored, .exchange (.getOrganization id) (.ok (some stored)) ∈ past ∧
      organization.id = stored.id ∧
        (request.IsPlain → stored.IsPlain → organization.IsPlain) := by
  cases h with
  | look _ hread => cases hread
  | read _ _ _ hread => cases hread
  | createOrganization _ hinput _ =>
      obtain ⟨hid, _, hcreated, hupdated⟩ := Organization.ofInput_eq_ok hinput
      refine Or.inl ⟨congrArg some hid.symm, rfl, fun hclock => ?_⟩
      exact ⟨hcreated ▸ hclock _ rfl, hupdated ▸ hclock _ rfl⟩
  | updateOrganization hstored hchange =>
      have hupdates := changeOrganization_eq_ok hchange
      exact Or.inr ⟨_, _, hstored, hupdates.id, fun hclock => hupdates.plain (hclock _ rfl)⟩
  | uprootOrganization _ hstored =>
      refine Or.inr ⟨_, _, guarded_subset past hstored, rfl, ?_⟩
      exact fun hclock hplain => ⟨hplain.1, hplain.2.latest (hclock _ rfl)⟩
  | moveOrganization _ hstored hchange _ _ =>
      rw [Organization.changeParent_eq_ok hchange]
      refine Or.inr ⟨_, _, guarded_subset past hstored, rfl, ?_⟩
      exact fun hclock hplain => ⟨hplain.1, hplain.2.latest (hclock _ rfl)⟩

theorem origin_category {category : Category} (h : request.Allows past (.saveCategory category)) :
    (request.generated? = some category.id ∧ request.lock? = some .categories ∧
      (request.IsPlain → category.IsPlain)) ∨
    ∃ id stored, .exchange (.getCategory id) (.ok (some stored)) ∈ past ∧
      category.id = stored.id ∧ category.organizationId = stored.organizationId ∧
        (request.IsPlain → stored.IsPlain → category.IsPlain) := by
  cases h with
  | look _ hread => cases hread
  | read _ _ _ hread => cases hread
  | createCategory _ hinput _ =>
      obtain ⟨hid, _, _, hcreated, hupdated⟩ := Category.ofInput_eq_ok hinput
      refine Or.inl ⟨congrArg some hid.symm, rfl, fun hclock => ?_⟩
      exact ⟨hcreated ▸ hclock _ rfl, hupdated ▸ hclock _ rfl⟩
  | updateCategory hstored hchange =>
      have hupdates := changeCategory_eq_ok hchange
      exact Or.inr ⟨_, _, hstored, hupdates.id, hupdates.organizationId,
        fun hclock => hupdates.plain (hclock _ rfl)⟩
  | uprootCategory _ hstored =>
      refine Or.inr ⟨_, _, guarded_subset past hstored, rfl, rfl, ?_⟩
      exact fun hclock hplain => ⟨hplain.1, hplain.2.latest (hclock _ rfl)⟩
  | moveCategory _ hstored hchange _ _ =>
      rw [Category.changeParent_eq_ok hchange]
      refine Or.inr ⟨_, _, guarded_subset past hstored, rfl, rfl, ?_⟩
      exact fun hclock hplain => ⟨hplain.1, hplain.2.latest (hclock _ rfl)⟩

end Request.Allows

end ServiceDesk
