import ServiceDesk.Proofs.Service.Inquiries
import ServiceDesk.Proofs.Service.Serial

/-!
The footprint of a request. A request that fails leaves both tables as they were. One that succeeds
touches one row of one table: the row of the id that it returns or was given. An update keeps the
columns that are never changed and those that its changes leave out, and a move keeps all columns but
the parent and the time of change.
-/

namespace ServiceDesk

open Hierarchy Service Operation

/-! ### One row of a table -/

/-- Two tables are the same but for the row of one id: `old?` has stood where `new?` stands now. -/
inductive Store.Swaps {ρ : Type} (key : ρ → Option String) (id : Uuid) (old? new? : Option ρ) :
    List ρ → List ρ → Prop
  | intro (front back : List ρ) (hothers : ∀ row ∈ front ++ back, key row ≠ some id.text)
      (hold : ∀ row, old? = some row → key row = some id.text)
      (hnew : ∀ row, new? = some row → key row = some id.text) :
      Swaps key id old? new? (front ++ old?.toList ++ back) (front ++ new?.toList ++ back)

/-- The categories are the same, and the organizations are but for the row of one id. -/
structure Store.SwapsOrganization (id : Uuid) (old? new? : Option OrganizationRow)
    (before after : Store) : Prop where
  row : Swaps OrganizationRow.id id old? new? before.organizations after.organizations
  rest : after.categories = before.categories

/-- The organizations are the same, and the categories are but for the row of one id. -/
structure Store.SwapsCategory (id : Uuid) (old? new? : Option CategoryRow) (before after : Store) :
    Prop where
  row : Swaps CategoryRow.id id old? new? before.categories after.categories
  rest : after.organizations = before.organizations

theorem Hierarchy.exists_split {α : Type} [Nested α] {items : List α}
    (hnodup : (items.map Nested.id).Nodup) (id : Uuid) : ∃ front back : List α,
      items = front ++ (items.find? fun item => Nested.id item = id).toList ++ back ∧
        ∀ other ∈ front ++ back, Nested.id other ≠ id := by
  cases hfound : items.find? fun item => Nested.id item = id with
  | none =>
      refine ⟨items, [], by simp, fun other hmem => ?_⟩
      rw [List.append_nil] at hmem
      simpa using List.find?_eq_none.1 hfound other hmem
  | some item =>
      obtain ⟨hid, front, back, rfl, hfront⟩ := List.find?_eq_some_iff_append.1 hfound
      rw [decide_eq_true_eq] at hid
      refine ⟨front, back, by simp, fun other hmem => ?_⟩
      rcases List.mem_append.1 hmem with hmem | hmem
      · simpa using hfront other hmem
      · -- An item behind would have the id a second time.
        rintro hother
        rw [List.map_append, List.map_cons, List.nodup_middle, List.nodup_cons] at hnodup
        refine hnodup.1 (List.mem_append_right _ ?_)
        rw [hid, ← hother]
        exact List.mem_map_of_mem hmem

namespace Store

variable {α ρ : Type} [Nested α] {items : List α}

/-- The key under which the row of an entity will be stored. -/
def keyOf (item : α) : Option String := some (Nested.id item).text

theorem keyOf_ne {item : α} {id : Uuid} : keyOf item ≠ some id.text ↔ Nested.id item ≠ id := by
  rw [keyOf, Ne, Option.some.injEq, Uuid.text_inj]

/-- Rows are swapped as the entities are from which they are written. -/
theorem Swaps.map (row : α → ρ) (key : ρ → Option String)
    (hkey : ∀ item, key (row item) = some (Nested.id item).text) {id : Uuid} {old? new? : Option α}
    {before after : List α} (h : Swaps keyOf id old? new? before after) :
    Swaps key id (old?.map row) (new?.map row) (before.map row) (after.map row) := by
  obtain ⟨front, back, hothers, hold, hnew⟩ := h
  have hrows : ∀ entity? : Option α, (front ++ entity?.toList ++ back).map row =
      front.map row ++ (entity?.map row).toList ++ back.map row := by
    intro entity?
    cases entity? <;> simp
  rw [hrows, hrows]
  refine .intro (front.map row) (back.map row) ?_ ?_ ?_
  · rw [← List.map_append, List.forall_mem_map]
    intro other hmem
    rw [hkey]
    exact hothers other hmem
  · rintro _ hrow
    obtain ⟨item, hitem, rfl⟩ := Option.map_eq_some_iff.1 hrow
    exact (hkey item).trans (hold item hitem)
  · rintro _ hrow
    obtain ⟨item, hitem, rfl⟩ := Option.map_eq_some_iff.1 hrow
    exact (hkey item).trans (hnew item hitem)

theorem keyOf_find? {id : Uuid} {item : α}
    (h : (items.find? fun other => Nested.id other = id) = some item) :
    keyOf item = some id.text := by
  have hid : Nested.id item = id := by simpa using List.find?_some h
  rw [keyOf, hid]

/-- Putting an entity in place swaps the one of its id, or adds it behind all others. -/
theorem swaps_put (hnodup : (items.map Nested.id).Nodup) (item : α) :
    Swaps keyOf (Nested.id item) (items.find? fun other => Nested.id other = Nested.id item)
      (some item) items (put items item) := by
  have hnew : ∀ other, some item = some other → keyOf other = some (Nested.id item).text := by
    rintro _ ⟨⟩
    rfl
  cases hfound : items.find? fun other => Nested.id other = Nested.id item with
  | none =>
      have hothers : ∀ other ∈ items, Nested.id other ≠ Nested.id item :=
        fun other hmem => by simpa using List.find?_eq_none.1 hfound other hmem
      have hput : put items item = items ++ [item] := by
        refine if_neg fun hmem => ?_
        obtain ⟨other, hother, hid⟩ := List.mem_map.1 hmem
        exact hothers other hother hid
      have hswaps : Swaps keyOf (Nested.id item) none (some item) (items ++ [] ++ [])
          (items ++ [item] ++ []) :=
        .intro items [] (by simpa [keyOf_ne] using hothers) nofun hnew
      rw [hput]
      simpa using hswaps
  | some old =>
      obtain ⟨front, back, hitems, hothers⟩ := exists_split hnodup (Nested.id item)
      rw [hfound] at hitems
      have hsame : ∀ others ⊆ front ++ back,
          (others.map fun stored => if Nested.id stored = Nested.id item then item else stored) =
            others := by
        intro others hsub
        conv => rhs; rw [← List.map_id others]
        exact List.map_congr_left fun other hmem => if_neg (hothers other (hsub hmem))
      have hold : Nested.id old = Nested.id item := by simpa using List.find?_some hfound
      have hput : put items item = front ++ [item] ++ back := by
        rw [put, if_pos, hitems, List.map_append, List.map_append,
          hsame front (List.subset_append_left _ _), hsame back (List.subset_append_right _ _)]
        · simp [hold]
        · rw [hitems, ← hold]
          simp
      rw [hput, hitems]
      refine .intro front back (fun other hmem => keyOf_ne.2 (hothers other hmem)) ?_ hnew
      rintro _ ⟨⟩
      exact keyOf_find? hfound

/-- Taking the entities of one id out swaps at most one of them for none. -/
theorem swaps_filter (hnodup : (items.map Nested.id).Nodup) (id : Uuid) :
    Swaps keyOf id (items.find? fun other => Nested.id other = id) none items
      (items.filter fun item => Nested.id item ≠ id) := by
  obtain ⟨front, back, hitems, hothers⟩ := exists_split hnodup id
  have hfound : ∀ other, (items.find? fun item => Nested.id item = id) = some other →
      keyOf other = some id.text := fun _ => keyOf_find?
  generalize items.find? (fun other => Nested.id other = id) = old at *
  have hsame : ∀ others ⊆ front ++ back, (others.filter fun item => Nested.id item ≠ id) = others :=
    fun others hsub => List.filter_eq_self.2 fun other hmem => by
      simpa using hothers other (hsub hmem)
  have hgone : (old.toList.filter fun item => Nested.id item ≠ id) = [] := by
    rw [List.filter_eq_nil_iff]
    intro other hmem
    have hid := hfound other (Option.mem_toList.1 hmem)
    simpa [keyOf] using hid
  rw [hitems, List.filter_append, List.filter_append, hgone,
    hsame front (List.subset_append_left _ _), hsame back (List.subset_append_right _ _)]
  exact .intro front back (fun other hmem => keyOf_ne.2 (hothers other hmem)) hfound nofun

end Store

namespace Contents

variable {contents : Contents} {id : Uuid} {after : Store}

/-- A save of an organization swaps one row and leaves the categories. -/
theorem swaps_saveOrganization (hnodup : (contents.organizations.map Nested.id).Nodup)
    {organization : Organization}
    (hsave : contents.store.saveOrganization organization = .ok after) :
    Store.SwapsOrganization organization.id
      ((contents.organization? organization.id).map .ofOrganization)
      (some (.ofOrganization (contents.mergeOrganization organization))) contents.store after := by
  have hput := Store.swaps_put hnodup (contents.mergeOrganization organization)
  rw [mergeOrganization_id] at hput
  cases saveOrganization_store hsave
  exact ⟨hput.map OrganizationRow.ofOrganization OrganizationRow.id fun _ => rfl, rfl⟩

theorem swaps_saveCategory (hnodup : (contents.categories.map Nested.id).Nodup)
    {category : Category} (hsave : contents.store.saveCategory category = .ok after) :
    Store.SwapsCategory category.id ((contents.category? category.id).map .ofCategory)
      (some (.ofCategory (contents.mergeCategory category))) contents.store after := by
  have hput := Store.swaps_put hnodup (contents.mergeCategory category)
  rw [mergeCategory_id] at hput
  cases saveCategory_store hsave
  exact ⟨hput.map CategoryRow.ofCategory CategoryRow.id fun _ => rfl, rfl⟩

theorem swaps_deleteOrganization (hnodup : (contents.organizations.map Nested.id).Nodup)
    (hdelete : contents.store.deleteOrganization id = .ok (true, after)) :
    ∃ old, Store.SwapsOrganization id (some old) none contents.store after := by
  obtain ⟨hsome, _, _⟩ := Store.deleteOrganization_eq_ok hdelete
  rw [findOrganization?_store] at hsome
  obtain ⟨old, hold⟩ := Option.isSome_iff_exists.1 hsome
  cases (deleteOrganization_store hdelete).1
  have hdrop := (Store.swaps_filter hnodup id).map OrganizationRow.ofOrganization
    OrganizationRow.id fun _ => rfl
  refine ⟨old, ?_, rfl⟩
  rw [← hold]
  exact hdrop

theorem swaps_deleteCategory (hnodup : (contents.categories.map Nested.id).Nodup)
    (hdelete : contents.store.deleteCategory id = .ok (true, after)) :
    ∃ old, Store.SwapsCategory id (some old) none contents.store after := by
  obtain ⟨hsome, _, _⟩ := Store.deleteCategory_eq_ok hdelete
  rw [findCategory?_store] at hsome
  obtain ⟨old, hold⟩ := Option.isSome_iff_exists.1 hsome
  cases (deleteCategory_store hdelete).1
  have hdrop := (Store.swaps_filter hnodup id).map CategoryRow.ofCategory CategoryRow.id
    fun _ => rfl
  refine ⟨old, ?_, rfl⟩
  rw [← hold]
  exact hdrop

/-! ### What a save puts into the row -/

theorem mergeOrganization_new {organization : Organization}
    (hnew : contents.organization? organization.id = none) :
    contents.mergeOrganization organization = organization := by
  rw [mergeOrganization, hnew]

theorem mergeCategory_new {category : Category}
    (hnew : contents.category? category.id = none) :
    contents.mergeCategory category = category := by
  rw [mergeCategory, hnew]

theorem mergeOrganization_stored {organization held : Organization}
    (hheld : contents.organization? organization.id = some held) :
    contents.mergeOrganization organization =
      { organization with createdAt := held.createdAt } := by
  rw [mergeOrganization, hheld]

/-- A category keeps the organization and the time of creation that are stored. -/
theorem mergeCategory_stored {category held : Category}
    (hheld : contents.category? category.id = some held) :
    contents.mergeCategory category =
      { category with organizationId := held.organizationId, createdAt := held.createdAt } := by
  rw [mergeCategory, hheld]

/-- An organization with the time of creation that was read gets the row that it would have if it were
new: what the reading cuts off is not written. -/
theorem row_of_stored_organization {held organization : Organization}
    (hheld : contents.organization? organization.id = some held)
    (hcreated : organization.createdAt = held.createdAt.toMicros) :
    OrganizationRow.ofOrganization (contents.mergeOrganization organization) =
      .ofOrganization organization := by
  have hsame : encodeInstant organization.createdAt = encodeInstant held.createdAt := by
    rw [hcreated, encodeInstant_toMicros]
  rw [mergeOrganization_stored hheld]
  simp only [OrganizationRow.ofOrganization, hsame]

theorem row_of_stored_category {held category : Category}
    (hheld : contents.category? category.id = some held)
    (howner : category.organizationId = held.organizationId)
    (hcreated : category.createdAt = held.createdAt.toMicros) :
    CategoryRow.ofCategory (contents.mergeCategory category) = .ofCategory category := by
  have hsame : encodeInstant category.createdAt = encodeInstant held.createdAt := by
    rw [hcreated, encodeInstant_toMicros]
  rw [mergeCategory_stored hheld]
  simp only [CategoryRow.ofCategory, howner, hsame]

end Contents

/-! ### What an update leaves -/

/-- A row after an update: what no update changes is as it was, and so is what the changes leave
out. -/
structure OrganizationRow.Updated (changes : OrganizationChanges) (old new : OrganizationRow) :
    Prop where
  id : new.id = old.id
  parentId : new.parentId = old.parentId
  createdAt : new.createdAt = old.createdAt
  name : changes.name = none → new.name = old.name
  domain : changes.domain = none → new.domain = old.domain
  isActive : changes.isActive = none → new.isActive = old.isActive

structure CategoryRow.Updated (changes : CategoryChanges) (old new : CategoryRow) : Prop where
  id : new.id = old.id
  organizationId : new.organizationId = old.organizationId
  parentId : new.parentId = old.parentId
  createdAt : new.createdAt = old.createdAt
  name : changes.name = none → new.name = old.name
  description : changes.description = none → new.description = old.description
  isActive : changes.isActive = none → new.isActive = old.isActive

namespace Service

variable {now : Time.Instant}

theorem applying_none {α β : Type} {change : Option β} {apply : α → β → Except DeskError α}
    {entity changed : α} (h : applying change apply entity = .ok changed) (hnone : change = none) :
    changed = entity := by
  rw [hnone] at h
  exact (Except.ok.inj h).symm

/-- A change leaves the parts that it does not apply to. -/
theorem applying_keeps {α β γ : Type} (part : α → γ) {change : Option β}
    {apply : α → β → Except DeskError α} {entity changed : α}
    (h : applying change apply entity = .ok changed)
    (happly : ∀ value changed, apply entity value = .ok changed → part changed = part entity) :
    part changed = part entity := by
  cases change with
  | none => rw [applying_none h rfl]
  | some value => exact happly value changed h

/-- The changes of the other fields leave a field alone. -/
theorem changeOrganization_leaves {changes : OrganizationChanges}
    {stored organization : Organization}
    (h : changeOrganization changes now stored = .ok organization) :
    (changes.name = none → organization.name = stored.name) ∧
      (changes.domain = none → organization.domain = stored.domain) ∧
        (changes.isActive = none → organization.isActive = stored.isActive) := by
  obtain ⟨renamed, hrename, h⟩ := bind_eq_ok.1 h
  obtain ⟨moved, hdomain, hactive⟩ := bind_eq_ok.1 h
  have hrenamed : (renamed.domain, renamed.isActive) = (stored.domain, stored.isActive) := by
    refine applying_keeps (fun o : Organization => (o.domain, o.isActive)) hrename ?_
    intro name changed hchange
    obtain ⟨normal, _, hchange⟩ := bind_eq_ok.1 hchange
    cases hchange
    rfl
  have hmoved : (moved.name, moved.isActive) = (renamed.name, renamed.isActive) := by
    refine applying_keeps (fun o : Organization => (o.name, o.isActive)) hdomain ?_
    intro domain changed hchange
    obtain ⟨host, _, hchange⟩ := bind_eq_ok.1 hchange
    cases hchange
    rfl
  have hset : (organization.name, organization.domain) = (moved.name, moved.domain) := by
    refine applying_keeps (fun o : Organization => (o.name, o.domain)) hactive ?_
    intro isActive changed hchange
    cases hchange
    rfl
  simp only [Prod.mk.injEq] at hrenamed hmoved hset
  refine ⟨fun hnone => ?_, fun hnone => ?_, fun hnone => ?_⟩
  · rw [hset.1, hmoved.1, applying_none hrename hnone]
  · rw [hset.2, applying_none hdomain hnone, hrenamed.1]
  · rw [applying_none hactive hnone, hmoved.2, hrenamed.2]

theorem changeCategory_leaves {changes : CategoryChanges} {stored category : Category}
    (h : changeCategory changes now stored = .ok category) :
    (changes.name = none → category.name = stored.name) ∧
      (changes.description = none → category.description = stored.description) ∧
        (changes.isActive = none → category.isActive = stored.isActive) := by
  obtain ⟨renamed, hrename, h⟩ := bind_eq_ok.1 h
  obtain ⟨described, hdescribe, hactive⟩ := bind_eq_ok.1 h
  have hrenamed : (renamed.description, renamed.isActive) =
      (stored.description, stored.isActive) := by
    refine applying_keeps (fun c : Category => (c.description, c.isActive)) hrename ?_
    intro name changed hchange
    obtain ⟨normal, _, hchange⟩ := bind_eq_ok.1 hchange
    cases hchange
    rfl
  have hdescribed : (described.name, described.isActive) = (renamed.name, renamed.isActive) := by
    refine applying_keeps (fun c : Category => (c.name, c.isActive)) hdescribe ?_
    intro description changed hchange
    obtain ⟨text, _, hchange⟩ := bind_eq_ok.1 hchange
    cases hchange
    rfl
  have hset : (category.name, category.description) = (described.name, described.description) := by
    refine applying_keeps (fun c : Category => (c.name, c.description)) hactive ?_
    intro isActive changed hchange
    cases hchange
    rfl
  simp only [Prod.mk.injEq] at hrenamed hdescribed hset
  refine ⟨fun hnone => ?_, fun hnone => ?_, fun hnone => ?_⟩
  · rw [hset.1, hdescribed.1, applying_none hrename hnone]
  · rw [hset.2, applying_none hdescribe hnone, hrenamed.1]
  · rw [applying_none hactive hnone, hdescribed.2, hrenamed.2]

end Service

/-! ### What a request touches -/

/-- What a request that returns a reply has done to the tables: one row was added, changed or taken
away, that of the returned or given id. -/
inductive Request.Touches : Request → Reply → Store → Store → Prop
  | createOrganization {stamp input organization before after} (hid : organization.id = stamp.id)
      (hrow : Store.SwapsOrganization organization.id none (some (.ofOrganization organization))
        before after) :
      Touches (.createOrganization stamp input) (.organization organization) before after
  | updateOrganization {stamp id changes organization old before after}
      (hrow : Store.SwapsOrganization id (some old) (some (.ofOrganization organization)) before
        after)
      (hkept : OrganizationRow.Updated changes old (.ofOrganization organization)) :
      Touches (.updateOrganization stamp id changes) (.organization organization) before after
  | moveOrganization {stamp id parentId organization old before after}
      (hrow : Store.SwapsOrganization id (some old) (some (.ofOrganization organization)) before
        after)
      (hkept : .ofOrganization organization = { old with
        parentId := parentId.map Uuid.text, updatedAt := encodeInstant organization.updatedAt }) :
      Touches (.moveOrganization stamp id parentId) (.organization organization) before after
  | deleteOrganization {id old before after}
      (hrow : Store.SwapsOrganization id (some old) none before after) :
      Touches (.deleteOrganization id) .deleted before after
  | createCategory {stamp organizationId input category before after}
      (hid : category.id = stamp.id) (howner : category.organizationId = organizationId)
      (hrow : Store.SwapsCategory category.id none (some (.ofCategory category)) before after) :
      Touches (.createCategory stamp organizationId input) (.category category) before after
  | updateCategory {stamp id changes category old before after}
      (hrow : Store.SwapsCategory id (some old) (some (.ofCategory category)) before after)
      (hkept : CategoryRow.Updated changes old (.ofCategory category)) :
      Touches (.updateCategory stamp id changes) (.category category) before after
  | moveCategory {stamp id parentId category old before after}
      (hrow : Store.SwapsCategory id (some old) (some (.ofCategory category)) before after)
      (hkept : .ofCategory category = { old with
        parentId := parentId.map Uuid.text, updatedAt := encodeInstant category.updatedAt }) :
      Touches (.moveCategory stamp id parentId) (.category category) before after
  | deleteCategory {id old before after}
      (hrow : Store.SwapsCategory id (some old) none before after) :
      Touches (.deleteCategory id) .deleted before after

namespace Contents

variable {contents : Contents} {id : Uuid} {after : Store}

/-- A save of an organization that was read before swaps the row that was read. -/
theorem swaps_stored_organization (hnodup : (contents.organizations.map Nested.id).Nodup)
    {held organization : Organization} (hheld : contents.organization? id = some held)
    (hid : organization.id = id) (hcreated : organization.createdAt = held.createdAt.toMicros)
    (hsave : contents.store.saveOrganization organization = .ok after) :
    Store.SwapsOrganization id (some (.ofOrganization held)) (some (.ofOrganization organization))
      contents.store after := by
  have hswaps := swaps_saveOrganization hnodup hsave
  rw [← hid] at hheld ⊢
  rwa [row_of_stored_organization hheld hcreated, hheld] at hswaps

theorem swaps_stored_category (hnodup : (contents.categories.map Nested.id).Nodup)
    {held category : Category} (hheld : contents.category? id = some held) (hid : category.id = id)
    (howner : category.organizationId = held.organizationId)
    (hcreated : category.createdAt = held.createdAt.toMicros)
    (hsave : contents.store.saveCategory category = .ok after) :
    Store.SwapsCategory id (some (.ofCategory held)) (some (.ofCategory category)) contents.store
      after := by
  have hswaps := swaps_saveCategory hnodup hsave
  rw [← hid] at hheld ⊢
  rwa [row_of_stored_category hheld howner hcreated, hheld] at hswaps

end Contents

/-- What a request writes touches one row, if no id is held twice and none is given away again. -/
theorem Request.Wrote.touches {request : Request} {contents : Contents} {reply : Reply}
    {after : Store} (h : request.Wrote contents.store reply after)
    (horganizations : (contents.organizations.map Nested.id).Nodup)
    (hcategories : (contents.categories.map Nested.id).Nodup)
    (hnew : ∀ id, request.generated? = some id →
      contents.organization? id = none ∧ contents.category? id = none) :
    request.Touches reply contents.store after := by
  cases h with
  | @createOrganization stamp input organization _ hinput hsave =>
      obtain ⟨hid, _⟩ := Organization.ofInput_eq_ok hinput
      have hnone : contents.organization? organization.id = none := by
        rw [hid]
        exact (hnew stamp.id rfl).1
      have hswaps := Contents.swaps_saveOrganization horganizations hsave
      rw [hnone, Contents.mergeOrganization_new hnone] at hswaps
      exact .createOrganization hid hswaps
  | @updateOrganization stamp id changes stored organization _ hstored hchange hsave =>
      obtain ⟨held, hheld, hself, _, rfl⟩ := Contents.organization?_of_answer hstored
      have hupdates := changeOrganization_eq_ok hchange
      obtain ⟨hname, hdomain, hactive⟩ := changeOrganization_leaves hchange
      refine .updateOrganization (Contents.swaps_stored_organization horganizations hheld
        (hupdates.id.trans hself) hupdates.createdAt hsave) ?_
      exact {
        id := congrArg (fun id : Uuid => some id.text) hupdates.id
        parentId := congrArg (Option.map Uuid.text) hupdates.parentId
        createdAt := (congrArg encodeInstant hupdates.createdAt).trans (encodeInstant_toMicros _)
        name := hname
        domain := hdomain
        isActive := fun hnone => congrArg Activity.ofBool (hactive hnone) }
  | @moveOrganization stamp id parentId stored organization _ hstored hmoved hsave =>
      obtain ⟨held, hheld, hself, _, rfl⟩ := Contents.organization?_of_answer hstored
      cases hmoved
      refine .moveOrganization (Contents.swaps_stored_organization horganizations hheld hself rfl
        hsave) ?_
      simp only [OrganizationRow.ofOrganization, Organization.touch, Organization.toMicros,
        encodeInstant_toMicros]
  | deleteOrganization hdelete =>
      obtain ⟨old, hswaps⟩ := Contents.swaps_deleteOrganization horganizations hdelete
      exact .deleteOrganization hswaps
  | @createCategory stamp organizationId input category _ hinput hsave =>
      obtain ⟨hid, howner, _⟩ := Category.ofInput_eq_ok hinput
      have hnone : contents.category? category.id = none := by
        rw [hid]
        exact (hnew stamp.id rfl).2
      have hswaps := Contents.swaps_saveCategory hcategories hsave
      rw [hnone, Contents.mergeCategory_new hnone] at hswaps
      exact .createCategory hid howner hswaps
  | @updateCategory stamp id changes stored category _ hstored hchange hsave =>
      obtain ⟨held, hheld, hself, _, rfl⟩ := Contents.category?_of_answer hstored
      have hupdates := changeCategory_eq_ok hchange
      obtain ⟨hname, hdescription, hactive⟩ := changeCategory_leaves hchange
      refine .updateCategory (Contents.swaps_stored_category hcategories hheld
        (hupdates.id.trans hself) hupdates.organizationId hupdates.createdAt hsave) ?_
      exact {
        id := congrArg (fun id : Uuid => some id.text) hupdates.id
        organizationId := congrArg Uuid.text hupdates.organizationId
        parentId := congrArg (Option.map Uuid.text) hupdates.parentId
        createdAt := (congrArg encodeInstant hupdates.createdAt).trans (encodeInstant_toMicros _)
        name := hname
        description := hdescription
        isActive := fun hnone => congrArg Activity.ofBool (hactive hnone) }
  | @moveCategory stamp id parentId stored category _ hstored hmoved hsave =>
      obtain ⟨held, hheld, hself, _, rfl⟩ := Contents.category?_of_answer hstored
      cases hmoved
      refine .moveCategory (Contents.swaps_stored_category hcategories hheld hself rfl rfl hsave) ?_
      simp only [CategoryRow.ofCategory, Category.touch, Category.toMicros, encodeInstant_toMicros]
  | deleteCategory hdelete =>
      obtain ⟨old, hswaps⟩ := Contents.swaps_deleteCategory hcategories hdelete
      exact .deleteCategory hswaps

/-! ### Every store that can be reached -/

/-- The stores that calls and requests lead to from the empty one. -/
inductive Store.Reached : Store → Prop
  | empty : Reached Store.empty
  | answer {store} (h : Reached store) (call : Store.Call) : Reached (store.answer call).2
  | serve {store} (h : Reached store) (request : Request) : Reached (request.serve store).2

/-- A store that is reached is written from entities, among which no id is held twice. -/
theorem Store.Reached.contents {store : Store} (h : store.Reached) :
    ∃ contents : Contents, store = contents.store ∧ contents.Closed fun _ => False := by
  induction h with
  | empty => exact ⟨.empty, rfl, .empty⟩
  | answer _ call ih =>
      obtain ⟨contents, rfl, hclosed⟩ := ih
      obtain ⟨after, hafter, hcall⟩ := contents.answer_becomes call
      exact ⟨after, hafter, hcall.closed hclosed fun _ _ hlost => hlost⟩
  | serve _ request ih =>
      obtain ⟨contents, rfl, hclosed⟩ := ih
      obtain ⟨after, hafter, rfl | ⟨past, call, _, _, hcall⟩⟩ := request.serve_becomes contents
      · exact ⟨after, hafter, hclosed⟩
      · exact ⟨after, hafter, hcall.closed hclosed fun _ _ hlost => hlost⟩

/-- Whatever calls and requests have led to a store, a request that fails leaves both tables as they
are, and so does every inquiry. A request that succeeds touches one row, if it gives no id away that is
in use. -/
theorem one_row_touched {store : Store} (hreached : store.Reached) (request : Request)
    (hnew : ∀ id, request.generated? = some id →
      store.findOrganization? id = none ∧ store.findCategory? id = none) :
    (∀ error after, request.serve store = (.error error, after) → after = store) ∧
    (∀ reply after, request.serve store = (.ok reply, after) →
      request.Touches reply store after) ∧
    ∀ inquiry : Inquiry, (inquiry.operation.perform Store.answer store).2 = store := by
  refine ⟨(request.delivers store).unchanged, fun reply after hserve => ?_, fun inquiry => ?_⟩
  · obtain ⟨contents, rfl, hclosed⟩ := hreached.contents
    simp only [Contents.findOrganization?_store, Contents.findCategory?_store,
      Option.map_eq_none_iff] at hnew
    have hwrote := (request.delivers contents.store).done reply after hserve
    exact hwrote.touches hclosed.organizations_nodup hclosed.categories_nodup hnew
  · rw [inquiry.perform_eq]

def Category.mail : Category :=
  ⟨.small 2, .small 1, "Mail", "", none, true, .ofSeconds 60, .ofSeconds 60⟩

/-- In a store with one organization, the creation of a category adds its row. -/
theorem one_row_touched_mail :
    let before := (Store.empty.answer (.saveOrganization (.small 1 "Desk" none))).2
    let request := Request.createCategory ⟨.ofSeconds 60, .small 2⟩ (.small 1) ⟨"Mail", "", none⟩
    before.Reached ∧ ∃ after, request.serve before = (.ok (.category .mail), after) ∧
      request.Touches (.category .mail) before after := by
  intro before request
  have hreached : before.Reached := .answer .empty _
  have hnew : ∀ id, request.generated? = some id →
      before.findOrganization? id = none ∧ before.findCategory? id = none := by
    rintro _ ⟨⟩
    exact ⟨by decide +kernel, by decide +kernel⟩
  have hserve : request.serve before = (.ok (.category .mail),
      ⟨[.ofOrganization (.small 1 "Desk" none)], [.ofCategory .mail]⟩) := by decide +kernel
  exact ⟨hreached, _, hserve, (one_row_touched hreached request hnew).2.1 _ _ hserve⟩

end ServiceDesk
