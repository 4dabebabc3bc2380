import ServiceDesk.Proofs.Text.Numerals
import ServiceDesk.Proofs.Time.Timestamps
import ServiceDesk.Store.Basic

/-!
Rows of the store and what a write does to them. A row that was written from an entity is read back
with its timestamps cut to microseconds, unless their year has a sign. A save puts one row in place
of the row of the same id, a deletion takes one row away, and all other rows stay as they are.
-/

namespace ServiceDesk

open Time

/-! ### Reading a row back -/

@[simp]
theorem decodeUuid_text (id : Uuid) : decodeUuid id.text = .ok id := by
  rw [decodeUuid, Uuid.ofText?_text]

@[simp]
theorem decodeId_text (id : Uuid) : decodeId (some id.text) = .ok id := decodeUuid_text id

@[simp]
theorem decodeParent_text (parent : Option Uuid) :
    decodeParent (parent.map Uuid.text) = .ok parent := by
  cases parent with
  | none => rfl
  | some id => simp [decodeParent, Except.map]

@[simp]
theorem decodeActivity_ofBool (isActive : Bool) :
    decodeActivity (.ofBool isActive) = .ok isActive := by
  rw [decodeActivity, Activity.toBool?_ofBool]

/-- Both timestamps of an organization can be read back. -/
def Organization.IsPlain (organization : Organization) : Prop :=
  organization.createdAt.IsPlain ∧ organization.updatedAt.IsPlain

instance (organization : Organization) : Decidable organization.IsPlain :=
  inferInstanceAs (Decidable (_ ∧ _))

/-- An organization as it is read back. -/
def Organization.toMicros (organization : Organization) : Organization :=
  { organization with
    createdAt := organization.createdAt.toMicros
    updatedAt := organization.updatedAt.toMicros }

def Category.IsPlain (category : Category) : Prop :=
  category.createdAt.IsPlain ∧ category.updatedAt.IsPlain

instance (category : Category) : Decidable category.IsPlain :=
  inferInstanceAs (Decidable (_ ∧ _))

def Category.toMicros (category : Category) : Category :=
  { category with
    createdAt := category.createdAt.toMicros
    updatedAt := category.updatedAt.toMicros }

theorem OrganizationRow.toOrganization_ofOrganization (organization : Organization) :
    (ofOrganization organization).toOrganization =
      if organization.IsPlain then .ok organization.toMicros else .error .timestamp := by
  simp only [toOrganization, ofOrganization, decodeActivity_ofBool, decodeId_text,
    decodeParent_text, decodeInstant_encodeInstant, Organization.IsPlain, bind, Except.bind]
  by_cases hcreated : organization.createdAt.IsPlain <;>
    by_cases hupdated : organization.updatedAt.IsPlain <;>
    simp [hcreated, hupdated, Organization.toMicros]

theorem CategoryRow.toCategory_ofCategory (category : Category) :
    (ofCategory category).toCategory =
      if category.IsPlain then .ok category.toMicros else .error .timestamp := by
  simp only [toCategory, ofCategory, decodeActivity_ofBool, decodeId_text, decodeUuid_text,
    decodeParent_text, decodeInstant_encodeInstant, Category.IsPlain, bind, Except.bind]
  by_cases hcreated : category.createdAt.IsPlain <;>
    by_cases hupdated : category.updatedAt.IsPlain <;>
    simp [hcreated, hupdated, Category.toMicros]

/-- The microseconds are all that a row holds of the times. -/
theorem OrganizationRow.map_toMicros (organizations : List Organization) :
    (organizations.map Organization.toMicros).map ofOrganization =
      organizations.map ofOrganization := by
  rw [List.map_map]
  refine List.map_congr_left fun organization _ => ?_
  simp [ofOrganization, Organization.toMicros, encodeInstant_toMicros]

theorem CategoryRow.map_toMicros (categories : List Category) :
    (categories.map Category.toMicros).map ofCategory = categories.map ofCategory := by
  rw [List.map_map]
  refine List.map_congr_left fun category _ => ?_
  simp [ofCategory, Category.toMicros, encodeInstant_toMicros]

theorem OrganizationRow.id_of_toOrganization {row : OrganizationRow} {organization : Organization}
    (h : row.toOrganization = .ok organization) : decodeId row.id = .ok organization.id := by
  obtain ⟨isActive, _, h⟩ := bind_eq_ok.1 h
  obtain ⟨id, hid, h⟩ := bind_eq_ok.1 h
  obtain ⟨parentId, _, h⟩ := bind_eq_ok.1 h
  obtain ⟨createdAt, _, h⟩ := bind_eq_ok.1 h
  obtain ⟨updatedAt, _, h⟩ := bind_eq_ok.1 h
  cases h
  exact hid

theorem CategoryRow.id_of_toCategory {row : CategoryRow} {category : Category}
    (h : row.toCategory = .ok category) : decodeId row.id = .ok category.id := by
  obtain ⟨isActive, _, h⟩ := bind_eq_ok.1 h
  obtain ⟨id, hid, h⟩ := bind_eq_ok.1 h
  obtain ⟨organizationId, _, h⟩ := bind_eq_ok.1 h
  obtain ⟨parentId, _, h⟩ := bind_eq_ok.1 h
  obtain ⟨createdAt, _, h⟩ := bind_eq_ok.1 h
  obtain ⟨updatedAt, _, h⟩ := bind_eq_ok.1 h
  cases h
  exact hid

/-- Reading many things one after another works out when each of them can be read. -/
theorem mapM_ite_ok {α β ε : Type} {readable : α → Prop} [DecidablePred readable] {read : α → β}
    {fault : ε} (items : List α) :
    items.mapM (fun item => if readable item then Except.ok (read item) else .error fault) =
      if ∀ item ∈ items, readable item then .ok (items.map read) else .error fault := by
  induction items with
  | nil => rfl
  | cons item items ih =>
      rw [List.mapM_cons, ih]
      by_cases hfirst : readable item
      · by_cases hrest : ∀ item ∈ items, readable item
        · rw [if_pos hfirst, if_pos hrest, if_pos (List.forall_mem_cons.2 ⟨hfirst, hrest⟩)]
          rfl
        · rw [if_pos hfirst, if_neg hrest, if_neg fun hall => hrest (List.forall_mem_cons.1 hall).2]
          rfl
      · rw [if_neg hfirst, if_neg (c := ∀ other ∈ item :: items, readable other)
          fun hall => hfirst (List.forall_mem_cons.1 hall).1]
        rfl

theorem OrganizationRow.decodeAll_map (organizations : List Organization) :
    decodeAll (organizations.map ofOrganization) =
      if ∀ organization ∈ organizations, organization.IsPlain then
        .ok (organizations.map Organization.toMicros)
      else .error .timestamp := by
  have hreadable : (organizations.map ofOrganization).all isReadable = true := by
    simp [isReadable, ofOrganization, Activity.toBool?_ofBool]
  rw [decodeAll, if_pos hreadable, List.mapM_map]
  simp only [Function.comp_def, toOrganization_ofOrganization]
  exact mapM_ite_ok organizations

theorem CategoryRow.decodeAll_map (categories : List Category) :
    decodeAll (categories.map ofCategory) =
      if ∀ category ∈ categories, category.IsPlain then .ok (categories.map Category.toMicros)
      else .error .timestamp := by
  have hreadable : (categories.map ofCategory).all isReadable = true := by
    simp [isReadable, ofCategory, Activity.toBool?_ofBool]
  rw [decodeAll, if_pos hreadable, List.mapM_map]
  simp only [Function.comp_def, toCategory_ofCategory]
  exact mapM_ite_ok categories

namespace Store

/-! ### Writing a row -/

/-- A row that takes the place of those with its key is found where they were. -/
theorem find?_replace {ρ : Type} (key : ρ → Option String) (rows : List ρ) (row : ρ)
    (text : String) :
    (rows.map fun stored => if key stored = key row then row else stored).find?
        (key · == some text) =
      (rows.find? (key · == some text)).map fun stored =>
        if key stored = key row then row else stored := by
  have hsame : ((key · == some text) ∘ fun stored =>
      if key stored = key row then row else stored) = fun stored => key stored == some text := by
    funext stored
    rw [Function.comp_apply]
    split
    · rename_i heq
      rw [heq]
    · rfl
  rw [List.find?_map, hsame]

/-- After a row was put into a table the row is found under its id, and every other one as before. -/
theorem find?_put {ρ : Type} (key : ρ → Option String) (rows : List ρ) (row : ρ) {own : String}
    (hkey : key row = some own) (text : String) :
    (if rows.any (key · == key row) then
        rows.map fun stored => if key stored = key row then row else stored
      else rows ++ [row]).find? (key · == some text) =
      if text = own then some row else rows.find? (key · == some text) := by
  by_cases htext : text = own
  · subst htext
    rw [if_pos rfl]
    split
    · rename_i hknown
      obtain ⟨stored, hmem, hstored⟩ := List.any_eq_true.1 hknown
      rw [hkey] at hstored
      have hsome : (rows.find? (key · == some text)).isSome := by
        rw [List.find?_isSome]
        exact ⟨stored, hmem, hstored⟩
      obtain ⟨found, hfound⟩ := Option.isSome_iff_exists.1 hsome
      have hkeyed := List.find?_some hfound
      rw [beq_iff_eq] at hkeyed
      rw [find?_replace, hfound, Option.map_some, if_pos (hkeyed.trans hkey.symm)]
    · rename_i hnew
      have hnone : rows.find? (key · == some text) = none := by
        rw [List.find?_eq_none]
        intro stored hmem hstored
        refine hnew (List.any_eq_true.2 ⟨stored, hmem, ?_⟩)
        rwa [hkey]
      rw [List.find?_append, hnone, Option.none_or]
      simp [hkey]
  · rw [if_neg htext]
    have hother : ¬key row = some text := by
      rw [hkey]
      exact fun heq => htext (Option.some.inj heq).symm
    split
    · rw [find?_replace]
      cases hfound : rows.find? (key · == some text) with
      | none => rfl
      | some found =>
          have hkeyed := List.find?_some hfound
          rw [beq_iff_eq] at hkeyed
          rw [Option.map_some, if_neg]
          exact fun heq => hother (heq ▸ hkeyed)
    · rw [List.find?_append]
      simp [hother]

theorem saveOrganization_eq_ok {store next : Store} {organization : Organization}
    (h : store.saveOrganization organization = .ok next) :
    next = { store with
      organizations := putOrganization store.organizations (store.mergeOrganization organization) } := by
  rw [saveOrganization] at h
  split at h
  · cases h
  · exact (Except.ok.inj h).symm

theorem saveCategory_eq_ok {store next : Store} {category : Category}
    (h : store.saveCategory category = .ok next) :
    next = { store with
      categories := putCategory store.categories (store.mergeCategory category) } := by
  rw [saveCategory] at h
  split at h
  · cases h
  · exact (Except.ok.inj h).symm

theorem mergeOrganization_id (store : Store) (organization : Organization) :
    (store.mergeOrganization organization).id = some organization.id.text := by
  rw [mergeOrganization]
  split <;> rfl

theorem mergeCategory_id (store : Store) (category : Category) :
    (store.mergeCategory category).id = some category.id.text := by
  rw [mergeCategory]
  split <;> rfl

theorem findOrganization?_save {store next : Store} {organization : Organization}
    (h : store.saveOrganization organization = .ok next) (id : Uuid) :
    next.findOrganization? id =
      if id = organization.id then some (store.mergeOrganization organization)
      else store.findOrganization? id := by
  cases saveOrganization_eq_ok h
  refine (find?_put OrganizationRow.id _ _ (mergeOrganization_id store organization) id.text).trans ?_
  simp only [Uuid.text_inj, findOrganization?]

theorem findCategory?_save {store next : Store} {category : Category}
    (h : store.saveCategory category = .ok next) (id : Uuid) :
    next.findCategory? id =
      if id = category.id then some (store.mergeCategory category) else store.findCategory? id := by
  cases saveCategory_eq_ok h
  refine (find?_put CategoryRow.id _ _ (mergeCategory_id store category) id.text).trans ?_
  simp only [Uuid.text_inj, findCategory?]

/-- A deletion that tells of a row has met one to which no other row referred. -/
theorem deleteOrganization_eq_ok {store next : Store} {id : Uuid}
    (h : store.deleteOrganization id = .ok (true, next)) :
    (store.findOrganization? id).isSome ∧ store.organizationReferences id = 0 ∧
      next = { store with
        organizations := store.organizations.filter (·.id != some id.text) } := by
  rw [deleteOrganization] at h
  split at h
  · cases h
  · rename_i hfound
    split at h
    · cases h
    · rename_i hfree
      refine ⟨by simpa [Option.isSome_iff_ne_none] using hfound, by omega, ?_⟩
      exact (Prod.mk.inj (Except.ok.inj h)).2.symm

/-- A deletion that tells of no row has met none. -/
theorem deleteOrganization_eq_false {store next : Store} {id : Uuid}
    (h : store.deleteOrganization id = .ok (false, next)) :
    store.findOrganization? id = none ∧ next = store := by
  rw [deleteOrganization] at h
  split at h
  · rename_i hmissing
    exact ⟨Option.isNone_iff_eq_none.1 hmissing, (Prod.mk.inj (Except.ok.inj h)).2.symm⟩
  · split at h
    · cases h
    · cases h

theorem deleteCategory_eq_false {store next : Store} {id : Uuid}
    (h : store.deleteCategory id = .ok (false, next)) :
    store.findCategory? id = none ∧ next = store := by
  rw [deleteCategory] at h
  split at h
  · rename_i hmissing
    exact ⟨Option.isNone_iff_eq_none.1 hmissing, (Prod.mk.inj (Except.ok.inj h)).2.symm⟩
  · split at h
    · cases h
    · cases h

theorem deleteCategory_eq_ok {store next : Store} {id : Uuid}
    (h : store.deleteCategory id = .ok (true, next)) :
    (store.findCategory? id).isSome ∧ store.categoryReferences id = 0 ∧
      next = { store with categories := store.categories.filter (·.id != some id.text) } := by
  rw [deleteCategory] at h
  split at h
  · cases h
  · rename_i hfound
    split at h
    · cases h
    · rename_i hfree
      refine ⟨by simpa [Option.isSome_iff_ne_none] using hfound, by omega, ?_⟩
      exact (Prod.mk.inj (Except.ok.inj h)).2.symm

/-- After the rows of one id were taken out of a table, every other row is found as before. -/
theorem find?_filter_ne {ρ : Type} (key : ρ → Option String) (rows : List ρ) (gone text : String) :
    (rows.filter fun row => key row != some gone).find? (key · == some text) =
      if text = gone then none else rows.find? (key · == some text) := by
  rw [List.find?_filter]
  split
  · rename_i heq
    rw [heq, List.find?_eq_none]
    intro row _
    simp
  · rename_i hne
    congr 1
    funext row
    by_cases hrow : key row = some text
    · simp [hrow, hne]
    · simp [hrow]

theorem findOrganization?_delete {store next : Store} {gone : Uuid}
    (h : store.deleteOrganization gone = .ok (true, next)) (id : Uuid) :
    next.findOrganization? id = if id = gone then none else store.findOrganization? id := by
  obtain ⟨_, _, rfl⟩ := deleteOrganization_eq_ok h
  refine (find?_filter_ne OrganizationRow.id store.organizations gone.text id.text).trans ?_
  simp only [Uuid.text_inj, findOrganization?]

theorem findCategory?_delete {store next : Store} {gone : Uuid}
    (h : store.deleteCategory gone = .ok (true, next)) (id : Uuid) :
    next.findCategory? id = if id = gone then none else store.findCategory? id := by
  obtain ⟨_, _, rfl⟩ := deleteCategory_eq_ok h
  refine (find?_filter_ne CategoryRow.id store.categories gone.text id.text).trans ?_
  simp only [Uuid.text_inj, findCategory?]

end Store

end ServiceDesk
