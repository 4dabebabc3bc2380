import Mathlib.Data.List.Nodup
import ServiceDesk.Proofs.Store.References
import ServiceDesk.Proofs.Time.TextOrder
import ServiceDesk.Service.Action

/-!
The births of rows. When a row is inserted its id, its owner and its time of creation are settled, and no
later save changes them. So a call leaves the births of a table as they are, or takes some of them away,
or adds one behind all others. A table is read in the order of the times of creation, cut to
microseconds; births of the same time are left in the order of their insertion, as the sort is stable.
-/

namespace ServiceDesk

open Hierarchy

/-! ### Stable sorting -/

section Sorting

variable {α : Type} {items : List α} {before : α → α → Bool}

/-- A selection of elements that may all stand before each other is left in its order. -/
theorem filter_mergeSort (htrans : ∀ a b c, before a b = true → before b c = true → before a c = true)
    (htotal : ∀ a b, (before a b || before b a) = true) (select : α → Bool)
    (hsame : ∀ a b, select a = true → select b = true → before a b = true) :
    (items.mergeSort before).filter select = items.filter select := by
  have hsorted : (items.filter select).Pairwise fun a b => before a b = true :=
    List.pairwise_of_forall_mem_list fun a ha b hb =>
      hsame a b (List.mem_filter.1 ha).2 (List.mem_filter.1 hb).2
  have hsub : (items.filter select).Sublist ((items.mergeSort before).filter select) := by
    have hkept := (List.sublist_mergeSort htrans htotal hsorted List.filter_sublist).filter select
    simpa only [List.filter_filter, Bool.and_self] using hkept
  exact (hsub.eq_of_length ((List.mergeSort_perm items before).filter select).length_eq.symm).symm

/-- Elements that may stand before each other are left in their order. -/
theorem pairwise_mergeSort_stable {older : α → α → Prop}
    (htrans : ∀ a b c, before a b = true → before b c = true → before a c = true)
    (htotal : ∀ a b, (before a b || before b a) = true) (h : items.Pairwise older) :
    (items.mergeSort before).Pairwise fun a b =>
      before a b = true ∧ (before b a = true → older a b) := by
  rw [List.pairwise_iff_forall_sublist] at h ⊢
  intro a b hsub
  have hfirst : before a b = true :=
    List.pairwise_iff_forall_sublist.1 (List.pairwise_mergeSort htrans htotal items) hsub
  refine ⟨hfirst, fun hsecond => h ?_⟩
  -- Both are among the elements that stand where `a` may stand, and these are not moved.
  let select (c : α) : Bool := before a c && before c a
  have hself : before a a = true := by simpa using htotal a a
  have hsame : ∀ c d, select c = true → select d = true → before c d = true := by
    intro c d hc hd
    exact htrans c a d (Bool.and_eq_true_iff.1 hc).2 (Bool.and_eq_true_iff.1 hd).1
  have hpair : [a, b].filter select = [a, b] := by
    simp [select, hself, hfirst, hsecond]
  have hkept := hsub.filter select
  rw [hpair, filter_mergeSort htrans htotal select hsame] at hkept
  exact hkept.trans List.filter_sublist

end Sorting

/-! ### Births -/

/-- What of a row is settled when it is inserted. -/
structure Birth where
  id : Uuid
  owner : Option Uuid
  createdAt : Time.Instant

def Organization.birth (organization : Organization) : Birth :=
  ⟨organization.id, none, organization.createdAt⟩

def Category.birth (category : Category) : Birth :=
  ⟨category.id, some category.organizationId, category.createdAt⟩

namespace Birth

def toMicros (birth : Birth) : Birth := { birth with createdAt := birth.createdAt.toMicros }

/-- Births in the order of the texts of their times. -/
def sorted (births : List Birth) : List Birth :=
  births.mergeSort fun a b => decide (encodeInstant a.createdAt ≤ encodeInstant b.createdAt)

def owned (owner : Uuid) (births : List Birth) : List Birth :=
  births.filter fun birth => birth.owner = some owner

/-- The order of a read: by the time of creation, and for the same time by the age. -/
structure Precedes (age : Uuid → Nat) (a b : Birth) : Prop where
  created : a.createdAt ≤ b.createdAt
  tie : a.createdAt = b.createdAt → age b.id < age a.id

variable {births : List Birth} {age : Uuid → Nat}

theorem Precedes.asymm {a b : Birth} (hab : Precedes age a b) : ¬Precedes age b a := by
  intro hba
  have htime : a.createdAt = b.createdAt := Time.Instant.le_antisymm hab.created hba.created
  exact (hab.tie htime).asymm (hba.tie htime.symm)

theorem owned_sublist (owner : Uuid) (births : List Birth) : (owned owner births).Sublist births :=
  List.filter_sublist

theorem map_id_toMicros (births : List Birth) : (births.map toMicros).map id = births.map id := by
  rw [List.map_map]
  rfl

/-- What is sorted by text and cut to microseconds is in the order of a read. -/
theorem pairwise_precedes (hplain : ∀ birth ∈ births, birth.createdAt.IsPlain)
    (haged : births.Pairwise fun a b => age b.id < age a.id) :
    ((sorted births).map toMicros).Pairwise (Precedes age) := by
  rw [List.pairwise_map]
  have hsorted : (sorted births).Pairwise fun a b =>
      decide (encodeInstant a.createdAt ≤ encodeInstant b.createdAt) = true ∧
        (decide (encodeInstant b.createdAt ≤ encodeInstant a.createdAt) = true →
          age b.id < age a.id) := by
    refine pairwise_mergeSort_stable ?_ ?_ haged
    · intro a b c hab hbc
      simp only [decide_eq_true_eq] at hab hbc ⊢
      exact hab.trans hbc
    · intro a b
      simp only [Bool.or_eq_true, decide_eq_true_eq]
      exact le_total _ _
  refine hsorted.imp_of_mem fun {a b} ha hb hab => ?_
  have haplain := hplain a (List.mem_mergeSort.1 ha)
  have hbplain := hplain b (List.mem_mergeSort.1 hb)
  simp only [decide_eq_true_eq, encodeInstant_le_iff haplain hbplain,
    encodeInstant_le_iff hbplain haplain] at hab
  refine ⟨hab.1, fun hsame => hab.2 ?_⟩
  have hsame : a.createdAt.toMicros = b.createdAt.toMicros := hsame
  rw [hsame]
  exact Time.Instant.le_refl _

/-- What births may become by a call: some are taken away, or one is added behind all others. -/
inductive Continues (births : List Birth) : List Birth → Prop
  | thinned {after} (h : after.Sublist births) : Continues births after
  | grown {birth} (h : birth.id ∉ births.map id) : Continues births (births ++ [birth])

variable {after : List Birth}

/-- A row that is there before and after a call has the same birth. -/
theorem Continues.persists (h : Continues births after) (hnodup : (births.map id).Nodup)
    {a b : Birth} (ha : a ∈ after) (hb : b ∈ births) (hid : a.id = b.id) : a = b := by
  cases h with
  | thinned hsub => exact List.inj_on_of_nodup_map hnodup (hsub.subset ha) hb hid
  | grown hnew =>
      rcases List.mem_append.1 ha with hold | hadded
      · exact List.inj_on_of_nodup_map hnodup hold hb hid
      · rw [List.mem_singleton.1 hadded] at hid
        exact absurd (hid ▸ List.mem_map_of_mem hb) hnew

/-- Ages that grow by one, and start when a row is inserted, stay in the order of insertion. -/
theorem Continues.aged (h : Continues births after) {age grown : Uuid → Nat}
    (hgrown : ∀ birth ∈ after, grown birth.id = age birth.id + 1)
    (hthere : ∀ birth ∈ births, 0 < age birth.id)
    (hmissing : ∀ id, id ∉ births.map Birth.id → age id = 0)
    (haged : births.Pairwise fun a b => age b.id < age a.id) :
    after.Pairwise fun a b => grown b.id < grown a.id := by
  have hkept : after.Pairwise fun a b => age b.id < age a.id := by
    cases h with
    | thinned hsub => exact haged.sublist hsub
    | grown hnew =>
        refine List.pairwise_append.2 ⟨haged, List.pairwise_singleton _ _, ?_⟩
        intro a ha b hb
        rw [List.mem_singleton.1 hb, hmissing _ hnew]
        exact hthere a ha
  refine hkept.imp_of_mem fun {a b} ha hb hab => ?_
  rw [hgrown a ha, hgrown b hb]
  exact Nat.succ_lt_succ hab

/-- Those that are in both lists stand in the same order. -/
def KeepsOrder (before after : List Uuid) : Prop :=
  before.filter (· ∈ after) = after.filter (· ∈ before)

/-- The order of a read is the same for rows that persist, though all ages have grown. -/
theorem keepsOrder {age grown : Uuid → Nat} (hnodup : (births.map id).Nodup)
    (hnodup' : (after.map id).Nodup)
    (hpersists : ∀ a ∈ after, ∀ b ∈ births, a.id = b.id → a = b)
    (hgrown : ∀ birth ∈ after, grown birth.id = age birth.id + 1)
    (hbirths : births.Pairwise (Precedes age)) (hafter : after.Pairwise (Precedes grown)) :
    KeepsOrder (births.map id) (after.map id) := by
  let stays (birth : Birth) : Bool := birth.id ∈ after.map id
  let stayed (birth : Birth) : Bool := birth.id ∈ births.map id
  have hmem : ∀ birth, birth ∈ births.filter stays ↔ birth ∈ after.filter stayed := by
    intro birth
    simp only [List.mem_filter, stays, stayed, decide_eq_true_eq]
    constructor
    · rintro ⟨hbirth, hid⟩
      obtain ⟨a, ha, haid⟩ := List.mem_map.1 hid
      exact ⟨hpersists a ha birth hbirth haid ▸ ha, List.mem_map_of_mem hbirth⟩
    · rintro ⟨hbirth, hid⟩
      obtain ⟨b, hb, hbid⟩ := List.mem_map.1 hid
      exact ⟨hpersists birth hbirth b hb hbid.symm ▸ hb, List.mem_map_of_mem hbirth⟩
  have hperm : (births.filter stays).Perm (after.filter stayed) :=
    (List.perm_ext_iff_of_nodup ((List.Nodup.of_map _ hnodup).filter _)
      ((List.Nodup.of_map _ hnodup').filter _)).2 hmem
  have hsame : births.filter stays = after.filter stayed := by
    have hages : (after.filter stayed).Pairwise (Precedes age) := by
      refine (hafter.filter _).imp_of_mem fun {a b} ha hb hab => ⟨hab.created, fun htime => ?_⟩
      have hages := hab.tie htime
      rw [hgrown a (List.mem_of_mem_filter ha), hgrown b (List.mem_of_mem_filter hb)] at hages
      exact Nat.lt_of_succ_lt_succ hages
    exact hperm.eq_of_pairwise (fun a b _ _ hab hba => absurd hba hab.asymm) (hbirths.filter _) hages
  calc (births.map id).filter (· ∈ after.map id)
      = (births.filter stays).map id := List.filter_map
    _ = (after.filter stayed).map id := by rw [hsame]
    _ = (after.map id).filter (· ∈ births.map id) := by rw [List.filter_map]; rfl

end Birth

/-- An entity that is put in place is a birth if its id is new, and of the birth that was there if it
is known. -/
theorem Birth.continues_put {α : Type} [Nested α] {birth : α → Birth}
    (hbirth : ∀ item, (birth item).id = Nested.id item) {items : List α} {item : α}
    (hsame : ∀ stored ∈ items, Nested.id stored = Nested.id item → birth item = birth stored) :
    Continues (items.map birth) ((put items item).map birth) := by
  by_cases hknown : Nested.id item ∈ items.map Nested.id
  · have hput : (put items item).map birth = items.map birth := by
      rw [put, if_pos hknown, List.map_map]
      refine List.map_congr_left fun stored hmem => ?_
      rw [Function.comp_apply]
      split
      · rename_i hid
        exact hsame stored hmem hid
      · rfl
    rw [hput]
    exact .thinned (List.Sublist.refl _)
  · rw [put, if_neg hknown, List.map_append, List.map_singleton]
    refine .grown ?_
    have hids : (items.map birth).map Birth.id = items.map Nested.id := by
      rw [List.map_map]
      exact List.map_congr_left fun stored _ => hbirth stored
    rwa [hbirth, hids]

namespace Contents

variable {contents : Contents}

/-- The births of the rows of a table, in the order of their insertion. -/
def births (contents : Contents) : Layout → List Birth
  | .organizations => contents.organizations.map Organization.birth
  | .categories => contents.categories.map Category.birth

theorem map_id_organizations (contents : Contents) :
    (contents.births .organizations).map Birth.id = contents.organizations.map Nested.id := by
  rw [births, List.map_map]
  rfl

theorem map_id_categories (contents : Contents) :
    (contents.births .categories).map Birth.id = contents.categories.map Nested.id := by
  rw [births, List.map_map]
  rfl

/-- The organization that a save leaves is of the birth of the stored one. -/
theorem birth_mergeOrganization (hnodup : (contents.organizations.map Nested.id).Nodup)
    {organization stored : Organization} (hmem : stored ∈ contents.organizations)
    (hid : stored.id = organization.id) :
    (contents.mergeOrganization organization).birth = stored.birth := by
  rw [mergeOrganization, (organization?_eq_some hnodup).2 ⟨hmem, hid⟩, Organization.birth,
    Organization.birth, hid]

theorem birth_mergeCategory (hnodup : (contents.categories.map Nested.id).Nodup)
    {category stored : Category} (hmem : stored ∈ contents.categories)
    (hid : stored.id = category.id) :
    (contents.mergeCategory category).birth = stored.birth := by
  rw [mergeCategory, (category?_eq_some hnodup).2 ⟨hmem, hid⟩, Category.birth, Category.birth, hid]

variable {lost : Uuid → Prop}

/-- What a call makes of the births of a table. -/
theorem Becomes.continues {call : Store.Call} {after : Contents} (hcall : contents.Becomes call after)
    (h : contents.Closed lost) (layout : Layout) :
    Birth.Continues (contents.births layout) (after.births layout) := by
  have hsame : Birth.Continues (contents.births layout) (contents.births layout) :=
    .thinned (List.Sublist.refl _)
  cases hcall with
  | same => exact hsame
  | @saveOrganization organization _ =>
      cases layout with
      | organizations =>
          refine Birth.continues_put (fun _ => rfl) fun stored hmem hid => ?_
          rw [mergeOrganization_id] at hid
          exact birth_mergeOrganization h.organizations_nodup hmem hid
      | categories => exact hsame
  | @saveCategory category _ =>
      cases layout with
      | organizations => exact hsame
      | categories =>
          refine Birth.continues_put (fun _ => rfl) fun stored hmem hid => ?_
          rw [mergeCategory_id] at hid
          exact birth_mergeCategory h.categories_nodup hmem hid
  | deleteOrganization _ _ =>
      cases layout with
      | organizations => exact .thinned (List.filter_sublist.map _)
      | categories => exact hsame
  | deleteCategory _ =>
      cases layout with
      | organizations => exact hsame
      | categories => exact .thinned (List.filter_sublist.map _)

/-! ### Reading -/

/-- The organizations are read in the sorted order of their births. -/
theorem allOrganizations_births
    (hplain : ∀ organization ∈ contents.organizations, organization.IsPlain) :
    ∃ found, contents.store.allOrganizations = .ok found ∧
      (found.map .ofOrganization).Perm contents.store.organizations ∧
      found.map Organization.birth =
        (Birth.sorted (contents.births .organizations)).map Birth.toMicros := by
  have hsorted : (byCreation contents.organizations).map Organization.birth =
      Birth.sorted (contents.births .organizations) := List.map_mergeSort fun _ _ _ _ => rfl
  refine ⟨_, (allOrganizations_store contents).trans (if_pos hplain), ?_, ?_⟩
  · rw [OrganizationRow.map_toMicros, store]
    exact (List.mergeSort_perm _ _).map _
  · rw [← hsorted, List.map_map, List.map_map]
    rfl

theorem categoriesFor_births (hplain : ∀ category ∈ contents.categories, category.IsPlain)
    (owner : Uuid) : ∃ found, contents.store.categoriesFor owner = .ok found ∧
      (found.map .ofCategory).Perm
        (contents.store.categories.filter fun row => row.organizationId == owner.text) ∧
      found.map Category.birth =
        (Birth.sorted (Birth.owned owner (contents.births .categories))).map Birth.toMicros := by
  have hsorted : (categoriesByCreation (contents.categoriesOf owner)).map Category.birth =
      Birth.sorted (Birth.owned owner (contents.births .categories)) := by
    have hown : (contents.categoriesOf owner).map Category.birth =
        Birth.owned owner (contents.births .categories) := by
      rw [births, Birth.owned, List.filter_map, categoriesOf]
      simp [Function.comp_def, Category.birth]
    rw [← hown]
    exact List.map_mergeSort fun _ _ _ _ => rfl
  have hplain : ∀ category ∈ contents.categoriesOf owner, category.IsPlain :=
    fun category hmem => hplain category (List.mem_of_mem_filter hmem)
  refine ⟨_, (categoriesFor_store contents owner).trans (if_pos hplain), ?_, ?_⟩
  · rw [CategoryRow.map_toMicros, store, filter_rows_organizationId]
    exact (List.mergeSort_perm _ _).map _
  · rw [← hsorted, List.map_map, List.map_map]
    rfl

end Contents

end ServiceDesk
