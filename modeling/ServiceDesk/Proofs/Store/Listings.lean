import Mathlib.Data.List.Infix
import Mathlib.Data.String.Basic
import Mathlib.Order.Compare
import ServiceDesk.Proofs.Store.Ledger
import ServiceDesk.Proofs.Text.ByteOrder

/-!
Listings. What a query finds is told without the way in which it is found: the rows that pass every
filter that is given, ordered by the bytes of the sort column and then by those of the id. A listing
is one page of them, and all pages one after another are the whole.
-/

namespace ServiceDesk

open Hierarchy Text

/-! ### The order of rows -/

/-- A stored value comes before another: an absent value before every text, and texts by their
bytes. -/
inductive Store.Sooner : Option String → Option String → Prop
  | absent {text} : Sooner none (some text)
  | bytes {a b} (h : utf8Bytes a < utf8Bytes b) : Sooner (some a) (some b)

/-- A value of the sort column comes before another in the wanted order. -/
def SortOrder.Puts : SortOrder → Option String → Option String → Prop
  | .asc, a, b => Store.Sooner a b
  | .desc, a, b => Store.Sooner b a

/-- A row stands ahead of another, both told by the sort column and the id: rows with the same value
in the column stand by ascending id. -/
inductive SortOrder.Ahead (order : SortOrder) (a b : Option String × Option String) : Prop
  | column (h : order.Puts a.1 b.1)
  | tie (hsame : a.1 = b.1) (hid : Store.Sooner a.2 b.2)

namespace Store

variable {order : SortOrder} {a b c : Option String}

theorem Sooner.trans (hab : Sooner a b) (hbc : Sooner b c) : Sooner a c := by
  cases hab with
  | absent =>
      cases hbc with
      | bytes _ => exact .absent
  | bytes hab =>
      cases hbc with
      | bytes hbc => exact .bytes (lt_trans hab hbc)

theorem Sooner.asymm (hab : Sooner a b) : ¬Sooner b a := by
  cases hab with
  | absent => exact nofun
  | bytes hab => exact fun | .bytes hba => lt_asymm hab hba

end Store

namespace SortOrder

open Store

variable {order : SortOrder}

theorem Puts.trans {a b c : Option String} (hab : order.Puts a b) (hbc : order.Puts b c) :
    order.Puts a c := by
  cases order with
  | asc => exact Sooner.trans hab hbc
  | desc => exact Sooner.trans hbc hab

theorem Puts.asymm {a b : Option String} (hab : order.Puts a b) : ¬order.Puts b a := by
  cases order with
  | asc => exact Sooner.asymm hab
  | desc => exact Sooner.asymm hab

variable {a b c : Option String × Option String}

theorem Ahead.trans (hab : order.Ahead a b) (hbc : order.Ahead b c) : order.Ahead a c := by
  cases hab with
  | column hab =>
      cases hbc with
      | column hbc => exact .column (hab.trans hbc)
      | tie hsame _ => exact .column (hsame ▸ hab)
  | tie hsame hab =>
      cases hbc with
      | column hbc => exact .column (hsame ▸ hbc)
      | tie hsame' hbc => exact .tie (hsame.trans hsame') (hab.trans hbc)

theorem Ahead.asymm (hab : order.Ahead a b) : ¬order.Ahead b a := by
  cases hab with
  | column hab =>
      rintro (hba | ⟨hsame, _⟩)
      · exact hab.asymm hba
      · rw [hsame] at hab
        exact hab.asymm hab
  | tie hsame hab =>
      rintro (hba | ⟨_, hba⟩)
      · rw [hsame] at hba
        exact hba.asymm hba
      · exact hab.asymm hba

end SortOrder

/-! ### The filters -/

/-- A text occurs in a name up to the case of the letters A to Z. -/
def Text.HasPart (name part : String) : Prop :=
  ∃ before found behind : List Char, name.toList = before ++ found ++ behind ∧
    foldCase found = foldCase part.toList

theorem Text.containsFolded_iff {name part : String} :
    containsFolded name part = true ↔ HasPart name part := by
  rw [containsFolded, occursIn_iff, foldCase, foldCase, List.infix_map_iff]
  constructor
  · rintro ⟨found, ⟨before, behind, hname⟩, hfound⟩
    exact ⟨before, found, behind, hname.symm, hfound.symm⟩
  · rintro ⟨before, found, behind, hname, hfound⟩
    exact ⟨found, ⟨before, behind, hname.symm⟩, hfound.symm⟩

namespace Query

end Query

namespace Store

section Pages

variable {α ρ ι : Type}

end Pages

/-! ### What a listing returns -/

/-- Some rows are those of the stored ones that are accepted, each of them once and in order. -/
structure Finds {ρ : Type} (stored : List ρ) (accepts : ρ → Prop) (ahead : ρ → ρ → Prop)
    (rows : List ρ) : Prop where
  mem : ∀ row, row ∈ rows ↔ row ∈ stored ∧ accepts row
  once : rows.Nodup
  sorted : rows.Pairwise ahead

theorem Finds.unique {ρ : Type} {stored rows others : List ρ} {accepts : ρ → Prop}
    {order : SortOrder} {key : ρ → Option String × Option String}
    (h : Finds stored accepts (fun a b => order.Ahead (key a) (key b)) rows)
    (hother : Finds stored accepts (fun a b => order.Ahead (key a) (key b)) others) :
    rows = others := by
  have hperm : rows.Perm others :=
    (List.perm_ext_iff_of_nodup h.once hother.once).2 fun row => (h.mem row).trans (hother.mem row).symm
  exact hperm.eq_of_pairwise (fun _ _ _ _ hab hba => absurd hba hab.asymm) h.sorted hother.sorted

end Store

/-- Rows that are written from some entities are written from a list of these entities. -/
theorem exists_map_eq_of_subset {α ρ : Type} {row : α → ρ} {items : List α} {rows : List ρ}
    (h : rows ⊆ items.map row) : ∃ found, found ⊆ items ∧ found.map row = rows := by
  induction rows with
  | nil => exact ⟨[], List.nil_subset _, rfl⟩
  | cons first rows ih =>
      obtain ⟨hfirst, hrows⟩ := List.cons_subset.1 h
      obtain ⟨item, hitem, rfl⟩ := List.mem_map.1 hfirst
      obtain ⟨found, hfound, rfl⟩ := ih hrows
      exact ⟨item :: found, List.cons_subset.2 ⟨hitem, hfound⟩, rfl⟩

namespace Contents

variable {contents : Contents}

theorem decodeAll_organizations
    (hplain : ∀ organization ∈ contents.organizations, organization.IsPlain)
    {rows : List OrganizationRow} (h : rows ⊆ contents.store.organizations) :
    ∃ found, OrganizationRow.decodeAll rows = .ok found ∧ found.map .ofOrganization = rows := by
  obtain ⟨stored, hstored, rfl⟩ := exists_map_eq_of_subset h
  refine ⟨stored.map Organization.toMicros, ?_, ?_⟩
  · rw [OrganizationRow.decodeAll_map, if_pos fun organization hmem => hplain _ (hstored hmem)]
  · exact OrganizationRow.map_toMicros stored

theorem decodeAll_categories (hplain : ∀ category ∈ contents.categories, category.IsPlain)
    {rows : List CategoryRow} (h : rows ⊆ contents.store.categories) :
    ∃ found, CategoryRow.decodeAll rows = .ok found ∧ found.map .ofCategory = rows := by
  obtain ⟨stored, hstored, rfl⟩ := exists_map_eq_of_subset h
  refine ⟨stored.map Category.toMicros, ?_, ?_⟩
  · rw [CategoryRow.decodeAll_map, if_pos fun category hmem => hplain _ (hstored hmem)]
  · exact CategoryRow.map_toMicros stored

theorem listOrganizations_store
    (hplain : ∀ organization ∈ contents.organizations, organization.IsPlain)
    (query : Query OrganizationSort) : ∃ found,
      contents.store.listOrganizations query = .ok found ∧ found.map .ofOrganization =
        Store.page query.offset query.limit (contents.store.foundOrganizations query) := by
  refine decodeAll_organizations hplain fun row hmem => ?_
  have hfound := List.mem_of_mem_drop (List.mem_of_mem_take hmem)
  exact List.mem_of_mem_filter (List.mem_mergeSort.1 hfound)

theorem listCategories_store (hplain : ∀ category ∈ contents.categories, category.IsPlain)
    (query : Query CategorySort) : ∃ found,
      contents.store.listCategories query = .ok found ∧ found.map .ofCategory =
        Store.page query.offset query.limit (contents.store.foundCategories query) := by
  refine decodeAll_categories hplain fun row hmem => ?_
  have hfound := List.mem_of_mem_drop (List.mem_of_mem_take hmem)
  exact List.mem_of_mem_filter (List.mem_mergeSort.1 hfound)

end Contents

end ServiceDesk
