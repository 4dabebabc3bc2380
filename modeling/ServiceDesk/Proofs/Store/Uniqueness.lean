import ServiceDesk.Proofs.Store.References

/-!
Names and domains that are taken once. No two organizations have the same name or the same domain,
and no two categories of the same name lie in the same place. A save is refused if it would break
this, and a deletion cannot break it.
-/

namespace ServiceDesk

open Hierarchy

/-- Organizations that can be told apart by name, and by domain if they have one. -/
def Organization.Differs (a b : Organization) : Prop :=
  a.name ≠ b.name ∧ (b.domain.isSome → a.domain ≠ b.domain)

/-- Categories that can be told apart by name, unless they lie in different places. -/
def Category.Differs (a b : Category) : Prop :=
  a.organizationId = b.organizationId → a.parentId = b.parentId → a.name ≠ b.name

theorem Organization.Differs.symm {a b : Organization} (h : a.Differs b) : b.Differs a :=
  ⟨h.1.symm, fun hsome heq => h.2 (heq ▸ hsome) heq.symm⟩

theorem Category.Differs.symm {a b : Category} (h : a.Differs b) : b.Differs a :=
  fun howner hparent => (h howner.symm hparent.symm).symm

namespace Hierarchy

variable {α : Type} [Nested α] {R : α → α → Prop} {items : List α}

/-- Any two entities of different ids are in a relation. -/
def Apart (R : α → α → Prop) (items : List α) : Prop :=
  ∀ a ∈ items, ∀ b ∈ items, Nested.id a ≠ Nested.id b → R a b

theorem Apart.subset (h : Apart R items) {fewer : List α} (hsub : fewer ⊆ items) : Apart R fewer :=
  fun a ha b hb hne => h a (hsub ha) b (hsub hb) hne

/-- An entity may be put in place just if it is in the relation to all others. -/
theorem apart_put (hsymm : ∀ {a b}, R a b → R b a) (h : Apart R items) (item : α) :
    Apart R (put items item) ↔ ∀ other ∈ items, Nested.id other ≠ Nested.id item → R other item := by
  constructor
  · intro hput other hmem hne
    exact hput other (mem_put.2 (Or.inr ⟨hmem, hne⟩)) item (mem_put.2 (Or.inl rfl)) hne
  · intro hitem a ha b hb hne
    rcases mem_put.1 ha with rfl | ⟨hold, hother⟩
    · rcases mem_put.1 hb with rfl | ⟨hold, hother⟩
      · exact absurd rfl hne
      · exact hsymm (hitem b hold hother)
    · rcases mem_put.1 hb with rfl | ⟨hstays, _⟩
      · exact hitem a hold hother
      · exact h a hold b hstays hne

end Hierarchy

namespace Contents

variable {contents : Contents} {lost : Uuid → Prop}

/-- No name and no domain is taken twice. -/
structure Distinct (contents : Contents) : Prop where
  organizations : Apart Organization.Differs contents.organizations
  categories : Apart Category.Differs contents.categories

theorem Distinct.empty : Distinct empty where
  organizations := fun _ hmem => by cases hmem
  categories := fun _ hmem => by cases hmem

/-- An organization is admitted just if its parent is another one that is there and it differs from
all other organizations. -/
theorem admitsOrganization_iff {organization : Organization} :
    contents.AdmitsOrganization organization ↔
      (∀ parent, organization.parentId = some parent →
        parent ≠ organization.id ∧ parent ∈ contents.organizations.map Nested.id) ∧
      ∀ other ∈ contents.organizations, other.id ≠ organization.id → other.Differs organization := by
  constructor
  · exact fun h => ⟨h.parent, fun other hmem hne =>
      ⟨h.name other hmem hne, h.domain other hmem hne⟩⟩
  · exact fun ⟨hparent, hdiffers⟩ => ⟨hparent, fun other hmem hne => (hdiffers other hmem hne).2,
      fun other hmem hne => (hdiffers other hmem hne).1⟩

/-- The merged organization differs from others as the saved one does. -/
theorem differs_mergeOrganization {organization other : Organization} :
    other.Differs (contents.mergeOrganization organization) ↔ other.Differs organization := by
  rw [mergeOrganization]
  split <;> exact Iff.rfl

/-- A category is admitted just if its parent is another one that is there, its organization is
there in case that it is new, and it differs from all other categories where it stays. -/
theorem admitsCategory_iff {category : Category} : contents.AdmitsCategory category ↔
    (∀ parent, category.parentId = some parent →
      parent ≠ category.id ∧ parent ∈ contents.categories.map Nested.id) ∧
    (category.id ∉ contents.categories.map Nested.id →
      category.organizationId ∈ contents.organizations.map Nested.id) ∧
    ∀ other ∈ contents.categories, other.id ≠ category.id →
      other.Differs (contents.mergeCategory category) := by
  have hparent : (contents.mergeCategory category).parentId = category.parentId :=
    mergeCategory_parentId contents category
  have hname := mergeCategory_name contents category
  constructor
  · intro h
    refine ⟨h.parent, h.owner, fun other hmem hne howner hplace => ?_⟩
    rw [hname]
    exact h.name other hmem hne howner (hplace.trans hparent)
  · rintro ⟨hparents, howner, hdiffers⟩
    refine ⟨hparents, howner, fun other hmem hne hsame hplace => ?_⟩
    rw [← hname]
    exact hdiffers other hmem hne hsame (hplace.trans hparent.symm)

/-- No call takes a name or a domain twice. -/
theorem Becomes.distinct {call : Store.Call} {after : Contents}
    (hcall : contents.Becomes call after) (hclosed : contents.Closed lost)
    (hpresent : ∀ organization, call = .saveOrganization organization → ¬lost organization.id)
    (h : contents.Distinct) : after.Distinct := by
  cases hcall with
  | same => exact h
  | @saveOrganization organization hsave =>
      obtain ⟨_, hdiffers⟩ := admitsOrganization_iff.1
        ((hclosed.saveOrganization_eq_ok (hpresent _ rfl)).1 hsave).1
      refine ⟨(apart_put Organization.Differs.symm h.organizations _).2 ?_, h.categories⟩
      intro other hmem hne
      rw [mergeOrganization_id] at hne
      exact differs_mergeOrganization.2 (hdiffers other hmem hne)
  | @saveCategory category hsave =>
      obtain ⟨_, _, hdiffers⟩ := admitsCategory_iff.1 (hclosed.saveCategory_eq_ok.1 hsave).1
      refine ⟨h.organizations, (apart_put Category.Differs.symm h.categories _).2 ?_⟩
      intro other hmem hne
      rw [mergeCategory_id] at hne
      exact hdiffers other hmem hne
  | deleteOrganization _ _ =>
      exact ⟨h.organizations.subset (List.filter_subset_self _), h.categories⟩
  | deleteCategory _ => exact ⟨h.organizations, h.categories.subset (List.filter_subset_self _)⟩

end Contents

end ServiceDesk
