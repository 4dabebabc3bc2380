import ServiceDesk.Proofs.Hierarchy.Assembly
import ServiceDesk.Proofs.Hierarchy.Limits
import ServiceDesk.Proofs.Listing.Shapes
import ServiceDesk.Service.Categories

/-!
Who is to blame for a failure. Input that breaks a rule, a missing entity, a conflict and a circle
are for the caller to mend. Damaged parent links and faults of the store are not. The rules on input
blame the caller whatever they are given; the checks and views of the hierarchy do so if the links
that are stored form a forest.
-/

namespace ServiceDesk

open Hierarchy Service

/-- Whether no caller can mend an error. -/
def DeskError.isInternal : DeskError → Bool
  | .corrupt _ => true
  | .store _ => true
  | _ => false

/-- An outcome is a success, or a failure that the caller can mend. -/
def BlamesCaller {α : Type} (outcome : Except DeskError α) : Prop :=
  ∀ error, outcome = .error error → error.isInternal = false

namespace BlamesCaller

variable {α β : Type}

theorem ok (value : α) : BlamesCaller (.ok value) := nofun

theorem error {error : DeskError} (h : error.isInternal = false) :
    BlamesCaller (α := α) (.error error) := by
  rintro _ ⟨⟩
  exact h

theorem of_isOk {outcome : Except DeskError α} (h : outcome.isOk = true) : BlamesCaller outcome := by
  obtain ⟨value, rfl⟩ := exists_of_isOk h
  exact ok value

theorem bind {first : Except DeskError α} {next : α → Except DeskError β} (h : BlamesCaller first)
    (hnext : ∀ value, first = .ok value → BlamesCaller (next value)) :
    BlamesCaller (first >>= next) := by
  cases first with
  | error fault =>
      rintro _ ⟨⟩
      exact h fault rfl
  | ok value => exact hnext value rfl

theorem ite {condition : Prop} [Decidable condition] {yes no : Except DeskError α}
    (hyes : condition → BlamesCaller yes) (hno : ¬condition → BlamesCaller no) :
    BlamesCaller (if condition then yes else no) := by
  split
  · exact hyes ‹_›
  · exact hno ‹_›

end BlamesCaller

/-! ### The rules on input -/

namespace Rules

theorem blamesCaller_name (raw : String) : BlamesCaller (name raw) :=
  .ite (fun _ => .error rfl) fun _ => .ite (fun _ => .error rfl) fun _ =>
    .ite (fun _ => .error rfl) fun _ => .ok _

theorem blamesCaller_description (raw : String) : BlamesCaller (description raw) :=
  .ite (fun _ => .error rfl) fun _ => .ok _

theorem blamesCaller_domain (raw : String) : BlamesCaller (domain raw) := by
  refine .ite (fun _ => .ok _) fun _ => .ite (fun _ => .error rfl) fun _ => ?_
  split
  · exact .error rfl
  · exact .ok _

theorem blamesCaller_tenant (id : Uuid) : BlamesCaller (tenant id) :=
  .ite (fun _ => .error rfl) fun _ => .ok _

end Rules

theorem Organization.blamesCaller_ofInput (id : Uuid) (name domain : String)
    (parentId : Option Uuid) (now : Time.Instant) :
    BlamesCaller (ofInput id name domain parentId now) := by
  refine .bind (Rules.blamesCaller_name name) fun _ _ => ?_
  refine .bind (Rules.blamesCaller_domain domain) fun _ _ => ?_
  exact .ite (fun _ => .error rfl) fun _ => .ok _

theorem Category.blamesCaller_ofInput (id organizationId : Uuid) (name description : String)
    (parentId : Option Uuid) (now : Time.Instant) :
    BlamesCaller (ofInput id organizationId name description parentId now) := by
  refine .bind (Rules.blamesCaller_name name) fun _ _ => ?_
  refine .bind (Rules.blamesCaller_description description) fun _ _ => ?_
  refine .bind (Rules.blamesCaller_tenant organizationId) fun _ _ => ?_
  exact .ite (fun _ => .error rfl) fun _ => .ok _

theorem Organization.blamesCaller_changeParent (organization : Organization)
    (parentId : Option Uuid) (now : Time.Instant) :
    BlamesCaller (organization.changeParent parentId now) :=
  .ite (fun _ => .error rfl) fun _ => .ok _

theorem Category.blamesCaller_changeParent (category : Category) (parentId : Option Uuid)
    (now : Time.Instant) : BlamesCaller (category.changeParent parentId now) :=
  .ite (fun _ => .error rfl) fun _ => .ok _

namespace Service

theorem blamesCaller_applying {α β : Type} {change : Option β} {apply : α → β → Except DeskError α}
    (h : ∀ entity value, BlamesCaller (apply entity value)) (entity : α) :
    BlamesCaller (applying change apply entity) := by
  cases change with
  | none => exact .ok entity
  | some value => exact h entity value

theorem blamesCaller_changeOrganization (changes : OrganizationChanges) (now : Time.Instant)
    (organization : Organization) : BlamesCaller (changeOrganization changes now organization) := by
  refine .bind (blamesCaller_applying (fun _ name => ?_) _) fun _ _ => ?_
  · exact .bind (Rules.blamesCaller_name name) fun _ _ => .ok _
  · refine .bind (blamesCaller_applying (fun _ domain => ?_) _) fun _ _ => ?_
    · exact .bind (Rules.blamesCaller_domain domain) fun _ _ => .ok _
    · exact blamesCaller_applying (fun _ _ => .ok _) _

theorem blamesCaller_changeCategory (changes : CategoryChanges) (now : Time.Instant)
    (category : Category) : BlamesCaller (changeCategory changes now category) := by
  refine .bind (blamesCaller_applying (fun _ name => ?_) _) fun _ _ => ?_
  · exact .bind (Rules.blamesCaller_name name) fun _ _ => .ok _
  · refine .bind (blamesCaller_applying (fun _ description => ?_) _) fun _ _ => ?_
    · exact .bind (Rules.blamesCaller_description description) fun _ _ => .ok _
    · exact blamesCaller_applying (fun _ _ => .ok _) _

theorem blamesCaller_checkTenant (category parent : Category) :
    BlamesCaller (checkTenant category parent) :=
  .ite (fun _ => .ok _) fun _ => .error rfl

end Service

/-- Criteria that cannot be met blame whoever gave them. -/
theorem Criteria.blamesCaller_shape (κ : Type) [SortKey κ] (criteria : Criteria) :
    BlamesCaller (criteria.shape κ) := by
  intro error h
  obtain ⟨field, fault, rfl, -⟩ := (shape_eq_error κ criteria error).1 h
  rfl

/-! ### The hierarchy -/

namespace Hierarchy

variable {α : Type} [Nested α] {items : List α}

/-- The ancestors of an id of a forest are found, and an unknown id is missing. -/
theorem blamesCaller_ancestors (hforest : Forest (linksOf items)) (id : Uuid) :
    BlamesCaller ((Lineage.ofItems items).ancestors id) := by
  have hlinks : (Lineage.ofItems items).links = linksOf items :=
    Lineage.links_ofItems (keys_linksOf items ▸ hforest.nodup)
  by_cases hknown : id ∈ keys (linksOf items)
  · obtain ⟨level, _, hlevel⟩ := hforest.shallow id hknown
    rw [← hlinks] at hlevel
    obtain ⟨above, habove, _⟩ := Lineage.ancestors_of_level hlevel
    rw [habove]
    exact .ok above
  · have hmissing : (Lineage.ofItems items).parent? id = none := by
      cases hparent : (Lineage.ofItems items).parent? id with
      | none => rfl
      | some parent =>
          rw [Lineage.parent?_eq_some, hlinks] at hparent
          exact absurd (mem_keys_of_mem hparent) hknown
    rw [Lineage.ancestors, hmissing]
    exact .error rfl

theorem blamesCaller_checkDepth (hforest : Forest (linksOf items)) (child parent : Uuid) :
    BlamesCaller ((Lineage.ofItems items).checkDepth child (some parent)) := by
  refine (blamesCaller_ancestors hforest parent).bind fun _ _ => ?_
  exact .ite (fun _ => .error rfl) fun _ => .ok ()

theorem blamesCaller_checkAcyclic (hforest : Forest (linksOf items)) (child parent : Uuid) :
    BlamesCaller ((Lineage.ofItems items).checkAcyclic child (some parent)) := by
  refine .ite (fun _ => .error rfl) fun _ => .ite (fun _ => ?_) fun _ => .error rfl
  refine (blamesCaller_ancestors hforest parent).bind fun _ _ => ?_
  exact .ite (fun _ => .error rfl) fun _ => .ok ()

theorem blamesCaller_checkMove (hforest : Forest (linksOf items)) (child parent : Uuid) :
    BlamesCaller (checkMove (Lineage.ofItems items) child parent) :=
  (blamesCaller_checkAcyclic hforest child parent).bind fun _ _ =>
    blamesCaller_checkDepth hforest child parent

/-- A tree is drawn for every id of a forest, and an unknown id is missing. -/
theorem blamesCaller_ofItems (hforest : Forest (linksOf items)) (root : Uuid) :
    BlamesCaller (Tree.ofItems items root) := by
  by_cases hknown : root ∈ keys (linksOf items)
  · exact .of_isOk (Tree.ofItems_isOk hforest hknown)
  · rw [keys_linksOf] at hknown
    rw [Tree.ofItems_of_unknown (keys_linksOf items ▸ hforest.nodup) hknown]
    exact .error rfl

theorem blamesCaller_forestOfItems (hforest : Forest (linksOf items)) :
    BlamesCaller (Tree.forestOfItems items) :=
  .of_isOk (Tree.forestOfItems_isOk hforest)

theorem blamesCaller_pathWithin (hforest : Forest (linksOf items)) (id : Uuid) :
    BlamesCaller (pathWithin items id) := by
  by_cases hknown : id ∈ keys (linksOf items)
  · exact .of_isOk (pathWithin_isOk hforest hknown)
  · rw [keys_linksOf] at hknown
    rw [pathWithin_of_unknown hknown]
    exact .error rfl

end Hierarchy

end ServiceDesk
