import ServiceDesk.Proofs.Service.Effects

/-!
Requests that only read, as values. They leave the store as it is, whether they succeed or fail, and
they fail only through a fault of the caller if the store is healthy.
-/

namespace ServiceDesk

open Hierarchy Service Operation

inductive Inquiry where
  | organization (id : Uuid)
  | organizations (criteria : Criteria)
  | organizationTree (id : Uuid)
  | organizationForest
  | organizationPath (id : Uuid)
  | canJoin (id : Uuid) (email : String)
  | category (id : Uuid)
  | categories (organizationId : Uuid) (criteria : Criteria)
  | categoryTree (id : Uuid)
  | categoryForest (organizationId : Uuid)
  | categoryPath (id : Uuid)

namespace Inquiry

abbrev Result : Inquiry → Type
  | organization _ => Organization
  | organizations _ => List Organization
  | organizationTree _ => Tree Organization
  | organizationForest => List (Tree Organization)
  | organizationPath _ => String
  | canJoin _ _ => Bool
  | category _ => Category
  | categories _ _ => List Category
  | categoryTree _ => Tree Category
  | categoryForest _ => List (Tree Category)
  | categoryPath _ => String

def operation : (inquiry : Inquiry) → Operation inquiry.Result
  | organization id => getOrganization id
  | organizations criteria => listOrganizations criteria
  | organizationTree id => Service.organizationTree id
  | organizationForest => Service.organizationForest
  | organizationPath id => Service.organizationPath id
  | canJoin id email => canJoinByEmail id email
  | category id => getCategory id
  | categories organizationId criteria => listCategories organizationId criteria
  | categoryTree id => Service.categoryTree id
  | categoryForest organizationId => Service.categoryForest organizationId
  | categoryPath id => Service.categoryPath id

/-- What an inquiry is told by a store. -/
def outcome (inquiry : Inquiry) (store : Store) : Except DeskError inquiry.Result :=
  (inquiry.operation.perform Store.answer store).1

variable {store : Store}

theorem delivers_judge_same {α : Type} {outcome : Except DeskError α}
    (hblame : store.Healthy → BlamesCaller outcome) :
    Delivers store (fun _ after => after = store) (judge outcome) :=
  delivers_judge hblame fun _ _ => rfl

theorem delivers (inquiry : Inquiry) :
    Delivers store (fun _ after => after = store) inquiry.operation := by
  cases inquiry with
  | organization id => exact (delivers_getOrganization store id).mono fun _ _ h => h.1
  | organizations criteria =>
      refine delivers_judge_bind (fun _ => criteria.blamesCaller_shape _) fun query _ => ?_
      exact delivers_ask (.listOrganizations query) rfl fun _ _ => rfl
  | organizationTree id =>
      refine delivers_ask_bind rfl fun all hall => delivers_judge_same fun hhealthy => ?_
      exact blamesCaller_ofItems (hhealthy.organizations all hall) id
  | organizationForest =>
      refine delivers_ask_bind rfl fun all hall => delivers_judge_same fun hhealthy => ?_
      exact blamesCaller_forestOfItems (hhealthy.organizations all hall)
  | organizationPath id =>
      refine delivers_ask_bind rfl fun all hall => delivers_judge_same fun hhealthy => ?_
      exact blamesCaller_pathWithin (hhealthy.organizations all hall) id
  | canJoin id email => exact delivers_getOrganization_bind fun _ _ => delivers_pure rfl
  | category id => exact (delivers_getCategory store id).mono fun _ _ h => h.1
  | categories organizationId criteria =>
      refine delivers_judge_bind (fun _ => Criteria.blamesCaller_shape _ _) fun query _ => ?_
      exact delivers_ask (.listCategories query) rfl fun _ _ => rfl
  | categoryTree id =>
      refine delivers_getCategory_bind fun root _ => delivers_ask_bind rfl fun all hall => ?_
      exact delivers_judge_same fun hhealthy =>
        blamesCaller_ofItems (hhealthy.categories _ all hall) id
  | categoryForest organizationId =>
      refine delivers_getOrganization_bind fun _ _ => delivers_ask_bind rfl fun all hall => ?_
      exact delivers_judge_same fun hhealthy =>
        blamesCaller_forestOfItems (hhealthy.categories _ all hall)
  | categoryPath id =>
      refine delivers_getCategory_bind fun _ _ => delivers_ask_bind rfl fun all hall => ?_
      exact delivers_judge_same fun hhealthy =>
        blamesCaller_pathWithin (hhealthy.categories _ all hall) id

theorem perform_eq (inquiry : Inquiry) (store : Store) :
    inquiry.operation.perform Store.answer store = (inquiry.outcome store, store) := by
  have hdelivers : Delivers store (fun _ after => after = store) inquiry.operation := inquiry.delivers
  refine Prod.ext rfl ?_
  rcases hrun : inquiry.operation.perform Store.answer store with ⟨outcome, after⟩
  cases outcome with
  | error error => exact hdelivers.unchanged error after hrun
  | ok value => exact hdelivers.done value after hrun

end Inquiry

end ServiceDesk
