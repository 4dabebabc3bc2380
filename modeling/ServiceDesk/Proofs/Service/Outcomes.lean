import ServiceDesk.Proofs.Service.Requests

/-!
Operations that run alone. Each part of an operation goes on with the store that the part before has
left, and a part that fails ends it. So whether an operation goes through is told part by part.
-/

namespace ServiceDesk

open Service Operation

theorem Action.run_bind {α β σ : Type} (answer : σ → (call : Store.Call) → call.Answer × σ)
    (action : Action α) (next : α → Action β) (state : σ) : (action.bind next).run answer state =
      (next (action.run answer state).1).run answer (action.run answer state).2 := by
  induction action generalizing state with
  | done value => rfl
  | call c rest ih => exact ih _ _
  | acquire layout rest ih => exact ih state
  | release layout rest ih => exact ih state

namespace Operation

variable {α β : Type} {store : Store}

/-- What follows an operation is told by its outcome. -/
theorem perform_bindCont {after : Store} {operation : Operation α} {outcome : Except DeskError α}
    (h : operation.perform Store.answer store = (outcome, after)) (next : α → Operation β) :
    (operation >>= next).perform Store.answer store =
      (ExceptT.bindCont next outcome).run Store.answer after := by
  have hrun : operation.run.run Store.answer store = (outcome, after) := h
  refine (Action.run_bind Store.answer operation.run _ store).trans ?_
  rw [hrun]

theorem perform_bind {after : Store} {operation : Operation α} {value : α}
    (h : operation.perform Store.answer store = (.ok value, after)) (next : α → Operation β) :
    (operation >>= next).perform Store.answer store = (next value).perform Store.answer after :=
  perform_bindCont h next

theorem perform_bind_error {after : Store} {operation : Operation α} {error : DeskError}
    (h : operation.perform Store.answer store = (.error error, after)) (next : α → Operation β) :
    (operation >>= next).perform Store.answer store = (.error error, after) :=
  perform_bindCont h next

theorem perform_ask {call : Store.Call} {result : call.Result} (hread : call.isWrite = false)
    (hanswer : (store.answer call).1 = .ok result) :
    (ask call).perform Store.answer store = (.ok result, store) := by
  refine Prod.ext ?_ (Store.answer_of_read hread)
  change (store.answer call).1.mapError DeskError.ofStore = _
  rw [hanswer]
  rfl

theorem perform_ask_eq_ok {call : Store.Call} {result : call.Result} {after : Store}
    (h : (ask call).perform Store.answer store = (.ok result, after)) :
    store.answer call = (.ok result, after) := by
  have hask : (ask call).perform Store.answer store =
      ((store.answer call).1.mapError DeskError.ofStore, (store.answer call).2) := rfl
  rw [hask] at h
  rcases hanswer : store.answer call with ⟨answer, next⟩
  rw [hanswer] at h
  cases answer with
  | error fault => cases h
  | ok found =>
      cases h
      rfl

theorem perform_judge (outcome : Except DeskError α) :
    (judge outcome).perform Store.answer store = (outcome, store) := rfl

theorem perform_judge_ok {outcome : Except DeskError α} {value : α} (h : outcome = .ok value) :
    (judge outcome).perform Store.answer store = (.ok value, store) := by
  rw [perform_judge, h]

theorem perform_map (f : α → β) (operation : Operation α) :
    (f <$> operation).perform Store.answer store =
      ((operation.perform Store.answer store).1.map f, (operation.perform Store.answer store).2) := by
  rcases hrun : operation.perform Store.answer store with ⟨outcome, after⟩
  cases outcome with
  | error error => exact perform_bind_error hrun _
  | ok value => exact perform_bind hrun _

/-- An operation goes through when it runs alone. -/
def Succeeds (store : Store) (operation : Operation α) : Prop :=
  (operation.perform Store.answer store).1.isOk = true

/-- An operation goes through just if its first part does and then the rest. -/
theorem succeeds_bind {operation : Operation α} {next : α → Operation β} :
    Succeeds store (operation >>= next) ↔ ∃ value after,
      operation.perform Store.answer store = (.ok value, after) ∧ Succeeds after (next value) := by
  rcases hfirst : operation.perform Store.answer store with ⟨outcome, after⟩
  cases outcome with
  | error error =>
      rw [Succeeds, perform_bind_error hfirst]
      exact iff_of_false nofun fun ⟨_, _, heq, _⟩ => nomatch heq
  | ok value =>
      rw [Succeeds, perform_bind hfirst]
      constructor
      · exact fun h => ⟨value, after, rfl, h⟩
      · rintro ⟨_, _, heq, h⟩
        cases heq
        exact h

theorem succeeds_judge_bind {outcome : Except DeskError α} {next : α → Operation β} :
    Succeeds store (judge outcome >>= next) ↔
      ∃ value, outcome = .ok value ∧ Succeeds store (next value) := by
  rw [succeeds_bind, perform_judge]
  constructor
  · rintro ⟨value, after, heq, h⟩
    cases heq
    exact ⟨value, rfl, h⟩
  · rintro ⟨value, rfl, h⟩
    exact ⟨value, store, rfl, h⟩

/-- A read that is answered is followed by the rest. -/
theorem succeeds_read_bind {call : Store.Call} {result : call.Result}
    {next : call.Result → Operation β} (hread : call.isWrite = false)
    (hanswer : (store.answer call).1 = .ok result) :
    Succeeds store (ask call >>= next) ↔ Succeeds store (next result) := by
  rw [Succeeds, perform_bind (perform_ask hread hanswer)]
  exact Iff.rfl

theorem succeeds_ask_pure {call : Store.Call} {value : β} :
    Succeeds store (ask call >>= fun _ => pure value) ↔ (store.answer call).1.isOk = true := by
  have hask : (ask call).perform Store.answer store =
      ((store.answer call).1.mapError DeskError.ofStore, (store.answer call).2) := rfl
  rw [succeeds_bind, hask]
  cases (store.answer call).1 with
  | error fault => exact iff_of_false (fun ⟨_, _, heq, _⟩ => nomatch heq) nofun
  | ok result => exact iff_of_true ⟨result, _, rfl, rfl⟩ rfl

/-- Run alone, an operation does not wait for a lock. -/
theorem perform_holding (layout : Layout) (operation : Operation α) :
    (holding layout operation).perform Store.answer store = operation.perform Store.answer store :=
  Action.run_bind Store.answer operation.run _ store

theorem succeeds_holding {layout : Layout} {operation : Operation α} :
    Succeeds store (holding layout operation) ↔ Succeeds store operation := by
  rw [Succeeds, perform_holding]
  exact Iff.rfl

theorem succeeds_map {f : α → β} {operation : Operation α} :
    Succeeds store (f <$> operation) ↔ Succeeds store operation := by
  rw [Succeeds, perform_map, Succeeds]
  cases (operation.perform Store.answer store).1 with
  | error error => exact Iff.rfl
  | ok value => exact Iff.rfl

/-- Whenever an operation goes through alone, its value and the store that it leaves meet a
condition. -/
def Ensures (store : Store) (post : α → Store → Prop) (operation : Operation α) : Prop :=
  ∀ value after, operation.perform Store.answer store = (.ok value, after) → post value after

variable {post : β → Store → Prop}

/-- What follows an operation begins with what the operation ensures. -/
theorem ensures_bind {operation : Operation α} {next : α → Operation β}
    (h : Ensures store (fun value after => Ensures after post (next value)) operation) :
    Ensures store post (operation >>= next) := by
  intro value after hrun
  rcases hfirst : operation.perform Store.answer store with ⟨outcome, mid⟩
  cases outcome with
  | error error =>
      rw [perform_bind_error hfirst] at hrun
      cases hrun
  | ok first =>
      rw [perform_bind hfirst] at hrun
      exact h first mid hfirst value after hrun

theorem ensures_judge_bind {outcome : Except DeskError α} {next : α → Operation β}
    (h : ∀ value, outcome = .ok value → Ensures store post (next value)) :
    Ensures store post (judge outcome >>= next) := by
  refine ensures_bind fun value after hrun => ?_
  cases hrun
  exact h value rfl

end Operation

namespace Service

variable {store : Store} {id : Uuid}

theorem perform_getOrganization {organization : Organization}
    (hanswer : (store.answer (.getOrganization id)).1 = .ok (some organization)) :
    (getOrganization id).perform Store.answer store = (.ok organization, store) :=
  Operation.perform_bind (Operation.perform_ask rfl hanswer) _

theorem perform_getOrganization_missing
    (hanswer : (store.answer (.getOrganization id)).1 = .ok none) :
    (getOrganization id).perform Store.answer store = (.error (.notFound id), store) :=
  Operation.perform_bind (Operation.perform_ask rfl hanswer) _

theorem perform_getCategory {category : Category}
    (hanswer : (store.answer (.getCategory id)).1 = .ok (some category)) :
    (getCategory id).perform Store.answer store = (.ok category, store) :=
  Operation.perform_bind (Operation.perform_ask rfl hanswer) _

theorem perform_getCategory_missing (hanswer : (store.answer (.getCategory id)).1 = .ok none) :
    (getCategory id).perform Store.answer store = (.error (.notFound id), store) :=
  Operation.perform_bind (Operation.perform_ask rfl hanswer) _

theorem perform_saveOrganization {organization : Organization} {after : Store}
    (hsave : store.saveOrganization organization = .ok after) :
    (Operation.ask (.saveOrganization organization)).perform Store.answer store = (.ok (), after) := by
  change ((store.ofWrite ((store.saveOrganization organization).map ((), ·))).1.mapError _,
    (store.ofWrite ((store.saveOrganization organization).map ((), ·))).2) = _
  rw [hsave]
  rfl

theorem perform_saveCategory {category : Category} {after : Store}
    (hsave : store.saveCategory category = .ok after) :
    (Operation.ask (.saveCategory category)).perform Store.answer store = (.ok (), after) := by
  change ((store.ofWrite ((store.saveCategory category).map ((), ·))).1.mapError _,
    (store.ofWrite ((store.saveCategory category).map ((), ·))).2) = _
  rw [hsave]
  rfl

/-- What begins with a look-up of an organization goes through just if it is found and the rest goes
through. -/
theorem succeeds_getOrganization_bind {β : Type} {found : Option Organization}
    (hanswer : (store.answer (.getOrganization id)).1 = .ok found)
    {next : Organization → Operation β} : Succeeds store (getOrganization id >>= next) ↔
      ∃ organization, found = some organization ∧ Succeeds store (next organization) := by
  cases found with
  | none =>
      rw [Succeeds, perform_bind_error (perform_getOrganization_missing hanswer)]
      exact iff_of_false nofun fun ⟨_, heq, _⟩ => nomatch heq
  | some organization =>
      rw [Succeeds, perform_bind (perform_getOrganization hanswer)]
      exact ⟨fun h => ⟨organization, rfl, h⟩, fun ⟨_, heq, h⟩ => Option.some.inj heq ▸ h⟩

theorem succeeds_getCategory_bind {β : Type} {found : Option Category}
    (hanswer : (store.answer (.getCategory id)).1 = .ok found)
    {next : Category → Operation β} : Succeeds store (getCategory id >>= next) ↔
      ∃ category, found = some category ∧ Succeeds store (next category) := by
  cases found with
  | none =>
      rw [Succeeds, perform_bind_error (perform_getCategory_missing hanswer)]
      exact iff_of_false nofun fun ⟨_, heq, _⟩ => nomatch heq
  | some category =>
      rw [Succeeds, perform_bind (perform_getCategory hanswer)]
      exact ⟨fun h => ⟨category, rfl, h⟩, fun ⟨_, heq, h⟩ => Option.some.inj heq ▸ h⟩

/-! ### Trees and paths are read off complete reads -/

section Views

variable {all : List Organization} {categories : List Category} {organization : Organization}
  {category : Category}

theorem perform_organizationTree (hall : (store.answer .allOrganizations).1 = .ok all) (id : Uuid) :
    (organizationTree id).perform Store.answer store = (Tree.ofItems all id, store) := by
  rw [organizationTree, perform_bind (perform_ask rfl hall), perform_judge]

theorem perform_organizationForest (hall : (store.answer .allOrganizations).1 = .ok all) :
    organizationForest.perform Store.answer store = (Tree.forestOfItems all, store) := by
  rw [organizationForest, perform_bind (perform_ask rfl hall), perform_judge]

theorem perform_organizationPath (hall : (store.answer .allOrganizations).1 = .ok all) (id : Uuid) :
    (organizationPath id).perform Store.answer store = (Hierarchy.pathWithin all id, store) := by
  rw [organizationPath, perform_bind (perform_ask rfl hall), perform_judge]

theorem perform_categoryTree (hfound : (store.answer (.getCategory id)).1 = .ok (some category))
    (hall : (store.answer (.categoriesFor category.organizationId)).1 = .ok categories) :
    (categoryTree id).perform Store.answer store = (Tree.ofItems categories id, store) := by
  rw [categoryTree, perform_bind (perform_getCategory hfound),
    perform_bind (perform_ask rfl hall), perform_judge]

theorem perform_categoryForest
    (hfound : (store.answer (.getOrganization id)).1 = .ok (some organization))
    (hall : (store.answer (.categoriesFor id)).1 = .ok categories) :
    (categoryForest id).perform Store.answer store = (Tree.forestOfItems categories, store) := by
  rw [categoryForest, perform_bind (perform_getOrganization hfound),
    perform_bind (perform_ask rfl hall), perform_judge]

theorem perform_categoryPath (hfound : (store.answer (.getCategory id)).1 = .ok (some category))
    (hall : (store.answer (.categoriesFor category.organizationId)).1 = .ok categories) :
    (categoryPath id).perform Store.answer store = (Hierarchy.pathWithin categories id, store) := by
  rw [categoryPath, perform_bind (perform_getCategory hfound),
    perform_bind (perform_ask rfl hall), perform_judge]

end Views

end Service

end ServiceDesk
