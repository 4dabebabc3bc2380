import ServiceDesk.Proofs.Service.Blame
import ServiceDesk.Proofs.Service.Outcomes
import ServiceDesk.Proofs.Service.Writes

/-!
What a request leaves behind when it is served alone. If it succeeds, its last call on the store was
the one write of what it returns. If it fails, the store is as it was before, and unless the store is
damaged the caller is to blame.
-/

namespace ServiceDesk

open Hierarchy Service Operation

/-- A store that can be read: every read is answered, and the parent links that are read form
forests. -/
structure Store.Healthy (store : Store) : Prop where
  answers : ∀ call : Store.Call, call.isWrite = false → ∃ result, (store.answer call).1 = .ok result
  organizations : ∀ all, (store.answer .allOrganizations).1 = .ok all → Forest (linksOf all)
  categories : ∀ organizationId all,
    (store.answer (.categoriesFor organizationId)).1 = .ok all → Forest (linksOf all)

namespace Store

theorem ofWrite_eq_error {α : Type} {store : Store} {result : Except Violation (α × Store)}
    {error : StoreError} (h : (store.ofWrite result).1 = .error error) :
    ∃ violation, error = .violated violation := by
  cases result with
  | error violation => exact ⟨violation, (Except.error.inj h).symm⟩
  | ok done => cases h

theorem answer_write_eq_error {store : Store} {call : Store.Call} (hwrite : call.isWrite = true)
    {error : StoreError} (h : (store.answer call).1 = .error error) :
    ∃ violation, error = .violated violation := by
  cases call with
  | saveOrganization organization => exact ofWrite_eq_error h
  | deleteOrganization id => exact ofWrite_eq_error h
  | saveCategory category => exact ofWrite_eq_error h
  | deleteCategory id => exact ofWrite_eq_error h
  | _ => cases hwrite

end Store

/-! ### Operations that fail without a trace -/

namespace Operation

variable {α β : Type} {store : Store} {good : β → Store → Prop}

/-- Run alone, an operation succeeds with a value and a store that meet a condition, or it fails and
leaves the store as it was; a healthy store is not to blame for it. -/
structure Delivers (store : Store) (good : α → Store → Prop) (operation : Operation α) : Prop where
  done : Ensures store good operation
  unchanged : ∀ error after,
    operation.perform Store.answer store = (.error error, after) → after = store
  blamed : store.Healthy → BlamesCaller (operation.perform Store.answer store).1

theorem Delivers.of_ok {operation : Operation β} {value : β} {after : Store}
    (hrun : operation.perform Store.answer store = (.ok value, after)) (hgood : good value after) :
    Delivers store good operation where
  done other next hother := by
    cases hrun.symm.trans hother
    exact hgood
  unchanged error next hother := by cases hrun.symm.trans hother
  blamed _ := by
    rw [hrun]
    exact .ok value

theorem Delivers.of_error {operation : Operation β} {error : DeskError}
    (hrun : operation.perform Store.answer store = (.error error, store))
    (hblame : store.Healthy → error.isInternal = false) : Delivers store good operation where
  done value next hother := by cases hrun.symm.trans hother
  unchanged other next hother := by
    cases hrun.symm.trans hother
    rfl
  blamed hhealthy := by
    rw [hrun]
    exact .error (hblame hhealthy)

/-- An operation delivers what another one does that runs in the same way. -/
theorem Delivers.of_perform_eq {operation other : Operation β}
    (hsame : operation.perform Store.answer store = other.perform Store.answer store)
    (h : Delivers store good other) : Delivers store good operation where
  done value after hrun := h.done value after (hsame ▸ hrun)
  unchanged error after hrun := h.unchanged error after (hsame ▸ hrun)
  blamed hhealthy := hsame ▸ h.blamed hhealthy

theorem Delivers.mono {operation : Operation β} {weaker : β → Store → Prop}
    (h : Delivers store good operation) (himp : ∀ value after, good value after → weaker value after) :
    Delivers store weaker operation where
  done value after hrun := himp value after (h.done value after hrun)
  unchanged := h.unchanged
  blamed := h.blamed

theorem delivers_pure {value : β} (h : good value store) : Delivers store good (pure value) :=
  .of_ok rfl h

theorem delivers_fail {error : DeskError} (h : error.isInternal = false) :
    Delivers store good (fail error) :=
  .of_error rfl fun _ => h

/-- What only reads is followed by what starts from the same store. -/
theorem delivers_bind {operation : Operation α} {next : α → Operation β}
    (h : Delivers store (fun value after => after = store ∧ Delivers store good (next value))
      operation) : Delivers store good (operation >>= next) := by
  rcases hfirst : operation.perform Store.answer store with ⟨outcome, after⟩
  cases outcome with
  | error error =>
      cases h.unchanged error after hfirst
      refine .of_error (perform_bind_error hfirst next) fun hhealthy => ?_
      exact h.blamed hhealthy error (congrArg Prod.fst hfirst)
  | ok value =>
      obtain ⟨rfl, hnext⟩ := h.done value after hfirst
      exact hnext.of_perform_eq (perform_bind hfirst next)

theorem delivers_judge {outcome : Except DeskError β} (hblame : store.Healthy → BlamesCaller outcome)
    (hgood : ∀ value, outcome = .ok value → good value store) :
    Delivers store good (judge outcome) := by
  cases outcome with
  | error error => exact .of_error rfl fun hhealthy => hblame hhealthy error rfl
  | ok value => exact .of_ok rfl (hgood value rfl)

theorem delivers_judge_bind {outcome : Except DeskError α} {next : α → Operation β}
    (hblame : store.Healthy → BlamesCaller outcome)
    (hnext : ∀ value, outcome = .ok value → Delivers store good (next value)) :
    Delivers store good (judge outcome >>= next) :=
  delivers_bind (delivers_judge hblame fun value hvalue => ⟨rfl, hnext value hvalue⟩)

/-- A read that is not answered shows that the store is damaged. -/
theorem delivers_ask (call : Store.Call) {good : call.Result → Store → Prop}
    (hread : call.isWrite = false)
    (hgood : ∀ result, (store.answer call).1 = .ok result → good result store) :
    Delivers store good (ask call) := by
  cases hanswer : (store.answer call).1 with
  | error fault =>
      have hrun : (ask call).perform Store.answer store = (.error (.ofStore fault), store) := by
        refine Prod.ext ?_ (Store.answer_of_read hread)
        change (store.answer call).1.mapError DeskError.ofStore = _
        rw [hanswer]
        rfl
      refine .of_error hrun fun hhealthy => ?_
      obtain ⟨result, hresult⟩ := hhealthy.answers call hread
      cases hanswer.symm.trans hresult
  | ok result => exact .of_ok (perform_ask hread hanswer) (hgood result hanswer)

theorem delivers_ask_bind {call : Store.Call} {next : call.Result → Operation β}
    (hread : call.isWrite = false)
    (hnext : ∀ result, (store.answer call).1 = .ok result → Delivers store good (next result)) :
    Delivers store good (ask call >>= next) :=
  delivers_bind (delivers_ask call hread fun result hresult => ⟨rfl, hnext result hresult⟩)

/-- A write that is refused changes nothing. One that goes through is the last call: what follows has
its value at once, or tells that there was nothing to write. -/
theorem delivers_write_bind {call : Store.Call} {next : call.Result → Operation β}
    (hwrite : call.isWrite = true)
    (hnext : ∀ result after, store.answer call = (.ok result, after) →
      (∃ value, next result = pure value ∧ good value after) ∨
        ∃ id, next result = fail (.notFound id) ∧ after = store) :
    Delivers store good (ask call >>= next) := by
  rcases hanswer : store.answer call with ⟨answer, after⟩
  have hrun : (ask call).perform Store.answer store = (answer.mapError DeskError.ofStore, after) := by
    change ((store.answer call).1.mapError DeskError.ofStore, (store.answer call).2) = _
    rw [hanswer]
  cases answer with
  | error fault =>
      have hfirst : (store.answer call).1 = .error fault := congrArg Prod.fst hanswer
      have hsame : after = store := by
        rw [← Store.answer_of_error hfirst, hanswer]
      rw [hsame] at hrun
      obtain ⟨violation, rfl⟩ := Store.answer_write_eq_error hwrite hfirst
      exact .of_error (perform_bind_error hrun next) fun _ => rfl
  | ok result =>
      have hall := perform_bind hrun next
      rcases hnext result after hanswer with ⟨value, hvalue, hgood⟩ | ⟨id, hmissing, rfl⟩
      · rw [hvalue] at hall
        exact .of_ok hall hgood
      · rw [hmissing] at hall
        exact .of_error hall fun _ => rfl

theorem delivers_holding {layout : Layout} {operation : Operation β}
    (h : Delivers store good operation) : Delivers store good (holding layout operation) :=
  h.of_perform_eq (perform_holding layout operation)

theorem delivers_map {f : α → β} {operation : Operation α}
    (h : Delivers store (fun value => good (f value)) operation) :
    Delivers store good (f <$> operation) := by
  rcases hfirst : operation.perform Store.answer store with ⟨outcome, after⟩
  cases outcome with
  | error error =>
      cases h.unchanged error after hfirst
      refine .of_error (perform_bind_error hfirst _) fun hhealthy => ?_
      exact h.blamed hhealthy error (congrArg Prod.fst hfirst)
  | ok value => exact .of_ok (perform_bind hfirst _) (h.done value after hfirst)

end Operation

namespace Service

variable {store : Store} {β : Type} {good : β → Store → Prop} {id : Uuid}

/-- A look-up finds what is stored, or tells that it is missing. -/
theorem delivers_getOrganization (store : Store) (id : Uuid) :
    Delivers store (fun organization after => after = store ∧
      (store.answer (.getOrganization id)).1 = .ok (some organization)) (getOrganization id) := by
  refine delivers_ask_bind rfl fun found hfound => ?_
  cases found with
  | none => exact delivers_fail rfl
  | some organization => exact delivers_pure ⟨rfl, hfound⟩

theorem delivers_getCategory (store : Store) (id : Uuid) :
    Delivers store (fun category after => after = store ∧
      (store.answer (.getCategory id)).1 = .ok (some category)) (getCategory id) := by
  refine delivers_ask_bind rfl fun found hfound => ?_
  cases found with
  | none => exact delivers_fail rfl
  | some category => exact delivers_pure ⟨rfl, hfound⟩

theorem delivers_getOrganization_bind {next : Organization → Operation β}
    (hnext : ∀ organization, (store.answer (.getOrganization id)).1 = .ok (some organization) →
      Delivers store good (next organization)) :
    Delivers store good (getOrganization id >>= next) :=
  delivers_bind ((delivers_getOrganization store id).mono fun organization _ h =>
    ⟨h.1, hnext organization h.2⟩)

theorem delivers_getCategory_bind {next : Category → Operation β}
    (hnext : ∀ category, (store.answer (.getCategory id)).1 = .ok (some category) →
      Delivers store good (next category)) :
    Delivers store good (getCategory id >>= next) :=
  delivers_bind ((delivers_getCategory store id).mono fun category _ h => ⟨h.1, hnext category h.2⟩)

theorem delivers_saveOrganization {organization : Organization}
    {good : Organization → Store → Prop}
    (h : ∀ after, store.saveOrganization organization = .ok after → good organization after) :
    Delivers store good (ask (.saveOrganization organization) >>= fun _ => pure organization) :=
  delivers_write_bind rfl fun _ after hanswer =>
    Or.inl ⟨organization, rfl, h after (Store.answer_saveOrganization hanswer)⟩

theorem delivers_saveCategory {category : Category} {good : Category → Store → Prop}
    (h : ∀ after, store.saveCategory category = .ok after → good category after) :
    Delivers store good (ask (.saveCategory category) >>= fun _ => pure category) :=
  delivers_write_bind rfl fun _ after hanswer =>
    Or.inl ⟨category, rfl, h after (Store.answer_saveCategory hanswer)⟩

end Service

/-! ### What each request writes -/

/-- A request has written what it returns, and left a store. -/
inductive Request.Wrote (store : Store) : Request → Reply → Store → Prop
  | createOrganization {stamp input organization after}
      (hinput : Organization.ofInput stamp.id input.name input.domain input.parentId stamp.now =
        .ok organization)
      (hsave : store.saveOrganization organization = .ok after) :
      Wrote store (.createOrganization stamp input) (.organization organization) after
  | updateOrganization {stamp id changes stored organization after}
      (hstored : (store.answer (.getOrganization id)).1 = .ok (some stored))
      (hchange : changeOrganization changes stamp.now stored = .ok organization)
      (hsave : store.saveOrganization organization = .ok after) :
      Wrote store (.updateOrganization stamp id changes) (.organization organization) after
  | moveOrganization {stamp id parentId stored organization after}
      (hstored : (store.answer (.getOrganization id)).1 = .ok (some stored))
      (hmoved : organization = { stored with parentId }.touch stamp.now)
      (hsave : store.saveOrganization organization = .ok after) :
      Wrote store (.moveOrganization stamp id parentId) (.organization organization) after
  | deleteOrganization {id after} (hdelete : store.deleteOrganization id = .ok (true, after)) :
      Wrote store (.deleteOrganization id) .deleted after
  | createCategory {stamp organizationId input category after}
      (hinput : Category.ofInput stamp.id organizationId input.name input.description input.parentId
        stamp.now = .ok category)
      (hsave : store.saveCategory category = .ok after) :
      Wrote store (.createCategory stamp organizationId input) (.category category) after
  | updateCategory {stamp id changes stored category after}
      (hstored : (store.answer (.getCategory id)).1 = .ok (some stored))
      (hchange : changeCategory changes stamp.now stored = .ok category)
      (hsave : store.saveCategory category = .ok after) :
      Wrote store (.updateCategory stamp id changes) (.category category) after
  | moveCategory {stamp id parentId stored category after}
      (hstored : (store.answer (.getCategory id)).1 = .ok (some stored))
      (hmoved : category = { stored with parentId }.touch stamp.now)
      (hsave : store.saveCategory category = .ok after) :
      Wrote store (.moveCategory stamp id parentId) (.category category) after
  | deleteCategory {id after} (hdelete : store.deleteCategory id = .ok (true, after)) :
      Wrote store (.deleteCategory id) .deleted after

namespace Request

variable (store : Store)

theorem delivers_createOrganization (stamp : Stamp) (input : NewOrganization) :
    Delivers store
      (fun value => (createOrganization stamp input).Wrote store (.organization value))
      (Service.createOrganization stamp input) := by
  refine delivers_judge_bind (fun _ => Organization.blamesCaller_ofInput _ _ _ _ _) ?_
  refine fun _ hinput => delivers_holding ?_
  cases input.parentId with
  | none => exact delivers_saveOrganization fun _ hsave => .createOrganization hinput hsave
  | some parent =>
      refine delivers_getOrganization_bind fun _ _ => ?_
      refine delivers_ask_bind rfl fun all hall => ?_
      refine delivers_judge_bind (fun hhealthy => ?_) fun _ _ => ?_
      · exact blamesCaller_checkDepth (hhealthy.organizations all hall) _ _
      · exact delivers_saveOrganization fun _ hsave => .createOrganization hinput hsave

theorem delivers_updateOrganization (stamp : Stamp) (id : Uuid) (changes : OrganizationChanges) :
    Delivers store
      (fun value => (updateOrganization stamp id changes).Wrote store (.organization value))
      (Service.updateOrganization stamp id changes) := by
  refine delivers_getOrganization_bind fun stored hstored => ?_
  refine delivers_judge_bind (fun _ => blamesCaller_changeOrganization _ _ _) fun _ hchange => ?_
  exact delivers_saveOrganization fun _ hsave => .updateOrganization hstored hchange hsave

theorem delivers_moveOrganization (stamp : Stamp) (id : Uuid) (parentId : Option Uuid) :
    Delivers store
      (fun value => (moveOrganization stamp id parentId).Wrote store (.organization value))
      (Service.moveOrganization stamp id parentId) := by
  refine delivers_holding (delivers_getOrganization_bind fun stored hstored => ?_)
  cases parentId with
  | none => exact delivers_saveOrganization fun _ hsave => .moveOrganization hstored rfl hsave
  | some parent =>
      refine delivers_judge_bind (fun _ => stored.blamesCaller_changeParent _ _) fun _ hchange => ?_
      refine delivers_ask_bind rfl fun all hall => ?_
      refine delivers_judge_bind (fun hhealthy => ?_) fun _ _ => ?_
      · exact blamesCaller_checkMove (hhealthy.organizations all hall) _ _
      · have hmoved := Organization.changeParent_eq_ok hchange
        exact delivers_saveOrganization fun _ hsave => .moveOrganization hstored hmoved hsave

theorem delivers_deleteOrganization (id : Uuid) :
    Delivers store (fun _ => (deleteOrganization id).Wrote store .deleted)
      (Service.deleteOrganization id) := by
  refine delivers_getOrganization_bind fun _ _ => delivers_ask_bind rfl fun children _ => ?_
  split
  · exact delivers_fail rfl
  · refine delivers_ask_bind rfl fun categories _ => ?_
    split
    · exact delivers_fail rfl
    · refine delivers_write_bind rfl fun deleted after hanswer => ?_
      have hdelete := Store.ofWrite_eq_ok hanswer
      cases deleted with
      | true => exact Or.inl ⟨(), rfl, .deleteOrganization hdelete⟩
      | false => exact Or.inr ⟨id, rfl, (Store.deleteOrganization_eq_false hdelete).2⟩

theorem delivers_createCategory (stamp : Stamp) (organizationId : Uuid) (input : NewCategory) :
    Delivers store
      (fun value => (createCategory stamp organizationId input).Wrote store (.category value))
      (Service.createCategory stamp organizationId input) := by
  refine delivers_judge_bind (fun _ => Category.blamesCaller_ofInput _ _ _ _ _ _) ?_
  refine fun category hinput => delivers_getOrganization_bind fun _ _ => delivers_holding ?_
  cases input.parentId with
  | none => exact delivers_saveCategory fun _ hsave => .createCategory hinput hsave
  | some parent =>
      refine delivers_getCategory_bind fun above _ => ?_
      refine delivers_judge_bind (fun _ => blamesCaller_checkTenant category above) fun _ _ => ?_
      refine delivers_ask_bind rfl fun all hall => ?_
      refine delivers_judge_bind (fun hhealthy => ?_) fun _ _ => ?_
      · exact blamesCaller_checkDepth (hhealthy.categories _ all hall) _ _
      · exact delivers_saveCategory fun _ hsave => .createCategory hinput hsave

theorem delivers_updateCategory (stamp : Stamp) (id : Uuid) (changes : CategoryChanges) :
    Delivers store
      (fun value => (updateCategory stamp id changes).Wrote store (.category value))
      (Service.updateCategory stamp id changes) := by
  refine delivers_getCategory_bind fun stored hstored => ?_
  refine delivers_judge_bind (fun _ => blamesCaller_changeCategory _ _ _) fun _ hchange => ?_
  exact delivers_saveCategory fun _ hsave => .updateCategory hstored hchange hsave

theorem delivers_moveCategory (stamp : Stamp) (id : Uuid) (parentId : Option Uuid) :
    Delivers store
      (fun value => (moveCategory stamp id parentId).Wrote store (.category value))
      (Service.moveCategory stamp id parentId) := by
  refine delivers_holding (delivers_getCategory_bind fun stored hstored => ?_)
  cases parentId with
  | none => exact delivers_saveCategory fun _ hsave => .moveCategory hstored rfl hsave
  | some parent =>
      refine delivers_judge_bind (fun _ => stored.blamesCaller_changeParent _ _) ?_
      refine fun moved hchange => delivers_getCategory_bind fun above _ => ?_
      refine delivers_judge_bind (fun _ => blamesCaller_checkTenant moved above) fun _ _ => ?_
      refine delivers_ask_bind rfl fun all hall => ?_
      refine delivers_judge_bind (fun hhealthy => ?_) fun _ _ => ?_
      · exact blamesCaller_checkMove (hhealthy.categories _ all hall) _ _
      · have hmoved := Category.changeParent_eq_ok hchange
        exact delivers_saveCategory fun _ hsave => .moveCategory hstored hmoved hsave

theorem delivers_deleteCategory (id : Uuid) :
    Delivers store (fun _ => (deleteCategory id).Wrote store .deleted)
      (Service.deleteCategory id) := by
  refine delivers_getCategory_bind fun _ _ => delivers_ask_bind rfl fun children _ => ?_
  split
  · exact delivers_fail rfl
  · refine delivers_write_bind rfl fun deleted after hanswer => ?_
    have hdelete := Store.ofWrite_eq_ok hanswer
    cases deleted with
    | true => exact Or.inl ⟨(), rfl, .deleteCategory hdelete⟩
    | false => exact Or.inr ⟨id, rfl, (Store.deleteCategory_eq_false hdelete).2⟩

/-- A request that succeeds has written what it returns, and one that fails has written nothing. -/
theorem delivers (request : Request) :
    Delivers store (request.Wrote store) request.operation := by
  cases request with
  | createOrganization stamp input =>
      exact delivers_map (delivers_createOrganization store stamp input)
  | updateOrganization stamp id changes =>
      exact delivers_map (delivers_updateOrganization store stamp id changes)
  | moveOrganization stamp id parentId =>
      exact delivers_map (delivers_moveOrganization store stamp id parentId)
  | deleteOrganization id => exact delivers_map (delivers_deleteOrganization store id)
  | createCategory stamp organizationId input =>
      exact delivers_map (delivers_createCategory store stamp organizationId input)
  | updateCategory stamp id changes =>
      exact delivers_map (delivers_updateCategory store stamp id changes)
  | moveCategory stamp id parentId =>
      exact delivers_map (delivers_moveCategory store stamp id parentId)
  | deleteCategory id => exact delivers_map (delivers_deleteCategory store id)

end Request

end ServiceDesk
