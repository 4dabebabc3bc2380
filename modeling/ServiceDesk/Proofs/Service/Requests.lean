import ServiceDesk.Service.Categories

/-!
Requests to change what is stored, as values, and a condition on the steps of an action. An action
obeys a protocol if along every way through it, whatever the answers are, each call is allowed by
what has happened before, the locks are taken and released in turn, and the result fits.
-/

namespace ServiceDesk

open Service

/-- The requests that change what is stored. -/
inductive Request where
  | createOrganization (stamp : Stamp) (input : NewOrganization)
  | updateOrganization (stamp : Stamp) (id : Uuid) (changes : OrganizationChanges)
  | moveOrganization (stamp : Stamp) (id : Uuid) (parentId : Option Uuid)
  | deleteOrganization (id : Uuid)
  | createCategory (stamp : Stamp) (organizationId : Uuid) (input : NewCategory)
  | updateCategory (stamp : Stamp) (id : Uuid) (changes : CategoryChanges)
  | moveCategory (stamp : Stamp) (id : Uuid) (parentId : Option Uuid)
  | deleteCategory (id : Uuid)

inductive Reply where
  | organization (organization : Organization)
  | category (category : Category)
  | deleted
  deriving DecidableEq, Repr

namespace Request

def operation : Request → Operation Reply
  | createOrganization stamp input => Reply.organization <$> Service.createOrganization stamp input
  | updateOrganization stamp id changes =>
    Reply.organization <$> Service.updateOrganization stamp id changes
  | moveOrganization stamp id parentId =>
    Reply.organization <$> Service.moveOrganization stamp id parentId
  | deleteOrganization id => (fun _ => Reply.deleted) <$> Service.deleteOrganization id
  | createCategory stamp organizationId input =>
    Reply.category <$> Service.createCategory stamp organizationId input
  | updateCategory stamp id changes => Reply.category <$> Service.updateCategory stamp id changes
  | moveCategory stamp id parentId => Reply.category <$> Service.moveCategory stamp id parentId
  | deleteCategory id => (fun _ => Reply.deleted) <$> Service.deleteCategory id

def clock? : Request → Option Time.Instant
  | createOrganization stamp _ => some stamp.now
  | updateOrganization stamp _ _ => some stamp.now
  | moveOrganization stamp _ _ => some stamp.now
  | deleteOrganization _ => none
  | createCategory stamp _ _ => some stamp.now
  | updateCategory stamp _ _ => some stamp.now
  | moveCategory stamp _ _ => some stamp.now
  | deleteCategory _ => none

def generated? : Request → Option Uuid
  | createOrganization stamp _ => some stamp.id
  | createCategory stamp _ _ => some stamp.id
  | _ => none

def serve (request : Request) (store : Store) : Except DeskError Reply × Store :=
  request.operation.perform Store.answer store

end Request

/-- The store after some requests, served one after another. -/
def serveAll (store : Store) (requests : List Request) : Store :=
  requests.foldl (fun store request => (request.serve store).2) store

/-- A time so many seconds after the start of 1970. -/
def Time.Instant.ofSeconds (seconds : Int) : Instant := ⟨seconds, 0, .inl (by decide)⟩

/-- An id that is a small number. -/
def Uuid.small (number : Nat) : Uuid := ⟨number % 256, by omega⟩

/-- An organization from the start of 1970, without a domain. -/
def Organization.small (number : Nat) (name : String) (parentId : Option Uuid) : Organization :=
  ⟨.small number, name, none, parentId, true, .ofSeconds 0, .ofSeconds 0⟩

/-! ### Steps of an action -/

/-- A step that has been taken: a call with its answer, or the taking or releasing of a lock. -/
inductive Event where
  | exchange (call : Store.Call) (answer : call.Answer)
  | acquire (layout : Layout)
  | release (layout : Layout)

def Store.Call.isWrite : Store.Call → Bool
  | .saveOrganization _ => true
  | .deleteOrganization _ => true
  | .saveCategory _ => true
  | .deleteCategory _ => true
  | _ => false

namespace Store

theorem answer_eq {store : Store} {call : Call} {answer : call.Answer}
    (h : (store.answer call).1 = answer) : store.answer call = (answer, (store.answer call).2) :=
  Prod.ext h rfl

theorem answer_of_read {store : Store} {call : Call} (h : call.isWrite = false) :
    (store.answer call).2 = store := by
  cases call with
  | saveOrganization organization => cases h
  | deleteOrganization id => cases h
  | saveCategory category => cases h
  | deleteCategory id => cases h
  | _ => rfl

theorem ofWrite_eq_ok {α : Type} {store next : Store} {result : Except Violation (α × Store)}
    {value : α} (h : store.ofWrite result = (.ok value, next)) : result = .ok (value, next) := by
  cases result with
  | ok pair => cases h; rfl
  | error violation => cases h

theorem ofWrite_of_error {α : Type} {store : Store} {result : Except Violation (α × Store)}
    {error : StoreError} (h : (store.ofWrite result).1 = .error error) :
    (store.ofWrite result).2 = store := by
  cases result with
  | ok pair => cases h
  | error violation => rfl

theorem answer_of_error {store : Store} {call : Call} {error : StoreError}
    (h : (store.answer call).1 = .error error) : (store.answer call).2 = store := by
  cases call with
  | saveOrganization organization => exact ofWrite_of_error h
  | deleteOrganization id => exact ofWrite_of_error h
  | saveCategory category => exact ofWrite_of_error h
  | deleteCategory id => exact ofWrite_of_error h
  | _ => rfl

theorem answer_saveOrganization {store next : Store} {organization : Organization} {result : Unit}
    (h : store.answer (.saveOrganization organization) = (.ok result, next)) :
    store.saveOrganization organization = .ok next := by
  have hsave := ofWrite_eq_ok h
  cases hresult : store.saveOrganization organization with
  | error violation => rw [hresult] at hsave; cases hsave
  | ok after => rw [hresult] at hsave; cases hsave; rfl

theorem answer_saveCategory {store next : Store} {category : Category} {result : Unit}
    (h : store.answer (.saveCategory category) = (.ok result, next)) :
    store.saveCategory category = .ok next := by
  have hsave := ofWrite_eq_ok h
  cases hresult : store.saveCategory category with
  | error violation => rw [hresult] at hsave; cases hsave
  | ok after => rw [hresult] at hsave; cases hsave; rfl

end Store

def Store.Call.layout : Store.Call → Layout
  | .getOrganization _ => .organizations
  | .saveOrganization _ => .organizations
  | .deleteOrganization _ => .organizations
  | .listOrganizations _ => .organizations
  | .allOrganizations => .organizations
  | .getCategory _ => .categories
  | .saveCategory _ => .categories
  | .deleteCategory _ => .categories
  | .listCategories _ => .categories
  | .categoriesFor _ => .categories
  | .countChildOrganizations _ => .organizations
  | .countChildCategories _ => .categories
  | .countOrganizationCategories _ => .categories

/-- The lock held after some steps, the latest of which comes first. -/
def held : List Event → Option Layout
  | [] => none
  | .exchange _ _ :: past => held past
  | .acquire layout :: _ => some layout
  | .release _ :: _ => none

/-- The exchanges since the last lock was taken or released. -/
def guarded : List Event → List Event
  | .exchange call answer :: past => .exchange call answer :: guarded past
  | _ => []

/-- Whether a step is the last one that matters: a call that may have changed the store, or the release
of a lock. -/
def Event.isFinal : Event → Bool
  | .exchange call _ => call.isWrite
  | .acquire _ => false
  | .release _ => true

/-- Whether no final step has been taken so far. -/
def pending (past : List Event) : Bool := past.all fun event => !event.isFinal

theorem pending_exchange {call : Store.Call} {answer : call.Answer} {past : List Event} :
    pending (.exchange call answer :: past) = true ↔
      call.isWrite = false ∧ pending past = true := by
  rw [pending, List.all_cons, Bool.and_eq_true, Bool.not_eq_true', pending]
  exact Iff.rfl

theorem guarded_subset (past : List Event) : guarded past ⊆ past := by
  induction past with
  | nil => exact List.Subset.refl _
  | cons event past ih =>
      cases event with
      | exchange call answer => exact List.cons_subset_cons _ ih
      | acquire layout => exact List.nil_subset _
      | release layout => exact List.nil_subset _

namespace Action

variable {α β : Type}

/-- The result of an action that asks nothing any more. -/
def ending? : Action α → Option α
  | .done result => some result
  | .call _ _ => none
  | .acquire _ next => next.ending?
  | .release _ next => next.ending?

theorem run_of_ending? {σ : Type} {action : Action α} {result : α} (h : action.ending? = some result)
    (answer : σ → (call : Store.Call) → call.Answer × σ) (state : σ) :
    action.run answer state = (result, state) := by
  induction action with
  | done value => rw [Option.some.inj h, run]
  | call c next => cases h
  | acquire layout next ih => exact ih h
  | release layout next ih => exact ih h

/-- Every call is allowed by the steps before it, at most one lock is held at a time, and the result
satisfies a condition. -/
def Obeys (allows : List Event → Store.Call → Prop) (returns : List Event → α → Prop) :
    List Event → Action α → Prop
  | past, .done result => returns past result
  | past, .call c next =>
    allows past c ∧ ∀ answer, (next answer).Obeys allows returns (.exchange c answer :: past)
  | past, .acquire layout next =>
    held past = none ∧ next.Obeys allows returns (.acquire layout :: past)
  | past, .release layout next =>
    held past = some layout ∧ next.Obeys allows returns (.release layout :: past)

theorem run_call {σ : Type} (answer : σ → (call : Store.Call) → call.Answer × σ) (c : Store.Call)
    (next : c.Answer → Action α) (state : σ) : (Action.call c next).run answer state =
      (next (answer state c).1).run answer (answer state c).2 := rfl

variable {allows : List Event → Store.Call → Prop}

theorem obeys_bind {returns : List Event → β → Prop} {past : List Event} {action : Action α}
    {next : α → Action β} : (action.bind next).Obeys allows returns past ↔
      action.Obeys allows (fun past value => (next value).Obeys allows returns past) past := by
  induction action generalizing past with
  | done result => exact Iff.rfl
  | call c rest ih => exact and_congr Iff.rfl (forall_congr' fun answer => ih answer)
  | acquire layout rest ih => exact and_congr Iff.rfl ih
  | release layout rest ih => exact and_congr Iff.rfl ih

end Action

namespace Operation

variable {α β : Type}

def Obeys (allows : List Event → Store.Call → Prop) (returns : List Event → Except DeskError α → Prop)
    (past : List Event) (operation : Operation α) : Prop :=
  Action.Obeys allows returns past operation.run

variable {allows : List Event → Store.Call → Prop} {past : List Event}

theorem obeys_fail {returns : List Event → Except DeskError α → Prop} {error : DeskError} :
    Obeys allows returns past (fail error) ↔ returns past (.error error) := Iff.rfl

theorem obeys_judge {returns : List Event → Except DeskError α → Prop}
    {outcome : Except DeskError α} :
    Obeys allows returns past (judge outcome) ↔ returns past outcome := Iff.rfl

theorem obeys_ask {call : Store.Call}
    {returns : List Event → Except DeskError call.Result → Prop} :
    Obeys allows returns past (ask call) ↔ allows past call ∧
      ∀ answer, returns (.exchange call answer :: past) (answer.mapError DeskError.ofStore) := Iff.rfl

theorem obeys_holding {returns : List Event → Except DeskError α → Prop} {layout : Layout}
    {operation : Operation α} : Obeys allows returns past (holding layout operation) ↔
      held past = none ∧ Obeys allows (fun past outcome =>
        held past = some layout ∧ returns (.release layout :: past) outcome)
          (.acquire layout :: past) operation :=
  and_congr Iff.rfl Action.obeys_bind

/-- What may be returned by an operation that goes on with another one. -/
theorem obeys_bind {returns : List Event → Except DeskError β → Prop} {operation : Operation α}
    {next : α → Operation β} : Obeys allows returns past (operation >>= next) ↔
      Obeys allows (fun past outcome =>
        match outcome with
        | .ok value => Obeys allows returns past (next value)
        | .error error => returns past (.error error)) past operation := by
  refine Action.obeys_bind.trans (iff_of_eq ?_)
  unfold Obeys
  congr 1
  funext past outcome
  cases outcome with
  | ok value => rfl
  | error error => rfl

theorem obeys_map {returns : List Event → Except DeskError β → Prop} {operation : Operation α}
    {f : α → β} : Obeys allows returns past (f <$> operation) ↔
      Obeys allows (fun past outcome => returns past (outcome.map f)) past operation := by
  refine Action.obeys_bind.trans (iff_of_eq ?_)
  unfold Obeys
  congr 1
  funext past outcome
  cases outcome with
  | ok value => rfl
  | error error => rfl

theorem obeys_ask_bind {returns : List Event → Except DeskError β → Prop} {call : Store.Call}
    {next : call.Result → Operation β} (hcall : allows past call)
    (hfailed : ∀ fault error, returns (.exchange call (.error fault) :: past) (.error error))
    (hnext : ∀ result, Obeys allows returns (.exchange call (.ok result) :: past) (next result)) :
    Obeys allows returns past (ask call >>= next) := by
  refine obeys_bind.2 (obeys_ask.2 ⟨hcall, ?_⟩)
  intro answer
  cases answer with
  | error fault => exact hfailed fault _
  | ok result => exact hnext result

theorem obeys_judge_bind {returns : List Event → Except DeskError β → Prop}
    {outcome : Except DeskError α} {next : α → Operation β}
    (hfailed : ∀ error, returns past (.error error))
    (hnext : ∀ value, outcome = .ok value → Obeys allows returns past (next value)) :
    Obeys allows returns past (judge outcome >>= next) := by
  refine obeys_bind.2 (obeys_judge.2 ?_)
  cases outcome with
  | error error => exact hfailed error
  | ok value => exact hnext value rfl

end Operation

end ServiceDesk
