import ServiceDesk.Proofs.Service.Requests

/-!
What each request asks of the store, and when. A creation or a move reads and writes under the lock
of its layout and saves only what has been judged against links read under that lock. An update
saves what it has read, changed, and a deletion deletes; both do without a lock. Every request
writes at most once and asks nothing afterwards.
-/

namespace ServiceDesk

open Service

/-- The lock under which a request works. -/
def Request.lock? : Request → Option Layout
  | createOrganization _ _ => some .organizations
  | moveOrganization _ _ _ => some .organizations
  | createCategory _ _ _ => some .categories
  | moveCategory _ _ _ => some .categories
  | _ => none

/-- The calls that a request may make after some steps, the latest of which comes first. -/
inductive Request.Allows : Request → List Event → Store.Call → Prop
  /-- Requests without a lock may read anything. -/
  | look {request past call} (hlock : request.lock? = none) (hread : call.isWrite = false) :
      Allows request past call
  /-- Under a lock the table of the lock is read. -/
  | read {request past call layout} (hlock : request.lock? = some layout)
      (hheld : held past = some layout) (hlayout : call.layout = layout)
      (hread : call.isWrite = false) : Allows request past call
  /-- The organization of a new category is looked up before anything else. -/
  | tenant {stamp organizationId input} :
      Allows (.createCategory stamp organizationId input) [] (.getOrganization organizationId)
  | createOrganization {stamp input past organization} (hheld : held past = some .organizations)
      (hinput : Organization.ofInput stamp.id input.name input.domain input.parentId stamp.now =
        .ok organization)
      (hdepth : ∀ parent, input.parentId = some parent → ∃ all,
        .exchange .allOrganizations (.ok all) ∈ guarded past ∧
          (Lineage.ofItems all).checkDepth organization.id (some parent) = .ok ()) :
      Allows (.createOrganization stamp input) past (.saveOrganization organization)
  | updateOrganization {stamp id changes past stored organization}
      (hstored : .exchange (.getOrganization id) (.ok (some stored)) ∈ past)
      (hchange : changeOrganization changes stamp.now stored = .ok organization) :
      Allows (.updateOrganization stamp id changes) past (.saveOrganization organization)
  | uprootOrganization {stamp id past stored} (hheld : held past = some .organizations)
      (hstored : .exchange (.getOrganization id) (.ok (some stored)) ∈ guarded past) :
      Allows (.moveOrganization stamp id none) past
        (.saveOrganization (stored.moveToRoot stamp.now))
  | moveOrganization {stamp id parent past stored organization all}
      (hheld : held past = some .organizations)
      (hstored : .exchange (.getOrganization id) (.ok (some stored)) ∈ guarded past)
      (hchange : stored.changeParent (some parent) stamp.now = .ok organization)
      (hall : .exchange .allOrganizations (.ok all) ∈ guarded past)
      (hcheck : checkMove (Lineage.ofItems all) id parent = .ok ()) :
      Allows (.moveOrganization stamp id (some parent)) past (.saveOrganization organization)
  | deleteOrganization {id past} : Allows (.deleteOrganization id) past (.deleteOrganization id)
  | createCategory {stamp organizationId input past category} (hheld : held past = some .categories)
      (hinput : Category.ofInput stamp.id organizationId input.name input.description input.parentId
        stamp.now = .ok category)
      (hdepth : ∀ parent, input.parentId = some parent → ∃ all,
        .exchange (.categoriesFor organizationId) (.ok all) ∈ guarded past ∧
          (Lineage.ofItems all).checkDepth category.id (some parent) = .ok ()) :
      Allows (.createCategory stamp organizationId input) past (.saveCategory category)
  | updateCategory {stamp id changes past stored category}
      (hstored : .exchange (.getCategory id) (.ok (some stored)) ∈ past)
      (hchange : changeCategory changes stamp.now stored = .ok category) :
      Allows (.updateCategory stamp id changes) past (.saveCategory category)
  | uprootCategory {stamp id past stored} (hheld : held past = some .categories)
      (hstored : .exchange (.getCategory id) (.ok (some stored)) ∈ guarded past) :
      Allows (.moveCategory stamp id none) past (.saveCategory (stored.moveToRoot stamp.now))
  | moveCategory {stamp id parent past stored category all} (hheld : held past = some .categories)
      (hstored : .exchange (.getCategory id) (.ok (some stored)) ∈ guarded past)
      (hchange : stored.changeParent (some parent) stamp.now = .ok category)
      (hall : .exchange (.categoriesFor stored.organizationId) (.ok all) ∈ guarded past)
      (hcheck : checkMove (Lineage.ofItems all) id parent = .ok ()) :
      Allows (.moveCategory stamp id (some parent)) past (.saveCategory category)
  | deleteCategory {id past} : Allows (.deleteCategory id) past (.deleteCategory id)

/-- The results that a request may return after some steps. A deletion succeeds only right after a
row was deleted. -/
inductive Request.Returns : Request → List Event → Except DeskError Reply → Prop
  | failed {request past error} : Returns request past (.error error)
  | organization {request past organization} :
      Returns request past (.ok (.organization organization))
  | category {request past category} : Returns request past (.ok (.category category))
  | deletedOrganization {id past} : Returns (.deleteOrganization id)
      (.exchange (.deleteOrganization id) (.ok true) :: past) (.ok .deleted)
  | deletedCategory {id past} : Returns (.deleteCategory id)
      (.exchange (.deleteCategory id) (.ok true) :: past) (.ok .deleted)

def Request.Obeys (request : Request) (past : List Event) (action : Action (Except DeskError Reply)) :
    Prop :=
  action.Obeys (fun past call => pending past = true ∧ request.Allows past call)
    (fun past outcome => held past = none ∧ request.Returns past outcome) past

namespace Request.Obeys

variable {request : Request} {past : List Event}

theorem done {outcome : Except DeskError Reply} (h : request.Obeys past (.done outcome)) :
    held past = none ∧ request.Returns past outcome := h

theorem call {c : Store.Call} {next : c.Answer → Action (Except DeskError Reply)}
    (h : request.Obeys past (.call c next)) : pending past = true ∧ request.Allows past c ∧
      ∀ answer, request.Obeys (.exchange c answer :: past) (next answer) :=
  ⟨h.1.1, h.1.2, h.2⟩

theorem acquire {layout : Layout} {next : Action (Except DeskError Reply)}
    (h : request.Obeys past (.acquire layout next)) :
    held past = none ∧ request.Obeys (.acquire layout :: past) next := h

theorem release {layout : Layout} {next : Action (Except DeskError Reply)}
    (h : request.Obeys past (.release layout next)) :
    held past = some layout ∧ request.Obeys (.release layout :: past) next := h

theorem ending?_isSome {action : Action (Except DeskError Reply)} (h : request.Obeys past action)
    (hfinal : pending past = false) : action.ending?.isSome = true := by
  induction action generalizing past with
  | done outcome => rfl
  | call c next ih =>
      have hpending := h.call.1
      rw [hfinal] at hpending
      cases hpending
  | acquire layout next ih => exact ih h.acquire.2 (by rwa [pending, List.all_cons] at *)
  | release layout next ih => exact ih h.release.2 rfl

end Request.Obeys

namespace Service

open Operation

variable {allows : List Event → Store.Call → Prop} {past : List Event}

theorem obeys_getOrganization_bind {β : Type} {returns : List Event → Except DeskError β → Prop}
    {id : Uuid} {next : Organization → Operation β} (hcall : allows past (.getOrganization id))
    (hfailed : ∀ answer error, returns (.exchange (.getOrganization id) answer :: past)
      (.error error))
    (hnext : ∀ organization, Operation.Obeys allows returns
      (.exchange (.getOrganization id) (.ok (some organization)) :: past) (next organization)) :
    Operation.Obeys allows returns past (getOrganization id >>= next) := by
  refine Operation.obeys_bind.2 (obeys_ask_bind hcall (fun _ _ => hfailed _ _) ?_)
  intro found
  cases found with
  | none => exact hfailed _ _
  | some organization => exact hnext organization

theorem obeys_getCategory_bind {β : Type} {returns : List Event → Except DeskError β → Prop}
    {id : Uuid} {next : Category → Operation β} (hcall : allows past (.getCategory id))
    (hfailed : ∀ answer error, returns (.exchange (.getCategory id) answer :: past) (.error error))
    (hnext : ∀ category, Operation.Obeys allows returns
      (.exchange (.getCategory id) (.ok (some category)) :: past) (next category)) :
    Operation.Obeys allows returns past (getCategory id >>= next) := by
  refine Operation.obeys_bind.2 (obeys_ask_bind hcall (fun _ _ => hfailed _ _) ?_)
  intro found
  cases found with
  | none => exact hfailed _ _
  | some category => exact hnext category

end Service

namespace Request

open Operation

theorem obeys_createOrganization (stamp : Stamp) (input : NewOrganization) :
    (createOrganization stamp input).Obeys [] (createOrganization stamp input).operation.run := by
  refine obeys_map.2 (obeys_judge_bind (fun _ => ⟨rfl, .failed⟩) ?_)
  intro organization hinput
  refine obeys_holding.2 ⟨rfl, ?_⟩
  cases hparent : input.parentId with
  | none =>
      have hdepth : ∀ parent, input.parentId = some parent → ∃ all,
          Event.exchange .allOrganizations (.ok all) ∈ guarded [.acquire .organizations] ∧
            (Lineage.ofItems all).checkDepth organization.id (some parent) = .ok () := by
        intro parent hsome
        cases hparent.symm.trans hsome
      refine obeys_ask_bind ⟨rfl, .createOrganization rfl hinput hdepth⟩
        (fun _ _ => ⟨rfl, rfl, .failed⟩) ?_
      exact fun _ => ⟨rfl, rfl, .organization⟩
  | some parent =>
      refine obeys_getOrganization_bind ⟨rfl, .read rfl rfl rfl rfl⟩
        (fun _ _ => ⟨rfl, rfl, .failed⟩) ?_
      intro above
      refine obeys_ask_bind ⟨rfl, .read rfl rfl rfl rfl⟩ (fun _ _ => ⟨rfl, rfl, .failed⟩) ?_
      intro all
      refine obeys_judge_bind (fun _ => ⟨rfl, rfl, .failed⟩) ?_
      intro _ hroom
      have hdepth : ∀ other, input.parentId = some other → ∃ all',
          Event.exchange .allOrganizations (.ok all') ∈ guarded
            [.exchange .allOrganizations (.ok all),
              .exchange (.getOrganization parent) (.ok (some above)), .acquire .organizations] ∧
            (Lineage.ofItems all').checkDepth organization.id (some other) = .ok () := by
        intro other hsome
        cases hparent.symm.trans hsome
        exact ⟨all, List.mem_cons_self, hroom⟩
      refine obeys_ask_bind ⟨rfl, .createOrganization rfl hinput hdepth⟩
        (fun _ _ => ⟨rfl, rfl, .failed⟩) ?_
      exact fun _ => ⟨rfl, rfl, .organization⟩

theorem obeys_updateOrganization (stamp : Stamp) (id : Uuid) (changes : OrganizationChanges) :
    (updateOrganization stamp id changes).Obeys []
      (updateOrganization stamp id changes).operation.run := by
  refine obeys_map.2 (obeys_getOrganization_bind ⟨rfl, .look rfl rfl⟩
    (fun _ _ => ⟨rfl, .failed⟩) ?_)
  intro stored
  refine obeys_judge_bind (fun _ => ⟨rfl, .failed⟩) ?_
  intro organization hchange
  refine obeys_ask_bind ⟨rfl, .updateOrganization List.mem_cons_self hchange⟩
    (fun _ _ => ⟨rfl, .failed⟩) ?_
  exact fun _ => ⟨rfl, .organization⟩

theorem obeys_moveOrganization (stamp : Stamp) (id : Uuid) (parentId : Option Uuid) :
    (moveOrganization stamp id parentId).Obeys []
      (moveOrganization stamp id parentId).operation.run := by
  refine obeys_map.2 (obeys_holding.2 ⟨rfl, ?_⟩)
  refine obeys_getOrganization_bind ⟨rfl, .read rfl rfl rfl rfl⟩
    (fun _ _ => ⟨rfl, rfl, .failed⟩) ?_
  intro stored
  cases parentId with
  | none =>
      refine obeys_ask_bind ⟨rfl, .uprootOrganization rfl List.mem_cons_self⟩
        (fun _ _ => ⟨rfl, rfl, .failed⟩) ?_
      exact fun _ => ⟨rfl, rfl, .organization⟩
  | some parent =>
      refine obeys_judge_bind (fun _ => ⟨rfl, rfl, .failed⟩) ?_
      intro organization hchange
      refine obeys_ask_bind ⟨rfl, .read rfl rfl rfl rfl⟩ (fun _ _ => ⟨rfl, rfl, .failed⟩) ?_
      intro all
      refine obeys_judge_bind (fun _ => ⟨rfl, rfl, .failed⟩) ?_
      intro _ hcheck
      refine obeys_ask_bind ⟨rfl, .moveOrganization rfl (List.mem_cons_of_mem _ List.mem_cons_self)
        hchange List.mem_cons_self hcheck⟩ (fun _ _ => ⟨rfl, rfl, .failed⟩) ?_
      exact fun _ => ⟨rfl, rfl, .organization⟩

theorem obeys_deleteOrganization (id : Uuid) :
    (deleteOrganization id).Obeys [] (deleteOrganization id).operation.run := by
  refine obeys_map.2 (obeys_getOrganization_bind ⟨rfl, .look rfl rfl⟩
    (fun _ _ => ⟨rfl, .failed⟩) ?_)
  intro stored
  refine obeys_ask_bind ⟨rfl, .look rfl rfl⟩ (fun _ _ => ⟨rfl, .failed⟩) ?_
  intro children
  split
  · exact obeys_fail.2 ⟨rfl, .failed⟩
  · refine obeys_ask_bind ⟨rfl, .look rfl rfl⟩ (fun _ _ => ⟨rfl, .failed⟩) ?_
    intro categories
    split
    · exact obeys_fail.2 ⟨rfl, .failed⟩
    · refine obeys_ask_bind ⟨rfl, .deleteOrganization⟩ (fun _ _ => ⟨rfl, .failed⟩) ?_
      intro deleted
      cases deleted with
      | true => exact ⟨rfl, .deletedOrganization⟩
      | false => exact ⟨rfl, .failed⟩

theorem obeys_createCategory (stamp : Stamp) (organizationId : Uuid) (input : NewCategory) :
    (createCategory stamp organizationId input).Obeys []
      (createCategory stamp organizationId input).operation.run := by
  refine obeys_map.2 (obeys_judge_bind (fun _ => ⟨rfl, .failed⟩) ?_)
  intro category hinput
  refine obeys_getOrganization_bind ⟨rfl, .tenant⟩ (fun _ _ => ⟨rfl, .failed⟩) ?_
  intro owner
  refine obeys_holding.2 ⟨rfl, ?_⟩
  cases hparent : input.parentId with
  | none =>
      have hdepth : ∀ parent, input.parentId = some parent → ∃ all,
          Event.exchange (.categoriesFor organizationId) (.ok all) ∈ guarded
            [.acquire .categories, .exchange (.getOrganization organizationId) (.ok (some owner))] ∧
            (Lineage.ofItems all).checkDepth category.id (some parent) = .ok () := by
        intro parent hsome
        cases hparent.symm.trans hsome
      refine obeys_ask_bind ⟨rfl, .createCategory rfl hinput hdepth⟩
        (fun _ _ => ⟨rfl, rfl, .failed⟩) ?_
      exact fun _ => ⟨rfl, rfl, .category⟩
  | some parent =>
      refine obeys_getCategory_bind ⟨rfl, .read rfl rfl rfl rfl⟩
        (fun _ _ => ⟨rfl, rfl, .failed⟩) ?_
      intro above
      refine obeys_judge_bind (fun _ => ⟨rfl, rfl, .failed⟩) ?_
      intro _ _
      refine obeys_ask_bind ⟨rfl, .read rfl rfl rfl rfl⟩ (fun _ _ => ⟨rfl, rfl, .failed⟩) ?_
      intro all
      refine obeys_judge_bind (fun _ => ⟨rfl, rfl, .failed⟩) ?_
      intro _ hroom
      have hdepth : ∀ other, input.parentId = some other → ∃ all',
          Event.exchange (.categoriesFor organizationId) (.ok all') ∈ guarded
            [.exchange (.categoriesFor organizationId) (.ok all),
              .exchange (.getCategory parent) (.ok (some above)), .acquire .categories,
              .exchange (.getOrganization organizationId) (.ok (some owner))] ∧
            (Lineage.ofItems all').checkDepth category.id (some other) = .ok () := by
        intro other hsome
        cases hparent.symm.trans hsome
        exact ⟨all, List.mem_cons_self, hroom⟩
      refine obeys_ask_bind ⟨rfl, .createCategory rfl hinput hdepth⟩
        (fun _ _ => ⟨rfl, rfl, .failed⟩) ?_
      exact fun _ => ⟨rfl, rfl, .category⟩

theorem obeys_updateCategory (stamp : Stamp) (id : Uuid) (changes : CategoryChanges) :
    (updateCategory stamp id changes).Obeys [] (updateCategory stamp id changes).operation.run := by
  refine obeys_map.2 (obeys_getCategory_bind ⟨rfl, .look rfl rfl⟩ (fun _ _ => ⟨rfl, .failed⟩) ?_)
  intro stored
  refine obeys_judge_bind (fun _ => ⟨rfl, .failed⟩) ?_
  intro category hchange
  refine obeys_ask_bind ⟨rfl, .updateCategory List.mem_cons_self hchange⟩
    (fun _ _ => ⟨rfl, .failed⟩) ?_
  exact fun _ => ⟨rfl, .category⟩

theorem obeys_moveCategory (stamp : Stamp) (id : Uuid) (parentId : Option Uuid) :
    (moveCategory stamp id parentId).Obeys [] (moveCategory stamp id parentId).operation.run := by
  refine obeys_map.2 (obeys_holding.2 ⟨rfl, ?_⟩)
  refine obeys_getCategory_bind ⟨rfl, .read rfl rfl rfl rfl⟩ (fun _ _ => ⟨rfl, rfl, .failed⟩) ?_
  intro stored
  cases parentId with
  | none =>
      refine obeys_ask_bind ⟨rfl, .uprootCategory rfl List.mem_cons_self⟩
        (fun _ _ => ⟨rfl, rfl, .failed⟩) ?_
      exact fun _ => ⟨rfl, rfl, .category⟩
  | some parent =>
      refine obeys_judge_bind (fun _ => ⟨rfl, rfl, .failed⟩) ?_
      intro category hchange
      refine obeys_getCategory_bind ⟨rfl, .read rfl rfl rfl rfl⟩
        (fun _ _ => ⟨rfl, rfl, .failed⟩) ?_
      intro above
      refine obeys_judge_bind (fun _ => ⟨rfl, rfl, .failed⟩) ?_
      intro _ _
      refine obeys_ask_bind ⟨rfl, .read rfl rfl rfl rfl⟩ (fun _ _ => ⟨rfl, rfl, .failed⟩) ?_
      intro all
      refine obeys_judge_bind (fun _ => ⟨rfl, rfl, .failed⟩) ?_
      intro _ hcheck
      have hstored : Event.exchange (.getCategory id) (.ok (some stored)) ∈ guarded
          [.exchange (.categoriesFor stored.organizationId) (.ok all),
            .exchange (.getCategory parent) (.ok (some above)),
            .exchange (.getCategory id) (.ok (some stored)), .acquire .categories] :=
        List.mem_cons_of_mem _ (List.mem_cons_of_mem _ List.mem_cons_self)
      refine obeys_ask_bind ⟨rfl, .moveCategory rfl hstored hchange List.mem_cons_self hcheck⟩
        (fun _ _ => ⟨rfl, rfl, .failed⟩) ?_
      exact fun _ => ⟨rfl, rfl, .category⟩

theorem obeys_deleteCategory (id : Uuid) :
    (deleteCategory id).Obeys [] (deleteCategory id).operation.run := by
  refine obeys_map.2 (obeys_getCategory_bind ⟨rfl, .look rfl rfl⟩ (fun _ _ => ⟨rfl, .failed⟩) ?_)
  intro stored
  refine obeys_ask_bind ⟨rfl, .look rfl rfl⟩ (fun _ _ => ⟨rfl, .failed⟩) ?_
  intro children
  split
  · exact obeys_fail.2 ⟨rfl, .failed⟩
  · refine obeys_ask_bind ⟨rfl, .deleteCategory⟩ (fun _ _ => ⟨rfl, .failed⟩) ?_
    intro deleted
    cases deleted with
    | true => exact ⟨rfl, .deletedCategory⟩
    | false => exact ⟨rfl, .failed⟩

/-- Every request obeys its protocol from its first step on. -/
theorem obeys_operation (request : Request) : request.Obeys [] request.operation.run := by
  cases request with
  | createOrganization stamp input => exact obeys_createOrganization stamp input
  | updateOrganization stamp id changes => exact obeys_updateOrganization stamp id changes
  | moveOrganization stamp id parentId => exact obeys_moveOrganization stamp id parentId
  | deleteOrganization id => exact obeys_deleteOrganization id
  | createCategory stamp organizationId input =>
      exact obeys_createCategory stamp organizationId input
  | updateCategory stamp id changes => exact obeys_updateCategory stamp id changes
  | moveCategory stamp id parentId => exact obeys_moveCategory stamp id parentId
  | deleteCategory id => exact obeys_deleteCategory id

end Request

end ServiceDesk
