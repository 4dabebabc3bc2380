import ServiceDesk.Proofs.Service.Inquiries
import ServiceDesk.Proofs.Service.Serial
import ServiceDesk.Proofs.Store.Listings
import ServiceDesk.Web.Api

/-!
The statuses of responses. Whatever is requested, the contents of the store stay sound, and sound
contents can be read. So a failure always blames the caller, and its status is below 500.
-/

namespace ServiceDesk

open Hierarchy Service Operation

/-! ### Sound contents can be read -/

namespace Contents.Sound

variable {given : List Uuid} {contents : Contents}

theorem answers (h : contents.Sound given) (call : Store.Call) (hread : call.isWrite = false) :
    ∃ result, (contents.store.answer call).1 = .ok result := by
  have hlisted : ∀ {α : Type} {rows : Except StoreFault α} {found : α}, rows = .ok found →
      rows.mapError StoreError.failed = .ok found := by
    rintro α _ found rfl
    rfl
  cases call with
  | getOrganization id => exact ⟨_, h.answer_getOrganization id⟩
  | listOrganizations query =>
      obtain ⟨found, hfound, _⟩ := listOrganizations_store h.organizations_plain query
      exact ⟨found, hlisted hfound⟩
  | allOrganizations => exact ⟨_, h.answer_allOrganizations⟩
  | getCategory id => exact ⟨_, h.answer_getCategory id⟩
  | listCategories query =>
      obtain ⟨found, hfound, _⟩ := listCategories_store h.categories_plain query
      exact ⟨found, hlisted hfound⟩
  | categoriesFor organizationId => exact ⟨_, h.answer_categoriesFor organizationId⟩
  | countChildOrganizations id => exact ⟨_, rfl⟩
  | countChildCategories id => exact ⟨_, rfl⟩
  | countOrganizationCategories id => exact ⟨_, rfl⟩
  | _ => cases hread

theorem healthy (h : contents.Sound given) : contents.store.Healthy where
  answers := h.answers
  organizations all hall := by
    obtain ⟨found, hfound, hforest, _⟩ := h.organizations_read
    cases hall.symm.trans hfound
    exact hforest
  categories organizationId all hall := by
    obtain ⟨found, hfound, hforest, _⟩ := h.categories_read organizationId
    cases hall.symm.trans hfound
    exact hforest

end Contents.Sound

namespace Web

/-! ### One request -/

/-- Run alone, an action leaves sound contents and responds without blaming the server. -/
def Settles (contents : Contents) (given : List Uuid) (action : Action Response) : Prop :=
  ∃ response after, action.run Store.answer contents.store = (response, Contents.store after) ∧
    response.status < 500 ∧ after.Sound given

theorem Response.statusOf_lt {error : DeskError} (h : error.isInternal = false) :
    Response.statusOf error < 500 := by
  cases error with
  | corrupt id => cases h
  | store fault => cases h
  | _ => simp [Response.statusOf]

theorem Response.ofFault_lt (fault : Json.Fault) : (Response.ofFault fault).status < 500 := by
  cases fault <;> decide

variable {contents : Contents} {given : List Uuid} {stamp : Stamp} {request : Request}
  {target : Target}

theorem settles_done (hsound : contents.Sound given) {response : Response}
    (h : response.status < 500) : Settles contents given (.done response) :=
  ⟨response, contents, rfl, h, hsound⟩

/-- A response that loses its body keeps its status. -/
theorem Settles.bodiless {action : Action Response} (h : Settles contents given action) :
    Settles contents given
      (action.bind fun response => .done { response with body := none }) := by
  obtain ⟨response, after, hrun, hstatus, hsound⟩ := h
  refine ⟨{ response with body := none }, after, ?_, hstatus, hsound⟩
  rw [Action.run_bind, hrun]
  rfl

theorem settles_withId (hsound : contents.Sound given) {segment : String}
    {next : Uuid → Action Response} (h : ∀ id, Settles contents given (next id)) :
    Settles contents given (withId segment next) := by
  rw [withId]
  split
  · exact h _
  · exact settles_done hsound (by decide)

theorem settles_withCriteria (hsound : contents.Sound given) {next : Criteria → Action Response}
    (h : ∀ criteria, Settles contents given (next criteria)) :
    Settles contents given (withCriteria target next) := by
  rw [withCriteria]
  split
  · exact h _
  · exact settles_done hsound (by decide)

theorem settles_withEmail (hsound : contents.Sound given) {next : String → Action Response}
    (h : ∀ email, Settles contents given (next email)) :
    Settles contents given (withEmail target next) := by
  rw [withEmail]
  split
  · exact h _
  · exact settles_done hsound (by decide)

theorem settles_withBody (hsound : contents.Sound given) {α : Type}
    {read : Body → Except Json.Fault α} {next : α → Action Response}
    (h : ∀ value, Settles contents given (next value)) :
    Settles contents given (withBody request read next) := by
  rw [withBody]
  split
  · split
    · exact settles_done hsound (by decide)
    · split
      · exact h _
      · exact settles_done hsound (Response.ofFault_lt _)
  · exact settles_done hsound (by decide)

/-- An operation that blames nobody but the caller and leaves sound contents. -/
theorem settles_reply {α : Type} {operation : Operation α} {answer : α → Response}
    (hblame : BlamesCaller (operation.perform Store.answer contents.store).1)
    (hafter : ∃ after : Contents,
      (operation.perform Store.answer contents.store).2 = after.store ∧ after.Sound given)
    (hanswer : ∀ value, (answer value).status < 500) :
    Settles contents given (reply operation answer) := by
  obtain ⟨after, hstore, hsound⟩ := hafter
  rcases hrun : operation.perform Store.answer contents.store with ⟨outcome, next⟩
  rw [hrun] at hblame hstore
  cases hstore
  have hfirst : operation.run.run Store.answer contents.store = (outcome, after.store) := hrun
  cases outcome with
  | error error =>
      refine ⟨.ofError error, after, ?_, Response.statusOf_lt (hblame error rfl), hsound⟩
      rw [reply, Action.run_bind, hfirst]
      rfl
  | ok value =>
      refine ⟨answer value, after, ?_, hanswer value, hsound⟩
      rw [reply, Action.run_bind, hfirst]
      rfl

theorem settles_inquiry (hsound : contents.Sound given) (inquiry : Inquiry)
    {answer : inquiry.Result → Response} (hanswer : ∀ value, (answer value).status < 500) :
    Settles contents given (reply inquiry.operation answer) := by
  refine settles_reply (inquiry.delivers.blamed hsound.healthy) ⟨contents, ?_, hsound⟩ hanswer
  rw [inquiry.perform_eq]

/-- A request is an operation whose value is wrapped in a reply. -/
theorem settles_request {α : Type} {operation : Operation α} {wrap : α → Reply}
    (request : ServiceDesk.Request) (hrequest : request.operation = wrap <$> operation)
    {answer : α → Response} (hsound : contents.Sound given) (hclock : request.IsPlain)
    (hnew : ∀ id, request.generated? = some id → id ∉ given)
    (hanswer : ∀ value, (answer value).status < 500) :
    Settles contents (request.generated?.toList ++ given) (reply operation answer) := by
  have hmap : request.serve contents.store =
      ((operation.perform Store.answer contents.store).1.map wrap,
        (operation.perform Store.answer contents.store).2) := by
    rw [ServiceDesk.Request.serve, hrequest]
    exact perform_map wrap operation
  have hblame := (request.delivers contents.store).blamed hsound.healthy
  obtain ⟨after, hafter, hsafe⟩ := ServiceDesk.Request.serve_sound hclock hnew hsound
  rw [hmap] at hafter
  refine settles_reply (fun error herror => hblame error ?_) ⟨after, hafter, hsafe⟩ hanswer
  change (request.serve contents.store).1 = _
  rw [hmap, herror]
  rfl

/-! ### Every resource and method -/

theorem settles_join (hsound : contents.Sound given) (id : Uuid) (email : String) :
    Settles contents given (joinReply id email) := by
  rw [joinReply]
  split
  · exact settles_done hsound (by simp [Response.failure, Response.json])
  · exact settles_inquiry hsound (.canJoin id _) fun _ => by simp [Response.json]

theorem plain_of_clock (h : stamp.now.IsPlain) : ∀ now, some stamp.now = some now → now.IsPlain := by
  rintro _ ⟨⟩
  exact h

/-- What can be got from a resource is told by an inquiry. -/
theorem settles_get (hsound : contents.Sound given) (resource : Resource) :
    Settles contents given (answer stamp request target resource .get) := by
  have hok : 200 < 500 := by decide
  cases resource with
  | organizations =>
      refine settles_withCriteria hsound fun criteria => ?_
      exact settles_inquiry hsound (.organizations criteria) fun _ => hok
  | organizationForest => exact settles_inquiry hsound .organizationForest fun _ => hok
  | organization segment =>
      refine settles_withId hsound fun id => ?_
      exact settles_inquiry hsound (.organization id) fun _ => hok
  | organizationParent segment => exact settles_done hsound (by decide)
  | organizationTree segment =>
      refine settles_withId hsound fun id => ?_
      exact settles_inquiry hsound (.organizationTree id) fun _ => hok
  | organizationPath segment =>
      refine settles_withId hsound fun id => ?_
      exact settles_inquiry hsound (.organizationPath id) fun _ => hok
  | organizationJoin segment =>
      refine settles_withId hsound fun id => settles_withEmail hsound fun email => ?_
      exact settles_join hsound id email
  | organizationCategories segment =>
      refine settles_withId hsound fun id => settles_withCriteria hsound fun criteria => ?_
      exact settles_inquiry hsound (.categories id criteria) fun _ => hok
  | organizationCategoryForest segment =>
      refine settles_withId hsound fun id => ?_
      exact settles_inquiry hsound (.categoryForest id) fun _ => hok
  | category segment =>
      refine settles_withId hsound fun id => ?_
      exact settles_inquiry hsound (.category id) fun _ => hok
  | categoryParent segment => exact settles_done hsound (by decide)
  | categoryTree segment =>
      refine settles_withId hsound fun id => ?_
      exact settles_inquiry hsound (.categoryTree id) fun _ => hok
  | categoryPath segment =>
      refine settles_withId hsound fun id => ?_
      exact settles_inquiry hsound (.categoryPath id) fun _ => hok
  | roles => exact settles_done hsound hok

/-- Entities are created in collections, under the id that is at hand. -/
theorem settles_post (hsound : contents.Sound given) (hclock : stamp.now.IsPlain)
    (hnew : stamp.id ∉ given) (resource : Resource) :
    Settles contents (stamp.id :: given) (answer stamp request target resource .post) := by
  have hmore : contents.Sound (stamp.id :: given) := hsound.mono (List.subset_cons_self _ _)
  have hplain := plain_of_clock hclock
  have hfresh : ∀ id, some stamp.id = some id → id ∉ given := by
    rintro _ ⟨⟩
    exact hnew
  have hcreated : 201 < 500 := by decide
  cases resource with
  | organizations =>
      refine settles_withBody hmore fun input => ?_
      exact settles_request (.createOrganization stamp input) rfl hsound hplain hfresh
        fun _ => hcreated
  | organizationCategories segment =>
      refine settles_withId hmore fun id => settles_withBody hmore fun input => ?_
      exact settles_request (.createCategory stamp id input) rfl hsound hplain hfresh
        fun _ => hcreated
  | _ => exact settles_done hmore (by decide)

theorem settles_patch (hsound : contents.Sound given) (hclock : stamp.now.IsPlain)
    (resource : Resource) : Settles contents given (answer stamp request target resource .patch) := by
  have hplain := plain_of_clock hclock
  have hok : 200 < 500 := by decide
  cases resource with
  | organization segment =>
      refine settles_withId hsound fun id => settles_withBody hsound fun changes => ?_
      exact settles_request (.updateOrganization stamp id changes) rfl hsound hplain nofun
        fun _ => hok
  | category segment =>
      refine settles_withId hsound fun id => settles_withBody hsound fun changes => ?_
      exact settles_request (.updateCategory stamp id changes) rfl hsound hplain nofun
        fun _ => hok
  | _ => exact settles_done hsound (by decide)

theorem settles_put (hsound : contents.Sound given) (hclock : stamp.now.IsPlain)
    (resource : Resource) : Settles contents given (answer stamp request target resource .put) := by
  have hplain := plain_of_clock hclock
  have hok : 200 < 500 := by decide
  cases resource with
  | organizationParent segment =>
      refine settles_withId hsound fun id => settles_withBody hsound fun parentId => ?_
      exact settles_request (.moveOrganization stamp id parentId) rfl hsound hplain nofun
        fun _ => hok
  | categoryParent segment =>
      refine settles_withId hsound fun id => settles_withBody hsound fun parentId => ?_
      exact settles_request (.moveCategory stamp id parentId) rfl hsound hplain nofun
        fun _ => hok
  | _ => exact settles_done hsound (by decide)

theorem settles_delete (hsound : contents.Sound given) (resource : Resource) :
    Settles contents given (answer stamp request target resource .delete) := by
  have hempty : 204 < 500 := by decide
  cases resource with
  | organization segment =>
      refine settles_withId hsound fun id => ?_
      exact settles_request (.deleteOrganization id) rfl hsound nofun nofun fun _ => hempty
  | category segment =>
      refine settles_withId hsound fun id => ?_
      exact settles_request (.deleteCategory id) rfl hsound nofun nofun fun _ => hempty
  | _ => exact settles_done hsound (by decide)

/-- The ids that a request with this method may give away. -/
def Method.gives (stamp : Stamp) : Method → List Uuid
  | .post => [stamp.id]
  | _ => []

/-- Whatever is asked of a resource, by whatever method, the answer blames nobody but the caller. -/
theorem settles_answer (hsound : contents.Sound given) (hclock : stamp.now.IsPlain)
    (resource : Resource) (method : Method) (hnew : ∀ id ∈ method.gives stamp, id ∉ given) :
    Settles contents (method.gives stamp ++ given) (answer stamp request target resource method) := by
  have hrefused : Settles contents given (.done (.refusal 405)) := settles_done hsound (by decide)
  cases method with
  | get => exact settles_get hsound resource
  | head => cases resource <;> exact hrefused
  | post => exact settles_post hsound hclock (hnew stamp.id List.mem_cons_self) resource
  | put => exact settles_put hsound hclock resource
  | patch => exact settles_patch hsound hclock resource
  | delete => exact settles_delete hsound resource
  | other => cases resource <;> exact hrefused

/-- A request with the id and the time that are at hand for it. -/
structure Visit where
  stamp : Stamp
  request : Request

namespace Visit

/-- The ids that a visit may give away. -/
def gives (visit : Visit) : List Uuid := (Method.ofText visit.request.method).gives visit.stamp

def run (visit : Visit) (store : Store) : Response × Store :=
  (respond visit.stamp visit.request).run Store.answer store

theorem settles (visit : Visit) (hsound : contents.Sound given) (hclock : visit.stamp.now.IsPlain)
    (hnew : ∀ id ∈ visit.gives, id ∉ given) :
    Settles contents (visit.gives ++ given) (respond visit.stamp visit.request) := by
  have hmore : contents.Sound (visit.gives ++ given) := hsound.mono (List.subset_append_right _ _)
  rw [respond]
  split
  · exact settles_done hmore (by decide)
  · split
    · rename_i hmethod
      rw [gives, hmethod] at hnew ⊢
      exact (settles_get hsound _).bodiless
    · exact settles_answer hsound hclock _ _ hnew

end Visit

def responses (store : Store) : List Visit → List Response
  | [] => []
  | visit :: visits => (visit.run store).1 :: responses (visit.run store).2 visits

/-- From sound contents on, no response has a status of 500 or more. -/
theorem responses_of_sound (visits : List Visit) {contents : Contents} {given : List Uuid}
    (hsound : contents.Sound given) (hids : (visits.flatMap Visit.gives).Nodup)
    (hnew : ∀ id ∈ visits.flatMap Visit.gives, id ∉ given)
    (hclock : ∀ visit ∈ visits, visit.stamp.now.IsPlain) :
    ∀ response ∈ responses contents.store visits, response.status < 500 := by
  induction visits generalizing contents given with
  | nil => nofun
  | cons visit visits ih =>
      rw [List.flatMap_cons] at hids hnew
      obtain ⟨_, hrest, hapart⟩ := List.nodup_append.1 hids
      obtain ⟨response, after, hrun, hstatus, hsafe⟩ := visit.settles hsound
        (hclock visit List.mem_cons_self) fun id hid => hnew id (List.mem_append_left _ hid)
      have hvisit : visit.run contents.store = (response, after.store) := hrun
      have hfresh : ∀ id ∈ visits.flatMap Visit.gives, id ∉ visit.gives ++ given := by
        intro id hid hmem
        rcases List.mem_append.1 hmem with hself | hold
        · exact hapart id hself id hid rfl
        · exact hnew id (List.mem_append_right _ hid) hold
      rw [responses, hvisit]
      refine List.forall_mem_cons.2 ⟨hstatus, ?_⟩
      exact ih hsafe hrest hfresh fun other hmem => hclock other (List.mem_cons_of_mem _ hmem)

/-- Whatever is sent to an empty store, one request after another, with new ids and a clock within the
years 0 to 9999: no response has a status of 500 or more. -/
theorem no_server_error (visits : List Visit) (hids : (visits.flatMap Visit.gives).Nodup)
    (hclock : ∀ visit ∈ visits, visit.stamp.now.IsPlain) :
    ∀ response ∈ responses Store.empty visits, response.status < 500 :=
  responses_of_sound visits Contents.Sound.empty hids (fun _ _ => List.not_mem_nil) hclock

/-- An organization is created, a second one is refused under the same name, and both are asked for. -/
def Visit.sameName : List Visit :=
  let body : Body := "\x7b\x22name\x22:\x22Desk\x22\x7d"
  [⟨⟨.ofSeconds 60, .small 1⟩, ⟨"POST", "/organizations", some "application/json", body⟩⟩,
    ⟨⟨.ofSeconds 61, .small 2⟩, ⟨"POST", "/organizations", some "application/json", body⟩⟩,
    ⟨⟨.ofSeconds 62, .small 3⟩, ⟨"GET", "/organizations/tree", none, ""⟩⟩]

theorem no_server_error_sameName :
    (responses Store.empty Visit.sameName).map Response.status = [201, 409, 200] ∧
      ∀ response ∈ responses Store.empty Visit.sameName, response.status < 500 :=
  ⟨by decide +kernel, no_server_error Visit.sameName (by decide) (by decide)⟩

end Web

end ServiceDesk
