import ServiceDesk.Listing.Decode
import ServiceDesk.View
import ServiceDesk.Web.Body
import ServiceDesk.Web.MediaType
import ServiceDesk.Web.Response
import ServiceDesk.Web.Route

/-!
The interface over HTTP. A request is routed by its path and method; then the id in the path is
read, then the query string, then the body, and only when all of them can be read does the
operation run. A head request is answered like a get request, without the body.
-/

namespace ServiceDesk.Web

open Service

structure Request where
  method : String
  target : String
  contentType : Option String
  body : Body

/-- The reply to a request that was read: the operation, and the response to its value. -/
def reply {α : Type} (operation : Operation α) (answer : α → Response) : Action Response :=
  operation.run.bind fun
    | .ok value => .done (answer value)
    | .error error => .done (.ofError error)

def withId (segment : String) (next : Uuid → Action Response) : Action Response :=
  match (decodeSegment? segment).bind Uuid.ofText? with
  | some id => next id
  | none => .done (.refusal 400)

def withCriteria (target : Target) (next : Criteria → Action Response) : Action Response :=
  match Criteria.ofPairs? target.pairs with
  | some criteria => next criteria
  | none => .done (.refusal 400)

def withEmail (target : Target) (next : String → Action Response) : Action Response :=
  match Criteria.single? target.pairs "email" with
  | some (some email) => next email
  | _ => .done (.refusal 400)

/-- The greatest number of bytes in the body of a request: two megabytes. -/
def greatestBody : Nat := 2 * 1024 * 1024

def withBody {α : Type} (request : Request) (read : Body → Except Json.Fault α)
    (next : α → Action Response) : Action Response :=
  if (request.contentType.map isJson).getD false then
    if greatestBody < request.body.bytes.size then .done (.refusal 413)
    else
      match read request.body with
      | .ok value => next value
      | .error fault => .done (.ofFault fault)
  else .done (.refusal 415)

def organizationReply (status : Nat) (organization : Organization) : Response :=
  .json status (View.organization organization)

def categoryReply (status : Nat) (category : Category) : Response :=
  .json status (View.category category)

def pathReply (id : Uuid) (path : String) : Response :=
  .json 200 (.record [("id", View.uuid id), ("path", .text path)])

/-- Answer whether a user may join an organization. The address must not be blank. -/
def joinReply (id : Uuid) (email : String) : Action Response :=
  let email := Text.trim email
  if email = "" then .done (.failure 400 "bad request: email must not be empty")
  else reply (canJoinByEmail id email) fun canJoin =>
    .json 200 (.record [("organization_id", View.uuid id), ("email", .text email),
      ("can_join", .bool canJoin)])

/-- Answer a request for a resource. A method that the resource does not know is refused. -/
def answer (stamp : Stamp) (request : Request) (target : Target) :
    Resource → Method → Action Response
  | .organizations, .get => withCriteria target fun criteria =>
    reply (listOrganizations criteria) fun found => .json 200 (.list (found.map View.organization))
  | .organizations, .post => withBody request newOrganization fun input =>
    reply (createOrganization stamp input) (organizationReply 201)
  | .organizationForest, .get =>
    reply organizationForest fun forest =>
      .json 200 (.list (View.trees View.organizationFields forest))
  | .organization segment, .get => withId segment fun id =>
    reply (getOrganization id) (organizationReply 200)
  | .organization segment, .patch => withId segment fun id =>
    withBody request organizationChanges fun changes =>
      reply (updateOrganization stamp id changes) (organizationReply 200)
  | .organization segment, .delete => withId segment fun id =>
    reply (deleteOrganization id) fun _ => .refusal 204
  | .organizationParent segment, .put => withId segment fun id =>
    withBody request newParent fun parentId =>
      reply (moveOrganization stamp id parentId) (organizationReply 200)
  | .organizationTree segment, .get => withId segment fun id =>
    reply (organizationTree id) fun tree => .json 200 (View.tree View.organizationFields tree)
  | .organizationPath segment, .get => withId segment fun id =>
    reply (organizationPath id) (pathReply id)
  | .organizationJoin segment, .get => withId segment fun id =>
    withEmail target (joinReply id)
  | .organizationCategories segment, .get => withId segment fun id =>
    withCriteria target fun criteria =>
      reply (listCategories id criteria) fun found => .json 200 (.list (found.map View.category))
  | .organizationCategories segment, .post => withId segment fun id =>
    withBody request newCategory fun input =>
      reply (createCategory stamp id input) (categoryReply 201)
  | .organizationCategoryForest segment, .get => withId segment fun id =>
    reply (categoryForest id) fun forest =>
      .json 200 (.list (View.trees View.categoryFields forest))
  | .category segment, .get => withId segment fun id =>
    reply (getCategory id) (categoryReply 200)
  | .category segment, .patch => withId segment fun id =>
    withBody request categoryChanges fun changes =>
      reply (updateCategory stamp id changes) (categoryReply 200)
  | .category segment, .delete => withId segment fun id =>
    reply (deleteCategory id) fun _ => .refusal 204
  | .categoryParent segment, .put => withId segment fun id =>
    withBody request newParent fun parentId =>
      reply (moveCategory stamp id parentId) (categoryReply 200)
  | .categoryTree segment, .get => withId segment fun id =>
    reply (categoryTree id) fun tree => .json 200 (View.tree View.categoryFields tree)
  | .categoryPath segment, .get => withId segment fun id =>
    reply (categoryPath id) (pathReply id)
  | .roles, .get => .done (.json 200 (.list (Role.all.map View.role)))
  | _, _ => .done (.refusal 405)

def respond (stamp : Stamp) (request : Request) : Action Response :=
  let target := Target.ofText request.target
  match target.segments.bind Resource.ofSegments? with
  | none => .done (.refusal 404)
  | some resource =>
    match Method.ofText request.method with
    | .head => (answer stamp request target resource .get).bind fun response =>
      .done { response with body := none }
    | method => answer stamp request target resource method

end ServiceDesk.Web
