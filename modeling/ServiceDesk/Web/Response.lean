import ServiceDesk.Json.Record
import ServiceDesk.Error

/-!
Responses: a status code, and a JSON body where there is one. Every failure of the desk has a
status of its own kind; a request that cannot be read is refused by its status alone.
-/

namespace ServiceDesk.Web

structure Response where
  status : Nat
  body : Option Json
  deriving Repr

namespace Response

/-- A refusal whose body is plain text, or empty. -/
def refusal (status : Nat) : Response := ⟨status, none⟩

def json (status : Nat) (body : Json) : Response := ⟨status, some body⟩

def failure (status : Nat) (message : String) : Response :=
  .json status (.record [("error", .text message)])

/-- The status of a failure: faulty input 400, missing 404, conflict 409, circular 422, and 500
for what only the store can be blamed for. -/
def statusOf : DeskError → Nat
  | .invalid _ _ | .unknownRole _ => 400
  | .notFound _ => 404
  | .conflict _ => 409
  | .circular _ => 422
  | .corrupt _ | .store _ => 500

def ofError (error : DeskError) : Response := .failure (statusOf error) error.message

/-- A body that is no JSON is refused with 400, one of the wrong shape with 422. -/
def ofFault : Json.Fault → Response
  | .malformed => .refusal 400
  | .mismatched => .refusal 422

end Response

end ServiceDesk.Web
