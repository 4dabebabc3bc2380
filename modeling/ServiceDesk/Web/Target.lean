import ServiceDesk.Web.Percent

/-!
The target of a request, split into the segments of its path and the pairs of its query string.
-/

namespace ServiceDesk.Web

/-- Split a text at every `mark`. There is one part more than there are marks. -/
def splitAll (mark : Char) : List Char → List (List Char)
  | [] => [[]]
  | c :: rest =>
    if c = mark then [] :: splitAll mark rest
    else
      match splitAll mark rest with
      | [] => [[c]]
      | part :: parts => (c :: part) :: parts

/-- Split a text at its first `mark`, which may be missing. -/
def splitFirst (mark : Char) (text : List Char) : List Char × Option (List Char) :=
  match text.dropWhile (· != mark) with
  | [] => (text, none)
  | _ :: rest => (text.takeWhile (· != mark), some rest)

def withoutHost (target : List Char) : List Char :=
  match target with
  | '/' :: _ => target
  | _ =>
    match splitFirst ':' target with
    | (_, some ('/' :: '/' :: rest)) => rest.dropWhile fun c => c != '/' && c != '?'
    | _ => target

structure Target where
  /-- The parts between the slashes, still encoded. None if the path does not begin with one. -/
  segments : Option (List String)
  query : String

namespace Target

/-- Read a target. A fragment behind the first hash does not matter. -/
def ofText (target : String) : Target :=
  let (path, query) := splitFirst '?' (withoutHost (splitFirst '#' target.toList).1)
  { segments :=
      match path with
      | '/' :: rest => some ((splitAll '/' rest).map String.ofList)
      | _ => none
    query := String.ofList (query.getD []) }

/-- The pairs of the query string. Empty parts are passed over, and a name without an equals sign
has the empty value. -/
def pairs (target : Target) : List (String × String) :=
  ((splitAll '&' target.query.toList).filter fun part => !part.isEmpty).map fun part =>
    let (name, value) := splitFirst '=' part
    (decodeFormPart (String.ofList name), decodeFormPart (String.ofList (value.getD [])))

end Target

end ServiceDesk.Web
