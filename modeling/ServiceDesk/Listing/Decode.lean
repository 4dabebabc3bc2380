import ServiceDesk.Json.Basic
import ServiceDesk.Listing.Query
import ServiceDesk.Text.Digits

/-!
Criteria as they arrive: as a JSON value, and as the pairs of a query string. Page numbers are
signed numbers of sixty-four bits in both.
-/

namespace ServiceDesk

open Text

namespace Criteria

def keys : List String :=
  ["organization_id", "parent_id", "is_active", "name", "root_only", "limit", "offset", "sort_by",
   "sort_order"]

def uuidOfJson? (json : Json) : Option Uuid := json.toText?.bind Uuid.ofText?

def int64OfJson? (json : Json) : Option Int := json.toInt?.filter isInt64

/-- Read a record. Unknown fields do not matter; a field that is missing or null is absent, except
that the flag for roots must not be null. -/
def ofRecord? (json : Json) : Option Criteria := do
  let organizationId ← (json.field "organization_id").nullable? uuidOfJson?
  let parentId ← (json.field "parent_id").nullable? uuidOfJson?
  let isActive ← (json.field "is_active").nullable? Json.toBool?
  let name ← (json.field "name").nullable? Json.toText?
  let rootOnly ← ((json.field? "root_only").getD (.bool false)).toBool?
  let limit ← (json.field "limit").nullable? int64OfJson?
  let offset ← (json.field "offset").nullable? int64OfJson?
  let sortBy ← (json.field "sort_by").nullable? Json.toText?
  let sortOrder ← (json.field "sort_order").nullable? Json.toText?
  some { organizationId, parentId, isActive, name, rootOnly, limit, offset, sortBy, sortOrder }

/-- Read a record, or a list of all fields in their order. -/
def ofJson? : Json → Option Criteria
  | .record fields => ofRecord? (.record fields)
  | .list items =>
    if items.length = keys.length then ofRecord? (.record (keys.zip items)) else none
  | _ => none

/-- The value under a key that must not be repeated. The outer option tells of a repetition. -/
def single? (pairs : List (String × String)) (key : String) : Option (Option String) :=
  match pairs.filter (·.1 == key) with
  | [] => some none
  | [pair] => some (some pair.2)
  | _ => none

def decoded? {α : Type} (pairs : List (String × String)) (key : String)
    (decode : String → Option α) : Option (Option α) := do
  match ← single? pairs key with
  | none => some none
  | some raw => (decode raw).map some

def boolOfText? (raw : String) : Option Bool :=
  if raw = "true" then some true else if raw = "false" then some false else none

def int64OfText? (raw : String) : Option Int := int64OfDecimal? raw.toList

/-- Read the pairs of a query string. Unknown keys do not matter. -/
def ofPairs? (pairs : List (String × String)) : Option Criteria := do
  let organizationId ← decoded? pairs "organization_id" Uuid.ofText?
  let parentId ← decoded? pairs "parent_id" Uuid.ofText?
  let isActive ← decoded? pairs "is_active" boolOfText?
  let name ← decoded? pairs "name" some
  let rootOnly ← decoded? pairs "root_only" boolOfText?
  let limit ← decoded? pairs "limit" int64OfText?
  let offset ← decoded? pairs "offset" int64OfText?
  let sortBy ← decoded? pairs "sort_by" some
  let sortOrder ← decoded? pairs "sort_order" some
  let rootOnly := rootOnly.getD false
  some { organizationId, parentId, isActive, name, rootOnly, limit, offset, sortBy, sortOrder }

end Criteria

end ServiceDesk
