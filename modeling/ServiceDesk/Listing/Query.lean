import ServiceDesk.Error
import ServiceDesk.Text.Ascii
import ServiceDesk.Text.Blank

/-!
Listings. Criteria are what a caller asks for, with signed page numbers and free text for the sort
options. Shaping them gives a query, in which every option is filled in and checked.
-/

namespace ServiceDesk

open Text

inductive SortOrder where
  | asc
  | desc
  deriving DecidableEq, Repr

def SortOrder.text : SortOrder → String
  | .asc => "asc"
  | .desc => "desc"

inductive CategorySort where
  | name
  | createdAt
  | updatedAt
  deriving DecidableEq, Repr

inductive OrganizationSort where
  | name
  | domain
  | createdAt
  | updatedAt
  deriving DecidableEq, Repr

/-- A kind of column by which a listing may be sorted. -/
class SortKey (κ : Type) where
  /-- Every column under its public name. -/
  allowed : List (String × κ)
  /-- The column used when none is asked for. -/
  usual : κ
  text : κ → String

instance : SortKey CategorySort where
  allowed := [("name", .name), ("created_at", .createdAt), ("updated_at", .updatedAt)]
  usual := .name
  text
    | .name => "name"
    | .createdAt => "created_at"
    | .updatedAt => "updated_at"

instance : SortKey OrganizationSort where
  allowed := [("name", .name), ("domain", .domain), ("created_at", .createdAt),
    ("updated_at", .updatedAt)]
  usual := .name
  text
    | .name => "name"
    | .domain => "domain"
    | .createdAt => "created_at"
    | .updatedAt => "updated_at"

structure Criteria where
  organizationId : Option Uuid := none
  parentId : Option Uuid := none
  isActive : Option Bool := none
  name : Option String := none
  rootOnly : Bool := false
  limit : Option Int := none
  offset : Option Int := none
  sortBy : Option String := none
  sortOrder : Option String := none
  deriving DecidableEq, Repr

structure Query (κ : Type) where
  organizationId : Option Uuid := none
  parentId : Option Uuid := none
  isActive : Option Bool := none
  /-- A text that occurs in the name, whatever the case of its letters A to Z. -/
  nameContains : Option String := none
  rootOnly : Bool := false
  limit : Nat
  offset : Nat := 0
  sortBy : κ
  sortOrder : SortOrder := .asc
  deriving DecidableEq, Repr

namespace Query

def usualLimit : Nat := 20

def greatestLimit : Nat := 100

def usual (κ : Type) [SortKey κ] : Query κ where
  limit := usualLimit
  sortBy := SortKey.usual

end Query

namespace Criteria

/-- No limit and a limit of zero ask for the usual page; larger pages than the greatest are cut. -/
def limitOf : Option Int → Except DeskError Nat
  | none => .ok Query.usualLimit
  | some n =>
    if n = 0 then .ok Query.usualLimit
    else if n < 0 then .error (.invalid .limit .negative)
    else .ok (min n.toNat Query.greatestLimit)

def offsetOf : Option Int → Except DeskError Nat
  | none => .ok 0
  | some n => if n < 0 then .error (.invalid .offset .negative) else .ok n.toNat

def option (raw : Option String) : Option String :=
  (raw.map trim).filter fun text => text != ""

def sortOf (κ : Type) [SortKey κ] (raw : Option String) : Except DeskError κ :=
  match option raw with
  | none => .ok SortKey.usual
  | some text =>
    match (SortKey.allowed : List (String × κ)).find? fun entry => sameFolded entry.1 text with
    | some entry => .ok entry.2
    | none =>
      .error (.invalid .sortBy (.unknownColumn text ((SortKey.allowed : List (String × κ)).map (·.1))))

def orderOf (raw : Option String) : Except DeskError SortOrder :=
  match option raw with
  | none => .ok .asc
  | some text =>
    if sameFolded text "asc" then .ok .asc
    else if sameFolded text "desc" then .ok .desc
    else .error (.invalid .sortOrder (.unknownOrder text))

/-- Fill in and check every option: limit, offset, sort column, sort order, and last that a parent
is not combined with the wish for roots. -/
def shape (κ : Type) [SortKey κ] (criteria : Criteria) : Except DeskError (Query κ) := do
  let limit ← limitOf criteria.limit
  let offset ← offsetOf criteria.offset
  let sortBy ← sortOf κ criteria.sortBy
  let sortOrder ← orderOf criteria.sortOrder
  if criteria.rootOnly ∧ criteria.parentId.isSome then
    .error (.invalid .parentId .parentOfRoots)
  else
    .ok {
      organizationId := criteria.organizationId
      parentId := criteria.parentId
      isActive := criteria.isActive
      nameContains := option criteria.name
      rootOnly := criteria.rootOnly
      limit, offset, sortBy, sortOrder }

end Criteria

end ServiceDesk
