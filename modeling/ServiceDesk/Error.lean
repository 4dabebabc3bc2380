import ServiceDesk.Store.Fault
import ServiceDesk.Text.Quoted
import ServiceDesk.Uuid

/-!
Why a request to the desk fails. Every cause is a value; its wording is given in one place.
-/

namespace ServiceDesk

open Text

inductive InputField where
  | name
  | description
  | domain
  | organizationId
  | parentId
  | limit
  | offset
  | sortBy
  | sortOrder
  deriving DecidableEq, Repr

def InputField.text : InputField → String
  | .name => "name"
  | .description => "description"
  | .domain => "domain"
  | .organizationId => "organization_id"
  | .parentId => "parent_id"
  | .limit => "limit"
  | .offset => "offset"
  | .sortBy => "sort_by"
  | .sortOrder => "sort_order"

inductive InputFault where
  | empty
  | tooShort (least : Nat)
  | tooLong (most : Nat)
  | noDot
  | badCharacter (c : Char)
  | missing
  | negative
  | unknownColumn (raw : String) (allowed : List String)
  | unknownOrder (raw : String)
  /-- A parent is given although only roots are asked for. -/
  | parentOfRoots
  /-- The parent category belongs to another organization. -/
  | foreignParent (parent : Uuid)
  | tooDeep (levels : Nat)
  deriving DecidableEq, Repr

def InputFault.text : InputFault → String
  | .empty => "must not be empty"
  | .tooShort least => "must be at least " ++ toString least ++ " characters"
  | .tooLong most => "must be at most " ++ toString most ++ " characters"
  | .noDot => "must contain a '.'"
  | .badCharacter c => "contains invalid character " ++ quotedChar c
  | .missing => "is required"
  | .negative => "must not be negative"
  | .unknownColumn raw allowed => quoted raw ++ " is not one of " ++ ", ".intercalate allowed
  | .unknownOrder raw => quoted raw ++ " is not asc or desc"
  | .parentOfRoots => "cannot be combined with root_only"
  | .foreignParent parent => "parent " ++ parent.text ++ " belongs to a different organization"
  | .tooDeep levels => "would nest deeper than " ++ toString levels ++ " levels"

inductive Conflict where
  | violated (violation : Violation)
  | childOrganizations (id : Uuid) (count : Nat)
  | ownedCategories (id : Uuid) (count : Nat)
  | childCategories (id : Uuid) (count : Nat)
  deriving DecidableEq, Repr

def Conflict.text : Conflict → String
  | .violated violation => violation.text
  | .childOrganizations id count =>
    "organization " ++ id.text ++ " still has child organizations (" ++ toString count ++ ")"
  | .ownedCategories id count =>
    "organization " ++ id.text ++ " still owns categories (" ++ toString count ++ ")"
  | .childCategories id count =>
    "category " ++ id.text ++ " still has child categories (" ++ toString count ++ ")"

inductive DeskError where
  | invalid (field : InputField) (fault : InputFault)
  /-- The entity would become its own ancestor. -/
  | circular (id : Uuid)
  | notFound (id : Uuid)
  /-- The parent links of the stored entities do not form a forest. -/
  | corrupt (id : Uuid)
  | conflict (cause : Conflict)
  | unknownRole (raw : String)
  | store (fault : StoreFault)
  deriving DecidableEq, Repr

namespace DeskError

def message : DeskError → String
  | .invalid field fault => "invalid " ++ field.text ++ ": " ++ fault.text
  | .circular id => "circular reference: " ++ id.text ++ " cannot become its own ancestor"
  | .notFound id => "not found: " ++ id.text
  | .corrupt id => "corrupt hierarchy: inconsistent parent links at " ++ id.text
  | .conflict cause => "conflict: " ++ cause.text
  | .unknownRole raw => "unknown role: " ++ quoted raw
  | .store fault => "store error: " ++ fault.text

/-- A broken constraint is a conflict with what is stored; all else is a failure of the store. -/
def ofStore : StoreError → DeskError
  | .violated violation => .conflict (.violated violation)
  | .failed fault => .store fault

end DeskError

theorem bind_eq_ok {ε α β : Type} {first : Except ε α} {next : α → Except ε β} {result : β} :
    first >>= next = .ok result ↔ ∃ value, first = .ok value ∧ next value = .ok result := by
  cases first with
  | error error => simp [bind, Except.bind]
  | ok value => simp [bind, Except.bind]

theorem exists_of_isOk {ε α : Type} {outcome : Except ε α} (h : outcome.isOk = true) :
    ∃ value, outcome = .ok value := by
  cases outcome with
  | error error => cases h
  | ok value => exact ⟨value, rfl⟩

end ServiceDesk
