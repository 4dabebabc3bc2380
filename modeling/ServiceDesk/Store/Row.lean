import ServiceDesk.Category
import ServiceDesk.Organization
import ServiceDesk.Store.Fault
import ServiceDesk.Time.Rfc3339

/-!
Rows of the two tables. Identifiers and timestamps are stored as text: an identifier hyphenated in
lower case, a timestamp in universal time with six fraction digits, so that timestamps of the
years 0 to 9999 sort as text. A row is read in two steps, first the types of its columns, then the
texts in them. Every row is written with an id, but the table does not insist on it.
-/

namespace ServiceDesk

open Time

/-- The value of the activity column. Rows are written with the numbers one and zero. -/
inductive Activity where
  | number (value : Int)
  | text (value : String)
  deriving DecidableEq, Repr

namespace Activity

def ofBool (isActive : Bool) : Activity := .number (if isActive then 1 else 0)

/-- Every number but zero counts as active. A text is no activity. -/
def toBool? : Activity → Option Bool
  | .number value => some (value != 0)
  | .text _ => none

theorem toBool?_ofBool (isActive : Bool) : (ofBool isActive).toBool? = some isActive := by
  cases isActive <;> rfl

end Activity

structure OrganizationRow where
  id : Option String
  name : String
  domain : Option String
  parentId : Option String
  isActive : Activity
  createdAt : String
  updatedAt : String
  deriving DecidableEq, Repr

structure CategoryRow where
  id : Option String
  organizationId : String
  name : String
  description : String
  parentId : Option String
  isActive : Activity
  createdAt : String
  updatedAt : String
  deriving DecidableEq, Repr

def decodeUuid (text : String) : Except StoreFault Uuid :=
  match Uuid.ofText? text with
  | some id => .ok id
  | none => .error .uuid

def decodeId : Option String → Except StoreFault Uuid
  | none => .error .database
  | some text => decodeUuid text

def decodeParent : Option String → Except StoreFault (Option Uuid)
  | none => .ok none
  | some text => (decodeUuid text).map some

def encodeInstant (instant : Instant) : String := instant.text .micro

def decodeInstant (text : String) : Except StoreFault Instant :=
  match Instant.ofText? text with
  | some instant => .ok instant
  | none => .error .timestamp

def decodeActivity (activity : Activity) : Except StoreFault Bool :=
  match activity.toBool? with
  | some isActive => .ok isActive
  | none => .error .database

namespace OrganizationRow

def ofOrganization (organization : Organization) : OrganizationRow where
  id := some organization.id.text
  name := organization.name
  domain := organization.domain
  parentId := organization.parentId.map Uuid.text
  isActive := .ofBool organization.isActive
  createdAt := encodeInstant organization.createdAt
  updatedAt := encodeInstant organization.updatedAt

/-- Whether every column holds a value of its type. -/
def isReadable (row : OrganizationRow) : Bool := row.id.isSome && row.isActive.toBool?.isSome

def toOrganization (row : OrganizationRow) : Except StoreFault Organization := do
  let isActive ← decodeActivity row.isActive
  let id ← decodeId row.id
  let parentId ← decodeParent row.parentId
  let createdAt ← decodeInstant row.createdAt
  let updatedAt ← decodeInstant row.updatedAt
  .ok ⟨id, row.name, row.domain, parentId, isActive, createdAt, updatedAt⟩

/-- Decode rows, none of them unless all are readable. -/
def decodeAll (rows : List OrganizationRow) : Except StoreFault (List Organization) :=
  if rows.all isReadable then rows.mapM toOrganization else .error .database

end OrganizationRow

namespace CategoryRow

def ofCategory (category : Category) : CategoryRow where
  id := some category.id.text
  organizationId := category.organizationId.text
  name := category.name
  description := category.description
  parentId := category.parentId.map Uuid.text
  isActive := .ofBool category.isActive
  createdAt := encodeInstant category.createdAt
  updatedAt := encodeInstant category.updatedAt

def isReadable (row : CategoryRow) : Bool := row.id.isSome && row.isActive.toBool?.isSome

def toCategory (row : CategoryRow) : Except StoreFault Category := do
  let isActive ← decodeActivity row.isActive
  let id ← decodeId row.id
  let organizationId ← decodeUuid row.organizationId
  let parentId ← decodeParent row.parentId
  let createdAt ← decodeInstant row.createdAt
  let updatedAt ← decodeInstant row.updatedAt
  .ok ⟨id, organizationId, row.name, row.description, parentId, isActive, createdAt, updatedAt⟩

def decodeAll (rows : List CategoryRow) : Except StoreFault (List Category) :=
  if rows.all isReadable then rows.mapM toCategory else .error .database

end CategoryRow

end ServiceDesk
