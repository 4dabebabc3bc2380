import ServiceDesk.Rules
import ServiceDesk.Time.Instant

/-!
Categories, by which the tickets of one organization are sorted. A category may lie below another
category of the same organization.
-/

namespace ServiceDesk

open Time

structure Category where
  id : Uuid
  organizationId : Uuid
  name : String
  description : String
  parentId : Option Uuid
  isActive : Bool
  createdAt : Instant
  updatedAt : Instant
  deriving DecidableEq, Repr

namespace Category

/-- An active category from user input. The name is judged first, then the description, then the
organization, then that the category is not its own parent. -/
def ofInput (id organizationId : Uuid) (name description : String) (parentId : Option Uuid)
    (now : Instant) : Except DeskError Category := do
  let name ← Rules.name name
  let description ← Rules.description description
  let organizationId ← Rules.tenant organizationId
  if parentId = some id then .error (.circular id)
  else .ok ⟨id, organizationId, name, description, parentId, true, now, now⟩

def isRoot (category : Category) : Bool := category.parentId.isNone

def belongsTo (category : Category) (organizationId : Uuid) : Bool :=
  category.organizationId == organizationId

/-- Note a change. A clock that runs backwards does not take the time of change back. -/
def touch (category : Category) (now : Instant) : Category :=
  { category with updatedAt := category.updatedAt.latest now }

def rename (category : Category) (name : String) (now : Instant) :
    Except DeskError Category := do
  let name ← Rules.name name
  .ok ({ category with name }.touch now)

def describe (category : Category) (description : String) (now : Instant) :
    Except DeskError Category := do
  let description ← Rules.description description
  .ok ({ category with description }.touch now)

/-- Replace the parent. Only the category itself is refused here. -/
def changeParent (category : Category) (parentId : Option Uuid) (now : Instant) :
    Except DeskError Category :=
  if parentId = some category.id then .error (.circular category.id)
  else .ok ({ category with parentId }.touch now)

def moveToRoot (category : Category) (now : Instant) : Category :=
  { category with parentId := none }.touch now

def setActive (category : Category) (isActive : Bool) (now : Instant) : Category :=
  { category with isActive }.touch now

end Category

end ServiceDesk
