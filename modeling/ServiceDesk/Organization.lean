import ServiceDesk.Rules
import ServiceDesk.Text.Ascii
import ServiceDesk.Time.Instant

/-!
Organizations, the tenants of the desk. An organization may lie below another one and may have a
mail domain whose users can join it.
-/

namespace ServiceDesk

open Text Time

structure Organization where
  id : Uuid
  name : String
  /-- In lower case; none if nobody can join by mail address. -/
  domain : Option String
  parentId : Option Uuid
  isActive : Bool
  createdAt : Instant
  updatedAt : Instant
  deriving DecidableEq, Repr

namespace Organization

/-- An active organization from user input. The name is judged first, then the domain, then that
the organization is not its own parent. -/
def ofInput (id : Uuid) (name domain : String) (parentId : Option Uuid) (now : Instant) :
    Except DeskError Organization := do
  let name ← Rules.name name
  let domain ← Rules.domain domain
  if parentId = some id then .error (.circular id)
  else .ok ⟨id, name, domain, parentId, true, now, now⟩

def isRoot (organization : Organization) : Bool := organization.parentId.isNone

/-- Note a change. A clock that runs backwards does not take the time of change back. -/
def touch (organization : Organization) (now : Instant) : Organization :=
  { organization with updatedAt := organization.updatedAt.latest now }

def rename (organization : Organization) (name : String) (now : Instant) :
    Except DeskError Organization := do
  let name ← Rules.name name
  .ok ({ organization with name }.touch now)

/-- Replace the domain; a blank text removes it. -/
def changeDomain (organization : Organization) (domain : String) (now : Instant) :
    Except DeskError Organization := do
  let domain ← Rules.domain domain
  .ok ({ organization with domain }.touch now)

/-- Replace the parent. Only the organization itself is refused here. -/
def changeParent (organization : Organization) (parentId : Option Uuid) (now : Instant) :
    Except DeskError Organization :=
  if parentId = some organization.id then .error (.circular organization.id)
  else .ok ({ organization with parentId }.touch now)

def moveToRoot (organization : Organization) (now : Instant) : Organization :=
  { organization with parentId := none }.touch now

def setActive (organization : Organization) (isActive : Bool) (now : Instant) : Organization :=
  { organization with isActive }.touch now

/-- Whether the address has exactly one at sign and the domain of the organization behind it,
whatever the case of the letters A to Z. -/
def matchesEmail (organization : Organization) (email : String) : Bool :=
  match organization.domain with
  | none => false
  | some domain =>
    let host := (email.toList.dropWhile (· != '@')).drop 1
    email.toList.contains '@' && !host.contains '@' && foldCase host == foldCase domain.toList

end Organization

end ServiceDesk
