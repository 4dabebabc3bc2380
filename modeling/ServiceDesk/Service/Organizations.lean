import ServiceDesk.Hierarchy.Lineage
import ServiceDesk.Hierarchy.Path
import ServiceDesk.Hierarchy.Tree
import ServiceDesk.Service.Action

/-!
The operations on organizations. A change of the parent links is checked against all links, and
the lock on the layout is held from the check until the row is saved.
-/

namespace ServiceDesk

instance : Nested Organization where
  id := Organization.id
  parentId := Organization.parentId
  name := Organization.name

namespace Service

open Hierarchy Operation

/-- What an operation takes from its surroundings: the time, and an id that may be given to a new
entity. -/
structure Stamp where
  now : Time.Instant
  id : Uuid

structure NewOrganization where
  name : String
  /-- Blank for no domain. -/
  domain : String
  parentId : Option Uuid

/-- Changes of an organization. An absent field stays as it is, and a blank domain is removed. -/
structure OrganizationChanges where
  name : Option String
  domain : Option String
  isActive : Option Bool

def applying {α β : Type} (change : Option β) (apply : α → β → Except DeskError α) (entity : α) :
    Except DeskError α :=
  match change with
  | none => .ok entity
  | some value => apply entity value

/-- A new parent must keep the links free of circles, and then the tree within its depth. -/
def checkMove (lineage : Lineage) (child parent : Uuid) : Except DeskError Unit := do
  lineage.checkAcyclic child (some parent)
  lineage.checkDepth child (some parent)

def getOrganization (id : Uuid) : Operation Organization := do
  match ← ask (.getOrganization id) with
  | some organization => pure organization
  | none => fail (.notFound id)

def createOrganization (stamp : Stamp) (input : NewOrganization) : Operation Organization := do
  let organization ←
    judge (Organization.ofInput stamp.id input.name input.domain input.parentId stamp.now)
  holding .organizations do
    match input.parentId with
    | none => pure ()
    | some parentId =>
      let _ ← getOrganization parentId
      let all ← ask .allOrganizations
      judge ((Lineage.ofItems all).checkDepth organization.id (some parentId))
    ask (.saveOrganization organization)
    pure organization

def listOrganizations (criteria : Criteria) : Operation (List Organization) := do
  let query ← judge (criteria.shape OrganizationSort)
  ask (.listOrganizations query)

/-- The changed organization: name first, then domain, then activity. -/
def changeOrganization (changes : OrganizationChanges) (now : Time.Instant)
    (organization : Organization) : Except DeskError Organization := do
  let organization ← applying changes.name (fun o name => o.rename name now) organization
  let organization ←
    applying changes.domain (fun o domain => o.changeDomain domain now) organization
  applying changes.isActive (fun o isActive => .ok (o.setActive isActive now)) organization

def updateOrganization (stamp : Stamp) (id : Uuid) (changes : OrganizationChanges) :
    Operation Organization := do
  let organization ← getOrganization id
  let organization ← judge (changeOrganization changes stamp.now organization)
  ask (.saveOrganization organization)
  pure organization

def moveOrganization (stamp : Stamp) (id : Uuid) (parentId : Option Uuid) :
    Operation Organization :=
  holding .organizations do
    let organization ← getOrganization id
    let moved ← match parentId with
      | none => pure (organization.moveToRoot stamp.now)
      | some parent => do
        let moved ← judge (organization.changeParent (some parent) stamp.now)
        let all ← ask .allOrganizations
        judge (checkMove (Lineage.ofItems all) id parent)
        pure moved
    ask (.saveOrganization moved)
    pure moved

/-- Delete an organization below which there is nothing and which owns no category. -/
def deleteOrganization (id : Uuid) : Operation Unit := do
  let _ ← getOrganization id
  let children ← ask (.countChildOrganizations id)
  if 0 < children then fail (.conflict (.childOrganizations id children))
  else
    let categories ← ask (.countOrganizationCategories id)
    if 0 < categories then fail (.conflict (.ownedCategories id categories))
    else
      let deleted ← ask (.deleteOrganization id)
      if deleted then pure () else fail (.notFound id)

def organizationTree (id : Uuid) : Operation (Tree Organization) := do
  let all ← ask .allOrganizations
  judge (Tree.ofItems all id)

def organizationForest : Operation (List (Tree Organization)) := do
  let all ← ask .allOrganizations
  judge (Tree.forestOfItems all)

def organizationPath (id : Uuid) : Operation String := do
  let all ← ask .allOrganizations
  judge (pathWithin all id)

/-- Whether a user may join an organization by mail address alone. An inactive one takes nobody. -/
def canJoinByEmail (id : Uuid) (email : String) : Operation Bool := do
  let organization ← getOrganization id
  pure (organization.isActive && organization.matchesEmail email)

end Service

end ServiceDesk
