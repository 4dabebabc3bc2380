import ServiceDesk.Service.Organizations

/-!
The operations on categories. A category may only lie below a category of its own organization;
otherwise a change of the parent links is checked and locked as it is for organizations.
-/

namespace ServiceDesk

instance : Nested Category where
  id := Category.id
  parentId := Category.parentId
  name := Category.name

namespace Service

open Hierarchy Operation

structure NewCategory where
  name : String
  description : String
  parentId : Option Uuid

/-- Changes of a category. An absent field stays as it is. -/
structure CategoryChanges where
  name : Option String
  description : Option String
  isActive : Option Bool

/-- A parent must belong to the organization of its child. -/
def checkTenant (category parent : Category) : Except DeskError Unit :=
  if parent.belongsTo category.organizationId then .ok ()
  else .error (.invalid .parentId (.foreignParent parent.id))

def getCategory (id : Uuid) : Operation Category := do
  match ← ask (.getCategory id) with
  | some category => pure category
  | none => fail (.notFound id)

def createCategory (stamp : Stamp) (organizationId : Uuid) (input : NewCategory) :
    Operation Category := do
  let category ← judge (Category.ofInput stamp.id organizationId input.name input.description
    input.parentId stamp.now)
  let _ ← getOrganization organizationId
  holding .categories do
    match input.parentId with
    | none => pure ()
    | some parentId =>
      let parent ← getCategory parentId
      judge (checkTenant category parent)
      let all ← ask (.categoriesFor organizationId)
      judge ((Lineage.ofItems all).checkDepth category.id (some parentId))
    ask (.saveCategory category)
    pure category

/-- The categories of one organization, whatever organization the criteria name. -/
def listCategories (organizationId : Uuid) (criteria : Criteria) : Operation (List Category) := do
  let query ←
    judge ({ criteria with organizationId := some organizationId }.shape CategorySort)
  ask (.listCategories query)

/-- The changed category: name first, then description, then activity. -/
def changeCategory (changes : CategoryChanges) (now : Time.Instant) (category : Category) :
    Except DeskError Category := do
  let category ← applying changes.name (fun c name => c.rename name now) category
  let category ←
    applying changes.description (fun c description => c.describe description now) category
  applying changes.isActive (fun c isActive => .ok (c.setActive isActive now)) category

def updateCategory (stamp : Stamp) (id : Uuid) (changes : CategoryChanges) :
    Operation Category := do
  let category ← getCategory id
  let category ← judge (changeCategory changes stamp.now category)
  ask (.saveCategory category)
  pure category

def moveCategory (stamp : Stamp) (id : Uuid) (parentId : Option Uuid) : Operation Category :=
  holding .categories do
    let category ← getCategory id
    let moved ← match parentId with
      | none => pure (category.moveToRoot stamp.now)
      | some parentId => do
        let moved ← judge (category.changeParent (some parentId) stamp.now)
        let parent ← getCategory parentId
        judge (checkTenant moved parent)
        let all ← ask (.categoriesFor category.organizationId)
        judge (checkMove (Lineage.ofItems all) id parentId)
        pure moved
    ask (.saveCategory moved)
    pure moved

/-- Delete a category below which there is nothing. -/
def deleteCategory (id : Uuid) : Operation Unit := do
  let _ ← getCategory id
  let children ← ask (.countChildCategories id)
  if 0 < children then fail (.conflict (.childCategories id children))
  else
    let deleted ← ask (.deleteCategory id)
    if deleted then pure () else fail (.notFound id)

/-- The tree below a category, drawn from its organization. -/
def categoryTree (id : Uuid) : Operation (Tree Category) := do
  let root ← getCategory id
  let all ← ask (.categoriesFor root.organizationId)
  judge (Tree.ofItems all id)

def categoryForest (organizationId : Uuid) : Operation (List (Tree Category)) := do
  let _ ← getOrganization organizationId
  let all ← ask (.categoriesFor organizationId)
  judge (Tree.forestOfItems all)

def categoryPath (id : Uuid) : Operation String := do
  let category ← getCategory id
  let all ← ask (.categoriesFor category.organizationId)
  judge (pathWithin all id)

end Service

end ServiceDesk
