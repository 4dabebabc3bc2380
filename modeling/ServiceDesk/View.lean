import ServiceDesk.Category
import ServiceDesk.Hierarchy.Tree
import ServiceDesk.Json.Basic
import ServiceDesk.Organization
import ServiceDesk.Role
import ServiceDesk.Time.Rfc3339

/-!
What callers get to see: the JSON forms of entities, trees and roles.
-/

namespace ServiceDesk.View

def uuid (id : Uuid) : Json := .text id.text

def parent : Option Uuid → Json := .ofOption uuid

/-- A time with as many fraction digits as it needs. -/
def instant (time : Time.Instant) : Json := .text (time.text .shortest)

def organizationFields (organization : Organization) : List (String × Json) :=
  [("id", uuid organization.id),
   ("name", .text organization.name),
   ("domain", .ofOption .text organization.domain),
   ("parent_id", parent organization.parentId),
   ("is_active", .bool organization.isActive),
   ("created_at", instant organization.createdAt),
   ("updated_at", instant organization.updatedAt)]

def organization (organization : Organization) : Json := .record (organizationFields organization)

def categoryFields (category : Category) : List (String × Json) :=
  [("id", uuid category.id),
   ("organization_id", uuid category.organizationId),
   ("name", .text category.name),
   ("description", .text category.description),
   ("parent_id", parent category.parentId),
   ("is_active", .bool category.isActive),
   ("created_at", instant category.createdAt),
   ("updated_at", instant category.updatedAt)]

def category (category : Category) : Json := .record (categoryFields category)

mutual

def tree {α : Type} (fields : α → List (String × Json)) : Tree α → Json
  | .node entity children => .record (fields entity ++ [("children", .list (trees fields children))])

def trees {α : Type} (fields : α → List (String × Json)) : List (Tree α) → List Json
  | [] => []
  | first :: rest => tree fields first :: trees fields rest

end

def role (role : Role) : Json :=
  .record [("role", .text role.text),
    ("capabilities", .list (role.capabilities.map fun capability => .text capability.text))]

end ServiceDesk.View
