import ServiceDesk.Web.Target

/-!
The resources of the interface and the paths under which they are found. A path matches exactly;
an identifier in it is any segment that is not empty, and is decoded later.
-/

namespace ServiceDesk.Web

inductive Method where
  | get
  | head
  | post
  | put
  | patch
  | delete
  | other
  deriving DecidableEq, Repr

/-- Methods are told apart by case. -/
def Method.ofText : String → Method
  | "GET" => .get
  | "HEAD" => .head
  | "POST" => .post
  | "PUT" => .put
  | "PATCH" => .patch
  | "DELETE" => .delete
  | _ => .other

/-- The resources, with the segment that names an entity as it stands in the path. -/
inductive Resource where
  | organizations
  | organizationForest
  | organization (id : String)
  | organizationParent (id : String)
  | organizationTree (id : String)
  | organizationPath (id : String)
  | organizationJoin (id : String)
  | organizationCategories (id : String)
  | organizationCategoryForest (id : String)
  | category (id : String)
  | categoryParent (id : String)
  | categoryTree (id : String)
  | categoryPath (id : String)
  | roles
  deriving DecidableEq, Repr

namespace Resource

def ofOrganization? (id : String) : List String → Option Resource
  | [] => some (.organization id)
  | ["parent"] => some (.organizationParent id)
  | ["tree"] => some (.organizationTree id)
  | ["path"] => some (.organizationPath id)
  | ["join"] => some (.organizationJoin id)
  | ["categories"] => some (.organizationCategories id)
  | ["categories", "tree"] => some (.organizationCategoryForest id)
  | _ => none

def ofCategory? (id : String) : List String → Option Resource
  | [] => some (.category id)
  | ["parent"] => some (.categoryParent id)
  | ["tree"] => some (.categoryTree id)
  | ["path"] => some (.categoryPath id)
  | _ => none

def ofSegments? : List String → Option Resource
  | ["organizations"] => some .organizations
  | ["organizations", "tree"] => some .organizationForest
  | "organizations" :: id :: rest => if id = "" then none else ofOrganization? id rest
  | "categories" :: id :: rest => if id = "" then none else ofCategory? id rest
  | ["roles"] => some .roles
  | _ => none

end Resource

end ServiceDesk.Web
