import ServiceDesk.Listing.Query
import ServiceDesk.Store.Basic

/-!
Reading many rows. Complete reads are in the order of creation, and rows created at the same time
in the order of insertion. Listings pick the rows that pass every filter, sort them by one column
and then by id, and cut one page out of them.

A listing is the statement `SELECT ... WHERE ... ORDER BY column order, id LIMIT ? OFFSET ?`. Its
conditions are those of `organization_id = ?`, `parent_id = ?`, `parent_id IS NULL`, `is_active = ?`
and `instr(lower(name), lower(?)) > 0` that the query asks for, joined by `AND`. The complete reads
end in `ORDER BY created_at, rowid`, that of an organization after `WHERE organization_id = ?`.

What is trusted is the documented behaviour of the engine that runs these statements: texts are
ordered by their bytes in UTF-8, which is the order of the code points, and `NULL` comes before all
of them; `lower` changes the letters A to Z only; a new row gets a `rowid` above all others and an
update keeps it, so that the order of the rows is the order of a list; a number that is bound to a
statement has 64 bits with a sign.
-/

namespace ServiceDesk.Store

open Text

/-- Compare stored values by code point. An absent value comes before every text. -/
def compareStored : Option String → Option String → Ordering
  | none, none => .eq
  | none, some _ => .lt
  | some _, none => .gt
  | some a, some b => compare a b

/-- Whether a row may stand before another: by the sort column in the wanted order, then by id. -/
def mayPrecede (order : SortOrder) (a b : Option String × Option String) : Bool :=
  let columns := match order with
    | .asc => compareStored a.1 b.1
    | .desc => compareStored b.1 a.1
  match columns with
  | .lt => true
  | .gt => false
  | .eq => compareStored a.2 b.2 != .gt

/-- The greatest number of 63 bits, the greatest that a statement can be given; a greater offset or
limit is cut to it. -/
def greatestNumber : Nat := 0x7FFFFFFFFFFFFFFF

def page {α : Type} (offset limit : Nat) (rows : List α) : List α :=
  (rows.drop (min offset greatestNumber)).take (min limit greatestNumber)

def passes {α : Type} (filter : Option α) (test : α → Bool) : Bool :=
  match filter with
  | none => true
  | some wanted => test wanted

/-- The filters that organizations and categories have in common. -/
def matchesCommon {κ : Type} (query : Query κ) (name : String) (parentId : Option String)
    (isActive : Activity) : Bool :=
  passes query.parentId (fun id => parentId == some id.text) &&
    (!query.rootOnly || parentId.isNone) &&
    passes query.isActive (fun wanted => isActive == .ofBool wanted) &&
    passes query.nameContains (containsFolded name)

/-! ### Organizations -/

def organizationColumn (row : OrganizationRow) : OrganizationSort → Option String
  | .name => some row.name
  | .domain => row.domain
  | .createdAt => some row.createdAt
  | .updatedAt => some row.updatedAt

def matchesOrganization (query : Query OrganizationSort) (row : OrganizationRow) : Bool :=
  matchesCommon query row.name row.parentId row.isActive

/-- The rows that a query finds, all pages of them. -/
def foundOrganizations (store : Store) (query : Query OrganizationSort) : List OrganizationRow :=
  (store.organizations.filter (matchesOrganization query)).mergeSort fun a b =>
    mayPrecede query.sortOrder (organizationColumn a query.sortBy, a.id)
      (organizationColumn b query.sortBy, b.id)

def listOrganizations (store : Store) (query : Query OrganizationSort) :
    Except StoreFault (List Organization) :=
  OrganizationRow.decodeAll (page query.offset query.limit (store.foundOrganizations query))

/-- Every organization in the order of creation. -/
def allOrganizations (store : Store) : Except StoreFault (List Organization) :=
  OrganizationRow.decodeAll
    (store.organizations.mergeSort fun a b => decide (a.createdAt ≤ b.createdAt))

/-! ### Categories -/

def categoryColumn (row : CategoryRow) : CategorySort → Option String
  | .name => some row.name
  | .createdAt => some row.createdAt
  | .updatedAt => some row.updatedAt

def matchesCategory (query : Query CategorySort) (row : CategoryRow) : Bool :=
  passes query.organizationId (fun id => row.organizationId == id.text) &&
    matchesCommon query row.name row.parentId row.isActive

def foundCategories (store : Store) (query : Query CategorySort) : List CategoryRow :=
  (store.categories.filter (matchesCategory query)).mergeSort fun a b =>
    mayPrecede query.sortOrder (categoryColumn a query.sortBy, a.id)
      (categoryColumn b query.sortBy, b.id)

def listCategories (store : Store) (query : Query CategorySort) :
    Except StoreFault (List Category) :=
  CategoryRow.decodeAll (page query.offset query.limit (store.foundCategories query))

/-- Every category of one organization in the order of creation. -/
def categoriesFor (store : Store) (organizationId : Uuid) : Except StoreFault (List Category) :=
  CategoryRow.decodeAll
    ((store.categories.filter (·.organizationId == organizationId.text)).mergeSort fun a b =>
      decide (a.createdAt ≤ b.createdAt))

end ServiceDesk.Store
