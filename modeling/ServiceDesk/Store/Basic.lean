import ServiceDesk.Store.Row

/-!
The store: a table of organizations and a table of categories, each a list of rows in the order of
their insertion. A save inserts a row or updates the one with its id in its place; the time of
creation and the organization of a category stay what they were at first. A write that would break
a constraint changes nothing.

The tables have these constraints of an SQL schema, and `Violation` has one constructor for each:
* `CHECK (parent_id IS NULL OR parent_id != id)` in both tables;
* `name` and `domain` of organizations are `UNIQUE`;
* `UNIQUE (organization_id, COALESCE(parent_id, ''), name)` for categories;
* `organization_id` and the two columns `parent_id` are foreign keys to the ids of their tables.

A save is one `INSERT ... ON CONFLICT (id) DO UPDATE SET`, which sets neither `id` nor `created_at`
nor the `organization_id` of a category; a deletion is `DELETE ... WHERE id = ?`, and it tells
whether a row was deleted; the counts are `SELECT COUNT(*)` over one reference column.

No statement is run here. What is trusted is that the engine does to its tables what it documents,
and that the definitions below say the same of the lists: `NULL` is equal to nothing, so rows
without a domain never clash; a new row comes behind all others and an updated one keeps its place;
a check fails before a unique column does, of the two unique columns the domain is looked at first,
and foreign keys are reckoned up at the end of the statement; a statement that fails changes
nothing.
-/

namespace ServiceDesk

structure Store where
  organizations : List OrganizationRow
  categories : List CategoryRow
  deriving DecidableEq, Repr

namespace Store

def empty : Store := ⟨[], []⟩

instance : EmptyCollection Store := ⟨empty⟩

/-- Whether a reference leads to no row with these ids. -/
def dangles (ids : List (Option String)) (reference : Option String) : Bool :=
  reference.isSome && !ids.contains reference

/-! ### Organizations -/

def findOrganization? (store : Store) (id : Uuid) : Option OrganizationRow :=
  store.organizations.find? (·.id == some id.text)

def getOrganization (store : Store) (id : Uuid) : Except StoreFault (Option Organization) :=
  match store.findOrganization? id with
  | none => .ok none
  | some row => row.toOrganization.map some

def mergeOrganization (store : Store) (organization : Organization) : OrganizationRow :=
  let row := OrganizationRow.ofOrganization organization
  match store.findOrganization? organization.id with
  | none => row
  | some stored => { row with createdAt := stored.createdAt }

/-- The number of other rows that refer to an organization. -/
def organizationReferences (store : Store) (id : Uuid) : Nat :=
  store.organizations.countP (fun row => row.id != some id.text && row.parentId == some id.text) +
    store.categories.countP (·.organizationId == id.text)

/-- The number of references that a save mends: those that wait for a row which is new. -/
def mendedByOrganization (store : Store) (id : Uuid) : Nat :=
  if (store.findOrganization? id).isSome then 0 else store.organizationReferences id

/-- The first constraint that a row would break beside the other rows of its table. References are
reckoned up: the save may break as many as it mends. -/
def organizationViolation? (others : List OrganizationRow) (mended : Nat) (row : OrganizationRow) :
    Option Violation :=
  if row.parentId.isSome ∧ row.parentId = row.id then some .ownParent
  else if row.domain.isSome ∧ others.any (·.domain == row.domain) then some .domainTaken
  else if others.any (·.name == row.name) then some .nameTaken
  else if mended < (dangles (others.map (·.id)) row.parentId).toNat then some .brokenReference
  else none

/-- Replace the row of the same id, or insert the row behind all others. -/
def putOrganization (rows : List OrganizationRow) (row : OrganizationRow) :
    List OrganizationRow :=
  if rows.any (·.id == row.id) then
    rows.map fun stored => if stored.id = row.id then row else stored
  else rows ++ [row]

def saveOrganization (store : Store) (organization : Organization) : Except Violation Store :=
  let row := store.mergeOrganization organization
  match organizationViolation? (store.organizations.filter (·.id != row.id))
      (store.mendedByOrganization organization.id) row with
  | some violation => .error violation
  | none => .ok { store with organizations := putOrganization store.organizations row }

def deleteOrganization (store : Store) (id : Uuid) : Except Violation (Bool × Store) :=
  if (store.findOrganization? id).isNone then .ok (false, store)
  else if 0 < store.organizationReferences id then .error .brokenReference
  else .ok (true, { store with
    organizations := store.organizations.filter (·.id != some id.text) })

/-! ### Categories -/

def findCategory? (store : Store) (id : Uuid) : Option CategoryRow :=
  store.categories.find? (·.id == some id.text)

def getCategory (store : Store) (id : Uuid) : Except StoreFault (Option Category) :=
  match store.findCategory? id with
  | none => .ok none
  | some row => row.toCategory.map some

def mergeCategory (store : Store) (category : Category) : CategoryRow :=
  let row := CategoryRow.ofCategory category
  match store.findCategory? category.id with
  | none => row
  | some stored =>
    { row with organizationId := stored.organizationId, createdAt := stored.createdAt }

/-- Whether two rows claim the same name under the same parent; root categories of an organization
count as siblings. -/
def clashes (a b : CategoryRow) : Bool :=
  a.organizationId == b.organizationId && a.parentId.getD "" == b.parentId.getD "" &&
    a.name == b.name

def categoryReferences (store : Store) (id : Uuid) : Nat :=
  store.categories.countP fun row => row.id != some id.text && row.parentId == some id.text

def mendedByCategory (store : Store) (id : Uuid) : Nat :=
  if (store.findCategory? id).isSome then 0 else store.categoryReferences id

/-- The first constraint that a row would break beside the other rows of its table. The
organization of a row is only looked up when the row is new. References are reckoned up: the save
may break as many as it mends. -/
def categoryViolation? (organizations : List OrganizationRow) (others : List CategoryRow)
    (isNew : Bool) (mended : Nat) (row : CategoryRow) : Option Violation :=
  if row.parentId.isSome ∧ row.parentId = row.id then some .ownParent
  else if others.any (clashes row) then some .siblingNameTaken
  else
    let organizationDangles := isNew && dangles (organizations.map (·.id)) (some row.organizationId)
    let parentDangles := dangles (others.map (·.id)) row.parentId
    if mended < organizationDangles.toNat + parentDangles.toNat then some .brokenReference
    else none

def putCategory (rows : List CategoryRow) (row : CategoryRow) : List CategoryRow :=
  if rows.any (·.id == row.id) then
    rows.map fun stored => if stored.id = row.id then row else stored
  else rows ++ [row]

def saveCategory (store : Store) (category : Category) : Except Violation Store :=
  let row := store.mergeCategory category
  let isNew := (store.findCategory? category.id).isNone
  match categoryViolation? store.organizations (store.categories.filter (·.id != row.id)) isNew
      (store.mendedByCategory category.id) row with
  | some violation => .error violation
  | none => .ok { store with categories := putCategory store.categories row }

def deleteCategory (store : Store) (id : Uuid) : Except Violation (Bool × Store) :=
  if (store.findCategory? id).isNone then .ok (false, store)
  else if 0 < store.categoryReferences id then .error .brokenReference
  else .ok (true, { store with categories := store.categories.filter (·.id != some id.text) })

/-! ### Counting references -/

def countChildOrganizations (store : Store) (id : Uuid) : Nat :=
  store.organizations.countP (·.parentId == some id.text)

def countChildCategories (store : Store) (id : Uuid) : Nat :=
  store.categories.countP (·.parentId == some id.text)

def countOrganizationCategories (store : Store) (id : Uuid) : Nat :=
  store.categories.countP (·.organizationId == id.text)

end Store

end ServiceDesk
