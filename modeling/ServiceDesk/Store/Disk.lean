import ServiceDesk.Store.Call
import ServiceDesk.Text.Numeral

/-!
The store as it lies on disk, where others than the desk can reach it. A column of a row can be
overwritten without regard to the constraints, and a table can be dropped; from then on every call
that touches the table fails, until the store is opened anew and the table is there again, empty.
-/

namespace ServiceDesk

open Text

inductive Table where
  | organizations
  | categories
  deriving DecidableEq, Repr

inductive Column where
  | id
  | organizationId
  | name
  | description
  | domain
  | parentId
  | isActive
  | createdAt
  | updatedAt
  deriving DecidableEq, Repr

inductive RawValue where
  | null
  | number (value : Int)
  | text (value : String)
  deriving DecidableEq, Repr

namespace RawValue

/-- The value that a text column takes on: a number becomes its numeral. -/
def toText? : RawValue → Option String
  | .null => none
  | .number value => some (toString value)
  | .text value => some value

/-- The value that the activity column takes on: the numeral of an integer becomes the integer. -/
def toActivity : RawValue → Activity
  | .null => .text ""
  | .number value => .number value
  | .text value =>
    match integerOfNumeral? value.toList with
    | some n => .number n
    | none => .text value

end RawValue

structure Disk where
  store : Store
  dropped : List Table

namespace Disk

def fresh : Disk := ⟨∅, []⟩

/-- The tables that a call touches. A write to categories also looks at organizations. -/
def tablesOf : Store.Call → List Table
  | .getOrganization _ | .saveOrganization _ | .deleteOrganization _ | .listOrganizations _
  | .allOrganizations | .countChildOrganizations _ => [.organizations]
  | .saveCategory _ | .deleteCategory _ => [.categories, .organizations]
  | .getCategory _ | .listCategories _ | .categoriesFor _ | .countChildCategories _
  | .countOrganizationCategories _ => [.categories]

/-- Answer a call, unless a table that it touches is gone. -/
def answer (disk : Disk) (call : Store.Call) : call.Answer × Disk :=
  if (tablesOf call).any disk.dropped.contains then (.error (.failed .database), disk)
  else
    let (answer, store) := disk.store.answer call
    (answer, { disk with store })

def drop (disk : Disk) (table : Table) : Disk where
  store :=
    match table with
    | .organizations => { disk.store with organizations := [] }
    | .categories => { disk.store with categories := [] }
  dropped := table :: disk.dropped

/-- Open the store anew. Missing tables are made again. -/
def reopen (disk : Disk) : Disk := { disk with dropped := [] }

def setOrganizationColumn (column : Column) (value : RawValue) (row : OrganizationRow) :
    OrganizationRow :=
  match column with
  | .id => { row with id := value.toText? }
  | .name => { row with name := value.toText?.getD "" }
  | .domain => { row with domain := value.toText? }
  | .parentId => { row with parentId := value.toText? }
  | .isActive => { row with isActive := value.toActivity }
  | .createdAt => { row with createdAt := value.toText?.getD "" }
  | .updatedAt => { row with updatedAt := value.toText?.getD "" }
  | .organizationId | .description => row

def setCategoryColumn (column : Column) (value : RawValue) (row : CategoryRow) : CategoryRow :=
  match column with
  | .id => { row with id := value.toText? }
  | .organizationId => { row with organizationId := value.toText?.getD "" }
  | .name => { row with name := value.toText?.getD "" }
  | .description => { row with description := value.toText?.getD "" }
  | .parentId => { row with parentId := value.toText? }
  | .isActive => { row with isActive := value.toActivity }
  | .createdAt => { row with createdAt := value.toText?.getD "" }
  | .updatedAt => { row with updatedAt := value.toText?.getD "" }
  | .domain => row

/-- Overwrite a column of the rows whose id column is exactly `id`, and count them. -/
def overwrite (disk : Disk) (table : Table) (column : Column) (value : RawValue) (id : String) :
    Nat × Disk :=
  let store := disk.store
  match table with
  | .organizations =>
    (store.organizations.countP (·.id == some id), { disk with
      store := { store with
        organizations := store.organizations.map fun row =>
          if row.id = some id then setOrganizationColumn column value row else row } })
  | .categories =>
    (store.categories.countP (·.id == some id), { disk with
      store := { store with
        categories := store.categories.map fun row =>
          if row.id = some id then setCategoryColumn column value row else row } })

end Disk

end ServiceDesk
