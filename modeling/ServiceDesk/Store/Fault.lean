/-!
What can go wrong in the store: a write can break one of the constraints of the two tables, and
any access can find a table missing or a stored text that does not decode.
-/

namespace ServiceDesk

/-- The constraints that a write can break. -/
inductive Violation where
  /-- A row names itself as its parent. -/
  | ownParent
  | domainTaken
  | nameTaken
  /-- Two categories under one parent, or two root categories, of one organization share a name. -/
  | siblingNameTaken
  /-- A row would refer to a missing row. -/
  | brokenReference
  deriving DecidableEq, Repr

def Violation.text : Violation → String
  | .ownParent => "CHECK constraint failed: parent_id IS NULL OR parent_id != id"
  | .domainTaken => "UNIQUE constraint failed: organizations.domain"
  | .nameTaken => "UNIQUE constraint failed: organizations.name"
  | .siblingNameTaken => "UNIQUE constraint failed: index 'categories_sibling_name_idx'"
  | .brokenReference => "FOREIGN KEY constraint failed"

/-- Failures that no caller can mend. -/
inductive StoreFault where
  /-- A table is missing, or a column holds a value of the wrong type. -/
  | database
  /-- A stored identifier does not decode. -/
  | uuid
  /-- A stored timestamp does not decode. -/
  | timestamp
  deriving DecidableEq, Repr

def StoreFault.text : StoreFault → String
  | .database => "database error"
  | .uuid => "uuid parse error"
  | .timestamp => "date/time parse error"

inductive StoreError where
  | violated (violation : Violation)
  | failed (fault : StoreFault)
  deriving DecidableEq, Repr

def StoreError.message : StoreError → String
  | .violated violation => "constraint violated: " ++ violation.text
  | .failed fault => fault.text

end ServiceDesk
