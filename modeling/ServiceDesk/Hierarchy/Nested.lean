import ServiceDesk.Error

/-!
Entities that may lie below another one of their kind. They are kept flat, each with the id of its
parent; trees, paths and ancestors are worked out from the flat list.
-/

namespace ServiceDesk

class Nested (α : Type) where
  id : α → Uuid
  parentId : α → Option Uuid
  name : α → String

namespace Hierarchy

/-- The greatest number of levels of a tree, its root being the first. -/
def maxDepth : Nat := 64

/-- The ids of the entities directly below `id`, in the order of the list. -/
def childIds {α : Type} [Nested α] (items : List α) (id : Uuid) : List Uuid :=
  (items.filter fun item => Nested.parentId item = some id).map Nested.id

def rootIds {α : Type} [Nested α] (items : List α) : List Uuid :=
  (items.filter fun item => Nested.parentId item = none).map Nested.id

/-- The first id that repeats an earlier one or one of `seen`. -/
def firstRepeat? (seen : List Uuid) : List Uuid → Option Uuid
  | [] => none
  | id :: ids => if id ∈ seen then some id else firstRepeat? (id :: seen) ids

end Hierarchy

end ServiceDesk
