import ServiceDesk.Hierarchy.Nested

/-!
Paths from the root to an entity. The ancestors are looked up one after another, nearest first,
and no id is looked up twice, so the walk ends even if the parent links run in a circle.
-/

namespace ServiceDesk

open Hierarchy

/-- A way to find an entity by its id. It finds something only for the ids of a finite list. -/
structure Lookup (ε α : Type) where
  find : Uuid → Except ε α
  support : List Uuid
  mem_support : ∀ {id : Uuid} {entity : α}, find id = .ok entity → id ∈ support

namespace Lookup

variable {ε α : Type}

/-- Look ids up in a flat list, where a later entity hides an earlier one of the same id. -/
def ofItems [Nested α] (missing : Uuid → ε) (items : List α) : Lookup ε α where
  find id :=
    match items.reverse.find? fun item => Nested.id item = id with
    | some item => .ok item
    | none => .error (missing id)
  support := items.map Nested.id
  mem_support := by
    intro id entity h
    split at h
    · rename_i item hfound
      have hid := List.find?_some hfound
      have hmem := List.mem_of_find?_eq_some hfound
      simp only [decide_eq_true_eq] at hid
      rw [← hid]
      exact List.mem_map_of_mem (List.mem_reverse.1 hmem)
    · cases h

/-- Fail for some ids whatever there is to be found. -/
def refusing (lookup : Lookup ε α) (refusal : Uuid → Option ε) : Lookup ε α where
  find id :=
    match refusal id with
    | some fault => .error fault
    | none => lookup.find id
  support := lookup.support
  mem_support := by
    intro id entity h
    split at h
    · cases h
    · exact lookup.mem_support h

end Lookup

inductive PathFault (ε : Type) where
  /-- The parent links lead back to this id. -/
  | looped (id : Uuid)
  /-- A look-up failed. -/
  | failed (fault : ε)
  deriving DecidableEq, Repr

/-- A walk up the ancestors: the ids that were looked up, in order, and the names from the root
down. -/
structure Walk (ε : Type) where
  asked : List Uuid
  names : Except (PathFault ε) (List String)

namespace Walk

variable {ε α : Type} [Nested α]

def delimiter : String := " / "

theorem unseen_lt {support seen : List Uuid} {id : Uuid} (hmem : id ∈ support) (hnew : id ∉ seen) :
    (support.filter fun other => other ∉ id :: seen).length <
      (support.filter fun other => other ∉ seen).length := by
  have hsplit : (support.filter fun other => other ∉ id :: seen) =
      (support.filter fun other => other ∉ seen).filter fun other => other ≠ id := by
    rw [List.filter_filter]
    congr 1
    funext other
    simp [List.mem_cons, not_or, decide_not]
  rw [hsplit, List.length_filter_lt_length_iff_exists]
  exact ⟨id, List.mem_filter.2 ⟨hmem, by simpa using hnew⟩, by simp⟩

/-- Go on to the parent `next` with the ids and names met so far. -/
def climb (lookup : Lookup ε α) (seen : List Uuid) (names : List String) :
    Option Uuid → Walk ε
  | none => ⟨[], .ok names⟩
  | some id =>
    if _hseen : id ∈ seen then ⟨[], .error (.looped id)⟩
    else
      match _hfound : lookup.find id with
      | .error fault => ⟨[id], .error (.failed fault)⟩
      | .ok entity =>
        let rest := climb lookup (id :: seen) (Nested.name entity :: names)
          (Nested.parentId entity)
        ⟨id :: rest.asked, rest.names⟩
  termination_by (lookup.support.filter fun other => other ∉ seen).length
  decreasing_by exact unseen_lt (lookup.mem_support _hfound) _hseen

section Climb

variable {lookup : Lookup ε α} {seen : List Uuid} {id : Uuid} (names : List String)

@[simp]
theorem climb_none : climb lookup seen names none = ⟨[], .ok names⟩ := by rw [climb]

theorem climb_seen (hseen : id ∈ seen) :
    climb lookup seen names (some id) = ⟨[], .error (.looped id)⟩ := by
  rw [climb, dif_pos hseen]

theorem climb_failed {fault : ε} (hnew : id ∉ seen) (hfault : lookup.find id = .error fault) :
    climb lookup seen names (some id) = ⟨[id], .error (.failed fault)⟩ := by
  rw [climb, dif_neg hnew]
  split
  · rename_i found
    cases hfault.symm.trans found
    rfl
  · rename_i found
    cases hfault.symm.trans found

theorem climb_found {entity : α} (hnew : id ∉ seen) (hfound : lookup.find id = .ok entity) :
    climb lookup seen names (some id) =
      ⟨id :: (climb lookup (id :: seen) (Nested.name entity :: names)
          (Nested.parentId entity)).asked,
        (climb lookup (id :: seen) (Nested.name entity :: names) (Nested.parentId entity)).names⟩ := by
  rw [climb, dif_neg hnew]
  split
  · rename_i found
    cases hfound.symm.trans found
  · rename_i found
    cases hfound.symm.trans found
    rfl

end Climb

def ofEntity (lookup : Lookup ε α) (entity : α) : Walk ε :=
  climb lookup [Nested.id entity] [Nested.name entity] (Nested.parentId entity)

def path (walk : Walk ε) : Except (PathFault ε) String :=
  walk.names.map delimiter.intercalate

end Walk

namespace Hierarchy

variable {α : Type} [Nested α]

def pathWithin (items : List α) (id : Uuid) : Except DeskError String := do
  let lookup := Lookup.ofItems DeskError.notFound items
  let entity ← lookup.find id
  match (Walk.ofEntity lookup entity).path with
  | .ok path => .ok path
  | .error (.looped ancestor) => .error (.corrupt ancestor)
  | .error (.failed fault) => .error fault

end Hierarchy

end ServiceDesk
