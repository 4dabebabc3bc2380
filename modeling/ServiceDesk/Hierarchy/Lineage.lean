import ServiceDesk.Hierarchy.Nested

/-!
The parent links of a flat list on their own. They are followed upwards to find the ancestors of
an entity and downwards to measure the levels below it, and with both a new parent is judged
before it is given to an entity. The links may be damaged: they may run in circles or lead to ids
that are not there.
-/

namespace ServiceDesk

open Hierarchy

/-- The parent of every known id. -/
structure Lineage where
  links : List (Uuid × Option Uuid)
  nodup : (links.map (·.1)).Nodup

namespace Lineage

/-- Give `id` a parent: in its place if it is known, else at the end. -/
def relink (links : List (Uuid × Option Uuid)) (id : Uuid) (parentId : Option Uuid) :
    List (Uuid × Option Uuid) :=
  if id ∈ links.map (·.1) then
    links.map fun link => if link.1 = id then (id, parentId) else link
  else links ++ [(id, parentId)]

theorem nodup_relink {links : List (Uuid × Option Uuid)} (h : (links.map (·.1)).Nodup)
    (id : Uuid) (parentId : Option Uuid) : ((relink links id parentId).map (·.1)).Nodup := by
  unfold relink
  split
  · have hkeys : (links.map fun link => if link.1 = id then (id, parentId) else link).map (·.1) =
        links.map (·.1) := by
      rw [List.map_map]
      apply List.map_congr_left
      intro link _
      simp only [Function.comp]
      split
      · rename_i hid
        exact hid.symm
      · rfl
    rw [hkeys]
    exact h
  · rename_i hnew
    rw [List.map_append, List.nodup_append]
    refine ⟨h, by simp, ?_⟩
    intro a ha b hb hab
    simp only [List.map_cons, List.map_nil, List.mem_singleton] at hb
    exact hnew (hb ▸ hab ▸ ha)

instance : EmptyCollection Lineage := ⟨[], by simp⟩

def insert (lineage : Lineage) (id : Uuid) (parentId : Option Uuid) : Lineage :=
  ⟨relink lineage.links id parentId, nodup_relink lineage.nodup id parentId⟩

/-- The links of a flat list. Of several entities with one id the last one counts. -/
def ofItems {α : Type} [Nested α] (items : List α) : Lineage :=
  items.foldl (fun lineage item => lineage.insert (Nested.id item) (Nested.parentId item)) ∅

def size (lineage : Lineage) : Nat := lineage.links.length

/-- The parent of a known id, which is none for a root. -/
def parent? (lineage : Lineage) (id : Uuid) : Option (Option Uuid) := lineage.links.lookup id

def contains (lineage : Lineage) (id : Uuid) : Bool := (lineage.parent? id).isSome

/-- Follow the links from `next` for at most so many steps. A chain with more links than there are
ids runs in a circle, and `start` is blamed for it. -/
def climb (lineage : Lineage) (start : Uuid) : Nat → Option Uuid → Except DeskError (List Uuid)
  | _, none => .ok []
  | 0, some _ => .error (.corrupt start)
  | steps + 1, some id =>
    match lineage.parent? id with
    | none => .error (.notFound id)
    | some next => (lineage.climb start steps next).map (id :: ·)

/-- The ancestors of an id, nearest first. -/
def ancestors (lineage : Lineage) (id : Uuid) : Except DeskError (List Uuid) :=
  match lineage.parent? id with
  | none => .error (.notFound id)
  | some next => lineage.climb id lineage.size next

def leadsTo (level : List Uuid) (link : Uuid × Option Uuid) : Bool := link.2.any level.contains

def levelBelow (unmet : List (Uuid × Option Uuid)) (level : List Uuid) : List Uuid :=
  (unmet.filter (leadsTo level)).map (·.1)

/-- The links of the ids that are not directly below a level. -/
def beyondBelow (unmet : List (Uuid × Option Uuid)) (level : List Uuid) :
    List (Uuid × Option Uuid) :=
  unmet.filter fun link => !leadsTo level link

theorem beyondBelow_lt {unmet : List (Uuid × Option Uuid)} {level : List Uuid}
    (h : levelBelow unmet level ≠ []) : (beyondBelow unmet level).length < unmet.length := by
  obtain ⟨id, hid⟩ := List.exists_mem_of_ne_nil _ h
  obtain ⟨link, hlink, _⟩ := List.mem_map.1 hid
  obtain ⟨hmem, hleads⟩ := List.mem_filter.1 hlink
  rw [beyondBelow, List.length_filter_lt_length_iff_exists]
  exact ⟨link, hmem, by simpa using hleads⟩

/-- The number of levels from `level` downwards, given the links of all ids not met so far. -/
def levelsFrom (unmet : List (Uuid × Option Uuid)) (level : List Uuid) : Nat :=
  if _h : levelBelow unmet level = [] then 1
  else levelsFrom (beyondBelow unmet level) (levelBelow unmet level) + 1
  termination_by unmet.length
  decreasing_by exact beyondBelow_lt _h

/-- The number of levels of the tree below an id, its own included. -/
def height (lineage : Lineage) (id : Uuid) : Nat :=
  levelsFrom (lineage.links.filter fun link => link.1 ≠ id) [id]

/-- A new parent must be known and must not lie below the child. -/
def checkAcyclic (lineage : Lineage) (child : Uuid) : Option Uuid → Except DeskError Unit
  | none => .ok ()
  | some parent =>
    if parent = child then .error (.circular child)
    else if lineage.contains parent then do
      let above ← lineage.ancestors parent
      if child ∈ above then .error (.circular child) else .ok ()
    else .error (.notFound parent)

/-- Below a new parent the tree of the child must not reach past the greatest depth. -/
def checkDepth (lineage : Lineage) (child : Uuid) : Option Uuid → Except DeskError Unit
  | none => .ok ()
  | some parent => do
    let above ← lineage.ancestors parent
    if maxDepth < above.length + 1 + lineage.height child then
      .error (.invalid .parentId (.tooDeep maxDepth))
    else .ok ()

end Lineage

end ServiceDesk
