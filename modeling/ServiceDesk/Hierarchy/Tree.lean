import ServiceDesk.Hierarchy.Nested

/-!
Trees of entities. A tree or a forest is grown from a flat list, children in the order of the
list; a list whose parent links do not allow it is reported with the id at which this shows. A
tree is read in pre-order, and counted, with a stack of trees still to be visited.
-/

namespace ServiceDesk

open Hierarchy

inductive Tree (α : Type) where
  | node (entity : α) (children : List (Tree α))

namespace Tree

variable {α : Type}

def entity : Tree α → α
  | .node entity _ => entity

def children : Tree α → List (Tree α)
  | .node _ children => children

mutual

/-- The number of nodes, by recursion on the tree. -/
def weight : Tree α → Nat
  | .node _ children => 1 + weights children

def weights : List (Tree α) → Nat
  | [] => 0
  | tree :: trees => weight tree + weights trees

end

theorem weights_append (xs ys : List (Tree α)) : weights (xs ++ ys) = weights xs + weights ys := by
  induction xs with
  | nil => simp [weights]
  | cons tree trees ih =>
    simp only [List.cons_append, weights, ih]
    omega

theorem weights_reverse (trees : List (Tree α)) : weights trees.reverse = weights trees := by
  induction trees with
  | nil => rfl
  | cons tree trees ih =>
    simp only [List.reverse_cons, weights_append, weights, ih]
    omega

/-- The entities of the trees on a stack, each before those below it. -/
def visit : List (Tree α) → List α
  | [] => []
  | .node entity children :: stack => entity :: visit (children ++ stack)
  termination_by stack => weights stack
  decreasing_by
    simp only [weights, weight, weights_append]
    omega

def preorder (tree : Tree α) : List α := visit [tree]

/-- Put the children of a node on a stack one after another, so that the last is on top. -/
def pushAll (children stack : List (Tree α)) : List (Tree α) := children.reverse ++ stack

theorem weights_pushAll (children stack : List (Tree α)) :
    weights (pushAll children stack) = weights children + weights stack := by
  rw [pushAll, weights_append, weights_reverse]

/-- Add the nodes of the trees on a stack to a count. -/
def countFrom (count : Nat) : List (Tree α) → Nat
  | [] => count
  | .node _ children :: stack => countFrom (count + 1) (pushAll children stack)
  termination_by stack => weights stack
  decreasing_by
    simp only [weights, weight, weights_pushAll]
    omega

def size (tree : Tree α) : Nat := countFrom 0 [tree]

/-- Grow one tree after another with a common list of the ids already used. -/
def growAll (grow : Uuid → List Uuid → Except DeskError (Tree α × List Uuid)) :
    List Uuid → List Uuid → Except DeskError (List (Tree α) × List Uuid)
  | [], seen => .ok ([], seen)
  | id :: ids, seen => do
    let (tree, seen) ← grow id seen
    let (trees, seen) ← growAll grow ids seen
    .ok (tree :: trees, seen)

variable [Nested α]

/-- Grow the tree below `id` from a flat list, within so many levels and without the ids already
used, and add its ids to them. -/
def grow (items : List α) : Nat → Uuid → List Uuid → Except DeskError (Tree α × List Uuid)
  | 0, id, _ => .error (.corrupt id)
  | levels + 1, id, seen =>
    if id ∈ seen then .error (.corrupt id)
    else
      match items.find? fun item => Nested.id item = id with
      | none => .error (.notFound id)
      | some entity => do
        let (children, seen) ← growAll (grow items levels) (childIds items id) (id :: seen)
        .ok (.node entity children, seen)

def ofItems (items : List α) (root : Uuid) : Except DeskError (Tree α) :=
  match firstRepeat? [] (items.map Nested.id) with
  | some id => .error (.corrupt id)
  | none =>
    if root ∈ items.map Nested.id then (grow items maxDepth root []).map (·.1)
    else .error (.notFound root)

/-- Every tree of a flat list, one for each entity without a parent. All entities must be used. -/
def forestOfItems (items : List α) : Except DeskError (List (Tree α)) :=
  match firstRepeat? [] (items.map Nested.id) with
  | some id => .error (.corrupt id)
  | none => do
    let (trees, seen) ← growAll (grow items maxDepth) (rootIds items) []
    match items.find? fun item => Nested.id item ∉ seen with
    | some stray => .error (.corrupt (Nested.id stray))
    | none => .ok trees

end Tree

end ServiceDesk
