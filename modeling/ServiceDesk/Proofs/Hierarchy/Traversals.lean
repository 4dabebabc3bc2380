import Mathlib.Algebra.GroupWithZero.Nat
import Mathlib.Logic.Function.Iterate
import ServiceDesk.Proofs.Hierarchy.Assembly

/-!
The traversals of a tree with a stack do what recursion on the tree does, on trees of every shape
and depth. A round takes the tree on top of the stack off and puts its children there instead, so
each round leaves one node less to be visited, in whatever order the children come. The stack is
empty after as many rounds as there are nodes and not before.
-/

namespace ServiceDesk.Tree

variable {α β : Type}

/-! ### By recursion -/

mutual

/-- The entity of a tree and after it those of its children from left to right, by recursion. -/
def outline : Tree α → List α
  | .node entity children => entity :: outlines children

def outlines : List (Tree α) → List α
  | [] => []
  | tree :: trees => outline tree ++ outlines trees

end

theorem outlines_append (xs ys : List (Tree α)) :
    outlines (xs ++ ys) = outlines xs ++ outlines ys := by
  induction xs with
  | nil => rfl
  | cons tree trees ih => rw [List.cons_append, outlines, outlines, ih, List.append_assoc]

/-- What is still to be visited is the outlines of the trees on the stack. -/
theorem visit_eq_outlines (stack : List (Tree α)) : visit stack = outlines stack := by
  fun_induction visit stack with
  | case1 => rfl
  | case2 entity children stack ih =>
      rw [ih, outlines_append, outlines, outline, List.cons_append]

theorem preorder_eq_outline (tree : Tree α) : tree.preorder = tree.outline := by
  rw [preorder, visit_eq_outlines, outlines, outlines, List.append_nil]

theorem size_eq_weight (tree : Tree α) : tree.size = tree.weight := by
  rw [size, countFrom_eq, weights, weights, Nat.zero_add, Nat.add_zero]

theorem weights_eq_sum (trees : List (Tree α)) : weights trees = (trees.map size).sum := by
  induction trees with
  | nil => rfl
  | cons tree trees ih => rw [weights, List.map_cons, List.sum_cons, ih, size_eq_weight]

/-- A tree has its root and the nodes of its children. -/
theorem size_eq_sum (tree : Tree α) : tree.size = 1 + (tree.children.map size).sum := by
  cases tree with
  | node entity children => rw [size_eq_weight, weight, weights_eq_sum, Tree.children]

/-! ### Round by round -/

/-- One round of a traversal: the tree on top of the stack is taken off, its entity is added to what
has been gathered, and its children are placed on the stack. -/
def round (gather : β → α → β) (place : List (Tree α) → List (Tree α) → List (Tree α)) :
    β × List (Tree α) → β × List (Tree α)
  | (gathered, []) => (gathered, [])
  | (gathered, .node entity children :: stack) =>
    (gather gathered entity, place children stack)

/-- A round that notes the entity and puts the children on the stack, the first of them on top. -/
def visitRound : List α × List (Tree α) → List α × List (Tree α) :=
  round (fun met entity => met ++ [entity]) (· ++ ·)

/-- A round that counts the node and puts the children on the stack, the last of them on top. -/
def countRound : Nat × List (Tree α) → Nat × List (Tree α) :=
  round (fun count _ => count + 1) pushAll

theorem eq_nil_of_weights {stack : List (Tree α)} (h : weights stack = 0) : stack = [] := by
  cases stack with
  | nil => rfl
  | cons tree stack =>
      cases tree with
      | node entity children =>
          rw [weights, weight] at h
          omega

section Rounds

variable {gather : β → α → β} {place : List (Tree α) → List (Tree α) → List (Tree α)}
  (hplace : ∀ children stack, weights (place children stack) = weights children + weights stack)

include hplace

/-- A round leaves one node less, if there is any. -/
theorem weights_round (state : β × List (Tree α)) :
    weights (round gather place state).2 = weights state.2 - 1 := by
  obtain ⟨gathered, stack⟩ := state
  cases stack with
  | nil => rfl
  | cons tree stack =>
      cases tree with
      | node entity children =>
          rw [round, hplace, weights, weight]
          omega

theorem weights_rounds (rounds : Nat) (state : β × List (Tree α)) :
    weights ((round gather place)^[rounds] state).2 = weights state.2 - rounds := by
  induction rounds generalizing state with
  | zero => rfl
  | succ rounds ih =>
      rw [Function.iterate_succ_apply, ih, weights_round hplace]
      omega

/-- The stack is empty as soon as there were as many rounds as nodes on it, and not before. -/
theorem rounds_empty_iff (rounds : Nat) (state : β × List (Tree α)) :
    ((round gather place)^[rounds] state).2 = [] ↔ weights state.2 ≤ rounds := by
  have hweights : weights ((round gather place)^[rounds] state).2 = weights state.2 - rounds :=
    weights_rounds hplace rounds state
  constructor
  · intro hempty
    rw [hempty, weights] at hweights
    omega
  · intro hrounds
    exact eq_nil_of_weights (by omega)

omit hplace in
/-- What is gathered in the end is told from the start by a function that no round changes. -/
theorem rounds_keep (total : β → List (Tree α) → β)
    (hround : ∀ gathered entity children stack, total gathered (.node entity children :: stack) =
      total (gather gathered entity) (place children stack))
    (rounds : Nat) (state : β × List (Tree α)) :
    let last := (round gather place)^[rounds] state
    total last.1 last.2 = total state.1 state.2 := by
  induction rounds generalizing state with
  | zero => rfl
  | succ rounds ih =>
      rw [Function.iterate_succ_apply]
      refine (ih _).trans ?_
      obtain ⟨gathered, stack⟩ := state
      cases stack with
      | nil => rfl
      | cons tree stack =>
          cases tree with
          | node entity children => exact (hround gathered entity children stack).symm

/-- The rounds come to an end with what is told from the start. -/
theorem rounds_eq (total : β → List (Tree α) → β)
    (hdone : ∀ gathered, total gathered [] = gathered)
    (hround : ∀ gathered entity children stack, total gathered (.node entity children :: stack) =
      total (gather gathered entity) (place children stack))
    (gathered : β) (stack : List (Tree α)) :
    (round gather place)^[weights stack] (gathered, stack) = (total gathered stack, []) := by
  have hempty : ((round gather place)^[weights stack] (gathered, stack)).2 = [] :=
    (rounds_empty_iff hplace (weights stack) (gathered, stack)).2 (Nat.le_refl _)
  have hkept := rounds_keep total hround (weights stack) (gathered, stack)
  dsimp only at hkept
  rw [hempty, hdone] at hkept
  exact Prod.ext hkept hempty

end Rounds

theorem visitRounds_empty_iff (rounds : Nat) (met : List α) (stack : List (Tree α)) :
    (visitRound^[rounds] (met, stack)).2 = [] ↔ weights stack ≤ rounds :=
  rounds_empty_iff weights_append rounds (met, stack)

theorem countRounds_empty_iff (rounds count : Nat) (stack : List (Tree α)) :
    (countRound^[rounds] (count, stack)).2 = [] ↔ weights stack ≤ rounds :=
  rounds_empty_iff weights_pushAll rounds (count, stack)

/-- The rounds note what is visited, behind what has been met before. -/
theorem visitRounds_eq (met : List α) (stack : List (Tree α)) :
    visitRound^[weights stack] (met, stack) = (met ++ visit stack, []) := by
  have hdone : ∀ met : List α, met ++ visit [] = met := by
    intro met
    rw [visit, List.append_nil]
  have hround : ∀ (met : List α) entity children stack,
      met ++ visit (.node entity children :: stack) =
        met ++ [entity] ++ visit (children ++ stack) := by
    intro met entity children stack
    rw [visit, List.append_assoc, List.singleton_append]
  exact rounds_eq weights_append (fun met stack => met ++ visit stack) hdone hround met stack

theorem countRounds_eq (count : Nat) (stack : List (Tree α)) :
    countRound^[weights stack] (count, stack) = (countFrom count stack, []) := by
  have hdone : ∀ count, countFrom count ([] : List (Tree α)) = count := by
    intro count
    rw [countFrom]
  have hround : ∀ count (entity : α) children stack,
      countFrom count (.node entity children :: stack) =
        countFrom (count + 1) (pushAll children stack) := by
    intro count entity children stack
    rw [countFrom]
  exact rounds_eq weights_pushAll countFrom hdone hround count stack

/-- The traversals of a tree with a stack are those by recursion: a node comes before all that is
below it, its children from left to right, and the nodes counted are the root and those of the
children. Both stacks are empty after as many rounds as there are nodes and not before, and then the
rounds have gathered the traversal. -/
theorem traversals_by_recursion (tree : Tree α) :
    tree.preorder = tree.outline ∧
    tree.preorder = tree.entity :: tree.children.flatMap preorder ∧
    tree.size = tree.preorder.length ∧
    tree.size = 1 + (tree.children.map size).sum ∧
    (∀ rounds, (visitRound^[rounds] ([], [tree])).2 = [] ↔ tree.size ≤ rounds) ∧
    visitRound^[tree.size] ([], [tree]) = (tree.preorder, []) ∧
    (∀ rounds, (countRound^[rounds] (0, [tree])).2 = [] ↔ tree.size ≤ rounds) ∧
    countRound^[tree.size] (0, [tree]) = (tree.size, []) := by
  have hweights : tree.size = weights [tree] := by
    rw [size_eq_weight, weights, weights, Nat.add_zero]
  refine ⟨preorder_eq_outline tree, preorder_eq_cons tree, size_eq_length tree, size_eq_sum tree,
    fun rounds => ?_, ?_, fun rounds => ?_, ?_⟩
  · rw [visitRounds_empty_iff, hweights]
  · rw [hweights, visitRounds_eq, List.nil_append, preorder]
  · rw [countRounds_empty_iff, hweights]
  · rw [size, ← countRounds_eq, ← hweights]
    rfl

end ServiceDesk.Tree
