import ServiceDesk.Proofs.Hierarchy.Limits

/-!
The checks of a new parent on links of any kind, with circles and dangling parents among them. The
check for circles is passed just if the parents above the new parent end at a root and leave out the
child. Then the child hangs on a root as well, no circle is closed that was not there before, and
the check of depth tells whether all that now lies below the child is within the greatest depth.
-/

namespace ServiceDesk.Hierarchy

open Lineage

/-- The parents above an id, nearest first and up to a root. -/
inductive Chain (links : Links) : Uuid → List Uuid → Prop
  | root {id} (hlink : (id, none) ∈ links) : Chain links id []
  | parent {id parent above} (hlink : (id, some parent) ∈ links)
      (habove : Chain links parent above) : Chain links id (parent :: above)

/-- The ids that are left behind on a way of one or more steps upwards to `top`. -/
inductive Way (links : Links) (top : Uuid) : Uuid → List Uuid → Prop
  | last {id} (hlink : (id, some top) ∈ links) : Way links top id [id]
  | step {id parent ids} (hlink : (id, some parent) ∈ links) (hway : Way links top parent ids) :
      Way links top id (id :: ids)

/-- A way upwards from an id to itself. -/
def Circle (links : Links) (id : Uuid) (ids : List Uuid) : Prop := Way links id id ids

variable {links : Links} {id top child : Uuid} {above ids : List Uuid}

/-! ### Chains -/

theorem Chain.level (h : Chain links id above) : Level links id (above.length + 1) := by
  induction h with
  | root hlink => exact .root hlink
  | parent hlink _ ih => exact .child hlink ih

theorem Chain.unique (hnodup : (keys links).Nodup) {other : List Uuid} (h : Chain links id above)
    (hother : Chain links id other) : above = other := by
  induction h generalizing other with
  | root hlink =>
      cases hother with
      | root _ => rfl
      | parent hlink' _ => cases link_unique hnodup hlink hlink'
  | parent hlink _ ih =>
      cases hother with
      | root hlink' => cases link_unique hnodup hlink hlink'
      | parent hlink' habove =>
          cases link_unique hnodup hlink hlink'
          rw [ih habove]

/-- A chain that leaves out an id does not feel what parent the id gets. -/
theorem Chain.relink (parent : Option Uuid) (h : Chain links id above) (hne : id ≠ child)
    (hout : child ∉ above) : Chain (relink links child parent) id above := by
  induction h with
  | root hlink => exact .root (mem_relink.2 (Or.inr ⟨hne, hlink⟩))
  | parent hlink _ ih =>
      have hup := ih (List.ne_of_not_mem_cons hout).symm (List.not_mem_of_not_mem_cons hout)
      exact .parent (mem_relink.2 (Or.inr ⟨hne, hlink⟩)) hup

/-! ### Circles -/

theorem Way.ancestor_of_mem (h : Way links top id ids) {passed : Uuid} (hmem : passed ∈ ids) :
    Ancestor links passed top := by
  have hstart : ∀ {id ids}, Way links top id ids → Ancestor links id top := by
    intro id ids hway
    induction hway with
    | last hlink => exact .parent hlink
    | step hlink _ ih => exact .above hlink ih
  induction h with
  | last hlink =>
      cases List.mem_singleton.1 hmem
      exact .parent hlink
  | step hlink hway ih =>
      rcases List.mem_cons.1 hmem with rfl | hmem
      · exact .above hlink (hstart hway)
      · exact ih hmem

/-- A way that leaves out an id was there before the id got its parent. -/
theorem Way.of_relink {parent : Option Uuid} (h : Way (relink links child parent) top id ids)
    (hout : child ∉ ids) : Way links top id ids := by
  have hold : ∀ {id next}, (id, next) ∈ Lineage.relink links child parent → id ≠ child →
      (id, next) ∈ links := by
    intro id next hlink hne
    rcases mem_relink.1 hlink with ⟨hself, _⟩ | ⟨_, hold⟩
    · exact absurd hself hne
    · exact hold
  induction h with
  | last hlink => exact .last (hold hlink (List.ne_of_not_mem_cons hout).symm)
  | step hlink _ ih =>
      have hlink := hold hlink (List.ne_of_not_mem_cons hout).symm
      exact .step hlink (ih (List.not_mem_of_not_mem_cons hout))

/-- No circle passes an id with a level. -/
theorem Circle.not_mem_of_level (hnodup : (keys links).Nodup) (h : Circle links id ids)
    {level : Nat} (hlevel : Level links child level) : child ∉ ids := by
  intro hmem
  obtain ⟨upper, _, hupper⟩ := hlevel.of_ancestor hnodup (h.ancestor_of_mem hmem)
  have hfirst : id ∈ ids := by
    cases h with
    | last _ => exact List.mem_singleton_self id
    | step _ _ => exact List.mem_cons_self
  exact hupper.not_ancestor_self hnodup (h.ancestor_of_mem hfirst)

end ServiceDesk.Hierarchy

namespace ServiceDesk.Lineage

open Hierarchy

variable {lineage : Lineage} {id child parent : Uuid} {above : List Uuid}

/-! ### What the climb finds -/

theorem chain_of_climb {start : Uuid} {steps : Nat}
    (h : lineage.climb start steps (some id) = .ok above) :
    ∃ rest, above = id :: rest ∧ Chain lineage.links id rest := by
  induction steps generalizing id above with
  | zero => cases h
  | succ steps ih =>
      obtain ⟨_, next, rest, hsteps, hlink, hrest, rfl⟩ := climb_eq_ok h
      cases hsteps
      cases next with
      | none =>
          cases (climb_none start steps).symm.trans hrest
          exact ⟨[], rfl, .root hlink⟩
      | some parent =>
          obtain ⟨higher, rfl, hchain⟩ := ih hrest
          exact ⟨parent :: higher, rfl, .parent hlink hchain⟩

/-- The ancestors of an id are the parents above it, and there are none just if these do not end at
a root. -/
theorem ancestors_iff : lineage.ancestors id = .ok above ↔ Chain lineage.links id above := by
  have hchain : ∀ {above}, lineage.ancestors id = .ok above → Chain lineage.links id above := by
    intro above h
    obtain ⟨next, hlink, hclimb⟩ := ancestors_eq_ok h
    cases next with
    | none =>
        cases (climb_none id lineage.size).symm.trans hclimb
        exact .root hlink
    | some parent =>
        obtain ⟨rest, rfl, hrest⟩ := chain_of_climb hclimb
        exact .parent hlink hrest
  constructor
  · exact hchain
  · intro h
    obtain ⟨found, hfound, _⟩ := ancestors_of_level h.level
    rw [(hchain hfound).unique lineage.nodup h] at hfound
    exact hfound

/-- The check for circles is passed just by a parent whose chain leaves out the child. -/
theorem checkAcyclic_iff_chain (hne : parent ≠ child) :
    lineage.checkAcyclic child (some parent) = .ok () ↔
      ∃ above, Chain lineage.links parent above ∧ child ∉ above := by
  constructor
  · intro h
    obtain ⟨_, above, habove, hout⟩ := checkAcyclic_eq_ok h
    exact ⟨above, ancestors_iff.1 habove, hout⟩
  · rintro ⟨above, hchain, hout⟩
    have hunder : ¬Under lineage.links child parent := by
      rintro ⟨steps, hbelow⟩
      exact (mem_of_ancestors (ancestors_iff.2 hchain) hbelow).elim hne hout
    exact (checkAcyclic_iff hchain.level).2 hunder

/-! ### What a child gets with a checked parent -/

section Hung

variable (hne : parent ≠ child) (hchain : Chain lineage.links parent above) (hout : child ∉ above)

include hne hchain hout

theorem chain_insert :
    Chain (lineage.insert child (some parent)).links child (parent :: above) :=
  .parent (mem_relink.2 (Or.inl ⟨rfl, rfl⟩)) (hchain.relink (some parent) hne hout)

theorem circle_of_insert {ids : List Uuid}
    (h : Circle (lineage.insert child (some parent)).links id ids) :
    Circle lineage.links id ids := by
  have hlevel := (chain_insert hne hchain hout).level
  exact h.of_relink (h.not_mem_of_level (lineage.insert child (some parent)).nodup hlevel)

/-- There is room for the tree of the child just if all of it is within the greatest depth where it
hangs now. -/
theorem checkDepth_iff_insert :
    lineage.checkDepth child (some parent) = .ok () ↔
      ∀ id, Under (lineage.insert child (some parent)).links child id →
        ∃ level ≤ maxDepth, Level (lineage.insert child (some parent)).links id level := by
  have hlevel : Level (lineage.insert child (some parent)).links child (above.length + 2) :=
    (chain_insert hne hchain hout).level
  rw [checkDepth_iff hchain.level]
  constructor
  · rintro hroom id ⟨steps, hbelow⟩
    have hsteps := lt_height (below_relink.1 hbelow)
    exact ⟨above.length + 2 + steps, by omega, hlevel.of_below hbelow⟩
  · intro hshallow
    obtain ⟨id, steps, hbelow, hheight⟩ := lineage.exists_below child
    have hbelow : Below (lineage.insert child (some parent)).links child id steps :=
      below_relink.2 hbelow
    obtain ⟨level, hle, hdeep⟩ := hshallow id ⟨steps, hbelow⟩
    have hsame := hdeep.unique (lineage.insert child (some parent)).nodup (hlevel.of_below hbelow)
    omega

end Hung

/-- The two checks are exact on all links, damaged ones included. -/
theorem checks_exact (lineage : Lineage) {child parent : Uuid} (hne : parent ≠ child) :
    (lineage.checkAcyclic child (some parent) = .ok () ↔
      ∃ above, Chain lineage.links parent above ∧ child ∉ above) ∧
    (lineage.checkAcyclic child (some parent) = .ok () →
      (∃ above, Chain (lineage.insert child (some parent)).links child above) ∧
      (∀ id ids, Circle (lineage.insert child (some parent)).links id ids →
        Circle lineage.links id ids) ∧
      (lineage.checkDepth child (some parent) = .ok () ↔
        ∀ id, Under (lineage.insert child (some parent)).links child id →
          ∃ level ≤ maxDepth, Level (lineage.insert child (some parent)).links id level)) := by
  refine ⟨checkAcyclic_iff_chain hne, fun hcheck => ?_⟩
  obtain ⟨above, hchain, hout⟩ := (checkAcyclic_iff_chain hne).1 hcheck
  exact ⟨⟨parent :: above, chain_insert hne hchain hout⟩,
    fun _ _ hcircle => circle_of_insert hne hchain hout hcircle,
    checkDepth_iff_insert hne hchain hout⟩

/-- A root and an id below it, two ids in a circle and an id with a dangling parent. -/
def damaged : Lineage :=
  let id (number : Fin 10) : Uuid := ⟨number, by omega⟩
  { links := [(id 1, none), (id 2, some (id 1)), (id 3, some (id 4)), (id 4, some (id 3)),
      (id 5, some (id 9))]
    nodup := by decide }

/-- An id of the circle may be hung below the root, which opens the circle, and the ids with a
dangling parent stay where they are. -/
theorem checks_exact_damaged :
    (⟨2, by decide⟩ : Uuid) ≠ ⟨3, by decide⟩ ∧
    damaged.checkAcyclic ⟨3, by decide⟩ (some ⟨2, by decide⟩) = .ok () ∧
    (∃ above, Chain (damaged.insert ⟨3, by decide⟩ (some ⟨2, by decide⟩)).links ⟨3, by decide⟩ above) ∧
    ∀ id ids, Circle (damaged.insert ⟨3, by decide⟩ (some ⟨2, by decide⟩)).links id ids →
      Circle damaged.links id ids := by
  have hne : (⟨2, by decide⟩ : Uuid) ≠ ⟨3, by decide⟩ := by decide
  have hcheck : damaged.checkAcyclic ⟨3, by decide⟩ (some ⟨2, by decide⟩) = .ok () := rfl
  obtain ⟨hchain, hcircles, _⟩ := (checks_exact damaged hne).2 hcheck
  exact ⟨hne, hcheck, hchain, hcircles⟩

end ServiceDesk.Lineage
