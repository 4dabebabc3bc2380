import Mathlib.Data.List.Perm.Subperm
import ServiceDesk.Proofs.Hierarchy.Checks
import ServiceDesk.Proofs.Hierarchy.Subtrees

/-!
What the checks of a new parent refuse. In a forest every climb ends at a root, and the height of an
id is reached by something below it. So a move passes its checks just if the links that it leaves
have no circle and no level beyond the greatest depth, and a new id may lie below every id that is
not on the last level.
-/

namespace ServiceDesk.Hierarchy

open Lineage

variable {links other : Links} {id child parent : Uuid}

/-- Links without circles and with no more levels than allowed. -/
structure Bounded (links : Links) : Prop where
  acyclic : ∀ id, ¬Ancestor links id id
  shallow : ∀ id level, Level links id level → level ≤ maxDepth

theorem Forest.bounded (h : Forest links) : Bounded links :=
  ⟨h.acyclic, fun _ _ => h.level_le⟩

theorem Ancestor.mono (hsub : links ⊆ other) {ancestor : Uuid} (h : Ancestor links id ancestor) :
    Ancestor other id ancestor := by
  induction h with
  | parent hlink => exact .parent (hsub hlink)
  | above hlink _ ih => exact .above (hsub hlink) ih

theorem Bounded.mono (hsub : links ⊆ other) (h : Bounded other) : Bounded links :=
  ⟨fun id hcircle => h.acyclic id (hcircle.mono hsub),
    fun id level hlevel => h.shallow id level (hlevel.mono hsub)⟩

theorem relink_subset (hsub : links ⊆ other) (id : Uuid) (parentId : Option Uuid) :
    relink links id parentId ⊆ relink other id parentId := by
  rintro ⟨id', parent'⟩ hmem
  rcases mem_relink.1 hmem with hself | ⟨hne, hold⟩
  · exact mem_relink.2 (Or.inl hself)
  · exact mem_relink.2 (Or.inr ⟨hne, hsub hold⟩)

/-- Without a circle the new parent of an id cannot have been below it. -/
theorem Bounded.not_below (h : Bounded (relink links child (some parent))) {steps : Nat} :
    ¬Below links child parent steps :=
  fun hbelow => h.acyclic child
    (Under.ancestor (mem_relink.2 (Or.inl ⟨rfl, rfl⟩)) ⟨steps, below_relink.2 hbelow⟩)

theorem Bounded.ne (h : Bounded (relink links child (some parent))) : parent ≠ child := by
  rintro rfl
  exact h.not_below .top

/-- There is room below the new parent of an id for all that lies below the id. -/
theorem Bounded.room (h : Bounded (relink links child (some parent))) {level : Nat}
    (hlevel : Level links parent level) {steps : Nat} (hbelow : Below links child id steps) :
    level + 1 + steps ≤ maxDepth := by
  have hparent : Level (relink links child (some parent)) parent level := by
    rcases hlevel.relink_or_below child (some parent) with hsame | ⟨_, hbelow⟩
    · exact hsame
    · exact absurd hbelow h.not_below
  have hchild : Level (relink links child (some parent)) child (level + 1) :=
    .child (mem_relink.2 (Or.inl ⟨rfl, rfl⟩)) hparent
  exact h.shallow _ _ (hbelow.level_relink hchild)

/-- A known parent may be given to an id of a forest if the links stay within the limits. -/
theorem Bounded.forest (hforest : Forest links) {parentId : Option Uuid}
    (hknown : ∀ parent, parentId = some parent → parent ∈ keys links)
    (h : Bounded (relink links child parentId)) : Forest (relink links child parentId) := by
  cases parentId with
  | none => exact hforest.uproot child
  | some parent =>
      obtain ⟨level, _, hlevel⟩ := hforest.shallow parent (hknown parent rfl)
      exact hforest.graft hlevel (fun _ => h.not_below) fun _ _ hbelow => h.room hlevel hbelow

/-- From every id a chain of different ids leads up to a root, one for each level. -/
theorem Level.chain (hnodup : (keys links).Nodup) {level : Nat} (h : Level links id level) :
    ∃ ids : List Uuid, ids.length = level ∧ ids.Nodup ∧ ids ⊆ keys links ∧
      ∀ other ∈ ids, ∃ upper ≤ level, Level links other upper := by
  induction h with
  | @root id hlink =>
      refine ⟨[id], rfl, List.nodup_singleton id, ?_, ?_⟩
      · exact List.cons_subset.2 ⟨mem_keys_of_mem hlink, List.nil_subset _⟩
      · rintro other hmem
        cases List.mem_singleton.1 hmem
        exact ⟨1, Nat.le_refl 1, .root hlink⟩
  | @child id parent level hlink hlevel ih =>
      obtain ⟨ids, rfl, hids, hknown, hlevels⟩ := ih
      refine ⟨id :: ids, rfl, List.nodup_cons.2 ⟨?_, hids⟩, ?_, ?_⟩
      · intro hmem
        obtain ⟨upper, hle, hupper⟩ := hlevels id hmem
        have := hupper.unique hnodup (.child hlink hlevel)
        omega
      · exact List.cons_subset.2 ⟨mem_keys_of_mem hlink, hknown⟩
      · intro other hmem
        rcases List.mem_cons.1 hmem with rfl | hmem
        · exact ⟨ids.length + 1, Nat.le_refl _, .child hlink hlevel⟩
        · obtain ⟨upper, hle, hupper⟩ := hlevels other hmem
          exact ⟨upper, Nat.le_succ_of_le hle, hupper⟩

theorem Level.le_length (hnodup : (keys links).Nodup) {level : Nat} (h : Level links id level) :
    level ≤ links.length := by
  obtain ⟨ids, rfl, hids, hknown, _⟩ := h.chain hnodup
  have hle := (List.subperm_of_subset hids hknown).length_le
  rwa [keys, List.length_map] at hle

end ServiceDesk.Hierarchy

namespace ServiceDesk.Lineage

open Hierarchy

variable {lineage : Lineage} {id child parent : Uuid}

/-! ### Climbs that end -/

theorem climb_succ {start : Uuid} {next : Option Uuid} {steps : Nat} {above : List Uuid}
    (hlink : (id, next) ∈ lineage.links) (hclimb : lineage.climb start steps next = .ok above) :
    lineage.climb start (steps + 1) (some id) = .ok (id :: above) := by
  rw [climb, parent?_eq_some.2 hlink]
  simp only [hclimb, Except.map]

theorem climb_of_level (start : Uuid) {level steps : Nat} (h : Level lineage.links id level)
    (hsteps : level ≤ steps) : ∃ above, lineage.climb start steps (some id) = .ok above ∧
      ∀ other ∈ above, Under lineage.links other id := by
  induction h generalizing steps with
  | @root id hlink =>
      obtain ⟨fewer, rfl⟩ := Nat.exists_eq_add_of_le' hsteps
      refine ⟨[id], climb_succ hlink (climb_none start fewer), fun other hmem => ?_⟩
      cases List.mem_singleton.1 hmem
      exact Under.refl _ _
  | @child id parent level hlink _ ih =>
      obtain ⟨fewer, rfl⟩ := Nat.exists_eq_add_of_le' hsteps
      obtain ⟨above, hclimb, hunder⟩ := ih (Nat.le_add_left level fewer)
      refine ⟨id :: above, climb_succ hlink hclimb, fun other hmem => ?_⟩
      rcases List.mem_cons.1 hmem with rfl | hmem
      · exact Under.refl _ _
      · exact (hunder other hmem).step hlink

/-- An id with a level has ancestors, and its level counts them. -/
theorem ancestors_of_level {level : Nat} (h : Level lineage.links id level) :
    ∃ above, lineage.ancestors id = .ok above ∧ above.length + 1 = level ∧
      ∀ other ∈ above, Ancestor lineage.links id other := by
  have hall : ∃ above, lineage.ancestors id = .ok above ∧
      ∀ other ∈ above, Ancestor lineage.links id other := by
    cases h with
    | root hlink =>
        refine ⟨[], ?_, fun _ hmem => nomatch hmem⟩
        rw [ancestors, parent?_eq_some.2 hlink]
        exact climb_none _ _
    | child hlink hlevel =>
        obtain ⟨above, hclimb, hunder⟩ := climb_of_level id hlevel (hlevel.le_length lineage.nodup)
        refine ⟨above, ?_, fun other hmem => (hunder other hmem).ancestor hlink⟩
        rw [ancestors, parent?_eq_some.2 hlink]
        exact hclimb
  obtain ⟨above, habove, hancestor⟩ := hall
  exact ⟨above, habove, (level_of_ancestors habove).unique lineage.nodup h, hancestor⟩

/-! ### Heights that are reached -/

/-- A walk into the level below can be led on by one step into the level. -/
theorem Into.lengthen {unmet : Links} {level : List Uuid} {steps : Nat}
    (h : Into (beyondBelow unmet level) (levelBelow unmet level) id steps) :
    Into unmet level id (steps + 1) := by
  induction h with
  | start hlevel =>
      obtain ⟨parent, hparent, hlink⟩ := mem_levelBelow_iff.1 hlevel
      exact .step hlink (.start hparent)
  | step hlink _ ih => exact .step (List.mem_of_mem_filter hlink) ih

/-- Some walk into a level starts on the lowest of the levels from there downwards. -/
theorem exists_into (unmet : Links) {level : List Uuid} (hlevel : level ≠ []) :
    ∃ id steps, Into unmet level id steps ∧ steps + 1 = levelsFrom unmet level := by
  fun_induction levelsFrom unmet level with
  | case1 unmet level hnone =>
      obtain ⟨id, hmem⟩ := List.exists_mem_of_ne_nil _ hlevel
      exact ⟨id, 0, .start hmem, rfl⟩
  | case2 unmet level hsome ih =>
      obtain ⟨id, steps, hinto, hlast⟩ := ih hsome
      exact ⟨id, steps + 1, hinto.lengthen, by rw [hlast]⟩

/-- Something lies as far below an id as its height tells. -/
theorem exists_below (lineage : Lineage) (top : Uuid) :
    ∃ id steps, Below lineage.links top id steps ∧ steps + 1 = lineage.height top := by
  obtain ⟨id, steps, hinto, hlast⟩ :=
    exists_into (lineage.links.filter fun link => link.1 ≠ top) (List.cons_ne_nil top [])
  refine ⟨id, steps, ?_, hlast⟩
  clear hlast
  induction hinto with
  | start hlevel =>
      cases List.mem_singleton.1 hlevel
      exact .top
  | step hlink _ ih =>
      obtain ⟨hmem, hne⟩ := List.mem_filter.1 hlink
      exact .step (by simpa using hne) hmem ih

/-! ### Checks that are passed -/

/-- The check of depth is passed just if the tree of the child has room below the parent. -/
theorem checkDepth_iff {level : Nat} (hlevel : Level lineage.links parent level) :
    lineage.checkDepth child (some parent) = .ok () ↔
      level + lineage.height child ≤ maxDepth := by
  obtain ⟨above, habove, rfl, _⟩ := ancestors_of_level hlevel
  constructor
  · intro hcheck
    obtain ⟨other, hother, hroom⟩ := checkDepth_eq_ok hcheck
    cases habove.symm.trans hother
    exact hroom
  · exact fun hroom => bind_eq_ok.2 ⟨above, habove, if_neg (Nat.not_lt.2 hroom)⟩

/-- The check for circles is passed just if the parent does not lie below the child. -/
theorem checkAcyclic_iff {level : Nat} (hlevel : Level lineage.links parent level) :
    lineage.checkAcyclic child (some parent) = .ok () ↔ ¬Under lineage.links child parent := by
  obtain ⟨above, habove, _, hancestors⟩ := ancestors_of_level hlevel
  constructor
  · rintro hcheck ⟨steps, hbelow⟩
    obtain ⟨hne, above', habove', hout⟩ := checkAcyclic_eq_ok hcheck
    exact (mem_of_ancestors habove' hbelow).elim hne hout
  · intro hfar
    have hne : parent ≠ child := fun heq => hfar (heq ▸ Under.refl _ _)
    have hout : child ∉ above := fun hmem => hfar (Under.of_ancestor (hancestors child hmem))
    have hcontains : lineage.contains parent = true := by
      obtain ⟨next, hlink, _⟩ := ancestors_eq_ok habove
      rw [contains, parent?_eq_some.2 hlink]
      rfl
    rw [checkAcyclic, if_neg hne, if_pos hcontains]
    exact bind_eq_ok.2 ⟨above, habove, if_neg hout⟩

end ServiceDesk.Lineage

namespace ServiceDesk.Service

open Hierarchy Lineage

variable {lineage : Lineage} {links : Links} {child parent : Uuid}

/-- All entities of a forest, read in some order, keep their links. -/
theorem links_ofItems_perm {α : Type} [Nested α] {items : List α} (hforest : Forest links)
    (hperm : (linksOf items).Perm links) : (Lineage.ofItems items).links.Perm links := by
  have hkeys : (keys (linksOf items)).Perm (keys links) := hperm.map _
  have hnodup := hkeys.nodup_iff.2 hforest.nodup
  rw [keys_linksOf] at hnodup
  rwa [links_ofItems hnodup]

/-- A move passes its checks just if the links that it leaves stay within the limits. -/
theorem checkMove_iff (hforest : Forest links) (hperm : lineage.links.Perm links)
    (hparent : parent ∈ keys links) :
    checkMove lineage child parent = .ok () ↔ Bounded (relink links child (some parent)) := by
  constructor
  · exact fun hcheck => (forest_of_checkMove hforest hperm.symm.subset hparent hcheck).bounded
  · intro hbounded
    have hbounded := hbounded.mono (relink_subset hperm.subset child (some parent))
    obtain ⟨level, _, hlevel⟩ := hforest.shallow parent hparent
    have hlevel := hlevel.mono hperm.symm.subset
    have hacyclic : lineage.checkAcyclic child (some parent) = .ok () :=
      (checkAcyclic_iff hlevel).2 fun ⟨_, hbelow⟩ => hbounded.not_below hbelow
    have hdepth : lineage.checkDepth child (some parent) = .ok () := by
      obtain ⟨id, steps, hbelow, hheight⟩ := lineage.exists_below child
      have := hbounded.room hlevel hbelow
      exact (checkDepth_iff hlevel).2 (by omega)
    rw [checkMove, hacyclic]
    exact hdepth

/-- A new id may lie below every id above the last level. -/
theorem checkDepth_new_iff (hforest : Forest links) (hperm : lineage.links.Perm links)
    (hnew : child ∉ keys links) (parent : Uuid) :
    (parent ∈ keys links ∧ lineage.checkDepth child (some parent) = .ok ()) ↔
      ∃ level < maxDepth, Level links parent level := by
  have hheight : lineage.height child = 1 := by
    obtain ⟨id, steps, hbelow, hheight⟩ := lineage.exists_below child
    cases hbelow.mono hperm.subset with
    | top => exact hheight.symm
    | step hne hlink hup =>
        exact absurd (hforest.top_known (.step hne hlink hup) (mem_keys_of_mem hlink)) hnew
  have hroom : ∀ {level}, Level links parent level →
      (lineage.checkDepth child (some parent) = .ok () ↔ level < maxDepth) := by
    intro level hlevel
    rw [checkDepth_iff (hlevel.mono hperm.symm.subset), hheight]
    exact Iff.rfl
  constructor
  · rintro ⟨hparent, hdepth⟩
    obtain ⟨level, _, hlevel⟩ := hforest.shallow parent hparent
    exact ⟨level, (hroom hlevel).1 hdepth, hlevel⟩
  · rintro ⟨level, hlt, hlevel⟩
    exact ⟨hlevel.mem_keys, (hroom hlevel).2 hlt⟩

end ServiceDesk.Service
