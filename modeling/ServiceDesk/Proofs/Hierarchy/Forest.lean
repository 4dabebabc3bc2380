import Mathlib.Data.List.Nodup
import ServiceDesk.Hierarchy.Lineage

/-!
Parent links that form forests of bounded depth. Every level is told by a derivation that ends at a
root, so links with unique ids and a level for every id have no circles and no dangling parents.
A forest stays one when an id is hung below an id far enough from it and high enough for all that
lies below it, when an id is made a root, and when an id without children is taken away.
-/

namespace ServiceDesk.Hierarchy

open Lineage

abbrev Links := List (Uuid × Option Uuid)

def linksOf {α : Type} [Nested α] (items : List α) : Links :=
  items.map fun item => (Nested.id item, Nested.parentId item)

def keys (links : Links) : List Uuid := links.map (·.1)

/-- An id lies above another one: it is its parent, or lies above its parent. -/
inductive Ancestor (links : Links) : Uuid → Uuid → Prop
  | parent {id parent} (hlink : (id, some parent) ∈ links) : Ancestor links id parent
  | above {id parent ancestor} (hlink : (id, some parent) ∈ links)
      (habove : Ancestor links parent ancestor) : Ancestor links id ancestor

/-- The level of an id, its root being on level one. -/
inductive Level (links : Links) : Uuid → Nat → Prop
  | root {id} (hlink : (id, none) ∈ links) : Level links id 1
  | child {id parent level} (hlink : (id, some parent) ∈ links) (hlevel : Level links parent level) :
      Level links id (level + 1)

/-- So many steps upwards lead from an id to `top`, and none of the ids before is `top`. -/
inductive Below (links : Links) (top : Uuid) : Uuid → Nat → Prop
  | top : Below links top top 0
  | step {id parent steps} (hne : id ≠ top) (hlink : (id, some parent) ∈ links)
      (hbelow : Below links top parent steps) : Below links top id (steps + 1)

/-- No id twice, no dangling parent, no id above itself, and no more levels than allowed. -/
structure Forest (links : Links) : Prop where
  nodup : (keys links).Nodup
  parent_known : ∀ {id parent : Uuid}, (id, some parent) ∈ links → parent ∈ keys links
  acyclic : ∀ id : Uuid, ¬Ancestor links id id
  shallow : ∀ id ∈ keys links, ∃ level ≤ maxDepth, Level links id level

variable {links : Links} {id top : Uuid}

theorem keys_linksOf {α : Type} [Nested α] (items : List α) :
    keys (linksOf items) = items.map Nested.id := by
  simp [keys, linksOf]

theorem mem_linksOf {α : Type} [Nested α] {items : List α} {parent : Option Uuid} :
    (id, parent) ∈ linksOf items ↔
      ∃ item ∈ items, Nested.id item = id ∧ Nested.parentId item = parent := by
  simp [linksOf]

theorem mem_keys_of_mem {parent : Option Uuid} (h : (id, parent) ∈ links) : id ∈ keys links :=
  List.mem_map_of_mem (f := (·.1)) h

theorem exists_of_mem_keys (h : id ∈ keys links) : ∃ parent, (id, parent) ∈ links := by
  obtain ⟨⟨id', parent⟩, hmem, rfl⟩ := List.mem_map.1 h
  exact ⟨parent, hmem⟩

theorem link_unique (hnodup : (keys links).Nodup) {a b : Option Uuid} (ha : (id, a) ∈ links)
    (hb : (id, b) ∈ links) : a = b := by
  have hpair := List.inj_on_of_nodup_map hnodup ha hb rfl
  exact congrArg Prod.snd hpair

theorem Level.mem_keys {level : Nat} (h : Level links id level) : id ∈ keys links := by
  cases h with
  | root hlink => exact mem_keys_of_mem hlink
  | child hlink _ => exact mem_keys_of_mem hlink

theorem Level.pos {level : Nat} (h : Level links id level) : 0 < level := by
  cases h with
  | root _ => decide
  | child _ _ => exact Nat.succ_pos _

theorem Level.unique (hnodup : (keys links).Nodup) {m n : Nat} (hm : Level links id m)
    (hn : Level links id n) : m = n := by
  induction hm generalizing n with
  | root hlink =>
      cases hn with
      | root _ => rfl
      | child hother _ => cases link_unique hnodup hlink hother
  | child hlink _ ih =>
      cases hn with
      | root hother => cases link_unique hnodup hlink hother
      | child hother hlevel =>
          cases link_unique hnodup hlink hother
          rw [ih hlevel]

/-- What lies above an id has a smaller level. -/
theorem Level.of_ancestor (hnodup : (keys links).Nodup) {ancestor : Uuid} {level : Nat}
    (habove : Ancestor links id ancestor) (hlevel : Level links id level) :
    ∃ upper < level, Level links ancestor upper := by
  induction habove generalizing level with
  | parent hlink =>
      cases hlevel with
      | root hother => cases link_unique hnodup hlink hother
      | child hother hparent =>
          cases link_unique hnodup hlink hother
          exact ⟨_, Nat.lt_succ_self _, hparent⟩
  | above hlink _ ih =>
      cases hlevel with
      | root hother => cases link_unique hnodup hlink hother
      | child hother hparent =>
          cases link_unique hnodup hlink hother
          obtain ⟨upper, hlt, hupper⟩ := ih hparent
          exact ⟨upper, Nat.lt_succ_of_lt hlt, hupper⟩

theorem Level.not_ancestor_self (hnodup : (keys links).Nodup) {level : Nat}
    (hlevel : Level links id level) : ¬Ancestor links id id := by
  intro hcircle
  obtain ⟨upper, hlt, hupper⟩ := hlevel.of_ancestor hnodup hcircle
  exact absurd (hupper.unique hnodup hlevel) (Nat.ne_of_lt hlt)

/-- A bounded level for every id is all that a forest needs besides unique ids. -/
theorem Forest.of_levels (hnodup : (keys links).Nodup)
    (hshallow : ∀ id ∈ keys links, ∃ level ≤ maxDepth, Level links id level) : Forest links where
  nodup := hnodup
  parent_known := by
    intro id parent hlink
    obtain ⟨level, _, hlevel⟩ := hshallow id (mem_keys_of_mem hlink)
    obtain ⟨_, _, hparent⟩ := hlevel.of_ancestor hnodup (.parent hlink)
    exact hparent.mem_keys
  acyclic := by
    intro id hcircle
    have hmem : id ∈ keys links := by
      cases hcircle with
      | parent hlink => exact mem_keys_of_mem hlink
      | above hlink _ => exact mem_keys_of_mem hlink
    obtain ⟨level, _, hlevel⟩ := hshallow id hmem
    exact hlevel.not_ancestor_self hnodup hcircle
  shallow := hshallow

theorem Forest.top_known (h : Forest links) {steps : Nat} (hbelow : Below links top id steps)
    (hid : id ∈ keys links) : top ∈ keys links := by
  induction hbelow with
  | top => exact hid
  | step _ hlink _ ih => exact ih (h.parent_known hlink)

theorem Forest.empty : Forest [] :=
  .of_levels List.nodup_nil fun _ hmem => by cases hmem

theorem Level.mono {other : Links} (hsub : links ⊆ other) {level : Nat} (h : Level links id level) :
    Level other id level := by
  induction h with
  | root hlink => exact .root (hsub hlink)
  | child hlink _ ih => exact .child (hsub hlink) ih

theorem Below.mono {other : Links} (hsub : links ⊆ other) {steps : Nat}
    (h : Below links top id steps) : Below other top id steps := by
  induction h with
  | top => exact .top
  | step hne hlink _ ih => exact .step hne (hsub hlink) ih

theorem Forest.perm {other : Links} (hperm : links.Perm other) (h : Forest links) : Forest other := by
  have hkeys : (keys links).Perm (keys other) := hperm.map _
  refine .of_levels (hkeys.nodup_iff.1 h.nodup) ?_
  intro id hmem
  obtain ⟨level, hle, hlevel⟩ := h.shallow id (hkeys.mem_iff.2 hmem)
  exact ⟨level, hle, hlevel.mono hperm.subset⟩

/-! ### Giving an id another parent -/

theorem mem_relink {id' : Uuid} {parent parent' : Option Uuid} :
    (id', parent') ∈ relink links id parent ↔
      (id' = id ∧ parent' = parent) ∨ (id' ≠ id ∧ (id', parent') ∈ links) := by
  unfold relink
  split
  · rename_i hknown
    rw [List.mem_map]
    constructor
    · rintro ⟨⟨other, link⟩, hmem, heq⟩
      by_cases hid : other = id
      · rw [if_pos hid] at heq
        cases heq
        exact Or.inl ⟨rfl, rfl⟩
      · rw [if_neg hid] at heq
        cases heq
        exact Or.inr ⟨hid, hmem⟩
    · rintro (⟨rfl, rfl⟩ | ⟨hne, hmem⟩)
      · obtain ⟨link, hmem⟩ := @exists_of_mem_keys links _ hknown
        exact ⟨(id', link), hmem, if_pos rfl⟩
      · exact ⟨(id', parent'), hmem, if_neg hne⟩
  · rename_i hnew
    rw [List.mem_append, List.mem_singleton, Prod.mk.injEq]
    constructor
    · rintro (hmem | hlast)
      · refine Or.inr ⟨?_, hmem⟩
        rintro rfl
        exact hnew (mem_keys_of_mem hmem)
      · exact Or.inl hlast
    · rintro (hlast | ⟨_, hmem⟩)
      · exact Or.inr hlast
      · exact Or.inl hmem

theorem mem_keys_relink {id' : Uuid} {parent : Option Uuid} :
    id' ∈ keys (relink links id parent) ↔ id' = id ∨ id' ∈ keys links := by
  constructor
  · intro h
    obtain ⟨parent', hmem⟩ := exists_of_mem_keys h
    rcases mem_relink.1 hmem with ⟨rfl, _⟩ | ⟨_, hold⟩
    · exact Or.inl rfl
    · exact Or.inr (mem_keys_of_mem hold)
  · intro h
    by_cases hid : id' = id
    · exact mem_keys_of_mem (mem_relink.2 (Or.inl ⟨hid, rfl⟩))
    · obtain ⟨parent', hmem⟩ := exists_of_mem_keys (h.resolve_left hid)
      exact mem_keys_of_mem (mem_relink.2 (Or.inr ⟨hid, hmem⟩))

theorem relink_of_mem (hnodup : (keys links).Nodup) {parent : Option Uuid}
    (hlink : (id, parent) ∈ links) : relink links id parent = links := by
  rw [relink, if_pos (show id ∈ links.map (·.1) from mem_keys_of_mem hlink)]
  conv_rhs => rw [← List.map_id links]
  apply List.map_congr_left
  rintro ⟨other, link⟩ hmem
  split
  · rename_i heq
    cases heq
    rw [link_unique hnodup hlink hmem]
    rfl
  · rfl

/-- Whatever does not lie below an id keeps its level when the id gets another parent. -/
theorem Level.relink_or_below {level : Nat} (top : Uuid) (parent : Option Uuid) (h : Level links id level) :
    Level (relink links top parent) id level ∨ ∃ steps, Below links top id steps := by
  induction h with
  | @root id hlink =>
      by_cases hid : id = top
      · exact Or.inr ⟨0, hid ▸ .top⟩
      · exact Or.inl (.root (mem_relink.2 (Or.inr ⟨hid, hlink⟩)))
  | @child id parent' level hlink _ ih =>
      by_cases hid : id = top
      · exact Or.inr ⟨0, hid ▸ .top⟩
      · rcases ih with hlevel | ⟨steps, hbelow⟩
        · exact Or.inl (.child (mem_relink.2 (Or.inr ⟨hid, hlink⟩)) hlevel)
        · exact Or.inr ⟨steps + 1, .step hid hlink hbelow⟩

/-- The same ids lie below an id when it gets another parent. -/
theorem below_relink {parent : Option Uuid} {steps : Nat} :
    Below (relink links top parent) top id steps ↔ Below links top id steps := by
  constructor
  · intro h
    induction h with
    | top => exact .top
    | step hne hlink _ ih =>
        rcases mem_relink.1 hlink with ⟨htop, _⟩ | ⟨_, hold⟩
        · exact absurd htop hne
        · exact .step hne hold ih
  · intro h
    induction h with
    | top => exact .top
    | step hne hlink _ ih => exact .step hne (mem_relink.2 (Or.inr ⟨hne, hlink⟩)) ih

/-- What lies below an id moves with it. -/
theorem Below.level_relink {parent : Option Uuid} {level steps : Nat}
    (htop : Level (relink links top parent) top level) (h : Below links top id steps) :
    Level (relink links top parent) id (level + steps) := by
  induction h with
  | top => exact htop
  | step hne hlink _ ih => exact .child (mem_relink.2 (Or.inr ⟨hne, hlink⟩)) ih

/-- An id may be hung below a parent that does not lie below it, if there is room for all that lies
below the id. The id may also be a new one. -/
theorem Forest.graft (h : Forest links) {child parent : Uuid} {level : Nat}
    (hlevel : Level links parent level) (hfar : ∀ steps, ¬Below links child parent steps)
    (hroom : ∀ id steps, Below links child id steps → level + 1 + steps ≤ maxDepth) :
    Forest (relink links child (some parent)) := by
  have hparent : Level (relink links child (some parent)) parent level := by
    rcases hlevel.relink_or_below child (some parent) with hsame | ⟨steps, hbelow⟩
    · exact hsame
    · exact absurd hbelow (hfar steps)
  have hchild : Level (relink links child (some parent)) child (level + 1) :=
    .child (mem_relink.2 (Or.inl ⟨rfl, rfl⟩)) hparent
  refine .of_levels (nodup_relink h.nodup child (some parent)) ?_
  intro id hmem
  rcases mem_keys_relink.1 hmem with rfl | hold
  · exact ⟨level + 1, hroom id 0 .top, hchild⟩
  · obtain ⟨old, hle, hold⟩ := h.shallow id hold
    rcases hold.relink_or_below child (some parent) with hsame | ⟨steps, hbelow⟩
    · exact ⟨old, hle, hsame⟩
    · exact ⟨level + 1 + steps, hroom id steps hbelow, hbelow.level_relink hchild⟩

/-- An id may always become a root, be it a new one or not. -/
theorem Forest.uproot (h : Forest links) (child : Uuid) : Forest (relink links child none) := by
  have hchild : Level (relink links child none) child 1 :=
    .root (mem_relink.2 (Or.inl ⟨rfl, rfl⟩))
  have hlower : ∀ {id level}, Level links id level →
      ∃ lower ≤ level, Level (relink links child none) id lower := by
    intro id level hlevel
    induction hlevel with
    | @root id hlink =>
        by_cases hid : id = child
        · exact ⟨1, Nat.le_refl 1, hid ▸ hchild⟩
        · exact ⟨1, Nat.le_refl 1, .root (mem_relink.2 (Or.inr ⟨hid, hlink⟩))⟩
    | @child id parent level hlink _ ih =>
        by_cases hid : id = child
        · exact ⟨1, Nat.succ_le_succ (Nat.zero_le level), hid ▸ hchild⟩
        · obtain ⟨lower, hle, hlower⟩ := ih
          exact ⟨lower + 1, Nat.succ_le_succ hle, .child (mem_relink.2 (Or.inr ⟨hid, hlink⟩)) hlower⟩
  refine .of_levels (nodup_relink h.nodup child none) ?_
  intro id hmem
  rcases mem_keys_relink.1 hmem with rfl | hold
  · exact ⟨1, by decide, hchild⟩
  · obtain ⟨level, hle, hlevel⟩ := h.shallow id hold
    obtain ⟨lower, hlower, hnew⟩ := hlower hlevel
    exact ⟨lower, Nat.le_trans hlower hle, hnew⟩

/-- An id without children may be taken away. -/
theorem Forest.prune (h : Forest links) {gone : Uuid} (hleaf : ∀ id, (id, some gone) ∉ links) :
    Forest (links.filter fun link => link.1 ≠ gone) := by
  have hkept : ∀ {id level}, Level links id level → id ≠ gone →
      Level (links.filter fun link => link.1 ≠ gone) id level := by
    intro id level hlevel
    induction hlevel with
    | root hlink =>
        intro hne
        exact .root (List.mem_filter.2 ⟨hlink, by simpa using hne⟩)
    | @child id parent level hlink _ ih =>
        intro hne
        have hparent : parent ≠ gone := by
          rintro rfl
          exact hleaf id hlink
        exact .child (List.mem_filter.2 ⟨hlink, by simpa using hne⟩) (ih hparent)
  refine .of_levels (h.nodup.sublist (List.filter_sublist.map _)) ?_
  intro id hmem
  obtain ⟨parent, hlink⟩ := exists_of_mem_keys hmem
  obtain ⟨hold, hne⟩ := List.mem_filter.1 hlink
  obtain ⟨level, hle, hlevel⟩ := h.shallow id (mem_keys_of_mem hold)
  exact ⟨level, hle, hkept hlevel (by simpa using hne)⟩

end ServiceDesk.Hierarchy
