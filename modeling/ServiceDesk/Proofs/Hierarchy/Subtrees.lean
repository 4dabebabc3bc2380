import ServiceDesk.Proofs.Hierarchy.Forest

/-!
What lies below an id, whatever the other links are like. Below an id that is not its own ancestor
there are no circles: all that lies below it hangs on one of its children, on one only, and one
level lower than seen from the child.
-/

namespace ServiceDesk.Hierarchy

variable {links : Links} {id top : Uuid}

/-- An id is `top` or lies below it. -/
def Under (links : Links) (top id : Uuid) : Prop := ∃ steps, Below links top id steps

theorem Under.refl (links : Links) (id : Uuid) : Under links id id := ⟨0, .top⟩

theorem Under.step {parent : Uuid} (hlink : (id, some parent) ∈ links) (h : Under links top parent) :
    Under links top id := by
  by_cases hid : id = top
  · exact hid ▸ Under.refl links top
  · obtain ⟨steps, hbelow⟩ := h
    exact ⟨steps + 1, .step hid hlink hbelow⟩

theorem Under.trans {middle : Uuid} (hlow : Under links middle id) (hhigh : Under links top middle) :
    Under links top id := by
  obtain ⟨steps, hbelow⟩ := hlow
  induction hbelow with
  | top => exact hhigh
  | step _ hlink _ ih => exact ih.step hlink

theorem Under.of_ancestor (h : Ancestor links id top) : Under links top id := by
  induction h with
  | parent hlink => exact (Under.refl links _).step hlink
  | above hlink _ ih => exact ih.step hlink

theorem Under.ancestor {parent : Uuid} (hlink : (id, some parent) ∈ links)
    (h : Under links top parent) : Ancestor links id top := by
  obtain ⟨steps, hbelow⟩ := h
  induction hbelow generalizing id with
  | top => exact .parent hlink
  | step _ hup _ ih => exact .above hlink (ih hup)

theorem under_iff_ancestor : Under links top id ↔ id = top ∨ Ancestor links id top := by
  constructor
  · rintro ⟨steps, hbelow⟩
    cases hbelow with
    | top => exact Or.inl rfl
    | step _ hlink hup => exact Or.inr (Under.ancestor hlink ⟨_, hup⟩)
  · rintro (rfl | habove)
    · exact Under.refl links id
    · exact Under.of_ancestor habove

/-- What lies below an id apart from the id itself lies below one of its children. -/
theorem under_iff_child : Under links top id ↔
    id = top ∨ ∃ child, (child, some top) ∈ links ∧ Under links child id := by
  constructor
  · rintro ⟨steps, hbelow⟩
    induction hbelow with
    | top => exact Or.inl rfl
    | @step id parent steps _ hlink _ ih =>
        rcases ih with rfl | ⟨child, hchild, hunder⟩
        · exact Or.inr ⟨id, hlink, Under.refl links id⟩
        · exact Or.inr ⟨child, hchild, hunder.step hlink⟩
  · rintro (rfl | ⟨child, hchild, hunder⟩)
    · exact Under.refl links id
    · exact hunder.trans ((Under.refl links top).step hchild)

/-- An id lies above itself just if it lies below one of its children. -/
theorem ancestor_self_iff : Ancestor links id id ↔
    ∃ child, (child, some id) ∈ links ∧ Under links child id := by
  constructor
  · intro hcircle
    cases hcircle with
    | parent hlink => exact ⟨id, hlink, Under.refl links id⟩
    | @above _ parent _ hlink habove =>
        rcases under_iff_child.1 (Under.of_ancestor habove) with rfl | ⟨child, hchild, hunder⟩
        · exact ⟨parent, hlink, Under.refl links parent⟩
        · exact ⟨child, hchild, hunder.step hlink⟩
  · rintro ⟨child, hchild, hunder⟩
    rcases under_iff_ancestor.1 hunder with rfl | habove
    · exact .parent hchild
    · have hup := Under.of_ancestor habove
      cases habove with
      | parent hlink => exact Under.ancestor hlink ((Under.refl links id).step hchild)
      | above hlink hrest =>
          exact Under.ancestor hlink ((Under.of_ancestor hrest).trans
            ((Under.refl links id).step hchild))

/-- What hangs below an id outside of any circle is outside of any circle, too. -/
theorem not_ancestor_self_child (hnodup : (keys links).Nodup) (hfree : ¬Ancestor links id id)
    {child : Uuid} (hchild : (child, some id) ∈ links) : ¬Ancestor links child child := by
  intro hcircle
  cases hcircle with
  | parent hlink =>
      cases link_unique hnodup hchild hlink
      exact hfree (.parent hchild)
  | above hlink habove =>
      cases link_unique hnodup hchild hlink
      exact hfree (ancestor_self_iff.2 ⟨child, hchild, Under.of_ancestor habove⟩)

/-- Two ids above a third one lie one above the other. -/
theorem Under.total (hnodup : (keys links).Nodup) {a b : Uuid} (ha : Under links a id)
    (hb : Under links b id) : Under links a b ∨ Under links b a := by
  obtain ⟨steps, hbelow⟩ := ha
  induction hbelow with
  | top => exact Or.inr hb
  | step _ hlink hup ih =>
      obtain ⟨steps', hbelow'⟩ := hb
      cases hbelow' with
      | top => exact Or.inl (Under.step hlink ⟨_, hup⟩)
      | step _ hlink' hup' =>
          cases link_unique hnodup hlink hlink'
          exact ih ⟨_, hup'⟩

/-- Two ids with the same parent, or without one, have nothing below them in common, unless the
parent is its own ancestor. -/
theorem Under.apart (hnodup : (keys links).Nodup) {parent : Option Uuid}
    (hfree : ∀ id, parent = some id → ¬Ancestor links id id) {a b : Uuid}
    (ha : (a, parent) ∈ links) (hb : (b, parent) ∈ links) (hne : a ≠ b)
    (hunder : Under links a id) : ¬Under links b id := by
  have hfar : ∀ {a b : Uuid}, (a, parent) ∈ links → (b, parent) ∈ links → a ≠ b →
      ¬Under links a b := by
    rintro a b ha hb hne ⟨steps, hbelow⟩
    cases hbelow with
    | top => exact hne rfl
    | step _ hlink hup =>
        cases link_unique hnodup hb hlink
        exact hfree _ rfl (ancestor_self_iff.2 ⟨a, ha, _, hup⟩)
  intro hother
  rcases hunder.total hnodup hother with hab | hba
  · exact hfar ha hb hne hab
  · exact hfar hb ha hne.symm hba

theorem Below.of_child (hfree : ¬Ancestor links top top) {child : Uuid}
    (hchild : (child, some top) ∈ links) {steps : Nat} (h : Below links child id steps) :
    Below links top id (steps + 1) := by
  have hout : ∀ {id steps}, Below links child id steps → id ≠ top := by
    rintro id steps hbelow rfl
    exact hfree (ancestor_self_iff.2 ⟨child, hchild, steps, hbelow⟩)
  induction h with
  | top => exact .step (hout .top) hchild .top
  | step hne hlink hbelow ih => exact .step (hout (.step hne hlink hbelow)) hlink ih

/-- All that lies below an id lies below one of its children, one step less far. -/
theorem Below.to_child (hnodup : (keys links).Nodup) {steps : Nat}
    (h : Below links top id (steps + 1)) :
    ∃ child, (child, some top) ∈ links ∧ Below links child id steps := by
  induction steps generalizing id with
  | zero =>
      cases h with
      | step _ hlink hup =>
          cases hup with
          | top => exact ⟨id, hlink, .top⟩
  | succ steps ih =>
      cases h with
      | @step _ parent _ hne hlink hup =>
          obtain ⟨child, hchild, hbelow⟩ := ih hup
          refine ⟨child, hchild, .step ?_ hlink hbelow⟩
          rintro rfl
          cases link_unique hnodup hchild hlink
          cases hup with
          | step hother _ _ => exact hother rfl

theorem Under.mem_keys (h : Under links top id) (htop : top ∈ keys links) : id ∈ keys links := by
  obtain ⟨steps, hbelow⟩ := h
  cases hbelow with
  | top => exact htop
  | step _ hlink _ => exact mem_keys_of_mem hlink

theorem Level.of_below {level steps : Nat} (htop : Level links top level)
    (h : Below links top id steps) : Level links id (level + steps) := by
  induction h with
  | top => exact htop
  | step _ hlink _ ih => exact .child hlink ih

namespace Forest

variable (h : Forest links)

include h

theorem level_le {level : Nat} (hlevel : Level links id level) : level ≤ maxDepth := by
  obtain ⟨other, hle, hother⟩ := h.shallow id hlevel.mem_keys
  rw [hlevel.unique h.nodup hother]
  exact hle

theorem not_under_child {child : Uuid} (hchild : (child, some id) ∈ links) : ¬Under links child id :=
  fun hunder => h.acyclic _ (ancestor_self_iff.2 ⟨child, hchild, hunder⟩)

end Forest

end ServiceDesk.Hierarchy
