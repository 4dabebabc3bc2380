import Mathlib.Order.Bounds.Defs
import ServiceDesk.Proofs.Hierarchy.Verdicts

/-!
Heights are exact on links of any kind. The levels below an id are gone through one after another,
without the ids met before, so this ends even if the links run in a circle through the id. How many
levels there are is told by the longest walk upwards to the id that does not pass it before, and it
does not matter in which order the links are listed or the ids of a level are met.
-/

namespace ServiceDesk.Lineage

open Hierarchy

/-! ### Going through the levels with a list of the ids met -/

/-- A sweep downwards from a level in so many rounds. In every round the ids directly below the
level are met in any order, except those that have been seen before. -/
inductive Sweep (links : Links) : List Uuid → List Uuid → Nat → Prop
  | done {seen} : Sweep links seen [] 0
  | round {seen level next rounds} (hlevel : level ≠ [])
      (hnext : ∀ id, id ∈ next ↔ id ∉ seen ∧ ∃ parent ∈ level, (id, some parent) ∈ links)
      (hrest : Sweep links (next ++ seen) next rounds) : Sweep links seen level (rounds + 1)

variable {lineage other : Lineage} {links unmet : Links} {id : Uuid} {seen level : List Uuid}
  {rounds : Nat}

/-- The links not met yet are those of the ids not seen. -/
def Unmet (links : Links) (seen : List Uuid) (unmet : Links) : Prop :=
  ∀ link, link ∈ unmet ↔ link ∈ links ∧ link.1 ∉ seen

theorem Unmet.mem_below (h : Unmet links seen unmet) (id : Uuid) :
    id ∈ levelBelow unmet level ↔ id ∉ seen ∧ ∃ parent ∈ level, (id, some parent) ∈ links := by
  rw [mem_levelBelow_iff]
  constructor
  · rintro ⟨parent, hparent, hlink⟩
    obtain ⟨hlink, hnew⟩ := (h _).1 hlink
    exact ⟨hnew, parent, hparent, hlink⟩
  · rintro ⟨hnew, parent, hparent, hlink⟩
    exact ⟨parent, hparent, (h _).2 ⟨hlink, hnew⟩⟩

theorem Unmet.beyond (h : Unmet links seen unmet) (hnodup : (keys unmet).Nodup) :
    Unmet links (levelBelow unmet level ++ seen) (beyondBelow unmet level) := by
  intro link
  rw [mem_beyondBelow_iff hnodup, h link, List.mem_append, not_or, and_right_comm, and_assoc]

/-- The levels that are counted are the rounds of a sweep. -/
theorem sweep_levelsFrom (h : Unmet links seen unmet) (hnodup : (keys unmet).Nodup)
    (hlevel : level ≠ []) : Sweep links seen level (levelsFrom unmet level) := by
  fun_induction levelsFrom unmet level generalizing seen with
  | case1 unmet level hnone =>
      have hnext : ∀ id, id ∈ levelBelow unmet level ↔ _ := h.mem_below
      rw [hnone] at hnext
      exact .round hlevel hnext .done
  | case2 unmet level hsome ih =>
      have hbeyond : (keys (beyondBelow unmet level)).Nodup :=
        hnodup.sublist (List.filter_sublist.map _)
      exact .round hlevel h.mem_below (ih (h.beyond hnodup) hbeyond hsome)

theorem Sweep.unique {seen' level' : List Uuid} {rounds' : Nat} (h : Sweep links seen level rounds)
    (h' : Sweep links seen' level' rounds') (hseen : ∀ id, id ∈ seen ↔ id ∈ seen')
    (hlevel : ∀ id, id ∈ level ↔ id ∈ level') : rounds = rounds' := by
  induction h generalizing seen' level' rounds' with
  | done =>
      cases h' with
      | done => rfl
      | round hsome _ _ =>
          obtain ⟨id, hid⟩ := List.exists_mem_of_ne_nil _ hsome
          cases (hlevel id).2 hid
  | @round seen level next _ hsome hnext _ ih =>
      cases h' with
      | done =>
          obtain ⟨id, hid⟩ := List.exists_mem_of_ne_nil _ hsome
          cases (hlevel id).1 hid
      | @round _ _ next' _ _ hnext' hrest' =>
          have hsame : ∀ id, id ∈ next ↔ id ∈ next' := by
            intro id
            rw [hnext, hnext', hseen]
            simp only [hlevel]
          have hmet : ∀ id, id ∈ next ++ seen ↔ id ∈ next' ++ seen' := by
            intro id
            rw [List.mem_append, List.mem_append, hsame, hseen]
          rw [ih hrest' hmet hsame]

/-- Every sweep from an id takes as many rounds as its height tells, and there is one. -/
theorem sweep_iff_height : Sweep lineage.links [id] [id] rounds ↔ rounds = lineage.height id := by
  have hunmet : Unmet lineage.links [id] (lineage.links.filter fun link => link.1 ≠ id) := by
    intro link
    rw [List.mem_filter, decide_eq_true_eq, List.mem_singleton]
  have hnodup : (keys (lineage.links.filter fun link => link.1 ≠ id)).Nodup :=
    lineage.nodup.sublist (List.filter_sublist.map _)
  have hsweep : Sweep lineage.links [id] [id] (lineage.height id) :=
    sweep_levelsFrom hunmet hnodup (List.cons_ne_nil id [])
  constructor
  · exact fun h => h.unique hsweep (fun _ => Iff.rfl) fun _ => Iff.rfl
  · rintro rfl
    exact hsweep

/-! ### The longest walk -/

theorem height_mono (hsub : lineage.links ⊆ other.links) (id : Uuid) :
    lineage.height id ≤ other.height id := by
  obtain ⟨lowest, steps, hbelow, hlast⟩ := lineage.exists_below id
  rw [← hlast]
  exact lt_height (hbelow.mono hsub)

/-- The longest walk to an id from below gives its height, and if there is none, the id is alone. -/
theorem height_cases (lineage : Lineage) (id : Uuid) :
    (∃ longest, IsGreatest {steps | ∃ node ≠ id, Below lineage.links id node steps} longest ∧
      lineage.height id = longest + 1) ∨
    ((∀ node ≠ id, ∀ steps, ¬Below lineage.links id node steps) ∧ lineage.height id = 1) := by
  obtain ⟨lowest, longest, hbelow, hlast⟩ := lineage.exists_below id
  have hupper : ∀ {node steps}, Below lineage.links id node steps → steps ≤ longest := by
    intro node steps hfar
    have := lt_height hfar
    omega
  cases hbelow with
  | top =>
      refine Or.inr ⟨fun node hne steps hfar => ?_, hlast.symm⟩
      have hshort := hupper hfar
      cases hfar with
      | top => exact hne rfl
      | step _ _ _ => exact Nat.not_succ_le_zero _ hshort
  | step hne hlink hup =>
      refine Or.inl ⟨_, ⟨⟨lowest, hne, .step hne hlink hup⟩, ?_⟩, hlast.symm⟩
      rintro steps ⟨_, _, hfar⟩
      exact hupper hfar

/-- The height of an id is one more than the greatest number of steps by which another id comes up
to it without passing it before, and one if there is no such id, be the id itself known or not. The
order of the links does not matter, and neither does the order in which a sweep meets the ids of a
level. -/
theorem height_is_exact (lineage : Lineage) (id : Uuid) :
    ((∃ longest, IsGreatest {steps | ∃ node ≠ id, Below lineage.links id node steps} longest ∧
        lineage.height id = longest + 1) ∨
      ((∀ node ≠ id, ∀ steps, ¬Below lineage.links id node steps) ∧ lineage.height id = 1)) ∧
    (∀ other : Lineage, other.links.Perm lineage.links → other.height id = lineage.height id) ∧
    ∀ rounds, Sweep lineage.links [id] [id] rounds ↔ rounds = lineage.height id := by
  refine ⟨height_cases lineage id, fun other hperm => ?_, fun _ => sweep_iff_height⟩
  exact Nat.le_antisymm (height_mono hperm.subset id) (height_mono hperm.symm.subset id)

/-- An id that is not there has two levels below it, however the links are listed, and an id in a
circle has the other one below it and not itself again. -/
theorem height_is_exact_frayed :
    let reversed : Lineage := ⟨frayed.links.reverse, by decide⟩
    reversed.links.Perm frayed.links ∧ reversed.height ⟨9, by decide⟩ = 3 ∧
    Sweep frayed.links [⟨3, by decide⟩] [⟨3, by decide⟩] 2 := by
  intro reversed
  have hperm : reversed.links.Perm frayed.links := List.reverse_perm frayed.links
  obtain ⟨_, horder, _⟩ := height_is_exact frayed ⟨9, by decide⟩
  obtain ⟨_, _, hsweep⟩ := height_is_exact frayed ⟨3, by decide⟩
  have hmissing : frayed.height ⟨9, by decide⟩ = 3 := by decide +kernel
  have hcircle : frayed.height ⟨3, by decide⟩ = 2 := by decide +kernel
  exact ⟨hperm, (horder reversed hperm).trans hmissing, (hsweep 2).2 hcircle.symm⟩

end ServiceDesk.Lineage
