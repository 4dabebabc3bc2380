import ServiceDesk.Proofs.Hierarchy.Exactness

/-!
What the check for circles answers about a known parent, whatever the links are like. The walk
upwards from the parent ends at a root, at an id that is not there, or at an id that it has passed
before. The child is looked for only after the walk has been made to its end, so a child that the
walk meets on a way that does not end at a root is not blamed.
-/

namespace ServiceDesk.Hierarchy

inductive Ending
  | root
  | leaves (missing : Uuid)
  | repeats
  deriving DecidableEq

/-- What is said about a walk from `start` on which nothing else is wrong. -/
def Ending.verdict (start : Uuid) : Ending → Except DeskError Unit
  | .root => .ok ()
  | .leaves missing => .error (.notFound missing)
  | .repeats => .error (.corrupt start)

/-- The walk upwards from an id to its end: the known ids that it passes, nearest first and each of
them once, and how it ends. -/
inductive Trail (links : Links) (start : Uuid) : List Uuid → Ending → Prop
  | root {above} (hchain : Chain links start above) : Trail links start (start :: above) .root
  | leaves {missing ids} (hnodup : ids.Nodup) (hway : Way links missing start ids)
      (hmissing : missing ∉ keys links) : Trail links start ids (.leaves missing)
  | repeats {again ids} (hnodup : ids.Nodup) (hway : Way links again start ids)
      (hagain : again ∈ ids) : Trail links start ids .repeats

variable {links : Links} {start id top : Uuid} {ids above : List Uuid} {ending : Ending}

theorem Chain.mem_keys (h : Chain links id above) : id ∈ keys links := h.level.mem_keys

theorem Way.start_mem (h : Way links top id ids) : id ∈ ids := by
  cases h with
  | last _ => exact List.mem_singleton_self id
  | step _ _ => exact List.mem_cons_self

/-- Every id on a way has a link, which leads to another one on the way or to its end. -/
theorem Way.link_of_mem (h : Way links top start ids) (hmem : id ∈ ids) :
    ∃ up, (id, some up) ∈ links ∧ (up = top ∨ up ∈ ids) := by
  induction h with
  | last hlink =>
      cases List.mem_singleton.1 hmem
      exact ⟨top, hlink, Or.inl rfl⟩
  | @step first parent ids hlink hway ih =>
      rcases List.mem_cons.1 hmem with rfl | hmem
      · exact ⟨parent, hlink, Or.inr (List.mem_cons_of_mem id hway.start_mem)⟩
      · obtain ⟨up, hup, hnext⟩ := ih hmem
        exact ⟨up, hup, hnext.imp_right (List.mem_cons_of_mem first)⟩

theorem Way.mem_keys (h : Way links top start ids) : start ∈ keys links := by
  obtain ⟨up, hlink, _⟩ := h.link_of_mem h.start_mem
  exact mem_keys_of_mem hlink

theorem Way.length_le (h : Way links top start ids) (hnodup : ids.Nodup) :
    ids.length ≤ links.length := by
  have hknown : ids ⊆ keys links := by
    intro id hmem
    obtain ⟨up, hlink, _⟩ := h.link_of_mem hmem
    exact mem_keys_of_mem hlink
  have hle := (List.subperm_of_subset hnodup hknown).length_le
  rwa [keys, List.length_map] at hle

/-- A way can be led on by the link of its end. -/
theorem Way.snoc {up : Uuid} (h : Way links top id ids) (hlink : (top, some up) ∈ links) :
    Way links up id (ids ++ [top]) := by
  induction h with
  | last hfirst => exact .step hfirst (.last hlink)
  | step hfirst _ ih => exact .step hfirst ih

theorem Way.chain (h : Way links top id ids) (habove : Chain links top above) :
    ∃ all, Chain links id all := by
  induction h with
  | last hlink => exact ⟨_, .parent hlink habove⟩
  | step hlink _ ih =>
      obtain ⟨all, hall⟩ := ih
      exact ⟨_, .parent hlink hall⟩

/-- Every way can be led on to an end of the walk, since the ids that are not on it become fewer. -/
theorem Way.trail {top : Uuid} {ids : List Uuid} (h : Way links top start ids)
    (hnodup : ids.Nodup) : ∃ all ending, Trail links start all ending := by
  by_cases hmet : top ∈ ids
  · exact ⟨ids, .repeats, .repeats hnodup h hmet⟩
  by_cases hknown : top ∈ keys links
  · obtain ⟨next, hlink⟩ := exists_of_mem_keys hknown
    cases next with
    | none =>
        obtain ⟨all, hall⟩ := h.chain (.root hlink)
        exact ⟨start :: all, .root, .root hall⟩
    | some up =>
        have hlonger : (ids ++ [top]).Nodup := List.concat_eq_append ▸ hnodup.concat hmet
        have hroom : ids.length + 1 ≤ links.length := by
          simpa using (h.snoc hlink).length_le hlonger
        exact (h.snoc hlink).trail hlonger
  · exact ⟨ids, .leaves top, .leaves hnodup h hknown⟩
  termination_by links.length - ids.length
  decreasing_by
    rw [List.length_append, List.length_singleton]
    omega

theorem exists_trail (h : start ∈ keys links) : ∃ ids ending, Trail links start ids ending := by
  obtain ⟨next, hlink⟩ := exists_of_mem_keys h
  cases next with
  | none => exact ⟨[start], .root, .root (.root hlink)⟩
  | some parent => exact (Way.last hlink).trail (List.nodup_singleton start)

theorem Trail.start_mem (h : Trail links start ids ending) : start ∈ ids := by
  cases h with
  | root _ => exact List.mem_cons_self
  | leaves _ hway _ => exact hway.start_mem
  | repeats _ hway _ => exact hway.start_mem

theorem Trail.mem_keys (h : Trail links start ids ending) : start ∈ keys links := by
  cases h with
  | root hchain => exact hchain.mem_keys
  | leaves _ hway _ | repeats _ hway _ => exact hway.mem_keys

end ServiceDesk.Hierarchy

namespace ServiceDesk.Lineage

open Hierarchy

variable {lineage : Lineage} {start id top child parent : Uuid} {ids : List Uuid} {ending : Ending}

/-! ### Climbing along a way -/

theorem climb_link {next : Option Uuid} (hlink : (id, next) ∈ lineage.links) (steps : Nat) :
    lineage.climb start (steps + 1) (some id) = (lineage.climb start steps next).map (id :: ·) := by
  rw [climb, parent?_eq_some.2 hlink]

theorem climb_way (h : Way lineage.links top id ids) (steps : Nat) :
    lineage.climb start (steps + ids.length) (some id) =
      (lineage.climb start steps (some top)).map (ids ++ ·) := by
  induction h with
  | last hlink => exact climb_link hlink steps
  | step hlink _ ih =>
      rw [List.length_cons, ← Nat.add_assoc, climb_link hlink, ih]
      cases lineage.climb start steps (some top) <;> rfl

/-- A climb to an id that is not there fails with the id, if it may take one more step. -/
theorem climb_missing (h : id ∉ keys lineage.links) (steps : Nat) :
    lineage.climb start (steps + 1) (some id) = .error (.notFound id) := by
  have hnone : lineage.parent? id = none := by
    cases hparent : lineage.parent? id with
    | none => rfl
    | some next => exact absurd (mem_keys_of_mem (parent?_eq_some.1 hparent)) h
  rw [climb, hnone]

/-- No climb comes out of a way that leads back to one of its ids. -/
theorem climb_repeats (h : Way lineage.links top start ids) (htop : top ∈ ids) (hmem : id ∈ ids)
    (steps : Nat) : lineage.climb parent steps (some id) = .error (.corrupt parent) := by
  induction steps generalizing id with
  | zero => rfl
  | succ steps ih =>
      obtain ⟨up, hlink, hnext⟩ := h.link_of_mem hmem
      have hup : up ∈ ids := hnext.elim (fun hend => hend ▸ htop) fun hway => hway
      rw [climb_link hlink, ih hup]
      rfl

/-- The ancestors of an id are looked up by the climb from it, less its first step. -/
theorem ancestors_eq_error (hknown : start ∈ keys lineage.links) {error : DeskError}
    (h : lineage.climb start (lineage.size + 1) (some start) = .error error) :
    lineage.ancestors start = .error error := by
  obtain ⟨next, hlink⟩ := exists_of_mem_keys hknown
  have hfound : lineage.ancestors start = lineage.climb start lineage.size next := by
    rw [ancestors, parent?_eq_some.2 hlink]
  rw [climb_link hlink, ← hfound] at h
  cases hall : lineage.ancestors start with
  | error _ =>
      rw [hall] at h
      exact h
  | ok _ =>
      rw [hall] at h
      cases h

/-- A way through different ids is climbed to its end, if the ancestors of its first id are looked
up. -/
theorem ancestors_of_way (h : Way lineage.links top start ids) (hnodup : ids.Nodup)
    {error : DeskError}
    (herror : ∀ steps, lineage.climb start (steps + 1) (some top) = .error error) :
    lineage.ancestors start = .error error := by
  obtain ⟨steps, hsteps⟩ := Nat.exists_eq_add_of_le' (h.length_le hnodup)
  have hsize : lineage.size + 1 = steps + 1 + ids.length := by
    rw [size, hsteps]
    omega
  refine ancestors_eq_error h.mem_keys ?_
  rw [hsize, climb_way h, herror]
  rfl

/-- A walk upwards ends, and its end is what is answered. -/
theorem ancestors_of_trail (h : Trail lineage.links id ids ending) :
    lineage.ancestors id = (ending.verdict id).map fun _ => ids.tail := by
  cases h with
  | root hchain => exact ancestors_iff.2 hchain
  | leaves hnodup hway hmissing => exact ancestors_of_way hway hnodup (climb_missing hmissing)
  | repeats hnodup hway hagain =>
      exact ancestors_of_way hway hnodup fun steps => climb_repeats hway hagain hagain (steps + 1)

/-! ### The answer of the check -/

theorem checkAcyclic_known (hknown : parent ∈ keys lineage.links) (hne : parent ≠ child) :
    lineage.checkAcyclic child (some parent) =
      lineage.ancestors parent >>= fun above =>
        if child ∈ above then .error (.circular child) else .ok () := by
  obtain ⟨next, hlink⟩ := exists_of_mem_keys hknown
  have hcontains : lineage.contains parent = true := by
    rw [contains, parent?_eq_some.2 hlink]
    rfl
  rw [checkAcyclic, if_neg hne, if_pos hcontains]

/-- What would be answered if the child were looked for on the way. -/
def verdictOnTheWay (child parent : Uuid) (ids : List Uuid) (ending : Ending) :
    Except DeskError Unit :=
  if child ∈ ids then .error (.circular child) else ending.verdict parent

theorem checkAcyclic_of_trail (h : Trail lineage.links parent ids ending) :
    lineage.checkAcyclic child (some parent) =
      if parent = child ∨ (child ∈ ids ∧ ending = .root) then .error (.circular child)
      else ending.verdict parent := by
  by_cases hself : parent = child
  · rw [if_pos (Or.inl hself), checkAcyclic, if_pos hself]
  rw [checkAcyclic_known h.mem_keys hself, ancestors_of_trail h]
  cases h with
  | @root above hchain =>
      have hmem : child ∈ parent :: above ↔ child ∈ above := by simp [Ne.symm hself]
      simp only [hself, hmem, false_or, and_true]
      rfl
  | leaves _ _ _ | repeats _ _ _ =>
      rw [if_neg (by simp [hself])]
      rfl

/-- The answer about a known parent, and when it is the one that looks for the child on the way: just
if the child is not met at all, is the parent itself, or is met on a walk that ends at a root. -/
theorem circular_is_named_iff (lineage : Lineage) (child : Uuid)
    (hknown : parent ∈ keys lineage.links) :
    (∃ ids ending, Trail lineage.links parent ids ending) ∧
    ∀ ids ending, Trail lineage.links parent ids ending →
      (lineage.checkAcyclic child (some parent) =
        if parent = child ∨ (child ∈ ids ∧ ending = .root) then .error (.circular child)
        else ending.verdict parent) ∧
      (lineage.checkAcyclic child (some parent) = verdictOnTheWay child parent ids ending ↔
        (child ∈ ids → parent = child ∨ ending = .root)) := by
  refine ⟨exists_trail hknown, fun ids ending h => ⟨checkAcyclic_of_trail h, ?_⟩⟩
  rw [checkAcyclic_of_trail h, verdictOnTheWay]
  by_cases hmet : child ∈ ids
  · by_cases hnamed : parent = child ∨ ending = .root
    · simp [hmet, hnamed]
    · obtain ⟨hself, hroot⟩ := not_or.1 hnamed
      cases ending with
      | root => exact absurd rfl hroot
      | leaves missing => simp [hmet, hself, Ending.verdict]
      | repeats => simp [hmet, hself, Ending.verdict]
  · have hself : parent ≠ child := by
      rintro rfl
      exact hmet h.start_mem
    simp [hmet, hself]

/-- Two ids of which the upper one has a dangling parent, and two ids in a circle. -/
def frayed : Lineage :=
  let id (number : Fin 16) : Uuid := ⟨number, by omega⟩
  { links := [(id 1, some (id 9)), (id 2, some (id 1)), (id 3, some (id 4)), (id 4, some (id 3))]
    nodup := by decide }

theorem trail_frayed :
    Trail frayed.links ⟨2, by decide⟩ [⟨2, by decide⟩, ⟨1, by decide⟩] (.leaves ⟨9, by decide⟩) :=
  .leaves (by decide) (.step (by decide) (.last (by decide))) (by decide)

theorem trail_frayed_circle :
    Trail frayed.links ⟨4, by decide⟩ [⟨4, by decide⟩, ⟨3, by decide⟩] .repeats :=
  .repeats (by decide) (.step (by decide) (.last (by decide))) List.mem_cons_self

/-- An id of the circle is not met by the walk from the dangling pair, which leaves the links. -/
theorem circular_is_named_iff_frayed :
    (⟨2, by decide⟩ : Uuid) ∈ keys frayed.links ∧
    frayed.checkAcyclic ⟨3, by decide⟩ (some ⟨2, by decide⟩) = .error (.notFound ⟨9, by decide⟩) := by
  have hknown : (⟨2, by decide⟩ : Uuid) ∈ keys frayed.links := by decide
  have hanswer := ((circular_is_named_iff frayed ⟨3, by decide⟩ hknown).2 _ _ trail_frayed).1
  exact ⟨hknown, hanswer⟩

/-- Hanging the upper id of a pair below the lower one closes a circle, but the missing id above or
the circle that is there already is blamed. -/
theorem circular_goes_unnamed :
    (Trail frayed.links ⟨2, by decide⟩ [⟨2, by decide⟩, ⟨1, by decide⟩] (.leaves ⟨9, by decide⟩) ∧
      frayed.checkAcyclic ⟨1, by decide⟩ (some ⟨2, by decide⟩) =
        .error (.notFound ⟨9, by decide⟩)) ∧
    (Trail frayed.links ⟨4, by decide⟩ [⟨4, by decide⟩, ⟨3, by decide⟩] .repeats ∧
      frayed.checkAcyclic ⟨3, by decide⟩ (some ⟨4, by decide⟩) =
        .error (.corrupt ⟨4, by decide⟩)) ∧
    ¬∀ (lineage : Lineage) (child parent : Uuid) (ids : List Uuid) (ending : Ending),
      Trail lineage.links parent ids ending →
      lineage.checkAcyclic child (some parent) = verdictOnTheWay child parent ids ending := by
  refine ⟨⟨trail_frayed, rfl⟩, ⟨trail_frayed_circle, rfl⟩, fun hall => ?_⟩
  have hfound : frayed.checkAcyclic ⟨1, by decide⟩ (some ⟨2, by decide⟩) =
      verdictOnTheWay ⟨1, by decide⟩ ⟨2, by decide⟩ [⟨2, by decide⟩, ⟨1, by decide⟩]
        (.leaves ⟨9, by decide⟩) := hall frayed _ _ _ _ trail_frayed
  cases hfound

end ServiceDesk.Lineage
