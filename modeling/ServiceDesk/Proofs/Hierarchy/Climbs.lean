import Mathlib.Data.List.Dedup
import Mathlib.Data.List.Induction
import ServiceDesk.Proofs.Hierarchy.Verdicts
import ServiceDesk.Proofs.Hierarchy.Views

/-!
What the climb to the ancestors of an id answers, for every flat list. The links are those of the
last entity with each id, and the climb may take as many steps as there are links. That is enough to
tell three cases apart: the parents above the id end at a root, one of them is not there, or they
run into a circle. A chain of different ids is never too long, since all of them but the missing one
have links, and no number of steps leads out of a circle.
-/

namespace ServiceDesk.Hierarchy

variable {links : Links} {id top start : Uuid} {above ids : List Uuid}

/-! ### What lies above an id -/

theorem exists_way (h : Ancestor links id top) : ∃ ids, Way links top id ids := by
  induction h with
  | parent hlink => exact ⟨_, .last hlink⟩
  | above hlink _ ih =>
      obtain ⟨ids, hway⟩ := ih
      exact ⟨_, .step hlink hway⟩

theorem Ancestor.mem_keys (h : Ancestor links id top) : id ∈ keys links := by
  obtain ⟨ids, hway⟩ := exists_way h
  exact hway.mem_keys

theorem Chain.ancestor_of_mem (h : Chain links id above) {upper : Uuid} (hmem : upper ∈ above) :
    Ancestor links id upper := by
  induction h with
  | root _ => cases hmem
  | parent hlink _ ih =>
      rcases List.mem_cons.1 hmem with rfl | hmem
      · exact .parent hlink
      · exact .above hlink (ih hmem)

/-- The ids of a chain are different from each other, since each has a level of its own. -/
theorem Chain.nodup (hnodup : (keys links).Nodup) (h : Chain links id above) :
    (id :: above).Nodup := by
  induction h with
  | root _ => exact List.nodup_singleton _
  | parent hlink habove ih =>
      have hchain : Chain links _ _ := .parent hlink habove
      refine List.nodup_cons.2 ⟨fun hmem => ?_, ih⟩
      exact hchain.level.not_ancestor_self hnodup (hchain.ancestor_of_mem hmem)

/-- Ids of which every parent is one of them have nothing else above them. -/
theorem Ancestor.mem_of_closed (hclosed : ∀ id ∈ ids, ∀ up, (id, some up) ∈ links → up ∈ ids)
    (h : Ancestor links id top) (hmem : id ∈ ids) : top ∈ ids := by
  induction h with
  | parent hlink => exact hclosed _ hmem _ hlink
  | above hlink _ ih => exact ih (hclosed _ hmem _ hlink)

/-- Above the first id of a way that leads out of the links, nothing but the end of the way is
unknown. -/
theorem Way.eq_of_unknown (hnodup : (keys links).Nodup) (h : Way links top start ids)
    (htop : top ∉ keys links) (habove : Ancestor links start id) (hunknown : id ∉ keys links) :
    id = top := by
  have hclosed : ∀ other ∈ top :: ids, ∀ up, (other, some up) ∈ links → up ∈ top :: ids := by
    intro other hmem up hlink
    rcases List.mem_cons.1 hmem with rfl | hmem
    · exact absurd (mem_keys_of_mem hlink) htop
    · obtain ⟨next, hnext, hup⟩ := h.link_of_mem hmem
      cases link_unique hnodup hlink hnext
      exact List.mem_cons.2 hup
  have hend := habove.mem_of_closed hclosed (List.mem_cons_of_mem top h.start_mem)
  refine (List.mem_cons.1 hend).resolve_right fun hmem => ?_
  obtain ⟨up, hlink, _⟩ := h.link_of_mem hmem
  exact hunknown (mem_keys_of_mem hlink)

/-- Above an id of a way that comes back to one of its ids, everything is known. -/
theorem Way.mem_keys_of_repeat (hnodup : (keys links).Nodup) (h : Way links top start ids)
    (htop : top ∈ ids) (habove : Ancestor links start id) : id ∈ keys links := by
  have hclosed : ∀ other ∈ ids, ∀ up, (other, some up) ∈ links → up ∈ ids := by
    intro other hmem up hlink
    obtain ⟨next, hnext, hup⟩ := h.link_of_mem hmem
    cases link_unique hnodup hlink hnext
    exact hup.elim (fun hend => hend ▸ htop) fun hway => hway
  obtain ⟨up, hlink, _⟩ := h.link_of_mem (habove.mem_of_closed hclosed h.start_mem)
  exact mem_keys_of_mem hlink

/-- A walk upwards leaves the links just if an unknown id is above, and it ends with this id. -/
theorem Trail.leaves_iff (hnodup : (keys links).Nodup) {ending : Ending}
    (h : Trail links start ids ending) {missing : Uuid} :
    ending = .leaves missing ↔ missing ∉ keys links ∧ Ancestor links start missing := by
  cases h with
  | root hchain =>
      refine ⟨fun hend => (nomatch hend), fun ⟨hout, habove⟩ => ?_⟩
      obtain ⟨_, _, hlevel⟩ := hchain.level.of_ancestor hnodup habove
      exact absurd hlevel.mem_keys hout
  | leaves _ hway hgone =>
      constructor
      · rintro ⟨⟩
        exact ⟨hgone, hway.ancestor_of_mem hway.start_mem⟩
      · rintro ⟨hout, habove⟩
        rw [hway.eq_of_unknown hnodup hgone habove hout]
  | repeats _ hway hagain =>
      refine ⟨fun hend => (nomatch hend), fun ⟨hout, habove⟩ => ?_⟩
      exact absurd (hway.mem_keys_of_repeat hnodup hagain habove) hout

end ServiceDesk.Hierarchy

namespace ServiceDesk.Lineage

open Hierarchy

variable {lineage : Lineage} {id start missing blamed circling : Uuid} {above : List Uuid}

/-! ### The three answers -/

theorem ancestors_of_unknown (h : id ∉ keys lineage.links) :
    lineage.ancestors id = .error (.notFound id) := by
  rw [ancestors]
  split
  · rfl
  · rename_i next hnext
    exact absurd (mem_keys_of_mem (parent?_eq_some.1 hnext)) h

/-- No climb that comes into a circle ends, whatever number of steps it may take. -/
theorem climb_into_circle (hcircle : Ancestor lineage.links circling circling)
    (hunder : Under lineage.links circling id) (steps : Nat) :
    lineage.climb start steps (some id) = .error (.corrupt start) := by
  obtain ⟨far, hbelow⟩ := hunder
  induction hbelow generalizing steps with
  | top =>
      obtain ⟨ids, hway⟩ := exists_way hcircle
      exact climb_repeats hway hway.start_mem hway.start_mem steps
  | step _ hlink _ ih =>
      cases steps with
      | zero => rfl
      | succ steps =>
          rw [climb_link hlink, ih]
          rfl

theorem ancestors_eq_notFound_iff : lineage.ancestors id = .error (.notFound missing) ↔
    missing ∉ keys lineage.links ∧ (missing = id ∨ Ancestor lineage.links id missing) := by
  by_cases hknown : id ∈ keys lineage.links
  · obtain ⟨ids, ending, htrail⟩ := exists_trail hknown
    have hleaves : ending = .leaves missing ↔ _ := htrail.leaves_iff lineage.nodup
    rw [ancestors_of_trail htrail]
    constructor
    · intro h
      have hend : ending = .leaves missing := by
        cases ending <;> cases h
        rfl
      exact ⟨(hleaves.1 hend).1, Or.inr (hleaves.1 hend).2⟩
    · rintro ⟨hout, rfl | habove⟩
      · exact absurd hknown hout
      · rw [hleaves.2 ⟨hout, habove⟩]
        rfl
  · rw [ancestors_of_unknown hknown]
    constructor
    · rintro ⟨⟩
      exact ⟨hknown, Or.inl rfl⟩
    · rintro ⟨_, rfl | habove⟩
      · rfl
      · exact absurd habove.mem_keys hknown

theorem ancestors_eq_corrupt_iff : lineage.ancestors id = .error (.corrupt blamed) ↔
    blamed = id ∧ ∃ circling, Under lineage.links circling id ∧
      Ancestor lineage.links circling circling := by
  constructor
  · intro h
    by_cases hknown : id ∈ keys lineage.links
    · obtain ⟨ids, ending, htrail⟩ := exists_trail hknown
      rw [ancestors_of_trail htrail] at h
      cases htrail with
      | root _ | leaves _ _ _ => cases h
      | @repeats again _ _ hway hagain =>
          cases h
          exact ⟨rfl, again, Under.of_ancestor (hway.ancestor_of_mem hway.start_mem),
            hway.ancestor_of_mem hagain⟩
    · rw [ancestors_of_unknown hknown] at h
      cases h
  · rintro ⟨rfl, circling, hunder, hcircle⟩
    exact ancestors_eq_error (hunder.mem_keys hcircle.mem_keys)
      (climb_into_circle hcircle hunder _)

theorem ancestors_eq_ok_iff : lineage.ancestors id = .ok above ↔
    Chain lineage.links id above ∧ (id :: above).Nodup ∧ above.length + 1 ≤ lineage.size := by
  rw [ancestors_iff]
  refine ⟨fun hchain => ⟨hchain, hchain.nodup lineage.nodup, ?_⟩, And.left⟩
  exact hchain.level.le_length lineage.nodup

theorem ancestors_cases (lineage : Lineage) (id : Uuid) :
    (∃ above, lineage.ancestors id = .ok above) ∨
    (∃ missing, lineage.ancestors id = .error (.notFound missing)) ∨
    lineage.ancestors id = .error (.corrupt id) := by
  by_cases hknown : id ∈ keys lineage.links
  · obtain ⟨ids, ending, htrail⟩ := exists_trail hknown
    rw [ancestors_of_trail htrail]
    cases ending with
    | root => exact Or.inl ⟨_, rfl⟩
    | leaves missing => exact Or.inr (Or.inl ⟨missing, rfl⟩)
    | repeats => exact Or.inr (Or.inr rfl)
  · exact Or.inr (Or.inl ⟨id, ancestors_of_unknown hknown⟩)

/-! ### The links of a list with repeated ids -/

section Items

variable {α : Type} [Nested α] {items : List α} {parentId : Option Uuid}

/-- The last entity with an id has the given parent. -/
def LastLink (items : List α) (id : Uuid) (parentId : Option Uuid) : Prop :=
  ∃ before item after, items = before ++ item :: after ∧ id ∉ after.map Nested.id ∧
    Nested.id item = id ∧ Nested.parentId item = parentId

theorem ofItems_concat (items : List α) (item : α) :
    ofItems (items ++ [item]) = (ofItems items).insert (Nested.id item) (Nested.parentId item) := by
  rw [ofItems, ofItems, List.foldl_append]
  rfl

/-- An entity at the end of a list hides the earlier ones with its id. -/
theorem lastLink_concat {item : α} : LastLink (items ++ [item]) id parentId ↔
    (id = Nested.id item ∧ parentId = Nested.parentId item) ∨
      (id ≠ Nested.id item ∧ LastLink items id parentId) := by
  constructor
  · rintro ⟨before, last, after, hitems, hlater, hid, hparent⟩
    rcases List.eq_nil_or_concat after with rfl | ⟨after, final, rfl⟩
    · obtain ⟨rfl, hlast⟩ := List.append_inj' hitems rfl
      cases hlast
      exact Or.inl ⟨hid.symm, hparent.symm⟩
    · rw [List.concat_eq_append, ← List.cons_append, ← List.append_assoc] at hitems
      obtain ⟨rfl, hlast⟩ := List.append_inj' hitems rfl
      cases hlast
      rw [List.concat_eq_append, List.map_append, List.mem_append, not_or] at hlater
      exact Or.inr ⟨by simpa using hlater.2, before, last, after, rfl, hlater.1, hid, hparent⟩
  · rintro (⟨rfl, rfl⟩ | ⟨hne, before, last, after, rfl, hlater, hid, hparent⟩)
    · exact ⟨items, item, [], rfl, List.not_mem_nil, rfl, rfl⟩
    · refine ⟨before, last, after ++ [item], by simp, ?_, hid, hparent⟩
      rw [List.map_append, List.mem_append, not_or]
      exact ⟨hlater, by simpa using hne⟩

theorem mem_links_ofItems :
    (id, parentId) ∈ (ofItems items).links ↔ LastLink items id parentId := by
  induction items using List.reverseRecOn with
  | nil =>
      constructor
      · exact fun hmem => nomatch hmem
      · rintro ⟨before, item, after, hitems, _⟩
        cases before <;> cases hitems
  | append_singleton items item ih =>
      rw [ofItems_concat, lastLink_concat, ← ih]
      exact mem_relink

theorem mem_keys_ofItems : id ∈ keys (ofItems items).links ↔ id ∈ items.map Nested.id := by
  induction items using List.reverseRecOn with
  | nil => exact Iff.rfl
  | append_singleton items item ih =>
      rw [ofItems_concat, List.map_append, List.mem_append, ← ih, or_comm, List.map_singleton,
        List.mem_singleton]
      exact mem_keys_relink

theorem size_ofItems (items : List α) :
    (ofItems items).size = (items.map Nested.id).dedup.length := by
  have hperm : (keys (ofItems items).links).Perm (items.map Nested.id).dedup :=
    (List.perm_ext_iff_of_nodup (ofItems items).nodup (List.nodup_dedup _)).2 fun _ =>
      mem_keys_ofItems.trans List.mem_dedup.symm
  have hlength := hperm.length_eq
  rwa [keys, List.length_map] at hlength

/-- The links of a flat list are those of the last entity with each id. The ancestors of an id are
told just if the parents above it end at a root, and then they are different from each other and
fewer than the links. An id is missing just if it is not in the list and is the id itself or comes
above it, however long the way there is. The links are blamed just if the way upwards comes into a
circle. One of the three is the case. -/
theorem ancestors_classified (items : List α) (id : Uuid) :
    let lineage := ofItems items
    (∀ id parentId, (id, parentId) ∈ lineage.links ↔ LastLink items id parentId) ∧
    lineage.size = (items.map Nested.id).dedup.length ∧
    (∀ above, lineage.ancestors id = .ok above ↔
      Chain lineage.links id above ∧ (id :: above).Nodup ∧ above.length + 1 ≤ lineage.size) ∧
    (∀ missing, lineage.ancestors id = .error (.notFound missing) ↔
      missing ∉ items.map Nested.id ∧ (missing = id ∨ Ancestor lineage.links id missing)) ∧
    (∀ blamed, lineage.ancestors id = .error (.corrupt blamed) ↔
      blamed = id ∧ ∃ circling, Under lineage.links circling id ∧
        Ancestor lineage.links circling circling) ∧
    ((∃ above, lineage.ancestors id = .ok above) ∨
      (∃ missing, lineage.ancestors id = .error (.notFound missing)) ∨
      lineage.ancestors id = .error (.corrupt id)) := by
  refine ⟨fun _ _ => mem_links_ofItems, size_ofItems items, fun _ => ancestors_eq_ok_iff,
    fun missing => ?_, fun _ => ancestors_eq_corrupt_iff, ancestors_cases _ id⟩
  rw [ancestors_eq_notFound_iff, mem_keys_ofItems]

/-- A branch and its head office, which comes once more with a parent that is not in the list. -/
def rehung : List Organization :=
  Tree.offices ++
    (Tree.offices.drop 1).map fun head => { head with parentId := some ⟨9, by decide⟩ }

/-- The later entity counts, and the way from the branch passes every id before it leaves them. -/
theorem ancestors_classified_rehung :
    (ofItems rehung).size = 2 ∧
    Way (ofItems rehung).links ⟨9, by decide⟩ ⟨2, by decide⟩ [⟨2, by decide⟩, ⟨1, by decide⟩] ∧
    (ofItems rehung).ancestors ⟨2, by decide⟩ = .error (.notFound ⟨9, by decide⟩) := by
  have hway : Way (ofItems rehung).links ⟨9, by decide⟩ ⟨2, by decide⟩
      [⟨2, by decide⟩, ⟨1, by decide⟩] := .step (by decide) (.last (by decide))
  obtain ⟨_, hsize, _, hmissing, _⟩ := ancestors_classified rehung ⟨2, by decide⟩
  have hout : (⟨9, by decide⟩ : Uuid) ∉ rehung.map Nested.id := by decide
  exact ⟨hsize, hway, (hmissing _).2 ⟨hout, Or.inr (hway.ancestor_of_mem hway.start_mem)⟩⟩

end Items

end ServiceDesk.Lineage
