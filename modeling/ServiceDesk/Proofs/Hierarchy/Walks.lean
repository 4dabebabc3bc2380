import ServiceDesk.Proofs.Hierarchy.Views

/-!
What the walk from an entity to its root asks and tells, for any way to find entities. An ascent
goes from an entity to its parent again and again, a course is an ascent on which no id comes twice,
led on to where it has to stop. Every walk has exactly one course, and the course says which ids are
looked up and what is answered.
-/

namespace ServiceDesk.Walk

open Hierarchy

variable {ε α : Type} [Nested α]

/-- From an entity up to another one: the ids that are looked up on the way, each the parent of the
entity before it, with what is found. -/
inductive Ascent (find : Uuid → Except ε α) : α → List (Uuid × α) → α → Prop
  | here (entity : α) : Ascent find entity [] entity
  | step {entity next top id calls} (hparent : Nested.parentId entity = some id)
      (hfound : find id = .ok next) (hrest : Ascent find next calls top) :
      Ascent find entity ((id, next) :: calls) top

inductive Stop (ε : Type) where
  /-- There is no parent. -/
  | root
  /-- The parent cannot be looked up. -/
  | failed (id : Uuid) (fault : ε)
  /-- The parent has been met before. -/
  | looped (id : Uuid)
  deriving DecidableEq, Repr

namespace Stop

/-- The ids that are looked up without success. -/
def asked : Stop ε → List Uuid
  | failed id _ => [id]
  | root | looped _ => []

/-- What is told of a walk through the given entities, the nearest first. -/
def answer (met : List α) : Stop ε → Except (PathFault ε) String
  | root => .ok (delimiter.intercalate (met.reverse.map Nested.name))
  | failed _ fault => .error (.failed fault)
  | looped id => .error (.looped id)

end Stop

def metIds (start : α) (calls : List (Uuid × α)) : List Uuid :=
  Nested.id start :: calls.map Prod.fst

theorem metIds_concat (start : α) (calls : List (Uuid × α)) (call : Uuid × α) :
    metIds start (calls ++ [call]) = (metIds start calls).concat call.1 := by
  simp [metIds]

def metEntities (start : α) (calls : List (Uuid × α)) : List α :=
  start :: calls.map Prod.snd

/-- An ascent on which no id comes twice, to where it stops. -/
inductive Course (find : Uuid → Except ε α) (start : α) : List (Uuid × α) → Stop ε → Prop
  | root {calls top} (hascent : Ascent find start calls top) (hfresh : (metIds start calls).Nodup)
      (hroot : Nested.parentId top = none) : Course find start calls .root
  | failed {calls top id fault} (hascent : Ascent find start calls top)
      (hfresh : (metIds start calls).Nodup) (hparent : Nested.parentId top = some id)
      (hnew : id ∉ metIds start calls) (hfault : find id = .error fault) :
      Course find start calls (.failed id fault)
  | looped {calls top id} (hascent : Ascent find start calls top)
      (hfresh : (metIds start calls).Nodup) (hparent : Nested.parentId top = some id)
      (hmet : id ∈ metIds start calls) : Course find start calls (.looped id)

/-! ### Ascents -/

namespace Ascent

variable {find : Uuid → Except ε α} {start top next : α} {id : Uuid} {calls : List (Uuid × α)}

theorem snoc (h : Ascent find start calls top) (hparent : Nested.parentId top = some id)
    (hfound : find id = .ok next) : Ascent find start (calls ++ [(id, next)]) next := by
  induction h with
  | here entity => exact .step hparent hfound (.here next)
  | step hfirst hanswer _ ih => exact .step hfirst hanswer (ih hparent)

theorem found (h : Ascent find start calls top) :
    ∀ call ∈ calls, find call.1 = .ok call.2 := by
  induction h with
  | here entity => exact fun _ hmem => nomatch hmem
  | step _ hfound _ ih => exact List.forall_mem_cons.2 ⟨hfound, ih⟩

/-- The ids of the calls are the parents of the entities met, up to the one before the last. -/
theorem parents (h : Ascent find start calls top) :
    (metEntities start calls).filterMap Nested.parentId =
      calls.map Prod.fst ++ (Nested.parentId top).toList := by
  induction h with
  | here entity => cases hparent : Nested.parentId entity <;> simp [metEntities, hparent]
  | step hparent _ _ ih =>
      rw [metEntities, List.map_cons, List.filterMap_cons_some hparent, ← metEntities, ih]
      rfl

end Ascent

/-! ### The walk along an ascent -/

variable {lookup : Lookup ε α} {start top : α} {calls : List (Uuid × α)}

/-- A climb goes along an ascent through new ids, and on from its end. -/
theorem climb_ascent (h : Ascent lookup.find start calls top) {seen : List Uuid}
    (hnodup : (calls.map Prod.fst).Nodup) (hnew : ∀ id ∈ calls.map Prod.fst, id ∉ seen)
    (names : List String) :
    let rest := climb lookup ((calls.map Prod.fst).reverse ++ seen)
      ((calls.map fun call => Nested.name call.2).reverse ++ names) (Nested.parentId top)
    climb lookup seen names (Nested.parentId start) =
      ⟨calls.map Prod.fst ++ rest.asked, rest.names⟩ := by
  induction h generalizing seen names with
  | here entity => rfl
  | @step entity next top id calls hparent hfound _ ih =>
      obtain ⟨hfirst, hnodup⟩ := List.nodup_cons.1 hnodup
      have hfresh := hnew id List.mem_cons_self
      -- The later ids are new with respect to this one as well.
      have hlater : ∀ other ∈ calls.map Prod.fst, other ∉ id :: seen := by
        intro other hmem
        refine List.not_mem_cons_of_ne_of_not_mem ?_ (hnew other (List.mem_cons_of_mem id hmem))
        rintro rfl
        exact hfirst hmem
      rw [hparent, climb_found names hfresh hfound, ih hnodup hlater]
      simp

theorem ofEntity_ascent (h : Ascent lookup.find start calls top)
    (hfresh : (metIds start calls).Nodup) :
    let rest := climb lookup (metIds start calls).reverse
      ((metEntities start calls).reverse.map Nested.name) (Nested.parentId top)
    ofEntity lookup start = ⟨calls.map Prod.fst ++ rest.asked, rest.names⟩ := by
  obtain ⟨hstart, hnodup⟩ := List.nodup_cons.1 hfresh
  have hnew : ∀ id ∈ calls.map Prod.fst, id ∉ [Nested.id start] := by
    intro id hmem hself
    cases List.mem_singleton.1 hself
    exact hstart hmem
  rw [ofEntity, climb_ascent h hnodup hnew]
  simp [metIds, metEntities, List.map_reverse, Function.comp_def]

/-- A course tells what the walk asks and what it answers. -/
theorem ofEntity_course {stop : Stop ε} (h : Course lookup.find start calls stop) :
    (ofEntity lookup start).asked = calls.map Prod.fst ++ stop.asked ∧
    (Nested.id start :: (ofEntity lookup start).asked).Nodup ∧
    (ofEntity lookup start).path = stop.answer (metEntities start calls) := by
  cases h with
  | root hascent hfresh hroot =>
      rw [path, ofEntity_ascent hascent hfresh, hroot, climb_none, List.append_nil]
      exact ⟨(List.append_nil _).symm, hfresh, rfl⟩
  | failed hascent hfresh hparent hnew hfault =>
      rw [path, ofEntity_ascent hascent hfresh, hparent,
        climb_failed _ (mt List.mem_reverse.1 hnew) hfault]
      refine ⟨rfl, ?_, rfl⟩
      rw [← List.cons_append, ← List.concat_eq_append]
      exact hfresh.concat hnew
  | looped hascent hfresh hparent hmet =>
      rw [path, ofEntity_ascent hascent hfresh, hparent,
        climb_seen _ (List.mem_reverse.2 hmet), List.append_nil]
      exact ⟨(List.append_nil _).symm, hfresh, rfl⟩

/-! ### Every walk has a course -/

theorem Ascent.length_le (h : Ascent lookup.find start calls top)
    (hfresh : (metIds start calls).Nodup) : calls.length ≤ lookup.support.length := by
  have hknown : calls.map Prod.fst ⊆ lookup.support := by
    intro id hmem
    obtain ⟨call, hcall, rfl⟩ := List.mem_map.1 hmem
    exact lookup.mem_support (h.found call hcall)
  simpa using (List.subperm_of_subset hfresh.of_cons hknown).length_le

/-- An ascent through new ids can be led on to where it stops, since the ids that can be found and
are not on it become fewer. -/
theorem Ascent.exists_course {top : α} {calls : List (Uuid × α)}
    (h : Ascent lookup.find start calls top) (hfresh : (metIds start calls).Nodup) :
    ∃ all stop, Course lookup.find start all stop := by
  cases hparent : Nested.parentId top with
  | none => exact ⟨calls, .root, .root h hfresh hparent⟩
  | some id =>
      by_cases hmet : id ∈ metIds start calls
      · exact ⟨calls, .looped id, .looped h hfresh hparent hmet⟩
      cases hfound : lookup.find id with
      | error fault => exact ⟨calls, .failed id fault, .failed h hfresh hparent hmet hfound⟩
      | ok next =>
          have hlonger : (metIds start (calls ++ [(id, next)])).Nodup := by
            rw [metIds_concat]
            exact hfresh.concat hmet
          have hroom : calls.length + 1 ≤ lookup.support.length := by
            simpa using (h.snoc hparent hfound).length_le hlonger
          exact (h.snoc hparent hfound).exists_course hlonger
  termination_by lookup.support.length - calls.length
  decreasing_by
    rw [List.length_append, List.length_singleton]
    omega

theorem exists_course (lookup : Lookup ε α) (start : α) :
    ∃ calls stop, Course lookup.find start calls stop :=
  (Ascent.here start).exists_course (List.nodup_singleton (Nested.id start))

omit [Nested α] in
/-- There are finitely many ids, so any function finds entities for a finite list of them only. -/
theorem exists_lookup (find : Uuid → Except ε α) : ∃ lookup : Lookup ε α, lookup.find = find := by
  let ids : List Uuid := List.ofFn fun value : Fin 0x100000000000000000000000000000000 =>
    ⟨value, value.isLt⟩
  exact ⟨⟨find, ids, fun {id _} _ => List.mem_ofFn.2 ⟨⟨id.value, id.value_lt⟩, rfl⟩⟩, rfl⟩

theorem mem_of_find {missing : Uuid → ε} {items : List α} {id : Uuid} {item : α}
    (h : (Lookup.ofItems missing items).find id = .ok item) : item ∈ items := by
  simp only [Lookup.ofItems] at h
  split at h
  · rename_i found hfound
    cases h
    exact List.mem_reverse.1 (List.mem_of_find?_eq_some hfound)
  · cases h

/-! ### The answers of a walk -/

/-- Every id that is looked up is the parent of an entity met before. -/
theorem Course.asked_subset {find : Uuid → Except ε α} {stop : Stop ε}
    (h : Course find start calls stop) :
    calls.map Prod.fst ++ stop.asked ⊆ (metEntities start calls).filterMap Nested.parentId := by
  cases h with
  | root hascent _ _ | looped hascent _ _ _ =>
      rw [hascent.parents, Stop.asked, List.append_nil]
      exact List.subset_append_left _ _
  | failed hascent _ hparent _ _ =>
      rw [hascent.parents, hparent]
      exact List.Subset.refl _

theorem Course.found {find : Uuid → Except ε α} {stop : Stop ε} (h : Course find start calls stop) :
    ∀ call ∈ calls, find call.1 = .ok call.2 := by
  cases h with
  | root hascent _ _ | looped hascent _ _ _ | failed hascent _ _ _ _ => exact hascent.found

/-- A walk asks for one id more than there are entities to be found, at most. -/
theorem asked_length_le {entities : List α}
    (hfinite : ∀ id entity, lookup.find id = .ok entity → entity ∈ entities) :
    (ofEntity lookup start).asked.length ≤ entities.length + 1 := by
  obtain ⟨calls, stop, hcourse⟩ := exists_course lookup start
  obtain ⟨hasked, hnodup, _⟩ := ofEntity_course hcourse
  have hmet : metEntities start calls ⊆ start :: entities := by
    refine List.cons_subset_cons start fun entity hmem => ?_
    obtain ⟨call, hcall, rfl⟩ := List.mem_map.1 hmem
    exact hfinite _ _ (hcourse.found call hcall)
  have hsubset : (ofEntity lookup start).asked ⊆
      (start :: entities).filterMap Nested.parentId := by
    rw [hasked]
    exact List.Subset.trans hcourse.asked_subset (List.filterMap_subset _ hmet)
  calc (ofEntity lookup start).asked.length
    _ ≤ ((start :: entities).filterMap Nested.parentId).length :=
      (List.subperm_of_subset hnodup.of_cons hsubset).length_le
    _ ≤ (start :: entities).length := List.length_filterMap_le _ _

/-- The walk from an entity looks its parent up, then the parent of each entity found, no id twice
and never its own. It tells the names from the root down if it comes to an entity without a parent,
the fault of the first look-up that fails, or the first id that it would have to look up again. Any
function from ids to entities can be the way to look them up. -/
theorem path_is_exact :
    (∀ find : Uuid → Except ε α, ∃ lookup : Lookup ε α, lookup.find = find) ∧
    ∀ (lookup : Lookup ε α) (start : α),
      let walk := ofEntity lookup start
      (∃ calls stop, Course lookup.find start calls stop) ∧
      (∀ calls stop, Course lookup.find start calls stop →
        walk.asked = calls.map Prod.fst ++ stop.asked ∧ (Nested.id start :: walk.asked).Nodup ∧
        walk.path = stop.answer (metEntities start calls)) ∧
      (∀ text, walk.path = .ok text ↔ ∃ calls, Course lookup.find start calls .root ∧
        text = delimiter.intercalate ((metEntities start calls).reverse.map Nested.name)) ∧
      (∀ fault, walk.path = .error (.failed fault) ↔
        ∃ calls id, Course lookup.find start calls (.failed id fault)) ∧
      (∀ id, walk.path = .error (.looped id) ↔ ∃ calls, Course lookup.find start calls (.looped id)) ∧
      ∀ entities : List α, (∀ id entity, lookup.find id = .ok entity → entity ∈ entities) →
        walk.asked.length ≤ entities.length + 1 := by
  refine ⟨exists_lookup, fun lookup start => ?_⟩
  obtain ⟨calls, stop, hcourse⟩ := exists_course lookup start
  have htold {calls stop} (h : Course lookup.find start calls stop) :
      (ofEntity lookup start).path = stop.answer (metEntities start calls) :=
    (ofEntity_course h).2.2
  refine ⟨⟨calls, stop, hcourse⟩, fun _ _ => ofEntity_course, fun text => ⟨fun h => ?_, ?_⟩,
    fun fault => ⟨fun h => ?_, ?_⟩, fun id => ⟨fun h => ?_, ?_⟩, fun _ => asked_length_le⟩
  · cases stop with
    | root => exact ⟨calls, hcourse, Except.ok.inj (h.symm.trans (htold hcourse))⟩
    | failed _ _ | looped _ => cases h.symm.trans (htold hcourse)
  · rintro ⟨calls, hroot, rfl⟩
    exact htold hroot
  · cases stop with
    | failed id _ =>
        cases h.symm.trans (htold hcourse)
        exact ⟨calls, id, hcourse⟩
    | root | looped _ => cases h.symm.trans (htold hcourse)
  · rintro ⟨calls, id, hfailed⟩
    exact htold hfailed
  · cases stop with
    | looped _ =>
        cases h.symm.trans (htold hcourse)
        exact ⟨calls, hcourse⟩
    | root | failed _ _ => cases h.symm.trans (htold hcourse)
  · rintro ⟨calls, hlooped⟩
    exact htold hlooped

/-- The two offices, each below the other. -/
def circle : List Organization :=
  [Tree.offices[0], { Tree.offices[1] with parentId := some Tree.offices[0].id }]

def annex : Organization := { Tree.offices[0] with id := .nil, name := "Annex" }

/-- A walk to the head office, and one that comes into the circle. -/
theorem path_is_exact_offices :
    (Course (Lookup.ofItems DeskError.notFound Tree.offices).find Tree.offices[0]
        [(⟨1, by decide⟩, Tree.offices[1])] .root ∧
      (ofEntity (Lookup.ofItems DeskError.notFound Tree.offices) Tree.offices[0]).path =
        .ok "Head / Branch") ∧
    (Course (Lookup.ofItems DeskError.notFound circle).find annex
        [(⟨1, by decide⟩, circle[1]), (⟨2, by decide⟩, circle[0])] (.looped ⟨1, by decide⟩) ∧
      (ofEntity (Lookup.ofItems DeskError.notFound circle) annex).asked =
        [⟨1, by decide⟩, ⟨2, by decide⟩] ∧
      (ofEntity (Lookup.ofItems DeskError.notFound circle) annex).path =
        .error (.looped ⟨1, by decide⟩)) ∧
    (∀ id entity, (Lookup.ofItems DeskError.notFound circle).find id = .ok entity →
        entity ∈ circle) ∧
    (ofEntity (Lookup.ofItems DeskError.notFound circle) annex).asked.length ≤ 3 := by
  have hoffices : Course (Lookup.ofItems DeskError.notFound Tree.offices).find Tree.offices[0]
      [(⟨1, by decide⟩, Tree.offices[1])] .root :=
    .root (.step rfl rfl (.here _)) (by decide) rfl
  have hcircle : Course (Lookup.ofItems DeskError.notFound circle).find annex
      [(⟨1, by decide⟩, circle[1]), (⟨2, by decide⟩, circle[0])] (.looped ⟨1, by decide⟩) :=
    .looped (.step rfl rfl (.step rfl rfl (.here _))) (by decide) rfl (by decide)
  have hfinite : ∀ id entity, (Lookup.ofItems DeskError.notFound circle).find id = .ok entity →
      entity ∈ circle := fun _ _ => mem_of_find
  obtain ⟨_, htold, _⟩ := path_is_exact.2 (Lookup.ofItems DeskError.notFound Tree.offices)
    Tree.offices[0]
  obtain ⟨_, hlooped, _, _, _, hbound⟩ :=
    path_is_exact.2 (Lookup.ofItems DeskError.notFound circle) annex
  exact ⟨⟨hoffices, (htold _ _ hoffices).2.2⟩,
    ⟨hcircle, (hlooped _ _ hcircle).1, (hlooped _ _ hcircle).2.2⟩, hfinite, hbound circle hfinite⟩

end ServiceDesk.Walk
