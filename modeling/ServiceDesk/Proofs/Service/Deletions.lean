import ServiceDesk.Proofs.Service.Schedules
import ServiceDesk.Proofs.Service.Writes

/-!
What becomes of a deleted row while other requests are at work. A save inserts a row that is not
there, so a request that has found a row before it was deleted brings it back when it saves. Nothing
else does: creations use new ids, and whoever looks for the row after its deletion gives up.
-/

namespace ServiceDesk

/-- Whether a table has a row with an id. -/
def Store.has (store : Store) (layout : Layout) (id : Uuid) : Bool :=
  match layout with
  | .organizations => (store.findOrganization? id).isSome
  | .categories => (store.findCategory? id).isSome

namespace Event

/-- A successful save of a row with this id. -/
def Saves (layout : Layout) (id : Uuid) : Event → Prop
  | .exchange (.saveOrganization organization) (.ok _) =>
    layout = .organizations ∧ organization.id = id
  | .exchange (.saveCategory category) (.ok _) => layout = .categories ∧ category.id = id
  | _ => False

/-- A look-up that has found the row with this id. -/
def Finds (layout : Layout) (id : Uuid) : Event → Prop
  | .exchange (.getOrganization other) (.ok (some _)) => layout = .organizations ∧ other = id
  | .exchange (.getCategory other) (.ok (some _)) => layout = .categories ∧ other = id
  | _ => False

theorem Saves.isFinal {layout : Layout} {id : Uuid} {event : Event} (h : event.Saves layout id) :
    event.isFinal = true := by
  cases event with
  | exchange call answer =>
      cases call with
      | saveOrganization organization => rfl
      | saveCategory category => rfl
      | _ => cases h
  | acquire layout => cases h
  | release layout => cases h

/-- A successful deletion of the row with this id. -/
def deletion (layout : Layout) (id : Uuid) : Event :=
  match layout with
  | .organizations => .exchange (.deleteOrganization id) (.ok true)
  | .categories => .exchange (.deleteCategory id) (.ok true)

theorem not_finds_deletion (layout other : Layout) (gone id : Uuid) :
    ¬(deletion layout gone).Finds other id := by
  cases layout with
  | organizations => exact fun hfinds => hfinds
  | categories => exact fun hfinds => hfinds

end Event

namespace Request

/-- A creation that gives this id to its entity. -/
def Creates (layout : Layout) (id : Uuid) (request : Request) : Prop :=
  request.generated? = some id ∧ request.lock? = some layout

/-- The deletion of a row. -/
def deletion (layout : Layout) (id : Uuid) : Request :=
  match layout with
  | .organizations => .deleteOrganization id
  | .categories => .deleteCategory id

theorem Returns.deleted {layout : Layout} {id : Uuid} {past : List Event}
    (h : (deletion layout id).Returns past (.ok .deleted)) :
    ∃ earlier, past = Event.deletion layout id :: earlier := by
  cases layout with
  | organizations => cases h with | deletedOrganization => exact ⟨_, rfl⟩
  | categories => cases h with | deletedCategory => exact ⟨_, rfl⟩

end Request

namespace Store

variable {store next : Store} {call : Call} {layout : Layout} {id : Uuid}

theorem has_saveOrganization {organization : Organization}
    (h : store.saveOrganization organization = .ok next) : next.has layout id = true ↔
      store.has layout id = true ∨ (layout = .organizations ∧ organization.id = id) := by
  cases layout with
  | organizations =>
      rw [has, has, findOrganization?_save h]
      split
      · rename_i heq
        exact iff_of_true rfl (Or.inr ⟨rfl, heq.symm⟩)
      · rename_i hne
        simp [Ne.symm hne]
  | categories =>
      cases saveOrganization_eq_ok h
      simp [has, findCategory?]

theorem has_saveCategory {category : Category} (h : store.saveCategory category = .ok next) :
    next.has layout id = true ↔
      store.has layout id = true ∨ (layout = .categories ∧ category.id = id) := by
  cases layout with
  | organizations =>
      cases saveCategory_eq_ok h
      simp [has, findOrganization?]
  | categories =>
      rw [has, has, findCategory?_save h]
      split
      · rename_i heq
        exact iff_of_true rfl (Or.inr ⟨rfl, heq.symm⟩)
      · rename_i hne
        simp [Ne.symm hne]

theorem has_deleteOrganization {gone : Uuid} (h : store.deleteOrganization gone = .ok (true, next)) :
    next.has layout id = true ↔
      store.has layout id = true ∧ ¬(layout = .organizations ∧ id = gone) := by
  cases layout with
  | organizations =>
      rw [has, has, findOrganization?_delete h]
      split
      · rename_i heq
        simp [heq]
      · rename_i hne
        simp [hne]
  | categories =>
      obtain ⟨_, _, rfl⟩ := deleteOrganization_eq_ok h
      simp [has, findCategory?]

theorem has_deleteCategory {gone : Uuid} (h : store.deleteCategory gone = .ok (true, next)) :
    next.has layout id = true ↔
      store.has layout id = true ∧ ¬(layout = .categories ∧ id = gone) := by
  cases layout with
  | organizations =>
      obtain ⟨_, _, rfl⟩ := deleteCategory_eq_ok h
      simp [has, findOrganization?]
  | categories =>
      rw [has, has, findCategory?_delete h]
      split
      · rename_i heq
        simp [heq]
      · rename_i hne
        simp [hne]

theorem has_of_deletion (h : Event.exchange call (store.answer call).1 = .deletion layout id) :
    store.has layout id = true ∧ (store.answer call).2.has layout id = false := by
  rw [Bool.eq_false_iff]
  cases layout with
  | organizations =>
      cases call with
      | deleteOrganization gone =>
          injection h with hcall hanswer
          cases hcall
          have hdelete := ofWrite_eq_ok
            (show store.answer (.deleteOrganization id) = (.ok true, _) from Prod.ext hanswer rfl)
          exact ⟨(deleteOrganization_eq_ok hdelete).1,
            fun hrow => ((has_deleteOrganization hdelete).1 hrow).2 ⟨rfl, rfl⟩⟩
      | _ => cases h
  | categories =>
      cases call with
      | deleteCategory gone =>
          injection h with hcall hanswer
          cases hcall
          have hdelete := ofWrite_eq_ok
            (show store.answer (.deleteCategory id) = (.ok true, _) from Prod.ext hanswer rfl)
          exact ⟨(deleteCategory_eq_ok hdelete).1,
            fun hrow => ((has_deleteCategory hdelete).1 hrow).2 ⟨rfl, rfl⟩⟩
      | _ => cases h

/-- A row that is there after a call was there before, or has just been saved. -/
theorem has_of_answer (h : (store.answer call).2.has layout id = true) :
    store.has layout id = true ∨ (Event.exchange call (store.answer call).1).Saves layout id := by
  cases hanswer : (store.answer call).1 with
  | error fault =>
      rw [answer_of_error hanswer] at h
      exact Or.inl h
  | ok result =>
      have hpair := answer_eq hanswer
      cases call with
      | saveOrganization organization =>
          exact (has_saveOrganization (answer_saveOrganization hpair)).1 h
      | saveCategory category => exact (has_saveCategory (answer_saveCategory hpair)).1 h
      | deleteOrganization gone =>
          have hdelete := ofWrite_eq_ok hpair
          cases result with
          | false => exact Or.inl ((deleteOrganization_eq_false hdelete).2 ▸ h)
          | true => exact Or.inl ((has_deleteOrganization hdelete).1 h).1
      | deleteCategory gone =>
          have hdelete := ofWrite_eq_ok hpair
          cases result with
          | false => exact Or.inl ((deleteCategory_eq_false hdelete).2 ▸ h)
          | true => exact Or.inl ((has_deleteCategory hdelete).1 h).1
      | _ => exact Or.inl h

theorem has_of_saves (h : (Event.exchange call (store.answer call).1).Saves layout id) :
    (store.answer call).2.has layout id = true := by
  cases hanswer : (store.answer call).1 with
  | error fault =>
      rw [hanswer] at h
      cases call <;> cases h
  | ok result =>
      have hpair := answer_eq hanswer
      rw [hanswer] at h
      cases call with
      | saveOrganization organization =>
          exact (has_saveOrganization (answer_saveOrganization hpair)).2 (Or.inr h)
      | saveCategory category =>
          exact (has_saveCategory (answer_saveCategory hpair)).2 (Or.inr h)
      | _ => cases h

theorem getOrganization_eq_some {stored : Organization}
    (h : (store.answer (.getOrganization id)).1 = .ok (some stored)) :
    store.has .organizations id = true ∧ stored.id = id := by
  change (store.getOrganization id).mapError StoreError.failed = _ at h
  rw [getOrganization] at h
  cases hfound : store.findOrganization? id with
  | none => rw [hfound] at h; cases h
  | some row =>
      have hkey : row.id = some id.text := by simpa using List.find?_some hfound
      rw [hfound] at h
      dsimp only at h
      cases hread : row.toOrganization with
      | error fault => rw [hread] at h; cases h
      | ok organization =>
          have hid := OrganizationRow.id_of_toOrganization hread
          rw [hread] at h
          cases h
          rw [hkey, decodeId_text] at hid
          exact ⟨by rw [has, hfound]; rfl, (Except.ok.inj hid).symm⟩

theorem getCategory_eq_some {stored : Category}
    (h : (store.answer (.getCategory id)).1 = .ok (some stored)) :
    store.has .categories id = true ∧ stored.id = id := by
  change (store.getCategory id).mapError StoreError.failed = _ at h
  rw [getCategory] at h
  cases hfound : store.findCategory? id with
  | none => rw [hfound] at h; cases h
  | some row =>
      have hkey : row.id = some id.text := by simpa using List.find?_some hfound
      rw [hfound] at h
      dsimp only at h
      cases hread : row.toCategory with
      | error fault => rw [hread] at h; cases h
      | ok category =>
          have hid := CategoryRow.id_of_toCategory hread
          rw [hread] at h
          cases h
          rw [hkey, decodeId_text] at hid
          exact ⟨by rw [has, hfound]; rfl, (Except.ok.inj hid).symm⟩

theorem has_of_finds (h : (Event.exchange call (store.answer call).1).Finds layout id) :
    store.has layout id = true := by
  cases call with
  | getOrganization other =>
      match hanswer : (store.answer (.getOrganization other)).1 with
      | .error fault => rw [hanswer] at h; cases h
      | .ok none => rw [hanswer] at h; cases h
      | .ok (some stored) =>
          rw [hanswer] at h
          obtain ⟨rfl, rfl⟩ := h
          exact (getOrganization_eq_some hanswer).1
  | getCategory other =>
      match hanswer : (store.answer (.getCategory other)).1 with
      | .error fault => rw [hanswer] at h; cases h
      | .ok none => rw [hanswer] at h; cases h
      | .ok (some stored) =>
          rw [hanswer] at h
          obtain ⟨rfl, rfl⟩ := h
          exact (getCategory_eq_some hanswer).1
  | _ => cases h

end Store

namespace Request.Allows

variable {request : Request} {past : List Event} {layout : Layout} {id : Uuid}

/-- What a request saves it has created or found before. -/
theorem creates_or_finds {call : Store.Call} {answer : call.Answer} (h : request.Allows past call)
    (hanswered : ∀ event ∈ past, event.Answered)
    (hsaves : (Event.exchange call answer).Saves layout id) :
    request.Creates layout id ∨ ∃ event ∈ past, event.Finds layout id := by
  cases call with
  | saveOrganization organization =>
      cases answer with
      | error fault => cases hsaves
      | ok result =>
          obtain ⟨rfl, rfl⟩ := hsaves
          rcases h.origin_organization with ⟨hid, hlock, _⟩ | ⟨other, stored, hread, hid, _⟩
          · exact Or.inl ⟨hid, hlock⟩
          · obtain ⟨store, hanswer⟩ := hanswered _ hread
            have hself := (Store.getOrganization_eq_some hanswer).2
            exact Or.inr ⟨_, hread, rfl, (hid.trans hself).symm⟩
  | saveCategory category =>
      cases answer with
      | error fault => cases hsaves
      | ok result =>
          obtain ⟨rfl, rfl⟩ := hsaves
          rcases h.origin_category with ⟨hid, hlock, _⟩ | ⟨other, stored, hread, hid, _, _⟩
          · exact Or.inl ⟨hid, hlock⟩
          · obtain ⟨store, hanswer⟩ := hanswered _ hread
            have hself := (Store.getCategory_eq_some hanswer).2
            exact Or.inr ⟨_, hread, rfl, (hid.trans hself).symm⟩
  | _ => cases hsaves

/-- A creation saves nothing but its own entity. -/
theorem id_of_creates {organization : Organization}
    (h : request.Allows past (.saveOrganization organization))
    (hcreates : request.Creates .organizations id) : organization.id = id := by
  obtain ⟨hid, _⟩ := hcreates
  cases h with
  | look _ hread => cases hread
  | read _ _ _ hread => cases hread
  | createOrganization _ hinput _ =>
      exact (Organization.ofInput_eq_ok hinput).1.trans (Option.some.inj hid)
  | _ => cases hid

end Request.Allows

namespace Desk

variable {ι : Type} [DecidableEq ι] {requests : ι → Request} {store : Store} {desk : Desk ι}
  {layout : Layout} {id : Uuid} {i : ι}

/-- A row that was there at first, or that was saved by the request which created it. -/
def Known (requests : ι → Request) (store : Store) (desk : Desk ι) (layout : Layout) (id : Uuid) :
    Prop :=
  store.has layout id = true ∨ ∃ i, (requests i).Creates layout id ∧ pending (desk.past i) = false

/-- Only known rows are there and have ever been found. -/
structure Accounted (requests : ι → Request) (store : Store) (desk : Desk ι) : Prop where
  rows : ∀ layout id, desk.store.has layout id = true → Known requests store desk layout id
  finds : ∀ layout id, ∀ entry ∈ desk.log, entry.2.Finds layout id →
    Known requests store desk layout id

theorem Accounted.start (store : Store) (requests : ι → Request) :
    Accounted requests store (start store requests) where
  rows _ _ hrow := Or.inl hrow
  finds _ _ _ hmem := by cases hmem

theorem Known.mono {after : Desk ι} {event : Event} (hlog : after.log = (i, event) :: desk.log)
    (h : Known requests store desk layout id) : Known requests store after layout id := by
  rcases h with hstart | ⟨j, hcreates, hfinal⟩
  · exact Or.inl hstart
  · refine Or.inr ⟨j, hcreates, ?_⟩
    rw [past_of_log hlog]
    split
    · simp only [pending, List.all_cons] at hfinal ⊢
      rw [hfinal, Bool.and_false]
    · exact hfinal

/-- A step adds to what is there and has been found only what the step itself saves or finds. -/
theorem Accounted.note (h : Accounted requests store desk) {after : Desk ι} {event : Event}
    (hlog : after.log = (i, event) :: desk.log)
    (hrows : ∀ layout id, after.store.has layout id = true →
      desk.store.has layout id = true ∨ Known requests store after layout id)
    (hfinds : ∀ layout id, event.Finds layout id → desk.store.has layout id = true) :
    Accounted requests store after where
  rows := by
    intro layout id hrow
    rcases hrows layout id hrow with hold | hknown
    · exact (h.rows layout id hold).mono hlog
    · exact hknown
  finds := by
    intro layout id entry hmem hfound
    rw [hlog] at hmem
    rcases List.mem_cons.1 hmem with rfl | hold
    · exact (h.rows layout id (hfinds layout id hfound)).mono hlog
    · exact (h.finds layout id entry hold hfound).mono hlog

theorem Accounted.step (h : Accounted requests store desk) (hregular : Regular requests desk)
    (i : ι) : Accounted requests store (desk.step i) := by
  refine step_cases h ?_ ?_ ?_
  · intro c next htask
    obtain ⟨_, hallows, _⟩ := hregular.call htask
    refine h.note rfl ?_ fun _ _ hfinds => Store.has_of_finds hfinds
    intro layout id hrow
    rcases Store.has_of_answer hrow with hold | hsaves
    · exact Or.inl hold
    · right
      rcases hallows.creates_or_finds (hregular.answered_past i) hsaves with
        hcreates | ⟨event, hmem, hfinds⟩
      · refine Or.inr ⟨i, hcreates, ?_⟩
        rw [past_of_log rfl, if_pos rfl, pending, List.all_cons, hsaves.isFinal]
        rfl
      · exact (h.finds layout id _ (mem_past.1 hmem) hfinds).mono rfl
  · intro other next _ _
    refine h.note rfl (fun _ _ hrow => Or.inl hrow) fun layout id hfinds => ?_
    cases hfinds
  · intro other next _
    refine h.note rfl (fun _ _ hrow => Or.inl hrow) fun layout id hfinds => ?_
    cases hfinds

theorem accounted_run (store : Store) (requests : ι → Request) (schedule : List ι) :
    Accounted requests store ((start store requests).run schedule) := by
  refine run_induction (.start store requests) (fun served i haccounted => ?_) schedule
  exact haccounted.step ((Regular.start store requests).run served) i

/-- A request returns in its turn. -/
def Finishes (desk : Desk ι) (i : ι) (outcome : Except DeskError Reply) : Prop :=
  (desk.tasks i).outcome? = none ∧ ((desk.step i).tasks i).outcome? = some outcome

instance (desk : Desk ι) (i : ι) (outcome : Except DeskError Reply) :
    Decidable (desk.Finishes i outcome) :=
  inferInstanceAs (Decidable (_ ∧ _))

/-- The turn in which a deletion returns successfully is the one in which it deletes the row. -/
theorem Regular.deletion_of_finishes (hregular : Regular requests desk)
    (hrequest : requests i = Request.deletion layout id)
    (hfinishes : desk.Finishes i (.ok .deleted)) :
    (desk.step i).log = (i, Event.deletion layout id) :: desk.log ∧
      desk.store.has layout id = true ∧ (desk.step i).store.has layout id = false := by
  obtain ⟨hbusy, hfinished⟩ := hfinishes
  have hdone := Action.outcome?_eq_some.1 hfinished
  have hobeys := (hregular.step i).obeys i
  rw [hdone, hrequest] at hobeys
  obtain ⟨earlier, hpast⟩ := hobeys.done.2.deleted
  revert hdone hpast
  refine step_cases (motive := fun after => after.tasks i = _ → after.past i = _ → after.log = _ ∧
    desk.store.has layout id = true ∧ after.store.has layout id = false) ?_ ?_ ?_ ?_
  · intro hdone
    rw [hdone] at hbusy
    cases hbusy
  · intro c next htask hdone hpast
    rw [past_of_log rfl, if_pos rfl] at hpast
    have hevent := (List.cons.inj hpast).1
    exact ⟨congrArg (fun event => (i, event) :: desk.log) hevent, Store.has_of_deletion hevent⟩
  · intro other next htask hfree hdone hpast
    rw [past_of_log rfl, if_pos rfl] at hpast
    cases layout <;> cases (List.cons.inj hpast).1
  · intro other next htask hdone hpast
    rw [past_of_log rfl, if_pos rfl] at hpast
    cases layout <;> cases (List.cons.inj hpast).1

/-- Ids are given away once, and not those of rows that are there at first. -/
structure NewIds (requests : ι → Request) (store : Store) : Prop where
  distinct : ∀ i j layout id, (requests i).Creates layout id → (requests j).Creates layout id → i = j
  fresh : ∀ i layout id, (requests i).Creates layout id → store.has layout id = false

/-- A request gives away an id that nobody else gives away and that no row has at first. -/
structure CreatesAnew (requests : ι → Request) (store : Store) (layout : Layout) (id : Uuid)
    (i : ι) : Prop where
  creates : (requests i).Creates layout id
  only : ∀ j, (requests j).Creates layout id → i = j
  fresh : store.has layout id = false

omit [DecidableEq ι] in
theorem NewIds.anew (h : NewIds requests store) (hcreates : (requests i).Creates layout id) :
    CreatesAnew requests store layout id i where
  creates := hcreates
  only j := h.distinct i j layout id hcreates
  fresh := h.fresh i layout id hcreates

/-- Nobody is still to create a known row. -/
theorem Known.not_creates (h : Known requests store desk layout id)
    (hanew : CreatesAnew requests store layout id i) : pending (desk.past i) = false := by
  rcases h with hstart | ⟨j, hother, hfinal⟩
  · rw [hanew.fresh] at hstart
    cases hstart
  · rwa [hanew.only j hother]

/-- The only way back for a row that is known and not there: whoever has found it before saves it. -/
theorem Known.saves_of_has (hknown : Known requests store desk layout id)
    (hregular : Regular requests desk) (hnew : NewIds requests store)
    (haway : desk.store.has layout id = false) (hback : (desk.step i).store.has layout id = true) :
    ∃ event found, (desk.step i).log = (i, event) :: desk.log ∧ event.Saves layout id ∧
      (i, found) ∈ desk.log ∧ found.Finds layout id := by
  revert hback
  refine step_cases (motive := fun after => after.store.has layout id = true →
    ∃ event found, after.log = (i, event) :: desk.log ∧ event.Saves layout id ∧
      (i, found) ∈ desk.log ∧ found.Finds layout id) ?_ ?_ ?_ ?_
  · intro hback
    rw [haway] at hback
    cases hback
  · intro c next htask hback
    obtain ⟨hpending, hallows, _⟩ := hregular.call htask
    rcases Store.has_of_answer hback with hold | hsaves
    · rw [haway] at hold
      cases hold
    · rcases hallows.creates_or_finds (hregular.answered_past i) hsaves with
        hcreates | ⟨found, hmem, hfinds⟩
      · rw [hknown.not_creates (hnew.anew hcreates)] at hpending
        cases hpending
      · exact ⟨_, found, rfl, hsaves, mem_past.1 hmem, hfinds⟩
  · intro other next htask hfree hback
    rw [show desk.store.has layout id = true from hback] at haway
    cases haway
  · intro other next htask hback
    rw [show desk.store.has layout id = true from hback] at haway
    cases haway

/-- A step that leaves a row away neither saves nor finds it. -/
theorem step_log_of_away (haway : desk.store.has layout id = false)
    (hstill : (desk.step i).store.has layout id = false) :
    ∃ steps, (desk.step i).log = steps ++ desk.log ∧
      ∀ entry ∈ steps, ¬entry.2.Saves layout id ∧ ¬entry.2.Finds layout id := by
  revert hstill
  refine step_cases (motive := fun after => after.store.has layout id = false →
    ∃ steps, after.log = steps ++ desk.log ∧
      ∀ entry ∈ steps, ¬entry.2.Saves layout id ∧ ¬entry.2.Finds layout id) ?_ ?_ ?_ ?_
  · exact fun _ => ⟨[], rfl, fun _ hmem => by cases hmem⟩
  · intro c next _ hstill
    refine ⟨[_], rfl, fun entry hmem => ?_⟩
    cases List.mem_singleton.1 hmem
    refine ⟨fun hsaves => ?_, fun hfinds => ?_⟩
    · exact absurd (Store.has_of_saves hsaves) (by simp [show _ = false from hstill])
    · exact absurd (Store.has_of_finds hfinds) (by simp [haway])
  · intro other next _ _ _
    refine ⟨[_], rfl, fun entry hmem => ?_⟩
    cases List.mem_singleton.1 hmem
    exact ⟨nofun, nofun⟩
  · intro other next _ _
    refine ⟨[_], rfl, fun entry hmem => ?_⟩
    cases List.mem_singleton.1 hmem
    exact ⟨nofun, nofun⟩

theorem Known.step (h : Known requests store desk layout id) (i : ι) :
    Known requests store (desk.step i) layout id := by
  refine step_cases (motive := fun after => Known requests store after layout id) h ?_ ?_ ?_
  · exact fun c next _ => h.mono rfl
  · exact fun other next _ _ => h.mono rfl
  · exact fun other next _ => h.mono rfl

/-- A row that is known and away stays away as long as no one saves it who has found it before. -/
theorem away_iff (schedule : List ι) {old : List (ι × Event)} (hregular : Regular requests desk)
    (hnew : NewIds requests store) (hknown : Known requests store desk layout id)
    (haway : desk.store.has layout id = false)
    (hold : ∀ entry ∈ desk.log, entry.2.Finds layout id → entry ∈ old) (hsub : old ⊆ desk.log) :
    ∃ steps, (desk.run schedule).log = steps ++ desk.log ∧
      ((∀ later, later <+: schedule → (desk.run later).store.has layout id = false) ↔
        ∀ j event, (j, event) ∈ steps → event.Saves layout id →
          ∀ found, (j, found) ∈ old → ¬found.Finds layout id) := by
  -- `old` stays the log at the deletion: as long as the row is away nobody finds it any more
  induction schedule generalizing desk with
  | nil =>
      refine ⟨[], rfl, iff_of_true ?_ fun _ _ hmem => by cases hmem⟩
      intro later hlater
      cases List.prefix_nil.1 hlater
      exact haway
  | cons i schedule ih =>
      cases hstep : (desk.step i).store.has layout id with
      | false =>
          obtain ⟨first, hfirst, hneither⟩ := step_log_of_away haway hstep
          have hold' : ∀ entry ∈ (desk.step i).log, entry.2.Finds layout id → entry ∈ old := by
            intro entry hmem hfinds
            rw [hfirst] at hmem
            rcases List.mem_append.1 hmem with hnewer | holder
            · exact absurd hfinds (hneither entry hnewer).2
            · exact hold entry holder hfinds
          have hsub' : old ⊆ (desk.step i).log := by
            rw [hfirst]
            exact List.subset_append_of_subset_right first hsub
          obtain ⟨rest, hrest, hiff⟩ := ih (hregular.step i) (hknown.step i) hstep hold' hsub'
          refine ⟨rest ++ first, by rw [run_cons, hrest, hfirst, List.append_assoc], ?_⟩
          constructor
          · intro hall j event hmem hsaves
            rcases List.mem_append.1 hmem with hlate | hearly
            · refine hiff.1 ?_ j event hlate hsaves
              intro later hlater
              exact hall (i :: later) (List.cons_prefix_cons.2 ⟨rfl, hlater⟩)
            · exact absurd hsaves (hneither _ hearly).1
          · intro hsafe later hlater
            cases later with
            | nil => exact haway
            | cons k later =>
                obtain ⟨rfl, hshorter⟩ := List.cons_prefix_cons.1 hlater
                refine hiff.2 ?_ later hshorter
                intro j event hmem
                exact hsafe j event (List.mem_append_left first hmem)
      | true =>
          obtain ⟨event, found, hlog, hsaves, hmem, hfinds⟩ :=
            hknown.saves_of_has hregular hnew haway hstep
          obtain ⟨rest, hrest⟩ := (desk.step i).run_log schedule
          refine ⟨rest ++ [(i, event)], ?_, iff_of_false ?_ ?_⟩
          · rw [run_cons, hrest, hlog]
            simp
          · intro hall
            have hback := hall [i] (List.cons_prefix_cons.2 ⟨rfl, List.nil_prefix⟩)
            rw [run_cons, run_nil, hstep] at hback
            cases hback
          · intro hsafe
            exact hsafe i event (by simp) hsaves found (hold _ hmem hfinds) hfinds

/-- Once a deletion has returned successfully, the row stays away for good exactly if no request that
had found it before it was deleted saves it afterwards. -/
theorem deleted_for_good_iff (store : Store) (requests : ι → Request)
    (hnew : NewIds requests store) (before after : List ι)
    (hrequest : requests i = Request.deletion layout id)
    (hfinishes : ((start store requests).run before).Finishes i (.ok .deleted)) :
    ∃ steps, ((start store requests).run (before ++ i :: after)).log =
        steps ++ (i, Event.deletion layout id) :: ((start store requests).run before).log ∧
      ((∀ later, later <+: after →
          ((start store requests).run (before ++ i :: later)).store.has layout id = false) ↔
        ∀ j event, (j, event) ∈ steps → event.Saves layout id →
          ∀ found, (j, found) ∈ ((start store requests).run before).log →
            ¬found.Finds layout id) := by
  have hregular := (Regular.start store requests).run before
  have haccounted := accounted_run store requests before
  obtain ⟨hlog, hthere, haway⟩ := hregular.deletion_of_finishes hrequest hfinishes
  have hknown := (haccounted.rows layout id hthere).step i
  simp only [run_append, run_cons]
  rw [← hlog]
  refine away_iff after (hregular.step i) hnew hknown haway ?_ ?_
  · intro entry hmem hfinds
    rw [hlog] at hmem
    rcases List.mem_cons.1 hmem with rfl | hold
    · exact absurd hfinds (Event.not_finds_deletion layout layout id id)
    · exact hold
  · rw [hlog]
    exact List.subset_cons_self _ _

def loneStore : Store := Contents.store ⟨[.small 1 "Desk" none], []⟩

/-- The organization is renamed by one request and deleted by another one. -/
def renameAndDelete : Bool → Request
  | false => .updateOrganization ⟨.ofSeconds 60, .small 2⟩ (.small 1) ⟨some "Service", none, none⟩
  | true => .deleteOrganization (.small 1)

theorem newIds_renameAndDelete : NewIds renameAndDelete loneStore where
  distinct i j layout id hcreates := by cases i <;> cases hcreates.1
  fresh i layout id hcreates := by cases i <;> cases hcreates.1

theorem deleted_for_good_iff_renamed :
    let desk (served : List Bool) := (start loneStore renameAndDelete).run served
    let before := [false, true, true, true]
    ∃ steps, (desk (before ++ true :: [false])).log =
        steps ++ (true, Event.deletion .organizations (.small 1)) :: (desk before).log ∧
      ((∀ later, later <+: [false] →
          (desk (before ++ true :: later)).store.has .organizations (.small 1) = false) ↔
        ∀ j event, (j, event) ∈ steps → event.Saves .organizations (.small 1) →
          ∀ found, (j, found) ∈ (desk before).log → ¬found.Finds .organizations (.small 1)) :=
  deleted_for_good_iff loneStore renameAndDelete newIds_renameAndDelete [false, true, true, true]
    [false] rfl (by decide +kernel)

/-- An update that was read before a deletion and is saved after it brings the row back, although the
deletion has returned successfully. -/
theorem deleted_row_comes_back :
    let desk (served : List Bool) := (start loneStore renameAndDelete).run served
    (desk [false, true, true, true]).Finishes true (.ok .deleted) ∧
      (desk [false, true, true, true, true]).store.has .organizations (.small 1) = false ∧
      (desk [false, true, true, true, true, false]).store.has .organizations (.small 1) = true := by
  refine ⟨?_, ?_, ?_⟩
  · decide +kernel
  · decide +kernel
  · decide +kernel

end Desk

end ServiceDesk
