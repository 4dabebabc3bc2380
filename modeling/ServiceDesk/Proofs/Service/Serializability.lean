import ServiceDesk.Proofs.Service.Replays

/-!
Creations and moves at the same time have the same results as one after another, in the order of their
last calls on the store. A request is settled by its last call; up to then it could as well have
started just now, so it may be thought to run as a whole at that moment.
-/

namespace ServiceDesk

open Hierarchy

/-- Requests served one after another have these outcomes, and leave this store. -/
def Serially {ι : Type} (requests : ι → Request) (outcome? : ι → Option (Except DeskError Reply))
    (last : Store) : Store → List ι → Prop
  | store, [] => store = last
  | store, i :: order => outcome? i = some ((requests i).serve store).1 ∧
      Serially requests outcome? last ((requests i).serve store).2 order

namespace Serially

variable {ι : Type} {requests : ι → Request} {outcome? : ι → Option (Except DeskError Reply)}
  {store last : Store} {order : List ι}

theorem congr {other? : ι → Option (Except DeskError Reply)}
    (h : Serially requests outcome? last store order)
    (hsame : ∀ i ∈ order, outcome? i = other? i) : Serially requests other? last store order := by
  induction order generalizing store with
  | nil => exact h
  | cons i order ih =>
      obtain ⟨hfirst, hrest⟩ := List.forall_mem_cons.1 hsame
      exact ⟨hfirst ▸ h.1, ih h.2 hrest⟩

theorem concat {i : ι} (h : Serially requests outcome? last store order)
    (houtcome : outcome? i = some ((requests i).serve last).1) :
    Serially requests outcome? ((requests i).serve last).2 store (order ++ [i]) := by
  induction order generalizing store with
  | nil =>
      cases h
      exact ⟨houtcome, rfl⟩
  | cons j order ih => exact ⟨h.1, ih h.2⟩

/-- Requests that neither need the store nor change it may be served at any time. -/
theorem of_filter {needs : ι → Prop} [DecidablePred needs]
    (hfree : ∀ i ∈ order, ¬needs i → ∀ store, ∃ outcome, outcome? i = some outcome ∧
      (requests i).serve store = (outcome, store))
    (h : Serially requests outcome? last store (order.filter fun i => needs i)) :
    Serially requests outcome? last store order := by
  induction order generalizing store with
  | nil => exact h
  | cons i order ih =>
      obtain ⟨hfirst, hrest⟩ := List.forall_mem_cons.1 hfree
      by_cases hneeds : needs i
      · rw [List.filter_cons_of_pos (by simpa using hneeds)] at h
        exact ⟨h.1, ih hrest h.2⟩
      · rw [List.filter_cons_of_neg (by simpa using hneeds)] at h
        obtain ⟨outcome, houtcome, hserve⟩ := hfirst hneeds store
        rw [Serially, hserve]
        exact ⟨houtcome, ih hrest h⟩

end Serially

/-- An exchange that was answered by a store that is written from entities. -/
def Event.Stored : Event → Prop
  | .exchange call answer => ∃ old : Contents, (old.store.answer call).1 = answer
  | _ => True

namespace Request.Allows

variable {request : Request} {past : List Event} {call : Store.Call} {contents : Contents}

theorem isSave (h : request.Allows past call) (hlocks : request.lock?.isSome = true)
    (hwrite : call.isWrite = true) : (∃ organization, call = .saveOrganization organization) ∨
      ∃ category, call = .saveCategory category := by
  cases call with
  | saveOrganization organization => exact Or.inl ⟨organization, rfl⟩
  | saveCategory category => exact Or.inr ⟨category, rfl⟩
  | deleteOrganization id => cases h with
    | look _ hread => cases hread
    | read _ _ _ hread => cases hread
    | deleteOrganization => cases hlocks
  | deleteCategory id => cases h with
    | look _ hread => cases hread
    | read _ _ _ hread => cases hread
    | deleteCategory => cases hlocks
  | _ => cases hwrite

theorem stored (h : request.Allows past call) (hlocks : request.lock?.isSome = true)
    (hwrite : call.isWrite = true) : ∃ after : Contents,
      (contents.store.answer call).2 = after.store := by
  cases hanswer : (contents.store.answer call).1 with
  | error fault => exact ⟨contents, Store.answer_of_error hanswer⟩
  | ok result =>
      have hpair := Store.answer_eq hanswer
      rcases h.isSave hlocks hwrite with ⟨organization, rfl⟩ | ⟨category, rfl⟩
      · exact ⟨_, Contents.saveOrganization_store (Store.answer_saveOrganization hpair)⟩
      · exact ⟨_, Contents.saveCategory_store (Store.answer_saveCategory hpair)⟩

/-- After a save by a request with a lock every organization is found that was found before, if
plain timestamps are saved over a row that is there. -/
theorem found (h : request.Allows past call) (hlocks : request.lock?.isSome = true)
    (hwrite : call.isWrite = true)
    (hplain : ∀ saved, call = .saveOrganization saved →
      contents.store.has .organizations saved.id = true → saved.IsPlain)
    {id : Uuid} {organization : Organization}
    (hfound : (contents.store.answer (.getOrganization id)).1 = .ok (some organization)) :
    ∃ present, ((contents.store.answer call).2.answer (.getOrganization id)).1 =
      .ok (some present) := by
  rcases h.isSave hlocks hwrite with ⟨saved, rfl⟩ | ⟨category, rfl⟩
  · cases hanswer : (contents.store.answer (.saveOrganization saved)).1 with
    | error fault =>
        rw [Store.answer_of_error hanswer]
        exact ⟨organization, hfound⟩
    | ok result =>
        have hpair := Store.answer_eq hanswer
        exact Contents.found_of_save (Store.answer_saveOrganization hpair) (hplain saved rfl) hfound
  · have htable : Store.SameTable .organizations contents.store
        (contents.store.answer (.saveCategory category)).2 := Store.sameTable_answer nofun
    have hsame : (contents.store.answer (.getOrganization id)).1 = _ := Store.answer_congr rfl htable
    exact ⟨organization, hsame ▸ hfound⟩

end Request.Allows

namespace Desk

variable {ι : Type} [DecidableEq ι] {requests : ι → Request} {contents : Contents} {desk : Desk ι}
  {i : ι}

/-- The requests that have called the store, in the order of their last calls. -/
def lastCalls : List (ι × Event) → List ι
  | [] => []
  | (i, .exchange _ _) :: log => (lastCalls log).filter (· ≠ i) ++ [i]
  | (_, _) :: log => lastCalls log

theorem mem_lastCalls {log : List (ι × Event)} :
    i ∈ lastCalls log ↔ ∃ call answer, (i, Event.exchange call answer) ∈ log := by
  induction log with
  | nil => simp [lastCalls]
  | cons entry log ih =>
      obtain ⟨j, event⟩ := entry
      cases event with
      | exchange call answer =>
          rw [lastCalls, List.mem_append, List.mem_filter, ih, List.mem_singleton]
          constructor
          · rintro (⟨⟨other, reply, hmem⟩, _⟩ | rfl)
            · exact ⟨other, reply, List.mem_cons_of_mem _ hmem⟩
            · exact ⟨call, answer, List.mem_cons_self⟩
          · rintro ⟨other, reply, hmem⟩
            by_cases hij : i = j
            · exact Or.inr hij
            · refine Or.inl ⟨⟨other, reply, ?_⟩, by simpa using hij⟩
              rcases List.mem_cons.1 hmem with heq | hold
              · exact absurd (Prod.mk.inj heq).1 hij
              · exact hold
      | acquire layout => simp [lastCalls, ih]
      | release layout => simp [lastCalls, ih]

/-- The requests that have made their last call, in the order of these calls. -/
def settled (desk : Desk ι) : List ι :=
  (lastCalls desk.log).filter fun i => (desk.tasks i).ending?.isSome

/-- The settled requests have had the outcomes and the effects of serving them one after another, and
all others could as well start now. -/
structure Serial (requests : ι → Request) (contents : Contents) (desk : Desk ι) : Prop where
  serially : Serially requests (fun i => (desk.tasks i).ending?) desk.store contents.store desk.settled
  stands : ∀ i, (desk.tasks i).ending? = none →
    (requests i).Stands desk.store (desk.past i) (desk.tasks i)
  leads : ∀ i, (requests i).operation.run.Leads (desk.past i) (desk.tasks i)
  written : ∃ now : Contents, desk.store = now.store
  stored : ∀ entry ∈ desk.log, entry.2.Stored

theorem Serial.start (contents : Contents) (requests : ι → Request) :
    Serial requests contents (start contents.store requests) where
  serially := rfl
  stands i _ := .start (requests i) contents.store
  leads i := .here
  written := ⟨contents, rfl⟩
  stored := fun _ hmem => by cases hmem

/-- A call settles its request if nothing is asked afterwards. -/
theorem settled_call {after : Desk ι} {c : Store.Call} {answer : c.Answer}
    {rest : Action (Except DeskError Reply)} (hasks : (desk.tasks i).ending? = none)
    (hlog : after.log = (i, .exchange c answer) :: desk.log)
    (htasks : after.tasks = Function.update desk.tasks i rest) :
    after.settled = desk.settled ++ if rest.ending?.isSome then [i] else [] := by
  have hold : ((lastCalls desk.log).filter (· ≠ i)).filter
      (fun j => (after.tasks j).ending?.isSome) = desk.settled := by
    rw [settled, List.filter_filter]
    apply List.filter_congr
    intro j _
    by_cases hij : j = i
    · subst hij
      simp [hasks]
    · rw [htasks, Function.update_of_ne hij]
      simp [hij]
  rw [settled, hlog, lastCalls, List.filter_append, hold, List.filter_singleton, htasks,
    Function.update_self, Bool.cond_eq_ite]

variable {rest : Action (Except DeskError Reply)} {event : Event}

theorem leads_advance (h : ∀ j, (requests j).operation.run.Leads (desk.past j) (desk.tasks j))
    (hrest : (requests i).operation.run.Leads (event :: desk.past i) rest) (j : ι) :
    (requests j).operation.run.Leads ((desk.advance i event rest).past j)
      ((desk.advance i event rest).tasks j) :=
  forall_advance (motive := fun j => (requests j).operation.run.Leads) hrest (fun j _ => h j) j

theorem stands_advance {after : Store}
    (h : ∀ j, j ≠ i → (desk.tasks j).ending? = none →
      (requests j).Stands after (desk.past j) (desk.tasks j))
    (hrest : rest.ending? = none → (requests i).Stands after (event :: desk.past i) rest) (j : ι)
    (hasks : ((desk.advance i event rest).tasks j).ending? = none) :
    (requests j).Stands after ((desk.advance i event rest).past j)
      ((desk.advance i event rest).tasks j) :=
  forall_advance (motive := fun j past task => task.ending? = none →
    (requests j).Stands after past task) hrest h j hasks

/-- Taking or releasing a lock settles nothing. -/
theorem Serial.lock (h : Serial requests contents desk) (holder : Layout → Option ι)
    (hevent : ∀ call answer, event ≠ .exchange call answer)
    (hending : rest.ending? = (desk.tasks i).ending?)
    (hleads : (requests i).operation.run.Leads (event :: desk.past i) rest)
    (hstands : rest.ending? = none → (requests i).Stands desk.store (event :: desk.past i) rest) :
    Serial requests contents { desk.advance i event rest with holder } where
  serially := by
    have hsame : ∀ j, ((desk.advance i event rest).tasks j).ending? = (desk.tasks j).ending? := by
      intro j
      change (Function.update desk.tasks i rest j).ending? = _
      by_cases hij : j = i
      · rw [hij, Function.update_self, hending]
      · rw [Function.update_of_ne hij]
    have hcalls : lastCalls (desk.advance i event rest).log = lastCalls desk.log := by
      cases event with
      | exchange call answer => exact absurd rfl (hevent call answer)
      | acquire layout => rfl
      | release layout => rfl
    simp only [settled, hcalls, hsame]
    exact h.serially
  stands := stands_advance (fun j _ => h.stands j) hstands
  leads := leads_advance h.leads hleads
  written := h.written
  stored := by
    refine List.forall_mem_cons.2 ⟨?_, h.stored⟩
    cases event with
    | exchange call answer => exact absurd rfl (hevent call answer)
    | acquire layout => trivial
    | release layout => trivial

/-- The clock shows years without a sign to those that save organizations. Only who creates one under
a new id may see any time, since nobody has found its row before. -/
def PlainClock (requests : ι → Request) (store : Store) : Prop :=
  ∀ i, (requests i).lock? = some .organizations →
    (∀ id, ¬CreatesAnew requests store .organizations id i) → (requests i).IsPlain

/-- What is saved over an organization that is there has plain timestamps. -/
theorem Serial.plain_of_save (h : Serial requests contents desk)
    (haccounted : Accounted requests contents.store desk)
    (hclock : PlainClock requests contents.store) (hpending : pending (desk.past i) = true)
    (hlock : (requests i).lock? = some .organizations) {saved : Organization}
    (hallows : (requests i).Allows (desk.past i) (.saveOrganization saved))
    (hthere : desk.store.has .organizations saved.id = true) : saved.IsPlain := by
  have hplain : (requests i).IsPlain := by
    refine hclock i hlock fun id hanew => ?_
    rw [hallows.id_of_creates hanew.creates] at hthere
    have hdone := (haccounted.rows .organizations id hthere).not_creates hanew
    rw [hpending] at hdone
    cases hdone
  rcases hallows.origin_organization with ⟨_, _, hsaved⟩ | ⟨id, stored, hread, _, hsaved⟩
  · exact hsaved hplain
  · obtain ⟨old, hanswered⟩ := h.stored _ (mem_past.1 hread)
    exact hsaved hplain (Contents.getOrganization_answer hanswered).2.2

/-- What all other requests have read lasts when one of them calls the store. -/
theorem Serial.others (h : Serial requests contents desk) (hregular : Regular requests desk)
    (haccounted : Accounted requests contents.store desk)
    (hlocks : ∀ i, (requests i).lock?.isSome = true) (hclock : PlainClock requests contents.store)
    {c : Store.Call} (hpending : pending (desk.past i) = true)
    (hallows : (requests i).Allows (desk.past i) c) {j : ι} (hother : j ≠ i)
    (hasks : (desk.tasks j).ending? = none) :
    (requests j).Stands (desk.store.answer c).2 (desk.past j) (desk.tasks j) := by
  have hstands := h.stands j hasks
  cases hwrite : c.isWrite with
  | false => rwa [Store.answer_of_read hwrite]
  | true =>
      obtain ⟨now, hnow⟩ := h.written
      refine hstands.other ?_ ?_
      · intro id organization hfound
        have hplain : ∀ saved, c = .saveOrganization saved →
            now.store.has .organizations saved.id = true → saved.IsPlain := by
          rintro saved rfl hthere
          obtain ⟨layout, hlock⟩ := Option.isSome_iff_exists.1 (hlocks i)
          cases (hallows.held_of_write rfl hlock).2
          exact h.plain_of_save haccounted hclock hpending hlock hallows (hnow ▸ hthere)
        rw [hnow] at hfound ⊢
        exact hallows.found (hlocks i) hwrite hplain hfound
      · intro layout hheld
        apply Store.sameTable_answer
        rintro rfl
        obtain ⟨own, hlock⟩ := Option.isSome_iff_exists.1 (hlocks i)
        obtain ⟨hown, rfl⟩ := hallows.held_of_write hwrite hlock
        exact hother (hregular.holder_unique hheld hown)

theorem Serial.call (h : Serial requests contents desk) (hregular : Regular requests desk)
    (haccounted : Accounted requests contents.store desk)
    (hlocks : ∀ i, (requests i).lock?.isSome = true) (hclock : PlainClock requests contents.store)
    {c : Store.Call} {next : c.Answer → Action (Except DeskError Reply)}
    (htask : desk.tasks i = .call c next) :
    Serial requests contents
      { desk.advance i (.exchange c (desk.store.answer c).1) (next (desk.store.answer c).1) with
        store := (desk.store.answer c).2 } := by
  obtain ⟨hpending, hallows, hnext⟩ := hregular.call htask
  have hleads := h.leads i
  have hasks : (desk.tasks i).ending? = none := by rw [htask]; rfl
  have hstands := h.stands i hasks
  rw [htask] at hleads hstands
  have hserve : (requests i).serve desk.store =
      (next (desk.store.answer c).1).run Store.answer (desk.store.answer c).2 := hstands.serve
  have hread : (next (desk.store.answer c).1).ending? = none → c.isWrite = false := by
    intro hmore
    cases hwrite : c.isWrite with
    | false => rfl
    | true =>
        have hlast := (hnext (desk.store.answer c).1).ending?_isSome
          (by rw [pending, List.all_cons, Event.isFinal, hwrite]; rfl)
        rw [hmore] at hlast
        cases hlast
  have hrest : (next (desk.store.answer c).1).ending? = none →
      (requests i).Stands (desk.store.answer c).2
        (.exchange c (desk.store.answer c).1 :: desk.past i) (next (desk.store.answer c).1) := by
    intro hmore
    rw [Store.answer_of_read (hread hmore)]
    exact hstands.read (hlocks i) hallows (hread hmore) hmore
  -- a call that settles its request runs it as a whole, since up to here it could start just now
  have hothers : ∀ j, j ≠ i → (desk.tasks j).ending? = none →
      (requests j).Stands (desk.store.answer c).2 (desk.past j) (desk.tasks j) :=
    fun j hother => h.others hregular haccounted hlocks hclock hpending hallows hother
  refine ⟨?_, stands_advance hothers hrest, leads_advance h.leads hleads.call, ?_, ?_⟩
  · rw [settled_call hasks rfl rfl]
    have hsame : ∀ j ∈ desk.settled, (desk.tasks j).ending? =
        (Function.update desk.tasks i (next (desk.store.answer c).1) j).ending? := by
      intro j hmem
      have hsettled := (List.mem_filter.1 hmem).2
      rw [Function.update_of_ne]
      rintro rfl
      rw [hasks] at hsettled
      cases hsettled
    have hserially := h.serially.congr hsame
    cases hending : (next (desk.store.answer c).1).ending? with
    | none =>
        rw [Store.answer_of_read (hread hending)]
        rw [Option.isSome_none, if_neg Bool.false_ne_true, List.append_nil]
        exact hserially
    | some outcome =>
        rw [Action.run_of_ending? hending] at hserve
        have hmore := hserially.concat (i := i) (by rw [Function.update_self, hending, hserve])
        rw [hserve] at hmore
        exact hmore
  · cases hwrite : c.isWrite with
    | false =>
        rw [Store.answer_of_read hwrite]
        exact h.written
    | true =>
        obtain ⟨now, hnow⟩ := h.written
        rw [hnow]
        exact hallows.stored (hlocks i) hwrite
  · obtain ⟨now, hnow⟩ := h.written
    exact List.forall_mem_cons.2 ⟨⟨now, by rw [hnow]⟩, h.stored⟩

theorem Serial.step (h : Serial requests contents desk) (hregular : Regular requests desk)
    (haccounted : Accounted requests contents.store desk)
    (hlocks : ∀ i, (requests i).lock?.isSome = true) (hclock : PlainClock requests contents.store)
    (i : ι) : Serial requests contents (desk.step i) := by
  have hstands := h.stands i
  have hleads := h.leads i
  refine step_cases (motive := Serial requests contents) h ?_ ?_ ?_
  · exact fun c next htask => h.call hregular haccounted hlocks hclock htask
  · intro layout next htask hfree
    have hending : next.ending? = (desk.tasks i).ending? := by rw [htask]; rfl
    rw [htask] at hstands hleads
    refine h.lock _ (fun call answer heq => ?_) hending hleads.acquire fun hasks => ?_
    · cases heq
    · exact (hstands hasks).acquire (hregular.acquire htask).1
  · intro layout next htask
    have hending : next.ending? = (desk.tasks i).ending? := by rw [htask]; rfl
    rw [htask] at hleads
    refine h.lock _ (fun call answer heq => ?_) hending hleads.release fun hasks => ?_
    · cases heq
    · have hlast := (hregular.release htask).2.ending?_isSome rfl
      rw [hasks] at hlast
      cases hlast

theorem serial_run (contents : Contents) (hlocks : ∀ i, (requests i).lock?.isSome = true)
    (hclock : PlainClock requests contents.store) (schedule : List ι) :
    Serial requests contents ((start contents.store requests).run schedule) := by
  refine run_induction (.start contents requests) (fun served i hserial => ?_) schedule
  exact hserial.step ((Regular.start contents.store requests).run served)
    (accounted_run contents.store requests served) hlocks hclock i

/-- A request that has returned without a call returns the same at any time, and changes nothing. -/
theorem Serial.serve_of_no_call (h : Serial requests contents desk) {outcome : Except DeskError Reply}
    (hdone : desk.tasks i = .done outcome) (hnever : i ∉ lastCalls desk.log) (store : Store) :
    (requests i).serve store = (outcome, store) := by
  have hleads := h.leads i
  rw [hdone] at hleads
  have hlasting : ∀ event ∈ desk.past i, event.Lasting none store := by
    intro event hmem
    cases event with
    | exchange call answer => exact absurd (mem_lastCalls.2 ⟨call, answer, mem_past.1 hmem⟩) hnever
    | acquire layout => trivial
    | release layout => trivial
  exact hleads.run hlasting

/-- Creations and moves at work on one store, in any order of their steps, if the clock shows years
without a sign to those that save organizations, the creations under new ids apart. When they have
returned, then serving them one after another, those that have called the store in the order of their
last calls, gives each of them the same outcome, and leaves the same rows in the same places. -/
theorem serial_in_order_of_last_calls (contents : Contents)
    (hlocks : ∀ i, (requests i).lock?.isSome = true)
    (hclock : PlainClock requests contents.store) (schedule order : List ι)
    (hdone : ∀ i ∈ order,
      (((start contents.store requests).run schedule).tasks i).outcome?.isSome = true)
    (horder : (order.filter fun i =>
        i ∈ lastCalls ((start contents.store requests).run schedule).log) =
      lastCalls ((start contents.store requests).run schedule).log) :
    Serially requests (fun i => (((start contents.store requests).run schedule).tasks i).outcome?)
      ((start contents.store requests).run schedule).store contents.store order := by
  have hserial := serial_run contents hlocks hclock schedule
  generalize (start contents.store requests).run schedule = desk at hserial hdone horder ⊢
  have hending : ∀ i ∈ order, ∃ outcome, desk.tasks i = .done outcome := by
    intro i hmem
    obtain ⟨outcome, houtcome⟩ := Option.isSome_iff_exists.1 (hdone i hmem)
    exact ⟨outcome, Action.outcome?_eq_some.1 houtcome⟩
  have hfree : ∀ i ∈ order, i ∉ lastCalls desk.log → ∀ store, ∃ outcome,
      (desk.tasks i).outcome? = some outcome ∧ (requests i).serve store = (outcome, store) := by
    intro i hmem hnever store
    obtain ⟨outcome, htask⟩ := hending i hmem
    exact ⟨outcome, by rw [htask]; rfl, hserial.serve_of_no_call htask hnever store⟩
  have hcalls : ∀ i ∈ lastCalls desk.log, ∃ outcome, desk.tasks i = .done outcome := by
    intro i hmem
    rw [← horder] at hmem
    exact hending i (List.mem_of_mem_filter hmem)
  have hsettled : desk.settled = lastCalls desk.log := by
    rw [settled, List.filter_eq_self]
    intro i hmem
    obtain ⟨outcome, htask⟩ := hcalls i hmem
    rw [htask]
    rfl
  refine .of_filter hfree ?_
  rw [horder, ← hsettled]
  refine hserial.serially.congr fun i hmem => ?_
  obtain ⟨outcome, htask⟩ := hcalls i (hsettled ▸ hmem)
  rw [htask]
  rfl

/-- One organization without categories. -/
def lone : Contents where
  organizations := [.small 1 "Desk" none]
  categories := []

theorem legal_lone : lone.Legal where
  organizations := by
    refine .of_levels (by decide) fun id hmem => ⟨1, by decide, .root ?_⟩
    cases List.mem_singleton.1 hmem
    exact List.mem_singleton.2 rfl
  categories _ := Forest.empty
  categories_nodup := List.nodup_nil

/-- The organization is made a root by one request, at some time, and is given a category by another
one. -/
def uprootAndFile (now : Time.Instant) : Bool → Request
  | false => .moveOrganization ⟨now, .small 2⟩ (.small 1) none
  | true => .createCategory ⟨.ofSeconds 60, .small 3⟩ (.small 1) ⟨"Mail", "", none⟩

/-- The two requests, and a third one that opens a branch when the clock shows the year 10000. -/
def uprootFileAndOpen : Option Bool → Request
  | none => .createOrganization ⟨.ofSeconds 253402300800, .small 4⟩ ⟨"Branch", "", some (.small 1)⟩
  | some files => uprootAndFile (.ofSeconds 61) files

theorem createsAnew_branch :
    CreatesAnew uprootFileAndOpen lone.store .organizations (.small 4) none where
  creates := ⟨rfl, rfl⟩
  only j hcreates := by
    match j with
    | none => rfl
    | some false => cases hcreates.1
    | some true => cases hcreates.2
  fresh := rfl

theorem locks_uprootFileAndOpen (i : Option Bool) : (uprootFileAndOpen i).lock?.isSome = true := by
  match i with
  | none => rfl
  | some false => rfl
  | some true => rfl

theorem plainClock_uprootFileAndOpen : PlainClock uprootFileAndOpen lone.store := by
  intro i hlock hold now hnow
  match i with
  | none => exact absurd createsAnew_branch (hold (.small 4))
  | some false =>
      cases hnow
      decide
  | some true => cases hlock

/-- The branch is opened and the organization moved between the look-up and the save of the category. -/
theorem serial_in_order_of_last_calls_uprooted :
    let desk := (start lone.store uprootFileAndOpen).run ([some true] ++ List.replicate 5 none ++
      List.replicate 4 (some false) ++ List.replicate 3 (some true))
    desk.store.has .organizations (.small 4) = true ∧
      Serially uprootFileAndOpen (fun i => (desk.tasks i).outcome?) desk.store lone.store
        [none, some false, some true] :=
  ⟨by decide +kernel, serial_in_order_of_last_calls lone locks_uprootFileAndOpen
    plainClock_uprootFileAndOpen _ _ (by decide +kernel) (by decide +kernel)⟩

/-- In the year 10000 the category is still filed, since its organization was looked up before it was
moved, but after the move the organization cannot be read any more. -/
theorem no_serial_order_in_distant_years :
    let requests := uprootAndFile (.ofSeconds 253402300800)
    let desk := (start lone.store requests).run [true, false, false, false, false, true, true, true]
    lone.Legal ∧ (∀ i, (requests i).lock?.isSome = true) ∧
      (∀ i, (desk.tasks i).outcome?.isSome = true) ∧ lastCalls desk.log = [false, true] ∧
      ¬Serially requests (fun i => (desk.tasks i).outcome?) desk.store lone.store [false, true] := by
  refine ⟨legal_lone, by decide, by decide +kernel, by decide +kernel, fun hserially => ?_⟩
  exact absurd hserially.2.1 (by decide +kernel)

end Desk

end ServiceDesk
