import Mathlib.Data.List.Induction
import Mathlib.Logic.Function.Basic
import ServiceDesk.Proofs.Service.Protocol

/-!
Requests in flight. A schedule says whose turn it is; a turn is one call on the store, or the taking
or releasing of a lock, and it is lost while the lock is held by another request or when there is
nothing left to do. Whatever the schedule is, every request stays within its protocol, and a lock is
held by the one request that has taken it and not released it.
-/

namespace ServiceDesk

def Action.outcome? {α : Type} : Action α → Option α
  | .done outcome => some outcome
  | _ => none

theorem Action.outcome?_eq_some {α : Type} {action : Action α} {outcome : α} :
    action.outcome? = some outcome ↔ action = .done outcome := by
  cases action with
  | done result => simp [outcome?]
  | call c next => simp [outcome?]
  | acquire layout next => simp [outcome?]
  | release layout next => simp [outcome?]

/-- Requests at work on one store. -/
structure Desk (ι : Type) where
  store : Store
  /-- Who holds the lock of a layout. -/
  holder : Layout → Option ι
  /-- What each request still has to do. -/
  tasks : ι → Action (Except DeskError Reply)
  /-- The steps taken so far, the latest first. -/
  log : List (ι × Event)

/-- An exchange that has taken place on some store. -/
def Event.Answered : Event → Prop
  | .exchange call answer => ∃ store : Store, (store.answer call).1 = answer
  | _ => True

namespace Desk

variable {ι : Type} [DecidableEq ι]

def start (store : Store) (requests : ι → Request) : Desk ι where
  store := store
  holder _ := none
  tasks i := (requests i).operation.run
  log := []

/-- A step of one request: it is noted, and the rest remains to be done. -/
def advance (desk : Desk ι) (i : ι) (event : Event) (rest : Action (Except DeskError Reply)) :
    Desk ι :=
  { desk with tasks := Function.update desk.tasks i rest, log := (i, event) :: desk.log }

/-- Give a request its turn. -/
def step (desk : Desk ι) (i : ι) : Desk ι :=
  match desk.tasks i with
  | .done _ => desk
  | .call c next =>
    { desk.advance i (.exchange c (desk.store.answer c).1) (next (desk.store.answer c).1) with
      store := (desk.store.answer c).2 }
  | .acquire layout next =>
    if (desk.holder layout).isSome then desk
    else { desk.advance i (.acquire layout) next with
      holder := Function.update desk.holder layout (some i) }
  | .release layout next =>
    { desk.advance i (.release layout) next with
      holder := Function.update desk.holder layout none }

/-- Give requests their turns in the order of a schedule. -/
def run (desk : Desk ι) (schedule : List ι) : Desk ι := schedule.foldl step desk

/-- The steps that one request has taken, the latest first. -/
def past (desk : Desk ι) (i : ι) : List Event :=
  desk.log.filterMap fun entry => if entry.1 = i then some entry.2 else none

variable {desk : Desk ι} {i : ι}

@[simp]
theorem run_nil (desk : Desk ι) : desk.run [] = desk := rfl

@[simp]
theorem run_cons (desk : Desk ι) (i : ι) (schedule : List ι) :
    desk.run (i :: schedule) = (desk.step i).run schedule := rfl

theorem run_append (desk : Desk ι) (early late : List ι) :
    desk.run (early ++ late) = (desk.run early).run late := List.foldl_append

theorem run_concat (desk : Desk ι) (schedule : List ι) (i : ι) :
    desk.run (schedule ++ [i]) = (desk.run schedule).step i := by
  rw [run_append, run_cons, run_nil]

/-- A turn adds at most one step to the log. -/
theorem step_log (desk : Desk ι) (i : ι) :
    ∃ steps, (desk.step i).log = steps ++ desk.log := by
  unfold step
  split
  · exact ⟨[], rfl⟩
  · exact ⟨[_], rfl⟩
  · split
    · exact ⟨[], rfl⟩
    · exact ⟨[_], rfl⟩
  · exact ⟨[_], rfl⟩

theorem run_log (desk : Desk ι) (schedule : List ι) :
    ∃ steps, (desk.run schedule).log = steps ++ desk.log := by
  induction schedule generalizing desk with
  | nil => exact ⟨[], rfl⟩
  | cons i schedule ih =>
      obtain ⟨first, hfirst⟩ := desk.step_log i
      obtain ⟨rest, hrest⟩ := ih (desk.step i)
      exact ⟨rest ++ first, by rw [run_cons, hrest, hfirst, List.append_assoc]⟩

/-- What is true at first and kept by every step of a run is true in the end. -/
theorem run_induction {motive : Desk ι → Prop} (hstart : motive desk)
    (hstep : ∀ served i, motive (desk.run served) → motive ((desk.run served).step i))
    (schedule : List ι) : motive (desk.run schedule) := by
  induction schedule using List.reverseRecOn with
  | nil => exact hstart
  | append_singleton served i ih =>
      rw [run_concat]
      exact hstep served i ih

theorem step_cases {motive : Desk ι → Prop} (hidle : motive desk)
    (hcall : ∀ c next, desk.tasks i = .call c next → motive
      { desk.advance i (.exchange c (desk.store.answer c).1) (next (desk.store.answer c).1) with
        store := (desk.store.answer c).2 })
    (hacquire : ∀ layout next, desk.tasks i = .acquire layout next → desk.holder layout = none →
      motive { desk.advance i (.acquire layout) next with
        holder := Function.update desk.holder layout (some i) })
    (hrelease : ∀ layout next, desk.tasks i = .release layout next → motive
      { desk.advance i (.release layout) next with
        holder := Function.update desk.holder layout none }) : motive (desk.step i) := by
  unfold step
  split
  · exact hidle
  · rename_i c next htask
    exact hcall c next htask
  · rename_i layout next htask
    split
    · exact hidle
    · rename_i hfree
      exact hacquire layout next htask (by simpa using hfree)
  · rename_i layout next htask
    exact hrelease layout next htask

theorem past_of_log {after : Desk ι} {event : Event} (h : after.log = (i, event) :: desk.log)
    (j : ι) : after.past j = if i = j then event :: desk.past j else desk.past j := by
  rw [past, h, List.filterMap_cons]
  by_cases hij : i = j
  · simp only [if_pos hij, past]
  · simp only [if_neg hij, past]

theorem mem_past {event : Event} : event ∈ desk.past i ↔ (i, event) ∈ desk.log := by
  rw [past, List.mem_filterMap]
  constructor
  · rintro ⟨⟨j, other⟩, hmem, heq⟩
    dsimp only at heq
    split at heq
    · rename_i hij
      cases heq
      exact hij ▸ hmem
    · cases heq
  · intro hmem
    exact ⟨(i, event), hmem, if_pos rfl⟩

/-- Every request is within its protocol, every lock is held by the request that has taken it and not
released it, and every answer was given by some store. -/
structure Regular (requests : ι → Request) (desk : Desk ι) : Prop where
  obeys : ∀ i, (requests i).Obeys (desk.past i) (desk.tasks i)
  holds : ∀ i layout, desk.holder layout = some i ↔ held (desk.past i) = some layout
  answered : ∀ entry ∈ desk.log, entry.2.Answered

variable {requests : ι → Request}

theorem Regular.start (store : Store) (requests : ι → Request) :
    Regular requests (start store requests) where
  obeys i := (requests i).obeys_operation
  holds i layout := by simp [Desk.start, past, held]
  answered := fun _ hmem => by cases hmem

/-- What holds of the next request after its step, and held of all others before, holds of all. -/
theorem forall_advance {motive : ι → List Event → Action (Except DeskError Reply) → Prop}
    {event : Event} {rest : Action (Except DeskError Reply)}
    (hself : motive i (event :: desk.past i) rest)
    (hothers : ∀ j, j ≠ i → motive j (desk.past j) (desk.tasks j)) (j : ι) :
    motive j ((desk.advance i event rest).past j) ((desk.advance i event rest).tasks j) := by
  rw [past_of_log rfl]
  change motive j _ (Function.update desk.tasks i rest j)
  by_cases hij : i = j
  · subst hij
    rwa [if_pos rfl, Function.update_self]
  · rw [if_neg hij, Function.update_of_ne (Ne.symm hij)]
    exact hothers j (Ne.symm hij)

/-- What is true of all that some requests have read under a lock is true after a call, if it stays true
for the requests that are still pending, and is true of the call if it is a read. -/
theorem current_exchange (rest : Action (Except DeskError Reply)) {watched : ι → Prop}
    {before after : Layout → Event → Prop} {c : Store.Call} {answer : c.Answer}
    (h : ∀ j layout, watched j → held (desk.past j) = some layout → pending (desk.past j) = true →
      ∀ event ∈ guarded (desk.past j), before layout event)
    (hkeep : ∀ j layout, watched j → held (desk.past j) = some layout →
      (i = j → c.isWrite = false) → ∀ event, before layout event → after layout event)
    (hread : ∀ layout, watched i → held (desk.past i) = some layout → c.isWrite = false →
      after layout (.exchange c answer)) (j : ι) (layout : Layout) (hwatched : watched j)
    (hheld : held ((desk.advance i (.exchange c answer) rest).past j) = some layout)
    (hpending : pending ((desk.advance i (.exchange c answer) rest).past j) = true) :
    ∀ event ∈ guarded ((desk.advance i (.exchange c answer) rest).past j), after layout event := by
  rw [past_of_log rfl] at hheld hpending ⊢
  by_cases hij : i = j
  · subst hij
    rw [if_pos rfl] at hheld hpending ⊢
    obtain ⟨hnowrite, hbefore⟩ := pending_exchange.1 hpending
    refine List.forall_mem_cons.2 ⟨hread layout hwatched hheld hnowrite, ?_⟩
    exact fun event hmem => hkeep i layout hwatched hheld (fun _ => hnowrite) event
      (h i layout hwatched hheld hbefore event hmem)
  · rw [if_neg hij] at hheld hpending ⊢
    exact fun event hmem => hkeep j layout hwatched hheld (fun heq => absurd heq hij) event
      (h j layout hwatched hheld hpending event hmem)

/-- Nothing has been read yet under a lock that has just been taken or released. -/
theorem current_lock (rest : Action (Except DeskError Reply)) {watched : ι → Prop}
    {good : Layout → Event → Prop} {event : Event} (hnone : ∀ past, guarded (event :: past) = [])
    (h : ∀ j layout, watched j → held (desk.past j) = some layout → pending (desk.past j) = true →
      ∀ event ∈ guarded (desk.past j), good layout event) (j : ι) (layout : Layout)
    (hwatched : watched j) (hheld : held ((desk.advance i event rest).past j) = some layout)
    (hpending : pending ((desk.advance i event rest).past j) = true) :
    ∀ read ∈ guarded ((desk.advance i event rest).past j), good layout read := by
  rw [past_of_log rfl] at hheld hpending ⊢
  split
  · rw [hnone]
    exact fun _ hmem => nomatch hmem
  · rename_i hij
    rw [if_neg hij] at hheld hpending
    exact h j layout hwatched hheld hpending

theorem Regular.obeys_advance (h : Regular requests desk) {event : Event}
    {rest : Action (Except DeskError Reply)}
    (hrest : (requests i).Obeys (event :: desk.past i) rest) (j : ι) :
    (requests j).Obeys ((desk.advance i event rest).past j)
      ((desk.advance i event rest).tasks j) :=
  forall_advance (motive := fun j => (requests j).Obeys) hrest (fun j _ => h.obeys j) j

/-- A call that is next has nothing final before it, and is allowed. -/
theorem Regular.call (h : Regular requests desk) {c : Store.Call}
    {next : c.Answer → Action (Except DeskError Reply)} (htask : desk.tasks i = .call c next) :
    pending (desk.past i) = true ∧ (requests i).Allows (desk.past i) c ∧
      ∀ answer, (requests i).Obeys (.exchange c answer :: desk.past i) (next answer) := by
  have hobeys := h.obeys i
  rw [htask] at hobeys
  exact hobeys.call

theorem Regular.acquire (h : Regular requests desk) {layout : Layout}
    {next : Action (Except DeskError Reply)} (htask : desk.tasks i = .acquire layout next) :
    held (desk.past i) = none ∧ (requests i).Obeys (.acquire layout :: desk.past i) next := by
  have hobeys := h.obeys i
  rw [htask] at hobeys
  exact hobeys.acquire

theorem Regular.release (h : Regular requests desk) {layout : Layout}
    {next : Action (Except DeskError Reply)} (htask : desk.tasks i = .release layout next) :
    held (desk.past i) = some layout ∧
      (requests i).Obeys (.release layout :: desk.past i) next := by
  have hobeys := h.obeys i
  rw [htask] at hobeys
  exact hobeys.release

theorem Regular.answered_past (h : Regular requests desk) (i : ι) :
    ∀ event ∈ desk.past i, event.Answered :=
  fun _ hmem => h.answered _ (mem_past.1 hmem)

/-- No other request holds a lock that one of them holds. -/
theorem Regular.holder_unique (h : Regular requests desk) {j : ι} {layout : Layout}
    (hi : held (desk.past i) = some layout) (hj : held (desk.past j) = some layout) : i = j :=
  Option.some.inj (((h.holds i layout).2 hi).symm.trans ((h.holds j layout).2 hj))

theorem Regular.step (h : Regular requests desk) (i : ι) : Regular requests (desk.step i) := by
  refine step_cases h ?_ ?_ ?_
  · intro c next htask
    refine ⟨h.obeys_advance ((h.call htask).2.2 _), ?_, List.forall_mem_cons.2 ⟨⟨_, rfl⟩, h.answered⟩⟩
    intro j layout
    rw [past_of_log rfl]
    split
    · rename_i hij
      exact hij ▸ h.holds i layout
    · exact h.holds j layout
  · intro layout next htask hfree
    obtain ⟨hnone, hnext⟩ := h.acquire htask
    refine ⟨h.obeys_advance hnext, ?_, List.forall_mem_cons.2 ⟨trivial, h.answered⟩⟩
    intro j other
    rw [past_of_log rfl]
    change Function.update desk.holder layout (some i) other = some j ↔ _
    by_cases hlayout : other = layout
    · subst hlayout
      rw [Function.update_self, Option.some.injEq]
      split
      · rename_i hij
        exact iff_of_true hij rfl
      · rename_i hij
        refine iff_of_false hij ?_
        rw [← h.holds j other, hfree]
        exact nofun
    · rw [Function.update_of_ne hlayout, h.holds j other]
      split
      · rename_i hij
        subst hij
        rw [hnone, held]
        exact iff_of_false nofun fun heq => hlayout (Option.some.inj heq).symm
      · exact Iff.rfl
  · intro layout next htask
    obtain ⟨hheld, hnext⟩ := h.release htask
    refine ⟨h.obeys_advance hnext, ?_, List.forall_mem_cons.2 ⟨trivial, h.answered⟩⟩
    intro j other
    rw [past_of_log rfl]
    change Function.update desk.holder layout none other = some j ↔ _
    by_cases hlayout : other = layout
    · subst hlayout
      rw [Function.update_self]
      split
      · exact iff_of_false nofun nofun
      · rename_i hij
        exact iff_of_false nofun fun hother => hij (h.holder_unique hheld hother)
    · rw [Function.update_of_ne hlayout, h.holds j other]
      split
      · rename_i hij
        subst hij
        rw [hheld, held]
        exact iff_of_false (fun heq => hlayout (Option.some.inj heq).symm) nofun
      · exact Iff.rfl

theorem Regular.run (h : Regular requests desk) (schedule : List ι) :
    Regular requests (desk.run schedule) :=
  run_induction h (fun _ i hrun => hrun.step i) schedule

end Desk

end ServiceDesk
