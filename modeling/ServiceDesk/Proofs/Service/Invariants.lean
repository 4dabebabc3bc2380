import ServiceDesk.Proofs.Service.Schedules
import ServiceDesk.Proofs.Service.Serial

/-!
Conditions on what is stored that every allowed write keeps. A request may write what it makes of its
reads, however old they are: if everything was read from contents that met the condition, the write
leaves contents that meet it. Such a condition lasts while requests are served one after another, and
also while they are all at work at the same time.
-/

namespace ServiceDesk

/-- An exchange that was answered from the store of some contents. -/
def Event.ReadFrom (good : Contents → Prop) : Event → Prop
  | .exchange call answer => ∃ old : Contents, good old ∧ (old.store.answer call).1 = answer
  | _ => True

theorem Event.ReadFrom.mono {good weaker : Contents → Prop} {event : Event}
    (h : event.ReadFrom good) (himp : ∀ contents, good contents → weaker contents) :
    event.ReadFrom weaker := by
  cases event with
  | exchange call answer =>
      obtain ⟨old, hold, hanswer⟩ := h
      exact ⟨old, himp old hold, hanswer⟩
  | acquire layout => trivial
  | release layout => trivial

theorem Event.Current.readFrom {good : Contents → Prop} {contents : Contents} {event : Event}
    (hgood : good contents) (h : event.Current contents.store) : event.ReadFrom good := by
  cases event with
  | exchange call answer => exact ⟨contents, hgood, h⟩
  | acquire layout => trivial
  | release layout => trivial

/-- What an allowed call makes of contents that meet a condition meets it too, if all that the request
has read did. -/
def Request.Keeps (good : Contents → Prop) (request : Request) : Prop :=
  ∀ {past call contents after}, request.Allows past call →
    (∀ event ∈ past, event.ReadFrom good) → good contents → contents.Becomes call after → good after

variable {good : Contents → Prop} {contents : Contents}

/-- A condition that a request keeps is met after the request has been served alone. -/
theorem Request.Keeps.serve {request : Request} (h : request.Keeps good) (hgood : good contents) :
    ∃ after : Contents, (request.serve contents.store).2 = after.store ∧ good after := by
  obtain ⟨after, hafter, rfl | ⟨past, call, hallows, hcurrent, hcall⟩⟩ :=
    request.serve_current contents
  · exact ⟨after, hafter, hgood⟩
  · exact ⟨after, hafter, h hallows (fun event hmem => (hcurrent event hmem).readFrom hgood) hgood
      hcall⟩

/-- A condition that all requests keep is met after any of them have been served one after another. -/
theorem serveAll_keeps (hkeeps : ∀ request : Request, request.Keeps good) (hgood : good contents)
    (requests : List Request) :
    ∃ after : Contents, serveAll contents.store requests = after.store ∧ good after := by
  induction requests generalizing contents with
  | nil => exact ⟨contents, rfl, hgood⟩
  | cons request requests ih =>
      obtain ⟨next, hnext, hgood⟩ := Request.Keeps.serve (hkeeps request) hgood
      rw [serveAll, List.foldl_cons, hnext]
      exact ih hgood

namespace Desk

variable {ι : Type} {requests : ι → Request}

/-- What is stored meets a condition, and so did all that requests have read so far. -/
structure Kept (good : Contents → Prop) (desk : Desk ι) : Prop where
  stored : ∃ now : Contents, desk.store = now.store ∧ good now
  reads : ∀ entry ∈ desk.log, entry.2.ReadFrom good

variable [DecidableEq ι] {desk : Desk ι}

theorem Kept.step (h : Kept good desk) (hregular : Regular requests desk)
    (hkeeps : ∀ i, (requests i).Keeps good) (i : ι) : Kept good (desk.step i) := by
  refine step_cases h ?_ ?_ ?_
  · intro c next htask
    obtain ⟨now, hstore, hnow⟩ := h.stored
    have hallows := (hregular.call htask).2.1
    have hreads : ∀ event ∈ desk.past i, event.ReadFrom good :=
      fun event hmem => h.reads _ (mem_past.1 hmem)
    obtain ⟨after, hafter, hcall⟩ := now.answer_becomes c
    refine ⟨⟨after, ?_, hkeeps i hallows hreads hnow hcall⟩, ?_⟩
    · rw [← hafter, ← hstore]
    · exact List.forall_mem_cons.2 ⟨⟨now, hnow, by rw [hstore]⟩, h.reads⟩
  · exact fun other next _ _ => ⟨h.stored, List.forall_mem_cons.2 ⟨trivial, h.reads⟩⟩
  · exact fun other next _ => ⟨h.stored, List.forall_mem_cons.2 ⟨trivial, h.reads⟩⟩

/-- A condition that all requests keep is met whatever the order of their steps is. -/
theorem kept_run (hkeeps : ∀ i, (requests i).Keeps good) (hgood : good contents)
    (schedule : List ι) : Kept good ((start contents.store requests).run schedule) := by
  have hstart : Kept good (start contents.store requests) :=
    ⟨⟨contents, rfl, hgood⟩, fun _ hmem => by cases hmem⟩
  refine run_induction hstart (fun served i hkept => ?_) schedule
  exact hkept.step ((Regular.start contents.store requests).run served) hkeeps i

end Desk

end ServiceDesk
