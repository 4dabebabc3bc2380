import ServiceDesk.Proofs.Service.Deletions

/-!
Requests that could as well have started just now. A creation or a move reads under its lock, and
nobody else writes to that table meanwhile, so all that it has read would be read again from the
present store. The one read without the lock is that of the organization of a new category: it may be
answered differently by now, but the organization is still found, and no more than that matters.
-/

namespace ServiceDesk

open Hierarchy Service Operation

namespace Store

/-- Whether two stores agree in one table. -/
def SameTable (layout : Layout) (a b : Store) : Prop :=
  match layout with
  | .organizations => a.organizations = b.organizations
  | .categories => a.categories = b.categories

theorem answer_congr {a b : Store} {call : Call} (hread : call.isWrite = false)
    (hsame : SameTable call.layout a b) : (a.answer call).1 = (b.answer call).1 := by
  obtain ⟨organizations, categories⟩ := a
  obtain ⟨others, more⟩ := b
  cases call with
  | saveOrganization organization => cases hread
  | deleteOrganization id => cases hread
  | saveCategory category => cases hread
  | deleteCategory id => cases hread
  | _ => cases hsame; rfl

/-- A call changes its table only. -/
theorem sameTable_answer {store : Store} {call : Call} {layout : Layout} (h : call.layout ≠ layout) :
    SameTable layout store (store.answer call).2 := by
  cases hanswer : (store.answer call).1 with
  | error fault =>
      rw [answer_of_error hanswer]
      cases layout <;> rfl
  | ok result =>
      have hpair := answer_eq hanswer
      cases call with
      | saveOrganization organization =>
          rw [saveOrganization_eq_ok (answer_saveOrganization hpair)]
          cases layout with
          | organizations => exact absurd rfl h
          | categories => rfl
      | saveCategory category =>
          rw [saveCategory_eq_ok (answer_saveCategory hpair)]
          cases layout with
          | organizations => rfl
          | categories => exact absurd rfl h
      | deleteOrganization id =>
          cases layout with
          | organizations => exact absurd rfl h
          | categories =>
              cases result with
              | false => rw [(deleteOrganization_eq_false (ofWrite_eq_ok hpair)).2]; rfl
              | true => rw [(deleteOrganization_eq_ok (ofWrite_eq_ok hpair)).2.2]; rfl
      | deleteCategory id =>
          cases layout with
          | organizations =>
              cases result with
              | false => rw [(deleteCategory_eq_false (ofWrite_eq_ok hpair)).2]; rfl
              | true => rw [(deleteCategory_eq_ok (ofWrite_eq_ok hpair)).2.2]; rfl
          | categories => exact absurd rfl h
      | _ => cases layout <;> rfl

end Store

/-- An organization that was found is still found after a save, if plain timestamps are saved over a
row that is there. -/
theorem Contents.found_of_save {contents : Contents} {organization : Organization} {next : Store}
    (hsave : contents.store.saveOrganization organization = .ok next)
    (hplain : contents.store.has .organizations organization.id = true → organization.IsPlain)
    {id : Uuid} {found : Organization}
    (hfound : (contents.store.answer (.getOrganization id)).1 = .ok (some found)) :
    ∃ organization, (next.answer (.getOrganization id)).1 = .ok (some organization) := by
  have hread : ∀ store : Store, (store.answer (.getOrganization id)).1 =
      (store.getOrganization id).mapError StoreError.failed := fun _ => rfl
  obtain ⟨held, hheld, _, hold, _⟩ := organization?_of_answer hfound
  have hthere := (Store.getOrganization_eq_some hfound).1
  rw [hread] at hfound ⊢
  rw [Store.getOrganization, Store.findOrganization?_save hsave]
  by_cases hid : id = organization.id
  · have hmerged : (contents.mergeOrganization organization).IsPlain := by
      rw [mergeOrganization, ← hid, hheld]
      exact ⟨hold.1, (hplain (hid ▸ hthere)).2⟩
    rw [if_pos hid, contents.mergeOrganization_store]
    refine ⟨(contents.mergeOrganization organization).toMicros, ?_⟩
    dsimp only
    rw [OrganizationRow.toOrganization_ofOrganization, if_pos hmerged]
    rfl
  · rw [if_neg hid]
    exact ⟨found, hfound⟩

/-- An action comes to what remains of it by some steps, the latest of which comes first. -/
inductive Action.Leads {α : Type} (action : Action α) : List Event → Action α → Prop
  | here : Leads action [] action
  | call {past c next answer} (h : Leads action past (.call c next)) :
      Leads action (.exchange c answer :: past) (next answer)
  | acquire {past layout next} (h : Leads action past (.acquire layout next)) :
      Leads action (.acquire layout :: past) next
  | release {past layout next} (h : Leads action past (.release layout next)) :
      Leads action (.release layout :: past) next

theorem Action.Leads.eq_of_nil {α : Type} {action rest : Action α} (h : action.Leads [] rest) :
    rest = action := by
  cases h
  rfl

/-- A read on the table of the lock that is held, which the store would answer in the same way. -/
def Event.Lasting (lock : Option Layout) (store : Store) : Event → Prop
  | .exchange call answer => lock = some call.layout ∧ call.isWrite = false ∧
      (store.answer call).1 = answer
  | _ => True

/-- An action that only reads what lasts can be run from what remains of it. -/
theorem Action.Leads.run {α : Type} {action rest : Action α} {past : List Event}
    (h : action.Leads past rest) {lock : Option Layout} {store : Store}
    (hlasting : ∀ event ∈ past, event.Lasting lock store) :
    action.run Store.answer store = rest.run Store.answer store := by
  induction h with
  | here => rfl
  | call _ ih =>
      obtain ⟨hlast, hearlier⟩ := List.forall_mem_cons.1 hlasting
      obtain ⟨_, hread, rfl⟩ := hlast
      rw [ih hearlier, run_call, Store.answer_of_read hread]
  | acquire _ ih => exact ih (List.forall_mem_cons.1 hlasting).2
  | release _ ih => exact ih (List.forall_mem_cons.1 hlasting).2

namespace Request

/-- Where a request may begin to read under its lock: at its first step, or right after the organization
of a new category was found, no matter how that organization looks. -/
inductive Opens (request : Request) (store : Store) :
    List Event → Action (Except DeskError Reply) → Prop
  | atOnce : Opens request store [] request.operation.run
  | found {id next organization} (hrun : request.operation.run = .call (.getOrganization id) next)
      (hsame : ∀ a b, next (.ok (some a)) = next (.ok (some b)))
      (hfound : ∃ present, (store.answer (.getOrganization id)).1 = .ok (some present)) :
      Opens request store [.exchange (.getOrganization id) (.ok (some organization))]
        (next (.ok (some organization)))

/-- Some steps of a request that could have been taken just now with the same result. -/
def Stands (request : Request) (store : Store) (past : List Event)
    (rest : Action (Except DeskError Reply)) : Prop :=
  ∃ early since base, past = since ++ early ∧ request.Opens store early base ∧
    base.Leads since rest ∧ ∀ event ∈ since, event.Lasting (held past) store

variable {request : Request} {store : Store} {past early : List Event}
  {base rest : Action (Except DeskError Reply)}

theorem Opens.run (h : request.Opens store early base) :
    request.serve store = base.run Store.answer store := by
  cases h with
  | atOnce => rfl
  | found hrun hsame hfound =>
      obtain ⟨present, hpresent⟩ := hfound
      change request.operation.run.run Store.answer store = _
      rw [hrun, Action.run_call, hpresent, hsame present, Store.answer_of_read rfl]

theorem Stands.serve (h : request.Stands store past rest) :
    request.serve store = rest.run Store.answer store := by
  obtain ⟨early, since, base, _, hopens, hleads, hlasting⟩ := h
  rw [hopens.run, hleads.run hlasting]

theorem Stands.start (request : Request) (store : Store) :
    request.Stands store [] request.operation.run :=
  ⟨[], [], _, rfl, .atOnce, .here, fun _ hmem => by cases hmem⟩

/-- A new category looks up its organization first, and goes on if it is there. -/
theorem tenant_next {stamp : Stamp} {organizationId : Uuid} {input : NewCategory} {id : Uuid}
    {next : (Store.Call.getOrganization id).Answer → Action (Except DeskError Reply)}
    (h : (createCategory stamp organizationId input).operation.run =
      .call (.getOrganization id) next) :
    (∀ a b, next (.ok (some a)) = next (.ok (some b))) ∧
      ∀ answer, (next answer).ending? = none → ∃ organization, answer = .ok (some organization) := by
  rw [operation, Service.createCategory] at h
  cases hinput : Category.ofInput stamp.id organizationId input.name input.description
      input.parentId stamp.now with
  | error error =>
      rw [hinput] at h
      cases h
  | ok category =>
      rw [hinput] at h
      injection h with hcall hnext
      cases hcall
      cases hnext
      refine ⟨fun a b => rfl, ?_⟩
      intro answer hasks
      cases answer with
      | error fault => cases hasks
      | ok found =>
          cases found with
          | none => cases hasks
          | some organization => exact ⟨organization, rfl⟩

/-- A read under the lock may be repeated, and so may the look-up of an organization that is found. -/
theorem Stands.read {c : Store.Call} {next : c.Answer → Action (Except DeskError Reply)}
    (h : request.Stands store past (.call c next)) (hlocks : request.lock?.isSome = true)
    (hallows : request.Allows past c) (hread : c.isWrite = false)
    (hasks : (next (store.answer c).1).ending? = none) :
    request.Stands store (.exchange c (store.answer c).1 :: past) (next (store.answer c).1) := by
  obtain ⟨early, since, base, hpast, hopens, hleads, hlasting⟩ := h
  cases hallows with
  | look hlock _ =>
      rw [hlock] at hlocks
      cases hlocks
  | read _ hheld hlayout _ =>
      refine ⟨early, _ :: since, base, congrArg _ hpast, hopens, hleads.call, ?_⟩
      exact List.forall_mem_cons.2 ⟨⟨hlayout ▸ hheld, hread, rfl⟩, hlasting⟩
  | tenant =>
      -- the look-up is the first step, so it may take the place of the start
      obtain ⟨rfl, rfl⟩ := List.append_eq_nil_iff.1 hpast.symm
      cases hopens
      have hrun := hleads.eq_of_nil.symm
      obtain ⟨hsame, hnext⟩ := tenant_next hrun
      obtain ⟨organization, hanswer⟩ := hnext _ hasks
      rw [hanswer]
      exact ⟨_, [], _, rfl, .found hrun hsame ⟨organization, hanswer⟩, .here,
        fun _ hmem => by cases hmem⟩
  | _ => cases hread

theorem Stands.acquire {layout : Layout} {next : Action (Except DeskError Reply)}
    (h : request.Stands store past (.acquire layout next)) (hfree : held past = none) :
    request.Stands store (.acquire layout :: past) next := by
  obtain ⟨early, since, base, hpast, hopens, hleads, hlasting⟩ := h
  refine ⟨early, _ :: since, base, congrArg _ hpast, hopens, hleads.acquire, ?_⟩
  refine List.forall_mem_cons.2 ⟨trivial, fun event hmem => ?_⟩
  have hlast := hlasting event hmem
  rw [hfree] at hlast
  cases event with
  | exchange call answer => cases hlast.1
  | acquire other => trivial
  | release other => trivial

/-- What others write makes no difference as long as they leave alone the table of the lock, and all
organizations that could be found. -/
theorem Stands.other {after : Store} (h : request.Stands store past rest)
    (hfound : ∀ id organization, (store.answer (.getOrganization id)).1 = .ok (some organization) →
      ∃ present, (after.answer (.getOrganization id)).1 = .ok (some present))
    (hsame : ∀ layout, held past = some layout → store.SameTable layout after) :
    request.Stands after past rest := by
  obtain ⟨early, since, base, hpast, hopens, hleads, hlasting⟩ := h
  refine ⟨early, since, base, hpast, ?_, hleads, fun event hmem => ?_⟩
  · cases hopens with
    | atOnce => exact .atOnce
    | found hrun hany hthere =>
        obtain ⟨organization, hanswer⟩ := hthere
        exact .found hrun hany (hfound _ organization hanswer)
  · have hlast := hlasting event hmem
    cases event with
    | exchange call answer =>
        obtain ⟨hheld, hread, rfl⟩ := hlast
        exact ⟨hheld, hread, (Store.answer_congr hread (hsame _ hheld)).symm⟩
    | acquire other => trivial
    | release other => trivial

end Request

end ServiceDesk
