import ServiceDesk.Proofs.Service.Moves
import ServiceDesk.Proofs.Store.References

/-!
Creations, moves and deletions at the same time. Deletions take no lock, so an entity that a
creation or a move has read may be gone when it saves, and a move may even bring back the entity that
it moves. But as long as a lock is held deletions are all that can happen to its table, so what was
read has all links that are still there. The checks are no weaker on more links, and the parent is
there, or else the store refuses the save.
-/

namespace ServiceDesk

open Hierarchy

namespace Contents

variable {contents now old : Contents} {layout : Layout}

theorem Legal.forest_links (h : contents.Legal) (layout : Layout) :
    Forest (contents.links layout) := by
  cases layout with
  | organizations => exact h.organizations
  | categories => exact h.forest_categories

/-- All links of one layout were there in older contents. -/
def Thins (layout : Layout) (now old : Contents) : Prop :=
  match layout with
  | .organizations => linksOf now.organizations ⊆ linksOf old.organizations
  | .categories => ∀ organizationId,
      linksOf (now.categoriesOf organizationId) ⊆ linksOf (old.categoriesOf organizationId)

theorem Thins.refl (layout : Layout) (contents : Contents) : Thins layout contents contents := by
  cases layout with
  | organizations => exact List.Subset.refl _
  | categories => exact fun _ => List.Subset.refl _

theorem Thins.trans {a b c : Contents} (hab : Thins layout a b) (hbc : Thins layout b c) :
    Thins layout a c := by
  cases layout with
  | organizations => exact List.Subset.trans hab hbc
  | categories => exact fun owner => List.Subset.trans (hab owner) (hbc owner)

theorem Thins.dropOrganization (contents : Contents) (id : Uuid) (layout : Layout) :
    Thins layout (contents.dropOrganization id) contents := by
  cases layout with
  | organizations => exact List.map_subset _ (List.filter_subset_self _)
  | categories => exact fun _ => List.Subset.refl _

theorem Thins.dropCategory (contents : Contents) (id : Uuid) (layout : Layout) :
    Thins layout (contents.dropCategory id) contents := by
  cases layout with
  | organizations => exact List.Subset.refl _
  | categories =>
      intro organizationId
      refine List.map_subset _ fun category hmem => ?_
      obtain ⟨hdropped, howner⟩ := List.mem_filter.1 hmem
      exact List.mem_filter.2 ⟨List.mem_of_mem_filter hdropped, howner⟩

/-- A category that is still there is in the organization in which it was. -/
theorem Thins.organizationId_of_mem (h : Thins .categories now old) (hold : old.Legal)
    {organizationId id : Uuid} (hmem : id ∈ keys (linksOf (old.categoriesOf organizationId))) :
    ∀ category ∈ now.categories, category.id = id → category.organizationId = organizationId := by
  rintro category hcategory rfl
  have hlink : (category.id, category.parentId) ∈
      linksOf (now.categoriesOf category.organizationId) :=
    mem_linksOf.2 ⟨category, List.mem_filter.2 ⟨hcategory, by simp⟩, rfl, rfl⟩
  obtain ⟨first, hfirst, hid, _⟩ := mem_linksOf.1 (h category.organizationId hlink)
  obtain ⟨hfirst, howner⟩ := List.mem_filter.1 hfirst
  have howner : first.organizationId = category.organizationId := by simpa using howner
  exact howner.symm.trans (hold.organizationId_of_mem hmem first hfirst hid)

theorem has_store (contents : Contents) (layout : Layout) (id : Uuid) :
    contents.store.has layout id = true ↔ id ∈ keys (contents.links layout) := by
  cases layout with
  | organizations =>
      rw [Store.has, findOrganization?_store, Option.isSome_map, organization?_isSome, links,
        keys_linksOf]
  | categories =>
      rw [Store.has, findCategory?_store, Option.isSome_map, category?_isSome, links, keys_linksOf]

end Contents

/-- An exchange on one table that was answered from legal contents with all the present links. -/
def Event.Covers (now : Contents) (layout : Layout) : Event → Prop
  | .exchange call answer => call.layout = layout ∧ ∃ old : Contents,
      old.Legal ∧ (old.store.answer call).1 = answer ∧ Contents.Thins layout now old
  | _ => True

theorem Event.Covers.trans {now after : Contents} {layout : Layout} {event : Event}
    (h : event.Covers now layout) (hthins : Contents.Thins layout after now) :
    event.Covers after layout := by
  cases event with
  | exchange call answer =>
      obtain ⟨hlayout, old, hold, hanswer, hnow⟩ := h
      exact ⟨hlayout, old, hold, hanswer, hthins.trans hnow⟩
  | acquire other => trivial
  | release other => trivial

namespace Request.Allows

variable {request : Request} {past : List Event} {now : Contents}

/-- Saves that are not made by an update are made under the lock of their table. -/
theorem lock_of_save {call : Store.Call} (h : request.Allows past call) (hwrite : call.isWrite = true)
    (hkeep : call.isDeletion = false) (hupdate : request.isUpdate = false) :
    request.lock? = some call.layout := by
  cases h with
  | look _ hread => cases hwrite.symm.trans hread
  | read _ _ _ hread => cases hwrite.symm.trans hread
  | tenant => cases hwrite
  | updateOrganization _ _ => cases hupdate
  | updateCategory _ _ => cases hupdate
  | deleteOrganization => cases hkeep
  | deleteCategory => cases hkeep
  | _ => rfl

/-- A creation or a move of an organization that was judged before deletions may be saved after them,
if the store admits it. -/
theorem covered_organization {organization : Organization}
    (h : request.Allows past (.saveOrganization organization))
    (hlock : request.lock? = some .organizations) (hlegal : now.Legal)
    (hcovers : ∀ event ∈ guarded past, event.Covers now .organizations)
    (hadmits : now.AdmitsOrganization organization)
    (hfresh : ∀ id, request.generated? = some id → id ∉ keys (now.links .organizations)) :
    (now.putOrganization organization).Legal := by
  refine hlegal.putOrganization
    (h.graft_organization hlock hlegal.organizations ?_ ?_ hfresh)
  · intro all hall
    obtain ⟨_, old, hold, hanswer, hthins⟩ := hcovers _ hall
    have hperm := Contents.allOrganizations_answer hanswer
    refine ⟨(hperm.map _).nodup_iff.2 hold.organizations.nodup,
      List.Subset.trans hthins hperm.symm.subset, fun parent hparent _ => ?_⟩
    rw [keys_linksOf]
    exact (hadmits.parent parent hparent).2
  · intro id stored hstored
    obtain ⟨_, old, _, hanswer, _⟩ := hcovers _ hstored
    exact (Contents.getOrganization_answer hanswer).1

/-- A creation or a move of a category that was judged before deletions may be saved after them, if
the store admits it. -/
theorem covered_category {category : Category} (h : request.Allows past (.saveCategory category))
    (hlock : request.lock? = some .categories) (hlegal : now.Legal)
    (hcovers : ∀ event ∈ guarded past, event.Covers now .categories)
    (hadmits : now.AdmitsCategory category)
    (hfresh : ∀ id, request.generated? = some id → id ∉ keys (now.links .categories)) :
    (now.putCategory category).Legal := by
  have hfresh : ∀ id, request.generated? = some id → id ∉ now.categories.map Nested.id := by
    intro id hid
    rw [← keys_linksOf]
    exact hfresh id hid
  have hgraft := h.graft_category hlock hlegal.categories ?_ ?_ hfresh
  · exact hlegal.putCategory hgraft.1 hgraft.2
  · intro organizationId all hall
    obtain ⟨_, old, hold, hanswer, hthins⟩ := hcovers _ hall
    have hperm := Contents.categoriesFor_answer hanswer
    refine ⟨(hperm.map _).nodup_iff.2 (hold.categories organizationId).nodup,
      List.Subset.trans (hthins organizationId) hperm.symm.subset, fun parent hparent hlisted => ?_⟩
    obtain ⟨above, habove, rfl⟩ := List.mem_map.1 (hadmits.parent parent hparent).2
    have howner :=
      hthins.organizationId_of_mem hold ((hperm.map _).mem_iff.1 hlisted) above habove rfl
    rw [keys_linksOf]
    exact List.mem_map_of_mem (List.mem_filter.2 ⟨habove, by simpa using howner⟩)
  · intro id stored hstored
    obtain ⟨_, old, hold, hanswer, hthins⟩ := hcovers _ hstored
    obtain ⟨hid, hlink, _⟩ := Contents.getCategory_answer hanswer
    exact ⟨hid, hthins.organizationId_of_mem hold (mem_keys_of_mem hlink)⟩

end Request.Allows

namespace Desk

variable {ι : Type} {requests : ι → Request} {contents now after : Contents} {desk : Desk ι}

/-- An organization that is not there at first and is never created. -/
def Lost (requests : ι → Request) (contents : Contents) (id : Uuid) : Prop :=
  contents.store.has .organizations id = false ∧ ∀ i, ¬(requests i).Creates .organizations id

/-- Ids are given away once, and not those of rows that are there at first or of organizations that
such rows belong to. -/
structure UnusedIds (requests : ι → Request) (contents : Contents) : Prop where
  ids : NewIds requests contents.store
  owners : ∀ i id, (requests i).Creates .organizations id →
    ∀ category ∈ contents.categories, category.organizationId ≠ id

variable [DecidableEq ι] {i : ι}

/-- The contents are legal, nothing dangles that can still be there, and what was read under a lock
has all links that are still there. -/
structure Checked (requests : ι → Request) (contents : Contents) (desk : Desk ι) (now : Contents) :
    Prop where
  store : desk.store = now.store
  legal : now.Legal
  closed : now.Closed (Lost requests contents)
  current : ∀ i layout, (requests i).lock?.isSome = true → held (desk.past i) = some layout →
    pending (desk.past i) = true → ∀ event ∈ guarded (desk.past i), event.Covers now layout

theorem Checked.start (hlegal : contents.Legal) (hunused : UnusedIds requests contents) :
    Checked requests contents (start contents.store requests) contents where
  store := rfl
  legal := hlegal
  closed := by
    refine hlegal.closed fun category hmem hpresent => ?_
    by_contra hmissing
    refine hpresent ⟨?_, fun i hcreates => hunused.owners i _ hcreates category hmem rfl⟩
    rw [Bool.eq_false_iff, ne_eq, contents.has_store, Contents.links, keys_linksOf]
    exact hmissing
  current := fun _ _ _ hheld => by cases hheld

theorem Accounted.not_lost (h : Accounted requests contents.store desk)
    (hregular : Regular requests desk) {organization : Organization}
    (hallows : (requests i).Allows (desk.past i) (.saveOrganization organization)) :
    ¬Lost requests contents organization.id := by
  rintro ⟨haway, hnever⟩
  have hsaves : (Event.exchange (.saveOrganization organization) (.ok ())).Saves .organizations
      organization.id := ⟨rfl, rfl⟩
  rcases hallows.creates_or_finds (hregular.answered_past i) hsaves with
    hcreates | ⟨event, hmem, hfinds⟩
  · exact hnever i hcreates
  · rcases h.finds _ _ _ (mem_past.1 hmem) hfinds with hstart | ⟨j, hcreates, _⟩
    · rw [haway] at hstart
      cases hstart
    · exact hnever j hcreates

theorem Accounted.fresh (h : Accounted requests contents.store desk) (hstore : desk.store = now.store)
    (hnew : NewIds requests contents.store) (hpending : pending (desk.past i) = true)
    {layout : Layout} (hlock : (requests i).lock? = some layout) :
    ∀ id, (requests i).generated? = some id → id ∉ keys (now.links layout) := by
  intro id hid hmem
  rw [← now.has_store, ← hstore] at hmem
  have hdone := (h.rows layout id hmem).not_creates (hnew.anew ⟨hid, hlock⟩)
  rw [hpending] at hdone
  cases hdone

/-- A call that is not made by an update leaves legal contents, which other requests may have read with
more links. -/
theorem Checked.becomes (h : Checked requests contents desk now) (hregular : Regular requests desk)
    (haccounted : Accounted requests contents.store desk) (hnew : NewIds requests contents.store)
    (hkinds : ∀ i, (requests i).isUpdate = false) {c : Store.Call}
    {next : c.Answer → Action (Except DeskError Reply)} (htask : desk.tasks i = .call c next)
    (hcall : now.Becomes c after) : after.Legal ∧
      ∀ j layout, (requests j).lock?.isSome = true → held (desk.past j) = some layout →
        (i = j → c.isWrite = false) → Contents.Thins layout after now := by
  obtain ⟨hpending, hallows, _⟩ := hregular.call htask
  -- whoever saves holds the lock of the table, so all others that hold one have read the other table
  have hothers : c.isWrite = true → held (desk.past i) = some c.layout → ∀ j layout,
      held (desk.past j) = some layout → (i = j → c.isWrite = false) → layout ≠ c.layout := by
    rintro hwrite hheld j layout hother hread rfl
    cases hwrite.symm.trans (hread (hregular.holder_unique hheld hother))
  cases hcall with
  | same => exact ⟨h.legal, fun _ layout _ _ _ => .refl layout now⟩
  | @saveOrganization organization hsave =>
      have hpresent := haccounted.not_lost hregular hallows
      have hadmits := ((h.closed.saveOrganization_eq_ok hpresent).1 hsave).1
      have hlock := hallows.lock_of_save rfl rfl (hkinds i)
      obtain ⟨hheld, _⟩ := hallows.held_of_write rfl hlock
      refine ⟨hallows.covered_organization hlock h.legal ?_ hadmits
        (haccounted.fresh h.store hnew hpending hlock), ?_⟩
      · exact h.current i _ (Option.isSome_iff_exists.2 ⟨_, hlock⟩) hheld hpending
      · intro j layout _ hother hread
        cases layout with
        | organizations => exact absurd rfl (hothers rfl hheld j _ hother hread)
        | categories => exact fun _ => List.Subset.refl _
  | @saveCategory category hsave =>
      have hadmits := (h.closed.saveCategory_eq_ok.1 hsave).1
      have hlock := hallows.lock_of_save rfl rfl (hkinds i)
      obtain ⟨hheld, _⟩ := hallows.held_of_write rfl hlock
      refine ⟨hallows.covered_category hlock h.legal ?_ hadmits
        (haccounted.fresh h.store hnew hpending hlock), ?_⟩
      · exact h.current i _ (Option.isSome_iff_exists.2 ⟨_, hlock⟩) hheld hpending
      · intro j layout _ hother hread
        cases layout with
        | organizations => exact List.Subset.refl _
        | categories => exact absurd rfl (hothers rfl hheld j _ hother hread)
  | deleteOrganization hleaf _ =>
      exact ⟨h.legal.dropOrganization hleaf, fun _ layout _ _ _ => .dropOrganization now _ layout⟩
  | deleteCategory hleaf =>
      exact ⟨h.legal.dropCategory hleaf, fun _ layout _ _ _ => .dropCategory now _ layout⟩

theorem Checked.step (h : Checked requests contents desk now) (hregular : Regular requests desk)
    (haccounted : Accounted requests contents.store desk) (hnew : NewIds requests contents.store)
    (hkinds : ∀ i, (requests i).isUpdate = false) (i : ι) :
    ∃ after, Checked requests contents (desk.step i) after := by
  refine step_cases (motive := fun desk => ∃ after, Checked requests contents desk after)
    ⟨now, h⟩ ?_ ?_ ?_
  · intro c next htask
    have hallows := (hregular.call htask).2.1
    obtain ⟨after, hafter, hcall⟩ := now.answer_becomes c
    obtain ⟨hlegal, hthins⟩ := h.becomes hregular haccounted hnew hkinds htask hcall
    have hclosed := hcall.closed h.closed fun organization hsave =>
      haccounted.not_lost hregular (hsave ▸ hallows)
    refine ⟨after, by rw [← hafter, ← h.store], hlegal, hclosed, ?_⟩
    refine current_exchange (next (desk.store.answer c).1) h.current ?_ ?_
    · exact fun j layout hlock hheld hread event hcovers =>
        hcovers.trans (hthins j layout hlock hheld hread)
    · intro layout hlock hheld hread
      exact ⟨hallows.layout_of_read hread hlock hheld, now, h.legal, by rw [h.store],
        hthins i layout hlock hheld fun _ => hread⟩
  · intro layout next _ _
    exact ⟨now, h.store, h.legal, h.closed, current_lock next (fun _ => rfl) h.current⟩
  · intro layout next _
    exact ⟨now, h.store, h.legal, h.closed, current_lock next (fun _ => rfl) h.current⟩

/-- Creations, moves and deletions at work on legal contents, in any order of their steps. No id ever
lies above itself and no tree becomes too deep: the contents are legal after every step. -/
theorem forests_kept (hlegal : contents.Legal) (hunused : UnusedIds requests contents)
    (hkinds : ∀ i, (requests i).isUpdate = false) (schedule : List ι) :
    ∃ now : Contents, ((start contents.store requests).run schedule).store = now.store ∧
      now.Legal ∧ ∀ layout, Forest (now.links layout) := by
  have hrun : ∃ now, Checked requests contents ((start contents.store requests).run schedule) now := by
    refine run_induction (motive := fun desk => ∃ now, Checked requests contents desk now)
      ⟨contents, .start hlegal hunused⟩ ?_ schedule
    rintro served i ⟨now, hchecked⟩
    exact hchecked.step ((Regular.start contents.store requests).run served)
      (accounted_run contents.store requests served) hunused.ids hkinds i
  obtain ⟨now, hchecked⟩ := hrun
  exact ⟨now, hchecked.store, hchecked.legal, hchecked.legal.forest_links⟩

/-- The branch is taken from its head by one request and deleted by another one. -/
def uprootAndDelete : Bool → Request
  | false => .moveOrganization ⟨.ofSeconds 60, .small 3⟩ (.small 1) none
  | true => .deleteOrganization (.small 1)

theorem unusedIds_uprootAndDelete : UnusedIds uprootAndDelete branch where
  ids :=
    { distinct := fun i j layout id hcreates _ => by cases i <;> cases hcreates.1
      fresh := fun i layout id hcreates => by cases i <;> cases hcreates.1 }
  owners i id hcreates := by cases i <;> cases hcreates.1

/-- The branch is deleted between the look-up and the save of its move, which brings it back. -/
theorem forests_kept_uprooted :
    let desk := (start branch.store uprootAndDelete).run
      [false, false, true, true, true, true, false, false]
    (∀ i, (desk.tasks i).outcome?.map Except.isOk = some true) ∧
      desk.store.parentOf? .organizations (.small 1) = some none ∧
      ∃ now : Contents, desk.store = now.store ∧ now.Legal ∧ ∀ layout, Forest (now.links layout) :=
  ⟨by decide +kernel, by decide +kernel,
    forests_kept legal_branch unusedIds_uprootAndDelete (by decide) _⟩

end Desk

end ServiceDesk
