import ServiceDesk.Proofs.Service.Deletions

/-!
Updates and moves at the same time. An update saves the whole row that it has read, the parent
included, and takes no lock, so it can undo a move that was made in between. As long as every update
puts back the parent of the last move, all stored parents are those of the moves and the contents
stay legal, since moves are judged against links that nobody else changes.
-/

namespace ServiceDesk

open Hierarchy

namespace Request

def isMove : Request → Bool
  | moveOrganization _ _ _ => true
  | moveCategory _ _ _ => true
  | _ => false

def isUpdate : Request → Bool
  | updateOrganization _ _ _ => true
  | updateCategory _ _ _ => true
  | _ => false

theorem lock?_of_isMove {request : Request} (h : request.isMove = true) :
    ∃ layout, request.lock? = some layout := by
  cases request with
  | moveOrganization stamp id parentId => exact ⟨_, rfl⟩
  | moveCategory stamp id parentId => exact ⟨_, rfl⟩
  | _ => cases h

theorem generated?_of_change {request : Request}
    (h : request.isUpdate = true ∨ request.isMove = true) : request.generated? = none := by
  cases request with
  | createOrganization stamp input => exact h.elim nofun nofun
  | createCategory stamp organizationId input => exact h.elim nofun nofun
  | _ => rfl

end Request

/-- The parent with which an entity was saved successfully. -/
def Event.saved? (layout : Layout) (id : Uuid) : Event → Option (Option Uuid)
  | .exchange (.saveOrganization organization) (.ok _) =>
    if layout = .organizations ∧ organization.id = id then some organization.parentId else none
  | .exchange (.saveCategory category) (.ok _) =>
    if layout = .categories ∧ category.id = id then some category.parentId else none
  | _ => none

def Store.Call.isDeletion : Store.Call → Bool
  | .deleteOrganization _ => true
  | .deleteCategory _ => true
  | _ => false

namespace Store

/-- The stored parent of an entity, none if there is no such entity. -/
def parentOf? (store : Store) (layout : Layout) (id : Uuid) : Option (Option String) :=
  match layout with
  | .organizations => (store.findOrganization? id).map (·.parentId)
  | .categories => (store.findCategory? id).map (·.parentId)

variable {store : Store} {call : Call} {layout : Layout} {id : Uuid}

theorem parentOf?_saveOrganization {next : Store} {organization : Organization}
    (h : store.saveOrganization organization = .ok next) : next.parentOf? layout id =
      if layout = .organizations ∧ organization.id = id then
        some (organization.parentId.map Uuid.text)
      else store.parentOf? layout id := by
  have hparent : (store.mergeOrganization organization).parentId =
      organization.parentId.map Uuid.text := by
    rw [mergeOrganization]
    split <;> rfl
  cases layout with
  | organizations =>
      rw [parentOf?, parentOf?, findOrganization?_save h]
      by_cases hid : id = organization.id
      · rw [if_pos hid, if_pos ⟨rfl, hid.symm⟩, Option.map_some, hparent]
      · rw [if_neg hid, if_neg fun hsame => hid hsame.2.symm]
  | categories =>
      cases saveOrganization_eq_ok h
      rw [if_neg fun hsame => by cases hsame.1]
      rfl

theorem parentOf?_saveCategory {next : Store} {category : Category}
    (h : store.saveCategory category = .ok next) : next.parentOf? layout id =
      if layout = .categories ∧ category.id = id then some (category.parentId.map Uuid.text)
      else store.parentOf? layout id := by
  have hparent : (store.mergeCategory category).parentId = category.parentId.map Uuid.text := by
    rw [mergeCategory]
    split <;> rfl
  cases layout with
  | organizations =>
      cases saveCategory_eq_ok h
      rw [if_neg fun hsame => by cases hsame.1]
      rfl
  | categories =>
      rw [parentOf?, parentOf?, findCategory?_save h]
      by_cases hid : id = category.id
      · rw [if_pos hid, if_pos ⟨rfl, hid.symm⟩, Option.map_some, hparent]
      · rw [if_neg hid, if_neg fun hsame => hid hsame.2.symm]

/-- Unless a row is deleted, its stored parent is the last one that was saved. -/
theorem parentOf?_answer (hkeep : call.isDeletion = false) :
    (store.answer call).2.parentOf? layout id =
      match (Event.exchange call (store.answer call).1).saved? layout id with
      | some parent => some (parent.map Uuid.text)
      | none => store.parentOf? layout id := by
  cases hanswer : (store.answer call).1 with
  | error fault =>
      rw [answer_of_error hanswer]
      cases call <;> rfl
  | ok result =>
      have hpair := answer_eq hanswer
      cases call with
      | saveOrganization organization =>
          rw [parentOf?_saveOrganization (answer_saveOrganization hpair), Event.saved?]
          split
          · rfl
          · rfl
      | saveCategory category =>
          rw [parentOf?_saveCategory (answer_saveCategory hpair), Event.saved?]
          split
          · rfl
          · rfl
      | deleteOrganization gone => cases hkeep
      | deleteCategory gone => cases hkeep
      | _ => rfl

end Store

def Contents.links (layout : Layout) (contents : Contents) : Links :=
  match layout with
  | .organizations => linksOf contents.organizations
  | .categories => linksOf contents.categories

namespace Contents.Legal

variable {contents : Contents} {layout : Layout} {id : Uuid}

theorem nodup_links (h : contents.Legal) (layout : Layout) : (keys (contents.links layout)).Nodup := by
  cases layout with
  | organizations => exact h.organizations.nodup
  | categories =>
      rw [links, keys_linksOf]
      exact h.categories_nodup

theorem find?_iff {α : Type} [Nested α] {items : List α} {parent : Option Uuid}
    (hnodup : (keys (linksOf items)).Nodup) :
    (items.find? fun item => Nested.id item = id).map Nested.parentId = some parent ↔
      (id, parent) ∈ linksOf items := by
  rw [keys_linksOf] at hnodup
  rw [Option.map_eq_some_iff, mem_linksOf]
  refine exists_congr fun item => ?_
  rw [find?_id_eq_some hnodup, and_assoc]

theorem parentOf?_iff (h : contents.Legal) {parent : Option Uuid} :
    contents.store.parentOf? layout id = some (parent.map Uuid.text) ↔
      (id, parent) ∈ contents.links layout := by
  have htext := Option.map_injective Uuid.map_text_injective
  have hnodup := h.nodup_links layout
  cases layout with
  | organizations =>
      have hread : contents.store.parentOf? .organizations id =
          ((contents.organization? id).map Nested.parentId).map (Option.map Uuid.text) := by
        rw [Store.parentOf?, findOrganization?_store, Option.map_map, Option.map_map]
        rfl
      rw [hread, ← Option.map_some, htext.eq_iff]
      exact find?_iff hnodup
  | categories =>
      have hread : contents.store.parentOf? .categories id =
          ((contents.category? id).map Nested.parentId).map (Option.map Uuid.text) := by
        rw [Store.parentOf?, findCategory?_store, Option.map_map, Option.map_map]
        rfl
      rw [hread, ← Option.map_some, htext.eq_iff]
      exact find?_iff hnodup

end Contents.Legal

namespace Contents

/-- Contents with the same entities in the same places, whatever their names and parents are. -/
structure SameEntities (a b : Contents) : Prop where
  organizations : a.organizations.map Nested.id = b.organizations.map Nested.id
  categories : (a.categories.map fun category => (category.id, category.organizationId)) =
    b.categories.map fun category => (category.id, category.organizationId)

variable {contents : Contents}

theorem SameEntities.refl (contents : Contents) : SameEntities contents contents := ⟨rfl, rfl⟩

theorem SameEntities.trans {a b c : Contents} (hab : a.SameEntities b) (hbc : b.SameEntities c) :
    a.SameEntities c :=
  ⟨hab.organizations.trans hbc.organizations, hab.categories.trans hbc.categories⟩

theorem SameEntities.keys_links {a b : Contents} (h : a.SameEntities b) (layout : Layout) :
    keys (a.links layout) = keys (b.links layout) := by
  cases layout with
  | organizations =>
      rw [links, links, keys_linksOf, keys_linksOf]
      exact h.organizations
  | categories =>
      have hids := congrArg (List.map Prod.fst) h.categories
      rw [List.map_map, List.map_map] at hids
      rw [links, links, keys_linksOf, keys_linksOf]
      exact hids

/-- A save of a known organization changes an entity and adds none. -/
theorem SameEntities.putOrganization {organization : Organization}
    (hknown : organization.id ∈ contents.organizations.map Nested.id) :
    (contents.putOrganization organization).SameEntities contents where
  organizations := by
    rw [Contents.putOrganization, put, if_pos (by rwa [mergeOrganization_id]), List.map_map]
    apply List.map_congr_left
    intro stored _
    rw [Function.comp_apply]
    split
    · rename_i heq
      exact heq.symm
    · rfl
  categories := rfl

theorem Legal.category?_of_mem (h : contents.Legal) {stored : Category}
    (hmem : stored ∈ contents.categories) : contents.category? stored.id = some stored := by
  cases hfound : contents.category? stored.id with
  | none =>
      have hnone := List.find?_eq_none.1 hfound stored hmem
      simp at hnone
  | some other =>
      have hid : other.id = stored.id := by simpa using List.find?_some hfound
      rw [List.inj_on_of_nodup_map h.categories_nodup (List.mem_of_find?_eq_some hfound) hmem hid]

/-- The link of a category is one of the links in its organization. -/
theorem Legal.link_in_organization (h : contents.Legal) {id organizationId : Uuid}
    {parent : Option Uuid}
    (howner : (id, organizationId) ∈
      contents.categories.map fun category => (category.id, category.organizationId))
    (hlink : (id, parent) ∈ linksOf contents.categories) :
    (id, parent) ∈ linksOf (contents.categoriesOf organizationId) := by
  obtain ⟨stored, hmem, hself, hparent⟩ := mem_linksOf.1 hlink
  obtain ⟨other, hother, heq⟩ := List.mem_map.1 howner
  obtain ⟨hid, howned⟩ := Prod.mk.inj heq
  cases List.inj_on_of_nodup_map h.categories_nodup hmem hother (hself.trans hid.symm)
  exact mem_linksOf.2 ⟨stored, List.mem_filter.2 ⟨hmem, by simpa using howned⟩, hself, hparent⟩

/-- A save of a known category leaves it in its organization. -/
theorem SameEntities.putCategory (hlegal : contents.Legal) {category : Category}
    (hknown : category.id ∈ contents.categories.map Nested.id) :
    (contents.putCategory category).SameEntities contents where
  organizations := rfl
  categories := by
    rw [Contents.putCategory, put, if_pos (by rwa [mergeCategory_id]), List.map_map]
    apply List.map_congr_left
    intro stored hmem
    rw [Function.comp_apply]
    split
    · rename_i heq
      rw [mergeCategory_id] at heq
      rw [mergeCategory, show category.id = stored.id from heq.symm, hlegal.category?_of_mem hmem]
    · rfl

/-- A category that was read belongs to the organization that is told. -/
theorem owner_of_answer {id : Uuid} {stored : Category}
    (h : (contents.store.answer (.getCategory id)).1 = .ok (some stored)) :
    (stored.id, stored.organizationId) ∈
      contents.categories.map fun category => (category.id, category.organizationId) := by
  obtain ⟨hid, hlink, _⟩ := getCategory_answer h
  obtain ⟨category, hmem, hcategory, _⟩ := mem_linksOf.1 hlink
  obtain ⟨hheld, howner⟩ := List.mem_filter.1 hmem
  refine List.mem_map.2 ⟨category, hheld, Prod.ext (hcategory.trans hid.symm) ?_⟩
  simpa using howner

end Contents

namespace Event

/-- An exchange that was answered from contents with the same entities. -/
def From (contents : Contents) : Event → Prop
  | .exchange call answer => ∃ old : Contents, old.SameEntities contents ∧
      (old.store.answer call).1 = answer
  | _ => True

/-- An exchange on one table that was answered from contents with the links of the present ones. -/
def FitsIn (layout : Layout) (contents : Contents) : Event → Prop
  | .exchange call answer => call.layout = layout ∧ ∃ old : Contents,
      (old.store.answer call).1 = answer ∧ Contents.SameLinks layout old contents
  | _ => True

theorem FitsIn.fits {layout : Layout} {contents : Contents} {event : Event}
    (h : event.FitsIn layout contents) : event.Fits contents := by
  cases event with
  | exchange call answer =>
      obtain ⟨rfl, hold⟩ := h
      exact hold
  | acquire other => trivial
  | release other => trivial

theorem FitsIn.trans {layout : Layout} {contents after : Contents} {event : Event}
    (h : event.FitsIn layout contents) (hsame : Contents.SameLinks layout contents after) :
    event.FitsIn layout after := by
  cases event with
  | exchange call answer =>
      obtain ⟨hlayout, old, hanswer, hold⟩ := h
      exact ⟨hlayout, old, hanswer, hold.trans hsame⟩
  | acquire other => trivial
  | release other => trivial

end Event

namespace Request.Allows

variable {request : Request} {past : List Event} {call : Store.Call}

theorem isDeletion_eq_false (h : request.Allows past call)
    (hchange : request.isUpdate = true ∨ request.isMove = true) : call.isDeletion = false := by
  cases call with
  | deleteOrganization gone => cases h with
    | look _ hread => cases hread
    | read _ _ _ hread => cases hread
    | deleteOrganization => exact hchange.elim nofun nofun
  | deleteCategory gone => cases h with
    | look _ hread => cases hread
    | read _ _ _ hread => cases hread
    | deleteCategory => exact hchange.elim nofun nofun
  | _ => rfl

end Request.Allows

namespace Desk

variable {ι : Type} {requests : ι → Request} {contents : Contents} {desk : Desk ι}

/-- The parent that the last successful save has given to an entity. -/
def savedParent? (layout : Layout) (id : Uuid) (log : List (ι × Event)) : Option (Option Uuid) :=
  log.findSome? fun entry => entry.2.saved? layout id

/-- The parent that the last successful save by a move has given to an entity. -/
def movedParent? (requests : ι → Request) (layout : Layout) (id : Uuid) (log : List (ι × Event)) :
    Option (Option Uuid) :=
  log.findSome? fun entry =>
    if (requests entry.1).isMove then entry.2.saved? layout id else none

/-- Every entity has the parent that was saved last, at first the one in the contents. -/
def FollowsSaves (contents : Contents) (desk : Desk ι) : Prop :=
  ∀ layout id first, (id, first) ∈ contents.links layout →
    desk.store.parentOf? layout id =
      some (((savedParent? layout id desk.log).getD first).map Uuid.text)

/-- Every entity has the parent that was given by the last move, at first the one in the contents. -/
def FollowsMoves (requests : ι → Request) (contents : Contents) (desk : Desk ι) : Prop :=
  ∀ layout id first, (id, first) ∈ contents.links layout →
    desk.store.parentOf? layout id =
      some (((movedParent? requests layout id desk.log).getD first).map Uuid.text)

/-- Every update has put back the parent of the last move before it. -/
def Timely (requests : ι → Request) (contents : Contents) : List (ι × Event) → Prop
  | [] => True
  | (i, event) :: log => ((requests i).isMove = false → ∀ layout id first parent,
      (id, first) ∈ contents.links layout → event.saved? layout id = some parent →
        parent = (movedParent? requests layout id log).getD first) ∧ Timely requests contents log

theorem Timely.of_append {steps log : List (ι × Event)}
    (h : Timely requests contents (steps ++ log)) : Timely requests contents log := by
  induction steps with
  | nil => exact h
  | cons entry steps ih => exact ih h.2

theorem savedParent?_cons (layout : Layout) (id : Uuid) (i : ι) (event : Event)
    (log : List (ι × Event)) : savedParent? layout id ((i, event) :: log) =
      (event.saved? layout id).or (savedParent? layout id log) := by
  rw [savedParent?, List.findSome?_cons]
  cases event.saved? layout id with
  | none => rfl
  | some parent => rfl

theorem movedParent?_cons (layout : Layout) (id : Uuid) (i : ι) (event : Event)
    (log : List (ι × Event)) : movedParent? requests layout id ((i, event) :: log) =
      (if (requests i).isMove then event.saved? layout id else none).or
        (movedParent? requests layout id log) := by
  rw [movedParent?, List.findSome?_cons]
  dsimp only
  cases (if (requests i).isMove then event.saved? layout id else none) with
  | none => rfl
  | some parent => rfl

/-- With timely updates the last save and the last move agree. -/
theorem Timely.savedParent?_eq {log : List (ι × Event)} (h : Timely requests contents log)
    {layout : Layout} {id : Uuid} {first : Option Uuid} (hlink : (id, first) ∈ contents.links layout) :
    (savedParent? layout id log).getD first = (movedParent? requests layout id log).getD first := by
  induction log with
  | nil => rfl
  | cons entry log ih =>
      obtain ⟨i, event⟩ := entry
      obtain ⟨htimely, hrest⟩ := h
      rw [savedParent?_cons, movedParent?_cons]
      cases hsaved : event.saved? layout id with
      | none => rw [ite_self, Option.none_or, Option.none_or, ih hrest]
      | some parent =>
          cases hmove : (requests i).isMove with
          | true => rfl
          | false => exact htimely hmove layout id first parent hlink hsaved

theorem FollowsSaves.start (hlegal : contents.Legal) (requests : ι → Request) :
    FollowsSaves contents (start contents.store requests) := by
  intro layout id first hlink
  exact hlegal.parentOf?_iff.2 hlink

variable [DecidableEq ι]

theorem FollowsSaves.step (h : FollowsSaves contents desk) (hregular : Regular requests desk)
    (hchange : ∀ i, (requests i).isUpdate = true ∨ (requests i).isMove = true) (i : ι) :
    FollowsSaves contents (desk.step i) := by
  refine step_cases (motive := FollowsSaves contents) h ?_ ?_ ?_
  · intro c next htask layout id first hlink
    have hkeep := (hregular.call htask).2.1.isDeletion_eq_false (hchange i)
    refine (Store.parentOf?_answer hkeep).trans ?_
    change _ = some (((savedParent? layout id ((i, _) :: desk.log)).getD first).map Uuid.text)
    rw [savedParent?_cons]
    cases (Event.exchange c (desk.store.answer c).1).saved? layout id with
    | none => exact h layout id first hlink
    | some parent => rfl
  · exact fun other next _ _ => h
  · exact fun other next _ => h

/-- What is known as long as all updates are timely. The contents are legal and hold the entities that
they have held at first; all reads have found these entities, and what a move has read under its
lock is still true of the links. -/
structure Steady (requests : ι → Request) (contents : Contents) (desk : Desk ι) (now : Contents) :
    Prop where
  store : desk.store = now.store
  legal : now.Legal
  entities : now.SameEntities contents
  reads : ∀ entry ∈ desk.log, entry.2.From contents
  current : ∀ i layout, (requests i).isMove = true → held (desk.past i) = some layout →
    pending (desk.past i) = true → ∀ event ∈ guarded (desk.past i), event.FitsIn layout now

theorem Steady.start (hlegal : contents.Legal) (requests : ι → Request) :
    Steady requests contents (start contents.store requests) contents where
  store := rfl
  legal := hlegal
  entities := .refl contents
  reads := fun _ hmem => by cases hmem
  current := fun _ _ _ hheld => by cases hheld

variable {now after : Contents} {i : ι}

/-- The invariant after a call of one request, if the other requests can rely on what they have read. -/
theorem Steady.exchange (h : Steady requests contents desk now) {c : Store.Call}
    {rest : Action (Except DeskError Reply)}
    (hstore : (desk.store.answer c).2 = after.store) (hlegal : after.Legal)
    (hentities : after.SameEntities now)
    (hlinks : ∀ j layout, (requests j).isMove = true → held (desk.past j) = some layout →
      (i = j → c.isWrite = false) → Contents.SameLinks layout now after)
    (hlayout : ∀ layout, (requests i).isMove = true → held (desk.past i) = some layout →
      c.isWrite = false → c.layout = layout) :
    Steady requests contents
      { desk.advance i (.exchange c (desk.store.answer c).1) rest with
        store := (desk.store.answer c).2 } after where
  store := hstore
  legal := hlegal
  entities := hentities.trans h.entities
  reads := List.forall_mem_cons.2 ⟨⟨now, h.entities, by rw [h.store]⟩, h.reads⟩
  current := current_exchange rest h.current
    (fun j layout hmove hheld hother _ hfits => hfits.trans (hlinks j layout hmove hheld hother))
    fun layout hmove hheld hread => ⟨hlayout layout hmove hheld hread, now, by rw [h.store],
      hlinks i layout hmove hheld fun _ => hread⟩

/-- Taking or releasing a lock leaves nothing read under a lock, and changes nothing else. -/
theorem Steady.lock (h : Steady requests contents desk now) {event : Event}
    {rest : Action (Except DeskError Reply)} (holder : Layout → Option ι)
    (hfrom : event.From contents) (hguarded : ∀ past, guarded (event :: past) = []) :
    Steady requests contents { desk.advance i event rest with holder } now where
  store := h.store
  legal := h.legal
  entities := h.entities
  reads := List.forall_mem_cons.2 ⟨hfrom, h.reads⟩
  current := current_lock rest hguarded h.current

/-- An update or a move saves an organization that is there. -/
theorem Steady.known_organization (h : Steady requests contents desk now)
    {organization : Organization}
    (hallows : (requests i).Allows (desk.past i) (.saveOrganization organization))
    (hchange : (requests i).isUpdate = true ∨ (requests i).isMove = true) :
    organization.id ∈ now.organizations.map Nested.id := by
  rcases hallows.origin_organization with ⟨hid, _⟩ | ⟨other, stored, hread, hid, _⟩
  · cases (Request.generated?_of_change hchange).symm.trans hid
  · obtain ⟨old, hsame, hanswer⟩ := h.reads _ (mem_past.1 hread)
    obtain ⟨hself, hlink, _⟩ := Contents.getOrganization_answer hanswer
    rw [hid, hself, h.entities.organizations, ← hsame.organizations, ← keys_linksOf]
    exact mem_keys_of_mem hlink

theorem Steady.known_category (h : Steady requests contents desk now) {category : Category}
    (hallows : (requests i).Allows (desk.past i) (.saveCategory category))
    (hchange : (requests i).isUpdate = true ∨ (requests i).isMove = true) :
    (category.id, category.organizationId) ∈
      now.categories.map fun category => (category.id, category.organizationId) := by
  rcases hallows.origin_category with ⟨hid, _⟩ | ⟨other, stored, hread, hid, howner, _⟩
  · cases (Request.generated?_of_change hchange).symm.trans hid
  · obtain ⟨old, hsame, hanswer⟩ := h.reads _ (mem_past.1 hread)
    rw [hid, howner, h.entities.categories, ← hsame.categories]
    exact Contents.owner_of_answer hanswer

/-- What an update or a move saves is an entity of the contents. -/
theorem Steady.link_of_saved (h : Steady requests contents desk now) {c : Store.Call}
    (hallows : (requests i).Allows (desk.past i) c)
    (hchange : (requests i).isUpdate = true ∨ (requests i).isMove = true) {answer : c.Answer}
    {layout : Layout} {id : Uuid} {parent : Option Uuid}
    (hsaved : (Event.exchange c answer).saved? layout id = some parent) :
    ∃ first, (id, first) ∈ contents.links layout := by
  refine exists_of_mem_keys ?_
  rw [← h.entities.keys_links]
  cases c with
  | saveOrganization organization =>
      cases answer with
      | error fault => cases hsaved
      | ok result =>
          obtain ⟨rfl, rfl⟩ := (Option.ite_some_none_eq_some.1 hsaved).1
          rw [Contents.links, keys_linksOf]
          exact h.known_organization hallows hchange
  | saveCategory category =>
      cases answer with
      | error fault => cases hsaved
      | ok result =>
          obtain ⟨rfl, rfl⟩ := (Option.ite_some_none_eq_some.1 hsaved).1
          have hknown := List.mem_map_of_mem (f := Prod.fst) (h.known_category hallows hchange)
          rw [List.map_map] at hknown
          rw [Contents.links, keys_linksOf]
          exact hknown
  | _ => cases hsaved

/-- A save that was judged as a move, or that puts back the stored parent, keeps the contents legal. -/
theorem Steady.save (h : Steady requests contents desk now) {c : Store.Call}
    (hallows : (requests i).Allows (desk.past i) c) (hpending : pending (desk.past i) = true)
    (hchange : (requests i).isUpdate = true ∨ (requests i).isMove = true)
    (hwrite : c.isWrite = true) {result : c.Result} {next : Store}
    (hanswer : now.store.answer c = (.ok result, next))
    (hlinked : (requests i).isMove = false → ∀ layout id parent,
      (Event.exchange c (.ok result)).saved? layout id = some parent →
        (id, parent) ∈ now.links layout) :
    ∃ after : Contents, next = after.store ∧ after.Legal ∧ after.SameEntities now ∧
      ∀ layout, ((requests i).isMove = true → layout ≠ c.layout) →
        Contents.SameLinks layout now after := by
  have hkeep := hallows.isDeletion_eq_false hchange
  have hold : ∀ id, (requests i).generated? ≠ some id := by
    intro id hid
    cases (Request.generated?_of_change hchange).symm.trans hid
  have hmoved : (requests i).isMove = true → (requests i).lock? = some c.layout ∧
      ∀ event ∈ guarded (desk.past i), event.Fits now := by
    intro hmove
    obtain ⟨layout, hlock⟩ := Request.lock?_of_isMove hmove
    obtain ⟨hheld, rfl⟩ := hallows.held_of_write hwrite hlock
    exact ⟨hlock, fun event hmem => (h.current i _ hmove hheld hpending event hmem).fits⟩
  cases c with
  | saveOrganization organization =>
      refine ⟨_, Contents.saveOrganization_store (Store.answer_saveOrganization hanswer), ?_,
        .putOrganization (h.known_organization hallows hchange), ?_⟩
      · cases hmove : (requests i).isMove with
        | true =>
            obtain ⟨hlock, hfits⟩ := hmoved hmove
            exact h.legal.putOrganization (hallows.forest_organization hlock h.legal hfits
              fun id hid => absurd hid (hold id))
        | false => exact h.legal.keepOrganization (hlinked hmove .organizations _ _ (if_pos ⟨rfl, rfl⟩))
      · intro layout hother
        cases hmove : (requests i).isMove with
        | true =>
            cases layout with
            | organizations => exact absurd rfl (hother hmove)
            | categories => exact fun _ => rfl
        | false =>
            exact .putOrganization h.legal (hlinked hmove .organizations _ _ (if_pos ⟨rfl, rfl⟩)) layout
  | saveCategory category =>
      have hknown := h.known_category hallows hchange
      have hid := List.mem_map_of_mem (f := Prod.fst) hknown
      rw [List.map_map] at hid
      have hlink : (requests i).isMove = false → (category.id, category.parentId) ∈
          linksOf (now.categoriesOf category.organizationId) := fun hmove =>
        h.legal.link_in_organization hknown (hlinked hmove .categories _ _ (if_pos ⟨rfl, rfl⟩))
      refine ⟨_, Contents.saveCategory_store (Store.answer_saveCategory hanswer), ?_,
        .putCategory h.legal hid, ?_⟩
      · cases hmove : (requests i).isMove with
        | true =>
            obtain ⟨hlock, hfits⟩ := hmoved hmove
            obtain ⟨hsame, hforest⟩ := hallows.forest_category hlock h.legal hfits
              fun id hid => absurd hid (hold id)
            exact h.legal.putCategory hsame hforest
        | false => exact h.legal.keepCategory (hlink hmove)
      · intro layout hother
        cases hmove : (requests i).isMove with
        | true =>
            cases layout with
            | organizations => exact rfl
            | categories => exact absurd rfl (hother hmove)
        | false => exact .putCategory h.legal (hlink hmove) layout
  | deleteOrganization id => cases hkeep
  | deleteCategory id => cases hkeep
  | _ => cases hwrite

/-- A timely update saves the parent that is stored. -/
theorem Steady.linked_of_timely (h : Steady requests contents desk now)
    (hfollows : FollowsSaves contents desk) {c : Store.Call} {answer : c.Answer}
    (hallows : (requests i).Allows (desk.past i) c)
    (hchange : (requests i).isUpdate = true ∨ (requests i).isMove = true)
    (htimely : Timely requests contents ((i, .exchange c answer) :: desk.log))
    (hmove : (requests i).isMove = false) {layout : Layout} {id : Uuid} {parent : Option Uuid}
    (hsaved : (Event.exchange c answer).saved? layout id = some parent) :
    (id, parent) ∈ now.links layout := by
  obtain ⟨first, hfirst⟩ := h.link_of_saved hallows hchange hsaved
  have hstored := hfollows layout id first hfirst
  rw [htimely.2.savedParent?_eq hfirst, ← htimely.1 hmove layout id first parent hfirst hsaved,
    h.store] at hstored
  exact h.legal.parentOf?_iff.1 hstored

/-- A call keeps the invariant if it puts back the parent of the last move in case it is a save by an
update. -/
theorem Steady.call (h : Steady requests contents desk now) (hregular : Regular requests desk)
    (hfollows : FollowsSaves contents desk)
    (hchange : ∀ i, (requests i).isUpdate = true ∨ (requests i).isMove = true) {c : Store.Call}
    {next : c.Answer → Action (Except DeskError Reply)} (htask : desk.tasks i = .call c next)
    (htimely : Timely requests contents
      ((i, .exchange c (desk.store.answer c).1) :: desk.log)) :
    ∃ after, Steady requests contents
      { desk.advance i (.exchange c (desk.store.answer c).1) (next (desk.store.answer c).1) with
        store := (desk.store.answer c).2 } after := by
  obtain ⟨hpending, hallows, _⟩ := hregular.call htask
  have hlayout : ∀ layout, (requests i).isMove = true → held (desk.past i) = some layout →
      c.isWrite = false → c.layout = layout :=
    fun layout hmove hheld hread => hallows.layout_of_read hread
      (Option.isSome_iff_exists.2 (Request.lock?_of_isMove hmove)) hheld
  have hunchanged : (desk.store.answer c).2 = desk.store → ∃ after, Steady requests contents
      { desk.advance i (.exchange c (desk.store.answer c).1) (next (desk.store.answer c).1) with
        store := (desk.store.answer c).2 } after := by
    intro hsame
    refine ⟨now, h.exchange (hsame.trans h.store) h.legal (.refl now) ?_ hlayout⟩
    exact fun _ layout _ _ _ => .refl layout now
  cases hwrite : c.isWrite with
  | false => exact hunchanged (Store.answer_of_read hwrite)
  | true =>
      match hanswer : (desk.store.answer c).1 with
      | .error fault =>
          rw [← hanswer]
          exact hunchanged (Store.answer_of_error hanswer)
      | .ok result =>
          have hpair : now.store.answer c = (.ok result, (desk.store.answer c).2) :=
            h.store ▸ Prod.ext hanswer rfl
          rw [hanswer] at htimely
          obtain ⟨after, hstore, hlegal, hentities, hlinks⟩ :=
            h.save hallows hpending (hchange i) hwrite hpair fun hmove _ _ _ hsaved =>
              h.linked_of_timely hfollows hallows (hchange i) htimely hmove hsaved
          rw [← hanswer]
          refine ⟨after, h.exchange hstore hlegal hentities ?_ hlayout⟩
          -- another move holds another lock, and the save is made under its own one
          intro j layout _ hheld hother
          refine hlinks layout fun hmove heq => ?_
          obtain ⟨own, hlock⟩ := Request.lock?_of_isMove hmove
          obtain ⟨hown, rfl⟩ := hallows.held_of_write hwrite hlock
          have hwrote := hother (hregular.holder_unique hown (heq ▸ hheld))
          cases hwrite.symm.trans hwrote

theorem Steady.step (h : Steady requests contents desk now) (hregular : Regular requests desk)
    (hfollows : FollowsSaves contents desk)
    (hchange : ∀ i, (requests i).isUpdate = true ∨ (requests i).isMove = true) (i : ι)
    (htimely : Timely requests contents (desk.step i).log) :
    ∃ after, Steady requests contents (desk.step i) after := by
  revert htimely
  refine step_cases (motive := fun desk => Timely requests contents desk.log →
    ∃ after, Steady requests contents desk after) ?_ ?_ ?_ ?_
  · exact fun _ => ⟨now, h⟩
  · exact fun c next htask htimely => h.call hregular hfollows hchange htask htimely
  · exact fun other next _ _ _ => ⟨now, h.lock _ trivial fun _ => rfl⟩
  · exact fun other next _ _ => ⟨now, h.lock _ trivial fun _ => rfl⟩

theorem followsSaves_run (hlegal : contents.Legal)
    (hchange : ∀ i, (requests i).isUpdate = true ∨ (requests i).isMove = true) (schedule : List ι) :
    FollowsSaves contents ((start contents.store requests).run schedule) := by
  refine run_induction (.start hlegal requests) (fun served i hfollows => ?_) schedule
  exact hfollows.step ((Regular.start contents.store requests).run served) hchange i

/-- A run with timely updates only keeps the contents legal. -/
theorem steady_of_timely (hlegal : contents.Legal)
    (hchange : ∀ i, (requests i).isUpdate = true ∨ (requests i).isMove = true) (schedule : List ι)
    (htimely : Timely requests contents ((start contents.store requests).run schedule).log) :
    ∃ now, Steady requests contents ((start contents.store requests).run schedule) now := by
  induction schedule using List.reverseRecOn with
  | nil => exact ⟨contents, .start hlegal requests⟩
  | append_singleton schedule i ih =>
      rw [run_concat] at htimely ⊢
      obtain ⟨steps, hsteps⟩ := ((start contents.store requests).run schedule).step_log i
      obtain ⟨now, hsteady⟩ := ih (hsteps ▸ htimely).of_append
      exact hsteady.step ((Regular.start contents.store requests).run schedule)
        (followsSaves_run hlegal hchange schedule) hchange i htimely

/-- If the parents follow the moves after an update has saved, the update was timely. -/
theorem timely_of_followsMoves (hlegal : contents.Legal)
    (hchange : ∀ i, (requests i).isUpdate = true ∨ (requests i).isMove = true) (schedule : List ι)
    (hmoves : ∀ served, served <+: schedule →
      FollowsMoves requests contents ((start contents.store requests).run served)) :
    Timely requests contents ((start contents.store requests).run schedule).log := by
  induction schedule using List.reverseRecOn with
  | nil => trivial
  | append_singleton schedule i ih =>
      have hbefore := ih fun served hserved => hmoves served (hserved.trans (List.prefix_append _ _))
      have hafter := hmoves _ (List.prefix_refl _)
      have hfollows := followsSaves_run hlegal hchange (schedule ++ [i])
      rw [run_concat] at hafter hfollows ⊢
      revert hafter hfollows
      refine step_cases (motive := fun desk => FollowsMoves requests contents desk →
        FollowsSaves contents desk → Timely requests contents desk.log) ?_ ?_ ?_ ?_
      · exact fun _ _ => hbefore
      · intro c next htask hafter hfollows
        -- the store has the parent of this save, and also the parent of the last move before it
        refine ⟨fun hmove layout id first parent hlink hsaved => ?_, hbefore⟩
        have hlast := hfollows layout id first hlink
        rw [hafter layout id first hlink] at hlast
        have hparents := Uuid.map_text_injective (Option.some.inj hlast)
        change (movedParent? requests layout id ((i, _) :: _)).getD first =
          (savedParent? layout id ((i, _) :: _)).getD first at hparents
        rw [movedParent?_cons, savedParent?_cons, hmove, hsaved] at hparents
        exact hparents.symm
      · exact fun other next _ _ _ _ => ⟨fun _ _ _ _ _ _ => nofun, hbefore⟩
      · exact fun other next _ _ _ => ⟨fun _ _ _ _ _ _ => nofun, hbefore⟩

/-- Updates and moves at work on legal contents, in any order of their steps. All parents are those
of the last moves exactly if the last save of each entity agrees with its last move. They are so all
the time exactly if every update puts back the parent of the last move, and then the contents stay
legal. -/
theorem parents_follow_moves_iff (hlegal : contents.Legal)
    (hchange : ∀ i, (requests i).isUpdate = true ∨ (requests i).isMove = true) (schedule : List ι) :
    (FollowsMoves requests contents ((start contents.store requests).run schedule) ↔
      ∀ layout id first, (id, first) ∈ contents.links layout →
        (savedParent? layout id ((start contents.store requests).run schedule).log).getD first =
          (movedParent? requests layout id
            ((start contents.store requests).run schedule).log).getD first) ∧
    ((∀ served, served <+: schedule →
        FollowsMoves requests contents ((start contents.store requests).run served) ∧
        ∃ now : Contents, ((start contents.store requests).run served).store = now.store ∧
          now.Legal ∧ now.SameEntities contents) ↔
      Timely requests contents ((start contents.store requests).run schedule).log) := by
  refine ⟨?_, ?_, ?_⟩
  · have hfollows := followsSaves_run hlegal hchange schedule
    refine forall_congr' fun layout => forall_congr' fun id => forall_congr' fun first =>
      forall_congr' fun hlink => ?_
    rw [hfollows layout id first hlink, Option.some.injEq, Uuid.map_text_injective.eq_iff]
  · exact fun hall => timely_of_followsMoves hlegal hchange schedule fun served hserved =>
      (hall served hserved).1
  · rintro htimely served ⟨later, rfl⟩
    obtain ⟨steps, hsteps⟩ := ((start contents.store requests).run served).run_log later
    rw [run_append, hsteps] at htimely
    have hserved := htimely.of_append
    obtain ⟨now, hsteady⟩ := steady_of_timely hlegal hchange served hserved
    refine ⟨?_, now, hsteady.store, hsteady.legal, hsteady.entities⟩
    intro layout id first hlink
    rw [followsSaves_run hlegal hchange served layout id first hlink,
      hserved.savedParent?_eq hlink]

/-- A branch below its head. -/
def branch : Contents where
  organizations := [.small 1 "Branch" (some (.small 2)), .small 2 "Head" none]
  categories := []

theorem legal_branch : branch.Legal where
  organizations := by
    refine .of_levels (by decide) ?_
    have hhead : Level (linksOf branch.organizations) (.small 2) 1 := .root (by decide)
    have hbranch : Level (linksOf branch.organizations) (.small 1) 2 := .child (by decide) hhead
    rw [keys_linksOf]
    intro id hmem
    rcases List.mem_cons.1 hmem with rfl | hmem
    · exact ⟨2, by decide, hbranch⟩
    · cases List.mem_singleton.1 hmem
      exact ⟨1, by decide, hhead⟩
  categories _ := Forest.empty
  categories_nodup := List.nodup_nil

/-- The branch is renamed by one request and taken from its head by another one. -/
def renameAndUproot : Bool → Request
  | false => .updateOrganization ⟨.ofSeconds 60, .small 3⟩ (.small 1) ⟨some "Service", none, none⟩
  | true => .moveOrganization ⟨.ofSeconds 61, .small 4⟩ (.small 1) none

theorem parents_follow_moves_iff_renamed :
    let desk (served : List Bool) := (start branch.store renameAndUproot).run served
    let schedule := [true, true, true, true, false, false]
    (FollowsMoves renameAndUproot branch (desk schedule) ↔
      ∀ layout id first, (id, first) ∈ branch.links layout →
        (savedParent? layout id (desk schedule).log).getD first =
          (movedParent? renameAndUproot layout id (desk schedule).log).getD first) ∧
    ((∀ served, served <+: schedule →
        FollowsMoves renameAndUproot branch (desk served) ∧
        ∃ now : Contents, (desk served).store = now.store ∧ now.Legal ∧ now.SameEntities branch) ↔
      Timely renameAndUproot branch (desk schedule).log) :=
  parents_follow_moves_iff legal_branch (by decide) _

/-- An update that has read the branch before it is moved and saves it afterwards puts it below its head
again, although both requests succeed. -/
theorem update_undoes_a_move :
    let desk := (start branch.store renameAndUproot).run [false, true, true, true, true, false]
    (∀ i, (desk.tasks i).outcome?.map Except.isOk = some true) ∧
      desk.store.parentOf? .organizations (.small 1) = some (some (Uuid.small 2).text) ∧
      ¬FollowsMoves renameAndUproot branch desk := by
  refine ⟨by decide +kernel, by decide +kernel, fun hfollows => ?_⟩
  have hlink : (Uuid.small 1, some (Uuid.small 2)) ∈ branch.links .organizations := by decide
  exact absurd (hfollows .organizations _ _ hlink) (by decide +kernel)

end Desk

end ServiceDesk
