import Mathlib.Data.List.DropRight
import Mathlib.Data.List.ReduceOption
import Mathlib.Data.Option.NAry
import ServiceDesk.Proofs.Store.Uniqueness

/-!
The store as a ledger, which has an entry for every id. The entry of an id is told by the calls that
went through: it is what was saved last under the id since the last deletion, with what never changes
as it was saved first. A save is refused just if the entry that it would leave has no place in the
ledger, and a deletion just if another entry refers to the id; then nothing is changed.
-/

namespace ServiceDesk

open Hierarchy

/-! ### Entries -/

section Entries

variable {α : Type}

/-- The entities that were saved after the last deletion, which is told by none. -/
def sinceDeletion (events : List (Option α)) : List α :=
  (events.rtakeWhile Option.isSome).reduceOption

theorem sinceDeletion_concat_some (events : List (Option α)) (item : α) :
    sinceDeletion (events ++ [some item]) = sinceDeletion events ++ [item] := by
  rw [sinceDeletion, List.rtakeWhile_concat_pos _ _ _ rfl, List.reduceOption_append, sinceDeletion,
    List.reduceOption_singleton]
  rfl

theorem sinceDeletion_concat_none (events : List (Option α)) :
    sinceDeletion (events ++ [none]) = [] := by
  rw [sinceDeletion, List.rtakeWhile_concat_neg _ _ _ (by simp)]
  rfl

variable (follow : α → α → α)

/-- What several saves leave: the last entity, with what it keeps of the first. -/
def lastSaved (saves : List α) : Option α := Option.map₂ follow saves.head? saves.getLast?

/-- The entry of an id after some writes. Each of them names an id, with the entity that is saved
under it, or with none if it is deleted. -/
def entryOf (writes : List (Uuid × Option α)) (id : Uuid) : Option α :=
  lastSaved follow (sinceDeletion ((writes.filter fun write => write.1 = id).map (·.2)))

/-- What one more save makes of an entry. -/
def amend (entry : Option α) (item : α) : α := entry.elim item fun stored => follow stored item

def rewrite (entries : Uuid → Option α) (write : Uuid × Option α) : Uuid → Option α :=
  Function.update entries write.1 (write.2.map (amend follow (entries write.1)))

/-- What comes again keeps of the first what it kept before. -/
structure KeepsFirst (follow : α → α → α) : Prop where
  self : ∀ a, follow a a = a
  first : ∀ a b c, follow (follow a b) c = follow a c

variable {follow}

theorem lastSaved_concat (hfollow : KeepsFirst follow) (saves : List α) (item : α) :
    lastSaved follow (saves ++ [item]) = some (amend follow (lastSaved follow saves) item) := by
  cases saves with
  | nil => exact congrArg some (hfollow.self item)
  | cons first rest =>
      have hlast : (first :: rest).getLast? = some ((first :: rest).getLast (List.cons_ne_nil _ _)) :=
        List.getLast?_eq_some_getLast _
      rw [lastSaved, List.getLast?_concat, lastSaved, hlast]
      exact congrArg some (hfollow.first first _ item).symm

/-- The last write changes the entry of its id and no other. -/
theorem entryOf_concat (hfollow : KeepsFirst follow) (writes : List (Uuid × Option α))
    (write : Uuid × Option α) :
    entryOf follow (writes ++ [write]) = rewrite follow (entryOf follow writes) write := by
  funext id
  obtain ⟨own, item?⟩ := write
  by_cases hid : id = own
  · subst hid
    rw [rewrite, Function.update_self, entryOf, List.filter_append, List.filter_cons_of_pos (by simp),
      List.filter_nil, List.map_append, List.map_singleton]
    -- A deletion starts afresh, a save goes on from the saves before.
    cases item? with
    | none => rw [sinceDeletion_concat_none]; rfl
    | some item => rw [sinceDeletion_concat_some, lastSaved_concat hfollow]; rfl
  · rw [rewrite, Function.update_of_ne hid, entryOf, List.filter_append,
      List.filter_cons_of_neg (by simpa using Ne.symm hid), List.filter_nil, List.append_nil, entryOf]

end Entries

/-- An organization that is saved again keeps its time of creation. -/
def Organization.follow (first last : Organization) : Organization :=
  { last with createdAt := first.createdAt }

/-- A category that is saved again keeps its organization, too. -/
def Category.follow (first last : Category) : Category :=
  { last with organizationId := first.organizationId, createdAt := first.createdAt }

theorem Organization.keepsFirst : KeepsFirst follow := ⟨fun _ => rfl, fun _ _ _ => rfl⟩

theorem Category.keepsFirst : KeepsFirst follow := ⟨fun _ => rfl, fun _ _ _ => rfl⟩

namespace Store.Call

/-- The organization that a call saves, or none if it deletes it, under its id. -/
def organizationWrite? : Store.Call → Option (Uuid × Option Organization)
  | .saveOrganization organization => some (organization.id, some organization)
  | .deleteOrganization id => some (id, none)
  | _ => none

def categoryWrite? : Store.Call → Option (Uuid × Option Category)
  | .saveCategory category => some (category.id, some category)
  | .deleteCategory id => some (id, none)
  | _ => none

end Store.Call

/-! ### The ledger -/

/-- What stands under each id. -/
@[ext]
structure Ledger where
  organization? : Uuid → Option Organization
  category? : Uuid → Option Category

namespace Ledger

/-- The entries that are left by calls that went through. -/
def ofHistory (history : List Store.Call) : Ledger where
  organization? := entryOf Organization.follow (history.filterMap Store.Call.organizationWrite?)
  category? := entryOf Category.follow (history.filterMap Store.Call.categoryWrite?)

def record (ledger : Ledger) (call : Store.Call) : Ledger where
  organization? := call.organizationWrite?.elim ledger.organization?
    (rewrite Organization.follow ledger.organization?)
  category? := call.categoryWrite?.elim ledger.category? (rewrite Category.follow ledger.category?)

theorem ofHistory_concat (history : List Store.Call) (call : Store.Call) :
    ofHistory (history ++ [call]) = (ofHistory history).record call := by
  ext1
  · simp only [ofHistory, record, List.filterMap_append]
    cases hwrite : call.organizationWrite? with
    | none => rw [List.filterMap_cons_none hwrite, List.filterMap_nil, List.append_nil]; rfl
    | some write =>
        rw [List.filterMap_cons_some hwrite, List.filterMap_nil]
        exact entryOf_concat Organization.keepsFirst _ write
  · simp only [ofHistory, record, List.filterMap_append]
    cases hwrite : call.categoryWrite? with
    | none => rw [List.filterMap_cons_none hwrite, List.filterMap_nil, List.append_nil]; rfl
    | some write =>
        rw [List.filterMap_cons_some hwrite, List.filterMap_nil]
        exact entryOf_concat Category.keepsFirst _ write

def mergeOrganization (ledger : Ledger) (organization : Organization) : Organization :=
  amend Organization.follow (ledger.organization? organization.id) organization

def mergeCategory (ledger : Ledger) (category : Category) : Category :=
  amend Category.follow (ledger.category? category.id) category

/-- Why an organization has no place in the ledger. -/
inductive RefusesOrganization (ledger : Ledger) (organization : Organization) : Prop
  | ownParent (hparent : organization.parentId = some organization.id)
  | missingParent {parent} (hparent : organization.parentId = some parent)
      (hmissing : ledger.organization? parent = none)
  | takenName {id other} (hother : ledger.organization? id = some other) (hne : id ≠ organization.id)
      (hname : other.name = organization.name)
  | takenDomain {id other} (hother : ledger.organization? id = some other)
      (hne : id ≠ organization.id) (hsome : organization.domain.isSome)
      (hdomain : other.domain = organization.domain)

/-- Why a category has no place in the ledger. -/
inductive RefusesCategory (ledger : Ledger) (category : Category) : Prop
  | ownParent (hparent : category.parentId = some category.id)
  | missingParent {parent} (hparent : category.parentId = some parent)
      (hmissing : ledger.category? parent = none)
  | missingOrganization (hnew : ledger.category? category.id = none)
      (hmissing : ledger.organization? category.organizationId = none)
  | takenName {id other} (hother : ledger.category? id = some other) (hne : id ≠ category.id)
      (howner : other.organizationId = category.organizationId)
      (hparent : other.parentId = category.parentId) (hname : other.name = category.name)

/-- An organization is the parent of another one or owns a category. -/
inductive RefersToOrganization (ledger : Ledger) (id : Uuid) : Prop
  | child {otherId other} (hother : ledger.organization? otherId = some other) (hne : otherId ≠ id)
      (hparent : other.parentId = some id)
  | category {categoryId category} (hcategory : ledger.category? categoryId = some category)
      (howner : category.organizationId = id)

inductive RefersToCategory (ledger : Ledger) (id : Uuid) : Prop
  | child {otherId other} (hother : ledger.category? otherId = some other) (hne : otherId ≠ id)
      (hparent : other.parentId = some id)

end Ledger

/-! ### The ledger of some contents -/

namespace Contents

variable {contents : Contents} {lost : Uuid → Prop}

def ledger (contents : Contents) : Ledger := ⟨contents.organization?, contents.category?⟩

theorem ledger_mergeOrganization (contents : Contents) (organization : Organization) :
    contents.ledger.mergeOrganization organization = contents.mergeOrganization organization := by
  change amend Organization.follow (contents.organization? organization.id) organization = _
  rw [mergeOrganization]
  cases contents.organization? organization.id with
  | none => rfl
  | some stored => rfl

theorem ledger_mergeCategory (contents : Contents) (category : Category) :
    contents.ledger.mergeCategory category = contents.mergeCategory category := by
  change amend Category.follow (contents.category? category.id) category = _
  rw [mergeCategory]
  cases contents.category? category.id with
  | none => rfl
  | some stored => rfl

theorem organization?_putOrganization (contents : Contents) (organization : Organization) :
    (contents.putOrganization organization).organization? =
      Function.update contents.organization? organization.id
        (some (contents.mergeOrganization organization)) := by
  funext id
  have hfind := find?_id_put contents.organizations (contents.mergeOrganization organization) id
  rw [mergeOrganization_id] at hfind
  rw [Function.update_apply]
  exact hfind

theorem category?_putCategory (contents : Contents) (category : Category) :
    (contents.putCategory category).category? =
      Function.update contents.category? category.id (some (contents.mergeCategory category)) := by
  funext id
  have hfind := find?_id_put contents.categories (contents.mergeCategory category) id
  rw [mergeCategory_id] at hfind
  rw [Function.update_apply]
  exact hfind

theorem organization?_dropOrganization (contents : Contents) (gone : Uuid) :
    (contents.dropOrganization gone).organization? =
      Function.update contents.organization? gone none := by
  funext id
  rw [Function.update_apply]
  exact find?_id_filter contents.organizations gone id

theorem category?_dropCategory (contents : Contents) (gone : Uuid) :
    (contents.dropCategory gone).category? = Function.update contents.category? gone none := by
  funext id
  rw [Function.update_apply]
  exact find?_id_filter contents.categories gone id

theorem ledger_after (contents : Contents) (call : Store.Call) :
    (contents.after call).ledger = contents.ledger.record call := by
  cases call with
  | saveOrganization organization =>
      refine Ledger.ext ?_ rfl
      exact (organization?_putOrganization contents organization).trans
        (congrArg _ (congrArg some (ledger_mergeOrganization contents organization).symm))
  | saveCategory category =>
      refine Ledger.ext rfl ?_
      exact (category?_putCategory contents category).trans
        (congrArg _ (congrArg some (ledger_mergeCategory contents category).symm))
  | deleteOrganization gone => exact Ledger.ext (organization?_dropOrganization contents gone) rfl
  | deleteCategory gone => exact Ledger.ext rfl (category?_dropCategory contents gone)
  | _ => rfl

/-! ### What the ledger refuses -/

/-- An organization is admitted just if the ledger has a place for it. -/
theorem Closed.admitsOrganization_iff (h : contents.Closed lost) {organization : Organization} :
    contents.AdmitsOrganization organization ↔
      ¬contents.ledger.RefusesOrganization (contents.ledger.mergeOrganization organization) := by
  have hnodup := h.organizations_nodup
  rw [ledger_mergeOrganization, ← admitsOrganization_merge]
  generalize contents.mergeOrganization organization = row at *
  constructor
  · intro hadmits hrefuses
    cases hrefuses with
    | ownParent hparent => exact (hadmits.parent _ hparent).1 rfl
    | missingParent hparent hmissing =>
        exact (organization?_eq_none contents _).1 hmissing (hadmits.parent _ hparent).2
    | takenName hother hne hname =>
        obtain ⟨hmem, rfl⟩ := (organization?_eq_some hnodup).1 hother
        exact hadmits.name _ hmem hne hname
    | takenDomain hother hne hsome hdomain =>
        obtain ⟨hmem, rfl⟩ := (organization?_eq_some hnodup).1 hother
        exact hadmits.domain _ hmem hne hsome hdomain
  · intro hfree
    refine ⟨fun parent hparent => ⟨?_, ?_⟩, fun other hmem hne hsome hdomain => ?_,
      fun other hmem hne hname => ?_⟩
    · rintro rfl
      exact hfree (.ownParent hparent)
    · by_contra hunknown
      exact hfree (.missingParent hparent ((organization?_eq_none contents _).2 hunknown))
    · exact hfree (.takenDomain ((organization?_eq_some hnodup).2 ⟨hmem, rfl⟩) hne hsome hdomain)
    · exact hfree (.takenName ((organization?_eq_some hnodup).2 ⟨hmem, rfl⟩) hne hname)

theorem mergeCategory_merge (contents : Contents) (category : Category) :
    contents.mergeCategory (contents.mergeCategory category) = contents.mergeCategory category := by
  cases hfound : contents.category? category.id with
  | none =>
      have hself : contents.mergeCategory category = category := by rw [mergeCategory, hfound]
      rw [hself, hself]
  | some stored => simp [mergeCategory, hfound]

theorem admitsCategory_merge (contents : Contents) (category : Category) :
    contents.AdmitsCategory (contents.mergeCategory category) ↔ contents.AdmitsCategory category := by
  have hid : (contents.mergeCategory category).id = category.id := mergeCategory_id contents category
  have hparentId : (contents.mergeCategory category).parentId = category.parentId :=
    mergeCategory_parentId contents category
  rw [admitsCategory_iff, admitsCategory_iff, mergeCategory_merge, hid, hparentId]
  refine and_congr Iff.rfl (and_congr (imp_congr_right fun hnew => ?_) Iff.rfl)
  rw [mergeCategory, (category?_eq_none contents _).2 hnew]

theorem Closed.admitsCategory_iff (h : contents.Closed lost) {category : Category} :
    contents.AdmitsCategory category ↔
      ¬contents.ledger.RefusesCategory (contents.ledger.mergeCategory category) := by
  have hnodup := h.categories_nodup
  have hmerge := mergeCategory_merge contents category
  rw [ledger_mergeCategory, ← admitsCategory_merge]
  generalize contents.mergeCategory category = row at *
  constructor
  · intro hadmits hrefuses
    cases hrefuses with
    | ownParent hparent => exact (hadmits.parent _ hparent).1 rfl
    | missingParent hparent hmissing =>
        exact (category?_eq_none contents _).1 hmissing (hadmits.parent _ hparent).2
    | missingOrganization hnew hmissing =>
        have hknown := hadmits.owner ((category?_eq_none contents _).1 hnew)
        exact (organization?_eq_none contents _).1 hmissing hknown
    | takenName hother hne howner hparent hname =>
        obtain ⟨hmem, rfl⟩ := (category?_eq_some hnodup).1 hother
        exact hadmits.name _ hmem hne (hmerge.symm ▸ howner) hparent hname
  · intro hfree
    refine ⟨fun parent hparent => ⟨?_, ?_⟩, fun hunknown => ?_,
      fun other hmem hne howner hparent hname => ?_⟩
    · rintro rfl
      exact hfree (.ownParent hparent)
    · by_contra hunknown
      exact hfree (.missingParent hparent ((category?_eq_none contents _).2 hunknown))
    · by_contra hunowned
      exact hfree (.missingOrganization ((category?_eq_none contents _).2 hunknown)
        ((organization?_eq_none contents _).2 hunowned))
    · rw [hmerge] at howner
      exact hfree (.takenName ((category?_eq_some hnodup).2 ⟨hmem, rfl⟩) hne howner hparent hname)

theorem Closed.organizationReferences_iff (h : contents.Closed lost) {id : Uuid} :
    contents.store.organizationReferences id = 0 ↔ ¬contents.ledger.RefersToOrganization id := by
  rw [organizationReferences_store]
  constructor
  · rintro ⟨hleaf, hunused⟩ hrefers
    cases hrefers with
    | child hother hne hparent =>
        obtain ⟨hmem, rfl⟩ := (organization?_eq_some h.organizations_nodup).1 hother
        exact hleaf _ hmem hne hparent
    | category hcategory howner =>
        obtain ⟨hmem, rfl⟩ := (category?_eq_some h.categories_nodup).1 hcategory
        exact hunused _ hmem howner
  · intro hfree
    refine ⟨fun other hmem hne hparent => ?_, fun category hmem howner => ?_⟩
    · exact hfree (.child ((organization?_eq_some h.organizations_nodup).2 ⟨hmem, rfl⟩) hne hparent)
    · exact hfree (.category ((category?_eq_some h.categories_nodup).2 ⟨hmem, rfl⟩) howner)

theorem Closed.categoryReferences_iff (h : contents.Closed lost) {id : Uuid} :
    contents.store.categoryReferences id = 0 ↔ ¬contents.ledger.RefersToCategory id := by
  rw [categoryReferences_store]
  constructor
  · rintro hleaf ⟨hother, hne, hparent⟩
    obtain ⟨hmem, rfl⟩ := (category?_eq_some h.categories_nodup).1 hother
    exact hleaf _ hmem hne hparent
  · intro hfree other hmem hne hparent
    exact hfree (.child ((category?_eq_some h.categories_nodup).2 ⟨hmem, rfl⟩) hne hparent)

end Contents

/-! ### What the store answers -/

namespace Store

/-- A call is refused for a constraint that it would break, and changes nothing, just if something is
wrong with it. Otherwise it goes through. -/
structure Settles (store : Store) (call : Store.Call) (wrong : Prop) : Prop where
  refused : wrong → ∃ violation, store.answer call = (.error (.violated violation), store)
  passed : ¬wrong → (store.answer call).1.isOk = true

/-- The store answers as its ledger says. -/
structure Shows (store : Store) (ledger : Ledger) : Prop where
  getOrganization : ∀ id, (store.answer (.getOrganization id)).1 =
    .ok ((ledger.organization? id).map Organization.toMicros)
  getCategory : ∀ id, (store.answer (.getCategory id)).1 =
    .ok ((ledger.category? id).map Category.toMicros)
  saveOrganization : ∀ organization, store.Settles (.saveOrganization organization)
    (ledger.RefusesOrganization (ledger.mergeOrganization organization))
  saveCategory : ∀ category, store.Settles (.saveCategory category)
    (ledger.RefusesCategory (ledger.mergeCategory category))
  deleteOrganization : ∀ id, store.Settles (.deleteOrganization id) (ledger.RefersToOrganization id)
  deleteCategory : ∀ id, store.Settles (.deleteCategory id) (ledger.RefersToCategory id)

/-- The store after some calls. -/
def answerAll (store : Store) (calls : List Store.Call) : Store :=
  calls.foldl (fun store call => (store.answer call).2) store

/-- Those of some calls that go through. -/
def passed : Store → List Store.Call → List Store.Call
  | _, [] => []
  | store, call :: calls =>
    let later := passed (store.answer call).2 calls
    if (store.answer call).1.isOk then call :: later else later

end Store

/-- What a call saves can be read back. -/
def Store.Call.IsPlain : Store.Call → Prop
  | .saveOrganization organization => organization.IsPlain
  | .saveCategory category => category.IsPlain
  | _ => True

namespace Contents

variable {contents : Contents}

theorem Closed.settles_saveOrganization {lost : Uuid → Prop} (h : contents.Closed lost)
    {organization : Organization} (hpresent : ¬lost organization.id) :
    contents.store.Settles (.saveOrganization organization)
      (contents.ledger.RefusesOrganization (contents.ledger.mergeOrganization organization)) where
  refused hwrong := by
    cases hsave : contents.store.saveOrganization organization with
    | error violation => exact ⟨violation, by rw [Store.answer, hsave]; rfl⟩
    | ok next =>
        have hadmits := ((h.saveOrganization_eq_ok hpresent).1 hsave).1
        exact absurd hwrong (h.admitsOrganization_iff.1 hadmits)
  passed hfree := by
    have hsave := (h.saveOrganization_eq_ok hpresent).2 ⟨h.admitsOrganization_iff.2 hfree, rfl⟩
    rw [Store.answer, hsave]
    rfl

theorem Closed.settles_saveCategory {lost : Uuid → Prop} (h : contents.Closed lost)
    (category : Category) : contents.store.Settles (.saveCategory category)
      (contents.ledger.RefusesCategory (contents.ledger.mergeCategory category)) where
  refused hwrong := by
    cases hsave : contents.store.saveCategory category with
    | error violation => exact ⟨violation, by rw [Store.answer, hsave]; rfl⟩
    | ok next =>
        have hadmits := (h.saveCategory_eq_ok.1 hsave).1
        exact absurd hwrong (h.admitsCategory_iff.1 hadmits)
  passed hfree := by
    have hsave := h.saveCategory_eq_ok.2 ⟨h.admitsCategory_iff.2 hfree, rfl⟩
    rw [Store.answer, hsave]
    rfl

/-- An organization to which entries refer is there, and so its deletion breaks a reference. -/
theorem Closed.settles_deleteOrganization (h : contents.Closed fun _ => False) (id : Uuid) :
    contents.store.Settles (.deleteOrganization id) (contents.ledger.RefersToOrganization id) where
  refused hrefers := by
    have hfound : (contents.store.findOrganization? id).isSome := by
      rw [findOrganization?_store, Option.isSome_map, organization?_isSome]
      cases hrefers with
      | child hother _ hparent =>
          obtain ⟨hmem, _⟩ := (organization?_eq_some h.organizations_nodup).1 hother
          exact h.organization_parents _ hmem _ hparent
      | category hcategory howner =>
          obtain ⟨hmem, _⟩ := (category?_eq_some h.categories_nodup).1 hcategory
          exact howner ▸ h.owners _ hmem fun hlost => hlost
    have hused : 0 < contents.store.organizationReferences id :=
      Nat.pos_of_ne_zero fun hzero => h.organizationReferences_iff.1 hzero hrefers
    refine ⟨.brokenReference, ?_⟩
    obtain ⟨row, hrow⟩ := Option.isSome_iff_exists.1 hfound
    rw [Store.answer, Store.deleteOrganization, if_neg (by simp [hrow]), if_pos hused]
    rfl
  passed hfree := by
    rw [Store.answer, Store.deleteOrganization, h.organizationReferences_iff.2 hfree]
    split <;> rfl

theorem Closed.settles_deleteCategory {lost : Uuid → Prop} (h : contents.Closed lost) (id : Uuid) :
    contents.store.Settles (.deleteCategory id) (contents.ledger.RefersToCategory id) where
  refused hrefers := by
    have hfound : (contents.store.findCategory? id).isSome := by
      rw [findCategory?_store, Option.isSome_map, category?_isSome]
      obtain ⟨hother, _, hparent⟩ := hrefers
      obtain ⟨hmem, _⟩ := (category?_eq_some h.categories_nodup).1 hother
      exact h.category_parents _ hmem _ hparent
    have hused : 0 < contents.store.categoryReferences id :=
      Nat.pos_of_ne_zero fun hzero => h.categoryReferences_iff.1 hzero hrefers
    refine ⟨.brokenReference, ?_⟩
    obtain ⟨row, hrow⟩ := Option.isSome_iff_exists.1 hfound
    rw [Store.answer, Store.deleteCategory, if_neg (by simp [hrow]), if_pos hused]
    rfl
  passed hfree := by
    rw [Store.answer, Store.deleteCategory, h.categoryReferences_iff.2 hfree]
    split <;> rfl

/-- Contents that are the work of some calls that went through. -/
structure Records (contents : Contents) (history : List Store.Call) : Prop where
  closed : contents.Closed fun _ => False
  organizations_plain : ∀ organization ∈ contents.organizations, organization.IsPlain
  categories_plain : ∀ category ∈ contents.categories, category.IsPlain
  ledger : contents.ledger = Ledger.ofHistory history

namespace Records

variable {history : List Store.Call}

theorem empty : Records Contents.empty [] where
  closed := .empty
  organizations_plain := fun _ hmem => nomatch hmem
  categories_plain := fun _ hmem => nomatch hmem
  ledger := rfl

/-- A call that goes through is one more of those whose work the contents are. -/
theorem answer (h : contents.Records history) {call : Store.Call} (hplain : call.IsPlain)
    {result : call.Result} (hanswer : (contents.store.answer call).1 = .ok result) :
    (contents.after call).Records (history ++ [call]) where
  closed := (answer_eq_ok hanswer).2.closed h.closed fun _ _ hlost => hlost
  organizations_plain := by
    refine (answer_eq_ok hanswer).2.organizations_plain h.organizations_plain ?_
    rintro organization rfl
    exact hplain
  categories_plain := by
    refine (answer_eq_ok hanswer).2.categories_plain h.categories_plain ?_
    rintro category rfl
    exact hplain
  ledger := by rw [ledger_after, h.ledger, Ledger.ofHistory_concat]

/-- After some calls the store holds the work of those that went through. -/
theorem answerAll (h : contents.Records history) {calls : List Store.Call}
    (hplain : ∀ call ∈ calls, call.IsPlain) : ∃ after : Contents,
      contents.store.answerAll calls = after.store ∧
        after.Records (history ++ contents.store.passed calls) := by
  induction calls generalizing contents history with
  | nil => exact ⟨contents, rfl, by rwa [Store.passed, List.append_nil]⟩
  | cons call calls ih =>
      obtain ⟨hcall, hcalls⟩ := List.forall_mem_cons.1 hplain
      rw [Store.answerAll, List.foldl_cons, Store.passed]
      cases hanswer : (contents.store.answer call).1 with
      | error fault =>
          rw [Store.answer_of_error hanswer]
          exact ih h hcalls
      | ok result =>
          rw [(answer_eq_ok hanswer).1]
          obtain ⟨after, hafter, hrecords⟩ := ih (h.answer hcall hanswer) hcalls
          rw [List.append_assoc] at hrecords
          exact ⟨after, hafter, hrecords⟩

/-- The store answers from the work of the calls that went through. -/
theorem shows (h : contents.Records history) : contents.store.Shows (Ledger.ofHistory history) := by
  rw [← h.ledger]
  exact {
    getOrganization := answer_getOrganization_of_plain h.organizations_plain
    getCategory := answer_getCategory_of_plain h.categories_plain
    saveOrganization := fun _ => h.closed.settles_saveOrganization fun hlost => hlost
    saveCategory := h.closed.settles_saveCategory
    deleteOrganization := h.closed.settles_deleteOrganization
    deleteCategory := h.closed.settles_deleteCategory }

end Records

end Contents

/-- The store is a ledger with rules. Whatever calls have been made on an empty store, a look-up finds
what stands in the ledger of those that went through, cut to microseconds, and the next write is
refused just if the ledger has no place for what it would leave, or needs what it would take away. -/
theorem Store.shows_ledger (calls : List Store.Call) (hplain : ∀ call ∈ calls, call.IsPlain) :
    (Store.empty.answerAll calls).Shows (Ledger.ofHistory (Store.empty.passed calls)) := by
  obtain ⟨after, hafter, hrecords⟩ := Contents.Records.empty.answerAll hplain
  change Store.empty.answerAll calls = _ at hafter
  rw [hafter]
  exact hrecords.shows

/-- An organization is saved, its name is refused to another one, and then it is saved again under
another name and with a later time of creation. -/
def Store.savedTwice : List Store.Call :=
  [.saveOrganization (.small 1 "Desk" none), .saveOrganization (.small 2 "Desk" none),
    .saveOrganization { Organization.small 1 "Help" none with createdAt := .ofSeconds 60 }]

theorem Store.shows_ledger_savedTwice : (∀ call ∈ savedTwice, call.IsPlain) ∧
    (empty.passed savedTwice).length = 2 ∧
    ((empty.answerAll savedTwice).answer (.getOrganization (.small 1))).1 =
      .ok (some (.small 1 "Help" none)) := by
  have hplain : ∀ call ∈ savedTwice, call.IsPlain := by
    refine List.forall_mem_cons.2 ⟨?_, List.forall_mem_cons.2 ⟨?_, List.forall_mem_singleton.2 ?_⟩⟩
    · exact (by decide : (Organization.small 1 "Desk" none).IsPlain)
    · exact (by decide : (Organization.small 2 "Desk" none).IsPlain)
    · exact (by decide : Organization.IsPlain { Organization.small 1 "Help" none with
        createdAt := .ofSeconds 60 })
  refine ⟨hplain, by decide +kernel, ?_⟩
  rw [(shows_ledger savedTwice hplain).getOrganization]
  decide +kernel

end ServiceDesk
