import ServiceDesk.Proofs.Service.Deletions
import ServiceDesk.Proofs.Service.Invariants

/-!
References between rows while requests of all kinds are at work. The store refuses every write that
would leave a reference without its row, but it does not compare the organizations of a category and
its parent, and requests compare them only once, with a parent that may be gone when they save. It
is enough, though, since an id is given away once: whatever is read or saved under the id of a
category belongs to the organization for which the category was created.
-/

namespace ServiceDesk

open Hierarchy

/-- Every reference leads to a row, and the parent of a category is one of its organization. -/
structure Store.Referential (store : Store) : Prop where
  organization_parents : ∀ row ∈ store.organizations, row.parentId.isSome →
    ∃ above ∈ store.organizations, above.id = row.parentId
  owners : ∀ row ∈ store.categories,
    ∃ owner ∈ store.organizations, owner.id = some row.organizationId
  category_parents : ∀ row ∈ store.categories, row.parentId.isSome →
    ∃ above ∈ store.categories, above.id = row.parentId ∧ above.organizationId = row.organizationId

/-- The creation of a category with this id in this organization. -/
def Request.Files (organizationId id : Uuid) : Request → Prop
  | .createCategory stamp owner _ => stamp.id = id ∧ owner = organizationId
  | _ => False

theorem Request.Files.creates {organizationId id : Uuid} {request : Request}
    (h : request.Files organizationId id) : request.Creates .categories id := by
  cases request with
  | createCategory stamp owner input => exact ⟨congrArg some h.1, rfl⟩
  | _ => cases h

namespace Desk

variable {ι : Type} {requests : ι → Request} {now : Contents}

/-- One of the requests creates the category of this id in this organization. -/
def Owns (requests : ι → Request) (organizationId id : Uuid) : Prop :=
  ∃ i, (requests i).Files organizationId id

theorem Owns.unique {store : Store} (hnew : NewIds requests store) {a b id : Uuid}
    (ha : Owns requests a id) (hb : Owns requests b id) : a = b := by
  obtain ⟨i, hi⟩ := ha
  obtain ⟨j, hj⟩ := hb
  cases hnew.distinct i j .categories id hi.creates hj.creates
  cases hrequest : requests i with
  | createCategory stamp owner input =>
      rw [hrequest] at hi hj
      exact hi.2.symm.trans hj.2
  | _ =>
      rw [hrequest] at hi
      cases hi

/-- A category in the organization for which it was created, below a parent that was created for the
same one. -/
structure Placed (requests : ι → Request) (category : Category) : Prop where
  self : Owns requests category.organizationId category.id
  parent : ∀ parent, category.parentId = some parent → Owns requests category.organizationId parent

/-- Contents in which no reference dangles and every category is in its place. -/
structure Tenanted (requests : ι → Request) (contents : Contents) : Prop where
  closed : contents.Closed fun _ => False
  placed : ∀ category ∈ contents.categories, Placed requests category

theorem Tenanted.empty (requests : ι → Request) : Tenanted requests Contents.empty where
  closed := .empty
  placed := fun _ hmem => by cases hmem

/-- A category that was found is in its place. -/
theorem placed_of_found {id : Uuid} {stored : Category}
    (h : (Event.exchange (.getCategory id) (.ok (some stored))).ReadFrom (Tenanted requests)) :
    Placed requests stored := by
  obtain ⟨old, hold, hanswer⟩ := h
  obtain ⟨hid, hlink, _⟩ := Contents.getCategory_answer hanswer
  obtain ⟨category, hmem, hself, hparent⟩ := mem_linksOf.1 hlink
  obtain ⟨hcategory, howner⟩ := List.mem_filter.1 hmem
  have hplaced := hold.placed category hcategory
  have howner : category.organizationId = stored.organizationId := by simpa using howner
  refine ⟨?_, fun parent hsome => ?_⟩
  · rw [hid, ← hself, ← howner]
    exact hplaced.self
  · rw [← howner]
    exact hplaced.parent parent (hparent.trans hsome)

/-- A parent of which the depth was checked in the list of an organization was created for it. -/
theorem owns_of_checkDepth {organizationId child parent : Uuid} {all : List Category}
    (h : (Event.exchange (.categoriesFor organizationId) (.ok all)).ReadFrom (Tenanted requests))
    (hroom : (Lineage.ofItems all).checkDepth child (some parent) = .ok ()) :
    Owns requests organizationId parent := by
  obtain ⟨old, hold, hanswer⟩ := h
  have hperm := Contents.categoriesFor_answer hanswer
  have hkeys : (keys (linksOf all)).Perm ((old.categoriesOf organizationId).map Nested.id) := by
    rw [← keys_linksOf]
    exact hperm.map _
  have hnodup : (keys (linksOf all)).Nodup :=
    hkeys.nodup_iff.2 (hold.closed.categories_nodup.sublist (List.filter_sublist.map _))
  have hparent := hkeys.mem_iff.1 (Service.parent_of_checkDepth hnodup hroom)
  obtain ⟨category, hmem, rfl⟩ := List.mem_map.1 hparent
  obtain ⟨hcategory, howner⟩ := List.mem_filter.1 hmem
  have howner : category.organizationId = organizationId := by simpa using howner
  exact howner ▸ (hold.placed category hcategory).self

/-- What a request saves is in its place if all that it has read was. -/
theorem placed_of_allows {i : ι} {request : Request} (hrequest : requests i = request)
    {past : List Event} {category : Category} (h : request.Allows past (.saveCategory category))
    (hreads : ∀ event ∈ past, event.ReadFrom (Tenanted requests)) : Placed requests category := by
  cases h with
  | look _ hread => cases hread
  | read _ _ _ hread => cases hread
  | createCategory _ hinput hdepth =>
      obtain ⟨hid, howner, hparent, _, _⟩ := Category.ofInput_eq_ok hinput
      refine ⟨⟨i, ?_⟩, fun parent hsome => ?_⟩
      · rw [hrequest]
        exact ⟨hid.symm, howner.symm⟩
      · obtain ⟨all, hall, hroom⟩ := hdepth parent (hparent ▸ hsome)
        rw [howner]
        exact owns_of_checkDepth (hreads _ (guarded_subset past hall)) hroom
  | updateCategory hstored hchange =>
      have hplaced := placed_of_found (hreads _ hstored)
      have hupdates := Service.changeCategory_eq_ok hchange
      refine ⟨?_, fun parent hsome => ?_⟩
      · rw [hupdates.id, hupdates.organizationId]
        exact hplaced.self
      · rw [hupdates.organizationId]
        exact hplaced.parent parent (hupdates.parentId.symm.trans hsome)
  | uprootCategory _ hstored =>
      have hplaced := placed_of_found (hreads _ (guarded_subset past hstored))
      exact ⟨hplaced.self, fun _ hnone => nomatch hnone⟩
  | moveCategory _ hstored hchange hall hcheck =>
      have hplaced := placed_of_found (hreads _ (guarded_subset past hstored))
      obtain ⟨_, _, hroom⟩ := bind_eq_ok.1 hcheck
      rw [Category.changeParent_eq_ok hchange]
      refine ⟨hplaced.self, fun parent hsome => ?_⟩
      cases hsome
      exact owns_of_checkDepth (hreads _ (guarded_subset past hall)) hroom

/-- A call keeps all categories in their places if the one that it saves is in its place. -/
theorem Tenanted.becomes (h : Tenanted requests now) {store : Store} (hnew : NewIds requests store)
    {call : Store.Call} {after : Contents} (hcall : now.Becomes call after)
    (hsaved : ∀ category, call = .saveCategory category → Placed requests category) :
    Tenanted requests after where
  closed := hcall.closed h.closed fun _ _ hlost => hlost
  placed := by
    cases hcall with
    | same => exact h.placed
    | saveOrganization _ => exact h.placed
    | @saveCategory category _ =>
        have hplaced := hsaved category rfl
        intro other hmem
        rcases mem_put.1 hmem with rfl | ⟨hold, _⟩
        · rw [Contents.mergeCategory]
          split
          · exact hplaced
          · rename_i stored hfound
            -- the row keeps its organization, which is that of the category under this id
            have hid : stored.id = category.id := by simpa using List.find?_some hfound
            have hstored := (h.placed stored (List.mem_of_find?_eq_some hfound)).self
            rw [hid] at hstored
            rw [hstored.unique hnew hplaced.self]
            exact ⟨hplaced.self, hplaced.parent⟩
        · exact h.placed other hold
    | deleteOrganization _ _ => exact h.placed
    | deleteCategory _ => exact fun other hmem => h.placed other (List.mem_of_mem_filter hmem)

/-- No reference dangles in a store of such contents, and none leads to another organization. -/
theorem Tenanted.referential (h : Tenanted requests now) {store : Store}
    (hnew : NewIds requests store) : now.store.Referential where
  organization_parents := by
    intro row hrow hsome
    obtain ⟨organization, hmem, rfl⟩ := List.mem_map.1 hrow
    obtain ⟨parent, hparent⟩ := Option.isSome_iff_exists.1 (Option.isSome_map.symm.trans hsome)
    obtain ⟨above, habove, rfl⟩ :=
      List.mem_map.1 (h.closed.organization_parents organization hmem parent hparent)
    refine ⟨_, List.mem_map_of_mem habove, ?_⟩
    exact (congrArg (Option.map Uuid.text) hparent).symm
  owners := by
    intro row hrow
    obtain ⟨category, hmem, rfl⟩ := List.mem_map.1 hrow
    obtain ⟨owner, howner, hid⟩ := List.mem_map.1 (h.closed.owners category hmem id)
    exact ⟨_, List.mem_map_of_mem howner, congrArg (fun id : Uuid => some id.text) hid⟩
  category_parents := by
    intro row hrow hsome
    obtain ⟨category, hmem, rfl⟩ := List.mem_map.1 hrow
    obtain ⟨parent, hparent⟩ := Option.isSome_iff_exists.1 (Option.isSome_map.symm.trans hsome)
    obtain ⟨above, habove, rfl⟩ :=
      List.mem_map.1 (h.closed.category_parents category hmem parent hparent)
    have howner : above.organizationId = category.organizationId :=
      (h.placed above habove).self.unique hnew ((h.placed category hmem).parent _ hparent)
    refine ⟨_, List.mem_map_of_mem habove, ?_, congrArg Uuid.text howner⟩
    exact (congrArg (Option.map Uuid.text) hparent).symm

/-- What is stored, and all that requests have read so far, are contents with every category in its
place. -/
structure Tended (requests : ι → Request) (desk : Desk ι) : Prop where
  stored : ∃ now : Contents, desk.store = now.store ∧ Tenanted requests now
  reads : ∀ entry ∈ desk.log, entry.2.ReadFrom (Tenanted requests)

variable [DecidableEq ι]

theorem tended_run {store : Store} (hnew : NewIds requests store) (schedule : List ι) :
    Tended requests ((start Store.empty requests).run schedule) := by
  have hkeeps : ∀ i, (requests i).Keeps (Tenanted requests) := by
    intro i past call contents after hallows hreads htenanted hcall
    refine htenanted.becomes hnew hcall ?_
    rintro category rfl
    exact placed_of_allows rfl hallows hreads
  obtain ⟨hstored, hreads⟩ := kept_run hkeeps (Tenanted.empty requests) schedule
  exact ⟨hstored, hreads⟩

/-- Requests of all kinds at work on a store that was empty at first, in any order of their steps. No
reference ever dangles, no category lies below one of another organization, and a category that is
there again after a while is still in the organization in which it was. -/
theorem references_kept (hnew : NewIds requests Store.empty) (schedule : List ι) :
    ((start Store.empty requests).run schedule).store.Referential ∧
    ∀ served, served <+: schedule →
      ∀ old ∈ ((start Store.empty requests).run served).store.categories,
        ∀ row ∈ ((start Store.empty requests).run schedule).store.categories,
          row.id = old.id → row.organizationId = old.organizationId := by
  obtain ⟨now, hstore, hnow⟩ := (tended_run hnew schedule).stored
  refine ⟨hstore ▸ hnow.referential hnew, ?_⟩
  intro served _ old hold row hrow hid
  obtain ⟨before, hbefore, htenanted⟩ := (tended_run hnew served).stored
  rw [hstore] at hrow
  rw [hbefore] at hold
  obtain ⟨category, hcategory, rfl⟩ := List.mem_map.1 hrow
  obtain ⟨first, hfirst, rfl⟩ := List.mem_map.1 hold
  have hsame : category.id = first.id := Uuid.text_injective (Option.some.inj hid)
  have howner := (hnow.placed category hcategory).self
  rw [hsame] at howner
  exact congrArg Uuid.text (howner.unique hnew (htenanted.placed first hfirst).self)

def openAndFile : Bool → Request
  | false => .createOrganization ⟨.ofSeconds 60, .small 1⟩ ⟨"Desk", "", none⟩
  | true => .createCategory ⟨.ofSeconds 61, .small 2⟩ (.small 1) ⟨"Mail", "", none⟩

theorem newIds_openAndFile : NewIds openAndFile Store.empty where
  distinct i j layout id hi hj := by
    cases i with
    | false =>
        cases j with
        | false => rfl
        | true => exact nomatch (show some Layout.organizations = _ from hi.2.trans hj.2.symm)
    | true =>
        cases j with
        | false => exact nomatch (show some Layout.categories = _ from hi.2.trans hj.2.symm)
        | true => rfl
  fresh i layout id _ := by cases layout <;> rfl

theorem references_kept_filed :
    let desk (served : List Bool) := (start Store.empty openAndFile).run served
    let schedule := [false, false, true, false, true, true]
    (desk schedule).store.has .categories (.small 2) = true ∧
      (desk schedule).store.Referential ∧ ∀ served, served <+: schedule →
        ∀ old ∈ (desk served).store.categories, ∀ row ∈ (desk schedule).store.categories,
          row.id = old.id → row.organizationId = old.organizationId :=
  ⟨by decide +kernel, references_kept newIds_openAndFile _⟩

end Desk

end ServiceDesk
