import ServiceDesk.Proofs.Service.Footprints
import ServiceDesk.Proofs.Service.Invariants

/-!
What is true of every stored row. Input passes the rules before it is saved, and a change passes the
rule of the field that it changes, so every field is in its normal form. The time of creation is kept
by each save, and the time of change is the later one of the stored time and the clock, so that the
times stay in order although the clock may run backwards and seconds are cut to microseconds.
-/

namespace ServiceDesk

open Hierarchy Service Time

/-! ### Fields in normal form -/

/-- An organization whose fields are in normal form. -/
structure Organization.Normal (organization : Organization) : Prop where
  name : Rules.IsName organization.name
  domain : ∀ domain, organization.domain = some domain → Rules.IsDomain domain

structure Category.Normal (category : Category) : Prop where
  name : Rules.IsName category.name
  description : Rules.IsDescription category.description
  owner : category.organizationId ≠ Uuid.nil

theorem Organization.normal_of_ofInput {id : Uuid} {name domain : String} {parentId : Option Uuid}
    {now : Instant} {organization : Organization}
    (h : Organization.ofInput id name domain parentId now = .ok organization) :
    organization.Normal := by
  obtain ⟨normal, host, hname, hdomain, _, rfl⟩ := Organization.ofInput_eq_ok_iff.1 h
  refine ⟨Rules.name_eq_ok hname, ?_⟩
  rintro text rfl
  exact Rules.domain_eq_ok hdomain

theorem Category.normal_of_ofInput {id organizationId : Uuid} {name description : String}
    {parentId : Option Uuid} {now : Instant} {category : Category}
    (h : Category.ofInput id organizationId name description parentId now = .ok category) :
    category.Normal := by
  obtain ⟨normal, text, hname, hdescription, howner, _, rfl⟩ := Category.ofInput_eq_ok_iff.1 h
  exact ⟨Rules.name_eq_ok hname, Rules.description_eq_ok hdescription,
    (Rules.tenant_eq_ok howner).2⟩

/-- What a change makes of an organization: its fields stay in normal form, and the time of change is
not taken back. -/
structure Organization.Matures (stored organization : Organization) : Prop where
  normal : stored.Normal → organization.Normal
  later : stored.updatedAt ≤ organization.updatedAt

structure Category.Matures (stored category : Category) : Prop where
  normal : stored.Normal → category.Normal
  later : stored.updatedAt ≤ category.updatedAt

namespace Organization.Matures

variable {a b c : Organization}

theorem refl (a : Organization) : a.Matures a := ⟨fun ha => ha, Instant.le_refl _⟩

theorem trans (hab : a.Matures b) (hbc : b.Matures c) : a.Matures c :=
  ⟨fun ha => hbc.normal (hab.normal ha), Instant.le_trans hab.later hbc.later⟩

theorem touch (now : Instant) (hnormal : a.Normal → b.Normal) (hsame : b.updatedAt = a.updatedAt) :
    a.Matures (b.touch now) where
  normal ha := ⟨(hnormal ha).name, (hnormal ha).domain⟩
  later := hsame ▸ Instant.le_latest b.updatedAt now

end Organization.Matures

namespace Category.Matures

variable {a b c : Category}

theorem refl (a : Category) : a.Matures a := ⟨fun ha => ha, Instant.le_refl _⟩

theorem trans (hab : a.Matures b) (hbc : b.Matures c) : a.Matures c :=
  ⟨fun ha => hbc.normal (hab.normal ha), Instant.le_trans hab.later hbc.later⟩

theorem touch (now : Instant) (hnormal : a.Normal → b.Normal) (hsame : b.updatedAt = a.updatedAt) :
    a.Matures (b.touch now) where
  normal ha := ⟨(hnormal ha).name, (hnormal ha).description, (hnormal ha).owner⟩
  later := hsame ▸ Instant.le_latest b.updatedAt now

end Category.Matures

namespace Service

theorem changeOrganization_matures {changes : OrganizationChanges} {now : Instant}
    {stored organization : Organization}
    (h : changeOrganization changes now stored = .ok organization) : stored.Matures organization := by
  obtain ⟨renamed, hrename, h⟩ := bind_eq_ok.1 h
  obtain ⟨moved, hdomain, hactive⟩ := bind_eq_ok.1 h
  have hrenamed : stored.Matures renamed := by
    refine applying_eq_ok (.refl stored) ?_ hrename
    intro name changed hchange
    obtain ⟨normal, hname, hchange⟩ := bind_eq_ok.1 hchange
    cases hchange
    exact .touch now (fun hstored => ⟨Rules.name_eq_ok hname, hstored.domain⟩) rfl
  have hmoved : renamed.Matures moved := by
    refine applying_eq_ok (.refl renamed) ?_ hdomain
    intro domain changed hchange
    obtain ⟨host, hhost, hchange⟩ := bind_eq_ok.1 hchange
    cases hchange
    refine .touch now (fun hstored => ⟨hstored.name, ?_⟩) rfl
    rintro text rfl
    exact Rules.domain_eq_ok hhost
  have hset : moved.Matures organization := by
    refine applying_eq_ok (.refl moved) ?_ hactive
    intro isActive changed hchange
    cases hchange
    exact .touch now (fun hstored => ⟨hstored.name, hstored.domain⟩) rfl
  exact (hrenamed.trans hmoved).trans hset

theorem changeCategory_matures {changes : CategoryChanges} {now : Instant}
    {stored category : Category} (h : changeCategory changes now stored = .ok category) :
    stored.Matures category := by
  obtain ⟨renamed, hrename, h⟩ := bind_eq_ok.1 h
  obtain ⟨described, hdescribe, hactive⟩ := bind_eq_ok.1 h
  have hrenamed : stored.Matures renamed := by
    refine applying_eq_ok (.refl stored) ?_ hrename
    intro name changed hchange
    obtain ⟨normal, hname, hchange⟩ := bind_eq_ok.1 hchange
    cases hchange
    exact .touch now (fun hstored => ⟨Rules.name_eq_ok hname, hstored.description,
      hstored.owner⟩) rfl
  have hdescribed : renamed.Matures described := by
    refine applying_eq_ok (.refl renamed) ?_ hdescribe
    intro description changed hchange
    obtain ⟨text, htext, hchange⟩ := bind_eq_ok.1 hchange
    cases hchange
    exact .touch now (fun hstored => ⟨hstored.name, Rules.description_eq_ok htext,
      hstored.owner⟩) rfl
  have hset : described.Matures category := by
    refine applying_eq_ok (.refl described) ?_ hactive
    intro isActive changed hchange
    cases hchange
    exact .touch now (fun hstored => ⟨hstored.name, hstored.description, hstored.owner⟩) rfl
  exact (hrenamed.trans hdescribed).trans hset

end Service

/-! ### What is saved -/

namespace Request.Allows

variable {request : Request} {past : List Event}

/-- An organization that is saved is a new one in normal form, or was read and has been changed. -/
theorem saved_organization {organization : Organization}
    (h : request.Allows past (.saveOrganization organization)) :
    (request.generated? = some organization.id ∧ organization.Normal ∧
      organization.createdAt = organization.updatedAt) ∨
    ∃ id stored, .exchange (.getOrganization id) (.ok (some stored)) ∈ past ∧
      organization.id = stored.id ∧ organization.createdAt = stored.createdAt ∧
        stored.Matures organization := by
  cases h with
  | look _ hread => cases hread
  | read _ _ _ hread => cases hread
  | createOrganization _ hinput _ =>
      obtain ⟨hid, _, hcreated, hupdated⟩ := Organization.ofInput_eq_ok hinput
      exact Or.inl ⟨congrArg some hid.symm, Organization.normal_of_ofInput hinput,
        hcreated.trans hupdated.symm⟩
  | updateOrganization hstored hchange =>
      have hupdates := changeOrganization_eq_ok hchange
      exact Or.inr ⟨_, _, hstored, hupdates.id, hupdates.createdAt,
        changeOrganization_matures hchange⟩
  | uprootOrganization _ hstored =>
      refine Or.inr ⟨_, _, guarded_subset past hstored, rfl, rfl, ?_⟩
      exact .touch _ (fun hnormal => ⟨hnormal.name, hnormal.domain⟩) rfl
  | moveOrganization _ hstored hchange _ _ =>
      rw [Organization.changeParent_eq_ok hchange]
      refine Or.inr ⟨_, _, guarded_subset past hstored, rfl, rfl, ?_⟩
      exact .touch _ (fun hnormal => ⟨hnormal.name, hnormal.domain⟩) rfl

/-- A category that is saved is a new one in normal form, or was read and has been changed. -/
theorem saved_category {category : Category} (h : request.Allows past (.saveCategory category)) :
    (request.generated? = some category.id ∧ category.Normal ∧
      category.createdAt = category.updatedAt) ∨
    ∃ id stored, .exchange (.getCategory id) (.ok (some stored)) ∈ past ∧
      category.id = stored.id ∧ category.createdAt = stored.createdAt ∧
        stored.Matures category := by
  cases h with
  | look _ hread => cases hread
  | read _ _ _ hread => cases hread
  | createCategory _ hinput _ =>
      obtain ⟨hid, _, _, hcreated, hupdated⟩ := Category.ofInput_eq_ok hinput
      exact Or.inl ⟨congrArg some hid.symm, Category.normal_of_ofInput hinput,
        hcreated.trans hupdated.symm⟩
  | updateCategory hstored hchange =>
      have hupdates := changeCategory_eq_ok hchange
      exact Or.inr ⟨_, _, hstored, hupdates.id, hupdates.createdAt, changeCategory_matures hchange⟩
  | uprootCategory _ hstored =>
      refine Or.inr ⟨_, _, guarded_subset past hstored, rfl, rfl, ?_⟩
      exact .touch _ (fun hnormal => ⟨hnormal.name, hnormal.description, hnormal.owner⟩) rfl
  | moveCategory _ hstored hchange _ _ =>
      rw [Category.changeParent_eq_ok hchange]
      refine Or.inr ⟨_, _, guarded_subset past hstored, rfl, rfl, ?_⟩
      exact .touch _ (fun hnormal => ⟨hnormal.name, hnormal.description, hnormal.owner⟩) rfl

end Request.Allows

structure Contents.Normal (contents : Contents) : Prop where
  organizations : ∀ organization ∈ contents.organizations, organization.Normal
  categories : ∀ category ∈ contents.categories, category.Normal

namespace Request.Allows

variable {request : Request} {past : List Event}

theorem normal_organization {organization : Organization}
    (h : request.Allows past (.saveOrganization organization))
    (hreads : ∀ event ∈ past, event.ReadFrom Contents.Normal) : organization.Normal := by
  rcases h.saved_organization with ⟨_, hnormal, _⟩ | ⟨id, stored, hread, _, _, hmatures⟩
  · exact hnormal
  · obtain ⟨old, hold, hanswer⟩ := hreads _ hread
    obtain ⟨held, hheld, _, _, rfl⟩ := Contents.organization?_of_answer hanswer
    obtain ⟨hname, hdomain⟩ := hold.organizations held (List.mem_of_find?_eq_some hheld)
    exact hmatures.normal ⟨hname, hdomain⟩

theorem normal_category {category : Category} (h : request.Allows past (.saveCategory category))
    (hreads : ∀ event ∈ past, event.ReadFrom Contents.Normal) : category.Normal := by
  rcases h.saved_category with ⟨_, hnormal, _⟩ | ⟨id, stored, hread, _, _, hmatures⟩
  · exact hnormal
  · obtain ⟨old, hold, hanswer⟩ := hreads _ hread
    obtain ⟨held, hheld, _, _, rfl⟩ := Contents.category?_of_answer hanswer
    obtain ⟨hname, hdescription, howner⟩ := hold.categories held (List.mem_of_find?_eq_some hheld)
    exact hmatures.normal ⟨hname, hdescription, howner⟩

end Request.Allows

theorem Contents.Normal.empty : Contents.empty.Normal where
  organizations := fun _ hmem => by cases hmem
  categories := fun _ hmem => by cases hmem

theorem Request.keeps_normal (request : Request) : request.Keeps Contents.Normal := by
  intro past call contents after hallows hreads hnormal hcall
  cases hcall with
  | same => exact hnormal
  | @saveOrganization organization _ =>
      have hsaved := hallows.normal_organization hreads
      refine ⟨fun other hmem => ?_, hnormal.categories⟩
      rcases mem_put.1 hmem with rfl | ⟨hold, _⟩
      · rw [Contents.mergeOrganization]
        split
        · exact hsaved
        · exact ⟨hsaved.name, hsaved.domain⟩
      · exact hnormal.organizations other hold
  | @saveCategory category _ =>
      have hsaved := hallows.normal_category hreads
      refine ⟨hnormal.organizations, fun other hmem => ?_⟩
      rcases mem_put.1 hmem with rfl | ⟨hold, _⟩
      · rw [Contents.mergeCategory]
        split
        · exact hsaved
        · -- the row keeps its organization
          rename_i stored hfound
          have hstored := hnormal.categories stored (List.mem_of_find?_eq_some hfound)
          exact ⟨hsaved.name, hsaved.description, hstored.owner⟩
      · exact hnormal.categories other hold
  | deleteOrganization _ _ =>
      exact ⟨fun other hmem => hnormal.organizations other (List.mem_of_mem_filter hmem),
        hnormal.categories⟩
  | deleteCategory _ =>
      exact ⟨hnormal.organizations,
        fun other hmem => hnormal.categories other (List.mem_of_mem_filter hmem)⟩

/-! ### Times in order -/

/-- One organization at two times: it has the same time of creation, and the time of change has not
been taken back, as far as these are written down. -/
structure Organization.Ages (old new : Organization) : Prop where
  created : new.createdAt = old.createdAt
  changed : old.updatedAt.toMicros ≤ new.updatedAt.toMicros

structure Category.Ages (old new : Category) : Prop where
  created : new.createdAt = old.createdAt
  changed : old.updatedAt.toMicros ≤ new.updatedAt.toMicros

theorem Organization.Ages.refl (organization : Organization) : organization.Ages organization :=
  ⟨rfl, Instant.le_refl _⟩

theorem Category.Ages.refl (category : Category) : category.Ages category :=
  ⟨rfl, Instant.le_refl _⟩

section Related

variable {α : Type} [Nested α] {related : α → α → Prop} {items later : List α}

theorem Hierarchy.related_of_subset (hself : ∀ item, related item item) (hsub : later ⊆ items)
    (hnodup : (items.map Nested.id).Nodup) :
    ∀ old ∈ items, ∀ new ∈ later, Nested.id new = Nested.id old → related old new := by
  intro old hold new hnew hid
  rw [List.inj_on_of_nodup_map hnodup (hsub hnew) hold hid]
  exact hself old

/-- After an entity was put in place, it is related to the one of its id, and the others stay. -/
theorem Hierarchy.related_put (hself : ∀ item, related item item)
    (hnodup : (items.map Nested.id).Nodup) {item : α}
    (hitem : ∀ old ∈ items, Nested.id old = Nested.id item → related old item) :
    ∀ old ∈ items, ∀ new ∈ put items item, Nested.id new = Nested.id old → related old new := by
  intro old hold new hnew hid
  rcases mem_put.1 hnew with rfl | ⟨hmem, _⟩
  · exact hitem old hold hid.symm
  · exact related_of_subset hself (List.Subset.refl items) hnodup old hold new hmem hid

end Related

namespace Contents

/-- Contents in which nothing was changed before it was created, as far as this is written down. -/
structure Timed (contents : Contents) : Prop where
  organizations : ∀ organization ∈ contents.organizations,
    organization.createdAt.toMicros ≤ organization.updatedAt.toMicros
  categories : ∀ category ∈ contents.categories,
    category.createdAt.toMicros ≤ category.updatedAt.toMicros

/-- What is stored at both of two times has aged. -/
structure Ages (before after : Contents) : Prop where
  organizations : ∀ old ∈ before.organizations, ∀ new ∈ after.organizations, new.id = old.id →
    old.Ages new
  categories : ∀ old ∈ before.categories, ∀ new ∈ after.categories, new.id = old.id → old.Ages new

/-- Sound contents in normal form with their times in order. -/
structure Tidy (given : List Uuid) (contents : Contents) : Prop where
  sound : contents.Sound given
  normal : contents.Normal
  timed : contents.Timed

variable {contents after : Contents} {given : List Uuid}

theorem Timed.empty : Contents.empty.Timed where
  organizations := fun _ hmem => by cases hmem
  categories := fun _ hmem => by cases hmem

theorem Tidy.empty : Tidy [] Contents.empty := ⟨.empty, .empty, .empty⟩

theorem Sound.ages_of_subset (h : contents.Sound given)
    (horganizations : after.organizations ⊆ contents.organizations)
    (hcategories : after.categories ⊆ contents.categories) : contents.Ages after where
  organizations := related_of_subset .refl horganizations h.legal.organizations_nodup
  categories := related_of_subset .refl hcategories h.legal.categories_nodup

theorem Sound.organization?_eq_none (h : contents.Sound given) {id : Uuid} (hnew : id ∉ given) :
    contents.organization? id = none := by
  rw [organization?, List.find?_eq_none]
  intro stored hmem hid
  exact hnew (of_decide_eq_true hid ▸ h.organizations_given stored hmem)

theorem Sound.category?_eq_none (h : contents.Sound given) {id : Uuid} (hnew : id ∉ given) :
    contents.category? id = none := by
  rw [category?, List.find?_eq_none]
  intro stored hmem hid
  exact hnew (of_decide_eq_true hid ▸ h.categories_given stored hmem)

end Contents

namespace Request.Allows

variable {request : Request} {past : List Event} {contents : Contents} {given : List Uuid}

/-- An organization that is saved after current reads is stored with its times in order, and the one
that was stored before has aged. -/
theorem ages_organization {organization : Organization}
    (h : request.Allows past (.saveOrganization organization))
    (hnew : ∀ id, request.generated? = some id → id ∉ given) (htidy : contents.Tidy given)
    (hcurrent : ∀ event ∈ past, event.Current contents.store) :
    (contents.mergeOrganization organization).createdAt.toMicros ≤
      (contents.mergeOrganization organization).updatedAt.toMicros ∧
    ∀ old ∈ contents.organizations, old.id = organization.id →
      old.Ages (contents.mergeOrganization organization) := by
  rcases h.saved_organization with ⟨hid, _, hsame⟩ | ⟨id, stored, hread, hid, hcreated, hmatures⟩
  · have hnone := htidy.sound.organization?_eq_none (hnew _ hid)
    rw [Contents.mergeOrganization_new hnone, hsame]
    refine ⟨Instant.le_refl _, fun old hmem hold => ?_⟩
    have hgiven := htidy.sound.organizations_given old hmem
    rw [hold] at hgiven
    exact absurd hgiven (hnew _ hid)
  · obtain ⟨held, hheld, hself, _, rfl⟩ := Contents.organization?_of_answer (hcurrent _ hread)
    have hmem : held ∈ contents.organizations := List.mem_of_find?_eq_some hheld
    have hlater : held.updatedAt.toMicros ≤ organization.updatedAt.toMicros := by
      have hmicros := Instant.toMicros_le hmatures.later
      rwa [Organization.toMicros, Instant.toMicros_toMicros] at hmicros
    have hsame : organization.id = id := hid.trans hself
    rw [← hsame] at hheld hself
    rw [Contents.mergeOrganization_stored hheld]
    refine ⟨Instant.le_trans (htidy.timed.organizations held hmem) hlater, fun old hold hid => ?_⟩
    rw [List.inj_on_of_nodup_map htidy.sound.legal.organizations_nodup hold hmem
      (hid.trans hself.symm)]
    exact ⟨rfl, hlater⟩

/-- A category that is saved after current reads is stored with its times in order, and the one that
was stored before has aged. -/
theorem ages_category {category : Category} (h : request.Allows past (.saveCategory category))
    (hnew : ∀ id, request.generated? = some id → id ∉ given) (htidy : contents.Tidy given)
    (hcurrent : ∀ event ∈ past, event.Current contents.store) :
    (contents.mergeCategory category).createdAt.toMicros ≤
      (contents.mergeCategory category).updatedAt.toMicros ∧
    ∀ old ∈ contents.categories, old.id = category.id →
      old.Ages (contents.mergeCategory category) := by
  rcases h.saved_category with ⟨hid, _, hsame⟩ | ⟨id, stored, hread, hid, hcreated, hmatures⟩
  · have hnone := htidy.sound.category?_eq_none (hnew _ hid)
    rw [Contents.mergeCategory_new hnone, hsame]
    refine ⟨Instant.le_refl _, fun old hmem hold => ?_⟩
    have hgiven := htidy.sound.categories_given old hmem
    rw [hold] at hgiven
    exact absurd hgiven (hnew _ hid)
  · obtain ⟨held, hheld, hself, _, rfl⟩ := Contents.category?_of_answer (hcurrent _ hread)
    have hmem : held ∈ contents.categories := List.mem_of_find?_eq_some hheld
    have hlater : held.updatedAt.toMicros ≤ category.updatedAt.toMicros := by
      have hmicros := Instant.toMicros_le hmatures.later
      rwa [Category.toMicros, Instant.toMicros_toMicros] at hmicros
    have hsame : category.id = id := hid.trans hself
    rw [← hsame] at hheld hself
    rw [Contents.mergeCategory_stored hheld]
    refine ⟨Instant.le_trans (htidy.timed.categories held hmem) hlater, fun old hold hid => ?_⟩
    rw [List.inj_on_of_nodup_map htidy.sound.legal.categories_nodup hold hmem
      (hid.trans hself.symm)]
    exact ⟨rfl, hlater⟩

/-- An allowed call after current reads leaves the times in order, and what is stored ages. -/
theorem ages {call : Store.Call} {after : Contents} (h : request.Allows past call)
    (hnew : ∀ id, request.generated? = some id → id ∉ given) (htidy : contents.Tidy given)
    (hcurrent : ∀ event ∈ past, event.Current contents.store) (hcall : contents.Becomes call after) :
    after.Timed ∧ contents.Ages after := by
  have hsound := htidy.sound
  cases hcall with
  | same => exact ⟨htidy.timed, hsound.ages_of_subset (List.Subset.refl _) (List.Subset.refl _)⟩
  | @saveOrganization organization _ =>
      obtain ⟨htimed, hages⟩ := h.ages_organization hnew htidy hcurrent
      refine ⟨⟨fun other hmem => ?_, htidy.timed.categories⟩, ?_, ?_⟩
      · rcases mem_put.1 hmem with rfl | ⟨hold, _⟩
        · exact htimed
        · exact htidy.timed.organizations other hold
      · refine related_put .refl hsound.legal.organizations_nodup ?_
        rw [Contents.mergeOrganization_id]
        exact hages
      · exact related_of_subset .refl (List.Subset.refl _) hsound.legal.categories_nodup
  | @saveCategory category _ =>
      obtain ⟨htimed, hages⟩ := h.ages_category hnew htidy hcurrent
      refine ⟨⟨htidy.timed.organizations, fun other hmem => ?_⟩, ?_, ?_⟩
      · rcases mem_put.1 hmem with rfl | ⟨hold, _⟩
        · exact htimed
        · exact htidy.timed.categories other hold
      · exact related_of_subset .refl (List.Subset.refl _) hsound.legal.organizations_nodup
      · refine related_put .refl hsound.legal.categories_nodup ?_
        rw [Contents.mergeCategory_id]
        exact hages
  | deleteOrganization _ _ =>
      refine ⟨⟨fun other hmem => ?_, htidy.timed.categories⟩, ?_⟩
      · exact htidy.timed.organizations other (List.mem_of_mem_filter hmem)
      · exact hsound.ages_of_subset (List.filter_subset_self _) (List.Subset.refl _)
  | deleteCategory _ =>
      refine ⟨⟨htidy.timed.organizations, fun other hmem => ?_⟩, ?_⟩
      · exact htidy.timed.categories other (List.mem_of_mem_filter hmem)
      · exact hsound.ages_of_subset (List.Subset.refl _) (List.filter_subset_self _)

end Request.Allows

/-- Serving one request with a new id keeps the contents tidy, and what is stored ages. -/
theorem Request.serve_tidy {request : Request} {given : List Uuid} {contents : Contents}
    (hclock : request.IsPlain) (hnew : ∀ id, request.generated? = some id → id ∉ given)
    (h : contents.Tidy given) : ∃ after : Contents, (request.serve contents.store).2 = after.store ∧
      after.Tidy (request.generated?.toList ++ given) ∧ contents.Ages after := by
  obtain ⟨after, hafter, rfl | ⟨past, call, hallows, hcurrent, hcall⟩⟩ :=
    request.serve_current contents
  · have hsound := h.sound.mono (List.subset_append_right request.generated?.toList given)
    exact ⟨after, hafter, ⟨hsound, h.normal, h.timed⟩,
      h.sound.ages_of_subset (List.Subset.refl _) (List.Subset.refl _)⟩
  · have hsound := hallows.sound hclock hnew h.sound (fun event hmem => (hcurrent event hmem).fits)
      hcall
    have hnormal := request.keeps_normal hallows
      (fun event hmem => (hcurrent event hmem).readFrom h.normal) h.normal hcall
    obtain ⟨htimed, hages⟩ := hallows.ages hnew h hcurrent hcall
    exact ⟨after, hafter, ⟨hsound, hnormal, htimed⟩, hages⟩

/-! ### Rows -/

/-- A row with its fields in normal form and its times in order. -/
structure OrganizationRow.Valid (row : OrganizationRow) : Prop where
  name : Rules.IsName row.name
  domain : ∀ domain, row.domain = some domain → Rules.IsDomain domain
  times : InOrder row.createdAt row.updatedAt

structure CategoryRow.Valid (row : CategoryRow) : Prop where
  name : Rules.IsName row.name
  description : Rules.IsDescription row.description
  owner : row.organizationId ≠ Uuid.nil.text
  times : InOrder row.createdAt row.updatedAt

namespace Store

structure Valid (store : Store) : Prop where
  organizations : ∀ row ∈ store.organizations, row.Valid
  categories : ∀ row ∈ store.categories, row.Valid

/-- A row that is there at both of two times has the same time of creation, and its time of change has
not been taken back. -/
structure Ages (before after : Store) : Prop where
  organizations : ∀ old ∈ before.organizations, ∀ new ∈ after.organizations, new.id = old.id →
    new.createdAt = old.createdAt ∧ InOrder old.updatedAt new.updatedAt
  categories : ∀ old ∈ before.categories, ∀ new ∈ after.categories, new.id = old.id →
    new.createdAt = old.createdAt ∧ InOrder old.updatedAt new.updatedAt

end Store

namespace Contents

variable {contents after : Contents} {given given' : List Uuid}

theorem Tidy.valid (h : contents.Tidy given) : contents.store.Valid where
  organizations := by
    intro row hrow
    obtain ⟨organization, hmem, rfl⟩ := List.mem_map.1 hrow
    obtain ⟨hname, hdomain⟩ := h.normal.organizations organization hmem
    obtain ⟨hcreated, hupdated⟩ := h.sound.organizations_plain organization hmem
    exact ⟨hname, hdomain,
      inOrder_encodeInstant hcreated hupdated (h.timed.organizations organization hmem)⟩
  categories := by
    intro row hrow
    obtain ⟨category, hmem, rfl⟩ := List.mem_map.1 hrow
    obtain ⟨hname, hdescription, howner⟩ := h.normal.categories category hmem
    obtain ⟨hcreated, hupdated⟩ := h.sound.categories_plain category hmem
    exact ⟨hname, hdescription, fun hnil => howner (Uuid.text_injective hnil),
      inOrder_encodeInstant hcreated hupdated (h.timed.categories category hmem)⟩

/-- Rows age as the entities do from which they are written. -/
theorem Ages.store (h : contents.Ages after) (hbefore : contents.Tidy given)
    (hafter : after.Tidy given') : contents.store.Ages after.store where
  organizations := by
    intro old hold new hnew hid
    obtain ⟨first, hfirst, rfl⟩ := List.mem_map.1 hold
    obtain ⟨second, hsecond, rfl⟩ := List.mem_map.1 hnew
    have hsame := h.organizations first hfirst second hsecond
      (Uuid.text_injective (Option.some.inj hid))
    exact ⟨congrArg encodeInstant hsame.created,
      inOrder_encodeInstant (hbefore.sound.organizations_plain first hfirst).2
        (hafter.sound.organizations_plain second hsecond).2 hsame.changed⟩
  categories := by
    intro old hold new hnew hid
    obtain ⟨first, hfirst, rfl⟩ := List.mem_map.1 hold
    obtain ⟨second, hsecond, rfl⟩ := List.mem_map.1 hnew
    have hsame := h.categories first hfirst second hsecond
      (Uuid.text_injective (Option.some.inj hid))
    exact ⟨congrArg encodeInstant hsame.created,
      inOrder_encodeInstant (hbefore.sound.categories_plain first hfirst).2
        (hafter.sound.categories_plain second hsecond).2 hsame.changed⟩

end Contents

theorem serveAll_concat (store : Store) (requests : List Request) (request : Request) :
    serveAll store (requests ++ [request]) = (request.serve (serveAll store requests)).2 := by
  rw [serveAll, List.foldl_append]
  rfl

/-- Whatever requests are served one after another from the empty store on, with new ids and a clock
that may run forwards or backwards within the years 0 to 9999: after each of them every row is valid,
and every row that is there before and after the next one has aged. -/
theorem rows_stay_valid (requests : List Request)
    (hids : (requests.filterMap Request.generated?).Nodup)
    (hclock : ∀ now ∈ requests.filterMap Request.clock?, now.IsPlain) :
    ∀ served, served <+: requests → (serveAll Store.empty served).Valid ∧
      ∀ request, served ++ [request] <+: requests →
        (serveAll Store.empty served).Ages (serveAll Store.empty (served ++ [request])) := by
  intro served hserved
  obtain ⟨given, contents, hstore, htidy, hgiven⟩ := serveAll_empty_induction served
    (hids.sublist (hserved.sublist.filterMap _))
    (fun now hmem => hclock now ((hserved.sublist.filterMap _).subset hmem)) Contents.Tidy.empty
    fun request given contents hplain hnew htidy =>
      have ⟨after, hafter, htidy, _⟩ := Request.serve_tidy hplain hnew htidy
      ⟨after, hafter, htidy⟩
  rw [hstore]
  refine ⟨htidy.valid, fun request hnext => ?_⟩
  have hplain : request.IsPlain := by
    intro now hnow
    have hmem : request ∈ requests := hnext.subset (by simp)
    exact hclock now (List.mem_filterMap.2 ⟨request, hmem, hnow⟩)
  have hfresh : ∀ id, request.generated? = some id → id ∉ given := by
    intro id hid hmem
    have hnodup := hids.sublist (hnext.sublist.filterMap Request.generated?)
    rw [List.filterMap_append, List.filterMap_cons_some hid, List.nodup_append] at hnodup
    exact hnodup.2.2 id (hgiven hmem) id List.mem_cons_self rfl
  obtain ⟨after, hafter, htidyAfter, hages⟩ := Request.serve_tidy hplain hfresh htidy
  rw [serveAll_concat, hstore, hafter]
  exact hages.store htidy htidyAfter

/-- The clock goes back before an organization is renamed and a category is filed. -/
theorem rows_stay_valid_backwards :
    let requests : List Request :=
      [.createOrganization ⟨.ofSeconds 60, .small 1⟩ ⟨" Desk ", "Desk.Org", none⟩,
        .updateOrganization ⟨.ofSeconds 30, .small 2⟩ (.small 1) ⟨some "Help desk", none, none⟩,
        .createCategory ⟨.ofSeconds 20, .small 3⟩ (.small 1) ⟨"Mail", " By mail ", none⟩]
    (serveAll Store.empty requests).organizations.length = 1 ∧
      ∀ served, served <+: requests → (serveAll Store.empty served).Valid ∧
        ∀ request, served ++ [request] <+: requests →
          (serveAll Store.empty served).Ages (serveAll Store.empty (served ++ [request])) := by
  intro requests
  exact ⟨by decide +kernel, rows_stay_valid requests (by decide) (by decide)⟩

end ServiceDesk
