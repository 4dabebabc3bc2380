import ServiceDesk.Proofs.Service.Inquiries
import ServiceDesk.Proofs.Service.Writebacks
import ServiceDesk.Proofs.Store.Listings
import ServiceDesk.Proofs.Text.Trimming

/-!
Searches for a part of a name. A search text is trimmed, and then both the text and the names are
folded. Folding knows the letters A to Z only, so the case of any other letter matters: a search finds
the same with the lower-case text, whatever is stored, just if folding takes the case away from every
character of the text, or no name is long enough for it.
-/

namespace ServiceDesk

open Service Text Time

/-! ### Names and search texts -/

namespace Text

variable {name part : String}

theorem foldCase_toList_lowercase_iff :
    foldCase (lowercase part).toList = foldCase part.toList ↔ ∀ c ∈ part.toList, Folds c := by
  rw [toList_lowercase]
  exact foldCase_lowerAfter_iff

theorem lowercase_ne_empty (text : String) : lowercase text ≠ "" ↔ text ≠ "" := by
  rw [ne_eq, ne_eq, ← String.toList_eq_nil_iff, ← String.toList_eq_nil_iff, toList_lowercase]
  cases text.toList with
  | nil => exact Iff.rfl
  | cons c rest =>
      rw [lowerChars, lowerAfter_cons, List.append_eq_nil_iff]
      exact iff_of_true (fun h => lowerAt_ne_nil [] c rest h.1) (List.cons_ne_nil c rest)

theorem length_le_lowercase (part : String) : part.length ≤ (lowercase part).length := by
  rw [← String.length_toList, ← String.length_toList, toList_lowercase]
  exact length_le_lowerAfter [] part.toList

theorem HasPart.length_le (h : HasPart name part) : part.length ≤ name.length := by
  obtain ⟨before, found, behind, hname, hfound⟩ := h
  have hlength : found.length = part.toList.length := by
    simpa only [foldCase, List.length_map] using congrArg List.length hfound
  rw [← String.length_toList, ← String.length_toList, hname, List.append_assoc,
    List.length_append, List.length_append]
  omega

/-- A text that folds, and one that is too long for a name, is found there as its lower-case text is. -/
theorem containsFolded_lowercase
    (h : name.length < part.length ∨ ∀ c ∈ part.toList, Folds c) :
    containsFolded name (lowercase part) = containsFolded name part := by
  rcases h with hlong | hfolds
  · have hshort : ∀ other : String, part.length ≤ other.length → containsFolded name other = false := by
      intro other hlonger
      rw [Bool.eq_false_iff]
      intro hfound
      have hle := (containsFolded_iff.1 hfound).length_le
      omega
    rw [hshort _ (length_le_lowercase part), hshort part (Nat.le_refl _)]
  · rw [containsFolded, containsFolded, foldCase_toList_lowercase_iff.2 hfolds]

/-- A name that has the search text as a part: the text itself, twice if it is one character only. -/
def nameWith (part : String) : String := if part.length < 2 then part ++ part else part

theorem containsFolded_nameWith (part : String) : containsFolded (nameWith part) part = true := by
  rw [containsFolded_iff, nameWith]
  split
  · exact ⟨[], part.toList, part.toList, by simp, rfl⟩
  · exact ⟨[], part.toList, [], by simp, rfl⟩

/-- What is found in a character that stands twice is this character. -/
theorem folds_of_found {c : Char} {before found behind : List Char}
    (hname : [c, c] = before ++ found ++ behind) (hfound : foldCase found = foldCase (lowerChars [c])) :
    Folds c := by
  have hall : ∀ e ∈ found, e = c := by
    intro e hmem
    have htwice : e ∈ [c, c] := by
      rw [hname]
      simp [hmem]
    simpa using htwice
  have hlower : lowerChars [c] = lowerAt [] c [] := by
    rw [lowerChars, lowerAfter_cons, lowerAfter, List.append_nil]
  have hsame : ∀ d ∈ lowerAt [] c [], d.toLower = c.toLower := by
    intro d hmem
    rw [← hlower] at hmem
    have hfolded : d.toLower ∈ foldCase found := hfound ▸ List.mem_map_of_mem hmem
    obtain ⟨e, he, heq⟩ := List.mem_map.1 hfolded
    rw [← heq, hall e he]
  exact folds_of_lowerAt hsame

/-- The lower-case text is not found in this name, if folding does not take the case away from some
character. -/
theorem not_containsFolded_nameWith (h : ¬∀ c ∈ part.toList, Folds c) :
    containsFolded (nameWith part) (lowercase part) = false := by
  rw [Bool.eq_false_iff, ne_eq, containsFolded_iff]
  rintro ⟨before, found, behind, hname, hfound⟩
  rw [nameWith] at hname
  split at hname
  · rename_i hshort
    have hnonempty : part.toList ≠ [] := fun hnil => h (hnil ▸ List.forall_mem_nil _)
    have hone : part.toList.length = 1 := by
      have hpositive := List.length_pos_iff.2 hnonempty
      rw [← String.length_toList] at hshort
      omega
    obtain ⟨c, hpart⟩ := List.length_eq_one_iff.1 hone
    rw [String.toList_append, hpart] at hname
    rw [toList_lowercase, hpart] at hfound
    exact h (hpart ▸ List.forall_mem_singleton.2 (folds_of_found hname hfound))
  · -- The lower-case text is not shorter than the name, and so it would be all of it.
    have hwhole : found = part.toList := by
      have hlength := congrArg List.length hname
      have hfoldedLength := congrArg List.length hfound
      have hlonger := length_le_lowercase part
      simp only [List.length_append, String.length_toList] at hlength
      simp only [foldCase, List.length_map, String.length_toList] at hfoldedLength
      have hbefore : before = [] := List.length_eq_zero_iff.1 (by omega)
      have hbehind : behind = [] := List.length_eq_zero_iff.1 (by omega)
      rw [hname, hbefore, hbehind, List.nil_append, List.append_nil]
    rw [hwhole] at hfound
    exact h (foldCase_toList_lowercase_iff.1 hfound.symm)

theorem isName_nameWith (htrimmed : trim part = part) (hnonempty : part ≠ "")
    (hmost : part.length ≤ 100) : Rules.IsName (nameWith part) := by
  have hlength : part.length ≠ 0 := by
    rwa [← String.length_toList, List.length_eq_zero_iff.ne, ne_eq, String.toList_eq_nil_iff]
  rw [nameWith]
  split
  · rename_i hshort
    have hone : part.toList.length = 1 := by
      rw [String.length_toList]
      omega
    obtain ⟨c, hpart⟩ := List.length_eq_one_iff.1 hone
    have hblank : isBlank c = false := by
      rw [Bool.eq_false_iff]
      intro hblank
      have hkept : trimChars [c] = [c] := by rw [← hpart, ← toList_trim, htrimmed]
      simp [trimChars, hblank] at hkept
    refine ⟨?_, by rw [String.length_append]; omega, by rw [String.length_append]; omega⟩
    rw [trim, String.toList_append, hpart, trimChars_of_not_isBlank (by simp [hblank]), ← hpart,
      ← String.toList_append, String.ofList_toList]
  · exact ⟨htrimmed, by omega, hmost⟩

end Text

/-! ### Criteria that differ in the search text -/

namespace Criteria

/-- A search text ignores case: it loses its case when it is folded, or it is too long for a name. -/
def IgnoresCase (text : String) : Prop :=
  Rules.nameMost < (trim text).length ∨ ∀ c ∈ (trim text).toList, Folds c

instance (text : String) : Decidable (IgnoresCase text) :=
  decidable_of_iff (Rules.nameMost < (trim text).length ∨
      (trim text).toList.all (fun c => decide (Folds c)) = true)
    (or_congr_right (by simp only [List.all_eq_true, decide_eq_true_eq]))

theorem option_of_not_blank {text : String} (h : trim text ≠ "") :
    option (some text) = some (trim text) := by
  rw [option, Option.map_some, Option.filter_some, if_pos (bne_iff_ne.2 h)]

theorem option_lowercase (text : String) :
    option (some (lowercase text)) = (option (some text)).map lowercase := by
  have hblank : (lowercase (trim text) != "") = (trim text != "") := by
    rw [Bool.eq_iff_iff, bne_iff_ne, bne_iff_ne, lowercase_ne_empty]
  rw [option, option, Option.map_some, Option.map_some, trim_lowercase, Option.filter_some,
    Option.filter_some, hblank, apply_ite (Option.map lowercase)]
  rfl

/-- The lower-case text passes with the same names. -/
theorem IgnoresCase.passes {text name : String} (h : IgnoresCase text)
    (hname : Rules.IsName name) :
    Store.passes (option (some (lowercase text))) (containsFolded name) =
      Store.passes (option (some text)) (containsFolded name) := by
  have hsame : containsFolded name (lowercase (trim text)) = containsFolded name (trim text) :=
    containsFolded_lowercase (h.imp (Nat.lt_of_le_of_lt hname.most) id)
  rw [option_lowercase, option, Option.map_some, Option.filter_some]
  split
  · exact hsame
  · rfl

/-- The search text does not decide about the other options. -/
theorem shape_name {κ : Type} [SortKey κ] (criteria : Criteria) (name : Option String) :
    { criteria with name }.shape κ =
      (criteria.shape κ).map fun query => { query with nameContains := option name } := by
  simp only [shape]
  cases limitOf criteria.limit with
  | error error => rfl
  | ok limit =>
      cases offsetOf criteria.offset with
      | error error => rfl
      | ok offset =>
          cases sortOf κ criteria.sortBy with
          | error error => rfl
          | ok sortBy =>
              cases orderOf criteria.sortOrder with
              | error error => rfl
              | ok sortOrder =>
                  simp only [bind, Except.bind]
                  split <;> rfl

end Criteria

/-! ### Listings of one store -/

section Listings

variable {store : Store} {part other : Option String}

theorem Inquiry.outcome_organizations (criteria : Criteria) (name : Option String) :
    (Inquiry.organizations { criteria with name }).outcome store =
      (criteria.shape OrganizationSort).bind fun query =>
        (store.answer (.listOrganizations
          { query with nameContains := Criteria.option name })).1.mapError DeskError.ofStore := by
  change ((Operation.judge ({ criteria with name }.shape OrganizationSort) >>= fun query =>
    Operation.ask (.listOrganizations query)).perform Store.answer store).1 = _
  rw [Criteria.shape_name]
  cases criteria.shape OrganizationSort <;> rfl

theorem Inquiry.outcome_categories (tenant : Uuid) (criteria : Criteria) (name : Option String) :
    (Inquiry.categories tenant { criteria with name }).outcome store =
      ({ criteria with organizationId := some tenant }.shape CategorySort).bind fun query =>
        (store.answer (.listCategories
          { query with nameContains := Criteria.option name })).1.mapError DeskError.ofStore := by
  change ((Operation.judge ({ criteria with organizationId := some tenant, name }.shape
    CategorySort) >>= fun query =>
      Operation.ask (.listCategories query)).perform Store.answer store).1 = _
  rw [Criteria.shape_name { criteria with organizationId := some tenant }]
  cases { criteria with organizationId := some tenant }.shape CategorySort <;> rfl

namespace Store

theorem listOrganizations_congr (query : Query OrganizationSort)
    (h : ∀ row ∈ store.organizations,
      passes part (containsFolded row.name) = passes other (containsFolded row.name)) :
    store.listOrganizations { query with nameContains := part } =
      store.listOrganizations { query with nameContains := other } := by
  have hfilter : store.organizations.filter (matchesOrganization { query with nameContains := part }) =
      store.organizations.filter (matchesOrganization { query with nameContains := other }) := by
    refine List.filter_congr fun row hmem => ?_
    rw [matchesOrganization, matchesOrganization, matchesCommon, matchesCommon, h row hmem]
  rw [listOrganizations, listOrganizations, foundOrganizations, foundOrganizations, hfilter]

theorem listCategories_congr (query : Query CategorySort)
    (h : ∀ row ∈ store.categories,
      passes part (containsFolded row.name) = passes other (containsFolded row.name)) :
    store.listCategories { query with nameContains := part } =
      store.listCategories { query with nameContains := other } := by
  have hfilter : store.categories.filter (matchesCategory { query with nameContains := part }) =
      store.categories.filter (matchesCategory { query with nameContains := other }) := by
    refine List.filter_congr fun row hmem => ?_
    rw [matchesCategory, matchesCategory, matchesCommon, matchesCommon, h row hmem]
  rw [listCategories, listCategories, foundCategories, foundCategories, hfilter]

/-- Whatever else is asked for, the same organizations are listed for either search text. -/
def ListsOrganizationsAlike (store : Store) (text other : String) : Prop :=
  ∀ criteria : Criteria,
    (Inquiry.organizations { criteria with name := some text }).outcome store =
      (Inquiry.organizations { criteria with name := some other }).outcome store

/-- Whatever else is asked for, the same categories of each organization are listed for either search
text. -/
def ListsCategoriesAlike (store : Store) (text other : String) : Prop :=
  ∀ (tenant : Uuid) (criteria : Criteria),
    (Inquiry.categories tenant { criteria with name := some text }).outcome store =
      (Inquiry.categories tenant { criteria with name := some other }).outcome store

end Store

namespace Contents

variable {contents : Contents} {text : String}

theorem Normal.listsOrganizationsAlike (h : contents.Normal) (htext : Criteria.IgnoresCase text) :
    contents.store.ListsOrganizationsAlike (lowercase text) text := by
  intro criteria
  have hpasses : ∀ row ∈ contents.store.organizations,
      Store.passes (Criteria.option (some (lowercase text))) (containsFolded row.name) =
        Store.passes (Criteria.option (some text)) (containsFolded row.name) := by
    intro row hrow
    obtain ⟨organization, hmem, rfl⟩ := List.mem_map.1 hrow
    exact htext.passes (h.organizations organization hmem).name
  rw [Inquiry.outcome_organizations, Inquiry.outcome_organizations]
  refine congrArg (Except.bind _) (funext fun query => ?_)
  exact congrArg (fun answer => (Except.mapError StoreError.failed answer).mapError DeskError.ofStore)
    (Store.listOrganizations_congr query hpasses)

theorem Normal.listsCategoriesAlike (h : contents.Normal) (htext : Criteria.IgnoresCase text) :
    contents.store.ListsCategoriesAlike (lowercase text) text := by
  intro tenant criteria
  have hpasses : ∀ row ∈ contents.store.categories,
      Store.passes (Criteria.option (some (lowercase text))) (containsFolded row.name) =
        Store.passes (Criteria.option (some text)) (containsFolded row.name) := by
    intro row hrow
    obtain ⟨category, hmem, rfl⟩ := List.mem_map.1 hrow
    exact htext.passes (h.categories category hmem).name
  rw [Inquiry.outcome_categories, Inquiry.outcome_categories]
  refine congrArg (Except.bind _) (funext fun query => ?_)
  exact congrArg (fun answer => (Except.mapError StoreError.failed answer).mapError DeskError.ofStore)
    (Store.listCategories_congr query hpasses)

end Contents

end Listings

/-- After every run a search text that ignores case lists the same as its lower-case text. -/
theorem listsAlike_serveAll {text : String} (htext : Criteria.IgnoresCase text)
    (requests : List Request) :
    (serveAll Store.empty requests).ListsOrganizationsAlike (lowercase text) text ∧
      (serveAll Store.empty requests).ListsCategoriesAlike (lowercase text) text := by
  obtain ⟨contents, hstore, hnormal⟩ := serveAll_keeps Request.keeps_normal .empty requests
  rw [show serveAll Store.empty requests = contents.store from hstore]
  exact ⟨hnormal.listsOrganizationsAlike htext, hnormal.listsCategoriesAlike htext⟩

/-! ### Creations at the top -/

namespace Service

open Operation

variable {store after : Store} {now : Instant} {id : Uuid} {name : String}

/-- An organization that is not put below another one is saved if it is admitted. -/
theorem perform_createOrganization_root {domain : String} {organization : Organization}
    (hinput : Organization.ofInput id name domain none now = .ok organization)
    (hsave : store.saveOrganization organization = .ok after) :
    (createOrganization ⟨now, id⟩ ⟨name, domain, none⟩).perform Store.answer store =
      (.ok organization, after) := by
  calc (createOrganization ⟨now, id⟩ ⟨name, domain, none⟩).perform Store.answer store
      = (holding .organizations (ask (.saveOrganization organization) >>=
          fun _ => pure organization)).perform Store.answer store := perform_bind (perform_judge_ok hinput) _
    _ = (ask (.saveOrganization organization) >>=
          fun _ => pure organization).perform Store.answer store := perform_holding _ _
    _ = (.ok organization, after) := perform_bind (perform_saveOrganization hsave) _

theorem perform_createCategory_root {tenant : Uuid} {description : String} {category : Category}
    {organization : Organization}
    (hinput : Category.ofInput id tenant name description none now = .ok category)
    (htenant : (store.answer (.getOrganization tenant)).1 = .ok (some organization))
    (hsave : store.saveCategory category = .ok after) :
    (createCategory ⟨now, id⟩ tenant ⟨name, description, none⟩).perform Store.answer store =
      (.ok category, after) := by
  calc (createCategory ⟨now, id⟩ tenant ⟨name, description, none⟩).perform Store.answer store
      = (getOrganization tenant >>= fun _ => holding .categories
          (ask (.saveCategory category) >>= fun _ => pure category)).perform
          Store.answer store := perform_bind (perform_judge_ok hinput) _
    _ = (holding .categories (ask (.saveCategory category) >>=
          fun _ => pure category)).perform Store.answer store :=
        perform_bind (perform_getOrganization htenant) _
    _ = (ask (.saveCategory category) >>= fun _ => pure category).perform
          Store.answer store := perform_holding _ _
    _ = (.ok category, after) := perform_bind (perform_saveCategory hsave) _

end Service

/-! ### Two of one name -/

def Organization.named (name : String) : Organization :=
  ⟨.small 1, name, none, none, true, .ofSeconds 1, .ofSeconds 1⟩

def Category.named (name : String) : Category :=
  ⟨.small 2, .small 1, name, "", none, true, .ofSeconds 2, .ofSeconds 2⟩

def Contents.named (name : String) : Contents := ⟨[.named name], [.named name]⟩

def Request.named (name : String) : List Request :=
  [.createOrganization ⟨.ofSeconds 1, .small 1⟩ ⟨name, "", none⟩,
    .createCategory ⟨.ofSeconds 2, .small 2⟩ (.small 1) ⟨name, "", none⟩]

section Named

variable {name : String}

theorem Organization.named_isPlain (name : String) :
    ∀ organization ∈ [Organization.named name], organization.IsPlain :=
  have hplain : (Instant.ofSeconds 1).IsPlain := by decide
  List.forall_mem_singleton.2 ⟨hplain, hplain⟩

theorem Category.named_isPlain (name : String) :
    ∀ category ∈ [Category.named name], category.IsPlain :=
  have hplain : (Instant.ofSeconds 2).IsPlain := by decide
  List.forall_mem_singleton.2 ⟨hplain, hplain⟩

theorem Request.named_isPlain (name : String) :
    ∀ now ∈ (Request.named name).filterMap Request.clock?, now.IsPlain :=
  have hclock : ∀ now ∈ [Instant.ofSeconds 1, .ofSeconds 2], now.IsPlain := by decide
  hclock

theorem serveAll_named (h : Rules.IsName name) :
    serveAll Store.empty (Request.named name) = (Contents.named name).store := by
  have horganization : Organization.ofInput (.small 1) name "" none (.ofSeconds 1) =
      .ok (.named name) := by
    rw [Organization.ofInput, h.name_eq]
    rfl
  have hcategory : Category.ofInput (.small 2) (.small 1) name "" none (.ofSeconds 2) =
      .ok (.named name) := by
    rw [Category.ofInput, h.name_eq]
    rfl
  have hsaved : Store.empty.saveOrganization (.named name) =
      .ok (Contents.mk [.named name] []).store := rfl
  have htenant : ((Contents.mk [.named name] []).store.answer (.getOrganization (.small 1))).1 =
      .ok (some (Organization.named name).toMicros) :=
    @Contents.answer_getOrganization_of_plain ⟨[.named name], []⟩
      (Organization.named_isPlain name) (.small 1)
  have hfiled : (Contents.mk [.named name] []).store.saveCategory (.named name) =
      .ok (Contents.named name).store := by
    simp [Store.saveCategory, Store.categoryViolation?, Store.mergeCategory, Store.findCategory?,
      Store.dangles, Store.putCategory, Contents.store, Contents.named, Category.named,
      Organization.named, CategoryRow.ofCategory, OrganizationRow.ofOrganization]
  have hfirst : ((Request.createOrganization ⟨.ofSeconds 1, .small 1⟩ ⟨name, "", none⟩).serve
      Store.empty).2 = (Contents.mk [.named name] []).store :=
    (congrArg Prod.snd (Operation.perform_map Reply.organization _)).trans
      (congrArg Prod.snd (perform_createOrganization_root horganization hsaved))
  have hsecond : ((Request.createCategory ⟨.ofSeconds 2, .small 2⟩ (.small 1) ⟨name, "", none⟩).serve
      (Contents.mk [.named name] []).store).2 = (Contents.named name).store :=
    (congrArg Prod.snd (Operation.perform_map Reply.category _)).trans
      (congrArg Prod.snd (perform_createCategory_root hcategory htenant hfiled))
  rw [serveAll, Request.named, List.foldl_cons, List.foldl_cons, List.foldl_nil, hfirst, hsecond]

theorem Store.page_singleton {ρ : Type} (test : ρ → Bool) (le : ρ → ρ → Bool) (row : ρ) :
    page 0 Query.usualLimit (([row].filter test).mergeSort le) = if test row then [row] else [] := by
  rw [List.filter_singleton]
  cases test row with
  | true =>
      rw [cond_true, List.mergeSort_singleton]
      rfl
  | false =>
      rw [cond_false, List.mergeSort_nil]
      rfl

/-- A search for a part of a name finds the organization just if the part occurs in its name. -/
theorem outcome_organizations_named (name : String) {text : String} (htext : trim text ≠ "") :
    (Inquiry.organizations { name := some text }).outcome (Contents.named name).store =
      .ok (if containsFolded name (trim text) then [(Organization.named name).toMicros] else []) := by
  let query : Query OrganizationSort :=
    { Query.usual OrganizationSort with nameContains := some (trim text) }
  have hlist : (Contents.named name).store.listOrganizations query = .ok
      (if containsFolded name (trim text) then [(Organization.named name).toMicros] else []) := by
    have hpage := Store.page_singleton (Store.matchesOrganization query)
      (fun a b => Store.mayPrecede .asc (some a.name, a.id) (some b.name, b.id))
      (OrganizationRow.ofOrganization (.named name))
    have hmatches : Store.matchesOrganization query (.ofOrganization (.named name)) =
        containsFolded name (trim text) := rfl
    rw [hmatches] at hpage
    refine (congrArg OrganizationRow.decodeAll hpage).trans ?_
    split
    · exact (OrganizationRow.decodeAll_map [.named name]).trans
        (if_pos (Organization.named_isPlain name))
    · rfl
  refine (Inquiry.outcome_organizations {} (some text)).trans ?_
  rw [Criteria.option_of_not_blank htext]
  change ((Except.mapError StoreError.failed ((Contents.named name).store.listOrganizations
    query)).mapError DeskError.ofStore) = _
  rw [hlist]
  rfl

/-- It finds the category just then, too. -/
theorem outcome_categories_named (name : String) {text : String} (htext : trim text ≠ "") :
    (Inquiry.categories (.small 1) { name := some text }).outcome (Contents.named name).store =
      .ok (if containsFolded name (trim text) then [(Category.named name).toMicros] else []) := by
  let query : Query CategorySort := { Query.usual CategorySort with
    organizationId := some (.small 1), nameContains := some (trim text) }
  have hlist : (Contents.named name).store.listCategories query = .ok
      (if containsFolded name (trim text) then [(Category.named name).toMicros] else []) := by
    have hpage := Store.page_singleton (Store.matchesCategory query)
      (fun a b => Store.mayPrecede .asc (some a.name, a.id) (some b.name, b.id))
      (CategoryRow.ofCategory (.named name))
    have hmatches : Store.matchesCategory query (.ofCategory (.named name)) =
        containsFolded name (trim text) := by
      have howner : ((Uuid.small 1).text == (Uuid.small 1).text) = true := beq_self_eq_true _
      change ((Uuid.small 1).text == (Uuid.small 1).text && containsFolded name (trim text)) = _
      rw [howner, Bool.true_and]
    rw [hmatches] at hpage
    refine (congrArg CategoryRow.decodeAll hpage).trans ?_
    split
    · exact (CategoryRow.decodeAll_map [.named name]).trans (if_pos (Category.named_isPlain name))
    · rfl
  refine (Inquiry.outcome_categories (.small 1) {} (some text)).trans ?_
  rw [Criteria.option_of_not_blank htext]
  change ((Except.mapError StoreError.failed ((Contents.named name).store.listCategories
    query)).mapError DeskError.ofStore) = _
  rw [hlist]
  rfl

end Named

/-! ### Which search texts ignore case -/

/-- If a search text does not ignore case, some name has it as a part, but not its lower-case text. -/
theorem Criteria.exists_name_of_not_ignoresCase {text : String} (h : ¬IgnoresCase text) :
    trim text ≠ "" ∧ ∃ name, Rules.IsName name ∧ containsFolded name (trim text) = true ∧
      containsFolded name (trim (lowercase text)) = false := by
  rw [IgnoresCase, not_or, Nat.not_lt] at h
  obtain ⟨hmost, hfolds⟩ := h
  have hnonempty : trim text ≠ "" := by
    intro hempty
    rw [hempty] at hfolds
    exact hfolds (List.forall_mem_nil _)
  refine ⟨hnonempty, nameWith (trim text), isName_nameWith (trim_trim text) hnonempty hmost,
    containsFolded_nameWith _, ?_⟩
  rw [trim_lowercase]
  exact not_containsFolded_nameWith hfolds

/-- After an organization and a category of some name have been made, the lower-case text lists less
than the text. -/
theorem exists_named_not_listsAlike {text : String} (h : ¬Criteria.IgnoresCase text) :
    ∃ name, ¬(serveAll Store.empty (Request.named name)).ListsOrganizationsAlike (lowercase text) text ∧
      ¬(serveAll Store.empty (Request.named name)).ListsCategoriesAlike (lowercase text) text := by
  obtain ⟨htext, name, hname, hfound, hlost⟩ := Criteria.exists_name_of_not_ignoresCase h
  have hlower : trim (lowercase text) ≠ "" := by rwa [trim_lowercase, lowercase_ne_empty]
  refine ⟨name, fun halike => ?_, fun halike => ?_⟩
  · have hsame := halike {}
    rw [serveAll_named hname, outcome_organizations_named name hlower,
      outcome_organizations_named name htext, hfound, hlost] at hsame
    cases hsame
  · have hsame := halike (.small 1) {}
    rw [serveAll_named hname, outcome_categories_named name hlower,
      outcome_categories_named name htext, hfound, hlost] at hsame
    cases hsame

/-- Whatever requests are served one after another from the empty store on, with a clock within the
years 0 to 9999: a search text finds the same organizations as its lower-case text, and the same
categories, just if it loses its case when it is folded or is too long for a name. -/
theorem search_ignores_case_iff (text : String) :
    ((∀ requests : List Request, (∀ now ∈ requests.filterMap Request.clock?, now.IsPlain) →
      (serveAll Store.empty requests).ListsOrganizationsAlike (lowercase text) text) ↔
        Criteria.IgnoresCase text) ∧
    ((∀ requests : List Request, (∀ now ∈ requests.filterMap Request.clock?, now.IsPlain) →
      (serveAll Store.empty requests).ListsCategoriesAlike (lowercase text) text) ↔
        Criteria.IgnoresCase text) := by
  constructor
  · constructor
    · intro halike
      by_contra hcase
      obtain ⟨name, horganizations, _⟩ := exists_named_not_listsAlike hcase
      exact horganizations (halike (Request.named name) (Request.named_isPlain name))
    · intro hcase requests _
      exact (listsAlike_serveAll hcase requests).1
  · constructor
    · intro halike
      by_contra hcase
      obtain ⟨name, _, hcategories⟩ := exists_named_not_listsAlike hcase
      exact hcategories (halike (Request.named name) (Request.named_isPlain name))
    · intro hcase requests _
      exact (listsAlike_serveAll hcase requests).2

/-- The text may be ASCII, or in letters without case. -/
theorem search_ignores_case_iff_desk :
    (∀ requests : List Request, (∀ now ∈ requests.filterMap Request.clock?, now.IsPlain) →
      (serveAll Store.empty requests).ListsOrganizationsAlike (lowercase " DESK 部門") " DESK 部門") ∧
    ¬∀ requests : List Request, (∀ now ∈ requests.filterMap Request.clock?, now.IsPlain) →
      (serveAll Store.empty requests).ListsCategoriesAlike (lowercase "ΔΕΣΚ") "ΔΕΣΚ" := by
  have hdesk : Criteria.IgnoresCase " DESK 部門" := by decide +kernel
  have hgreek : ¬Criteria.IgnoresCase "ΔΕΣΚ" := by decide +kernel
  exact ⟨(search_ignores_case_iff " DESK 部門").1.2 hdesk,
    fun h => hgreek ((search_ignores_case_iff "ΔΕΣΚ").2.1 h)⟩

/-- The name Über uns is found by the text Ü, but not by the text ü. -/
theorem search_tells_umlauts_apart :
    let requests := Request.named "Über uns"
    let store := serveAll Store.empty requests
    (∀ now ∈ requests.filterMap Request.clock?, now.IsPlain) ∧ lowercase "Ü" = "ü" ∧
      (Inquiry.organizations { name := some "Ü" }).outcome store = .ok [.named "Über uns"] ∧
      (Inquiry.organizations { name := some "ü" }).outcome store = .ok [] ∧
      (Inquiry.categories (.small 1) { name := some "Ü" }).outcome store = .ok [.named "Über uns"] ∧
      (Inquiry.categories (.small 1) { name := some "ü" }).outcome store = .ok [] := by
  decide +kernel

end ServiceDesk
