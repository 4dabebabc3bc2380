import ServiceDesk.Proofs.Service.Effects
import ServiceDesk.Proofs.Service.Serial

/-!
Reading what was just written. A request that goes through has saved what it returns: a new entity, or
one with the id and the time of creation of a stored one. A look-up right after it finds the same
entity, but for the timestamps: the store keeps them to microseconds, and only in years that it can
read back, while the reply has the time of the clock as it was.
-/

namespace ServiceDesk

open Service Operation

/-! ### What a request saves -/

/-- An organization that is saved is new, or has the id and the time of creation of a stored one. -/
inductive Organization.Origin (store : Store) (generated : Option Uuid) (organization : Organization) :
    Prop
  | new (hid : generated = some organization.id)
  | stored {id stored} (hstored : (store.answer (.getOrganization id)).1 = .ok (some stored))
      (hid : organization.id = stored.id) (hcreated : organization.createdAt = stored.createdAt)

/-- A category that is saved is new, or has the id, the organization and the time of creation of a
stored one. -/
inductive Category.Origin (store : Store) (generated : Option Uuid) (category : Category) : Prop
  | new (hid : generated = some category.id)
  | stored {id stored} (hstored : (store.answer (.getCategory id)).1 = .ok (some stored))
      (hid : category.id = stored.id) (howner : category.organizationId = stored.organizationId)
      (hcreated : category.createdAt = stored.createdAt)

/-- A reply tells of an entity that was saved, and of the store after it. -/
def Reply.Saved (store : Store) (generated : Option Uuid) : Reply → Store → Prop
  | .organization saved, after => store.saveOrganization saved = .ok after ∧ saved.Origin store generated
  | .category saved, after => store.saveCategory saved = .ok after ∧ saved.Origin store generated
  | .deleted, _ => True

/-- A request that goes through has saved what it returns. -/
theorem Request.Wrote.saved {request : Request} {store after : Store} {reply : Reply}
    (h : request.Wrote store reply after) : reply.Saved store request.generated? after := by
  cases h with
  | createOrganization hinput hsave =>
      obtain ⟨hid, _⟩ := Organization.ofInput_eq_ok hinput
      exact ⟨hsave, .new (congrArg some hid.symm)⟩
  | updateOrganization hstored hchange hsave =>
      have hupdates := changeOrganization_eq_ok hchange
      exact ⟨hsave, .stored hstored hupdates.id hupdates.createdAt⟩
  | moveOrganization hstored hmoved hsave =>
      cases hmoved
      exact ⟨hsave, .stored hstored rfl rfl⟩
  | deleteOrganization _ => trivial
  | createCategory hinput hsave =>
      obtain ⟨hid, _⟩ := Category.ofInput_eq_ok hinput
      exact ⟨hsave, .new (congrArg some hid.symm)⟩
  | updateCategory hstored hchange hsave =>
      have hupdates := changeCategory_eq_ok hchange
      exact ⟨hsave, .stored hstored hupdates.id hupdates.organizationId hupdates.createdAt⟩
  | moveCategory hstored hmoved hsave =>
      cases hmoved
      exact ⟨hsave, .stored hstored rfl rfl rfl⟩
  | deleteCategory _ => trivial

/-! ### What is read afterwards -/

namespace Contents

variable {contents : Contents} {generated : Option Uuid}

/-- A save of an organization of known origin leaves it as it is, up to microseconds. -/
theorem merge_organization_origin {organization : Organization}
    (h : organization.Origin contents.store generated)
    (hnew : ∀ id, generated = some id → contents.organization? id = none)
    (hplain : organization.IsPlain) : (contents.mergeOrganization organization).IsPlain ∧
      (contents.mergeOrganization organization).toMicros = organization.toMicros := by
  rw [mergeOrganization]
  cases h with
  | new hid =>
      rw [hnew _ hid]
      exact ⟨hplain, rfl⟩
  | @stored id found hstored hid hcreated =>
      obtain ⟨held, hheld, hself, hold, rfl⟩ := organization?_of_answer hstored
      rw [← show organization.id = id from hid.trans hself] at hheld
      rw [hheld]
      refine ⟨⟨hold.1, hplain.2⟩, ?_⟩
      -- The time of creation was cut when it was read, so the cut after the save changes nothing.
      have hagain : organization.createdAt.toMicros = held.createdAt.toMicros := by
        rw [hcreated]
        exact Time.Instant.toMicros_toMicros _
      simp only [Organization.toMicros, hagain]

theorem merge_category_origin {category : Category} (h : category.Origin contents.store generated)
    (hnew : ∀ id, generated = some id → contents.category? id = none)
    (hplain : category.IsPlain) : (contents.mergeCategory category).IsPlain ∧
      (contents.mergeCategory category).toMicros = category.toMicros := by
  rw [mergeCategory]
  cases h with
  | new hid =>
      rw [hnew _ hid]
      exact ⟨hplain, rfl⟩
  | @stored id found hstored hid howner hcreated =>
      obtain ⟨held, hheld, hself, hold, rfl⟩ := category?_of_answer hstored
      rw [← show category.id = id from hid.trans hself] at hheld
      rw [hheld]
      refine ⟨⟨hold.1, hplain.2⟩, ?_⟩
      have hagain : category.createdAt.toMicros = held.createdAt.toMicros := by
        rw [hcreated]
        exact Time.Instant.toMicros_toMicros _
      simp only [Category.toMicros, hagain, howner]

theorem getOrganization_of_save {organization : Organization} {next : Store}
    (hsave : contents.store.saveOrganization organization = .ok next)
    (h : organization.Origin contents.store generated)
    (hnew : ∀ id, generated = some id → contents.organization? id = none)
    (hplain : organization.IsPlain) :
    next.getOrganization organization.id = .ok (some organization.toMicros) := by
  obtain ⟨hmerged, hsame⟩ := merge_organization_origin h hnew hplain
  rw [Store.getOrganization, Store.findOrganization?_save hsave, if_pos rfl, mergeOrganization_store]
  dsimp only
  rw [OrganizationRow.toOrganization_ofOrganization, if_pos hmerged, hsame]
  rfl

theorem getCategory_of_save {category : Category} {next : Store}
    (hsave : contents.store.saveCategory category = .ok next)
    (h : category.Origin contents.store generated)
    (hnew : ∀ id, generated = some id → contents.category? id = none)
    (hplain : category.IsPlain) :
    next.getCategory category.id = .ok (some category.toMicros) := by
  obtain ⟨hmerged, hsame⟩ := merge_category_origin h hnew hplain
  rw [Store.getCategory, Store.findCategory?_save hsave, if_pos rfl, mergeCategory_store]
  dsimp only
  rw [CategoryRow.toCategory_ofCategory, if_pos hmerged, hsame]
  rfl

end Contents

/-- Requests that are served one after another leave the store of some contents. -/
theorem serveAll_store (contents : Contents) (requests : List Request) :
    ∃ after : Contents, serveAll contents.store requests = after.store := by
  induction requests generalizing contents with
  | nil => exact ⟨contents, rfl⟩
  | cons request requests ih =>
      obtain ⟨after, hafter, _⟩ := request.serve_becomes contents
      rw [serveAll, List.foldl_cons, hafter]
      exact ih after

/-- Whatever requests have been served from the empty store on, an organization or a category that the
next request returns is found by a look-up right after it, with its timestamps cut to microseconds.
The request gives no id away that is in use, and the timestamps lie in years that are read back. -/
theorem written_is_read_back (requests : List Request) (request : Request)
    (hnew : ∀ id, request.generated? = some id →
      (serveAll Store.empty requests).findOrganization? id = none ∧
        (serveAll Store.empty requests).findCategory? id = none) :
    (∀ organization after, request.serve (serveAll Store.empty requests) =
        (.ok (.organization organization), after) → organization.IsPlain →
      (getOrganization organization.id).perform Store.answer after =
        (.ok organization.toMicros, after)) ∧
    (∀ category after, request.serve (serveAll Store.empty requests) =
        (.ok (.category category), after) → category.IsPlain →
      (getCategory category.id).perform Store.answer after = (.ok category.toMicros, after)) := by
  obtain ⟨contents, hstore⟩ := serveAll_store Contents.empty requests
  change serveAll Store.empty requests = _ at hstore
  rw [hstore] at hnew ⊢
  simp only [Contents.findOrganization?_store, Contents.findCategory?_store,
    Option.map_eq_none_iff] at hnew
  constructor
  · intro organization after hserve hplain
    obtain ⟨hsave, horigin⟩ := ((request.delivers contents.store).done _ _ hserve).saved
    refine perform_getOrganization ?_
    change (after.getOrganization organization.id).mapError StoreError.failed = _
    rw [Contents.getOrganization_of_save hsave horigin (fun id hid => (hnew id hid).1) hplain]
    rfl
  · intro category after hserve hplain
    obtain ⟨hsave, horigin⟩ := ((request.delivers contents.store).done _ _ hserve).saved
    refine perform_getCategory ?_
    change (after.getCategory category.id).mapError StoreError.failed = _
    rw [Contents.getCategory_of_save hsave horigin (fun id hid => (hnew id hid).2) hplain]
    rfl

def Organization.madeAt (now : Time.Instant) : Organization :=
  ⟨.small 1, "Desk", none, none, true, now, now⟩

def Request.makeAt (now : Time.Instant) : Request :=
  .createOrganization ⟨now, .small 1⟩ ⟨"Desk", "", none⟩

/-- The last nanosecond of the third microsecond is read back as the start of this microsecond. -/
theorem written_is_read_back_made :
    ∃ after, (Request.makeAt ⟨0, 2999, .inl (by decide)⟩).serve Store.empty =
        (.ok (.organization (.madeAt ⟨0, 2999, .inl (by decide)⟩)), after) ∧
      (getOrganization (.small 1)).perform Store.answer after =
        (.ok (.madeAt ⟨0, 2000, .inl (by decide)⟩), after) := by
  have hmade : (Request.makeAt ⟨0, 2999, .inl (by decide)⟩).serve Store.empty =
      (.ok (.organization (.madeAt ⟨0, 2999, .inl (by decide)⟩)),
        ⟨[.ofOrganization (.madeAt ⟨0, 2000, .inl (by decide)⟩)], []⟩) := by decide +kernel
  have hnew : ∀ id, (Request.makeAt ⟨0, 2999, .inl (by decide)⟩).generated? = some id →
      (serveAll Store.empty []).findOrganization? id = none ∧
        (serveAll Store.empty []).findCategory? id = none := fun _ _ => ⟨rfl, rfl⟩
  exact ⟨_, hmade, (written_is_read_back [] _ hnew).1 _ _ hmade (by decide)⟩

/-- A reply may tell of a nanosecond that is not read back, and of a year with which nothing is. -/
theorem reply_differs_from_look_up :
    (∃ after, (Request.makeAt ⟨0, 1, .inl (by decide)⟩).serve Store.empty =
        (.ok (.organization (.madeAt ⟨0, 1, .inl (by decide)⟩)), after) ∧
      (getOrganization (.small 1)).perform Store.answer after = (.ok (.madeAt (.ofSeconds 0)), after) ∧
      Organization.madeAt ⟨0, 1, .inl (by decide)⟩ ≠ .madeAt (.ofSeconds 0)) ∧
    ∃ after, (Request.makeAt (.ofSeconds 253402300800)).serve Store.empty =
        (.ok (.organization (.madeAt (.ofSeconds 253402300800))), after) ∧
      ((getOrganization (.small 1)).perform Store.answer after).1.isOk = false := by
  refine ⟨⟨⟨[.ofOrganization (.madeAt (.ofSeconds 0))], []⟩, ?_, ?_, ?_⟩,
    ⟨⟨[.ofOrganization (.madeAt (.ofSeconds 253402300800))], []⟩, ?_, ?_⟩⟩
  all_goals decide +kernel

end ServiceDesk
