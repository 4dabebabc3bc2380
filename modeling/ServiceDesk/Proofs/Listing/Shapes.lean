import ServiceDesk.Listing.Query
import ServiceDesk.Proofs.Text.Spellings

/-!
What shaping makes of criteria. A field of the criteria can be at fault by itself, or with the field
beside it, and nothing else stands in the way of a query: shaping reports the first faulty field in the
order of the checks. A query that comes out is in normal form: written back as criteria, it is shaped to
itself.
-/

namespace ServiceDesk

open Text

def SortKey.names (κ : Type) [SortKey κ] : List String := (SortKey.allowed : List (String × κ)).map (·.1)

/-- Every column has a public name of its own, which can be asked for as it is written. -/
class LawfulSortKey (κ : Type) [SortKey κ] : Prop where
  listed : ∀ key : κ, (SortKey.text key, key) ∈ (SortKey.allowed : List (String × κ))
  apart : ∀ a ∈ (SortKey.allowed : List (String × κ)), ∀ b ∈ (SortKey.allowed : List (String × κ)),
    sameFolded a.1 b.1 = true → a = b
  trimmed : ∀ key : κ, trim (SortKey.text key) = SortKey.text key
  nonempty : ∀ key : κ, SortKey.text key ≠ ""

instance : LawfulSortKey CategorySort where
  listed := by rintro (_ | _ | _) <;> decide
  apart := by decide
  trimmed := by rintro (_ | _ | _) <;> decide
  nonempty := by rintro (_ | _ | _) <;> decide

instance : LawfulSortKey OrganizationSort where
  listed := by rintro (_ | _ | _ | _) <;> decide
  apart := by decide
  trimmed := by rintro (_ | _ | _ | _) <;> decide
  nonempty := by rintro (_ | _ | _ | _) <;> decide

namespace Query

variable {κ : Type} [SortKey κ]

/-- The criteria that ask for a query word by word. -/
def criteria (query : Query κ) : Criteria where
  organizationId := query.organizationId
  parentId := query.parentId
  isActive := query.isActive
  name := query.nameContains
  rootOnly := query.rootOnly
  limit := some query.limit
  offset := some query.offset
  sortBy := some (SortKey.text query.sortBy)
  sortOrder := some query.sortOrder.text

end Query

namespace Criteria

/-- A text is given and has something between its blanks. -/
def Asks (raw : Option String) (core : String) : Prop :=
  ∃ text, raw = some text ∧ IsCore text core ∧ core ≠ ""

/-- What is wrong with a field of criteria, for queries sorted by columns of one kind. -/
inductive Faulty (κ : Type) [SortKey κ] (criteria : Criteria) : InputField → InputFault → Prop
  | limit {n : Int} (asked : criteria.limit = some n) (low : n < 0) :
      Faulty κ criteria .limit .negative
  | offset {n : Int} (asked : criteria.offset = some n) (low : n < 0) :
      Faulty κ criteria .offset .negative
  | sortBy {core : String} (asked : Asks criteria.sortBy core)
      (unknown : ∀ name ∈ SortKey.names κ, ¬Spells core name) :
      Faulty κ criteria .sortBy (.unknownColumn core (SortKey.names κ))
  | sortOrder {core : String} (asked : Asks criteria.sortOrder core)
      (unknown : ¬Spells core "asc" ∧ ¬Spells core "desc") :
      Faulty κ criteria .sortOrder (.unknownOrder core)
  | parentId (roots : criteria.rootOnly = true) (parent : criteria.parentId.isSome = true) :
      Faulty κ criteria .parentId .parentOfRoots

def checked : List InputField := [.limit, .offset, .sortBy, .sortOrder, .parentId]

/-- A fault of a listed field with none in the fields listed before it. -/
def FirstFault (κ : Type) [SortKey κ] (criteria : Criteria) (fields : List InputField)
    (field : InputField) (fault : InputFault) : Prop :=
  field ∈ fields ∧ Faulty κ criteria field fault ∧
    ∀ earlier ∈ fields.takeWhile (· ≠ field), ∀ other, ¬Faulty κ criteria earlier other

variable {κ : Type} [SortKey κ] {criteria : Criteria} {fields : List InputField}
  {field : InputField} {fault : InputFault}

theorem firstFault_cons {first : InputField} :
    FirstFault κ criteria (first :: fields) field fault ↔
      (field = first ∧ Faulty κ criteria first fault) ∨
        ((∀ other, ¬Faulty κ criteria first other) ∧ FirstFault κ criteria fields field fault) := by
  by_cases hsame : field = first
  · subst hsame
    rw [FirstFault, List.takeWhile_cons_of_neg (by simp)]
    constructor
    · rintro ⟨-, hfault, -⟩
      exact Or.inl ⟨rfl, hfault⟩
    · rintro (⟨-, hfault⟩ | ⟨hclean, -, hfault, -⟩)
      · exact ⟨List.mem_cons_self, hfault, List.forall_mem_nil _⟩
      · exact absurd hfault (hclean fault)
  · have hother : first ≠ field := Ne.symm hsame
    rw [FirstFault, List.takeWhile_cons_of_pos (by simpa using hother), List.forall_mem_cons,
      List.mem_cons, or_iff_right hsame, or_iff_right fun h => hsame h.1, FirstFault]
    tauto

theorem exists_firstFault (hmem : field ∈ fields) (hfault : Faulty κ criteria field fault) :
    ∃ first found, FirstFault κ criteria fields first found := by
  induction fields with
  | nil => cases hmem
  | cons next rest ih =>
      by_cases hclean : ∀ other, ¬Faulty κ criteria next other
      · have hrest : field ∈ rest := by
          refine (List.mem_cons.1 hmem).resolve_left ?_
          rintro rfl
          exact hclean fault hfault
        obtain ⟨first, found, hfirst⟩ := ih hrest
        exact ⟨first, found, firstFault_cons.2 (Or.inr ⟨hclean, hfirst⟩)⟩
      · obtain ⟨other, hother⟩ := not_forall_not.1 hclean
        exact ⟨next, other, firstFault_cons.2 (Or.inl ⟨rfl, hother⟩)⟩

theorem Faulty.mem_checked (h : Faulty κ criteria field fault) : field ∈ checked := by
  cases h <;> decide

/-! ### The checks, one by one -/

theorem option_eq_some {raw : Option String} {core : String} :
    option raw = some core ↔ Asks raw core := by
  cases raw with
  | none => exact iff_of_false nofun nofun
  | some text =>
      rw [option, Option.map_some, Option.filter_eq_some_iff, Option.some.injEq, trim_eq_iff,
        bne_iff_ne]
      constructor
      · rintro ⟨hcore, hne⟩
        exact ⟨text, rfl, hcore, hne⟩
      · rintro ⟨_, ⟨⟩, hcore, hne⟩
        exact ⟨hcore, hne⟩

/-- A check of one field fails with the faults of that field. -/
def Checks (κ : Type) [SortKey κ] (criteria : Criteria) (field : InputField) {α : Type}
    (outcome : Except DeskError α) : Prop :=
  ∀ error, outcome = .error error ↔ ∃ fault, error = .invalid field fault ∧ Faulty κ criteria field fault

theorem checks_limit (κ : Type) [SortKey κ] (criteria : Criteria) :
    Checks κ criteria .limit (limitOf criteria.limit) := by
  intro error
  constructor
  · intro h
    cases hraw : criteria.limit with
    | none => rw [hraw] at h; cases h
    | some n =>
        rw [hraw, limitOf] at h
        split at h
        · cases h
        split at h
        · rename_i hlow
          cases h
          exact ⟨_, rfl, .limit hraw hlow⟩
        · cases h
  · rintro ⟨fault, rfl, hfault⟩
    cases hfault with
    | limit hraw hlow => rw [hraw, limitOf, if_neg (Int.ne_of_lt hlow), if_pos hlow]

theorem checks_offset (κ : Type) [SortKey κ] (criteria : Criteria) :
    Checks κ criteria .offset (offsetOf criteria.offset) := by
  intro error
  constructor
  · intro h
    cases hraw : criteria.offset with
    | none => rw [hraw] at h; cases h
    | some n =>
        rw [hraw, offsetOf] at h
        split at h
        · rename_i hlow
          cases h
          exact ⟨_, rfl, .offset hraw hlow⟩
        · cases h
  · rintro ⟨fault, rfl, hfault⟩
    cases hfault with
    | offset hraw hlow => rw [hraw, offsetOf, if_pos hlow]

theorem find_eq_none_iff {core : String} :
    ((SortKey.allowed : List (String × κ)).find? fun entry => sameFolded entry.1 core) = none ↔
      ∀ name ∈ SortKey.names κ, ¬Spells core name := by
  rw [List.find?_eq_none, SortKey.names, List.forall_mem_map]
  simp only [sameFolded_iff, spells_comm (b := core)]

theorem checks_sortBy (κ : Type) [SortKey κ] (criteria : Criteria) :
    Checks κ criteria .sortBy (sortOf κ criteria.sortBy) := by
  intro error
  constructor
  · intro h
    rw [sortOf] at h
    split at h
    · cases h
    · rename_i core hcore
      split at h
      · cases h
      · rename_i hnone
        cases h
        exact ⟨_, rfl, .sortBy (option_eq_some.1 hcore) (find_eq_none_iff.1 hnone)⟩
  · rintro ⟨fault, rfl, hfault⟩
    cases hfault with
    | sortBy hcore hunknown =>
        rw [sortOf, option_eq_some.2 hcore]
        simp only [find_eq_none_iff.2 hunknown]
        rfl

theorem checks_sortOrder (κ : Type) [SortKey κ] (criteria : Criteria) :
    Checks κ criteria .sortOrder (orderOf criteria.sortOrder) := by
  intro error
  constructor
  · intro h
    rw [orderOf] at h
    split at h
    · cases h
    · rename_i core hcore
      split at h
      · cases h
      split at h
      · cases h
      · rename_i hasc hdesc
        cases h
        rw [sameFolded_iff] at hasc hdesc
        exact ⟨_, rfl, .sortOrder (option_eq_some.1 hcore) ⟨hasc, hdesc⟩⟩
  · rintro ⟨fault, rfl, hfault⟩
    cases hfault with
    | sortOrder hcore hunknown =>
        rw [← sameFolded_iff, ← sameFolded_iff] at hunknown
        rw [orderOf, option_eq_some.2 hcore]
        simp only [if_neg hunknown.1, if_neg hunknown.2]

/-! ### The checks in a row -/

/-- A failure with the first fault of the listed fields. -/
def Refuses (κ : Type) [SortKey κ] (criteria : Criteria) (fields : List InputField)
    (error : DeskError) : Prop :=
  ∃ field fault, error = .invalid field fault ∧ FirstFault κ criteria fields field fault

theorem refuses_cons {first : InputField} {error : DeskError} :
    Refuses κ criteria (first :: fields) error ↔
      (∃ fault, error = .invalid first fault ∧ Faulty κ criteria first fault) ∨
        ((∀ fault, ¬Faulty κ criteria first fault) ∧ Refuses κ criteria fields error) := by
  simp only [Refuses, firstFault_cons]
  constructor
  · rintro ⟨field, fault, herror, ⟨rfl, hfault⟩ | ⟨hclean, hfirst⟩⟩
    · exact Or.inl ⟨fault, herror, hfault⟩
    · exact Or.inr ⟨hclean, field, fault, herror, hfirst⟩
  · rintro (⟨fault, herror, hfault⟩ | ⟨hclean, field, fault, herror, hfirst⟩)
    · exact ⟨first, fault, herror, Or.inl ⟨rfl, hfault⟩⟩
    · exact ⟨field, fault, herror, Or.inr ⟨hclean, hfirst⟩⟩

theorem Checks.clean {α : Type} {value : α} (h : Checks κ criteria field (.ok value : Except _ α)) :
    ∀ fault, ¬Faulty κ criteria field fault :=
  fun fault hfault => nomatch (h _).2 ⟨fault, rfl, hfault⟩

/-- One more check in front reports its own fault before all others. -/
theorem Checks.bind {α β : Type} {first : Except DeskError α} {next : α → Except DeskError β}
    (h : Checks κ criteria field first)
    (hnext : ∀ value error, next value = .error error ↔ Refuses κ criteria fields error)
    (error : DeskError) :
    first >>= next = .error error ↔ Refuses κ criteria (field :: fields) error := by
  rw [refuses_cons]
  cases first with
  | error found =>
      obtain ⟨fault, -, hfault⟩ := (h found).1 rfl
      rw [or_iff_left fun hlater => hlater.1 fault hfault, ← h error, Except.error.injEq]
      exact (Except.error.injEq found error).to_iff
  | ok value =>
      rw [or_iff_right, and_iff_right h.clean]
      · exact hnext value error
      · rintro ⟨fault, -, hfault⟩
        exact h.clean fault hfault

theorem checks_parentId (κ : Type) [SortKey κ] (criteria : Criteria) {α : Type} (value : α) :
    Checks κ criteria .parentId (if criteria.rootOnly ∧ criteria.parentId.isSome then
      (.error (.invalid .parentId .parentOfRoots) : Except DeskError α) else .ok value) := by
  intro error
  split
  · rename_i hboth
    constructor
    · rintro ⟨⟩
      exact ⟨_, rfl, .parentId hboth.1 hboth.2⟩
    · rintro ⟨fault, rfl, hfault⟩
      cases hfault
      rfl
  · rename_i hnot
    refine iff_of_false nofun ?_
    rintro ⟨fault, -, hfault⟩
    cases hfault with
    | parentId hroots hparent => exact hnot ⟨hroots, hparent⟩

theorem refuses_singleton {error : DeskError} :
    Refuses κ criteria [field] error ↔
      ∃ fault, error = .invalid field fault ∧ Faulty κ criteria field fault := by
  rw [refuses_cons, or_iff_left]
  rintro ⟨-, _, _, -, hmem, -⟩
  cases hmem

theorem shape_eq_error (κ : Type) [SortKey κ] (criteria : Criteria) (error : DeskError) :
    shape κ criteria = .error error ↔ Refuses κ criteria checked error :=
  (checks_limit κ criteria).bind (fun _ => (checks_offset κ criteria).bind fun _ =>
    (checks_sortBy κ criteria).bind fun _ => (checks_sortOrder κ criteria).bind fun _ error =>
      (checks_parentId κ criteria _ error).trans refuses_singleton.symm) error

/-- Criteria are shaped to a query just if none of their fields is at fault. -/
theorem exists_shape_iff (κ : Type) [SortKey κ] (criteria : Criteria) :
    (∃ query, shape κ criteria = .ok query) ↔ ∀ field fault, ¬Faulty κ criteria field fault := by
  constructor
  · rintro ⟨query, hquery⟩ field fault hfault
    obtain ⟨first, found, hfirst⟩ := exists_firstFault hfault.mem_checked hfault
    have hrefused := (shape_eq_error κ criteria _).2 ⟨first, found, rfl, hfirst⟩
    rw [hquery] at hrefused
    cases hrefused
  · intro hclean
    cases houtcome : shape κ criteria with
    | ok query => exact ⟨query, rfl⟩
    | error error =>
        obtain ⟨field, fault, -, -, hfault, -⟩ := (shape_eq_error κ criteria error).1 houtcome
        exact absurd hfault (hclean field fault)

/-! ### Queries in normal form -/

/-- The query has the options that the checks deliver, and all else as it was asked for. -/
structure Fills (criteria : Criteria) (query : Query κ) : Prop where
  limit : limitOf criteria.limit = .ok query.limit
  offset : offsetOf criteria.offset = .ok query.offset
  sortBy : sortOf κ criteria.sortBy = .ok query.sortBy
  sortOrder : orderOf criteria.sortOrder = .ok query.sortOrder
  compatible : ¬(query.rootOnly = true ∧ query.parentId.isSome = true)
  name : query.nameContains = option criteria.name
  scope : query.organizationId = criteria.organizationId ∧ query.parentId = criteria.parentId ∧
    query.isActive = criteria.isActive ∧ query.rootOnly = criteria.rootOnly

theorem shape_eq_ok {query : Query κ} : shape κ criteria = .ok query ↔ Fills criteria query := by
  constructor
  · intro h
    simp only [shape, bind_eq_ok] at h
    obtain ⟨limit, hlimit, offset, hoffset, sortBy, hsortBy, sortOrder, hsortOrder, h⟩ := h
    split at h
    · cases h
    · rename_i hcompatible
      cases h
      exact ⟨hlimit, hoffset, hsortBy, hsortOrder, hcompatible, rfl, rfl, rfl, rfl, rfl⟩
  · intro h
    obtain ⟨hlimit, hoffset, hsortBy, hsortOrder, hcompatible, hname, horganization, hparent,
      hactive, hroots⟩ := h
    rw [hroots, hparent] at hcompatible
    simp only [shape, bind_eq_ok]
    refine ⟨_, hlimit, _, hoffset, _, hsortBy, _, hsortOrder, ?_⟩
    rw [if_neg hcompatible, ← horganization, ← hparent, ← hactive, ← hroots, ← hname]

/-- A page holds between 1 and 100 rows. -/
theorem limitOf_range {raw : Option Int} {limit : Nat} (h : limitOf raw = .ok limit) :
    1 ≤ limit ∧ limit ≤ 100 := by
  unfold limitOf at h
  split at h
  · cases h
    decide
  split at h
  · cases h
    decide
  split at h
  · cases h
  · cases h
    simp only [Query.greatestLimit]
    omega

theorem limitOf_natCast {limit : Nat} (h : 1 ≤ limit ∧ limit ≤ 100) :
    limitOf (some limit) = .ok limit := by
  have hzero : ¬(limit : Int) = 0 := by omega
  have hlow : ¬(limit : Int) < 0 := by omega
  rw [limitOf, if_neg hzero, if_neg hlow, Int.toNat_natCast, Query.greatestLimit, Nat.min_eq_left h.2]

theorem offsetOf_natCast (offset : Nat) : offsetOf (some offset) = .ok offset := by
  rw [offsetOf, if_neg (Int.not_lt.2 (Int.natCast_nonneg offset)), Int.toNat_natCast]

theorem natCast_offsetOf {raw : Option Int} {offset : Nat} (h : offsetOf raw = .ok offset) :
    (offset : Int) = raw.getD 0 := by
  unfold offsetOf at h
  split at h
  · cases h
    rfl
  split at h
  · cases h
  · rename_i hlow
    cases h
    exact Int.toNat_of_nonneg (Int.not_lt.1 hlow)

theorem option_of_trimmed {text : String} (htrimmed : trim text = text) (hne : text ≠ "") :
    option (some text) = some text :=
  option_eq_some.2 ⟨text, rfl, trim_eq_iff.1 htrimmed, hne⟩

theorem option_option (raw : Option String) : option (option raw) = option raw := by
  cases hraw : option raw with
  | none => rfl
  | some core =>
      obtain ⟨text, -, hcore, hne⟩ := option_eq_some.1 hraw
      have htrimmed : trim core = core := by
        rw [← trim_eq_iff.2 hcore, trim_trim]
      exact option_of_trimmed htrimmed hne

theorem sortOf_text [LawfulSortKey κ] (key : κ) : sortOf κ (some (SortKey.text key)) = .ok key := by
  have hlisted := LawfulSortKey.listed key
  have hasked := option_of_trimmed (LawfulSortKey.trimmed key) (LawfulSortKey.nonempty key)
  have hself : sameFolded (SortKey.text key) (SortKey.text key) = true := beq_self_eq_true _
  rw [sortOf, hasked]
  cases hfind : (SortKey.allowed : List (String × κ)).find?
      fun entry => sameFolded entry.1 (SortKey.text key) with
  | none => exact absurd hself (List.find?_eq_none.1 hfind _ hlisted)
  | some entry =>
      have hsame := List.find?_some (p := fun entry : String × κ =>
        sameFolded entry.1 (SortKey.text key)) hfind
      obtain rfl := LawfulSortKey.apart entry (List.mem_of_find?_eq_some hfind) _ hlisted hsame
      simp only [hfind]

theorem orderOf_text (order : SortOrder) : orderOf (some order.text) = .ok order := by
  cases order <;> decide

/-- A query that was filled in is filled in the same way once more. -/
theorem Fills.again [LawfulSortKey κ] {query : Query κ} (h : Fills criteria query) :
    Fills query.criteria query where
  limit := limitOf_natCast (limitOf_range h.limit)
  offset := offsetOf_natCast query.offset
  sortBy := sortOf_text query.sortBy
  sortOrder := orderOf_text query.sortOrder
  compatible := h.compatible
  name := by
    show query.nameContains = option query.nameContains
    rw [h.name, option_option]
  scope := ⟨rfl, rfl, rfl, rfl⟩

/-- The laws of shaping: an error reports the first fault, there is a query just if there is no fault, and
a query that comes out is in normal form. -/
structure ShapeLaws (κ : Type) [SortKey κ] (criteria : Criteria) : Prop where
  refused : ∀ error, shape κ criteria = .error error ↔
    ∃ field fault, error = .invalid field fault ∧ FirstFault κ criteria checked field fault
  accepted : (∃ query, shape κ criteria = .ok query) ↔
    ∀ field fault, ¬Faulty κ criteria field fault
  limit : ∀ query, shape κ criteria = .ok query → 1 ≤ query.limit ∧ query.limit ≤ 100
  offset : ∀ query, shape κ criteria = .ok query → (query.offset : Int) = criteria.offset.getD 0
  name : ∀ query, shape κ criteria = .ok query →
    ∀ text, query.nameContains = some text → trim text = text ∧ text ≠ ""
  again : ∀ query, shape κ criteria = .ok query → shape κ query.criteria = .ok query

theorem shapeLaws (κ : Type) [SortKey κ] [LawfulSortKey κ] (criteria : Criteria) :
    ShapeLaws κ criteria where
  refused := shape_eq_error κ criteria
  accepted := exists_shape_iff κ criteria
  limit query h := limitOf_range (shape_eq_ok.1 h).limit
  offset query h := natCast_offsetOf (shape_eq_ok.1 h).offset
  name query h text htext := by
    have hasked : option criteria.name = some text := (shape_eq_ok.1 h).name ▸ htext
    obtain ⟨raw, -, hcore, hne⟩ := option_eq_some.1 hasked
    rw [← trim_eq_iff.2 hcore, trim_trim]
    exact ⟨rfl, trim_eq_iff.2 hcore ▸ hne⟩
  again query h := shape_eq_ok.2 (shape_eq_ok.1 h).again

/-- All criteria are shaped by these laws, for categories and for organizations. -/
theorem shape_accepts_valid (criteria : Criteria) :
    ShapeLaws CategorySort criteria ∧ ShapeLaws OrganizationSort criteria :=
  ⟨shapeLaws CategorySort criteria, shapeLaws OrganizationSort criteria⟩

/-- Of two faults the one of the offset is reported, though the column of the sort is unknown too. -/
example : shape CategorySort { offset := some (-1), sortBy := some "size" } =
    .error (.invalid .offset .negative) := by decide

end Criteria

end ServiceDesk
