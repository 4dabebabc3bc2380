import Mathlib.Data.List.DropRight
import ServiceDesk.Proofs.Text.Lowering
import ServiceDesk.Rules

/-!
Normal forms of the text fields. A trimmed text has no blank at either end, so that trimming it once
more changes nothing, and a mail domain has no capital letter that could be folded. Whatever a rule
lets through is in the normal form of its field, and a rule leaves a text in normal form as it is.
-/

namespace ServiceDesk.Text

/-- Dropping blanks behind leaves none in front, where there were none. -/
theorem dropWhile_trimChars (text : List Char) :
    (trimChars text).dropWhile isBlank = trimChars text := by
  have hprefix : trimChars text <+: text.dropWhile isBlank :=
    List.rdropWhile_prefix isBlank (text.dropWhile isBlank)
  rw [List.dropWhile_eq_self_iff]
  intro hlength
  rw [List.IsPrefix.getElem hprefix hlength]
  exact List.dropWhile_get_zero_not isBlank text (hlength.trans_le hprefix.length_le)

theorem trimChars_trimChars (text : List Char) : trimChars (trimChars text) = trimChars text := by
  calc trimChars (trimChars text)
      = ((trimChars text).dropWhile isBlank).rdropWhile isBlank := rfl
    _ = (trimChars text).rdropWhile isBlank := by rw [dropWhile_trimChars]
    _ = trimChars text := List.rdropWhile_idempotent isBlank (text.dropWhile isBlank)

theorem trimChars_of_not_isBlank {text : List Char} (h : ∀ c ∈ text, isBlank c = false) :
    trimChars text = text := by
  have hsame (other : List Char) (hother : ∀ c ∈ other, isBlank c = false) :
      other.dropWhile isBlank = other := by
    rw [List.dropWhile_eq_self_iff]
    intro hlength
    rw [hother _ (List.getElem_mem hlength)]
    decide
  rw [trimChars, hsame text h, hsame _ fun c hmem => h c (List.mem_reverse.1 hmem),
    List.reverse_reverse]

theorem trim_trim (text : String) : trim (trim text) = trim text := by
  rw [trim, toList_trim, trimChars_trimChars, trim]

theorem length_trim (text : String) : (trim text).length = (trimChars text.toList).length := by
  rw [← String.length_toList, toList_trim]

end ServiceDesk.Text

namespace ServiceDesk.Rules

open Text

/-- A name as it is stored. -/
structure IsName (text : String) : Prop where
  trimmed : trim text = text
  least : 2 ≤ text.length
  most : text.length ≤ 100

structure IsDescription (text : String) : Prop where
  trimmed : trim text = text
  most : text.length ≤ 500

/-- A mail domain as it is stored. -/
structure IsDomain (text : String) : Prop where
  nonempty : text ≠ ""
  dotted : '.' ∈ text.toList
  chars : ∀ c ∈ text.toList, ('a' ≤ c ∧ c ≤ 'z') ∨ ('0' ≤ c ∧ c ≤ '9') ∨ c = '.' ∨ c = '-'

variable {raw text : String}

theorem name_eq_ok (h : name raw = .ok text) : IsName text := by
  simp only [name, nameLeast, nameMost, ← length_trim] at h
  split at h
  · cases h
  split at h
  · cases h
  split at h
  · cases h
  · cases h
    exact ⟨trim_trim raw, by omega, by omega⟩

theorem description_eq_ok (h : description raw = .ok text) : IsDescription text := by
  simp only [description, descriptionMost, ← length_trim] at h
  split at h
  · cases h
  · cases h
    exact ⟨trim_trim raw, by omega⟩

theorem isDomainChar_iff {c : Char} : isDomainChar c = true ↔
    ('a' ≤ c ∧ c ≤ 'z') ∨ ('0' ≤ c ∧ c ≤ '9') ∨ c = '.' ∨ c = '-' := by
  simp [isDomainChar, isAsciiLower, isAsciiDigit, or_assoc]

theorem domain_eq_ok (h : domain raw = .ok (some text)) : IsDomain text := by
  rw [domain] at h
  split at h
  · cases h
  rename_i hnonempty
  split at h
  · cases h
  rename_i hdotted
  split at h
  · cases h
  · rename_i hnone
    cases h
    rw [List.find?_eq_none] at hnone
    refine ⟨?_, ?_, ?_⟩
    · simpa using hnonempty
    · simpa using hdotted
    · intro c hmem
      rw [String.toList_ofList] at hmem
      exact isDomainChar_iff.1 (by simpa using hnone c hmem)

theorem tenant_eq_ok {id owner : Uuid} (h : tenant id = .ok owner) : owner = id ∧ id ≠ Uuid.nil := by
  rw [tenant] at h
  split at h
  · cases h
  · rename_i hne
    exact ⟨(Except.ok.inj h).symm, hne⟩

/-- A domain is made of ASCII characters, and the at sign is not among them. -/
theorem IsDomain.ascii (h : IsDomain text) {c : Char} (hmem : c ∈ text.toList) :
    IsAscii c ∧ c ≠ '@' := by
  rcases h.chars c hmem with ⟨ha, hz⟩ | ⟨h0, h9⟩ | rfl | rfl
  · exact ⟨Nat.lt_of_le_of_lt hz (by decide), by rintro rfl; exact absurd ha (by decide)⟩
  · exact ⟨Nat.lt_of_le_of_lt h9 (by decide), by rintro rfl; exact absurd h9 (by decide)⟩
  · decide
  · decide

theorem IsDomain.foldCase (h : IsDomain text) : foldCase text.toList = text.toList := by
  have hlower : ∀ c ∈ text.toList, c.toLower = c := by
    intro c hmem
    have hsmall : ¬('A' ≤ c ∧ c ≤ 'Z') := by
      rintro ⟨hleast, hmost⟩
      rcases h.chars c hmem with ⟨ha, _⟩ | ⟨_, h9⟩ | rfl | rfl
      · exact absurd (Char.le_trans ha hmost) (by decide)
      · exact absurd (Char.le_trans hleast h9) (by decide)
      · exact absurd hleast (by decide)
      · exact absurd hleast (by decide)
    exact dif_neg hsmall
  rw [Text.foldCase, List.map_congr_left hlower, List.map_id']

/-! ### What the rules leave as it is -/

theorem IsName.name_eq (h : IsName text) : name text = .ok text := by
  have hlength : (trimChars text.toList).length = text.length := by
    rw [← length_trim, h.trimmed]
  have hleast := h.least
  have hmost := h.most
  rw [name, hlength, h.trimmed, if_neg (by omega), if_neg (by rw [nameLeast]; omega),
    if_neg (by rw [nameMost]; omega)]

theorem IsDescription.description_eq (h : IsDescription text) : description text = .ok text := by
  have hmost := h.most
  rw [description, ← length_trim, h.trimmed, if_neg (by rw [descriptionMost]; omega)]

theorem IsDomain.trimChars_eq (h : IsDomain text) : trimChars text.toList = text.toList := by
  refine trimChars_of_not_isBlank fun c hmem => ?_
  have hchar := isDomainChar_iff.2 (h.chars c hmem)
  exact (h.ascii hmem).1.of_forall (P := fun c => isDomainChar c = true → isBlank c = false)
    (by decide +kernel) hchar

theorem IsDomain.lowerChars_eq (h : IsDomain text) : lowerChars text.toList = text.toList := by
  rw [lowerChars, lowerAfter_of_isAscii fun c hmem => (h.ascii hmem).1, h.foldCase]

theorem IsDomain.domain_eq (h : IsDomain text) : domain text = .ok (some text) := by
  have hnonempty : text.toList ≠ [] := fun hnil => h.nonempty (String.toList_eq_nil_iff.1 hnil)
  have hnone : text.toList.find? (fun c => !isDomainChar c) = none := by
    rw [List.find?_eq_none]
    intro c hmem
    rw [isDomainChar_iff.2 (h.chars c hmem)]
    decide
  rw [domain, h.trimChars_eq, h.lowerChars_eq, if_neg hnonempty, if_neg (not_not.2 h.dotted), hnone,
    String.ofList_toList]

/-- The empty text, which stands for no domain, and a domain are both left as they are. -/
theorem domain_getD {stored : Option String} (h : ∀ text, stored = some text → IsDomain text) :
    domain (stored.getD "") = .ok stored := by
  cases stored with
  | none => rfl
  | some text => exact (h text rfl).domain_eq

end ServiceDesk.Rules
