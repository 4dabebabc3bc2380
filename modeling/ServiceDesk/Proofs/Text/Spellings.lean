import Mathlib.Data.List.Forall2
import ServiceDesk.Proofs.Text.NormalForms
import ServiceDesk.Role

/-!
Names that are typed by people. What counts of a text is its core, which is left when the blanks at
both ends are taken away, and a core spells a name if it differs from it in nothing but the case of the
letters A to Z. A role is found by lower-casing the core with the full mapping; no character outside of
ASCII becomes a letter of a role by that, so a role is found just under the spellings of its name.
-/

namespace ServiceDesk.Text

/-! ### Cores -/

/-- What is left of a text without the blanks at its ends. -/
structure IsCore (raw core : String) : Prop where
  around : ∃ before after, raw.toList = before ++ (core.toList ++ after) ∧
    ∀ c ∈ before ++ after, isBlank c = true
  first : ∀ c ∈ core.toList.head?, isBlank c = false
  last : ∀ c ∈ core.toList.getLast?, isBlank c = false

variable {text before after : List Char}

/-- Nothing is dropped from a text that is empty or does not start with a blank. -/
theorem dropWhile_isBlank_iff :
    text.dropWhile isBlank = text ↔ ∀ c ∈ text.head?, isBlank c = false := by
  cases text with
  | nil => simp
  | cons c text =>
      by_cases hblank : isBlank c = true
      · have hlength := (List.dropWhile_suffix (p := isBlank) (l := text)).length_le
        rw [List.dropWhile_cons_of_pos hblank]
        refine iff_of_false (fun hsame => ?_) (by simp [hblank])
        have := congrArg List.length hsame
        simp only [List.length_cons] at this
        omega
      · rw [List.dropWhile_cons_of_neg hblank]
        simp [hblank]

theorem rdropWhile_isBlank_iff :
    text.rdropWhile isBlank = text ↔ ∀ c ∈ text.getLast?, isBlank c = false := by
  rw [← List.head?_reverse, ← dropWhile_isBlank_iff, List.rdropWhile, List.reverse_eq_iff]

/-- Blanks around a text without blanks at its ends are trimmed. -/
theorem trimChars_append (h : ∀ c ∈ before ++ after, isBlank c = true)
    (hfirst : ∀ c ∈ text.head?, isBlank c = false) (hlast : ∀ c ∈ text.getLast?, isBlank c = false) :
    trimChars (before ++ (text ++ after)) = text := by
  obtain ⟨hbefore, hafter⟩ := List.forall_mem_append.1 h
  have hfront : (text ++ after).dropWhile isBlank = text ++ after ∨ text = [] := by
    cases text with
    | nil => exact Or.inr rfl
    | cons c text => exact Or.inl (dropWhile_isBlank_iff.2 hfirst)
  show ((before ++ (text ++ after)).dropWhile isBlank).rdropWhile isBlank = text
  rw [List.dropWhile_append_of_pos hbefore]
  rcases hfront with hfront | rfl
  · rw [hfront, List.rdropWhile, List.reverse_append,
      List.dropWhile_append_of_pos fun c hmem => hafter c (List.mem_reverse.1 hmem)]
    exact rdropWhile_isBlank_iff.2 hlast
  · rw [List.nil_append, List.dropWhile_eq_nil_iff.2 hafter]
    rfl

theorem trim_eq_iff {raw core : String} : trim raw = core ↔ IsCore raw core := by
  constructor
  · rintro rfl
    have hback : (raw.toList.dropWhile isBlank).rdropWhile isBlank ++
        (raw.toList.dropWhile isBlank).rtakeWhile isBlank = raw.toList.dropWhile isBlank :=
      List.rdropWhile_append_rtakeWhile
    refine ⟨⟨raw.toList.takeWhile isBlank, (raw.toList.dropWhile isBlank).rtakeWhile isBlank, ?_, ?_⟩,
      ?_, ?_⟩
    · rw [toList_trim]
      show raw.toList = _ ++ ((raw.toList.dropWhile isBlank).rdropWhile isBlank ++ _)
      rw [hback, List.takeWhile_append_dropWhile]
    · intro c hmem
      rcases List.mem_append.1 hmem with hmem | hmem
      · exact List.mem_takeWhile_imp hmem
      · exact List.mem_rtakeWhile_imp hmem
    · rw [toList_trim]
      exact dropWhile_isBlank_iff.1 (dropWhile_trimChars _)
    · rw [toList_trim]
      exact rdropWhile_isBlank_iff.1 (List.rdropWhile_idempotent isBlank _)
  · rintro ⟨⟨before, after, hraw, hblank⟩, hfirst, hlast⟩
    rw [trim, hraw, trimChars_append hblank hfirst hlast, String.ofList_toList]

/-! ### Spellings -/

/-- The same character, or the same letter of A to Z in two cases. -/
inductive SameLetter : Char → Char → Prop
  | same (c : Char) : SameLetter c c
  | capital {c d : Char} (hc : 'A' ≤ c ∧ c ≤ 'Z') (hd : d.toNat = c.toNat + 32) : SameLetter c d
  | small {c d : Char} (hd : 'A' ≤ d ∧ d ≤ 'Z') (hc : c.toNat = d.toNat + 32) : SameLetter c d

/-- A text differs from a name in nothing but the case of the letters A to Z. -/
def Spells (text name : String) : Prop := List.Forall₂ SameLetter text.toList name.toList

/-- Folding adds 32 to the code of a capital and leaves every other character as it is. -/
theorem toLower_cases (c : Char) : (('A' ≤ c ∧ c ≤ 'Z') ∧ c.toLower.toNat = c.toNat + 32) ∨
    (¬('A' ≤ c ∧ c ≤ 'Z') ∧ c.toLower = c) := by
  by_cases hcapital : 'A' ≤ c ∧ c ≤ 'Z'
  · have hascii : IsAscii c := Nat.lt_of_le_of_lt hcapital.2 (by decide)
    have hcode := hascii.of_forall
      (P := fun c => 'A' ≤ c ∧ c ≤ 'Z' → c.toLower.toNat = c.toNat + 32) (by decide +kernel)
    exact Or.inl ⟨hcapital, hcode hcapital⟩
  · exact Or.inr ⟨hcapital, dif_neg hcapital⟩

/-- No character 32 after a capital is a capital. -/
theorem toLower_of_capital {c d : Char} (hc : 'A' ≤ c ∧ c ≤ 'Z') (hd : d.toNat = c.toNat + 32) :
    c.toLower = d ∧ d.toLower = d := by
  have hleast : 65 ≤ c.toNat := hc.1
  have hlate : ¬('A' ≤ d ∧ d ≤ 'Z') := by
    rintro ⟨-, hmost⟩
    have hmost : d.toNat ≤ 90 := hmost
    omega
  constructor
  · rcases toLower_cases c with ⟨-, hcode⟩ | ⟨hsmall, -⟩
    · exact Char.toNat_inj.1 (hcode.trans hd.symm)
    · exact absurd hc hsmall
  · exact dif_neg hlate

theorem sameLetter_iff {c d : Char} : c.toLower = d.toLower ↔ SameLetter c d := by
  constructor
  · intro h
    have hcode : c.toLower.toNat = d.toLower.toNat := congrArg Char.toNat h
    rcases toLower_cases c with ⟨hc, hcl⟩ | ⟨-, hcl⟩ <;>
      rcases toLower_cases d with ⟨hd, hdl⟩ | ⟨-, hdl⟩ <;> rw [hcl, hdl] at hcode
    · obtain rfl : c = d := Char.toNat_inj.1 (by omega)
      exact .same c
    · exact .capital hc hcode.symm
    · exact .small hd hcode
    · obtain rfl : c = d := Char.toNat_inj.1 hcode
      exact .same c
  · intro h
    cases h with
    | same => rfl
    | capital hc hd =>
        obtain ⟨hfirst, hsecond⟩ := toLower_of_capital hc hd
        rw [hfirst, hsecond]
    | small hd hc =>
        obtain ⟨hfirst, hsecond⟩ := toLower_of_capital hd hc
        rw [hfirst, hsecond]

theorem foldCase_eq_iff {other : List Char} :
    foldCase text = foldCase other ↔ List.Forall₂ SameLetter text other := by
  rw [foldCase, foldCase, ← List.forall₂_eq_eq_eq, List.forall₂_map_left_iff,
    List.forall₂_map_right_iff]
  simp only [sameLetter_iff]

theorem sameFolded_iff {a b : String} : sameFolded a b = true ↔ Spells a b := by
  rw [sameFolded, beq_iff_eq, foldCase_eq_iff, Spells]

theorem spells_comm {a b : String} : Spells a b ↔ Spells b a := by
  rw [Spells, Spells, ← foldCase_eq_iff, ← foldCase_eq_iff, eq_comm]

theorem Spells.isAscii {spelled name : String} (h : Spells spelled name)
    (hname : ∀ c ∈ name.toList, IsAscii c) : ∀ c ∈ spelled.toList, IsAscii c := by
  intro c hmem
  have hfolded : c.toLower ∈ foldCase name.toList :=
    foldCase_eq_iff.2 h ▸ List.mem_map_of_mem hmem
  obtain ⟨d, hd, heq⟩ := List.mem_map.1 hfolded
  by_contra hother
  have hascii : IsAscii c.toLower := heq ▸ (hname d hd).toLower
  rw [toLower_of_not_isAscii hother] at hascii
  exact hother hascii

/-- The names that lower-casing finds under their spellings only: they are ASCII, they are small, and
they are without the small letter of the KELVIN SIGN. -/
structure IsPlainName (name : String) : Prop where
  ascii : ∀ c ∈ name.toList, IsAscii c
  small : foldCase name.toList = name.toList
  noKelvin : 'k' ∉ name.toList

instance (name : String) : Decidable (IsPlainName name) :=
  decidable_of_iff ((name.toList.all fun c => decide (IsAscii c)) = true ∧
      foldCase name.toList = name.toList ∧ 'k' ∉ name.toList) (by
    simp only [List.all_eq_true, decide_eq_true_eq]
    exact ⟨fun ⟨hascii, hsmall, hk⟩ => ⟨hascii, hsmall, hk⟩, fun ⟨hascii, hsmall, hk⟩ =>
      ⟨hascii, hsmall, hk⟩⟩)

/-- What is lower-cased to such a name spells it. -/
theorem IsPlainName.lowercase_eq_iff {spelled name : String} (h : IsPlainName name) :
    lowercase spelled = name ↔ Spells spelled name := by
  have hsmall : Spells spelled name ↔ foldCase spelled.toList = name.toList := by
    rw [Spells, ← foldCase_eq_iff, h.small]
  rw [← String.toList_inj, toList_lowercase, hsmall]
  constructor
  · intro hlower
    have hascii : ∀ c ∈ lowerChars spelled.toList, IsAscii c := hlower ▸ h.ascii
    have hkelvin : kelvinSign ∉ spelled.toList := by
      intro hmem
      have hk := List.mem_map_of_mem (f := smallLetter) hmem
      rw [smallLetter_kelvinSign, ← lowerChars_eq_map hascii, hlower] at hk
      exact h.noKelvin hk
    exact ((foldCase_eq_lowerChars_iff hascii).2 hkelvin).trans hlower
  · intro hfolded
    have hascii := (hsmall.2 hfolded).isAscii h.ascii
    exact (lowerAfter_of_isAscii hascii).trans hfolded

end ServiceDesk.Text

namespace ServiceDesk.Role

open Text

theorem isPlainName_text (role : Role) : IsPlainName role.text := by
  cases role <;> decide

theorem ofName?_eq_some {name : String} {role : Role} :
    ofName? name = some role ↔ name = role.text := by
  constructor
  · intro h
    have hfound := List.find?_some (p := fun role : Role => role.text == name) h
    exact (eq_of_beq hfound).symm
  · rintro rfl
    exact ofName?_text role

theorem ofText_eq_ok {raw : String} {role : Role} :
    ofText raw = .ok role ↔ ofName? (lowercase (trim raw)) = some role := by
  rw [ofText]
  split
  · rename_i found hfound
    rw [hfound, Except.ok.injEq, Option.some.injEq]
  · rename_i hnone
    rw [hnone]
    exact iff_of_false nofun nofun

theorem ofText_eq_error {raw : String} :
    ofText raw = .error (.unknownRole raw) ↔ ∀ role, ofText raw ≠ .ok role := by
  simp only [ne_eq, ofText_eq_ok]
  rw [← Option.eq_none_iff_forall_ne_some, ofText]
  split
  · rename_i found hfound
    rw [hfound]
    exact iff_of_false nofun nofun
  · rename_i hnone
    exact iff_of_true rfl hnone

/-- A text stands for a role just if its core spells the name of the role; it is refused as it came just
if its core spells none of the names, as it is with any character outside of ASCII in the core. -/
theorem ofText_finds_spellings (raw : String) :
    (∀ role, ofText raw = .ok role ↔ ∃ core, IsCore raw core ∧ Spells core role.text) ∧
    (ofText raw = .error (.unknownRole raw) ↔
      ¬∃ role : Role, ∃ core, IsCore raw core ∧ Spells core role.text) ∧
    ((∃ core, IsCore raw core ∧ ∃ c ∈ core.toList, ¬IsAscii c) →
      ofText raw = .error (.unknownRole raw)) := by
  have hok : ∀ role, ofText raw = .ok role ↔ ∃ core, IsCore raw core ∧ Spells core role.text := by
    intro role
    rw [ofText_eq_ok, ofName?_eq_some, (isPlainName_text role).lowercase_eq_iff]
    simp only [← trim_eq_iff, exists_eq_left']
  have herror : ofText raw = .error (.unknownRole raw) ↔
      ¬∃ role : Role, ∃ core, IsCore raw core ∧ Spells core role.text := by
    rw [ofText_eq_error, not_exists]
    exact forall_congr' fun role => not_congr (hok role)
  refine ⟨hok, herror, ?_⟩
  rintro ⟨core, hcore, c, hmem, hother⟩
  rw [herror]
  rintro ⟨role, other, hsame, hspells⟩
  obtain rfl : core = other := (trim_eq_iff.2 hcore).symm.trans (trim_eq_iff.2 hsame)
  exact hother (hspells.isAscii (isPlainName_text role).ascii c hmem)

/-- A name between an EM SPACE and a line feed is found in mixed case, and with a Cyrillic A it is not. -/
theorem ofText_finds_spellings_cyrillic :
    ofText "\u2003aGENT\n" = .ok .agent ∧
      ofText "\u2003\u0410GENT\n" = .error (.unknownRole "\u2003\u0410GENT\n") :=
  ⟨((ofText_finds_spellings _).1 .agent).2
      ⟨"aGENT", trim_eq_iff.1 (by decide), sameFolded_iff.1 (by decide)⟩,
    (ofText_finds_spellings _).2.2
      ⟨"\u0410GENT", trim_eq_iff.1 (by decide), '\u0410', by decide, by decide⟩⟩

end ServiceDesk.Role
