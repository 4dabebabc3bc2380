import ServiceDesk.Text.Ascii
import ServiceDesk.Text.Lowercase

/-!
Lower-casing by the full mapping compared with folding, which knows the letters A to Z only. They
agree on every ASCII text, and just one character outside of ASCII becomes an ASCII one when it is
lower-cased: the KELVIN SIGN, of which the small letter is k. So a text that is ASCII once it is
lower-cased need not be ASCII before. Folding takes the case away from a text just if each of its
characters is an ASCII one or is left as it is when it is lower-cased.
-/

namespace ServiceDesk.Text

def IsAscii (c : Char) : Prop := c.toNat < 128

instance (c : Char) : Decidable (IsAscii c) := inferInstanceAs (Decidable (c.toNat < 128))

/-- The sign of the unit, which looks like the letter K. -/
def kelvinSign : Char := '\u212A'

variable {c : Char} {text : List Char}

/-! ### One character -/

theorem smallLetter_kelvinSign : smallLetter kelvinSign = 'k' := by
  decide +kernel

theorem toLower_kelvinSign : kelvinSign.toLower = kelvinSign := by
  decide

/-- What holds of the characters of all codes below 128 holds of the ASCII characters. -/
theorem IsAscii.of_forall {P : Char → Prop} (h : ∀ code : Fin 128, P (Char.ofNat code))
    (hc : IsAscii c) : P c := by
  have hchar := h ⟨c.toNat, hc⟩
  rwa [Char.ofNat_toNat] at hchar

theorem smallLetter_of_isAscii (h : IsAscii c) : smallLetter c = c.toLower :=
  h.of_forall (P := fun c => smallLetter c = c.toLower) (by decide +kernel)

theorem IsAscii.toLower (h : IsAscii c) : IsAscii c.toLower :=
  h.of_forall (P := fun c => c.toLower.toNat < 128) (by decide +kernel)

/-- The small letters of a run of capitals outside of ASCII are characters outside of ASCII, unless
it is the run of the KELVIN SIGN alone. -/
theorem caseRuns_apart : ∀ run ∈ caseRuns, 128 ≤ run.first →
    (run.first = 0x212A ∧ run.last = 0x212A) ∨
      (128 ≤ run.first + run.offset ∧
        (run.last + run.offset < 0xD800 ∨
          (0xE000 ≤ run.first + run.offset ∧ run.last + run.offset < 0x110000))) := by
  decide +kernel

/-- The run of an ASCII capital holds no other characters. -/
theorem caseRuns_ascii : ∀ run ∈ caseRuns, run.first < 128 → run.last < 128 := by
  decide +kernel

theorem toNat_ofNat_of_valid {code : Nat} (h : code.isValidChar) : (Char.ofNat code).toNat = code := by
  rw [Char.ofNat, dif_pos h]
  rfl

theorem not_isAscii_smallLetter (h : ¬IsAscii c) (hne : c ≠ kelvinSign) :
    ¬IsAscii (smallLetter c) := by
  rw [smallLetter]
  split
  · rename_i run hfind
    have hmem := List.mem_of_find?_eq_some hfind
    have hhas := List.find?_some hfind
    simp only [CaseRun.has, Bool.and_eq_true, decide_eq_true_eq] at hhas
    obtain ⟨⟨hfirst, hlast⟩, _⟩ := hhas
    have hcode : 128 ≤ c.toNat := Nat.not_lt.1 h
    have hrun : 128 ≤ run.first := by
      refine Nat.not_lt.1 fun hlow => ?_
      have := caseRuns_ascii run hmem hlow
      omega
    rcases caseRuns_apart run hmem hrun with ⟨hf, hl⟩ | ⟨hlow, hvalid⟩
    · refine absurd (Char.toNat_inj.1 (?_ : c.toNat = kelvinSign.toNat)) hne
      have hkelvin : kelvinSign.toNat = 0x212A := rfl
      omega
    · have hsmall : (((c.toNat : Int) + run.offset).toNat).isValidChar := by
        unfold Nat.isValidChar
        omega
      rw [IsAscii, toNat_ofNat_of_valid hsmall]
      omega
  · exact h

theorem isAscii_smallLetter_iff : IsAscii (smallLetter c) ↔ IsAscii c ∨ c = kelvinSign := by
  constructor
  · intro h
    by_cases hascii : IsAscii c
    · exact Or.inl hascii
    by_cases hkelvin : c = kelvinSign
    · exact Or.inr hkelvin
    · exact absurd h (not_isAscii_smallLetter hascii hkelvin)
  · rintro (hascii | rfl)
    · rw [smallLetter_of_isAscii hascii]
      exact hascii.toLower
    · rw [smallLetter_kelvinSign]
      decide

theorem toLower_of_not_isAscii (h : ¬IsAscii c) : c.toLower = c := by
  refine dif_neg fun hcapital => h ?_
  exact Nat.lt_of_le_of_lt hcapital.2 (by decide)

/-- Folding takes the case away from a character: it is an ASCII character, or it is left as it is when
it is lower-cased. -/
def Folds (c : Char) : Prop := IsAscii c ∨ lowerChar c = [c]

instance (c : Char) : Decidable (Folds c) :=
  inferInstanceAs (Decidable (IsAscii c ∨ lowerChar c = [c]))

/-- The small letter of a character is folded as the character is, if it is an ASCII character or its
own small letter. -/
theorem toLower_smallLetter_iff :
    (smallLetter c).toLower = c.toLower ↔ IsAscii c ∨ smallLetter c = c := by
  by_cases hascii : IsAscii c
  · refine iff_of_true ?_ (Or.inl hascii)
    rw [smallLetter_of_isAscii hascii]
    exact hascii.of_forall (P := fun c => c.toLower.toLower = c.toLower) (by decide +kernel)
  · rw [toLower_of_not_isAscii hascii, or_iff_right hascii]
    by_cases hsmall : IsAscii (smallLetter c)
    · obtain rfl := (isAscii_smallLetter_iff.1 hsmall).resolve_left hascii
      exact iff_of_false (by decide +kernel) (by decide +kernel)
    · rw [toLower_of_not_isAscii hsmall]

/-- What one character becomes between the text before it, nearest first, and the rest. -/
def lowerAt (before : List Char) (c : Char) (rest : List Char) : List Char :=
  if c == '\u03A3' then [if endsWord before rest then '\u03C2' else '\u03C3'] else lowerChar c

theorem lowerAfter_cons (before : List Char) (c : Char) (rest : List Char) :
    lowerAfter before (c :: rest) = lowerAt before c rest ++ lowerAfter (c :: before) rest := by
  rw [lowerAfter, lowerAt]
  split <;> rfl

theorem lowerAt_ne_nil (before : List Char) (c : Char) (rest : List Char) :
    lowerAt before c rest ≠ [] := by
  rw [lowerAt]
  split
  · exact List.cons_ne_nil _ _
  · rw [lowerChar]
    split <;> exact List.cons_ne_nil _ _

theorem lowerAt_of_isAscii {before rest : List Char} (h : IsAscii c) :
    lowerAt before c rest = [c.toLower] := by
  have hplain : ¬(c == '\u03A3') = true ∧ ¬(c == '\u0130') = true :=
    h.of_forall (P := fun c => ¬(c == '\u03A3') = true ∧ ¬(c == '\u0130') = true)
      (by decide +kernel)
  rw [lowerAt, if_neg hplain.1, lowerChar, if_neg hplain.2, smallLetter_of_isAscii h]

/-- A character that becomes ASCII becomes its small letter. -/
theorem lowerAt_eq_smallLetter {before rest : List Char}
    (h : ∀ d ∈ lowerAt before c rest, IsAscii d) : lowerAt before c rest = [smallLetter c] := by
  rw [lowerAt] at h ⊢
  split at h
  · -- A capital sigma stays outside of ASCII, whichever small one it becomes.
    have hsigma := List.forall_mem_singleton.1 h
    split at hsigma <;> exact absurd hsigma (by decide)
  · rename_i hsigma
    rw [if_neg hsigma]
    rw [lowerChar] at h ⊢
    split at h
    · have hdot : IsAscii '\u0307' := h _ (by simp)
      exact absurd hdot (by decide)
    · rename_i hdotted
      rw [if_neg hdotted]

/-- If all that a character becomes is folded as the character is, folding takes its case away. -/
theorem folds_of_lowerAt {before rest : List Char}
    (h : ∀ d ∈ lowerAt before c rest, d.toLower = c.toLower) : Folds c := by
  rw [lowerAt] at h
  split at h
  · rename_i hsigma
    rw [eq_of_beq hsigma] at h
    split at h <;> exact absurd (List.forall_mem_singleton.1 h) (by decide)
  · rw [lowerChar] at h
    split at h
    · rename_i hdotted
      rw [eq_of_beq hdotted] at h
      exact absurd (h 'i' List.mem_cons_self) (by decide)
    · rename_i hdotted
      rw [Folds, lowerChar, if_neg hdotted, List.singleton_inj]
      exact toLower_smallLetter_iff.1 (h (smallLetter c) (List.mem_singleton_self _))

theorem foldCase_lowerAt_iff {before rest : List Char} :
    foldCase (lowerAt before c rest) = foldCase [c] ↔ Folds c := by
  constructor
  · intro h
    have hall : ∀ d ∈ lowerAt before c rest, d.toLower = c.toLower := by
      intro d hmem
      have hfolded : d.toLower ∈ foldCase [c] := h ▸ List.mem_map_of_mem hmem
      exact List.mem_singleton.1 hfolded
    exact folds_of_lowerAt hall
  · rintro (hascii | hsame)
    · have hfolded : (smallLetter c).toLower = c.toLower := toLower_smallLetter_iff.2 (Or.inl hascii)
      rw [smallLetter_of_isAscii hascii] at hfolded
      rw [lowerAt_of_isAscii hascii, foldCase, foldCase, List.map_singleton, List.map_singleton,
        hfolded]
    · have hsigma : ¬(c == '\u03A3') = true := by
        intro hsigma
        rw [eq_of_beq hsigma] at hsame
        exact absurd hsame (by decide +kernel)
      rw [lowerAt, if_neg hsigma, hsame]

/-! ### Texts -/

/-- A text that is ASCII once it is lower-cased has been lower-cased character by character. -/
theorem lowerAfter_eq_map {before : List Char} (h : ∀ c ∈ lowerAfter before text, IsAscii c) :
    lowerAfter before text = text.map smallLetter := by
  induction text generalizing before with
  | nil => rfl
  | cons c rest ih =>
      rw [lowerAfter_cons, List.forall_mem_append] at h
      rw [lowerAfter_cons, lowerAt_eq_smallLetter h.1, ih h.2, List.map_cons, List.singleton_append]

/-- An ASCII text is folded by the full mapping too. -/
theorem lowerAfter_of_isAscii {before : List Char} (h : ∀ c ∈ text, IsAscii c) :
    lowerAfter before text = foldCase text := by
  induction text generalizing before with
  | nil => rfl
  | cons c rest ih =>
      obtain ⟨hc, hrest⟩ := List.forall_mem_cons.1 h
      rw [lowerAfter_cons, lowerAt_of_isAscii hc, ih hrest]
      rfl

theorem lowerChars_eq_map (h : ∀ c ∈ lowerChars text, IsAscii c) :
    lowerChars text = text.map smallLetter := lowerAfter_eq_map h

/-- The texts that are ASCII once they are lower-cased. -/
theorem isAscii_of_lowerChars (h : ∀ c ∈ lowerChars text, IsAscii c) (hmem : c ∈ text) :
    IsAscii c ∨ c = kelvinSign := by
  refine isAscii_smallLetter_iff.1 (h _ ?_)
  rw [lowerChars_eq_map h]
  exact List.mem_map_of_mem hmem

/-- Folding takes such a text to the same one, unless it has a KELVIN SIGN. -/
theorem foldCase_eq_lowerChars_iff (h : ∀ c ∈ lowerChars text, IsAscii c) :
    foldCase text = lowerChars text ↔ kelvinSign ∉ text := by
  rw [lowerChars_eq_map h, foldCase, List.map_inj_left]
  constructor
  · intro hsame hmem
    have hk := hsame kelvinSign hmem
    rw [toLower_kelvinSign, smallLetter_kelvinSign] at hk
    exact absurd hk (by decide)
  · intro hout c hmem
    have hplain : c ≠ kelvinSign := by
      rintro rfl
      exact hout hmem
    have hascii : IsAscii c := (isAscii_of_lowerChars h hmem).resolve_right hplain
    exact (smallLetter_of_isAscii hascii).symm

theorem length_le_lowerAfter (before text : List Char) :
    text.length ≤ (lowerAfter before text).length := by
  induction text generalizing before with
  | nil => exact Nat.le_refl 0
  | cons c rest ih =>
      have hfirst := List.length_pos_iff.2 (lowerAt_ne_nil before c rest)
      have hrest := ih (c :: before)
      rw [lowerAfter_cons, List.length_append, List.length_cons]
      omega

/-- A text is folded in the same way before and after it is lower-cased, just if folding takes the case
away from all its characters. -/
theorem foldCase_lowerAfter_iff {before : List Char} :
    foldCase (lowerAfter before text) = foldCase text ↔ ∀ c ∈ text, Folds c := by
  induction text generalizing before with
  | nil => exact iff_of_true rfl (List.forall_mem_nil _)
  | cons c rest ih =>
      have hcons : foldCase (c :: rest) = foldCase [c] ++ foldCase rest := rfl
      rw [lowerAfter_cons, hcons, foldCase, List.map_append, ← foldCase, ← foldCase,
        List.forall_mem_cons]
      constructor
      · intro h
        -- No character became two, or the folded text would be longer.
        have hlength : (foldCase (lowerAt before c rest)).length = (foldCase [c]).length := by
          have hall := congrArg List.length h
          have hfirst := List.length_pos_iff.2 (lowerAt_ne_nil before c rest)
          have hrest := length_le_lowerAfter (c :: before) rest
          simp only [foldCase, List.length_append, List.length_map, List.length_singleton] at hall ⊢
          omega
        obtain ⟨hfirst, hrest⟩ := List.append_inj h hlength
        exact ⟨foldCase_lowerAt_iff.1 hfirst, ih.1 hrest⟩
      · rintro ⟨hfirst, hrest⟩
        rw [foldCase_lowerAt_iff.2 hfirst, ih.2 hrest]

end ServiceDesk.Text
