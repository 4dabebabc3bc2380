import ServiceDesk.Proofs.Text.NormalForms

/-!
Trimming and lower-casing one after the other. Blanks have no case, a character that is not blank
does not become blank when it is lower-cased, and the blanks around a word do not decide whether a
capital sigma ends it. So it does not matter which of the two comes first.
-/

namespace ServiceDesk.Text

variable {c : Char} {before text blanks : List Char}

/-! ### One character -/

/-- What holds of the characters of all blank codes holds of the blanks. -/
theorem isBlank_induction {P : Char → Prop}
    (h : ∀ range ∈ blankRanges, ∀ code ∈ List.range' range.1 (range.2 + 1 - range.1),
      P (Char.ofNat code)) (hc : isBlank c = true) : P c := by
  obtain ⟨range, hrange, hfirst, hlast⟩ := Ranges.has_iff.1 hc
  have hcode : c.toNat ∈ List.range' range.1 (range.2 + 1 - range.1) := by
    rw [List.mem_range'_1]
    omega
  have hchar := h range hrange c.toNat hcode
  rwa [Char.ofNat_toNat] at hchar

/-- A blank is not cased and not skipped as case-ignorable, and lower-casing leaves it as it is. -/
theorem caseless_of_isBlank (h : isBlank c = true) :
    isCaseIgnorable c = false ∧ isCased c = false ∧ ¬(c == '\u03A3') = true ∧ lowerChar c = [c] :=
  isBlank_induction (P := fun c => isCaseIgnorable c = false ∧ isCased c = false ∧
    ¬(c == '\u03A3') = true ∧ lowerChar c = [c]) (by decide +kernel) h

/-- The small letters of a run of capitals are not blank. -/
theorem caseRuns_not_blank : ∀ run ∈ caseRuns, ∀ range ∈ blankRanges,
    ((run.last : Int) + run.offset).toNat < range.1 ∨
      range.2 < ((run.first : Int) + run.offset).toNat := by
  decide +kernel

theorem isBlank_ofNat {code : Nat} (h : isBlank (Char.ofNat code) = true) :
    ∃ range ∈ blankRanges, range.1 ≤ code ∧ code ≤ range.2 := by
  by_cases hvalid : code.isValidChar
  · have hrange := Ranges.has_iff.1 h
    rwa [toNat_ofNat_of_valid hvalid] at hrange
  · rw [Char.ofNat, dif_neg hvalid] at h
    exact absurd h (by decide)

theorem not_isBlank_smallLetter (h : isBlank c = false) : isBlank (smallLetter c) = false := by
  rw [smallLetter]
  split
  · rename_i run hfind
    have hhas := List.find?_some hfind
    simp only [CaseRun.has, Bool.and_eq_true, decide_eq_true_eq] at hhas
    rw [Bool.eq_false_iff]
    intro hblank
    obtain ⟨range, hrange, hleast, hmost⟩ := isBlank_ofNat hblank
    have hapart := caseRuns_not_blank run (List.mem_of_find?_eq_some hfind) range hrange
    omega
  · exact h

theorem not_isBlank_of_mem_lowerAt {rest : List Char} (h : isBlank c = false) :
    ∀ d ∈ lowerAt before c rest, isBlank d = false := by
  rw [lowerAt]
  split
  · refine List.forall_mem_singleton.2 ?_
    split <;> decide
  · rw [lowerChar]
    split
    · exact List.forall_mem_cons.2 ⟨by decide, List.forall_mem_singleton.2 (by decide)⟩
    · exact List.forall_mem_singleton.2 (not_isBlank_smallLetter h)

/-! ### The blanks around a word -/

/-- Blanks behind the rest of a text do not change whether a cased character comes first. -/
theorem meetsCased_append (h : ∀ c ∈ blanks, isBlank c = true) :
    meetsCased (text ++ blanks) = meetsCased text := by
  induction text with
  | nil =>
      cases blanks with
      | nil => rfl
      | cons b blanks =>
          obtain ⟨hignored, hcased, _⟩ := caseless_of_isBlank (h b List.mem_cons_self)
          simp [meetsCased, hignored, hcased]
  | cons c text ih =>
      simp only [meetsCased] at ih ⊢
      cases hignored : isCaseIgnorable c with
      | true =>
          rw [List.cons_append, List.dropWhile_cons_of_pos hignored,
            List.dropWhile_cons_of_pos hignored, ih]
      | false => simp [hignored]

/-- Blanks far before a text do not change how it is lower-cased. -/
theorem lowerAfter_append_before (before : List Char) (h : ∀ c ∈ blanks, isBlank c = true) :
    lowerAfter (before ++ blanks) text = lowerAfter before text := by
  induction text generalizing before with
  | nil => rfl
  | cons c text ih =>
      have hword : lowerAt (before ++ blanks) c text = lowerAt before c text := by
        rw [lowerAt, lowerAt, endsWord, meetsCased_append h, ← endsWord]
      rw [lowerAfter_cons, lowerAfter_cons, hword, ← List.cons_append, ih]

theorem lowerAfter_blank (h : isBlank c = true) :
    lowerAfter before (c :: text) = c :: lowerAfter (c :: before) text := by
  obtain ⟨_, _, hsigma, hlower⟩ := caseless_of_isBlank h
  rw [lowerAfter, if_neg hsigma, hlower, List.singleton_append]

/-- A blank behind a text is not changed and does not change the text. -/
theorem lowerAfter_concat_blank (h : isBlank c = true) :
    lowerAfter before (text ++ [c]) = lowerAfter before text ++ [c] := by
  induction text generalizing before with
  | nil => exact lowerAfter_blank h
  | cons d text ih =>
      have hword : lowerAt before d (text ++ [c]) = lowerAt before d text := by
        rw [lowerAt, lowerAt, endsWord, meetsCased_append (List.forall_mem_singleton.2 h),
          ← endsWord]
      rw [List.cons_append, lowerAfter_cons, lowerAfter_cons, hword, ih, List.append_assoc]

/-- A text is lower-cased part by part, the later part after the earlier one. -/
theorem exists_lowerAfter_append (before text more : List Char) : ∃ front,
    lowerAfter before (text ++ more) = front ++ lowerAfter (text.reverse ++ before) more := by
  induction text generalizing before with
  | nil => exact ⟨[], rfl⟩
  | cons c text ih =>
      obtain ⟨front, hfront⟩ := ih (c :: before)
      refine ⟨lowerAt before c (text ++ more) ++ front, ?_⟩
      rw [List.cons_append, lowerAfter_cons, hfront, List.reverse_cons, List.append_assoc,
        List.append_assoc, List.singleton_append]

/-! ### Trimming -/

/-- After nothing but blanks the first blanks can be dropped before or after lower-casing. -/
theorem dropWhile_lowerAfter (h : ∀ c ∈ before, isBlank c = true) :
    (lowerAfter before text).dropWhile isBlank = lowerChars (text.dropWhile isBlank) := by
  induction text generalizing before with
  | nil => rfl
  | cons c text ih =>
      cases hblank : isBlank c with
      | true =>
          rw [lowerAfter_blank hblank, List.dropWhile_cons_of_pos hblank,
            List.dropWhile_cons_of_pos hblank, ih (List.forall_mem_cons.2 ⟨hblank, h⟩)]
      | false =>
          have hstart : lowerAfter before (c :: text) = lowerChars (c :: text) :=
            lowerAfter_append_before [] h
          rw [List.dropWhile_cons_of_neg (by simp [hblank]), hstart, List.dropWhile_eq_self_iff,
            lowerChars, lowerAfter_cons]
          intro _
          rw [List.getElem_append_left (List.length_pos_iff.2 (lowerAt_ne_nil [] c text)),
            not_isBlank_of_mem_lowerAt hblank _ (List.getElem_mem _)]
          decide

/-- The last blanks can be dropped before or after lower-casing. -/
theorem rdropWhile_lowerAfter (text : List Char) : (lowerAfter before text).rdropWhile isBlank =
    lowerAfter before (text.rdropWhile isBlank) := by
  induction text using List.reverseRecOn with
  | nil => rfl
  | append_singleton text c ih =>
      cases hblank : isBlank c with
      | true =>
          rw [lowerAfter_concat_blank hblank, List.rdropWhile_concat_pos _ _ _ hblank,
            List.rdropWhile_concat_pos _ _ _ hblank, ih]
      | false =>
          obtain ⟨front, hfront⟩ := exists_lowerAfter_append before text [c]
          rw [List.rdropWhile_concat_neg _ _ _ (by simp [hblank]), List.rdropWhile_eq_self_iff,
            hfront, lowerAfter_cons, lowerAfter, List.append_nil]
          intro hne
          rw [List.getLast_append_of_ne_nil _ (lowerAt_ne_nil _ c []),
            not_isBlank_of_mem_lowerAt hblank _ (List.getLast_mem _)]
          decide

/-- Trimming a text that was lower-cased is to lower-case the trimmed text. -/
theorem trimChars_lowerChars (text : List Char) :
    trimChars (lowerChars text) = lowerChars (trimChars text) := by
  calc trimChars (lowerChars text)
      = ((lowerChars text).dropWhile isBlank).rdropWhile isBlank := rfl
    _ = (lowerChars (text.dropWhile isBlank)).rdropWhile isBlank := by
        rw [lowerChars, dropWhile_lowerAfter (List.forall_mem_nil _)]
    _ = lowerChars (trimChars text) := rdropWhile_lowerAfter _

theorem trim_lowercase (text : String) : trim (lowercase text) = lowercase (trim text) := by
  rw [trim, toList_lowercase, trimChars_lowerChars, lowercase, toList_trim]

end ServiceDesk.Text
