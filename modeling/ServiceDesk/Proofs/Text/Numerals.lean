import ServiceDesk.Uuid

/-!
Numerals of fixed width read back: the last digits of a number, written in base ten or sixteen, are
read as that number if it has no more digits. The written form of an identifier is such a numeral
with hyphens in it, so every identifier reads back from its own text and from no other's.
-/

namespace ServiceDesk.Text

theorem isAsciiDigit_decimalDigit {value : Nat} (h : value < 10) :
    isAsciiDigit (decimalDigit value) = true := by
  have hall : ∀ v : Fin 10, isAsciiDigit (decimalDigit v.val) = true := by decide
  exact hall ⟨value, h⟩

theorem toNat_decimalDigit {value : Nat} (h : value < 10) :
    (decimalDigit value).toNat - 48 = value := by
  have hall : ∀ v : Fin 10, (decimalDigit v.val).toNat - 48 = v.val := by decide
  exact hall ⟨value, h⟩

theorem all_isAsciiDigit_decimal (width value : Nat) :
    (decimal width value).all isAsciiDigit = true := by
  induction width generalizing value with
  | zero => rfl
  | succ width ih =>
      rw [decimal, List.all_append, ih]
      simp [isAsciiDigit_decimalDigit (Nat.mod_lt value (by decide))]

theorem ofDecimalDigits_decimal (width value : Nat) (h : value < Nat.pow 10 width) :
    ofDecimalDigits (decimal width value) = value := by
  induction width generalizing value with
  | zero =>
      have hzero : value = 0 := Nat.lt_one_iff.1 h
      simp [hzero, decimal, ofDecimalDigits]
  | succ width ih =>
      have hhead : value / 10 < Nat.pow 10 width :=
        (Nat.div_lt_iff_lt_mul (by decide)).2 h
      have hlead := ih (value / 10) hhead
      rw [ofDecimalDigits] at hlead
      rw [ofDecimalDigits, decimal, List.foldl_append, hlead]
      simp only [List.foldl_cons, List.foldl_nil, toNat_decimalDigit (Nat.mod_lt value (by decide))]
      omega

/-- A numeral of the right width is read off the front of a text. -/
theorem takeDecimal_decimal (width value : Nat) (rest : List Char) (h : value < Nat.pow 10 width) :
    takeDecimal width (decimal width value ++ rest) = some (value, rest) := by
  have hlength := length_decimal width value
  have htake : (decimal width value ++ rest).take width = decimal width value := by
    rw [List.take_append_of_le_length (by omega), List.take_of_length_le (by omega)]
  have hdrop : (decimal width value ++ rest).drop width = rest := by
    rw [List.drop_append_of_le_length (by omega), List.drop_of_length_le (by omega), List.nil_append]
  rw [takeDecimal, htake, hdrop, if_pos ⟨hlength, all_isAsciiDigit_decimal width value⟩,
    ofDecimalDigits_decimal width value h]

theorem natOfHexadecimal?_hexadecimal (width value : Nat) (h : value < Nat.pow 16 width) :
    natOfHexadecimal? (hexadecimal width value) = some value := by
  induction width generalizing value with
  | zero =>
      have hzero : value = 0 := Nat.lt_one_iff.1 h
      rw [hzero]
      rfl
  | succ width ih =>
      have hhead : value / 16 < Nat.pow 16 width :=
        (Nat.div_lt_iff_lt_mul (by decide)).2 h
      have hlead := ih (value / 16) hhead
      rw [natOfHexadecimal?] at hlead
      rw [natOfHexadecimal?, hexadecimal, List.foldlM_append, hlead]
      simp only [List.foldlM_cons, List.foldlM_nil, Option.bind_eq_bind, Option.bind_some,
        hexValue?_hexDigit (Nat.mod_lt value (by decide)), Option.map_some, Option.pure_def,
        Option.some.injEq]
      omega

end ServiceDesk.Text

namespace ServiceDesk.Uuid

open Text

theorem length_hyphenate {digits : List Char} (h : digits.length = 32) :
    (hyphenate digits).length = 36 := by
  simp [hyphenate, h]

theorem withoutHyphens?_hyphenate {digits : List Char} (h : digits.length = 32) :
    withoutHyphens? (hyphenate digits) = some digits := by
  have hmarks : [8, 13, 18, 23].all (fun i => (hyphenate digits)[i]? == some '-') = true := by
    simp [hyphenate, List.getElem?_append, h]
  have hgroups : digits.take 8 ++ ((digits.drop 8).take 4 ++ ((digits.drop 12).take 4 ++
      ((digits.drop 16).take 4 ++ digits.drop 20))) = digits := by
    have hrest : ∀ n, (digits.drop n).take 4 ++ digits.drop (n + 4) = digits.drop n := by
      intro n
      rw [← List.drop_drop, List.take_append_drop]
    rw [hrest 16, hrest 12, hrest 8, List.take_append_drop]
  rw [withoutHyphens?, if_pos ⟨length_hyphenate h, hmarks⟩, Option.some.injEq]
  refine Eq.trans ?_ hgroups
  simp [hyphenate, List.drop_append, List.drop_take, h]

theorem ofText?_text (id : Uuid) : ofText? id.text = some id := by
  have hdigits := length_hexadecimal 32 id.value
  have hlength : id.chars.length = 36 := length_hyphenate hdigits
  rw [ofText?, text, String.toList_ofList, ofChars?, if_neg (by omega), if_pos hlength, ofHyphenated?,
    chars, withoutHyphens?_hyphenate hdigits, Option.bind_some, ofSimple?, if_pos hdigits,
    natOfHexadecimal?_hexadecimal 32 id.value id.value_lt, Option.bind_some, ofNat?,
    dif_pos id.value_lt]

theorem text_injective {a b : Uuid} (h : a.text = b.text) : a = b := by
  have hread := ofText?_text a
  rw [h, ofText?_text b] at hread
  exact (Option.some.inj hread).symm

@[simp]
theorem text_inj {a b : Uuid} : a.text = b.text ↔ a = b :=
  ⟨text_injective, fun h => h ▸ rfl⟩

theorem map_text_injective : Function.Injective (Option.map text) :=
  Option.map_injective fun _ _ => text_injective

@[simp]
theorem text_beq_text (a b : Uuid) : (a.text == b.text) = decide (a = b) := by
  rw [Bool.eq_iff_iff, beq_iff_eq, decide_eq_true_eq, text_inj]

end ServiceDesk.Uuid
