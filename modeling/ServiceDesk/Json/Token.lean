import ServiceDesk.Json.Basic
import ServiceDesk.Text.Digits

/-!
JSON text as tokens. A text that stops being JSON in the middle still has the tokens before that
point, followed by one faulty token, so that a reader who goes from left to right meets the faults
in the order in which they stand. A string whose escapes or bytes do not write characters is a token
too: it may be skipped but not read.
-/

namespace ServiceDesk.Json

open Text

inductive Token where
  | openBrace
  | closeBrace
  | openBracket
  | closeBracket
  | colon
  | comma
  | null
  | bool (value : Bool)
  | number (value : Number)
  /-- A string, without a value where an escaped surrogate has no partner or bytes are ill-formed. -/
  | text (value : Option String)
  /-- No token can be read here, and nothing after it is looked at. -/
  | fault
  deriving DecidableEq, Repr

/-- A part of a text: a character, or none for bytes that write no character. -/
abbrev Glyph := Option Char

/-- A part of a string: a character, a sixteen-bit unit given by its number, or ill-formed bytes. -/
inductive Piece where
  | char (c : Char)
  | unit (value : Nat)
  | illFormed
  deriving DecidableEq, Repr

def isGap (c : Char) : Bool := c == ' ' || c == '\n' || c == '\t' || c == '\r'

def escaped? : Char → Option Char
  | '\x22' => some '\x22'
  | '\x5c' => some '\x5c'
  | '/' => some '/'
  | 'b' => some '\x08'
  | 'f' => some '\x0c'
  | 'n' => some '\n'
  | 'r' => some '\r'
  | 't' => some '\t'
  | _ => none

def unitOf? (a b c d : Char) : Option Nat := do
  let a ← hexValue? a
  let b ← hexValue? b
  let c ← hexValue? c
  let d ← hexValue? d
  return a * 4096 + b * 256 + c * 16 + d

/-- The parts of a string up to its closing quote, and the text after it. -/
def takePieces : List Glyph → Option (List Piece × List Glyph)
  | [] => none
  | some '\x22' :: rest => some ([], rest)
  | some '\x5c' :: some 'u' :: some a :: some b :: some c :: some d :: rest => do
    let unit ← unitOf? a b c d
    let (pieces, after) ← takePieces rest
    return (.unit unit :: pieces, after)
  | some '\x5c' :: some e :: rest => do
    let c ← escaped? e
    let (pieces, after) ← takePieces rest
    return (.char c :: pieces, after)
  | none :: rest => do
    let (pieces, after) ← takePieces rest
    return (.illFormed :: pieces, after)
  | some c :: rest =>
    if c.toNat < 0x20 ∨ c = '\x5c' then none
    else do
      let (pieces, after) ← takePieces rest
      return (.char c :: pieces, after)

def isHighSurrogate (unit : Nat) : Bool := decide (0xD800 ≤ unit) && decide (unit ≤ 0xDBFF)

def isLowSurrogate (unit : Nat) : Bool := decide (0xDC00 ≤ unit) && decide (unit ≤ 0xDFFF)

/-- Join surrogate units in pairs. A surrogate without its partner has no character, and neither have
ill-formed bytes. -/
def joinPieces : List Piece → Option (List Char)
  | [] => some []
  | .char c :: rest => (joinPieces rest).map (c :: ·)
  | .illFormed :: _ => none
  | .unit high :: .unit low :: rest =>
    if isHighSurrogate high then
      if isLowSurrogate low then
        (joinPieces rest).map
          (Char.ofNat (0x10000 + (high - 0xD800) * 0x400 + (low - 0xDC00)) :: ·)
      else none
    else if isLowSurrogate high then none
    else (joinPieces (.unit low :: rest)).map (Char.ofNat high :: ·)
  | .unit value :: rest =>
    if isHighSurrogate value ∨ isLowSurrogate value then none
    else (joinPieces rest).map (Char.ofNat value :: ·)

def isDigit (glyph : Glyph) : Bool := glyph.any isAsciiDigit

/-- The digits at the front of a text and what follows them; there must be one. -/
def takeDigits? (text : List Glyph) : Option (List Char × List Glyph) :=
  if (text.takeWhile isDigit).isEmpty then none
  else some ((text.takeWhile isDigit).filterMap id, text.dropWhile isDigit)

def takeFraction? : List Glyph → Option (List Char × List Glyph)
  | some '.' :: rest => takeDigits? rest
  | rest => some ([], rest)

def takeExponent? : List Glyph → Option (Option Int × List Glyph)
  | glyph :: rest =>
    if glyph = some 'e' ∨ glyph = some 'E' then
      match rest with
      | some '-' :: digits =>
        (takeDigits? digits).map fun (d, r) => (some (-(ofDecimalDigits d : Int)), r)
      | some '+' :: digits =>
        (takeDigits? digits).map fun (d, r) => (some (ofDecimalDigits d : Int), r)
      | digits => (takeDigits? digits).map fun (d, r) => (some (ofDecimalDigits d : Int), r)
    else some (none, glyph :: rest)
  | [] => some (none, [])

/-- A number behind its sign. Only zero itself begins with the digit zero. -/
def takeNumber? (negative : Bool) (text : List Glyph) : Option (Number × List Glyph) := do
  let (whole, rest) ← takeDigits? text
  if whole.head? = some '0' ∧ whole.length ≠ 1 then none
  let (fraction, rest) ← takeFraction? rest
  let (exponent, rest) ← takeExponent? rest
  return (⟨negative, ofDecimalDigits (whole ++ fraction), exponent.getD 0 - fraction.length,
    fraction.isEmpty && exponent.isNone⟩, rest)

theorem length_of_takePieces {text rest : List Glyph} {pieces : List Piece}
    (h : takePieces text = some (pieces, rest)) : rest.length ≤ text.length := by
  fun_induction takePieces text generalizing pieces rest with
  | case1 => simp at h
  | case2 rest' => simp_all
  | case3 a b c d rest' ih =>
    simp only [Option.bind_eq_bind, Option.bind_eq_some_iff, Option.pure_def, Option.some.injEq,
      Prod.mk.injEq] at h
    obtain ⟨unit, _, ⟨pieces', after⟩, hp, _, rfl⟩ := h
    have := ih hp
    simp only [List.length_cons]
    omega
  | case4 e rest' _ ih =>
    simp only [Option.bind_eq_bind, Option.bind_eq_some_iff, Option.pure_def, Option.some.injEq,
      Prod.mk.injEq] at h
    obtain ⟨c, _, ⟨pieces', after⟩, hp, _, rfl⟩ := h
    have := ih hp
    simp only [List.length_cons]
    omega
  | case5 rest' ih =>
    simp only [Option.bind_eq_bind, Option.bind_eq_some_iff, Option.pure_def, Option.some.injEq,
      Prod.mk.injEq] at h
    obtain ⟨⟨pieces', after⟩, hp, _, rfl⟩ := h
    have := ih hp
    simp only [List.length_cons]
    omega
  | case6 => simp at h
  | case7 c rest' _ _ _ _ ih =>
    simp only [Option.bind_eq_bind, Option.bind_eq_some_iff, Option.pure_def, Option.some.injEq,
      Prod.mk.injEq] at h
    obtain ⟨⟨pieces', after⟩, hp, _, rfl⟩ := h
    have := ih hp
    simp only [List.length_cons]
    omega

theorem length_of_takeDigits? {text rest : List Glyph} {digits : List Char}
    (h : takeDigits? text = some (digits, rest)) : rest.length < text.length := by
  unfold takeDigits? at h
  split at h
  · simp at h
  · rename_i hne
    simp only [Option.some.injEq, Prod.mk.injEq] at h
    obtain ⟨rfl, rfl⟩ := h
    have hsum := congrArg List.length
      (List.takeWhile_append_dropWhile (p := isDigit) (l := text))
    have hpos : 0 < (text.takeWhile isDigit).length := by
      rw [List.length_pos_iff]
      simpa using hne
    rw [List.length_append] at hsum
    omega

theorem length_of_takeFraction? {text rest : List Glyph} {digits : List Char}
    (h : takeFraction? text = some (digits, rest)) : rest.length ≤ text.length := by
  unfold takeFraction? at h
  split at h
  · have := length_of_takeDigits? h
    simp only [List.length_cons]
    omega
  · simp only [Option.some.injEq, Prod.mk.injEq] at h
    exact h.2 ▸ Nat.le_refl _

theorem length_of_takeExponent? {text rest : List Glyph} {exponent : Option Int}
    (h : takeExponent? text = some (exponent, rest)) : rest.length ≤ text.length := by
  unfold takeExponent? at h
  split at h
  · rename_i c text
    split at h
    · split at h <;>
      · rw [Option.map_eq_some_iff] at h
        obtain ⟨⟨digits, after⟩, hd, hr⟩ := h
        have := length_of_takeDigits? hd
        simp only [Prod.mk.injEq] at hr
        obtain ⟨_, rfl⟩ := hr
        simp only [List.length_cons] at this ⊢
        omega
    · simp only [Option.some.injEq, Prod.mk.injEq] at h
      exact h.2 ▸ Nat.le_refl _
  · simp_all

theorem length_of_takeNumber? {negative : Bool} {text rest : List Glyph} {number : Number}
    (h : takeNumber? negative text = some (number, rest)) : rest.length < text.length := by
  simp only [takeNumber?, Option.bind_eq_bind, Option.bind_eq_some_iff] at h
  obtain ⟨⟨whole, afterWhole⟩, hw, h⟩ := h
  split at h
  · simp at h
  · simp only [Option.pure_def, Option.bind_eq_some_iff, Option.some.injEq,
      Prod.mk.injEq] at h
    obtain ⟨⟨fraction, afterFraction⟩, hf, ⟨exponent, afterExponent⟩, he, _, rfl⟩ := h
    have := length_of_takeDigits? hw
    have := length_of_takeFraction? hf
    have := length_of_takeExponent? he
    simp only at *
    omega

def takeToken (c : Char) (rest : List Glyph) : Token × List Glyph :=
  match c, rest with
  | '\x7b', rest => (.openBrace, rest)
  | '\x7d', rest => (.closeBrace, rest)
  | '[', rest => (.openBracket, rest)
  | ']', rest => (.closeBracket, rest)
  | ':', rest => (.colon, rest)
  | ',', rest => (.comma, rest)
  | 'n', some 'u' :: some 'l' :: some 'l' :: rest => (.null, rest)
  | 't', some 'r' :: some 'u' :: some 'e' :: rest => (.bool true, rest)
  | 'f', some 'a' :: some 'l' :: some 's' :: some 'e' :: rest => (.bool false, rest)
  | '\x22', rest =>
    match takePieces rest with
    | some (pieces, after) => (.text ((joinPieces pieces).map String.ofList), after)
    | none => (.fault, [])
  | '-', rest =>
    match takeNumber? true rest with
    | some (numeral, after) => (.number numeral, after)
    | none => (.fault, [])
  | c, rest =>
    match takeNumber? false (some c :: rest) with
    | some (numeral, after) => (.number numeral, after)
    | none => (.fault, [])

theorem length_takeToken_le (c : Char) (rest : List Glyph) :
    (takeToken c rest).2.length ≤ rest.length := by
  fun_cases takeToken c rest with
  | case1 => exact Nat.le_refl _
  | case2 => exact Nat.le_refl _
  | case3 => exact Nat.le_refl _
  | case4 => exact Nat.le_refl _
  | case5 => exact Nat.le_refl _
  | case6 => exact Nat.le_refl _
  | case7 after => exact Nat.le_add_right after.length 3
  | case8 after => exact Nat.le_add_right after.length 3
  | case9 after => exact Nat.le_add_right after.length 4
  | case10 _ pieces after htext => exact length_of_takePieces htext
  | case11 => exact Nat.zero_le _
  | case12 _ numeral after hnumber => exact Nat.le_of_lt (length_of_takeNumber? hnumber)
  | case13 => exact Nat.zero_le _
  | case14 =>
      rename_i hnumber
      exact Nat.le_of_lt_succ (length_of_takeNumber? hnumber)
  | case15 => exact Nat.zero_le _

/-- The tokens of a text, up to its end or to the first fault. -/
def tokens : List Glyph → List Token
  | [] => []
  | none :: _ => [.fault]
  | some c :: rest =>
    if isGap c then tokens rest
    else
      let next := takeToken c rest
      if next.1 = .fault then [.fault] else next.1 :: tokens next.2
  termination_by text => text.length
  decreasing_by
    · simp
    · exact Nat.lt_succ_of_le (length_takeToken_le c rest)

end ServiceDesk.Json
