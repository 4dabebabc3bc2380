/-!
Operations that know the letters A to Z only: case is folded for these letters and every other
character stands for itself.
-/

namespace ServiceDesk.Text

/-- Fold A to Z to a to z, and keep every other character. -/
def foldCase (text : List Char) : List Char := text.map Char.toLower

def sameFolded (a b : String) : Bool := foldCase a.toList == foldCase b.toList

def occursIn (needle : List Char) : List Char → Bool
  | [] => needle.isEmpty
  | c :: rest => needle.isPrefixOf (c :: rest) || occursIn needle rest

/-- Whether `needle` occurs in `text` up to the case of the letters A to Z. -/
def containsFolded (text needle : String) : Bool :=
  occursIn (foldCase needle.toList) (foldCase text.toList)

def isAsciiDigit (c : Char) : Bool := decide ('0' ≤ c) && decide (c ≤ '9')

def isAsciiLower (c : Char) : Bool := decide ('a' ≤ c) && decide (c ≤ 'z')

/-- The value of a hexadecimal digit of either case. -/
def hexValue? (c : Char) : Option Nat :=
  if '0' ≤ c ∧ c ≤ '9' then some (c.toNat - 48)
  else if 'a' ≤ c ∧ c ≤ 'f' then some (c.toNat - 87)
  else if 'A' ≤ c ∧ c ≤ 'F' then some (c.toNat - 55)
  else none

def hexDigit (value : Nat) : Char :=
  if value < 10 then Char.ofNat (48 + value) else Char.ofNat (87 + value)

theorem occursIn_iff {needle text : List Char} :
    occursIn needle text = true ↔ needle <:+: text := by
  induction text with
  | nil => simp [occursIn]
  | cons c rest ih =>
    rw [occursIn, Bool.or_eq_true, ih, List.isPrefixOf_iff_prefix, List.infix_cons_iff]

theorem hexValue?_hexDigit {value : Nat} (h : value < 16) :
    hexValue? (hexDigit value) = some value := by
  have : ∀ v : Fin 16, hexValue? (hexDigit v.val) = some v.val := by decide
  exact this ⟨value, h⟩

end ServiceDesk.Text
