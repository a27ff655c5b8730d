import Mathlib.Data.List.DropRight
import Mathlib.Data.Rat.Cast.Order
import Mathlib.Tactic.FieldSimp
import Mathlib.Tactic.Ring

/-!
# Decimal numbers as text
-/

namespace Kworker.Lib

variable {whole fraction digits : List Char}

/-- The value of a number without a sign: digits, and maybe a point and more digits. -/
def readDecimal (text : List Char) : Option ℚ :=
  let whole := text.takeWhile Char.isDigit
  match text.dropWhile Char.isDigit with
  | [] => if whole = [] then none else some (Nat.ofDigitChars 10 whole 0 : ℚ)
  | point :: fraction =>
      if point = '.' ∧ whole ≠ [] ∧ fraction ≠ [] ∧ fraction.all Char.isDigit = true then
        some ((Nat.ofDigitChars 10 (whole ++ fraction) 0 : ℚ) / 10 ^ fraction.length)
      else none

/-- Digits behind a point, which is left out with them when they are all zeros. -/
def pointDigits (digits : List Char) : List Char :=
  let fraction := digits.rdropWhile (· = '0')
  if fraction = [] then [] else '.' :: fraction

theorem readDecimal_whole (hne : whole ≠ []) (hw : ∀ c ∈ whole, c.isDigit = true) :
    readDecimal whole = some (Nat.ofDigitChars 10 whole 0 : ℚ) := by
  have htake : whole.takeWhile Char.isDigit = whole := List.takeWhile_eq_self_iff.mpr hw
  have hdrop : whole.dropWhile Char.isDigit = [] := List.dropWhile_eq_nil_iff.mpr hw
  simp only [readDecimal, htake, hdrop, if_neg hne]

theorem readDecimal_point (hne : whole ≠ []) (hw : ∀ c ∈ whole, c.isDigit = true)
    (hfne : fraction ≠ []) (hf : ∀ c ∈ fraction, c.isDigit = true) :
    readDecimal (whole ++ '.' :: fraction) =
      some ((Nat.ofDigitChars 10 (whole ++ fraction) 0 : ℚ) / 10 ^ fraction.length) := by
  have htake : (whole ++ '.' :: fraction).takeWhile Char.isDigit = whole := by
    rw [List.takeWhile_append_of_pos hw]
    simp
  have hdrop : (whole ++ '.' :: fraction).dropWhile Char.isDigit = '.' :: fraction := by
    rw [List.dropWhile_append_of_pos hw]
    simp
  have hall : fraction.all Char.isDigit = true := List.all_eq_true.mpr hf
  simp [readDecimal, htake, hdrop, hne, hfne, hall]

/-- The zeros at the end do not count. -/
theorem ofDigitChars_rdropWhile (whole digits : List Char) :
    (Nat.ofDigitChars 10 (whole ++ digits) 0 : ℚ) / 10 ^ digits.length =
      Nat.ofDigitChars 10 (whole ++ digits.rdropWhile (· = '0')) 0 /
        10 ^ (digits.rdropWhile (· = '0')).length := by
  have hzeros : digits.rtakeWhile (· = '0') =
      List.replicate (digits.rtakeWhile (· = '0')).length '0' :=
    List.eq_replicate_of_mem fun c hc => by simpa using List.mem_rtakeWhile_imp hc
  have hsplit := List.rdropWhile_append_rtakeWhile (p := (· = '0')) (l := digits)
  generalize digits.rdropWhile (· = '0') = fraction at hsplit ⊢
  generalize (digits.rtakeWhile (· = '0')).length = n at hzeros
  rw [← hsplit, hzeros, ← List.append_assoc, Nat.ofDigitChars_append, Nat.ofDigitChars_replicate_zero,
    List.length_append, List.length_replicate, pow_add]
  push_cast
  field_simp

theorem readDecimal_pointDigits (hne : whole ≠ []) (hw : ∀ c ∈ whole, c.isDigit = true)
    (hd : ∀ c ∈ digits, c.isDigit = true) :
    readDecimal (whole ++ pointDigits digits) =
      some ((Nat.ofDigitChars 10 (whole ++ digits) 0 : ℚ) / 10 ^ digits.length) := by
  have hvalue := ofDigitChars_rdropWhile whole digits
  simp only [pointDigits]
  split_ifs with hnil
  · rw [hvalue, hnil, List.append_nil, readDecimal_whole hne hw]
    simp
  · have hf : ∀ c ∈ digits.rdropWhile (· = '0'), c.isDigit = true :=
      fun c hc => hd c ((List.rdropWhile_prefix _ _).subset hc)
    rw [hvalue, readDecimal_point hne hw hnil hf]

end Kworker.Lib
