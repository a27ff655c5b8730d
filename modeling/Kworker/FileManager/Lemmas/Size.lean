import Kworker.FileManager.Index
import Mathlib.Tactic.Linarith
import Mathlib.Tactic.Positivity

/-!
# Sizes
-/

namespace Kworker.FileManager

open Kworker.Lib

variable {bytes dm i : Nat}

/-! ## The text -/

theorem digits_isDigit (n : Nat) : ∀ c ∈ Nat.toDigits 10 n, c.isDigit = true :=
  fun _ => Nat.isDigit_of_mem_toDigits (by decide) (by decide)

/-- The digits behind the point, before the zeros at their end are left out. -/
def padded (dm n : Nat) : List Char :=
  List.replicate (dm - (Nat.toDigits 10 n).length) '0' ++ Nat.toDigits 10 n

theorem padded_isDigit (dm n : Nat) : ∀ c ∈ padded dm n, c.isDigit = true := by
  intro c hc
  rcases List.mem_append.mp hc with hzero | hdigit
  · rw [List.eq_of_mem_replicate hzero]
    rfl
  · exact digits_isDigit n c hdigit

theorem padded_length (hdm : 0 < dm) {n : Nat} (hn : n < 10 ^ dm) : (padded dm n).length = dm := by
  have hle : (Nat.toDigits 10 n).length ≤ dm := (Nat.length_toDigits_le_iff (by decide) hdm).mpr hn
  rw [padded, List.length_append, List.length_replicate]
  omega

theorem decimalText_toList (hdm : 0 < dm) (n : Nat) :
    (decimalText dm n).toList = Nat.toDigits 10 (n / 10 ^ dm) ++ pointDigits (padded dm (n % 10 ^ dm)) := by
  have hne : dm ≠ 0 := hdm.ne'
  have hpadded : (String.ofList (List.replicate (dm - (Nat.toDigits 10 (n % 10 ^ dm)).length) '0') ++
      String.ofList (Nat.toDigits 10 (n % 10 ^ dm))).toList = padded dm (n % 10 ^ dm) := by
    rw [String.toList_append, String.toList_ofList, String.toList_ofList, padded]
  simp only [decimalText, String.length_ofList, hpadded, hne, false_or, String.toList_append,
    Nat.toString_eq_ofList_toDigits, String.toList_ofList]
  show _ ++ (if (padded dm (n % 10 ^ dm)).rdropWhile (· = '0') = [] then "" else _).toList = _
  unfold pointDigits
  by_cases hnil : (padded dm (n % 10 ^ dm)).rdropWhile (· = '0') = []
  · rw [if_pos hnil, if_pos hnil]
    rfl
  · rw [if_neg hnil, if_neg hnil, String.toList_append, String.toList_ofList, String.toList_ofList]
    rfl

theorem ofDigitChars_padded (hdm : 0 < dm) (n : Nat) :
    Nat.ofDigitChars 10 (Nat.toDigits 10 (n / 10 ^ dm) ++ padded dm (n % 10 ^ dm)) 0 = n := by
  have hmod : n % 10 ^ dm < 10 ^ dm := Nat.mod_lt _ (Nat.pow_pos (by decide))
  have hvalue : Nat.ofDigitChars 10 (padded dm (n % 10 ^ dm)) 0 = n % 10 ^ dm := by
    rw [padded, Nat.ofDigitChars_append, Nat.ofDigitChars_replicate_zero, Nat.mul_zero,
      Nat.ofDigitChars_ten_toDigits]
  rw [Nat.ofDigitChars_append, Nat.ofDigitChars_eq_ofDigitChars_zero, padded_length hdm hmod, hvalue,
    Nat.ofDigitChars_ten_toDigits, Nat.div_add_mod]

theorem readDecimal_decimalText (hdm : 0 < dm) (n : Nat) :
    readDecimal (decimalText dm n).toList = some ((n : ℚ) / 10 ^ dm) := by
  have hmod : n % 10 ^ dm < 10 ^ dm := Nat.mod_lt _ (Nat.pow_pos (by decide))
  rw [decimalText_toList hdm, readDecimal_pointDigits Nat.toDigits_ne_nil (digits_isDigit _)
    (padded_isDigit _ _), padded_length hdm hmod, ofDigitChars_padded hdm]

/-- There is no blank in a number. -/
theorem decimalText_ne_blank (hdm : 0 < dm) (n : Nat) : ∀ c ∈ (decimalText dm n).toList, c ≠ ' ' := by
  rintro c hc rfl
  rw [decimalText_toList hdm, List.mem_append] at hc
  rcases hc with hwhole | hfraction
  · cases digits_isDigit _ _ hwhole
  · simp only [pointDigits] at hfraction
    split_ifs at hfraction with hnil
    · cases hfraction
    · rcases List.mem_cons.mp hfraction with hpoint | hdigit
      · cases hpoint
      · cases padded_isDigit _ _ _ ((List.rdropWhile_prefix _ _).subset hdigit)

/-! ## The number and the unit -/

/-- The number of hundredths of the unit that `formatBytes` prints. -/
def hundredths (bytes : Nat) : Nat :=
  (2 * 100 * bytes + 1024 ^ Nat.log 1024 bytes) / (2 * 1024 ^ Nat.log 1024 bytes)

theorem find_unit : ∀ i < sizes.length,
    (sizes.findIdx? fun s => ' ' :: s.toList = ' ' :: (sizes.getD i "undefined").toList) = some i := by
  decide

theorem readSize_formatBytes (h0 : bytes ≠ 0) (hunit : Nat.log 1024 bytes < sizes.length) :
    readSize (formatBytes bytes) = some ((hundredths bytes : ℚ) / 100, Nat.log 1024 bytes) := by
  have hblank : ∀ c ∈ (decimalText 2 (hundredths bytes)).toList, c ≠ ' ' :=
    decimalText_ne_blank (by decide) (hundredths bytes)
  have htext : (formatBytes bytes).toList = (decimalText 2 (hundredths bytes)).toList ++
      ' ' :: (sizes.getD (Nat.log 1024 bytes) "undefined").toList := by
    simp only [formatBytes, if_neg h0, String.toList_append, List.append_assoc]
    rfl
  have htake : (formatBytes bytes).toList.takeWhile (· ≠ ' ') = (decimalText 2 (hundredths bytes)).toList := by
    rw [htext, List.takeWhile_append_of_pos (by simpa using hblank)]
    simp
  have hdrop : (formatBytes bytes).toList.dropWhile (· ≠ ' ') =
      ' ' :: (sizes.getD (Nat.log 1024 bytes) "undefined").toList := by
    rw [htext, List.dropWhile_append_of_pos (by simpa using hblank)]
    simp
  simp only [readSize, htake, hdrop]
  rw [readDecimal_decimalText (by decide), find_unit _ hunit]
  norm_num

/-! ## Rounding to hundredths -/

theorem hundredths_bounds (bytes : Nat) :
    2 * 1024 ^ Nat.log 1024 bytes * hundredths bytes ≤ 200 * bytes + 1024 ^ Nat.log 1024 bytes ∧
    200 * bytes + 1024 ^ Nat.log 1024 bytes < 2 * 1024 ^ Nat.log 1024 bytes * (hundredths bytes + 1) := by
  have hpos : 0 < 2 * 1024 ^ Nat.log 1024 bytes := by positivity
  exact ⟨Nat.mul_div_le _ _, Nat.lt_mul_div_succ _ hpos⟩

theorem hundredths_near (bytes : Nat) :
    |(hundredths bytes : ℚ) / 100 - bytes / 1024 ^ Nat.log 1024 bytes| ≤ 1 / 200 := by
  obtain ⟨hlow, hhigh⟩ := hundredths_bounds bytes
  have hlow : (2 * 1024 ^ Nat.log 1024 bytes * hundredths bytes : ℚ) ≤
      200 * bytes + 1024 ^ Nat.log 1024 bytes := by exact_mod_cast hlow
  have hhigh : (200 * bytes + 1024 ^ Nat.log 1024 bytes : ℚ) <
      2 * 1024 ^ Nat.log 1024 bytes * (hundredths bytes + 1) := by exact_mod_cast hhigh
  have hpos : (0 : ℚ) < 1024 ^ Nat.log 1024 bytes := by positivity
  generalize (1024 : ℚ) ^ Nat.log 1024 bytes = unit at hlow hhigh hpos ⊢
  rw [abs_le, div_sub_div _ _ (by norm_num) hpos.ne', le_div_iff₀ (by positivity), div_le_iff₀ (by positivity)]
  constructor
  · linarith
  · linarith

theorem one_le_hundredths (h0 : bytes ≠ 0) : 100 ≤ hundredths bytes := by
  have hle : 1024 ^ Nat.log 1024 bytes ≤ bytes := Nat.pow_log_le_self 1024 h0
  rw [hundredths, Nat.le_div_iff_mul_le (by positivity)]
  omega

theorem hundredths_lt_iff :
    hundredths bytes < 102400 ↔ 200 * bytes < 204799 * 1024 ^ Nat.log 1024 bytes := by
  rw [hundredths, Nat.div_lt_iff_lt_mul (by positivity)]
  omega

theorem below_band_iff :
    200 * bytes < 204799 * 1024 ^ Nat.log 1024 bytes ↔
      ∀ k, ¬(204799 * 1024 ^ k ≤ 200 * bytes ∧ bytes < 1024 ^ (k + 1)) := by
  constructor
  · rintro hlt k ⟨hband, hnext⟩
    have hle : 1024 ^ k ≤ bytes := by omega
    have hlog : Nat.log 1024 bytes = k := Nat.log_eq_of_pow_le_of_lt_pow hle hnext
    rw [hlog] at hlt
    omega
  · intro hband
    have hnext : bytes < 1024 ^ (Nat.log 1024 bytes + 1) := Nat.lt_pow_succ_log_self (by decide) bytes
    by_contra hlt
    exact hband _ ⟨not_lt.mp hlt, hnext⟩

theorem showsSize_iff (h0 : bytes ≠ 0) (hunit : Nat.log 1024 bytes < sizes.length) :
    ShowsSize bytes ↔ hundredths bytes < 102400 := by
  have hread := readSize_formatBytes h0 hunit
  have hone : (1 : ℚ) ≤ (hundredths bytes : ℚ) / 100 := by
    have hle : (100 : ℚ) ≤ hundredths bytes := by exact_mod_cast one_le_hundredths h0
    linarith
  have hlt : (hundredths bytes : ℚ) / 100 < 1024 ↔ hundredths bytes < 102400 := by
    rw [div_lt_iff₀ (by norm_num), ← Nat.cast_lt (α := ℚ)]
    norm_num
  constructor
  · rintro ⟨v, i, hv, _, hlow, _⟩
    rw [hread, Option.some.injEq, Prod.mk.injEq] at hv
    rw [← hv.1] at hlow
    exact hlt.mp hlow
  · intro hsmall
    exact ⟨_, _, hread, hone, hlt.mpr hsmall, hundredths_near bytes⟩

end Kworker.FileManager
