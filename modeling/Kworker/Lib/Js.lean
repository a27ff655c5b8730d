import Mathlib.Algebra.Order.Field.Rat
import Mathlib.Data.Int.Log
import Mathlib.Data.List.DropRight
import Mathlib.Data.Rat.Floor

/-!
# Strings and numbers of JavaScript

A string is the list of its UTF-16 code units. A number is its exact value or an infinity; that
values in the range of a double are rounded to one is not modelled, and NaN is `none`.
-/

namespace Kworker.Lib

/-! ## Strings -/

abbrev JsString := List UInt16

/-- Given once, so that every test for membership in a list of texts is the same term. -/
instance : LawfulBEq JsString := List.instLawfulBEq

/-- A literal whose characters are one code unit each. -/
def js (s : String) : JsString := s.toList.map (·.toNat.toUInt16)

/-- White space and line terminators. -/
def isBlank (c : UInt16) : Bool :=
  c ∈ [9, 10, 11, 12, 13, 32, 0xA0, 0x1680, 0x2028, 0x2029, 0x202F, 0x205F, 0x3000, 0xFEFF] ||
    0x2000 ≤ c && c ≤ 0x200A

def isDigit (c : UInt16) : Bool := 48 ≤ c && c ≤ 57

def isHexDigit (c : UInt16) : Bool := isDigit c || 65 ≤ c && c ≤ 70 || 97 ≤ c && c ≤ 102

theorem isBlank_of_isHexDigit {c : UInt16} (h : isHexDigit c = true) : isBlank c = false := by
  have hrange : 48 ≤ c.toNat ∧ c.toNat ≤ 102 := by
    simp only [isHexDigit, isDigit, Bool.or_eq_true, Bool.and_eq_true, decide_eq_true_eq,
      UInt16.le_iff_toNat_le] at h
    change ((48 ≤ c.toNat ∧ c.toNat ≤ 57) ∨ (65 ≤ c.toNat ∧ c.toNat ≤ 70)) ∨ (97 ≤ c.toNat ∧ c.toNat ≤ 102) at h
    omega
  simp [isBlank, ← UInt16.toNat_inj, UInt16.le_iff_toNat_le]
  omega

/-- `s.trim()` -/
def trim (s : JsString) : JsString := (s.dropWhile isBlank).rdropWhile isBlank

/-- Neither the first nor the last unit is blank. -/
def NoBlankEnds (s : JsString) : Prop :=
  (∀ c ∈ s.head?, isBlank c = false) ∧ ∀ c ∈ s.getLast?, isBlank c = false

theorem noBlankEnds_trim (s : JsString) : NoBlankEnds (trim s) := by
  constructor
  · intro c hc
    have hpre : trim s <+: s.dropWhile isBlank := List.rdropWhile_prefix _ _
    obtain ⟨t, ht⟩ := hpre
    have hhead : (s.dropWhile isBlank).head? = some c := by
      rw [← ht, List.head?_append, Option.mem_def.mp hc]
      rfl
    have := List.head?_dropWhile_not isBlank s
    rwa [hhead] at this
  · intro c hc
    obtain ⟨hne, rfl⟩ := List.mem_getLast?_eq_getLast hc
    exact eq_false_of_ne_true (List.rdropWhile_last_not isBlank (s.dropWhile isBlank) hne)

theorem NoBlankEnds.trim_eq {s : JsString} (h : NoBlankEnds s) : trim s = s := by
  have hdrop : s.dropWhile isBlank = s := by
    cases s with
    | nil => rfl
    | cons c s => exact List.dropWhile_cons_of_neg (by simpa using h.1 c rfl)
  unfold trim
  rw [hdrop, List.rdropWhile_eq_self_iff]
  intro hne
  simpa using h.2 _ (List.getLast?_eq_some_getLast hne)

theorem trim_eq_self_iff {s : JsString} : trim s = s ↔ NoBlankEnds s :=
  ⟨fun h => h ▸ noBlankEnds_trim s, NoBlankEnds.trim_eq⟩

theorem trim_length_le (s : JsString) : (trim s).length ≤ s.length :=
  (List.rdropWhile_prefix _ _).length_le.trans (List.dropWhile_suffix _).length_le

/-- A text that does not begin with a blank keeps its first unit. -/
theorem trim_ne_nil {s : JsString} {c : UInt16} (hhead : s.head? = some c) (hc : isBlank c = false) :
    trim s ≠ [] := by
  cases s with
  | nil => cases hhead
  | cons d s =>
      cases hhead
      unfold trim
      rw [List.dropWhile_cons_of_neg (by simpa using hc)]
      intro hnil
      have := List.rdropWhile_eq_nil_iff.mp hnil c List.mem_cons_self
      rw [hc] at this
      cases this

/-- Cutting a trimmed text and trimming what is left does not empty it. -/
theorem trim_take_trim_ne_nil {s : JsString} {n : Nat} (hs : trim s ≠ []) (hn : 0 < n) :
    trim ((trim s).take n) ≠ [] := by
  obtain ⟨c, hc⟩ := Option.isSome_iff_exists.mp (List.isSome_head?.mpr hs)
  refine trim_ne_nil (c := c) ?_ ((noBlankEnds_trim s).1 c hc)
  rw [List.head?_take, if_neg hn.ne', hc]

/-! ## Remainders -/

/-- `%` of JavaScript is `Int.tmod`; adding `n` makes it the remainder that is never negative. -/
theorem tmod_add_tmod {n : Int} (hn : 0 < n) (a : Int) : (a.tmod n + n).tmod n = a % n := by
  have hpos : 0 ≤ a.tmod n + n := by
    have := Int.lt_tmod_of_pos a hn
    omega
  calc (a.tmod n + n).tmod n
      = (a.tmod n + n) % n := Int.tmod_eq_emod_of_nonneg hpos
    _ = (a + n * (1 - a.tdiv n)) % n := by
        rw [Int.tmod_def]
        congr 1
        ring
    _ = a % n := Int.add_mul_emod_self_left a n _

/-! ## Numbers -/

/-- A number other than NaN. -/
inductive Number (α : Type) where
  | finite (a : α)
  | infinity (negative : Bool)
  deriving DecidableEq, Repr

variable {α : Type} [LinearOrder α]

/-- `Math.min(hi, Math.max(lo, x))` -/
def Number.clamp (lo hi : α) : Number α → α
  | .finite a => min hi (max lo a)
  | .infinity negative => if negative then lo else hi

theorem Number.clamp_mem {lo hi : α} (h : lo ≤ hi) (x : Number α) : lo ≤ x.clamp lo hi ∧ x.clamp lo hi ≤ hi := by
  cases x with
  | finite a => exact ⟨le_min h (le_max_left _ _), min_le_left _ _⟩
  | infinity negative =>
      cases negative with
      | true => exact ⟨le_rfl, h⟩
      | false => exact ⟨h, le_rfl⟩

theorem Number.clamp_finite {lo hi a : α} (hlo : lo ≤ a) (hhi : a ≤ hi) : (Number.finite a).clamp lo hi = a := by
  show min hi (max lo a) = a
  rw [max_eq_right hlo, min_eq_right hhi]

/-- The values from here on are rounded to infinity. -/
def overflow : ℚ := 2 ^ 1024 - 2 ^ 970

def Number.ofRat (q : ℚ) : Number ℚ := if |q| < overflow then .finite q else .infinity (q < 0)

def Number.ofInt (z : ℤ) : Number ℤ := if |(z : ℚ)| < overflow then .finite z else .infinity (z < 0)

/-! ## Reading numbers -/

def digitsValue (ds : JsString) : Nat := ds.foldl (fun n c => 10 * n + (c.toNat - 48)) 0

/-- A sign, and whether it is negative. -/
def readSign : JsString → Bool × JsString
  | 45 :: s => (true, s)
  | 43 :: s => (false, s)
  | s => (false, s)

/-- `parseInt(s, 10)` -/
def parseIntText (s : JsString) : Option (Number ℤ) :=
  let (negative, s) := readSign (s.dropWhile isBlank)
  let ds := s.takeWhile isDigit
  if ds = [] then none
  else some (.ofInt (if negative then -digitsValue ds else digitsValue ds))

/-- The exponent at the front of a text, 0 when there is none. -/
def readExponent : JsString → ℤ
  | c :: s =>
      let (negative, s) := readSign s
      let ds := s.takeWhile isDigit
      if c = 69 ∨ c = 101 then if negative then -digitsValue ds else digitsValue ds else 0
  | [] => 0

/-- `parseFloat(s)`, exact where the source rounds to a double. -/
def parseFloatText (s : JsString) : Option (Number ℚ) :=
  let (negative, s) := readSign (s.dropWhile isBlank)
  if js "Infinity" <+: s then some (.infinity negative)
  else
    let whole := s.takeWhile isDigit
    let rest := s.dropWhile isDigit
    let (fraction, rest) := match rest with
      | 46 :: t => (t.takeWhile isDigit, t.dropWhile isDigit)
      | _ => ([], rest)
    if whole ++ fraction = [] then none
    else
      let q := (digitsValue (whole ++ fraction) : ℚ) * 10 ^ (readExponent rest - fraction.length)
      some (.ofRat (if negative then -q else q))

/-- `parseInt(x, 10)` of a number reads its text, which is positional from `1e-6` up to `1e21` and
begins with the leading digit outside. -/
def parseIntNumber : Number ℚ → Option (Number ℤ)
  | .infinity _ => none
  | .finite q =>
      let digits : ℤ :=
        if q = 0 ∨ (1 / 10 ^ 6 ≤ |q| ∧ |q| < 10 ^ 21) then ⌊|q|⌋ else ⌊|q| / 10 ^ Int.log 10 |q|⌋
      some (.finite (if q < 0 then -digits else digits))

theorem parseIntNumber_intCast {z : ℤ} (h0 : 0 ≤ z) (h : z < 10 ^ 21) :
    parseIntNumber (.finite (z : ℚ)) = some (.finite z) := by
  have habs : |(z : ℚ)| = z := abs_of_nonneg (by exact_mod_cast h0)
  have hnot : ¬(z : ℚ) < 0 := by exact_mod_cast not_lt.mpr h0
  have hrange : (z : ℚ) = 0 ∨ (1 / 10 ^ 6 ≤ (z : ℚ) ∧ (z : ℚ) < 10 ^ 21) := by
    rcases h0.eq_or_lt with rfl | hpos
    · exact Or.inl (by norm_num)
    · have h1 : (1 : ℚ) ≤ z := by exact_mod_cast hpos
      exact Or.inr ⟨by linarith, by exact_mod_cast h⟩
  simp only [parseIntNumber, habs, if_pos hrange, if_neg hnot, Int.floor_intCast]

end Kworker.Lib
