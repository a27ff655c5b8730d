import Mathlib.Tactic.IntervalCases
import Kworker.Terminal.Script

/-!
# Reading back what was written into scripts and HTML
-/

namespace Kworker.Terminal

open Kworker.Lib

variable {c d : UInt16} {s t : JsString}

/-! ## Literals -/

theorem expect_append (w t : JsString) : expect w (w ++ t) = some t := by
  rw [expect, List.take_left, if_pos rfl, List.drop_left]

theorem hexValue_hexDigit {n : Nat} (hn : n < 16) : hexValue (hexDigit n) = some n := by
  interval_cases n <;> rfl

theorem hexUnit_unicodeEscape (c : UInt16) (t : JsString) :
    hexUnit ((unicodeEscape c).drop 2 ++ t) = some (c, t) := by
  have hlt := c.toNat_lt
  have hvalue : UInt16.ofNat ((((c.toNat / 4096 % 16) * 16 + c.toNat / 256 % 16) * 16 + c.toNat / 16 % 16) * 16 +
      c.toNat % 16) = c := by
    rw [← UInt16.toNat_inj, UInt16.toNat_ofNat']
    omega
  simp only [unicodeEscape, List.drop_succ_cons, List.drop_zero, List.cons_append, List.nil_append, hexUnit,
    hexValue_hexDigit (Nat.mod_lt _ (by decide : 0 < 16)), hvalue]

/-- A unit that needs no escape. -/
theorem writes_self (hquote : c ≠ 34) (hback : c ≠ 92) (hlf : c ≠ 10) (hcr : c ≠ 13) :
    literalReader.Writes c [c] := by
  intro t
  simp [literalReader, hquote, hback, hlf, hcr]

theorem writes_unicodeEscape (c : UInt16) : literalReader.Writes c (unicodeEscape c) := by
  intro t
  have hunit := hexUnit_unicodeEscape c t
  exact ⟨rfl, hunit⟩

/-- A backslash and a character for `c`. -/
theorem writes_singleEscape (h : singleEscape d = some c) (hunicode : d ≠ 117) : literalReader.Writes c [92, d] := by
  intro t
  simp [literalReader, h, hunicode]

theorem writes_quoteUnit (c : UInt16) : literalReader.Writes c (quoteUnit c) := by
  unfold quoteUnit
  split
  · rename_i h
    exact writes_singleEscape (h ▸ rfl) (by decide)
  split
  · rename_i h
    exact writes_singleEscape (h ▸ rfl) (by decide)
  split
  · rename_i h
    exact writes_singleEscape (h ▸ rfl) (by decide)
  split
  · rename_i h
    exact writes_singleEscape (h ▸ rfl) (by decide)
  split
  · rename_i h
    exact writes_singleEscape (h ▸ rfl) (by decide)
  split
  · rename_i h
    exact writes_singleEscape (h ▸ rfl) (by decide)
  split
  · rename_i h
    exact writes_singleEscape (h ▸ rfl) (by decide)
  split
  · exact writes_unicodeEscape c
  · rename_i hlf _ hcr hquote hback _
    exact writes_self hquote hback hlf hcr

/-- The halves of a pair are no quotes and no line ends. -/
theorem writes_surrogate (h : isHighSurrogate c = true ∨ isLowSurrogate c = true) : literalReader.Writes c [c] := by
  have hge : 0xD800 ≤ c.toNat := by
    simp only [isHighSurrogate, isLowSurrogate, Bool.and_eq_true, decide_eq_true_eq, UInt16.le_iff_toNat_le] at h
    rcases h with h | h
    · exact h.1
    · exact Nat.le_trans (by decide) h.1
  have hne : ∀ d : UInt16, d.toNat < 0xD800 → c ≠ d := by
    rintro d hd rfl
    omega
  exact writes_self (hne _ (by decide)) (hne _ (by decide)) (hne _ (by decide)) (hne _ (by decide))

theorem quoteUnits_writes (s : JsString) : List.Forall₂ literalReader.Writes s (quoteUnits s) := by
  fun_induction quoteUnits s with
  | case1 => exact .nil
  | case2 c => exact .cons (writes_quoteUnit c) .nil
  | case3 c d s hpair ih =>
      simp only [Bool.and_eq_true] at hpair
      exact .cons (writes_surrogate (Or.inl hpair.1)) (.cons (writes_surrogate (Or.inr hpair.2)) ih)
  | case4 c d s _ ih => exact .cons (writes_quoteUnit c) ih

theorem readLiteral_stringify (s t : JsString) : readLiteral (stringify s ++ t) = some (s, t) := by
  have hopen : expect [34] (stringify s ++ t) = some ((quoteUnits s).flatten ++ ([34] ++ t)) := by
    rw [stringify, List.append_assoc, List.append_assoc, expect_append]
  rw [readLiteral, hopen, Option.bind_some]
  exact EscapeReader.read_flatten (quoteUnits_writes s) rfl

/-! ## Numbers -/

theorem digit_toNat {digit : Char} (h : digit.isDigit = true) :
    digit.toNat.toUInt16.toNat = digit.toNat ∧ 48 ≤ digit.toNat ∧ digit.toNat ≤ 57 := by
  obtain ⟨hge, hle⟩ := Char.isDigit_iff_toNat.mp h
  have hge : 48 ≤ digit.toNat := hge
  have hle : digit.toNat ≤ 57 := hle
  refine ⟨?_, hge, hle⟩
  change digit.toNat % 65536 = digit.toNat
  omega

theorem isDigit_numberText (n : Nat) : ∀ c ∈ numberText n, isDigit c = true := by
  intro c hc
  obtain ⟨digit, hdigit, rfl⟩ := List.mem_map.mp hc
  obtain ⟨hnat, hge, hle⟩ := digit_toNat (Nat.isDigit_of_mem_toDigits (by decide) (by decide) hdigit)
  rw [isDigit, Bool.and_eq_true, decide_eq_true_eq, decide_eq_true_eq, UInt16.le_iff_toNat_le,
    UInt16.le_iff_toNat_le, hnat]
  exact ⟨hge, hle⟩

theorem numberText_chars (n : Nat) : ((numberText n).map fun c => Char.ofNat c.toNat) = Nat.toDigits 10 n := by
  rw [numberText, List.map_map]
  refine (List.map_congr_left fun digit hdigit => ?_).trans (List.map_id _)
  have hnat := (digit_toNat (Nat.isDigit_of_mem_toDigits (by decide) (by decide) hdigit)).1
  rw [Function.comp_apply, hnat, Char.ofNat_toNat, id_eq]

theorem readNumber_numberText (n : Nat) (ht : ∀ c ∈ t.head?, isDigit c = false) :
    readNumber (numberText n ++ t) = (n, t) := by
  have htake : t.takeWhile isDigit = [] := by
    cases t with
    | nil => rfl
    | cons c t => rw [List.takeWhile_cons, ht c rfl]; rfl
  have hdrop : t.dropWhile isDigit = t := by
    cases t with
    | nil => rfl
    | cons c t => rw [List.dropWhile_cons, ht c rfl]; rfl
  rw [readNumber, List.takeWhile_append_of_pos (isDigit_numberText n), htake, List.append_nil, numberText_chars,
    Nat.ofDigitChars_ten_toDigits, List.dropWhile_append_of_pos (isDigit_numberText n), hdrop]

/-! ## Programs -/

theorem readCall_script (sessionId : Nat) (data t : JsString) :
    readCall (script (.output sessionId data) ++ t) = some (.writeToTerminal sessionId data, t) := by
  simp only [readCall, script, List.append_assoc, expect_append, Option.bind_eq_bind, Option.bind_some,
    readNumber_numberText sessionId
      (t := js ", " ++ (stringify data ++ (js ");" ++ t))) (by intro c hc; cases hc; rfl),
    readLiteral_stringify, Option.pure_def]

theorem readInject_script (prefsJson t : JsString) :
    readInject (js "try\x7bwindow.__wtInjectedPrefsJson=" ++ stringify prefsJson ++ js ";\x7dcatch(e)\x7b\x7d;" ++ t) =
      some (.inject prefsJson, t) := by
  simp only [readInject, List.append_assoc, expect_append, Option.bind_eq_bind, Option.bind_some,
    readLiteral_stringify, Option.pure_def]

theorem readProgram_call {rest : JsString} {st : Statement} {fuel : Nat} (h : readCall t = some (st, rest)) :
    readProgram (fuel + 1) t = (readProgram fuel rest).map (st :: ·) := by
  cases t with
  | nil => cases h
  | cons c t =>
      rw [readProgram, h, Option.some_or, Option.bind_some]
      exact List.cons_ne_nil c t

theorem readProgram_inject {rest : JsString} {st : Statement} {fuel : Nat} (hcall : readCall t = none)
    (h : readInject t = some (st, rest)) : readProgram (fuel + 1) t = (readProgram fuel rest).map (st :: ·) := by
  cases t with
  | nil => cases h
  | cons c t =>
      rw [readProgram, hcall, Option.none_or, h, Option.some_or, Option.bind_some]
      exact List.cons_ne_nil c t

theorem readCall_inject (t : JsString) : readCall (js "try\x7bwindow.__wtInjectedPrefsJson=" ++ t) = none := by
  have hfail : expect (js "window.writeToTerminal(") (js "try\x7bwindow.__wtInjectedPrefsJson=" ++ t) = none := by
    rw [expect, if_neg]
    intro heq
    cases heq
  rw [readCall, hfail]
  rfl

theorem readProgram_boot (fuel : Nat) :
    readProgram (fuel + 1) (js "try\x7bwindow.wtBootstrap&&window.wtBootstrap();\x7dcatch(e)\x7b\x7d;") =
      some [.wtBootstrap] := by
  cases fuel <;> rfl

theorem readProgram_script (c : FromNative) (fuel : Nat) : readProgram (fuel + 2) (script c) = some c.meant := by
  cases c with
  | output sessionId data =>
      have hcall := readCall_script sessionId data []
      rw [List.append_nil] at hcall
      rw [readProgram_call hcall, readProgram]
      rfl
  | pageEnd prefsJson =>
      rw [script, FromNative.meant]
      split
      · have hinject := readInject_script prefsJson
          (js "try\x7bwindow.wtBootstrap&&window.wtBootstrap();\x7dcatch(e)\x7b\x7d;")
        have hcall : readCall (js "try\x7bwindow.__wtInjectedPrefsJson=" ++ stringify prefsJson ++
            js ";\x7dcatch(e)\x7b\x7d;" ++
            js "try\x7bwindow.wtBootstrap&&window.wtBootstrap();\x7dcatch(e)\x7b\x7d;") = none := by
          rw [List.append_assoc, List.append_assoc, readCall_inject]
        rw [readProgram_inject hcall hinject, readProgram_boot]
        rfl
      · rw [List.nil_append, readProgram_boot]

theorem length_script (c : FromNative) : 2 ≤ (script c).length := by
  cases c with
  | output sessionId data =>
      have hhead : (js "window.writeToTerminal(").length = 23 := rfl
      simp only [script, List.length_append, hhead]
      omega
  | pageEnd prefsJson =>
      have htail : (js "try\x7bwindow.wtBootstrap&&window.wtBootstrap();\x7dcatch(e)\x7b\x7d;").length = 57 := rfl
      simp only [script, List.length_append, htail]
      omega

/-! ## Line ends -/

theorem normalizeNewlines_cons (h : c ≠ 13) (t : JsString) :
    normalizeNewlines (c :: t) = c :: normalizeNewlines t := by
  cases t with
  | nil => simp only [normalizeNewlines, if_neg h]
  | cons d t => rw [normalizeNewlines, if_neg h]

theorem normalizeNewlines_append (h : 13 ∉ s) (t : JsString) :
    normalizeNewlines (s ++ t) = s ++ normalizeNewlines t := by
  induction s with
  | nil => rfl
  | cons c s ih =>
      obtain ⟨hc, hs⟩ := not_or.mp (mt List.mem_cons.mpr h)
      rw [List.cons_append, normalizeNewlines_cons (Ne.symm hc), ih hs, List.cons_append]

theorem normalizeNewlines_eq (h : 13 ∉ s) : normalizeNewlines s = s := by
  have happ := normalizeNewlines_append h []
  rwa [List.append_nil, normalizeNewlines, List.append_nil] at happ

theorem not_mem_normalizeNewlines (s : JsString) : 13 ∉ normalizeNewlines s := by
  fun_induction normalizeNewlines s with
  | case1 => exact List.not_mem_nil
  | case2 => decide
  | case3 c h => exact fun hmem => h (List.mem_singleton.mp hmem).symm
  | case4 d t ihRest ihNext =>
      split
      · simpa using ihRest
      · simpa using ihNext
  | case5 c d t h ih => simpa [Ne.symm h] using ih

/-! ## The fragment -/

def escapeUnit (c : UInt16) : JsString :=
  if c = 38 then js "&amp;" else if c = 60 then js "&lt;" else if c = 62 then js "&gt;" else [c]

theorem escapeHtmlForClipboard_eq (s : JsString) : escapeHtmlForClipboard s = s.flatMap escapeUnit := rfl

theorem writes_escapeUnit (c : UInt16) : textReader.Writes c (escapeUnit c) := by
  unfold escapeUnit
  split
  · rename_i h; subst h; exact fun t => ⟨rfl, rfl⟩
  split
  · rename_i h; subst h; exact fun t => ⟨rfl, rfl⟩
  split
  · rename_i h; subst h; exact fun t => ⟨rfl, rfl⟩
  · rename_i hamp hlt _
    intro t
    simp [textReader, hamp, hlt]

theorem not_mem_escapeUnit (h : c ≠ 13) : 13 ∉ escapeUnit c := by
  unfold escapeUnit
  split
  · decide
  split
  · decide
  split
  · decide
  · exact fun hmem => h (List.mem_singleton.mp hmem).symm

/-- Only a line feed is written with one at its front. -/
theorem head_escapeUnit (h : c ≠ 10) (t : JsString) : ∃ d t', escapeUnit c ++ t = d :: t' ∧ d ≠ 10 := by
  unfold escapeUnit
  split
  · exact ⟨_, _, rfl, by decide⟩
  split
  · exact ⟨_, _, rfl, by decide⟩
  split
  · exact ⟨_, _, rfl, by decide⟩
  · exact ⟨c, t, rfl, h⟩

theorem normalizeNewlines_cr (ht : t.head? ≠ some 10) : normalizeNewlines (13 :: t) = 10 :: normalizeNewlines t := by
  cases t with
  | nil => rfl
  | cons d t =>
      have hd : d ≠ 10 := fun h => ht (congrArg some h)
      rw [normalizeNewlines, if_pos rfl, if_neg hd]

/-- It does not matter whether the line ends are replaced before or after the escaping. -/
theorem normalizeNewlines_escape (s : JsString) (hcr : 13 ∉ t) (hlf : t.head? ≠ some 10) :
    normalizeNewlines (s.flatMap escapeUnit ++ t) = (normalizeNewlines s).flatMap escapeUnit ++ t := by
  fun_induction normalizeNewlines s with
  | case1 => exact normalizeNewlines_eq hcr
  | case2 =>
      change normalizeNewlines (13 :: t) = 10 :: t
      rw [normalizeNewlines_cr hlf, normalizeNewlines_eq hcr]
  | case3 c h =>
      rw [List.flatMap_singleton, normalizeNewlines_append (not_mem_escapeUnit h), normalizeNewlines_eq hcr]
  | case4 d s ihRest ihNext =>
      by_cases h : d = 10
      · subst h
        change normalizeNewlines (13 :: 10 :: (s.flatMap escapeUnit ++ t)) =
          10 :: ((normalizeNewlines s).flatMap escapeUnit ++ t)
        rw [normalizeNewlines, if_pos rfl, if_pos rfl, ihRest]
      · obtain ⟨e, t', heq, he⟩ := head_escapeUnit h (s.flatMap escapeUnit ++ t)
        have hhead : ((d :: s).flatMap escapeUnit ++ t).head? ≠ some 10 := by
          rw [List.flatMap_cons, List.append_assoc, heq]
          exact fun hsome => he (Option.some.inj hsome)
        rw [if_neg h]
        change normalizeNewlines (13 :: ((d :: s).flatMap escapeUnit ++ t)) =
          10 :: ((normalizeNewlines (d :: s)).flatMap escapeUnit ++ t)
        rw [normalizeNewlines_cr hhead, ihNext]
  | case5 c d s h ih =>
      rw [List.flatMap_cons, List.append_assoc, normalizeNewlines_append (not_mem_escapeUnit h), ih,
        List.flatMap_cons, List.append_assoc]

/-- What is left of the text behind the tag of the `pre`. -/
def dropLineFeed (s : JsString) : JsString := if s.head? = some 10 then s.tail else s

theorem dropLineFeed_escape (s : JsString) (hlf : t.head? ≠ some 10) :
    dropLineFeed (s.flatMap escapeUnit ++ t) = (dropLineFeed s).flatMap escapeUnit ++ t := by
  cases s with
  | nil => exact if_neg hlf
  | cons c s =>
      by_cases h : c = 10
      · subst h
        rfl
      · obtain ⟨e, t', heq, he⟩ := head_escapeUnit h (s.flatMap escapeUnit ++ t)
        have hkeep : dropLineFeed (c :: s) = c :: s := if_neg fun hsome => h (Option.some.inj hsome)
        rw [hkeep, List.flatMap_cons, List.append_assoc, heq]
        exact if_neg fun hsome => he (Option.some.inj hsome)

theorem read_dropLineFeed (s : JsString) (hcr : 13 ∉ t) (hlf : t.head? ≠ some 10)
    (hstop : textReader.stop t = some t) :
    textReader.read (dropLineFeed (normalizeNewlines (s.flatMap escapeUnit ++ t))) =
      some (dropLineFeed (normalizeNewlines s), t) := by
  rw [normalizeNewlines_escape s hcr hlf, dropLineFeed_escape _ hlf]
  exact EscapeReader.read_flatMap (fun c _ => writes_escapeUnit c) hstop

theorem not_mem_fragmentHead :
    13 ∉ js "<!DOCTYPE html><html><body><!--StartFragment--><pre style=\"margin:0;white-space:pre-wrap;" ++
      js "word-wrap:break-word;font-family:Consolas,'Cascadia Mono','Sarasa Mono SC',monospace\">" := by
  decide +kernel

theorem readFragment_html (plain : JsString) :
    readFragment (clipboardFragmentHtmlFromPlain plain) =
      some ((dropLineFeed (normalizeNewlines plain)).filter (· ≠ 0)) := by
  have hread := read_dropLineFeed (t := js "</pre><!--EndFragment--></body></html>") plain
    (by decide) (by decide) rfl
  have hfoot := expect_append (js "</pre><!--EndFragment--></body></html>") []
  rw [List.append_nil] at hfoot
  rw [readFragment, clipboardFragmentHtmlFromPlain, escapeHtmlForClipboard_eq, List.append_assoc,
    normalizeNewlines_append not_mem_fragmentHead, expect_append]
  change (textReader.read (dropLineFeed _)).bind _ = _
  rw [hread, Option.bind_some]
  dsimp only
  rw [hfoot]
  rfl

theorem filter_dropLineFeed_eq : (dropLineFeed s).filter (· ≠ 0) = s ↔ s.head? ≠ some 10 ∧ 0 ∉ s := by
  constructor
  · intro h
    refine ⟨fun hhead => ?_, fun hzero => ?_⟩
    · have hle := List.length_filter_le (fun c : UInt16 => decide (c ≠ 0)) (dropLineFeed s)
      rw [h, dropLineFeed, if_pos hhead, List.length_tail] at hle
      have hpos : 0 < s.length := List.length_pos_of_mem (List.mem_of_mem_head? hhead)
      omega
    · rw [← h] at hzero
      exact of_decide_eq_true (List.mem_filter.mp hzero).2 rfl
  · rintro ⟨hhead, hzero⟩
    rw [dropLineFeed, if_neg hhead, List.filter_eq_self]
    exact fun c hc => decide_eq_true fun h => hzero (h ▸ hc)

theorem not_mem_filter_dropLineFeed (h : 13 ∉ s) : 13 ∉ (dropLineFeed s).filter (· ≠ 0) := by
  intro hmem
  have hdrop := (List.mem_filter.mp hmem).1
  unfold dropLineFeed at hdrop
  split at hdrop
  · exact h (List.mem_of_mem_tail hdrop)
  · exact h hdrop

end Kworker.Terminal
