import Kworker.Terminal.Promote

/-!
# Titles and prompts in chunks of output
-/

namespace Kworker.Terminal

open Kworker.Lib

variable {s u w t : JsString}

/-! ## Titles -/

theorem takeWhile_title {ending : JsString} (ht : ∀ c ∈ t, isTitleUnit c = true)
    (hending : ending = [7] ∨ ending = [27, 92]) (rest : JsString) :
    (t ++ ending ++ rest).takeWhile isTitleUnit = t ∧
      (t ++ ending ++ rest).dropWhile isTitleUnit = ending ++ rest := by
  rw [List.append_assoc, List.takeWhile_append_of_pos ht, List.dropWhile_append_of_pos ht]
  rcases hending with rfl | rfl
  · exact ⟨List.append_nil t, rfl⟩
  · exact ⟨List.append_nil t, rfl⟩

theorem matchTitle_append {d : UInt16} {ending : JsString} (hd : d = 48 ∨ d = 50) (ht : t ≠ [])
    (hunits : ∀ c ∈ t, isTitleUnit c = true) (hending : ending = [7] ∨ ending = [27, 92]) (rest : JsString) :
    matchTitle (27 :: 93 :: d :: 59 :: (t ++ ending ++ rest)) = some ⟨t, 4 + t.length + ending.length⟩ := by
  obtain ⟨htake, hdrop⟩ := takeWhile_title hunits hending rest
  simp only [matchTitle, htake, hdrop, if_pos (And.intro hd ht)]
  rcases hending with rfl | rfl
  · simp only [List.cons_append, List.nil_append, List.length_cons, List.length_nil]
    congr 2
    omega
  · simp only [List.cons_append, List.nil_append, List.length_cons, List.length_nil]
    congr 2
    omega

/-- A match is a title at the front of the text. -/
theorem matchTitle_iff {n : Nat} :
    matchTitle s = some ⟨t, n⟩ ↔ ∃ w rest, IsTitle w t ∧ s = w ++ rest ∧ n = w.length := by
  constructor
  · intro h
    obtain ⟨d, s', rfl, hd, hne, ending, rest, hending, hdrop⟩ : ∃ d s', s = 27 :: 93 :: d :: 59 :: s' ∧
        (d = 48 ∨ d = 50) ∧ s'.takeWhile isTitleUnit ≠ [] ∧ ∃ ending rest,
          (ending = [7] ∨ ending = [27, 92]) ∧ s'.dropWhile isTitleUnit = ending ++ rest := by
      unfold matchTitle at h
      split at h
      · rename_i d s'
        rw [Option.ite_none_right_eq_some] at h
        obtain ⟨⟨hd, hne⟩, h⟩ := h
        refine ⟨d, s', rfl, hd, hne, ?_⟩
        split at h
        · rename_i rest hrest
          exact ⟨[7], rest, .inl rfl, hrest⟩
        · rename_i rest hrest
          exact ⟨[27, 92], rest, .inr rfl, hrest⟩
        · cases h
      · cases h
    have hunits : ∀ c ∈ s'.takeWhile isTitleUnit, isTitleUnit c = true := fun c => List.mem_takeWhile_imp
    have hsplit : s' = s'.takeWhile isTitleUnit ++ ending ++ rest := by
      rw [List.append_assoc, ← hdrop, List.takeWhile_append_dropWhile]
    rw [hsplit, matchTitle_append hd hne hunits hending] at h
    cases h
    refine ⟨27 :: 93 :: d :: 59 :: (s'.takeWhile isTitleUnit ++ ending), rest,
      ⟨d, ending, rfl, hd, hne, hunits, hending⟩, ?_, ?_⟩
    · simp only [List.cons_append]
      rw [← hsplit]
    · simp only [List.length_cons, List.length_append]
      omega
  · rintro ⟨w, rest, ⟨d, ending, rfl, hd, hne, hunits, hending⟩, rfl, rfl⟩
    simp only [List.cons_append, matchTitle_append hd hne hunits hending, List.length_cons, List.length_append]
    congr 2
    omega

/-- Somewhere in the text the expression matches with this group. -/
def MatchesSomewhere (s t : JsString) : Prop := ∃ u, u <:+ s ∧ ∃ n, matchTitle u = some ⟨t, n⟩

theorem matchesSomewhere_nil : ¬ MatchesSomewhere [] t := by
  rintro ⟨u, hu, n, hmatch⟩
  rw [List.suffix_nil.mp hu] at hmatch
  cases hmatch

theorem matchesSomewhere_cons {c : UInt16} :
    MatchesSomewhere (c :: s) t ↔ (∃ n, matchTitle (c :: s) = some ⟨t, n⟩) ∨ MatchesSomewhere s t := by
  constructor
  · rintro ⟨u, hu, n, hmatch⟩
    rcases List.suffix_cons_iff.mp hu with rfl | hu
    · exact .inl ⟨n, hmatch⟩
    · exact .inr ⟨u, hu, n, hmatch⟩
  · rintro (⟨n, hmatch⟩ | ⟨u, hu, n, hmatch⟩)
    · exact ⟨_, List.suffix_rfl, n, hmatch⟩
    · exact ⟨u, hu.trans (List.suffix_cons ..), n, hmatch⟩

theorem matchTitle_of_ne {c : UInt16} (hc : c ≠ 27) (s : JsString) : matchTitle (c :: s) = none := by
  unfold matchTitle
  split
  · rename_i heq
    cases heq
    exact absurd rfl hc
  · rfl

theorem matchesSomewhere_append {x : JsString} (hx : ∀ c ∈ x, c ≠ 27) (s : JsString) :
    MatchesSomewhere (x ++ s) t ↔ MatchesSomewhere s t := by
  induction x with
  | nil => rfl
  | cons c x ih =>
      rw [List.cons_append, matchesSomewhere_cons, ih fun d hd => hx d (List.mem_cons_of_mem _ hd),
        matchTitle_of_ne (hx c List.mem_cons_self)]
      simp

/-- No title begins inside another one. -/
theorem matchesSomewhere_behind {c : UInt16} {rest : JsString} (hw : IsTitle (c :: w) u) :
    MatchesSomewhere (w ++ rest) t ↔ MatchesSomewhere rest t := by
  obtain ⟨d, ending, heq, hd, _, hunits, hending⟩ := hw
  cases heq
  have htext : ∀ e ∈ 93 :: d :: 59 :: u, e ≠ 27 := by
    have hne : ∀ e ∈ u, e ≠ 27 := by
      rintro e he rfl
      exact absurd (hunits _ he) (by decide)
    have hd' : d ≠ 27 := by rcases hd with rfl | rfl <;> decide
    simpa [hd'] using hne
  have hsplit : 93 :: d :: 59 :: (u ++ ending) ++ rest = (93 :: d :: 59 :: u) ++ (ending ++ rest) := by simp
  rw [hsplit, matchesSomewhere_append htext]
  rcases hending with rfl | rfl
  · exact matchesSomewhere_append (by simp) rest
  · have hesc : matchTitle (27 :: 92 :: rest) = none := by
      unfold matchTitle
      split
      · rename_i heq
        cases heq
      · rfl
    have hslash : matchTitle (92 :: rest) = none := matchTitle_of_ne (by decide) rest
    show MatchesSomewhere (27 :: 92 :: rest) t ↔ _
    simp [matchesSomewhere_cons, hesc, hslash]

theorem execTitles_skip (x s : JsString) : execTitles x.length (x ++ s) = execTitles 0 s := by
  induction x with
  | nil => rfl
  | cons c x ih => exact ih

theorem mem_execTitles : t ∈ execTitles 0 s ↔ MatchesSomewhere s t := by
  induction hlen : s.length using Nat.strong_induction_on generalizing s with
  | _ n ih =>
    cases s with
    | nil => exact iff_of_false List.not_mem_nil matchesSomewhere_nil
    | cons c s =>
        rw [List.length_cons] at hlen
        rw [matchesSomewhere_cons, execTitles]
        cases hmatch : matchTitle (c :: s) with
        | none =>
            rw [ih s.length (by omega) rfl]
            simp
        | some m =>
            obtain ⟨w, rest, hw, hsplit, hm⟩ := matchTitle_iff.mp hmatch
            obtain ⟨d, ending, hshape, _⟩ := id hw
            cases w with
            | nil => cases hshape
            | cons c' w =>
                obtain ⟨rfl, rfl⟩ : c = c' ∧ s = w ++ rest := List.cons.inj hsplit
                have hskip : m.length - 1 = w.length := by rw [hm]; rfl
                have hshort : rest.length < n := by rw [← hlen, List.length_append]; omega
                simp only [hskip, execTitles_skip, List.mem_cons, ih rest.length hshort rfl,
                  matchesSomewhere_behind hw, Option.some.injEq]
                refine or_congr_left ⟨?_, ?_⟩
                · rintro rfl
                  exact ⟨m.length, rfl⟩
                · rintro ⟨k, rfl⟩
                  rfl

theorem matchesSomewhere_iff : MatchesSomewhere s t ↔ ∃ w, IsTitle w t ∧ w <:+: s := by
  constructor
  · rintro ⟨u, ⟨a, rfl⟩, n, hmatch⟩
    obtain ⟨w, rest, hw, rfl, _⟩ := matchTitle_iff.mp hmatch
    exact ⟨w, hw, ⟨a, rest, by rw [List.append_assoc]⟩⟩
  · rintro ⟨w, hw, a, rest, rfl⟩
    exact ⟨w ++ rest, ⟨a, by rw [List.append_assoc]⟩, w.length, matchTitle_iff.mpr ⟨w, rest, hw, rfl, rfl⟩⟩

theorem hasKhslTitle_iff : hasKhslTitle s = true ↔ ∃ w, IsKhslTitle w ∧ w <:+: s := by
  simp only [hasKhslTitle, List.any_eq_true, mem_execTitles, matchesSomewhere_iff]
  constructor
  · rintro ⟨t, ⟨w, hw, hin⟩, hkhsl⟩
    exact ⟨w, ⟨t, hw, hkhsl⟩, hin⟩
  · rintro ⟨w, ⟨t, hw, hkhsl⟩, hin⟩
    exact ⟨t, ⟨w, hw, hin⟩, hkhsl⟩

/-! ## Prompts -/

theorem startsKhsl_return (s : JsString) : startsKhsl (s ++ [13]) = startsKhsl s := by
  have hend (x : JsString) : js "khsl" ≠ x ++ [13] := by
    intro h
    have hlast := congrArg List.getLast? h
    rw [List.getLast?_concat] at hlast
    exact absurd hlast (by decide)
  rw [Bool.eq_iff_iff, startsKhsl, startsKhsl, List.isPrefixOf_iff_prefix, List.isPrefixOf_iff_prefix,
    List.map_append]
  show js "khsl" <+: s.map lowerUnit ++ [13] ↔ _
  rw [List.prefix_concat_iff]
  exact or_iff_right (hend _)

theorem drop_return (s : JsString) :
    ((s ++ [13]).drop 3).head?.any isWordUnit = (s.drop 3).head?.any isWordUnit := by
  match s with
  | [] | [_] | [_, _] => rfl
  | [_, _, _] => rfl
  | _ :: _ :: _ :: _ :: _ => rfl

theorem khslWordFrom_return (afterWord : Bool) (s : JsString) :
    khslWordFrom afterWord (s ++ [13]) = khslWordFrom afterWord s := by
  induction s generalizing afterWord with
  | nil =>
      have hone : startsKhsl [13] = false := by decide
      simp [khslWordFrom, hone]
  | cons c s ih =>
      have hstart : startsKhsl (c :: (s ++ [13])) = startsKhsl (c :: s) := startsKhsl_return (c :: s)
      rw [List.cons_append, khslWordFrom, khslWordFrom, ih, hstart, drop_return]

theorem endsAsPrompt_return (s : JsString) : endsAsPrompt (s ++ [13]) = endsAsPrompt s := by
  induction s with
  | nil => decide
  | cons c s ih =>
      have hblank : [13].all isBlank = true := by decide
      rw [List.cons_append, endsAsPrompt, endsAsPrompt, ih, List.all_append, hblank, Bool.and_true]

/-- A carriage return at its end does not matter to a prompt. -/
theorem isKhslPrompt_return (s : JsString) : isKhslPrompt (s ++ [13]) = isKhslPrompt s := by
  rw [isKhslPrompt, isKhslPrompt, khslWordFrom_return, endsAsPrompt_return]

theorem any_isKhslPrompt_iff :
    (splitLines s).any isKhslPrompt = true ↔ ∃ line ∈ s.splitOn 10, isKhslPrompt line = true := by
  have hsame := sameLine_splitLines s
  generalize splitLines s = lns at hsame
  generalize s.splitOn 10 = lines at hsame
  induction hsame with
  | nil => simp
  | @cons ln line lns lines hhead _ ih =>
      have hline : isKhslPrompt line = isKhslPrompt ln := by
        rcases hhead with rfl | rfl
        · rfl
        · exact isKhslPrompt_return ln
      rw [List.any_cons, Bool.or_eq_true, List.exists_mem_cons_iff, hline]
      exact or_congr_right ih

/-! ## Chunks -/

/-- What `tryPromoteDaemonTabToKhslIfOutput` looks for in a chunk. -/
def showsKhsl (data : JsString) : Bool := hasKhslTitle data || (splitLines data).any isKhslPrompt

theorem showsKhsl_iff : showsKhsl s = true ↔
    (∃ w, IsKhslTitle w ∧ w <:+: s) ∨ ∃ line ∈ s.splitOn 10, isKhslPrompt line = true := by
  rw [showsKhsl, Bool.or_eq_true, hasKhslTitle_iff, any_isKhslPrompt_iff]

theorem isKhslTitle_ne_nil (h : IsKhslTitle w) : w ≠ [] := by
  obtain ⟨t, ⟨d, ending, rfl, _⟩, _⟩ := h
  exact List.cons_ne_nil _ _

theorem shows_flatten_iff (cs : List JsString) :
    showsKhsl cs.flatten = true ↔ KeepsSign cs ∨ CutsSign cs := by
  have htitle : (∃ w, IsKhslTitle w ∧ w <:+: cs.flatten) ↔
      (∃ w, IsKhslTitle w ∧ ∃ c ∈ cs, w <:+: c) ∨ ∃ w, IsKhslTitle w ∧ Straddles w cs := by
    rw [← exists_or]
    refine exists_congr fun w => ?_
    rw [← and_or_left]
    exact and_congr_right fun hw => infix_flatten_iff (isKhslTitle_ne_nil hw) cs
  have hprompt : (∃ line ∈ cs.flatten.splitOn 10, isKhslPrompt line = true) ↔
      (∃ line, [line] ∈ pieces 10 cs ∧ isKhslPrompt line = true) ∨
        ∃ line ∈ pieces 10 cs, 2 ≤ line.length ∧ isKhslPrompt line.flatten = true := by
    rw [← map_flatten_pieces]
    simp only [List.mem_map, exists_exists_and_eq_and]
    constructor
    · rintro ⟨g, hg, hshows⟩
      match g, hg, hshows with
      | [], _, hshows => exact absurd hshows (by decide)
      | [line], hg, hshows => exact .inl ⟨line, hg, by simpa using hshows⟩
      | _ :: _ :: _, hg, hshows => exact .inr ⟨_, hg, by simp, hshows⟩
    · rintro (⟨line, hg, hshows⟩ | ⟨g, hg, _, hshows⟩)
      · exact ⟨[line], hg, by simpa using hshows⟩
      · exact ⟨g, hg, hshows⟩
  rw [showsKhsl_iff, htitle, hprompt, KeepsSign, CutsSign]
  exact or_or_or_comm

theorem shows_chunk_iff (cs : List JsString) :
    (∃ c ∈ cs, showsKhsl c = true) ↔ KeepsSign cs ∨ CutsOutPrompt cs := by
  have hpiece : (∃ c ∈ cs, ∃ line ∈ c.splitOn 10, isKhslPrompt line = true) ↔
      ∃ g ∈ pieces 10 cs, ∃ piece ∈ g, isKhslPrompt piece = true := by
    constructor
    · rintro ⟨c, hc, line, hline, hshows⟩
      obtain ⟨g, hg, hmem⟩ := exists_mem_pieces.mpr ⟨c, hc, hline⟩
      exact ⟨g, hg, line, hmem, hshows⟩
    · rintro ⟨g, hg, piece, hmem, hshows⟩
      obtain ⟨c, hc, hline⟩ := exists_mem_pieces.mp ⟨g, hg, hmem⟩
      exact ⟨c, hc, piece, hline, hshows⟩
  have hsplit : (∃ g ∈ pieces 10 cs, ∃ piece ∈ g, isKhslPrompt piece = true) ↔
      (∃ line, [line] ∈ pieces 10 cs ∧ isKhslPrompt line = true) ∨ CutsOutPrompt cs := by
    constructor
    · rintro ⟨g, hg, piece, hmem, hshows⟩
      match g, hg, hmem with
      | [line], hg, hmem =>
          rw [List.mem_singleton] at hmem
          exact .inl ⟨line, hg, hmem ▸ hshows⟩
      | _ :: _ :: _, hg, hmem => exact .inr ⟨_, hg, by simp, piece, hmem, hshows⟩
    · rintro (⟨line, hg, hshows⟩ | ⟨g, hg, _, piece, hmem, hshows⟩)
      · exact ⟨[line], hg, line, List.mem_singleton_self line, hshows⟩
      · exact ⟨g, hg, piece, hmem, hshows⟩
  have htitle : (∃ c ∈ cs, ∃ w, IsKhslTitle w ∧ w <:+: c) ↔ ∃ w, IsKhslTitle w ∧ ∃ c ∈ cs, w <:+: c := by
    constructor
    · rintro ⟨c, hc, w, hw, hin⟩
      exact ⟨w, hw, c, hc, hin⟩
    · rintro ⟨w, hw, c, hc, hin⟩
      exact ⟨c, hc, w, hw, hin⟩
  simp only [showsKhsl_iff, and_or_left, exists_or]
  rw [htitle, hpiece, hsplit, KeepsSign, or_assoc]

/-! ## The tab -/

theorem promote_eq {tab : StripTab} (hkind : tab.kind = .shell) (hprofile : tab.profile = "daemon")
    (hnot : tab.presentationKhsl = false) (data : JsString) : tryPromoteDaemonTabToKhslIfOutput tab data =
      if showsKhsl data then applyKhslTabPresentation tab else tab := by
  have hguard : ¬ (tab.kind ≠ .shell ∨ tab.profile ≠ "daemon" ∨ tab.presentationKhsl = true) := by
    simp [hkind, hprofile, hnot]
  rw [tryPromoteDaemonTabToKhslIfOutput, if_neg hguard, showsKhsl]
  cases hasKhslTitle data <;> rfl

theorem promote_presented {tab : StripTab} (h : tab.presentationKhsl = true) (data : JsString) :
    tryPromoteDaemonTabToKhslIfOutput tab data = tab := by
  simp [tryPromoteDaemonTabToKhslIfOutput, h]

theorem writeChunks_presented {tab : StripTab} (h : tab.presentationKhsl = true) (cs : List JsString) :
    writeChunks tab cs = tab := by
  induction cs with
  | nil => rfl
  | cons c cs ih =>
      rw [writeChunks, List.foldl_cons, promote_presented h]
      exact ih

theorem apply_presented (tab : StripTab) : (applyKhslTabPresentation tab).presentationKhsl = true := by
  unfold applyKhslTabPresentation
  split
  · assumption
  · rfl

/-- The first chunk that shows KHSL decides, and nothing changes after it. -/
theorem writeChunks_eq {tab : StripTab} (hkind : tab.kind = .shell) (hprofile : tab.profile = "daemon")
    (hnot : tab.presentationKhsl = false) (cs : List JsString) :
    writeChunks tab cs = if cs.any showsKhsl then applyKhslTabPresentation tab else tab := by
  induction cs with
  | nil => rfl
  | cons c cs ih =>
      rw [writeChunks, List.foldl_cons, promote_eq hkind hprofile hnot, List.any_cons]
      cases showsKhsl c with
      | true => exact writeChunks_presented (apply_presented tab) cs
      | false => exact ih

end Kworker.Terminal
