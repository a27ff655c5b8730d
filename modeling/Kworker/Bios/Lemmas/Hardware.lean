import Kworker.Bios.Hardware
import Kworker.Bios.Lemmas.Draw
import Mathlib.Data.List.Nodup

/-!
# The array of lines and what it shows
-/

namespace Kworker.Bios

open Kworker.Lib

variable {ops : Option BoardOps} {p p' : HwPage} {key : Key}

/-! ## What one pass of the loop does -/

theorem hardwareLine_idem (lines : Nat → String) (ctx : Ctx) :
    hardwareLine ops (hardwareLine ops lines ctx) ctx = hardwareLine ops lines ctx := by
  funext i
  unfold hardwareLine
  split_ifs <;> rfl

theorem hardwareLine_of_fill {fill : Env → List String} (hfill : ops.bind (·.fill_hw_lines) = some fill)
    (lines : Nat → String) (ctx : Ctx) : hardwareLine ops lines ctx = lines := by
  funext i
  simp [hardwareLine, hfill]

theorem toggleHardware_screen (sel : Nat) (s : Setup) : (toggleHardware ops sel s).screen = s.screen := by
  unfold toggleHardware
  split
  · rfl
  · split <;> rfl

/-- The page as it is drawn after an Enter. -/
def HwPage.entered (ops : Option BoardOps) (p : HwPage) : HwPage :=
  HwPage.redraw ops { p with
    ctx := (toggleHardware ops p.sel p.setup).ctx
    ram := (toggleHardware ops p.sel p.setup).ram }

theorem hwStep_cases (hstep : hwStep ops p key = some p') :
    (key = .enter ∧ p' = p.entered ops) ∨ (key ≠ .enter ∧ (p' = p ∨
      p' = HwPage.redraw ops { p with sel := moveSel p.line_count p.sel key })) := by
  cases key with
  | none => cases hstep; exact .inr ⟨nofun, .inl rfl⟩
  | esc => cases hstep
  | enter => cases hstep; exact .inl ⟨rfl, rfl⟩
  | up | down | left | right | f10 => cases hstep; exact .inr ⟨nofun, .inr rfl⟩

/-- Without its lines the loop is the page of the menu. -/
theorem hwStep_setup (hstep : hwStep ops p key = some p') : p.setup.key ops key = .ok p'.setup := by
  cases key with
  | esc => cases hstep
  | enter =>
      cases hstep
      have hscreen : (toggleHardware ops p.sel p.setup).screen = p.setup.screen := toggleHardware_screen _ _
      show Except.ok (toggleHardware ops p.sel p.setup) = _
      generalize toggleHardware ops p.sel p.setup = s at hscreen
      obtain ⟨screen, ctx, ram⟩ := s
      cases hscreen
      rfl
  | none | up | down | left | right | f10 => cases hstep; rfl

theorem enter_setup (lines : Nat → String) (s : Setup) :
    (HwPage.enter ops lines s.ctx s.ram).setup = s.enter ops .hardware := rfl

/-! ## The invariant of the loop -/

/-- The selection is a row, there are two rows when the loop writes them, and they are drawn. -/
structure HwPage.Sound (ops : Option BoardOps) (p : HwPage) : Prop where
  inRange : p.sel < p.line_count
  count : ops.bind (·.fill_hw_lines) = none → p.line_count = 2
  drawn : hardwareLine ops p.lines p.ctx = p.lines

theorem sound_enter (lines : Nat → String) (ctx : Ctx) (ram : Env) :
    (HwPage.enter ops lines ctx ram).Sound ops where
  inRange := hwLineCount_pos ops ram
  count := by
    intro hfill
    show hwLineCount ops ram = 2
    rw [hwLineCount, hfill]
  drawn := hardwareLine_idem _ _

theorem sound_step (hp : p.Sound ops) (hstep : hwStep ops p key = some p') : p'.Sound ops := by
  obtain ⟨_, rfl⟩ | ⟨_, rfl | rfl⟩ := hwStep_cases hstep
  · exact ⟨hp.inRange, hp.count, hardwareLine_idem _ _⟩
  · exact hp
  · exact ⟨moveSel_lt hp.inRange key, hp.count, hardwareLine_idem _ _⟩

theorem rows_setup (hp : p.Sound ops) (hvb : Bool) :
    p.setup.rows ops { lines := p.lines, hvb } = p.rows := by
  show hardwareRows ops p.lines p.ctx p.sel p.line_count = p.rows
  rw [hardwareRows, hp.drawn, HwPage.rows]

/-! ## What the rows show -/

theorem HwPage.texts_eq (p : HwPage) : p.rows.map (·.text) = (List.range p.line_count).map p.lines := by
  rw [HwPage.rows, List.map_map]
  rfl

/-- The lines the loop writes itself are never out of date. -/
theorem showsState_of_no_fill (hfill : ops.bind (·.fill_hw_lines) = none) (hp : p.Sound ops) :
    p.ShowsState ops := by
  rw [HwPage.ShowsState, HwPage.texts_eq, hp.count hfill, ← hp.drawn, hwLines, hfill]
  simp [List.range_succ, hardwareLine, hfill]

theorem enter_texts {fill : Env → List String} (hfill : ops.bind (·.fill_hw_lines) = some fill)
    (lines : Nat → String) (ctx : Ctx) (ram : Env) (hne : fill ram ≠ []) :
    (HwPage.enter ops lines ctx ram).rows.map (·.text) = fill ram := by
  have hcount : hwLineCount ops ram = (fill ram).length := by
    rw [hwLineCount, hfill]
    exact if_neg (List.length_eq_zero_iff.not.mpr hne)
  rw [HwPage.texts_eq, HwPage.enter, HwPage.redraw, hfill, hardwareLine_of_fill hfill]
  refine List.ext_getElem (by simpa using hcount) fun i hi hi' => ?_
  simp [List.getD_eq_getElem?_getD, List.getElem?_eq_getElem hi']

theorem enter_showsState_iff (lines : Nat → String) (ctx : Ctx) (ram : Env) :
    (HwPage.enter ops lines ctx ram).ShowsState ops ↔
      ∀ fill, ops.bind (·.fill_hw_lines) = some fill → fill ram ≠ [] := by
  cases hfill : ops.bind (·.fill_hw_lines) with
  | none => exact iff_of_true (showsState_of_no_fill hfill (sound_enter lines ctx ram)) nofun
  | some fill =>
      have htruth : hwLines ops ctx ram = fill ram := by rw [hwLines, hfill]
      constructor
      · intro hshows fill' hfill' hnil
        cases hfill'
        have hlen := congrArg List.length (hshows.trans (htruth.trans hnil))
        rw [HwPage.texts_eq, List.length_map, List.length_range] at hlen
        exact absurd hlen (hwLineCount_pos ops ram).ne'
      · intro h
        exact (enter_texts hfill lines ctx ram (h fill rfl)).trans htruth.symm

theorem entered_ram_of_some {toggle : Nat → Env → Env} (h : ops.bind (·.hw_toggle_item) = some toggle)
    (p : HwPage) : (p.entered ops).ram = toggle p.sel p.ram := by
  simp only [HwPage.entered, HwPage.redraw, toggleHardware, h]
  rfl

theorem entered_ram_of_none (h : ops.bind (·.hw_toggle_item) = none) (p : HwPage) :
    (p.entered ops).ram = p.ram := by
  simp only [HwPage.entered, HwPage.redraw, toggleHardware, h]
  split <;> rfl

/-- With `fill_hw_lines` no pass of the loop changes what is drawn. -/
theorem step_texts {fill : Env → List String} (hfill : ops.bind (·.fill_hw_lines) = some fill)
    (hstep : hwStep ops p key = some p') : p'.rows.map (·.text) = p.rows.map (·.text) := by
  rw [HwPage.texts_eq, HwPage.texts_eq]
  obtain ⟨_, rfl⟩ | ⟨_, rfl | rfl⟩ := hwStep_cases hstep
  · rw [HwPage.entered, HwPage.redraw, hardwareLine_of_fill hfill]
  · rfl
  · rw [HwPage.redraw, hardwareLine_of_fill hfill]

theorem step_showsState_iff (hp : p.Sound ops) (hshows : p.ShowsState ops)
    (hstep : hwStep ops p key = some p') : p'.ShowsState ops ↔ p.KeepsLines ops key := by
  cases hfill : ops.bind (·.fill_hw_lines) with
  | none =>
      refine iff_of_true (showsState_of_no_fill hfill (sound_step hp hstep)) ?_
      intro _ fill toggle h
      rw [hfill] at h
      cases h
  | some fill =>
      have hbefore : p.rows.map (·.text) = fill p.ram := by
        rw [HwPage.ShowsState, hwLines, hfill] at hshows
        exact hshows
      have hafter : p'.ShowsState ops ↔ fill p.ram = fill p'.ram := by
        rw [HwPage.ShowsState, step_texts hfill hstep, hbefore, hwLines, hfill]
      rw [hafter]
      obtain ⟨rfl, rfl⟩ | ⟨hkey, rfl | rfl⟩ := hwStep_cases hstep
      · constructor
        · intro h _ fill' toggle hfill' htoggle
          rw [hfill] at hfill'
          cases hfill'
          rw [entered_ram_of_some htoggle] at h
          exact h.symm
        · intro h
          cases htoggle : ops.bind (·.hw_toggle_item) with
          | none => rw [entered_ram_of_none htoggle]
          | some toggle =>
              rw [entered_ram_of_some htoggle]
              exact (h rfl fill toggle hfill htoggle).symm
      · exact iff_of_true rfl fun h => absurd h hkey
      · exact iff_of_true rfl fun h => absurd h hkey

/-! ## What an Enter switches -/

theorem highlighted_eq (hp : p.Sound ops) :
    p.rows.filter (·.highlight) = [⟨p.sel, p.lines p.sel, true⟩] := by
  have hfilter : (List.range p.line_count).filter (fun i => p.sel = i) = [p.sel] := by
    have hcount : (List.range p.line_count).count p.sel = 1 :=
      List.count_eq_one_of_mem List.nodup_range (List.mem_range.mpr hp.inRange)
    simp only [eq_comm (a := p.sel)]
    rw [List.filter_eq, hcount]
    rfl
  rw [HwPage.rows, List.filter_map]
  show ((List.range p.line_count).filter fun i => p.sel = i).map _ = _
  rw [hfilter]
  simp

/-- Enter on a row switches its item, unless the board does not switch and the row is beyond the two
flags: then it is the second flag that changes. -/
theorem entered_iff (p : HwPage) :
    (hwItem ops p.sel).switch ops { p.ctx with dirty := true } p.ram =
      ((p.entered ops).ctx, (p.entered ops).ram) ↔
    (ops.bind (·.hw_toggle_item) = none → p.sel ≤ 1) := by
  cases htoggle : ops.bind (·.hw_toggle_item) with
  | some toggle =>
      refine iff_of_true ?_ nofun
      simp only [HwPage.entered, HwPage.redraw, toggleHardware, hwItem, HwItem.switch, htoggle]
      rfl
  | none =>
      simp only [HwPage.entered, HwPage.redraw, toggleHardware, hwItem, htoggle]
      by_cases h0 : p.sel = 0
      · simp [h0, HwItem.switch, HwPage.setup]
      · by_cases h1 : p.sel = 1
        · simp [h1, HwItem.switch, HwPage.setup]
        · have hbeyond : ¬ p.sel ≤ 1 := by omega
          simp [h0, h1, hbeyond, HwItem.switch, HwPage.setup]

theorem switchesHighlighted_iff (key : Key) (hp : p.Sound ops) :
    p.SwitchesHighlighted ops key ↔ p.HasItem ops key := by
  constructor
  · rintro h rfl
    obtain ⟨row, hrow, hswitch⟩ := h rfl (p.entered ops) rfl
    rw [highlighted_eq hp] at hrow
    cases hrow
    exact (entered_iff p).mp hswitch
  · rintro h rfl p' hstep
    cases hstep
    exact ⟨_, highlighted_eq hp, (entered_iff p).mpr (h rfl)⟩

end Kworker.Bios
