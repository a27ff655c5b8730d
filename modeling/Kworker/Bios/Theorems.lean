import Kworker.Bios.Lemmas.Boot
import Kworker.Bios.Lemmas.Draw
import Kworker.Bios.Lemmas.Flush
import Kworker.Bios.Lemmas.Framebuffer
import Kworker.Bios.Lemmas.Hardware
import Kworker.Bios.Lemmas.Heard
import Kworker.Bios.Lemmas.Pages
import Kworker.Bios.Lemmas.Skip
import Kworker.Bios.Lemmas.Typing
import Kworker.Bios.Lemmas.Wait

/-!
# The BIOS
-/

namespace Kworker.Bios

open Kworker.Lib

/-! ## One press of F10 during the countdown -/

/-- Whenever the five bytes of one press arrive during the countdown, on the UART or on a USB keyboard, which may be
found as late as in this turn, and whatever the board key does: the wait ends with `true` exactly if no call of
`kh_bios_poll_key` takes the first byte and none feeds a 0 to the matcher after a part of the press, or the board
key is seen (in the first case not later). -/
theorem wait_f10_press_iff (S : Source) (env : Countdown) (delay_sec : Int)
    (h : OnePress S env delay_sec) :
    (kh_bios_wait_f10 env delay_sec).1 = true ↔
      EscLeftToDrain S [] (env.items delay_sec) ∧ NoZeroFed S [] (env.items delay_sec) := by
  rw [wait_f10_eq, armed_eq h.flush S]
  refine run_until_press h.press h.other h.final fun hS pre i post hsplit hpre hi => ?_
  obtain ⟨hattached, hstays⟩ := h.attached hS pre i post hsplit hpre hi
  refine ⟨?_, hstays⟩
  rcases hattached with ⟨hinit, n, hn, hfound⟩ | hlater
  · left
    rw [Bool.and_eq_true, decide_eq_true_iff, List.any_eq_true]
    exact ⟨hinit, n, List.mem_range.mpr hn, hfound⟩
  · exact Or.inr hlater

/-- The keyboard is found after the first drain, and the press comes in the next turn. -/
def latePress : Countdown where
  rounds _ := { usbkbd := true, passes := [{ usbkbd := true, drain := { usb := F10_SEQ } }] }

theorem wait_f10_late_press : (kh_bios_wait_f10 latePress 0).1 = true := by
  refine (wait_f10_press_iff .usb latePress 0 ⟨rfl, rfl, rfl, ?_, ?_⟩).mpr ⟨?_, Or.inl ?_⟩
  · intro i hi
    cases hi
    rfl
  · intro _ pre i post hsplit _ hi
    have hall : ∀ j ∈ latePress.items 0, j.usbkbd = true := by decide
    rw [hsplit] at hall
    refine ⟨?_, fun j hj => hall j (List.mem_append_right _ hj)⟩
    cases pre with
    | nil =>
        cases hsplit
        exact absurd rfl hi
    | cons j pre => exact Or.inr (Or.inl ⟨j, List.mem_cons_self .., hall j (List.mem_cons_self ..)⟩)
  · refine everywhere_cons.mpr ⟨fun hesc => hesc.elim, everywhere_cons.mpr ⟨fun hesc => ?_, everywhere_nil⟩⟩
    cases hesc.1
  · refine everywhere_cons.mpr ⟨fun hzero => hzero, everywhere_cons.mpr ⟨fun hzero => ?_, everywhere_nil⟩⟩
    exact hzero.2.1 rfl

def splitPress : Countdown where
  rounds _ :=
    { passes := [{ poll := { look₀ := { tstc := { uart := [0x1b] } } } },
        { drain := { uart := [0x5b, 0x32, 0x31, 0x7e] } }] }

theorem wait_f10_split_press :
    OnePress .uart splitPress 0 ∧ (kh_bios_wait_f10 splitPress 0).1 = false := by
  refine ⟨⟨rfl, rfl, rfl, ?_, ?_⟩, by decide +kernel⟩
  · intro i hi
    cases hi
    rfl
  · intro hS
    cases hS

/-! ## Enter and Esc during the countdown -/

/-- One byte of Enter or Esc arrives at any point of the countdown: the wait ends for it in this turn or
the next one exactly if it arrives between the drain and the first check of `kh_bios_poll_key`, or no
turn follows. Else the drain reads it and the countdown goes on. -/
theorem wait_f10_skips_iff (S : Source) (c : UInt8) (env : Countdown) (delay_sec : Int)
    (pre : List Item) (i : Item) (post : List Item) (h : OneByte S c env delay_sec pre i post)
    (hc : c = 0x0d ∨ c = 0x0a ∨ c = 0x1b) :
    SkipsNext env delay_sec pre i post ↔ i.BetweenReaders S ∨ ∀ j ∈ post, j.isPass = false := by
  have hwait : kh_bios_wait_f10 env delay_sec = expire ((pre ++ i :: post).foldlM Item.step env.armed) := by
    rw [wait_f10_eq, h.items]
  rcases h.outcome hc with ⟨hbetween, l, hl⟩ | ⟨hbetween, hgoes⟩
  · refine iff_of_true ⟨?_, fun _ => ⟨l, hl _⟩⟩ (Or.inl hbetween)
    rw [hwait, hl]
    rfl
  · obtain ⟨last, hlast⟩ := hgoes post (fun _ hj => hj) (head_untilPass post).symm
    obtain ⟨next, hnext⟩ := hgoes (untilPass post) (fun _ hj => mem_of_mem_untilPass hj) rfl
    rw [or_iff_right hbetween]
    constructor
    · intro hskips j hj
      rw [← Bool.not_eq_true]
      intro hpass
      obtain ⟨l, hl⟩ := hskips.next ⟨j, hj, hpass⟩
      rw [hnext] at hl
      cases hl
    · intro hnone
      constructor
      · rw [hwait, hlast]
        rfl
      · rintro ⟨j, hj, hpass⟩
        rw [hnone j hj] at hpass
        cases hpass

/-- Enter arrives when the drain has looked. -/
def enterPass : Pass := { poll := { look₀ := { tstc := { uart := [0x0d] } } } }

def laterEnter : Countdown where
  usb_init := -1
  rounds _ := { passes := [enterPass, {}] }

theorem wait_f10_later_enter :
    SkipsNext laterEnter 0 [.first (laterEnter.rounds 0)] (.pass enterPass) [.pass {}] := by
  refine (wait_f10_skips_iff .uart 0x0d laterEnter 0 _ _ _ ?_ (Or.inl rfl)).mpr (Or.inl ?_)
  · exact ⟨rfl, rfl, rfl, rfl, rfl, rfl, by decide, nofun⟩
  · intro hnil
    cases hnil

/-- Enter arrives while a second begins, and two turns follow. -/
def earlyEnter : Countdown where
  usb_init := -1
  rounds _ := { drain := { uart := [0x0d] }, passes := [{}, {}] }

/-- The drain reads it, and the countdown goes on. -/
theorem wait_f10_early_enter :
    let i := Item.first (earlyEnter.rounds 0)
    OneByte .uart 0x0d earlyEnter 0 [] i [.pass {}, .pass {}] ∧
    ¬ SkipsNext earlyEnter 0 [] i [.pass {}, .pass {}] := by
  refine ⟨⟨rfl, rfl, rfl, rfl, rfl, rfl, by decide, nofun⟩, ?_⟩
  intro hskips
  obtain ⟨l, hl⟩ := hskips.next ⟨.pass {}, List.mem_cons_self .., rfl⟩
  have hgoes : [Item.first (earlyEnter.rounds 0), .pass {}].foldlM Item.step earlyEnter.armed = .ok {} := rfl
  cases hgoes.symm.trans hl

/-! ## Asking for the setup -/

/-- Whatever arrives on the two sources: the wait ends with `true` only when the setup was asked for,
exactly if no byte that is tested is mistaken for a request, or the setup was asked for all the same. -/
theorem wait_f10_asked_iff (env : Countdown) (delay_sec : Int) :
    ((kh_bios_wait_f10 env delay_sec).1 = true → env.Asked delay_sec) ↔
      Everywhere (fun pre r => ¬ (env.heard pre).Mistakes r) (env.readings delay_sec) ∨
        env.Asked delay_sec := by
  have hstart : Heard.tests { uart := env.flush.take 64 } = (env.armed.f10_match, false) := by
    rw [Countdown.armed, usb_keyboard_start]
    rfl
  obtain ⟨henter, hboard⟩ := run_listened (env.items delay_sec) hstart
  rw [wait_f10_eq]
  constructor
  · intro honly
    by_cases hasked : env.Asked delay_sec
    · exact Or.inr hasked
    · refine Or.inl fun pre r post hsplit hmistake => hasked (honly (henter ?_))
      have hsplit : readings env.armed (env.items delay_sec) = pre ++ r :: post := hsplit
      rw [hsplit, after_append, after_cons]
      exact after_enter (mistakes_enter hmistake)
  · rintro (hnone | hasked) htrue
    · rcases hboard htrue with hb | he
      · obtain ⟨pre, post, hsplit⟩ := List.append_of_mem hb
        exact ⟨pre, .board, post, hsplit, trivial⟩
      · obtain ⟨pre, r, post, hsplit, hasks | hmistake⟩ := exists_of_enter rfl he
        · exact ⟨pre, r, post, hsplit, hasks⟩
        · exact absurd hmistake (hnone pre r post hsplit)
    · exact hasked

/-- In a countdown that runs to its end, what was thrown away, what was read and what still waits is what
arrived. -/
theorem heard_all (S : Source) (env : Countdown) (delay_sec : Int) (l : Line)
    (hrun : (env.items delay_sec).foldlM Item.step env.armed = .ok l) :
    (env.heard (env.readings delay_sec)).on S ++ l.queue S =
      (if S = .uart then env.flush else []) ++ arrivals S (env.items delay_sec) := by
  have hall := readings_on (h := { uart := env.flush.take 64 }) (S := S) hrun
  rw [← List.append_assoc] at hall
  have hstart : Heard.on { uart := env.flush.take 64 } S ++ env.armed.queue S =
      if S = .uart then env.flush else [] := by
    rw [Countdown.armed, usb_keyboard_start]
    cases S with
    | uart => exact List.take_append_drop 64 env.flush
    | usb => rfl
  rw [hstart] at hall
  exact hall

/-- The key Down is pressed once while a second begins. -/
def downPressed : Countdown where
  usb_init := -1
  rounds _ := { drain := { uart := [0x1b, 0x5b, 0x42] } }

theorem wait_f10_down_pressed :
    (kh_bios_wait_f10 downPressed 0).1 = true ∧ ¬ downPressed.Asked 0 := by
  refine ⟨by decide, ?_⟩
  have hreadings : downPressed.readings 0 =
    [.byte true .uart 0x1b, .byte true .uart 0x5b, .byte true .uart 0x42] := rfl
  rw [not_asked_iff, hreadings]
  simp only [everywhere_cons]
  exact ⟨by decide, by decide, by decide, everywhere_nil⟩

/-- `ESC [ 2` arrives on the UART and `1 ~` on the keyboard. -/
def mixedPress : Countdown where
  usb_init := -1
  rounds _ := { passes := [{ usbkbd := true, drain := { uart := [0x1b, 0x5b, 0x32], usb := [0x31, 0x7e] } }] }

/-- The bytes of two sources are taken for F10. -/
theorem wait_f10_mixed_press :
    (kh_bios_wait_f10 mixedPress 0).1 = true ∧ ¬ mixedPress.Asked 0 := by
  refine ⟨by decide, ?_⟩
  have hreadings : mixedPress.readings 0 =
    [.byte true .uart 0x1b, .byte true .uart 0x5b, .byte true .uart 0x32, .byte true .usb 0x31,
      .byte true .usb 0x7e] := rfl
  rw [not_asked_iff, hreadings]
  simp only [everywhere_cons]
  exact ⟨by decide, by decide, by decide, by decide, by decide, everywhere_nil⟩

/-! ## Lists of keys -/

/-- All input is read, and what is read is the list of the keys exactly if F10 is not among them. -/
theorem poll_keys_iff (S : Source) (usbkbd usb_kbd_ready : Bool) (ps : List Press) (esc : Bool)
    (h : S = .usb → usbkbd = true ∧ usb_kbd_ready = true) :
    let r := pollAll usbkbd (encode ps esc).length (.only S (encode ps esc) 0 usb_kbd_ready)
    bios_key_tstc usbkbd false r.1 = false ∧ (r.2.filter (· ≠ .none) = keys ps esc ↔ Press.f10 ∉ ps) := by
  obtain ⟨m', hread⟩ := pollAll_encode (n := (encode ps esc).length) (m := 0) h (Nat.zero_le _) ps esc
    le_rfl
  simp only [hread]
  exact ⟨by simp [only_tstc h], read_eq_keys_iff ps esc⟩

theorem poll_keys_up_b_enter :
    let ps := [.up, .b false, .enter false]
    let r := pollAll false (encode ps true).length (.only .uart (encode ps true) 0 false)
    bios_key_tstc false false r.1 = false ∧
      (r.2.filter (· ≠ .none) = keys ps true ↔ Press.f10 ∉ ps) :=
  poll_keys_iff .uart false false [.up, .b false, .enter false] true (by intro h; cases h)

/-- One press of F10 comes out as Esc, which the main page takes for leaving without saving. -/
theorem poll_f10_gives_esc :
    let r := pollAll false (encode [.f10] false).length (.only .uart (encode [.f10] false) 0 false)
    r.2.filter (· ≠ .none) = [.esc] ∧ r.2.filter (· ≠ .none) ≠ keys [.f10] false := by
  decide

/-- Arrow keys and Enter that arrive while they are read: in every state of a run the results so far are
the keys that have been read exactly if no call takes an `ESC` whose two bytes have not arrived when it
looks for them; and when everything has been read the results are the list exactly then. -/
theorem typed_keys_iff (S : Source) (usbkbd usb_kbd_ready : Bool) (ps : List Press)
    (calls : List PollEnv) (hread : S = .usb → usbkbd = true ∧ usb_kbd_ready = true)
    (hps : ∀ p ∈ ps, p.ArrowOrEnter) :
    ((typing S usbkbd).Always (Typing.InOrder S ps) (.start usb_kbd_ready ps) calls ↔
      (typing S usbkbd).Guarded (fun s e => e.Whole S s) (.start usb_kbd_ready ps) calls) ∧
    ∀ t, (typing S usbkbd).run (.start usb_kbd_ready ps) calls = some t → t.Done S →
      (t.results.filter (· ≠ .none) = keys ps false ↔
        (typing S usbkbd).Guarded (fun s e => e.Whole S s) (.start usb_kbd_ready ps) calls) := by
  have hs := start_steady usb_kbd_ready ps hread
  have hin := start_inOrder S usb_kbd_ready ps
  exact ⟨always_inOrder_iff hps hs hin calls, fun t hrun hdone => done_results_iff hps hs hin hrun hdone⟩

/-- The key Down arrives as a whole. -/
def wholeDown : List PollEnv := [{ look₀ := { tstc := { uart := [0x1b, 0x5b, 0x42] } } }]

theorem typed_whole_down :
    ∃ t, (typing .uart false).run (.start false [.down]) wholeDown = some t ∧
      t.results.filter (· ≠ .none) = [.down] := by
  refine ⟨_, rfl, ?_⟩
  refine ((typed_keys_iff .uart false false [.down] wholeDown nofun ?_).2 _ rfl ⟨rfl, rfl⟩).mpr ?_
  · intro p hp
    rw [List.mem_singleton.mp hp]
    exact nofun
  · refine (typing .uart false).guarded_cons.mpr fun s' _ => ⟨fun _ => by decide, ?_⟩
    exact (typing .uart false).guarded_nil

/-- The key Down arrives byte by byte, one in each call. -/
def splitDown : List PollEnv :=
  [{ look₀ := { tstc := { uart := [0x1b] } } }, { look₀ := { tstc := { uart := [0x5b] } } },
    { look₀ := { tstc := { uart := [0x42] } } }]

/-- It comes out as Esc and F10. -/
theorem typed_split_down :
    ∃ t, (typing .uart false).run (.start false [.down]) splitDown = some t ∧ t.Done .uart ∧
      t.results.filter (· ≠ .none) = [.esc, .f10] ∧ t.results.filter (· ≠ .none) ≠ keys [.down] false :=
  ⟨_, rfl, ⟨rfl, rfl⟩, by decide, by decide⟩

/-! ## The request for one recovery boot -/

/-- A boot that switches the item on and saves leaves it stored, on every board: it is never used up.
Every later Save and Exit that leaves it untouched requests recovery again. -/
theorem once_recovery_not_consumed (ops : Option BoardOps) (w : World) (i : BootInput)
    (h : SwitchesOnce ops w i) :
    ¬ OnceConsumed ops (w.boot ops i) ∧
    ∀ later v j, (boots ops).run (w.boot ops i) later = some v →
      (boots ops).Guarded (SavesNothing ops) (w.boot ops i) later → SavesUntouched ops v j →
      ops.any (·.set_recovery_next) = true → (v.boot ops j).last.any (·.2.recoveryRequested) = true := by
  have hstored := switchesOnce_stored h
  constructor
  · rintro ⟨hoff, _⟩
    rw [hstored] at hoff
    cases hoff
  · intro later v j hrun hquiet huntouched hops
    apply savesUntouched_requests huntouched _ hops
    rw [stored_of_savesNothing hrun hquiet, hstored]

def plainBoard : BoardOps := { features := KH_BIOS_FEAT_BOOT_MENU }

/-- Into the menu, to 'Boot Recovery once', Enter, and back to Save and Exit. -/
def switchOnce : BootInput where
  countdown := { usb_init := -1, rounds := fun _ => { drain := { uart := [0x62] } } }
  keys := [.down, .enter, .down, .down, .enter, .esc, .down, .down, .down, .enter]

def saveAgain : BootInput where
  countdown := { usb_init := -1, rounds := fun _ => { drain := { uart := [0x62] } } }
  keys := [.down, .down, .down, .enter]

theorem switchOnce_switches : SwitchesOnce (some plainBoard) { stored := Env.empty } switchOnce :=
  ⟨by decide, _, by rfl, by decide⟩

theorem switchOnce_not_consumed :
    ¬ OnceConsumed (some plainBoard) (World.boot (some plainBoard) { stored := Env.empty } switchOnce) :=
  (once_recovery_not_consumed (some plainBoard) { stored := Env.empty } switchOnce
    switchOnce_switches).1

/-- The item is switched on once, and two Save and Exits request recovery. -/
theorem once_recovery_requested_twice :
    let w := World.boot (some plainBoard) { stored := Env.empty } switchOnce
    SwitchesOnce (some plainBoard) { stored := Env.empty } switchOnce ∧
    w.last.any (·.2.recoveryRequested) = true ∧ SavesUntouched (some plainBoard) w saveAgain ∧
    (w.boot (some plainBoard) saveAgain).last.any (·.2.recoveryRequested) = true ∧
    ¬ OnceConsumed (some plainBoard) w := by
  refine ⟨switchOnce_switches, by decide, ⟨_, true, by rfl, by decide, by decide⟩, by decide, ?_⟩
  rintro ⟨hoff, _⟩
  revert hoff
  decide

/-! ## The default -/

/-- In every run of boots, each boot requests recovery as the stored default says exactly if no boot
that goes on to the boot command finds the default to be recovery. -/
theorem follows_default_iff (ops : Option BoardOps) (stored : Env) (inputs : List BootInput) :
    (boots ops).Always World.FollowsDefault { stored } inputs ↔
      (boots ops).Guarded
        (fun w i => i.GoesOn ops w.stored → kh_bios_env_get_default_boot w.stored ≠ .recovery)
        { stored } inputs := by
  apply (boots ops).always_iff_guarded (I := fun _ => True) (fun _ _ _ _ _ => trivial)
  · intro w i w' _ _ hstep
    cases hstep
    exact boot_followsDefault_iff w
  · trivial
  · intro _ _ hnone
    cases hnone

/-- The default is recovery and nobody presses a key. -/
theorem default_recovery_not_requested :
    ¬ (boots (some plainBoard)).Always World.FollowsDefault
      { stored := Env.empty.set ENV_DEFAULT_BOOT "recovery" }
      [{ countdown := { usb_init := -1, rounds := fun _ => {} } }] := by
  intro h
  have hboot := h _ _ List.prefix_rfl rfl _ _ rfl rfl
  have hreq := hboot.1 (by decide)
  revert hreq
  decide

/-! ## Saving and discarding -/

/-- On every board, the session of the next boot begins with what was saved, and after Discard or Esc
with what this session began with. -/
theorem next_session_loads (o : BoardOps) (stored : Env) (i : BootInput) (exit : Exit) (s : Setup)
    (h : i.Leaves (some o) stored exit s) (next : BootInput) :
    let loaded := next.loaded (kh_bios_boot_check (some o) stored i).1
    (exit = .save → i.save = true → loaded.default_boot = s.ctx.default_boot ∧
      loaded.gmac0 = s.ctx.gmac0 ∧ loaded.gmac1 = s.ctx.gmac1) ∧
    (exit = .discard → loaded = i.loaded stored) := by
  constructor
  · rintro rfl hsave
    rw [stored_of_save h hsave, loaded_eq, ctx_load_ctx_env]
    exact ⟨rfl, rfl, rfl⟩
  · rintro rfl
    rw [stored_of_discard h, loaded_eq, loaded_eq]

/-- GMAC0 is switched off and saved, and the default is still recovery. -/
def switchGmac : BootInput where
  uart := some "serial@fe660000"
  countdown := { usb_init := -1, rounds := fun _ => { drain := { uart := [0x62] } } }
  keys := [.down, .enter, .enter, .esc, .down, .down, .down, .enter]

theorem switchGmac_next_session :
    let o : BoardOps := { features := KH_BIOS_FEAT_HW_MENU }
    let stored := Env.empty.set ENV_DEFAULT_BOOT "recovery"
    (switchGmac.loaded stored).gmac0 = true ∧
    (switchGmac.loaded (kh_bios_boot_check (some o) stored switchGmac).1).gmac0 = false ∧
    (switchGmac.loaded (kh_bios_boot_check (some o) stored switchGmac).1).default_boot = .recovery := by
  obtain ⟨hboot, hgmac0, _⟩ := (next_session_loads { features := KH_BIOS_FEAT_HW_MENU }
    (Env.empty.set ENV_DEFAULT_BOOT "recovery") switchGmac .save _ ⟨by decide, by rfl⟩ switchGmac).1 rfl rfl
  exact ⟨by decide, hgmac0.trans (by decide), hboot.trans (by decide)⟩

/-- On a board without `hw_toggle_item`, saving changes no other variable than the four of the setup
exactly if no serial device is found or `stdin` already names it. -/
theorem save_frame_iff (o : BoardOps) (stored : Env) (i : BootInput) (s : Setup)
    (hops : o.hw_toggle_item = none) (h : i.Leaves (some o) stored .save s) (hsave : i.save = true) :
    (∀ name, name ∉ savedVariables → (kh_bios_boot_check (some o) stored i).1 name = stored name) ↔
      i.StdinStored stored := by
  have hram : s.ram = bios_serial_init i.uart stored := run_ram hops h.2
  rw [stored_of_save h hsave, hram]
  constructor
  · intro hframe name huart
    have hstdin := hframe "stdin" (by decide)
    rw [ctx_env_of_notMem _ _ (by decide), huart, serial_init_stdin] at hstdin
    exact hstdin.symm
  · intro hstored name hname
    rw [ctx_env_of_notMem _ _ hname]
    cases huart : i.uart with
    | none => rfl
    | some dev =>
        by_cases hn : name = "stdin"
        · rw [hn, hstored dev huart, serial_init_stdin]
        · exact serial_init_of_ne (some dev) stored hn

theorem switchGmac_frame :
    let o : BoardOps := { features := KH_BIOS_FEAT_HW_MENU }
    let stored := Env.empty.set "stdin" "serial@fe660000,usbkbd"
    ∀ name, name ∉ savedVariables →
      (kh_bios_boot_check (some o) stored switchGmac).1 name = stored name := by
  refine (save_frame_iff { features := KH_BIOS_FEAT_HW_MENU }
    (Env.empty.set "stdin" "serial@fe660000,usbkbd") switchGmac _ rfl ⟨by decide, by rfl⟩ rfl).mpr ?_
  intro name hname
  cases hname
  decide

/-- The stored environment has no `stdin`, and after saving it has one. -/
theorem switchGmac_stores_stdin :
    let o : BoardOps := { features := KH_BIOS_FEAT_HW_MENU }
    ¬ ∀ name, name ∉ savedVariables →
      (kh_bios_boot_check (some o) Env.empty switchGmac).1 name = Env.empty name := by
  intro o hframe
  have hstdin := hframe "stdin" (by decide)
  revert hstdin
  decide

/-! ## A save that fails -/

/-- Save Configuration and Exit is all or nothing exactly if `env_save` succeeds. When it fails the
changes no longer count as unsaved, and recovery is requested if they ask for it. -/
theorem save_exit_all_or_nothing_iff (ops : Option BoardOps) (save : SaveOutcome) (ctx : Ctx) (ram : Env) :
    ((saveExit ops save ctx ram).AllOrNothing ops save ctx ram ↔ save = .written) ∧
    (saveExit ops save ctx ram).ctx = { ctx with dirty := false } ∧
    (saveExit ops save ctx ram).recoveryRequested = requestsRecovery ops (ctx_env ctx ram) := by
  refine ⟨?_, rfl, rfl⟩
  constructor
  · intro h
    by_contra hfailed
    have hsaved := (h.nothing hfailed).2.2.2
    rw [saveExit_config_saved] at hsaved
    cases hsaved
  · rintro rfl
    refine ⟨fun _ => ⟨rfl, rfl, rfl, rfl⟩, fun hfailed => absurd rfl hfailed, ?_⟩
    intro hreq
    exact requestsRecovery_want hreq

/-- The default is switched to recovery and the store cannot be written: the request is made, and the
store still says normal. -/
theorem failed_save_requests_recovery :
    let ctx : Ctx := { ctx_load Env.empty with dirty := true, default_boot := .recovery }
    let e := saveExit (some plainBoard) (.failed Env.empty) ctx Env.empty
    e.ctx.dirty = false ∧ e.recoveryRequested = true ∧ wantRecovery e.stored = false ∧
    ¬ e.AllOrNothing (some plainBoard) (.failed Env.empty) ctx Env.empty := by
  refine ⟨rfl, by decide, by decide, fun h => ?_⟩
  have hwant := h.agree (by decide)
  revert hwant
  decide

/-! ## The selection in the menus -/

/-- On every board and after every sequence of keys the menu is sound on the page that waits for a
key. -/
theorem menu_ok (ops : Option BoardOps) (ram : Env) (keys : List Key) (s : Setup)
    (hrun : kh_bios_run ops ram keys = .ok s) (shown : Shown) : s.MenuOk ops shown := by
  apply menuOk_of_inRange
  refine run_inRange ?_ hrun
  exact Screen.inRange_of rfl (main_count_pos ops)

def noLines : Shown := { lines := fun _ => "", hvb := false }

/-- On a board without features the second row of the main page is Advanced. -/
theorem menu_ok_advanced :
    ∃ s, kh_bios_run (some {}) Env.empty [.down] = .ok s ∧ s.MenuOk (some {}) noLines ∧
      (⟨1, "Advanced", true⟩ : Row) ∈ s.rows (some {}) noLines := by
  refine ⟨_, rfl, menu_ok (some {}) Env.empty [.down] _ rfl noLines, ?_⟩
  show (⟨1, "Advanced", true⟩ : Row) ∈ mainRows (some {}) 1
  decide

/-! ## The Hardware page -/

/-- The page always shows its state, and each Enter switches what is highlighted, exactly if
`fill_hw_lines` returns lines at the start, no Enter changes them where the board also switches, and no
Enter comes beyond the two flags where it does not. -/
theorem page_hardware_iff (ops : Option BoardOps) (lines : Nat → String) (ctx : Ctx) (ram : Env)
    (keys : List Key) :
    let p := HwPage.enter ops lines ctx ram
    ((hardware ops).Always (HwPage.ShowsState ops) p keys ∧
      (hardware ops).Guarded (HwPage.SwitchesHighlighted ops) p keys) ↔
    (∀ fill, ops.bind (·.fill_hw_lines) = some fill → fill ram ≠ []) ∧
      (hardware ops).Guarded (fun q key => q.KeepsLines ops key ∧ q.HasItem ops key) p keys := by
  intro p
  have hsound : p.Sound ops := sound_enter lines ctx ram
  have hitem := (hardware ops).guarded_congr (fun _ _ _ => sound_step)
    (fun _ key hq => switchesHighlighted_iff key hq) hsound keys
  rw [hitem, Machine.guarded_and, ← enter_showsState_iff lines ctx ram, ← and_assoc]
  refine and_congr_left fun _ => ?_
  constructor
  · intro halways
    have hstart : p.ShowsState ops := halways [] p List.nil_prefix rfl
    exact ⟨hstart, ((hardware ops).always_iff_guarded (fun _ _ _ => sound_step)
      (fun _ _ _ => step_showsState_iff) hsound hstart keys).mp halways⟩
  · rintro ⟨hstart, hkeeps⟩
    exact ((hardware ops).always_iff_guarded (fun _ _ _ => sound_step)
      (fun _ _ _ => step_showsState_iff) hsound hstart keys).mpr hkeeps

/-- A board whose lines name GMAC0 and whose function switches it in the environment. -/
def gmacBoard : BoardOps where
  features := KH_BIOS_FEAT_HW_MENU
  fill_hw_lines := some fun env => [gmacLine 0 (kh_bios_env_get_gmac 0 env)]
  hw_toggle_item := some fun i env => kh_bios_env_set_gmac i (!kh_bios_env_get_gmac i env) env

/-- After one Enter GMAC0 is off in the context and in the environment, and the page still says that it
is enabled. -/
theorem hardware_shows_old_line :
    ¬ (hardware (some gmacBoard)).Always (HwPage.ShowsState (some gmacBoard))
      (HwPage.enter (some gmacBoard) (fun _ => "") (ctx_load Env.empty) Env.empty) [.enter] := by
  intro h
  have hshows := h [.enter] _ List.prefix_rfl rfl
  revert hshows
  decide

/-! ## The F10 matcher -/

/-- After a reset the matcher answers `true` to a byte exactly when the bytes so far end with F10, and
`f10_match` counts the bytes of the longest proper prefix of F10 they end with; so it is always the index
of a byte of F10. -/
theorem esc_state_feed_exact (f10_match : Nat) (s : List UInt8) :
    ((esc_state_feeds (esc_state_reset f10_match) s).2.length = s.length ∧
      ∀ n < s.length,
        (esc_state_feeds (esc_state_reset f10_match) s).2[n]? = some true ↔ F10_SEQ <:+ s.take (n + 1)) ∧
    IsGreatest {k | k < F10_SEQ.length ∧ F10_SEQ.take k <:+ s}
      (esc_state_feeds (esc_state_reset f10_match) s).1 ∧
    (esc_state_feeds (esc_state_reset f10_match) s).1 < F10_SEQ.length := by
  rw [feeds_eq]
  have hmatched := restarts_matched esc_once matched_reset s
  refine ⟨⟨restarts_length _ _ _, fun n hn => ?_⟩, hmatched, hmatched.1.1⟩
  exact restarts_hit_iff esc_once matched_reset hn

/-! ## Flushing the input -/

/-- Whatever is pending, the flush ends with all of it read, and one byte in each turn, exactly if the
board key is released at the check after the last byte. It ends at all exactly if the key is released at
that check or a later one. -/
theorem flush_input_iff (usbkbd : Bool) (board : Nat → Bool) (l : Line) :
    (FlushesPending usbkbd board l ↔ board (l.pending usbkbd) = false) ∧
    ((∃ fuel, (kh_bios_flush_input usbkbd board fuel l).isSome = true) ↔
      ∃ n, l.pending usbkbd ≤ n ∧ board n = false) :=
  ⟨flushed_iff (l := { l with f10_match := 0 }) board, ends_iff (l := { l with f10_match := 0 }) board⟩

/-- The board key stays pressed: the flush does not end, with no input at all. -/
theorem flush_held_key :
    ¬ FlushesPending false (fun _ => true) {} ∧
    ∀ fuel, kh_bios_flush_input false (fun _ => true) fuel {} = none := by
  constructor
  · intro h
    cases (flushed_iff fun _ => true).mp h
  · intro fuel
    cases hrun : kh_bios_flush_input false (fun _ => true) fuel {} with
    | none => rfl
    | some r =>
        obtain ⟨n, _, hn⟩ := (ends_iff fun _ => true).mp ⟨fuel, Option.isSome_of_mem hrun⟩
        cases hn

/-! ## Drawing -/

/-- On every screen whose lines have `int` offsets: a rectangle whose ends are `int`s is filled, a frame of
at least four by four pixels has a border of two pixels around the inner colour, and of a string of which
the width fits an unsigned `int` each cell shows its glyph, all clipped to the screen; nothing else is
written. -/
theorem drawing_exact (vp : VideoPriv) (hfb : vp.fb ≠ 0) (hvp : vp.OffsetsFit) (m : Memory) :
    (∀ x y w h color, IsInt (x + w) → IsInt (y + h) →
      vp.layout.Draws (rectPicture x y w h color) m (fb_fill_rect (some vp) x y w h color m)) ∧
    (∀ x y w h outer inner, IsInt x → IsInt y → IsInt w → IsInt h → IsInt (x + w) → IsInt (y + h) →
      4 ≤ w → 4 ≤ h →
      vp.layout.Draws (framePicture x y w h outer inner) m (fb_frame (some vp) x y w h outer inner m)) ∧
    ∀ (font : VideoFont) x y s fg bg, IsInt x → IsInt y →
      ((untilNul s).length : Int) * font.BIOS_CHAR_W ≤ 2 ^ 31 →
      vp.layout.Draws (textPicture font x y (untilNul s) fg bg) m
        (draw_text font (some vp) x y (some s) fg bg m) := by
  refine ⟨?_, ?_, ?_⟩
  · intro x y w h color hright hbottom
    exact draws_fill_rect hfb hvp hright hbottom
  · intro x y w h outer inner hx hy hw hh hright hbottom hw4 hh4
    exact draws_frame hfb hvp hx hy hw hh hright hbottom hw4 hh4 outer inner
  · intro font x y s fg bg hx hy hwidth
    exact draws_text hvp hx hy hwidth

/-- A font of which only the glyph of `b` has a bit. -/
def oneGlyph : VideoFont where
  VIDEO_FONT_CHARS := 256
  VIDEO_FONT_WIDTH := 8
  VIDEO_FONT_HEIGHT := 16
  video_fontdata i := if i = 98 * 16 then 0x80 else 0
  chars_ge := by decide
  width_pos := by decide
  height_le := by decide

def blank : Memory := fun _ => 0

/-- The panel of the setup, and a text that begins left of the screen. -/
theorem drawing_panel :
    (takeover 0x40000000).layout.Draws (framePicture 120 180 920 640 0xffffffff 0xffc0c0c0) blank
      (fb_frame (some (takeover 0x40000000)) 120 180 920 640 0xffffffff 0xffc0c0c0 blank) ∧
    (takeover 0x40000000).layout.Draws (textPicture oneGlyph (-24) 12 (untilNul [97, 98]) 0xffffffff 0xff0000aa)
      blank
      (draw_text oneGlyph (some (takeover 0x40000000)) (-24) 12 (some [97, 98]) 0xffffffff 0xff0000aa blank) := by
  have h := drawing_exact (takeover 0x40000000) (by decide) (takeover_offsetsFit _) blank
  exact ⟨h.2.1 120 180 920 640 _ _ ⟨by decide, by decide⟩ ⟨by decide, by decide⟩ ⟨by decide, by decide⟩
      ⟨by decide, by decide⟩ ⟨by decide, by decide⟩ ⟨by decide, by decide⟩ (by decide) (by decide),
    h.2.2 oneGlyph (-24) 12 [97, 98] _ _ ⟨by decide, by decide⟩ ⟨by decide, by decide⟩ (by decide)⟩

/-- The last of its lines begins 2 GiB behind the first. -/
def hugeScreen : VideoPriv where
  fb := 0x100000000
  xsize := 32768
  ysize := 16385
  line_length := 131072
  xsize_le := by decide
  ysize_lt := by decide
  line_length_lt := by decide

def longText : List UInt8 := 97 :: List.replicate (2 ^ 28 - 1) 97 ++ [98]

/-- One pixel of the last line of the huge screen is filled 2 GiB before the framebuffer; and on the
screen of the setup, the last character of a text is drawn over the first one. -/
theorem drawing_overflows :
    (fb_fill_rect (some hugeScreen) 0 16384 1 1 0xffffffff blank (0x100000000 - 2 ^ 31) = 0xff ∧
      ¬ hugeScreen.layout.Draws (rectPicture 0 16384 1 1 0xffffffff) blank
        (fb_fill_rect (some hugeScreen) 0 16384 1 1 0xffffffff blank)) ∧
    ¬ (takeover 0x40000000).layout.Draws (textPicture oneGlyph 0 0 (untilNul longText) 0xffffffff 0) blank
      (draw_text oneGlyph (some (takeover 0x40000000)) 0 0 (some longText) 0xffffffff 0 blank) := by
  have hbyte : fb_fill_rect (some hugeScreen) 0 16384 1 1 0xffffffff blank (0x100000000 - 2 ^ 31) = 0xff := by
    decide +kernel
  refine ⟨⟨hbyte, fun hdraws => ?_⟩, ?_⟩
  · have hframe := hdraws.frame (0x100000000 - 2 ^ 31) fun p hp hin => ?_
    · rw [hbyte] at hframe
      cases hframe
    · obtain ⟨h0, _, hrow0, _⟩ := hp
      have hoffset := Int.mul_nonneg hrow0 (Int.natCast_nonneg hugeScreen.line_length)
      have hlow : 0x100000000 + p.2 * (hugeScreen.line_length : Int) + 4 * p.1 ≤ 0x100000000 - 2 ^ 31 := hin.1
      omega
  · refine text_wraps (takeover_offsetsFit _) ⟨by decide, by decide, by decide, by decide⟩ ?_ (by decide) ?_
      (by decide) (by decide) (by decide)
    · intro d hd
      rcases List.mem_cons.mp hd with rfl | hd
      · decide
      · rw [List.eq_of_mem_replicate hd]
        decide
    · rw [List.length_cons, List.length_replicate]
      decide

/-! ## The screen of the setup -/

/-- On every board that fits the screen, after every sequence of keys and whatever lines its pages are drawn
with: each pixel has the colour of the page that waits for a key, of the items exactly the selected one is
on a blue bar, and outside the framebuffer nothing is written. -/
theorem console_shows (font : VideoFont) (fb : Int) (ops : Option BoardOps) (hfb : fb ≠ 0)
    (hfont : BoardFits font ops) (ram : Env) (shown : Shown) (m : Memory) (acts : List (Key × Shown))
    (c : Console) (hrun : (console font fb ops).run (.start font fb ops ram shown m) acts = some c) :
    c.Shows font fb ops ∧
      ∀ a, (∀ p, (takeover fb).OnScreen p →
        ¬((takeover fb).pixelAddr p ≤ a ∧ a < (takeover fb).pixelAddr p + 4)) → c.ui.mem a = m a := by
  have hdrawn : c.Drawn font fb ops m :=
    (console font fb ops).run_invariant (fun _ _ _ hc hstep => drawn_step hfb hfont hc hstep)
      (drawn_start hfb hfont ram shown m) hrun
  exact ⟨shows_of_drawn hfont hdrawn, hdrawn.drawn.frame⟩

theorem oneGlyph_fits (ops : BoardOps) (hproduct : (untilNul (bytes ops.product_name)).length ≤ 100)
    (hinfo : ops.fill_sys_info = none) (hhardware : ops.fill_hw_lines = none) :
    BoardFits oneGlyph (some ops) where
  height := by decide
  width := by decide
  product := by
    show ((untilNul (bytes ops.product_name)).length : Int) * 16 ≤ 2 ^ 31
    omega
  info lines h := by
    simp [hinfo] at h
  hardware fill env h := by
    simp [hhardware] at h

/-- The cursor down on the main page. -/
theorem console_shows_second : ∃ c, (console oneGlyph 0x40000000 (some {})).run
      (.start oneGlyph 0x40000000 (some {}) Env.empty noLines blank) [(.down, noLines)] = some c ∧
    c.setup.screen = .main 1 ∧ c.Shows oneGlyph 0x40000000 (some {}) := by
  have hfits := oneGlyph_fits {} (by decide) rfl rfl
  refine ⟨_, rfl, rfl, ?_⟩
  exact (console_shows oneGlyph 0x40000000 (some {}) (by decide) hfits Env.empty noLines blank
    [(.down, noLines)] _ rfl).1

end Kworker.Bios
