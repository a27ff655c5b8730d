import Kworker.Bios.Heard
import Kworker.Bios.Lemmas.Wait

/-!
# The tests of the countdown and its readings
-/

namespace Kworker.Bios

open Kworker.Lib

/-! ## The tests after some readings -/

/-- What the tests have made of the bytes. -/
def Heard.tests (h : Heard) : Nat × Bool := (h.f10_match, h.enter)

section

variable {h : Heard} {S : Source} {c : UInt8} {rs rs' : List Reading}

theorem after_nil : h.after [] = h := rfl

theorem after_append : h.after (rs ++ rs') = (h.after rs).after rs' := List.foldl_append

theorem after_cons {r : Reading} : h.after (r :: rs) = (h.hear r).after rs := rfl

theorem take_tests : (h.take c S).tests = h.tests := by
  cases S <;> rfl

theorem hear_fed_tests : (h.hear (.byte true S c)).tests = drainByte h.tests c := take_tests

theorem hear_unfed_tests : (h.hear (.byte false S c)).tests = h.tests := take_tests

theorem hear_zero_tests (fed : Bool) :
    (h.hear (.zero fed)).tests = if fed then drainByte h.tests 0 else h.tests := by
  cases fed <;> rfl

theorem after_map_tests (bs : List UInt8) :
    (h.after (bs.map (.byte true S))).tests = bs.foldl drainByte h.tests := by
  induction bs generalizing h with
  | nil => rfl
  | cons c bs ih => rw [List.map_cons, after_cons, ih, hear_fed_tests, List.foldl_cons]

theorem foldl_drainByte (bs : List UInt8) (m : Nat) (b : Bool) :
    bs.foldl drainByte (m, b) = ((drainBytes bs m).1, b || (drainBytes bs m).2) := by
  unfold drainBytes
  induction bs generalizing m b with
  | nil => simp
  | cons c bs ih =>
      have hbyte : drainByte (m, b) c = ((drainByte (m, false) c).1, b || (drainByte (m, false) c).2) := by
        simp [drainByte, Bool.or_assoc]
      rw [List.foldl_cons, List.foldl_cons, hbyte, ih, ih _ (drainByte (m, false) c).2, Bool.or_assoc]

end

/-! ## The readers -/

section

variable {h : Heard} {k : Bool} {l : Line} {e : PollEnv} {look : KeyLook}

theorem drain_tests (hm : h.tests = (l.f10_match, false)) :
    (h.after (drainReadings k l)).tests =
      ((bios_drain_enter_keys k l).1.f10_match, (bios_drain_enter_keys k l).2) := by
  rw [drainReadings, after_append, drain_eq]
  by_cases hu : usbReadable k l = true
  · simp only [hu, if_true]
    rw [after_map_tests, after_map_tests, hm, foldl_drainByte, foldl_drainByte, Bool.false_or]
  · simp only [hu, Bool.false_eq_true, if_false]
    rw [after_nil, after_map_tests, hm, foldl_drainByte, Bool.false_or]

theorem getc_none (hnone : getcSource k l = none) : (bios_key_getc k l).2 = 0 := by
  unfold getcSource at hnone
  split_ifs at hnone with husb huart
  rw [bios_key_getc, if_neg husb, Classical.not_not.mp huart]
  rfl

theorem getcReading_tests (fed : Bool) : (h.hear (getcReading fed k l)).tests =
    if fed then drainByte h.tests (bios_key_getc k l).2 else h.tests := by
  unfold getcReading
  split
  · cases fed
    · exact hear_unfed_tests
    · exact hear_fed_tests
  · rename_i hnone
    rw [hear_zero_tests, getc_none hnone]

theorem board_readings_tests : (h.after (if look.board then [.board] else [])).tests = h.tests := by
  split <;> rfl

theorem getc_f10_match : (bios_key_getc k l).1.f10_match = l.f10_match := by
  unfold bios_key_getc
  split <;> rfl

theorem keyLook_f10_match (k : Bool) (look : KeyLook) (l : Line) :
    (keyLook k look l).1.f10_match = l.f10_match := by
  cases htstc : bios_key_tstc k look.board (l.arrive look.tstc) with
  | true =>
      simp only [keyLook, htstc, if_true]
      exact getc_f10_match
  | false =>
      simp only [keyLook, htstc, Bool.false_eq_true, if_false]
      rfl

theorem unfed_tests : (h.after (lookReadings false k look l)).tests = h.tests := by
  rw [lookReadings, after_append]
  cases htstc : bios_key_tstc k look.board (l.arrive look.tstc) with
  | true =>
      simp only [if_true]
      rw [after_cons, after_nil, getcReading_tests, board_readings_tests]
      rfl
  | false =>
      simp only [Bool.false_eq_true, if_false]
      rw [after_nil, board_readings_tests]

theorem fed_tests (k : Bool) (look : KeyLook) (l : Line) : (h.after (lookReadings true k look l)).tests =
    match (keyLook k look l).2 with
    | some c => drainByte h.tests c
    | none => h.tests := by
  rw [lookReadings, after_append]
  cases htstc : bios_key_tstc k look.board (l.arrive look.tstc) with
  | true =>
      simp only [keyLook, htstc, if_true]
      rw [after_cons, after_nil, getcReading_tests, board_readings_tests]
      rfl
  | false =>
      simp only [keyLook, htstc, Bool.false_eq_true, if_false]
      rw [after_nil, board_readings_tests]

theorem escape_tests : (h.after (escapeReadings k e l)).tests = h.tests := by
  rw [escapeReadings, after_append]
  split
  · split
    · rw [unfed_tests, unfed_tests]
    · rw [after_nil, unfed_tests]
  · rw [after_nil, unfed_tests]

theorem pollBracket_line : (pollBracket k e l).1 = (keyLook k e.look₂ l).1 := by
  unfold pollBracket
  split
  · rename_i l' hl
    rw [hl]
  · rename_i l' c hl
    rw [hl]
    split_ifs <;> rfl

theorem pollBracket_ne_f10 : (pollBracket k e l).2 ≠ .f10 := by
  unfold pollBracket
  split
  · exact nofun
  · split_ifs <;> exact nofun

theorem pollEscape_f10_match : (pollEscape k e l).1.f10_match = l.f10_match := by
  have hlook := keyLook_f10_match k e.look₁ l
  unfold pollEscape
  split
  · rename_i l' hl
    rwa [hl] at hlook
  · rename_i l' c hl
    rw [hl] at hlook
    split_ifs
    · rw [pollBracket_line, keyLook_f10_match]
      exact hlook
    · exact hlook

theorem pollEscape_ne_f10 : (pollEscape k e l).2 ≠ .f10 := by
  unfold pollEscape
  split
  · exact nofun
  · split_ifs
    · exact pollBracket_ne_f10
    · exact nofun

theorem decide_keyOf_f10 {c : UInt8} : decide (keyOf c = .f10) = (decide (c = 0x62) || decide (c = 0x42)) := by
  unfold keyOf
  split_ifs with henter hletter
  · rcases henter with rfl | rfl <;> rfl
  · rcases hletter with rfl | rfl <;> rfl
  · simp [not_or.mp hletter]

/-- `kh_bios_poll_key` returns F10 exactly if the byte of its first look passes the test. -/
theorem poll_tests (hboard : e.board = false) (hm : h.tests = (l.f10_match, false)) :
    (h.after (pollReadings k e l)).tests =
      ((kh_bios_poll_key k e l).1.f10_match, decide ((kh_bios_poll_key k e l).2 = .f10)) := by
  have hlook := keyLook_f10_match k e.look₀ l
  have hfed := fed_tests (h := h) k e.look₀ l
  simp only [pollReadings, kh_bios_poll_key, hboard, Bool.false_eq_true, if_false]
  rw [after_append]
  generalize keyLook k e.look₀ l = found at hlook hfed ⊢
  obtain ⟨l', _ | c⟩ := found
  · simp only [] at hlook hfed ⊢
    rw [after_nil, hfed, hm, ← hlook]
    rfl
  · simp only [] at hlook hfed ⊢
    rw [hm, ← hlook] at hfed
    by_cases hhit : (esc_state_feed l'.f10_match c).2 = true
    · have hesc : c ≠ 0x1b := by
        rw [feed_hit hhit]
        decide
      simp only [hesc, hhit, if_false, if_true]
      rw [after_nil, hfed]
      simp [drainByte, hhit, Line.skip, Line.arrive]
    · rw [Bool.not_eq_true] at hhit
      simp only [hhit, Bool.false_eq_true, if_false]
      by_cases hesc : c = 0x1b
      · simp only [hesc, if_true] at hhit hfed ⊢
        rw [escape_tests, hfed, pollEscape_f10_match, decide_eq_false pollEscape_ne_f10]
        simp [drainByte, hhit]
      · simp only [hesc, if_false]
        rw [after_nil, hfed, ← keyOf, decide_keyOf_f10]
        simp [drainByte, hhit, Line.skip, Line.arrive]

end

/-! ## One point of the countdown -/

/-- How a run that has not asked for the setup goes on after some readings. -/
inductive Listened (h : Heard) (rs : List Reading) : Except (Bool × Line) Line → Prop
  | enters (l : Line) (hr : .board ∈ rs ∨ (h.after rs).enter = true) : Listened h rs (.error (true, l))
  | skips (l : Line) (hr : (h.after rs).enter = false) : Listened h rs (.error (false, l))
  | goes (l : Line) (hr : (h.after rs).tests = (l.f10_match, false)) : Listened h rs (.ok l)

section

variable {h : Heard} {l : Line}

theorem enter_of_tests {m : Nat} {b : Bool} (ht : h.tests = (m, b)) : h.enter = b := congrArg Prod.snd ht

theorem first_listened (r : Round) (hm : h.tests = (l.f10_match, false)) :
    Listened h ((Item.first r).readings l) (firstDrain r l) := by
  have hdrain := drain_tests (h := h) (k := r.usbkbd) (l := l.arrive r.drain) hm
  simp only [Item.readings, firstDrain]
  cases henter : (bios_drain_enter_keys r.usbkbd (l.arrive r.drain)).2 with
  | true =>
      rw [henter] at hdrain
      exact .enters _ (Or.inr (enter_of_tests hdrain))
  | false =>
      rw [henter] at hdrain
      exact .goes _ hdrain

theorem key_listened {rs : List Reading} {res : Line × Key}
    (hr : (h.after rs).tests = (res.1.f10_match, decide (res.2 = .f10))) : Listened h rs (keyEnds res) := by
  obtain ⟨l', key⟩ := res
  cases key with
  | f10 => exact .enters _ (Or.inr (enter_of_tests hr))
  | enter => exact .skips _ (enter_of_tests hr)
  | esc => exact .skips _ (enter_of_tests hr)
  | none => exact .goes _ hr
  | up => exact .goes _ hr
  | down => exact .goes _ hr
  | left => exact .goes _ hr
  | right => exact .goes _ hr

theorem pass_listened (p : Pass) (hm : h.tests = (l.f10_match, false)) :
    Listened h ((Item.pass p).readings l) (waitPass l p) := by
  rw [waitPass_eq, Item.readings]
  cases hboard : p.board with
  | true => exact .enters _ (Or.inl (List.mem_singleton_self _))
  | false =>
      simp only [Bool.false_eq_true, if_false]
      generalize hl' : (bios_usb_kbd_attach p.usbkbd l).arrive p.drain = l'
      have hm' : h.tests = (l'.f10_match, false) := by
        rw [hm, ← hl']
        rfl
      have hdrain := drain_tests (k := p.usbkbd) hm'
      cases henter : (bios_drain_enter_keys p.usbkbd l').2 with
      | true =>
          rw [henter] at hdrain
          simp only [if_true, List.append_nil]
          exact .enters _ (Or.inr (enter_of_tests hdrain))
      | false =>
          rw [henter] at hdrain
          simp only [Bool.false_eq_true, if_false]
          generalize (bios_drain_enter_keys p.usbkbd l').1 = l'' at hdrain ⊢
          cases hpoll : p.poll.board with
          | true =>
              simp only [pollReadings, kh_bios_poll_key, hpoll, if_true]
              exact .enters _ (Or.inl (List.mem_append_right _ (List.mem_singleton_self _)))
          | false =>
              have hpoll := poll_tests (k := p.usbkbd) hpoll hdrain
              rw [← after_append] at hpoll
              exact key_listened hpoll

theorem item_listened (i : Item) (hm : h.tests = (l.f10_match, false)) :
    Listened h (i.readings l) (i.step l) := by
  cases i with
  | first r => exact first_listened r hm
  | pass p => exact pass_listened p hm

end

/-! ## The run -/

section

variable {h : Heard} {l : Line}

/-- The wait ends with `true` when a byte passes the test, and else only for the board key. -/
theorem run_listened (items : List Item) (hm : h.tests = (l.f10_match, false)) :
    ((h.after (readings l items)).enter = true → (expire (items.foldlM Item.step l)).1 = true) ∧
    ((expire (items.foldlM Item.step l)).1 = true →
      .board ∈ readings l items ∨ (h.after (readings l items)).enter = true) := by
  induction items generalizing h l with
  | nil =>
      rw [readings, after_nil, enter_of_tests hm]
      exact ⟨nofun, nofun⟩
  | cons i items ih =>
      have hitem := item_listened i hm
      rw [List.foldlM_cons, readings]
      generalize i.step l = res at hitem
      cases hitem with
      | enters l' hr =>
          simp only [List.append_nil]
          exact ⟨fun _ => rfl, fun _ => hr⟩
      | skips l' hr =>
          simp only [List.append_nil]
          rw [hr]
          exact ⟨nofun, nofun⟩
      | goes l' hr =>
          obtain ⟨henter, hboard⟩ := ih hr
          rw [after_append]
          refine ⟨henter, fun htrue => ?_⟩
          rcases hboard htrue with hb | he
          · exact Or.inl (List.mem_append_right _ hb)
          · exact Or.inr he

end

/-! ## What passes the test -/

section

variable {h : Heard} {rs : List Reading} {r : Reading}

theorem hear_fed_enter (S : Source) (c : UInt8) : (h.hear (.byte true S c)).enter =
    (h.enter || c = 0x62 || c = 0x42 || (esc_state_feed h.f10_match c).2) := enter_of_tests hear_fed_tests

theorem hear_unfed_enter (S : Source) (c : UInt8) : (h.hear (.byte false S c)).enter = h.enter :=
  enter_of_tests hear_unfed_tests

theorem hear_zero_enter (fed : Bool) : (h.hear (.zero fed)).enter = h.enter := by
  cases fed with
  | false => rfl
  | true =>
      have hhit := feed_miss h.f10_match (c := 0) (by decide)
      have hzero : (h.hear (.zero true)).enter = (drainByte h.tests 0).2 :=
        enter_of_tests (hear_zero_tests true)
      rw [hzero]
      simp [drainByte, Heard.tests, hhit]

theorem hear_enter (he : h.enter = true) : (h.hear r).enter = true := by
  cases r with
  | byte fed S c =>
      cases fed with
      | true => rw [hear_fed_enter, he]; rfl
      | false => rw [hear_unfed_enter, he]
  | zero fed => rw [hear_zero_enter, he]
  | board => exact he

theorem after_enter (he : h.enter = true) : (h.after rs).enter = true := by
  induction rs generalizing h with
  | nil => exact he
  | cons r rs ih => exact ih (hear_enter he)

/-- A reading that passes the test asks for the setup or is a mistake. -/
theorem asks_or_mistakes (he : h.enter = false) (hr : (h.hear r).enter = true) : h.Asks r ∨ h.Mistakes r := by
  cases r with
  | board => exact Or.inl trivial
  | zero fed =>
      rw [hear_zero_enter, he] at hr
      cases hr
  | byte fed S c =>
      cases fed with
      | false =>
          rw [hear_unfed_enter, he] at hr
          cases hr
      | true =>
          rw [hear_fed_enter, he, Bool.false_or, Bool.or_eq_true, Bool.or_eq_true, decide_eq_true_iff,
            decide_eq_true_iff] at hr
          rcases hr with hc | hhit
          · cases hends : endsEscape (h.on S) c with
            | true => exact Or.inr (Or.inl ⟨hc, hends⟩)
            | false => exact Or.inl (Or.inl ⟨hc, hends⟩)
          · by_cases hpress : F10_SEQ <:+ h.on S ++ [c]
            · exact Or.inl (Or.inr hpress)
            · exact Or.inr (Or.inr ⟨hhit, hpress⟩)

theorem mistakes_enter (hr : h.Mistakes r) : (h.hear r).enter = true := by
  cases r with
  | zero fed => exact hr.elim
  | board => exact hr.elim
  | byte fed S c =>
      cases fed with
      | false => exact hr.elim
      | true =>
          rw [hear_fed_enter]
          rcases hr with ⟨hc, _⟩ | ⟨hhit, _⟩
          · rcases hc with rfl | rfl <;> simp
          · rw [hhit, Bool.or_true]

/-- The first reading that passes the test. -/
theorem exists_of_enter (he : h.enter = false) (hrs : (h.after rs).enter = true) :
    ∃ pre r post, rs = pre ++ r :: post ∧ ((h.after pre).Asks r ∨ (h.after pre).Mistakes r) := by
  induction rs generalizing h with
  | nil => rw [after_nil, he] at hrs; cases hrs
  | cons r rs ih =>
      cases hr : (h.hear r).enter with
      | true => exact ⟨[], r, rs, rfl, asks_or_mistakes he hr⟩
      | false =>
          obtain ⟨pre, r', post, rfl, hr'⟩ := ih hr hrs
          exact ⟨r :: pre, r', post, rfl, hr'⟩

end

theorem not_asked_iff {env : Countdown} {delay_sec : Int} : ¬ env.Asked delay_sec ↔
    Everywhere (fun pre r => ¬ (env.heard pre).Asks r) (env.readings delay_sec) := by
  constructor
  · intro h pre r post hsplit hasks
    exact h ⟨pre, r, post, hsplit, hasks⟩
  · rintro h ⟨pre, r, post, hsplit, hasks⟩
    exact h pre r post hsplit hasks

/-! ## Nothing is lost -/

section

variable {h : Heard} {S : Source} {k : Bool} {l : Line} {e : PollEnv} {look : KeyLook}

theorem queue_arrive (a : Arrivals) : (l.arrive a).queue S = l.queue S ++ a.on S := by
  cases S <;> rfl

theorem queue_skip : (l.skip look).queue S = l.queue S ++ look.on S := by
  rw [Line.skip, queue_arrive, queue_arrive, List.append_assoc, KeyLook.on]

theorem test_on (fed : Bool) (c : UInt8) : (h.test fed c).on S = h.on S := by
  cases fed <;> cases S <;> rfl

theorem hear_byte_on (fed : Bool) (T : Source) (c : UInt8) :
    (h.hear (.byte fed T c)).on S = h.on S ++ if T = S then [c] else [] := by
  have htest := test_on (h := h) (S := S) fed c
  cases T <;> cases S <;> simpa [Heard.hear, Heard.take, Heard.on] using htest

theorem after_map_on (T : Source) (bs : List UInt8) :
    (h.after (bs.map (.byte true T))).on S = h.on S ++ if T = S then bs else [] := by
  induction bs generalizing h with
  | nil => simp [after_nil]
  | cons c bs ih =>
      rw [List.map_cons, after_cons, ih, hear_byte_on]
      split <;> simp

theorem drain_on : (h.after (drainReadings k l)).on S ++ (bios_drain_enter_keys k l).1.queue S =
    h.on S ++ l.queue S := by
  rw [drainReadings, after_append, drain_eq]
  by_cases hu : usbReadable k l = true
  · simp only [hu, if_true, after_map_on]
    cases S <;> simp [Line.queue]
  · simp only [hu, Bool.false_eq_true, if_false, after_nil, after_map_on]
    cases S <;> simp [Line.queue]

theorem getc_on (fed : Bool) : (h.hear (getcReading fed k l)).on S ++ (bios_key_getc k l).1.queue S =
    h.on S ++ l.queue S := by
  unfold getcReading getcSource bios_key_getc
  by_cases hu : usbReadable k l = true
  · have hne : l.usb ≠ [] := by
      simp only [usbReadable, Bool.and_eq_true, decide_eq_true_iff] at hu
      exact hu.2
    obtain ⟨c, usb, hcons⟩ := List.exists_cons_of_ne_nil hne
    simp only [hu, if_true, hear_byte_on, hcons]
    cases S <;> simp [Line.queue, hcons]
  · simp only [hu, Bool.false_eq_true, if_false]
    cases huart : l.uart with
    | nil =>
        simp only [ne_eq, not_true_eq_false, if_false, Heard.hear, test_on]
        cases S <;> simp [Line.queue, huart]
    | cons c uart =>
        simp only [ne_eq, List.cons_ne_nil, not_false_eq_true, if_true, hear_byte_on]
        cases S <;> simp [Line.queue, huart]

theorem board_readings_on : (h.after (if look.board then [.board] else [])).on S = h.on S := by
  split <;> rfl

theorem look_on (fed k : Bool) (look : KeyLook) (l : Line) :
    (h.after (lookReadings fed k look l)).on S ++ (keyLook k look l).1.queue S =
      h.on S ++ (l.queue S ++ look.on S) := by
  rw [lookReadings, after_append]
  cases htstc : bios_key_tstc k look.board (l.arrive look.tstc) with
  | true =>
      simp only [keyLook, htstc, if_true, after_cons, after_nil]
      rw [getc_on, board_readings_on, queue_arrive, queue_arrive, List.append_assoc, KeyLook.on]
  | false =>
      simp only [keyLook, htstc, Bool.false_eq_true, if_false, after_nil]
      rw [board_readings_on, queue_arrive, queue_arrive, List.append_assoc, KeyLook.on]

theorem escape_on : (h.after (escapeReadings k e l)).on S ++ (pollEscape k e l).1.queue S =
    h.on S ++ (l.queue S ++ e.look₁.on S ++ e.look₂.on S) := by
  have hlook := look_on (h := h) (S := S) false k e.look₁ l
  simp only [escapeReadings, pollEscape]
  rw [after_append]
  generalize keyLook k e.look₁ l = found at hlook ⊢
  obtain ⟨l', _ | c⟩ := found
  · simp only [after_nil, queue_skip] at hlook ⊢
    rw [← List.append_assoc, hlook, List.append_assoc]
  · simp only [] at hlook ⊢
    by_cases hc : c = 0x5b
    · simp only [hc, if_true]
      rw [pollBracket_line, look_on, ← List.append_assoc, hlook, List.append_assoc]
    · simp only [hc, if_false, after_nil, queue_skip]
      rw [← List.append_assoc, hlook, List.append_assoc]

theorem poll_on (hboard : e.board = false) :
    (h.after (pollReadings k e l)).on S ++ (kh_bios_poll_key k e l).1.queue S =
      h.on S ++ (l.queue S ++ e.on S) := by
  have hlook := look_on (h := h) (S := S) true k e.look₀ l
  simp only [pollReadings, kh_bios_poll_key, hboard, Bool.false_eq_true, if_false, PollEnv.on]
  rw [after_append]
  generalize keyLook k e.look₀ l = found at hlook ⊢
  obtain ⟨l', _ | c⟩ := found
  · simp only [after_nil, queue_skip, ← List.append_assoc] at hlook ⊢
    rw [hlook]
  · -- the queues are the same with the new `f10_match`
    have hqueue : { l' with f10_match := (esc_state_feed l'.f10_match c).1 }.queue S = l'.queue S := by
      cases S <;> rfl
    simp only [← List.append_assoc] at hlook ⊢
    by_cases hesc : c = 0x1b
    · subst hesc
      have hhit := feed_miss l'.f10_match (c := 0x1b) (by decide)
      simp only [hhit, Bool.false_eq_true, if_false, if_true]
      rw [escape_on, hqueue, ← List.append_assoc, ← List.append_assoc, hlook]
    · simp only [hesc, if_false, after_nil]
      split <;> simp only [queue_skip, hqueue, ← List.append_assoc, hlook]

theorem keyEnds_ok {res : Line × Key} {l' : Line} (hres : keyEnds res = .ok l') : res.1 = l' := by
  obtain ⟨l₁, key⟩ := res
  cases key <;> cases hres <;> rfl

/-- What a point of the countdown leaves waiting is what it has not read. -/
theorem item_on {i : Item} {l' : Line} (hstep : i.step l = .ok l') :
    (h.after (i.readings l)).on S ++ l'.queue S = h.on S ++ (l.queue S ++ i.on S) := by
  cases i with
  | first r =>
      have hdrain := drain_on (h := h) (S := S) (k := r.usbkbd) (l := l.arrive r.drain)
      rw [queue_arrive] at hdrain
      simp only [Item.step, firstDrain] at hstep
      split_ifs at hstep
      cases hstep
      rw [Item.on, Item.polled, List.append_nil]
      exact hdrain
  | pass p =>
      simp only [Item.step, waitPass_eq, Item.readings] at hstep ⊢
      split_ifs at hstep with hboard henter
      simp only [hboard, henter]
      have hdrain := drain_on (h := h) (S := S) (k := p.usbkbd)
        (l := (bios_usb_kbd_attach p.usbkbd l).arrive p.drain)
      have hattach : (bios_usb_kbd_attach p.usbkbd l).queue S = l.queue S := by
        cases S <;> rfl
      rw [queue_arrive, hattach] at hdrain
      generalize (bios_drain_enter_keys p.usbkbd ((bios_usb_kbd_attach p.usbkbd l).arrive p.drain)).1 = l₁
        at hstep hdrain ⊢
      have hpoll : p.poll.board = false := by
        rw [← Bool.not_eq_true]
        intro hpoll
        simp only [kh_bios_poll_key, hpoll, if_true] at hstep
        cases hstep
      have hon := poll_on (h := h.after (drainReadings p.usbkbd
        ((bios_usb_kbd_attach p.usbkbd l).arrive p.drain))) (S := S) (k := p.usbkbd) (l := l₁) hpoll
      rw [← keyEnds_ok hstep]
      simp only [Bool.false_eq_true, if_false]
      rw [after_append, hon, ← List.append_assoc, hdrain, Item.on]
      simp only [Item.drained, Item.polled, List.append_assoc]

/-- A run that reaches the end of the countdown has heard all that arrived, but for what still waits. -/
theorem readings_on {items : List Item} {l' : Line} (hrun : items.foldlM Item.step l = .ok l') :
    (h.after (readings l items)).on S ++ l'.queue S = h.on S ++ (l.queue S ++ arrivals S items) := by
  induction items generalizing h l with
  | nil =>
      cases hrun
      rw [readings, after_nil, arrivals, List.flatMap_nil, List.append_nil]
  | cons i items ih =>
      rw [List.foldlM_cons] at hrun
      rw [readings]
      cases hstep : i.step l with
      | error e =>
          rw [hstep] at hrun
          cases hrun
      | ok l₁ =>
          rw [hstep] at hrun
          simp only []
          rw [after_append, ih hrun, arrivals_cons, ← List.append_assoc, item_on hstep]
          simp only [List.append_assoc]

end

end Kworker.Bios
