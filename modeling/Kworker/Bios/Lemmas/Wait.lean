import Kworker.Bios.Lemmas.Countdown

/-!
# The countdown as a whole
-/

namespace Kworker.Bios

open Kworker.Lib

/-! ## The countdown as one list -/

theorem waitRound_eq (l : Line) (r : Round) :
    waitRound l r = (.first r :: r.passes.map .pass : List Item).foldlM Item.step l := by
  simp only [waitRound, List.foldlM_cons, List.foldlM_map, Item.step]

theorem wait_f10_eq (env : Countdown) (delay_sec : Int) : kh_bios_wait_f10 env delay_sec =
    expire ((env.items delay_sec).foldlM Item.step env.armed) := by
  rw [Countdown.items, foldlM_flatMap, kh_bios_wait_f10, Countdown.armed]
  simp only [← waitRound_eq]

theorem usb_keyboard_start (env : Countdown) : bios_usb_keyboard_start env {} =
    { usb_kbd_ready := decide (env.usb_init = 0) && (List.range 120).any env.usbTries } := by
  have hfold : ∀ (tries : List Nat) (b : Bool),
      tries.foldl (fun l i => bios_usb_kbd_attach (env.usbTries i) l) { usb_kbd_ready := b } =
        ({ usb_kbd_ready := b || tries.any env.usbTries } : Line) := by
    intro tries
    induction tries with
    | nil => intro b; simp
    | cons n tries ih =>
        intro b
        rw [List.foldl_cons, List.any_cons, ← Bool.or_assoc]
        exact ih _
  unfold bios_usb_keyboard_start
  split
  · rename_i h
    simp [h]
  · rename_i h
    rw [hfold]
    simp [Classical.not_not.mp h]

theorem armed_eq {env : Countdown} (h : env.flush = []) (S : Source) : env.armed =
    .only S [] 0 (decide (env.usb_init = 0) && (List.range 120).any env.usbTries) := by
  rw [Countdown.armed, usb_keyboard_start, bios_serial_rx_arm, h]
  cases S <;> rfl

/-! ## One point of the countdown -/

section

variable {S : Source} {w : List UInt8} {i : Item} {l : Line}

/-- What one point does when `w` has arrived and been fed as far as it was read. -/
inductive StepOutcome (S : Source) (w : List UInt8) (i : Item) : Except (Bool × Line) Line → Prop
  | seen (l : Line) (hb : i.boardSeen = true) : StepOutcome S w i (.error (true, l))
  | complete (l : Line) (hall : w ++ i.on S = F10_SEQ) (hesc : ¬ i.PollTakesEsc S w)
      (hzero : ¬ i.PollFeedsZero S w) : StepOutcome S w i (.error (true, l))
  | lost (l : Line) (hb : i.boardSeen = false) (hesc : i.PollTakesEsc S w) :
      StepOutcome S w i (.error (false, l))
  | goes (l : Line) (hl : Alive S (w ++ i.on S) l) (hb : i.boardSeen = false)
      (hne : w ++ i.drained S ≠ F10_SEQ) (hesc : ¬ i.PollTakesEsc S w)
      (hzero : ¬ i.PollFeedsZero S w) : StepOutcome S w i (.ok l)
  | dies (l : Line) (hl : Dead S l) (hb : i.boardSeen = false) (hzero : i.PollFeedsZero S w) :
      StepOutcome S w i (.ok l)

/-- Once the drain has read the whole press nothing can go wrong in this turn. -/
theorem drained_ok (h : w ++ i.drained S = F10_SEQ) : ¬ i.PollTakesEsc S w ∧ ¬ i.PollFeedsZero S w := by
  cases i with
  | first r => exact ⟨id, id⟩
  | pass p =>
      have h : w ++ p.drain.on S = F10_SEQ := h
      constructor
      · rintro ⟨hnil, _⟩
        rw [hnil] at h
        cases h
      · rintro ⟨_, hne, _⟩
        exact hne h

theorem first_outcome {r : Round} (hl : Alive S w l) (hp : w ++ r.drain.on S <+: F10_SEQ)
    (hq : r.drain.on S.other = []) (hk : S = .usb → r.usbkbd = true) :
    StepOutcome S w (.first r) (firstDrain r l) := by
  obtain ⟨b, hb, hdrain⟩ := hl.drain hp hq hk
  unfold firstDrain
  rw [hdrain]
  by_cases hall : w ++ r.drain.on S = F10_SEQ
  · simp only [hall, if_true]
    exact .complete _ (by simpa [Item.on, Item.drained, Item.polled] using hall) id id
  · simp only [hall, if_false, Bool.false_eq_true]
    refine .goes _ ?_ rfl hall id id
    apply Alive.attach
    refine ⟨_, b, ?_, press_lt hp hall, ?_, hb⟩
    · simp [Item.on, Item.drained, Item.polled]
    · simp [Item.on, Item.drained, Item.polled]

theorem pass_outcome {p : Pass} (hl : Alive S w l) (hp : w ++ (Item.pass p).on S <+: F10_SEQ)
    (hq : (Item.pass p).on S.other = []) (hk : S = .usb → p.usbkbd = true) :
    StepOutcome S w (.pass p) (waitPass l p) := by
  simp only [Item.on, Item.drained, Item.polled] at hp hq
  rw [← List.append_assoc] at hp
  obtain ⟨hqd, hqp⟩ := List.append_eq_nil_iff.mp hq
  have hpd : w ++ p.drain.on S <+: F10_SEQ := (List.prefix_append _ _).trans hp
  unfold waitPass
  by_cases hboard : p.board = true
  · simp only [hboard, if_true]
    exact .seen _ (by simp [Item.boardSeen, hboard])
  rw [Bool.not_eq_true] at hboard
  simp only [hboard, Bool.false_eq_true, if_false]
  obtain ⟨b, hb, hdrain⟩ := hl.attach.drain hpd hqd hk
  rw [hdrain]
  by_cases hall : w ++ p.drain.on S = F10_SEQ
  · -- the drain reads the last byte
    simp only [hall, if_true]
    have hon : w ++ (Item.pass p).on S = F10_SEQ := by
      simp only [Item.on, Item.drained, Item.polled]
      rw [← List.append_assoc]
      apply press_eq hp
      have hle := press_length hp
      rw [hall] at hle ⊢
      rw [List.length_append] at hle ⊢
      simp only [F10_SEQ, List.length_cons, List.length_nil] at hle ⊢
      omega
    obtain ⟨hesc, hzero⟩ := drained_ok (i := .pass p) hall
    exact .complete _ hon hesc hzero
  simp only [hall, if_false, Bool.false_eq_true]
  have hread : Readable S p.usbkbd b := fun hS => ⟨hk hS, hb hS⟩
  by_cases hpb : p.poll.board = true
  · rw [only_poll_board hqp hpb]
    exact .seen _ (by simp [Item.boardSeen, hpb])
  rw [Bool.not_eq_true] at hpb
  have hseen : (Item.pass p).boardSeen = false := by simp [Item.boardSeen, hboard, hpb]
  have hout := poll_outcome hread hb hqp hp (press_lt hpd hall) hpb
  generalize kh_bios_poll_key p.usbkbd p.poll (.only S [] (w ++ p.drain.on S).length b) = res at hout
  cases hout with
  | complete l' hall' hv hread' =>
      refine .complete _ ?_ ?_ ?_
      · rw [Item.on, Item.drained, Item.polled, ← List.append_assoc]
        exact hall'
      · rintro ⟨hnil, _⟩
        exact hv hnil
      · rintro ⟨_, _, _, hnil⟩
        exact hread' hnil
  | takesEsc l' hv hread' => exact .lost _ hseen ⟨hv, hread'⟩
  | goes l' hl' hesc hzero =>
      refine .goes _ ?_ hseen hall ?_ ?_
      · rw [Item.on, Item.drained, Item.polled, ← List.append_assoc]
        exact hl'
      · rintro ⟨hnil, hread'⟩
        exact hesc hnil hread'
      · rintro ⟨hne, _, hzero'⟩
        exact hzero hne hzero'
  | feedsZero l' hl' hv hb' hread' => exact .dies _ hl' hseen ⟨hv, hall, hb', hread'⟩

theorem step_outcome (hl : Alive S w l) (hp : w ++ i.on S <+: F10_SEQ) (hq : i.on S.other = [])
    (hk : S = .usb → i.usbkbd = true) : StepOutcome S w i (i.step l) := by
  cases i with
  | first r =>
      simp only [Item.on, Item.drained, Item.polled, List.append_nil] at hp hq
      exact first_outcome hl hp hq hk
  | pass p => exact pass_outcome hl hp hq hk

theorem poll_dead {k r : Bool} {e : PollEnv} (h : Readable S k r) (hr : S = .usb → r = true)
    (hq : e.on S.other = []) (hp : ∀ c ∈ e.on S, Plain c) (hboard : e.board = false) :
    ∃ l', kh_bios_poll_key k e (.only S [] 0 r) = (l', .none) ∧ Dead S l' := by
  by_cases hnone : e.look₀.board = false ∧ e.look₀.tstc.on S = []
  · rw [poll_nothing h hq hboard hnone.1 hnone.2]
    exact ⟨_, rfl, _, r, rfl, hp, hr⟩
  have hall : ∀ c ∈ e.look₀.on S, Plain c := fun c hc => hp c (List.mem_append_left _ hc)
  have hc : Plain ((e.look₀.on S).headD 0) := by
    cases hx : e.look₀.on S with
    | nil => simp [Plain]
    | cons c rest =>
        apply hall
        rw [hx]
        exact List.mem_cons_self ..
  have hne : (e.look₀.on S).headD 0 ≠ 0x1b := by
    intro heq
    rw [heq] at hc
    simp [Plain] at hc
  rw [only_poll h hq hboard]
  simp only [List.nil_append, hnone, if_false, hc.feed, Bool.false_eq_true, hne, hc.keyOf]
  refine ⟨_, rfl, _, r, rfl, ?_, hr⟩
  intro c hc
  rcases List.mem_append.mp hc with hc | hc
  · exact hall c (List.mem_of_mem_tail hc)
  · exact hp c (List.mem_append_right _ hc)

theorem step_dead (hl : Dead S l) (hp : ∀ c ∈ i.on S, Plain c) (hq : i.on S.other = [])
    (hk : S = .usb → i.usbkbd = true) :
    (i.boardSeen = true ∧ ∃ l', i.step l = .error (true, l')) ∨
    (i.boardSeen = false ∧ ∃ l', i.step l = .ok l' ∧ Dead S l') := by
  obtain ⟨hqd, hqp⟩ := List.append_eq_nil_iff.mp hq
  have hpd : ∀ c ∈ i.drained S, Plain c := fun c hc => hp c (List.mem_append_left _ hc)
  have hpp : ∀ c ∈ i.polled S, Plain c := fun c hc => hp c (List.mem_append_right _ hc)
  cases i with
  | first r =>
      have hk : S = .usb → r.usbkbd = true := hk
      obtain ⟨b, hb, hdrain⟩ := hl.drain hpd hqd hk
      right
      refine ⟨rfl, bios_usb_kbd_attach r.usbkbd (.only S [] 0 b), ?_, ?_⟩
      · simp only [Item.step, firstDrain, hdrain, Bool.false_eq_true, if_false]
      · apply Dead.attach
        exact ⟨[], b, rfl, by simp, hb⟩
  | pass p =>
      have hk : S = .usb → p.usbkbd = true := hk
      simp only [Item.step, waitPass, Item.boardSeen]
      cases hboard : p.board with
      | true => exact Or.inl ⟨rfl, _, rfl⟩
      | false =>
          simp only [Bool.false_eq_true, if_false, Bool.false_or]
          obtain ⟨b, hb, hdrain⟩ := (hl.attach (k := p.usbkbd)).drain hpd hqd hk
          rw [hdrain]
          simp only [Bool.false_eq_true, if_false]
          cases hpb : p.poll.board with
          | true =>
              rw [only_poll_board hqp hpb]
              exact Or.inl ⟨rfl, _, rfl⟩
          | false =>
              obtain ⟨l', hpoll, hdead⟩ := poll_dead (fun hS => ⟨hk hS, hb hS⟩) hb hqp hpp hpb
              rw [hpoll]
              exact Or.inr ⟨rfl, l', rfl, hdead⟩

end

/-! ## The run -/

section

variable {S : Source}

theorem arrivals_cons (i : Item) (items : List Item) :
    arrivals S (i :: items) = i.on S ++ arrivals S items := List.flatMap_cons

theorem arrivals_eq_nil {items : List Item} : arrivals S items = [] ↔ ∀ i ∈ items, i.on S = [] :=
  List.flatMap_eq_nil_iff

theorem run_dead {items : List Item} {l : Line} (hl : Dead S l)
    (hp : ∀ c ∈ arrivals S items, Plain c) (hq : arrivals S.other items = [])
    (hk : S = .usb → ∀ i ∈ items, i.usbkbd = true) :
    (expire (items.foldlM Item.step l)).1 = true ↔ ∃ i ∈ items, i.boardSeen = true := by
  induction items generalizing l with
  | nil => simp [expire, pure, Except.pure]
  | cons i items ih =>
      rw [arrivals_cons] at hp hq
      obtain ⟨hqi, hq⟩ := List.append_eq_nil_iff.mp hq
      have hstep := step_dead hl (fun c hc => hp c (List.mem_append_left _ hc)) hqi
        fun hS => hk hS i (List.mem_cons_self ..)
      rw [List.foldlM_cons]
      rcases hstep with ⟨hseen, l', hl'⟩ | ⟨hseen, l', hl', hdead⟩
      · rw [hl']
        exact iff_of_true rfl ⟨i, List.mem_cons_self .., hseen⟩
      · rw [hl']
        have hrest := ih hdead (fun c hc => hp c (List.mem_append_right _ hc)) hq
          fun hS j hj => hk hS j (List.mem_cons_of_mem _ hj)
        simp only [List.mem_cons, exists_eq_or_imp, hseen, Bool.false_eq_true, false_or]
        exact hrest

variable {w : List UInt8} {i : Item} {items : List Item}

theorem escLeft_of_seen (h : i.boardSeen = true) : EscLeftToDrain S w (i :: items) := by
  unfold EscLeftToDrain
  rw [everywhere_cons]
  refine ⟨fun _ => ⟨i, by simp, h⟩, fun pre j post _ _ => ⟨i, by simp, h⟩⟩

theorem escLeft_cons (h : i.boardSeen = false) : EscLeftToDrain S w (i :: items) ↔
    ¬ i.PollTakesEsc S w ∧ EscLeftToDrain S (w ++ i.on S) items := by
  unfold EscLeftToDrain
  rw [everywhere_cons]
  apply and_congr
  · simp [arrivals, h]
  · apply everywhere_congr
    intro pre j
    simp [arrivals_cons, h]

theorem noZero_cons (h : i.boardSeen = false) (hi : ¬ i.PollFeedsZero S w) :
    NoZeroFed S w (i :: items) ↔ NoZeroFed S (w ++ i.on S) items := by
  unfold NoZeroFed
  rw [everywhere_cons]
  apply or_congr
  · have hi' : ¬ i.PollFeedsZero S (w ++ arrivals S []) := by simpa [arrivals] using hi
    simp only [hi', not_false_eq_true, true_and]
    apply everywhere_congr
    intro pre j
    simp [arrivals_cons]
  · simp [h]

theorem escLeft_complete (hw : w ≠ []) : EscLeftToDrain S w items := by
  intro pre j post _ hesc
  cases j with
  | first r => exact hesc.elim
  | pass p =>
      obtain ⟨hnil, _⟩ := hesc
      simp [hw] at hnil

theorem noZero_complete (hnil : arrivals S items = []) : NoZeroFed S F10_SEQ items := by
  left
  intro pre j post hsplit hzero
  rw [hsplit] at hnil
  have hon : ∀ x ∈ pre ++ j :: post, x.on S = [] := arrivals_eq_nil.mp hnil
  have hpre : arrivals S pre = [] := arrivals_eq_nil.mpr fun x hx => hon x (List.mem_append_left _ hx)
  have hj : j.on S = [] := hon j (by simp)
  cases j with
  | first r => exact hzero
  | pass p =>
      obtain ⟨_, hne, _⟩ := hzero
      obtain ⟨hd, _⟩ := List.append_eq_nil_iff.mp hj
      have hd : p.drain.on S = [] := hd
      rw [hpre, hd, List.append_nil, List.append_nil] at hne
      exact hne rfl

theorem feedsZero_ne_nil (h : i.PollFeedsZero S w) : w ++ i.on S ≠ [] := by
  cases i with
  | first r => exact h.elim
  | pass p =>
      obtain ⟨hne, _⟩ := h
      intro hnil
      rw [Item.on, ← List.append_assoc] at hnil
      exact hne (List.append_eq_nil_iff.mp hnil).1

theorem not_takesEsc_of_feedsZero (h : i.PollFeedsZero S w) : ¬ i.PollTakesEsc S w := by
  cases i with
  | first r => exact h.elim
  | pass p =>
      rintro ⟨hnil, _⟩
      exact h.1 hnil

/-- The press is complete with `i`, and nothing went wrong there. -/
theorem run_complete (hall : w ++ i.on S = F10_SEQ) (hnil : arrivals S items = [])
    (hesc : ¬ i.PollTakesEsc S w) (hzero : ¬ i.PollFeedsZero S w) :
    EscLeftToDrain S w (i :: items) ∧ NoZeroFed S w (i :: items) := by
  cases hb : i.boardSeen with
  | true => exact ⟨escLeft_of_seen hb, Or.inr ⟨i, List.mem_cons_self .., hb⟩⟩
  | false =>
      rw [escLeft_cons hb, noZero_cons hb hzero, hall]
      exact ⟨⟨hesc, escLeft_complete (List.cons_ne_nil _ _)⟩, noZero_complete hnil⟩

/-- A 0 has been fed with `i`: only the board key is left. -/
theorem run_dies {l : Line} (hl : Dead S l) (hb : i.boardSeen = false) (hzero : i.PollFeedsZero S w)
    (hp : w ++ i.on S ++ arrivals S items = F10_SEQ) (hq : arrivals S.other items = [])
    (hk : S = .usb → ∀ j ∈ items, j.usbkbd = true) :
    (expire (items.foldlM Item.step l)).1 = true ↔
      EscLeftToDrain S w (i :: items) ∧ NoZeroFed S w (i :: items) := by
  have hw := feedsZero_ne_nil hzero
  have hplain : ∀ c ∈ arrivals S items, Plain c := press_plain (by rw [hp]) hw
  have hev : ¬ Everywhere (fun pre x => ¬ x.PollFeedsZero S (w ++ arrivals S pre)) (i :: items) := by
    rw [everywhere_cons]
    rintro ⟨h, _⟩
    exact h (by simpa [arrivals] using hzero)
  rw [run_dead hl hplain hq hk, escLeft_cons hb, NoZeroFed, or_iff_right hev,
    and_iff_right ⟨not_takesEsc_of_feedsZero hzero, escLeft_complete hw⟩]
  simp only [List.mem_cons (a := _) (b := i), exists_eq_or_imp, hb, Bool.false_eq_true, false_or]

/-- From a line on which `w` has arrived: the wait ends with `true` exactly if no turn takes the first
byte and none feeds a 0, or the board key is seen. -/
theorem run_press {l : Line} (hl : Alive S w l) (hp : w ++ arrivals S (i :: items) = F10_SEQ)
    (hq : arrivals S.other (i :: items) = [])
    (hfinal : ∀ j, (i :: items).getLast? = some j → j.polled S = [])
    (hk : S = .usb → ∀ j ∈ i :: items, j.usbkbd = true) :
    (expire ((i :: items).foldlM Item.step l)).1 = true ↔
      EscLeftToDrain S w (i :: items) ∧ NoZeroFed S w (i :: items) := by
  induction items generalizing i w l with
  | nil =>
      have hpoll : i.polled S = [] := hfinal i rfl
      have hon : w ++ i.on S = F10_SEQ := by simpa [arrivals] using hp
      have hdrained : w ++ i.drained S = F10_SEQ := by rwa [Item.on, hpoll, List.append_nil] at hon
      obtain ⟨hesc, hzero⟩ := drained_ok hdrained
      have hout := step_outcome hl (by rw [hon]) (by simpa [arrivals] using hq)
        fun hS => hk hS i (List.mem_cons_self ..)
      rw [List.foldlM_cons]
      generalize i.step l = res at hout
      cases hout with
      | seen l' hb => exact iff_of_true rfl (run_complete hon rfl hesc hzero)
      | complete l' _ _ _ => exact iff_of_true rfl (run_complete hon rfl hesc hzero)
      | lost l' hb hesc' => exact absurd hesc' hesc
      | goes l' hl' hb hne _ _ => exact absurd hdrained hne
      | dies l' hl' hb hzero' => exact absurd hzero' hzero
  | cons j items ih =>
      have hp' : (w ++ i.on S) ++ arrivals S (j :: items) = F10_SEQ := by
        rw [List.append_assoc, ← arrivals_cons, hp]
      obtain ⟨hqi, hqj⟩ := List.append_eq_nil_iff.mp ((arrivals_cons i (j :: items)).symm.trans hq)
      have hout := step_outcome hl ⟨_, hp'⟩ hqi fun hS => hk hS i (List.mem_cons_self ..)
      have hkj : S = .usb → ∀ x ∈ j :: items, x.usbkbd = true :=
        fun hS x hx => hk hS x (List.mem_cons_of_mem _ hx)
      rw [List.foldlM_cons]
      generalize i.step l = res at hout
      cases hout with
      | seen l' hb =>
          exact iff_of_true rfl ⟨escLeft_of_seen hb, Or.inr ⟨i, List.mem_cons_self .., hb⟩⟩
      | complete l' hall hesc hzero =>
          rw [hall] at hp'
          exact iff_of_true rfl (run_complete hall (List.append_right_eq_self.mp hp') hesc hzero)
      | lost l' hb hesc =>
          refine iff_of_false (by simp [expire, bind, Except.bind]) ?_
          rw [escLeft_cons hb]
          exact fun h => h.1.1 hesc
      | goes l' hl' hb hne hesc hzero =>
          rw [escLeft_cons hb, noZero_cons hb hzero, and_iff_right hesc]
          exact ih hl' hp' hqj (fun x hx => hfinal x (by rw [List.getLast?_cons_cons, hx])) hkj
      | dies l' hl' hb hzero => exact run_dies hl' hb hzero hp' hqj hkj

end

/-! ## Before the press -/

section

variable {S : Source} {w : List UInt8} {i : Item} {r : Bool}

/-- A 0 that is fed before the press does not matter. -/
theorem poll_quiet {k : Bool} {e : PollEnv} (hp : e.on .uart = []) (hq : e.on .usb = []) (hboard : e.board = false) :
    kh_bios_poll_key k e (.only .uart [] 0 r) = (.only .uart [] 0 r, .none) := by
  have hlook : e.look₀.on .uart = [] := (List.append_eq_nil_iff.mp hp).1
  cases hb : e.look₀.board with
  | true => rw [poll_zero readable_uart hq hboard hb hlook (by decide), hp]
  | false =>
      have htstc := (List.append_eq_nil_iff.mp hlook).1
      rw [poll_nothing readable_uart hq hboard hb htstc, hp]

/-- Where nothing arrives, only the board key can end the wait, and a keyboard may be found. -/
theorem quiet_step (hon : ∀ T, i.on T = []) :
    (i.boardSeen = true ∧ ∃ l, i.step (.only S [] 0 r) = .error (true, l)) ∨
    (i.boardSeen = false ∧ i.step (.only S [] 0 r) = .ok (.only S [] 0 (r || i.usbkbd))) := by
  -- no byte waits on the USB side, so that the line may be read as one of the UART
  rw [only_nil S .uart, only_nil S .uart]
  obtain ⟨hd, hp⟩ := List.append_eq_nil_iff.mp (hon .uart)
  obtain ⟨hqd, hqp⟩ := List.append_eq_nil_iff.mp (hon .usb)
  cases i with
  | first rd =>
      have hd : rd.drain.on .uart = [] := hd
      have hqd : rd.drain.on Source.uart.other = [] := hqd
      right
      refine ⟨rfl, ?_⟩
      simp only [Item.step, firstDrain, only_arrive hqd, hd, only_drain readable_uart, List.append_nil,
        drainBytes, List.foldl_nil, Bool.false_eq_true, if_false, only_attach]
      rfl
  | pass p =>
      have hd : p.drain.on .uart = [] := hd
      have hp : p.poll.on .uart = [] := hp
      have hqd : p.drain.on Source.uart.other = [] := hqd
      have hqp : p.poll.on Source.uart.other = [] := hqp
      simp only [Item.step, waitPass_eq, Item.boardSeen, only_attach, only_arrive hqd, hd, List.append_nil]
      cases hboard : p.board with
      | true => exact Or.inl ⟨rfl, _, rfl⟩
      | false =>
          simp only [only_drain readable_uart, drainBytes, List.foldl_nil, Bool.false_eq_true, if_false, Bool.false_or]
          cases hpb : p.poll.board with
          | true =>
              rw [only_poll_board hqp hpb]
              exact Or.inl ⟨rfl, _, rfl⟩
          | false =>
              rw [poll_quiet hp hqp hpb]
              exact Or.inr ⟨rfl, rfl⟩

theorem not_takesEsc_of_quiet (hon : i.on S = []) : ¬ i.PollTakesEsc S w := by
  cases i with
  | first rd => exact id
  | pass p =>
      obtain ⟨_, hp⟩ := List.append_eq_nil_iff.mp hon
      have hlook : p.poll.look₀.on S = [] := (List.append_eq_nil_iff.mp hp).1
      rintro ⟨_, hfinds⟩
      exact KeyLook.Finds.on_ne_nil hfinds hlook

theorem not_feedsZero_of_quiet (hon : i.on S = []) : ¬ i.PollFeedsZero S [] :=
  fun hzero => feedsZero_ne_nil hzero hon

/-- When the first byte arrives on the USB side, the keyboard is attached, and stays there; `r` says that it was found
before. -/
def AttachedAtPress (S : Source) (r : Bool) (items : List Item) : Prop :=
  S = .usb → ∀ pre i post, items = pre ++ i :: post → arrivals S pre = [] → i.on S ≠ [] →
    (r = true ∨ (∃ j ∈ pre, j.usbkbd = true) ∨ i.isPass = true) ∧ ∀ j ∈ i :: post, j.usbkbd = true

theorem AttachedAtPress.later {items : List Item} (h : AttachedAtPress S r (i :: items)) (hon : i.on S = []) :
    AttachedAtPress S (r || i.usbkbd) items := by
  intro hS pre j post hsplit hpre hj
  obtain ⟨hfound, hstays⟩ := h hS (i :: pre) j post (by rw [hsplit]; rfl)
    (by rw [arrivals_cons, hon, hpre]; rfl) hj
  refine ⟨?_, hstays⟩
  rcases hfound with rfl | ⟨x, hx, husbkbd⟩ | hpass
  · exact Or.inl rfl
  · rcases List.mem_cons.mp hx with rfl | hx
    · rw [husbkbd, Bool.or_true]
      exact Or.inl rfl
    · exact Or.inr (Or.inl ⟨x, hx, husbkbd⟩)
  · exact Or.inr (Or.inr hpass)

theorem AttachedAtPress.first {items : List Item} (h : AttachedAtPress S r (i :: items)) (hon : i.on S ≠ [])
    (hS : S = .usb) : (r = true ∨ i.isPass = true) ∧ ∀ j ∈ i :: items, j.usbkbd = true := by
  obtain ⟨hfound, hstays⟩ := h hS [] i items rfl rfl hon
  refine ⟨?_, hstays⟩
  rcases hfound with hready | ⟨j, hj, _⟩ | hpass
  · exact Or.inl hready
  · cases hj
  · exact Or.inr hpass

/-- A turn of the loop looks for the keyboard before it drains. -/
theorem step_attached (hr : S = .usb → (r = true ∨ i.isPass = true) ∧ i.usbkbd = true) :
    ∃ r', (S = .usb → r' = true) ∧ i.step (.only S [] 0 r) = i.step (.only S [] 0 r') := by
  cases S with
  | uart => exact ⟨r, nofun, rfl⟩
  | usb =>
      obtain ⟨hready | hpass, husbkbd⟩ := hr rfl
      · exact ⟨r, fun _ => hready, rfl⟩
      · refine ⟨true, fun _ => rfl, ?_⟩
        cases i with
        | first rd => cases hpass
        | pass p =>
            have husbkbd : p.usbkbd = true := husbkbd
            simp only [Item.step, waitPass, only_attach, husbkbd, Bool.or_true]

/-- The run up to the press and over it: the keyboard need not be there before. -/
theorem run_until_press {items : List Item} (hp : arrivals S items = F10_SEQ)
    (hq : arrivals S.other items = []) (hfinal : ∀ j, items.getLast? = some j → j.polled S = [])
    (hk : AttachedAtPress S r items) :
    (expire (items.foldlM Item.step (.only S [] 0 r))).1 = true ↔
      EscLeftToDrain S [] items ∧ NoZeroFed S [] items := by
  induction items generalizing r with
  | nil => cases hp
  | cons i items ih =>
      by_cases hon : i.on S = []
      · obtain ⟨hqi, hqs⟩ := List.append_eq_nil_iff.mp ((arrivals_cons i items).symm.trans hq)
        have hquiet : ∀ T, i.on T = [] := by
          intro T
          cases S <;> cases T <;> assumption
        rw [List.foldlM_cons]
        rcases quiet_step (S := S) (r := r) hquiet with ⟨hseen, l, hl⟩ | ⟨hseen, hl⟩
        · rw [hl]
          exact iff_of_true rfl ⟨escLeft_of_seen hseen, Or.inr ⟨i, List.mem_cons_self .., hseen⟩⟩
        · rw [hl, escLeft_cons hseen, noZero_cons hseen (not_feedsZero_of_quiet hon), hon,
            and_iff_right (not_takesEsc_of_quiet hon)]
          rw [arrivals_cons, hon] at hp
          refine ih hp hqs (fun j hj => hfinal j ?_) (hk.later hon)
          rw [List.getLast?_cons, hj]
          rfl
      · -- the press begins with `i`
        have hfirst := hk.first hon
        obtain ⟨r', hr', hstep⟩ := step_attached (S := S) (i := i) (r := r)
          fun hS => ⟨(hfirst hS).1, (hfirst hS).2 i (List.mem_cons_self ..)⟩
        rw [List.foldlM_cons, hstep, ← List.foldlM_cons]
        exact run_press ⟨0, r', le_rfl, by decide, rfl, hr'⟩ hp hq hfinal fun hS => (hfirst hS).2

end

end Kworker.Bios
