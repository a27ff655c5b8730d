import Kworker.Bios.Lemmas.Wait
import Kworker.Bios.Skip

/-!
# One byte in a silent countdown
-/

namespace Kworker.Bios

open Kworker.Lib

/-! ## One point of the countdown -/

/-- What waits on `S` can be read by the drain of `i`. -/
def Item.Reads (S : Source) (r : Bool) (i : Item) : Prop :=
  S = .usb → i.usbkbd = true ∧ (r = true ∨ i.isPass = true)

theorem reads_uart {i : Item} {r : Bool} : i.Reads .uart r := nofun

section

variable {S : Source} {i : Item} {p : Pass} {m : Nat} {r : Bool} {q : List UInt8} {c : UInt8}

theorem Item.Reads.readable (h : (Item.pass p).Reads S r) : Readable S p.usbkbd (r || p.usbkbd) := by
  intro hS
  obtain ⟨hk, _⟩ := h hS
  have hk : p.usbkbd = true := hk
  simp [hk]

theorem pass_drained (h : (Item.pass p).Reads S r) (hboard : p.board = false)
    (hother : p.drain.on S.other = []) (hq : (drainBytes (q ++ p.drain.on S) m).2 = false) :
    waitPass (.only S q m r) p = keyEnds (kh_bios_poll_key p.usbkbd p.poll
      (.only S [] (drainBytes (q ++ p.drain.on S) m).1 (r || p.usbkbd))) := by
  simp only [waitPass_eq, only_attach, only_arrive hother, only_drain h.readable, hboard, hq,
    Bool.false_eq_true, if_false]

/-- All that is there is read by the drain, and it does not end the wait. -/
theorem step_drained (h : i.Reads S r) (hu : i.Unpressed) (hpolled : i.polled S = [])
    (hother : i.on S.other = []) (hq : (drainBytes (q ++ i.drained S) m).2 = false) :
    i.step (.only S q m r) = .ok (.only S [] (drainBytes (q ++ i.drained S) m).1 (r || i.usbkbd)) := by
  obtain ⟨hqd, hqp⟩ := List.append_eq_nil_iff.mp hother
  cases i with
  | first rd =>
      have hread : Readable S rd.usbkbd r := fun hS => ⟨(h hS).1, (h hS).2.resolve_right nofun⟩
      have hqd : rd.drain.on S.other = [] := hqd
      have hq : (drainBytes (q ++ rd.drain.on S) m).2 = false := hq
      simp only [Item.step, firstDrain, only_arrive hqd, only_drain hread, hq, Bool.false_eq_true, if_false,
        only_attach]
      rfl
  | pass p =>
      obtain ⟨hboard, hpoll, hlook, _, _⟩ := hu
      have hnil : p.poll.on S = [] := hpolled
      have htstc : p.poll.look₀.tstc.on S = [] :=
        (List.append_eq_nil_iff.mp (List.append_eq_nil_iff.mp hnil).1).1
      simp only [Item.step]
      rw [pass_drained h hboard hqd hq, poll_nothing h.readable hqp hpoll hlook htstc, hnil]
      rfl

/-- One of the bytes of Enter and Esc. -/
def SkipByte (c : UInt8) : Prop := c = 0x0d ∨ c = 0x0a ∨ c = 0x1b

theorem SkipByte.feed (hc : SkipByte c) (m : Nat) : (esc_state_feed m c).2 = false := by
  apply feed_miss
  rintro rfl
  exact absurd hc (by unfold SkipByte; decide)

theorem SkipByte.drain (hc : SkipByte c) (m : Nat) : (drainBytes [c] m).2 = false := by
  have hb : c ≠ 0x62 ∧ c ≠ 0x42 := by
    rcases hc with rfl | rfl | rfl <;> decide
  simp [drainBytes, drainByte, hc.feed, hb]

theorem SkipByte.keyOf (hc : SkipByte c) (hne : c ≠ 0x1b) : keyOf c = .enter := by
  rcases hc with rfl | rfl | rfl
  · rfl
  · rfl
  · exact absurd rfl hne

theorem poll_skip {k : Bool} {e : PollEnv} (h : Readable S k r) (hq : e.on S.other = []) (hb : e.board = false)
    (hb₁ : e.look₁.board = false) (hon : e.on S = [c]) (htstc : e.look₀.tstc.on S ≠ []) (hc : SkipByte c) :
    ∃ l, kh_bios_poll_key k e (.only S [] m r) = (l, .enter) ∨
      kh_bios_poll_key k e (.only S [] m r) = (l, .esc) := by
  obtain ⟨a, rest, hcons⟩ := List.exists_cons_of_ne_nil htstc
  rw [PollEnv.on, KeyLook.on, hcons, List.cons_append, List.cons_append, List.cons.injEq] at hon
  obtain ⟨rfl, hnil⟩ := hon
  simp only [List.append_eq_nil_iff] at hnil
  obtain ⟨⟨rfl, hgetc⟩, h₁, h₂⟩ := hnil
  have hlook₀ : e.look₀.on S = [a] := by rw [KeyLook.on, hcons, hgetc]; rfl
  rw [only_poll h hq hb, if_neg fun hnone => htstc hnone.2]
  simp only [List.nil_append, hlook₀, List.headD_cons, List.tail_cons, hc.feed, Bool.false_eq_true, if_false]
  by_cases hesc : a = 0x1b
  · rw [if_pos hesc, only_pollEscape h hq]
    have ht₁ : e.look₁.tstc.on S = [] := (List.append_eq_nil_iff.mp h₁).1
    rw [if_pos ⟨hb₁, ht₁⟩]
    exact ⟨_, Or.inr rfl⟩
  · rw [if_neg hesc, hc.keyOf hesc]
    exact ⟨_, Or.inl rfl⟩

/-- The byte arrives after the drain: the wait ends if it is there at the first check of
`kh_bios_poll_key`, and else it is left for the next drain. -/
theorem pass_polled (h : (Item.pass p).Reads S r) (hu : (Item.pass p).Unpressed)
    (hdrain : p.drain.on S = []) (hpoll : p.poll.on S = [c]) (hother : (Item.pass p).on S.other = [])
    (hc : SkipByte c) :
    (p.poll.look₀.tstc.on S ≠ [] ∧ ∃ l, waitPass (.only S [] m r) p = .error (false, l)) ∨
    (p.poll.look₀.tstc.on S = [] ∧ waitPass (.only S [] m r) p = .ok (.only S [c] m (r || p.usbkbd))) := by
  obtain ⟨hboard, hpboard, hlook₀, hlook₁, _⟩ := hu
  obtain ⟨hqd, hqp⟩ := List.append_eq_nil_iff.mp hother
  rw [pass_drained h hboard hqd (by rw [hdrain]; rfl), hdrain]
  by_cases htstc : p.poll.look₀.tstc.on S = []
  · right
    rw [poll_nothing h.readable hqp hpboard hlook₀ htstc, hpoll]
    exact ⟨htstc, rfl⟩
  · left
    refine ⟨htstc, ?_⟩
    rw [List.nil_append, show drainBytes [] m = (m, false) from rfl]
    obtain ⟨l, hkey | hkey⟩ := poll_skip (m := m) h.readable hqp hpboard hlook₁ hpoll htstc hc
    · rw [hkey]
      exact ⟨l, rfl⟩
    · rw [hkey]
      exact ⟨l, rfl⟩

theorem byte_step (h : i.Reads S r) (hu : i.Unpressed) (hon : i.on S = [c]) (hother : i.on S.other = [])
    (hc : SkipByte c) :
    (i.BetweenReaders S ∧ ∃ l, i.step (.only S [] m r) = .error (false, l)) ∨
    (¬ i.BetweenReaders S ∧ ∃ q m', (q = [] ∨ q = [c]) ∧
      i.step (.only S [] m r) = .ok (.only S q m' (r || i.usbkbd))) := by
  rcases List.append_eq_singleton_iff.mp hon with ⟨hdrained, hpolled⟩ | ⟨hdrained, hpolled⟩
  · -- it arrives during `kh_bios_poll_key`
    cases i with
    | first rd => cases hpolled
    | pass p =>
        rcases pass_polled (m := m) h hu hdrained hpolled hother hc with ⟨htstc, l, hl⟩ | ⟨htstc, hl⟩
        · exact Or.inl ⟨htstc, l, hl⟩
        · exact Or.inr ⟨fun hbetween => hbetween htstc, [c], m, Or.inr rfl, hl⟩
  · -- the drain reads it
    right
    have hstep := step_drained (q := []) (m := m) h hu hpolled hother
      (by rw [hdrained]; exact hc.drain m)
    refine ⟨?_, [], _, Or.inl rfl, hstep⟩
    cases i with
    | first rd => exact id
    | pass p =>
        have hnil : p.poll.on S = [] := hpolled
        intro hbetween
        exact hbetween (List.append_eq_nil_iff.mp (List.append_eq_nil_iff.mp hnil).1).1

end

/-! ## Nothing arrives any more -/

/-- Nothing arrives, and the board key is not pressed. -/
structure Item.Silent (i : Item) : Prop where
  unpressed : i.Unpressed
  on : ∀ S, i.on S = []

theorem silent_of {S : Source} {items : List Item} (hu : ∀ i ∈ items, i.Unpressed)
    (hon : arrivals S items = []) (hother : arrivals S.other items = []) : ∀ i ∈ items, i.Silent := by
  intro i hi
  have hS := arrivals_eq_nil.mp hon i hi
  have hO := arrivals_eq_nil.mp hother i hi
  refine ⟨hu i hi, fun T => ?_⟩
  cases S <;> cases T <;> assumption

section

variable {S : Source} {i : Item} {items : List Item} {m : Nat} {r : Bool} {q : List UInt8} {c : UInt8}

/-- A silent point reads what is left. -/
theorem silent_step (hi : i.Silent) (h : i.Reads S r) (hq : (drainBytes q m).2 = false) :
    i.step (.only S q m r) = .ok (.only S [] (drainBytes q m).1 (r || i.usbkbd)) := by
  obtain ⟨hdrained, hpolled⟩ := List.append_eq_nil_iff.mp (hi.on S)
  have hstep := step_drained (q := q) (m := m) h hi.unpressed hpolled (hi.on S.other)
  rw [hdrained, List.append_nil] at hstep
  exact hstep hq

theorem silent_run (hall : ∀ i ∈ items, i.Silent) :
    items.foldlM Item.step (.only S [] m r) = .ok (.only S [] m (r || items.any (·.usbkbd))) := by
  rw [only_nil S .uart, only_nil S .uart]
  induction items generalizing r with
  | nil => simp [pure, Except.pure]
  | cons i items ih =>
      obtain ⟨hi, hitems⟩ := List.forall_mem_cons.mp hall
      have hstep := silent_step (q := []) (m := m) (r := r) hi reads_uart rfl
      rw [List.foldlM_cons, hstep, List.any_cons, ← Bool.or_assoc]
      exact ih hitems

theorem left_run (hall : ∀ i ∈ items, i.Silent) (hq : q = [] ∨ q = [c]) (hc : SkipByte c)
    (hread : S = .usb → r = true ∧ ∀ i, items.head? = some i → i.usbkbd = true) :
    ∃ l, items.foldlM Item.step (.only S q m r) = .ok l := by
  cases items with
  | nil => exact ⟨_, rfl⟩
  | cons i items =>
      obtain ⟨hi, hitems⟩ := List.forall_mem_cons.mp hall
      have hreads : i.Reads S r := fun hS => ⟨(hread hS).2 i rfl, Or.inl (hread hS).1⟩
      have hdrain : (drainBytes q m).2 = false := by
        rcases hq with rfl | rfl
        · rfl
        · exact hc.drain m
      rw [List.foldlM_cons, silent_step hi hreads hdrain]
      exact ⟨_, silent_run hitems⟩

end

/-! ## The countdown -/

theorem mem_of_mem_untilPass {items : List Item} {i : Item} (h : i ∈ untilPass items) : i ∈ items := by
  induction items with
  | nil => exact h
  | cons j items ih =>
      cases j with
      | first rd =>
          rcases List.mem_cons.mp h with rfl | h
          · exact List.mem_cons_self ..
          · exact List.mem_cons_of_mem _ (ih h)
      | pass p =>
          rw [List.mem_singleton.mp h]
          exact List.mem_cons_self ..

theorem head_untilPass (items : List Item) : (untilPass items).head? = items.head? := by
  cases items with
  | nil => rfl
  | cons j items => cases j <;> rfl

section

variable {S : Source} {c : UInt8} {env : Countdown} {delay_sec : Int} {pre post : List Item} {i : Item}

theorem OneByte.before_run (h : OneByte S c env delay_sec pre i post) :
    ∃ r, pre.foldlM Item.step env.armed = .ok (.only S [] 0 r) ∧ i.Reads S r := by
  have hu := h.unpressed
  have hother := h.other
  rw [h.items] at hu hother
  have hpre : ∀ j ∈ pre, j.Silent := by
    apply silent_of _ h.before
    · rw [arrivals, List.flatMap_append] at hother
      exact (List.append_eq_nil_iff.mp hother).1
    · exact fun j hj => hu j (List.mem_append_left _ hj)
  rw [armed_eq h.flush S, silent_run hpre]
  refine ⟨_, rfl, fun hS => ?_⟩
  obtain ⟨hattached, husbkbd⟩ := h.attached hS
  refine ⟨husbkbd i (List.mem_cons_self ..), ?_⟩
  rcases hattached with ⟨hinit, n, hn, hfound⟩ | ⟨j, hj, hfound⟩ | hpass
  · left
    rw [Bool.or_eq_true, Bool.and_eq_true, decide_eq_true_iff, List.any_eq_true]
    exact Or.inl ⟨hinit, n, List.mem_range.mpr hn, hfound⟩
  · left
    rw [Bool.or_eq_true, List.any_eq_true]
    exact Or.inr ⟨j, hj, hfound⟩
  · exact Or.inr hpass

theorem OneByte.after_silent (h : OneByte S c env delay_sec pre i post) : ∀ j ∈ post, j.Silent := by
  have hu := h.unpressed
  have hother := h.other
  rw [h.items] at hu hother
  apply silent_of _ h.after
  · rw [arrivals, List.flatMap_append, List.flatMap_cons] at hother
    exact (List.append_eq_nil_iff.mp (List.append_eq_nil_iff.mp hother).2).2
  · exact fun j hj => hu j (List.mem_append_right _ (List.mem_cons_of_mem _ hj))

/-- The byte ends the wait in `i`, or the run goes on over all that comes later. -/
theorem OneByte.outcome (h : OneByte S c env delay_sec pre i post) (hc : SkipByte c) :
    (i.BetweenReaders S ∧
      ∃ l, ∀ rest, (pre ++ i :: rest).foldlM Item.step env.armed = .error (false, l)) ∨
    (¬ i.BetweenReaders S ∧
      ∀ rest, (∀ j ∈ rest, j ∈ post) → rest.head? = (untilPass post).head? →
        ∃ l, (pre ++ i :: rest).foldlM Item.step env.armed = .ok l) := by
  obtain ⟨r, hbefore, hreads⟩ := h.before_run
  have hi : i ∈ env.items delay_sec := by
    rw [h.items]
    exact List.mem_append_right _ (List.mem_cons_self ..)
  have hstep := byte_step (m := 0) hreads (h.unpressed i hi) h.byte (arrivals_eq_nil.mp h.other i hi) hc
  rcases hstep with ⟨hbetween, l, hl⟩ | ⟨hbetween, q, m', hq, hl⟩
  · left
    refine ⟨hbetween, l, fun rest => ?_⟩
    rw [List.foldlM_append, hbefore]
    show (i :: rest).foldlM Item.step (.only S [] 0 r) = _
    rw [List.foldlM_cons, hl]
    rfl
  · right
    refine ⟨hbetween, fun rest hrest hhead => ?_⟩
    rw [List.foldlM_append, hbefore]
    show ∃ l, (i :: rest).foldlM Item.step (.only S [] 0 r) = .ok l
    rw [List.foldlM_cons, hl]
    refine left_run (fun j hj => h.after_silent j (hrest j hj)) hq hc fun hS => ?_
    obtain ⟨_, husbkbd⟩ := h.attached hS
    constructor
    · rw [husbkbd i (List.mem_cons_self ..), Bool.or_true]
    · intro j hj
      rw [hhead] at hj
      exact husbkbd j (List.mem_cons_of_mem _ (List.mem_of_mem_head? hj))

end

end Kworker.Bios
