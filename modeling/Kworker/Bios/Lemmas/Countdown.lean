import Kworker.Bios.Lemmas.Hotkey

/-!
# One press of F10 during the countdown
-/

namespace Kworker.Bios

open Kworker.Lib

/-! ## The matcher on the bytes of the press -/

theorem press_length {w : List UInt8} (h : w <+: F10_SEQ) : w.length ≤ 5 := h.length_le

theorem press_take {w : List UInt8} (h : w <+: F10_SEQ) : w = F10_SEQ.take w.length :=
  List.prefix_iff_eq_take.mp h

theorem press_eq {w : List UInt8} (h : w <+: F10_SEQ) (hlen : w.length = 5) : w = F10_SEQ :=
  h.eq_of_length hlen

theorem press_lt {w : List UInt8} (h : w <+: F10_SEQ) (hne : w ≠ F10_SEQ) : w.length < 5 := by
  have hle := press_length h
  have hlen : w.length ≠ 5 := fun heq => hne (press_eq h heq)
  omega

theorem drainBytes_press {w : List UInt8} (h : w <+: F10_SEQ) {t : Nat} (ht : t < 5)
    (hle : t ≤ w.length) :
    drainBytes (w.drop t) t = if w = F10_SEQ then (0, true) else (w.length, false) := by
  have key : ∀ n < 6, ∀ t < 5, t ≤ n → drainBytes ((F10_SEQ.take n).drop t) t =
      if F10_SEQ.take n = F10_SEQ then (0, true) else (n, false) := by decide
  have hn := key w.length (by have := press_length h; omega) t ht hle
  rwa [← press_take h] at hn

theorem press_next {w rest : List UInt8} {c : UInt8} (h : w ++ c :: rest <+: F10_SEQ) :
    w.length < 5 ∧ c = F10_SEQ.getD w.length 0 := by
  have hlen := h.length_le
  obtain ⟨post, hpost⟩ := h
  constructor
  · simp only [List.length_append, List.length_cons] at hlen
    have : F10_SEQ.length = 5 := rfl
    omega
  · rw [← hpost]
    simp

theorem feed_press {w rest : List UInt8} {c : UInt8} (h : w ++ c :: rest <+: F10_SEQ) :
    esc_state_feed w.length c = (if w.length = 4 then (0, true) else (w.length + 1, false)) ∧
    (c = 0x1b ↔ w.length = 0) ∧ keyOf c = .none := by
  obtain ⟨hlt, rfl⟩ := press_next h
  have key : ∀ n < 5, esc_state_feed n (F10_SEQ.getD n 0) =
        (if n = 4 then (0, true) else (n + 1, false)) ∧
      (F10_SEQ.getD n 0 = 0x1b ↔ n = 0) ∧ keyOf (F10_SEQ.getD n 0) = .none := by decide
  exact key w.length hlt

theorem feed_zero {n : Nat} (h : n < 5) : esc_state_feed n 0 = (0, false) := by
  have key : ∀ n < 5, esc_state_feed n 0 = (0, false) := by decide
  exact key n h

/-! ## Bytes that change nothing -/

/-- The byte is neither `ESC` nor a key of its own. -/
def Plain (c : UInt8) : Prop := c ∉ [0x1b, 0x62, 0x42, 0x0d, 0x0a]

theorem Plain.feed {c : UInt8} (h : Plain c) : esc_state_feed 0 c = (0, false) := by
  simp only [Plain, List.mem_cons, not_or] at h
  simp [esc_state_feed, F10_SEQ, h.1, Ne.symm h.1]

theorem Plain.keyOf {c : UInt8} (h : Plain c) : keyOf c = .none := by
  simp only [Plain, List.mem_cons, List.not_mem_nil, or_false, not_or] at h
  simp [Bios.keyOf, h]

theorem drainBytes_plain {q : List UInt8} (h : ∀ c ∈ q, Plain c) : drainBytes q 0 = (0, false) := by
  unfold drainBytes
  induction q with
  | nil => rfl
  | cons c q ih =>
      obtain ⟨hc, hq⟩ := List.forall_mem_cons.mp h
      have hstep : drainByte (0, false) c = (0, false) := by
        have hp := hc
        simp only [Plain, List.mem_cons, List.not_mem_nil, or_false, not_or] at hp
        simp [drainByte, hc.feed, hp]
      rw [List.foldl_cons, hstep]
      exact ih hq

theorem press_plain {w q : List UInt8} (h : w ++ q <+: F10_SEQ) (hw : w ≠ []) : ∀ c ∈ q, Plain c := by
  have key : ∀ c ∈ F10_SEQ.tail, Plain c := by
    intro c hc
    simp only [F10_SEQ, List.tail_cons, List.mem_cons, List.not_mem_nil, or_false] at hc
    rcases hc with rfl | rfl | rfl | rfl <;> simp [Plain]
  intro c hc
  apply key
  cases w with
  | nil => exact absurd rfl hw
  | cons b w =>
      obtain ⟨post, hpost⟩ := h
      have htail : F10_SEQ.tail = w ++ q ++ post := by
        rw [← hpost]
        rfl
      rw [htail]
      simp [hc]

/-! ## Where the line stands -/

/-- `w` has arrived, and the part of it that was read has been fed. -/
def Alive (S : Source) (w : List UInt8) (l : Line) : Prop :=
  ∃ t r, t ≤ w.length ∧ t < 5 ∧ l = .only S (w.drop t) t r ∧ (S = .usb → r = true)

/-- The start of the press is lost: what waits means nothing. -/
def Dead (S : Source) (l : Line) : Prop :=
  ∃ q r, l = .only S q 0 r ∧ (∀ c ∈ q, Plain c) ∧ (S = .usb → r = true)

section

variable {S : Source} {w : List UInt8} {l : Line} {k : Bool} {a : Arrivals}

theorem Alive.attach (hl : Alive S w l) : Alive S w (bios_usb_kbd_attach k l) := by
  obtain ⟨t, r, hle, ht, rfl, hr⟩ := hl
  refine ⟨t, r || k, hle, ht, only_attach, fun hS => ?_⟩
  rw [hr hS]
  rfl

theorem Alive.drain (hl : Alive S w l) (hp : w ++ a.on S <+: F10_SEQ) (hq : a.on S.other = [])
    (hk : S = .usb → k = true) : ∃ r, (S = .usb → r = true) ∧
    bios_drain_enter_keys k (l.arrive a) =
      if w ++ a.on S = F10_SEQ then (.only S [] 0 r, true)
      else (.only S [] (w ++ a.on S).length r, false) := by
  obtain ⟨t, r, hle, ht, rfl, hr⟩ := hl
  refine ⟨r, hr, ?_⟩
  rw [only_arrive hq, only_drain fun hS => ⟨hk hS, hr hS⟩, ← List.drop_append_of_le_length hle,
    drainBytes_press hp ht (by rw [List.length_append]; omega)]
  split <;> rfl

theorem Dead.attach (hl : Dead S l) : Dead S (bios_usb_kbd_attach k l) := by
  obtain ⟨q, r, rfl, hplain, hr⟩ := hl
  refine ⟨q, r || k, only_attach, hplain, fun hS => ?_⟩
  rw [hr hS]
  rfl

theorem Dead.drain (hl : Dead S l) (hp : ∀ c ∈ a.on S, Plain c) (hq : a.on S.other = [])
    (hk : S = .usb → k = true) : ∃ r, (S = .usb → r = true) ∧
    bios_drain_enter_keys k (l.arrive a) = (.only S [] 0 r, false) := by
  obtain ⟨q, r, rfl, hplain, hr⟩ := hl
  refine ⟨r, hr, ?_⟩
  have hall : ∀ c ∈ q ++ a.on S, Plain c := by
    intro c hc
    rcases List.mem_append.mp hc with hc | hc
    · exact hplain c hc
    · exact hp c hc
  rw [only_arrive hq, only_drain fun hS => ⟨hk hS, hr hS⟩, drainBytes_plain hall]

end

/-! ## The call of `kh_bios_poll_key` -/

section

variable {S : Source} {v : List UInt8} {k r : Bool} {e : PollEnv}

theorem pollEscape_press {q : List UInt8} {m : Nat} (h : Readable S k r) (hq : e.on S.other = [])
    (hp : [0x1b] ++ (q ++ (e.look₁.on S ++ e.look₂.on S)) <+: F10_SEQ) :
    (pollEscape k e (.only S q m r)).2 = .esc := by
  obtain ⟨_, _, h₂⟩ := quiet_looks hq
  rw [only_pollEscape h hq]
  split
  · rfl
  · split
    · rename_i hbr
      cases hx : q ++ e.look₁.on S with
      | nil =>
          rw [hx] at hbr
          cases hbr
      | cons c rest =>
          rw [← List.append_assoc q, hx] at hp
          simp only [List.tail_cons, pollBracket]
          rw [only_keyLook h h₂]
          by_cases hnone : e.look₂.board = false ∧ rest ++ e.look₂.tstc.on S = []
          · simp only [hnone, and_self, if_true]
          · simp only [hnone, if_false]
            cases hy : rest ++ e.look₂.on S with
            | nil => rfl
            | cons d rest' =>
                have hp' : [0x1b, c] ++ d :: rest' <+: F10_SEQ := by
                  rw [← hy]
                  exact hp
                obtain ⟨_, hd⟩ := press_next hp'
                rw [hd]
                rfl
    · rfl

/-- With nothing left in the queue, the look takes a byte that has arrived. -/
def KeyLook.Finds (look : KeyLook) (S : Source) : Prop :=
  look.tstc.on S ≠ [] ∨ look.board = true ∧ look.getc.on S ≠ []

theorem KeyLook.Finds.on_ne_nil {look : KeyLook} (h : look.Finds S) : look.on S ≠ [] := by
  intro hnil
  obtain ⟨ht, hg⟩ := List.append_eq_nil_iff.mp hnil
  rcases h with h | ⟨_, h⟩
  · exact h ht
  · exact h hg

theorem KeyLook.Finds.looked {look : KeyLook} (h : look.Finds S) :
    ¬ (look.board = false ∧ look.tstc.on S = []) := by
  rintro ⟨hb, ht⟩
  rcases h with h | ⟨h, _⟩
  · exact h ht
  · rw [hb] at h
    cases h

theorem KeyLook.tstc_of_not_finds {look : KeyLook} (h : ¬ look.Finds S) : look.tstc.on S = [] := by
  simp only [KeyLook.Finds, not_or, Classical.not_not] at h
  exact h.1

theorem KeyLook.on_of_not_finds {look : KeyLook} (h : ¬ look.Finds S) (hb : look.board = true) :
    look.on S = [] := by
  simp only [KeyLook.Finds, hb, true_and, not_or, Classical.not_not] at h
  exact List.append_eq_nil_iff.mpr h

theorem poll_nothing {n : Nat} (h : Readable S k r) (hq : e.on S.other = []) (hboard : e.board = false)
    (hb : e.look₀.board = false) (ht : e.look₀.tstc.on S = []) :
    kh_bios_poll_key k e (.only S [] n r) = (.only S (e.on S) n r, .none) := by
  rw [only_poll h hq hboard]
  simp only [List.nil_append, hb, ht, and_self, if_true]

/-- The board key and no byte: a 0 is fed. -/
theorem poll_zero {n : Nat} (h : Readable S k r) (hq : e.on S.other = []) (hboard : e.board = false)
    (hb : e.look₀.board = true) (hx : e.look₀.on S = []) (hn : n < 5) :
    kh_bios_poll_key k e (.only S [] n r) = (.only S (e.on S) 0 r, .none) := by
  have hon : e.on S = e.look₁.on S ++ e.look₂.on S := by rw [PollEnv.on, hx, List.nil_append]
  rw [only_poll h hq hboard, hon]
  simp only [List.nil_append, hb, hx, List.headD_nil, List.tail_nil, feed_zero hn]
  rfl

theorem poll_first (h : Readable S k r) (hq : e.on S.other = []) (hboard : e.board = false)
    (hp : e.on S <+: F10_SEQ) (hread : e.look₀.Finds S) :
    (kh_bios_poll_key k e (.only S [] 0 r)).2 = .esc := by
  rw [only_poll h hq hboard]
  simp only [List.nil_append, hread.looked, if_false]
  cases hx : e.look₀.on S with
  | nil => exact absurd hx hread.on_ne_nil
  | cons c rest =>
      rw [PollEnv.on, hx, List.cons_append] at hp
      obtain ⟨hfeed, hesc, _⟩ := feed_press (w := []) hp
      obtain rfl : c = 0x1b := hesc.mpr rfl
      have hfeed : esc_state_feed 0 0x1b = (1, false) := hfeed
      simp only [List.headD_cons, List.tail_cons, hfeed, Bool.false_eq_true, if_false, if_true]
      exact pollEscape_press h hq hp

theorem poll_next {c : UInt8} {rest : List UInt8} (h : Readable S k r) (hq : e.on S.other = [])
    (hboard : e.board = false) (hp : v ++ e.on S <+: F10_SEQ) (hv : v ≠ [])
    (hread : e.look₀.Finds S) (hx : e.look₀.on S = c :: rest) :
    kh_bios_poll_key k e (.only S [] v.length r) =
      if v.length = 4 then (.only S (e.on S).tail 0 r, .f10)
      else (.only S (e.on S).tail (v.length + 1) r, .none) := by
  have hon : e.on S = c :: (rest ++ (e.look₁.on S ++ e.look₂.on S)) := by
    rw [PollEnv.on, hx, List.cons_append]
  rw [hon] at hp
  obtain ⟨hfeed, hesc, hkey⟩ := feed_press hp
  have hne : c ≠ 0x1b := fun hc => hv (List.length_eq_zero_iff.mp (hesc.mp hc))
  rw [only_poll h hq hboard, hon]
  simp only [List.nil_append, hread.looked, if_false, hx, List.headD_cons, List.tail_cons, hfeed]
  by_cases h4 : v.length = 4
  · simp only [h4, if_true]
  · simp only [h4, if_false, Bool.false_eq_true, hne, hkey]

/-- What `kh_bios_poll_key` does when `v` has been read and fed, and more of the press arrives. -/
inductive PollOutcome (S : Source) (v : List UInt8) (e : PollEnv) : Line × Key → Prop
  | complete (l : Line) (hall : v ++ e.on S = F10_SEQ) (hv : v ≠ []) (hread : e.look₀.on S ≠ []) :
      PollOutcome S v e (l, .f10)
  | takesEsc (l : Line) (hv : v = []) (hread : e.look₀.Finds S) : PollOutcome S v e (l, .esc)
  | goes (l : Line) (hl : Alive S (v ++ e.on S) l) (hesc : v = [] → ¬ e.look₀.Finds S)
      (hzero : v ≠ [] → ¬ (e.look₀.board = true ∧ e.look₀.on S = [])) :
      PollOutcome S v e (l, .none)
  | feedsZero (l : Line) (hl : Dead S l) (hv : v ≠ []) (hboard : e.look₀.board = true)
      (hread : e.look₀.on S = []) : PollOutcome S v e (l, .none)

theorem poll_outcome (h : Readable S k r) (hr : S = .usb → r = true) (hq : e.on S.other = [])
    (hp : v ++ e.on S <+: F10_SEQ) (hv : v.length < 5) (hboard : e.board = false) :
    PollOutcome S v e (kh_bios_poll_key k e (.only S [] v.length r)) := by
  by_cases hread : e.look₀.Finds S
  · by_cases hnil : v = []
    · subst hnil
      have hkey := poll_first (k := k) (r := r) h hq hboard hp hread
      have hout := PollOutcome.takesEsc (S := S) (v := []) (e := e)
        (kh_bios_poll_key k e (.only S [] 0 r)).1 rfl hread
      rw [← hkey] at hout
      exact hout
    · obtain ⟨c, rest, hx⟩ := List.exists_cons_of_ne_nil hread.on_ne_nil
      have hon : e.on S = c :: (rest ++ (e.look₁.on S ++ e.look₂.on S)) := by
        rw [PollEnv.on, hx, List.cons_append]
      rw [poll_next h hq hboard hp hnil hread hx]
      split
      · rename_i h4
        refine PollOutcome.complete _ (press_eq hp ?_) hnil hread.on_ne_nil
        have hle := press_length hp
        rw [hon] at hle ⊢
        simp only [List.length_append, List.length_cons] at hle ⊢
        omega
      · refine PollOutcome.goes _ ⟨v.length + 1, r, ?_, by omega, ?_, hr⟩ (fun h0 => absurd h0 hnil) ?_
        · rw [hon]
          simp
        · rw [hon]
          simp
        · rintro _ ⟨_, hx'⟩
          exact hread.on_ne_nil hx'
  · have ht := KeyLook.tstc_of_not_finds hread
    cases hb : e.look₀.board with
    | false =>
        rw [poll_nothing h hq hboard hb ht]
        refine PollOutcome.goes _ ⟨v.length, r, by simp, hv, by simp, hr⟩ (fun _ => hread) ?_
        rintro _ ⟨hb', _⟩
        rw [hb] at hb'
        cases hb'
    | true =>
        have hx := KeyLook.on_of_not_finds hread hb
        rw [poll_zero h hq hboard hb hx hv]
        by_cases hnil : v = []
        · refine PollOutcome.goes _ ⟨0, r, Nat.zero_le _, by decide, ?_, hr⟩ (fun _ => hread) ?_
          · rw [hnil, List.nil_append, List.drop_zero]
          · exact fun hne => absurd hnil hne
        · exact PollOutcome.feedsZero _ ⟨_, r, rfl, press_plain hp hnil, hr⟩ hnil hb hx

end

end Kworker.Bios
