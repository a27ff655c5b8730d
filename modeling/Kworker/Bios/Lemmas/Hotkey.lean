import Kworker.Bios.Schedule
import Kworker.Lib.Matcher

/-!
# Reading when only one source has bytes
-/

namespace Kworker.Bios

open Kworker.Lib

/-! ## The matcher -/

/-- F10 ends with `~`. -/
theorem feed_hit {m : Nat} {c : UInt8} (h : (esc_state_feed m c).2 = true) : c = 0x7e := by
  unfold esc_state_feed at h
  split_ifs at h with hc hm
  obtain ⟨hlt, hc⟩ := List.getElem?_eq_some_iff.mp hc
  have hlen : F10_SEQ.length = 5 := rfl
  have hm : m = 4 := by omega
  subst hm
  exact hc.symm

theorem feed_miss (m : Nat) {c : UInt8} (h : c ≠ 0x7e) : (esc_state_feed m c).2 = false := by
  rw [← Bool.not_eq_true]
  exact fun hhit => h (feed_hit hhit)

theorem feed_eq (m : Nat) (c : UInt8) : esc_state_feed m c = restart F10_SEQ m c := by
  unfold esc_state_feed restart
  simp only [F10_SEQ, List.head?_cons, Option.some.injEq, eq_comm (a := c)]

theorem feeds_eq (m : Nat) (s : List UInt8) : esc_state_feeds m s = restarts F10_SEQ m s := by
  induction s generalizing m with
  | nil => rfl
  | cons c s ih => simp only [esc_state_feeds, restarts, ih, feed_eq]

/-- ESC comes only once in F10, so that nothing but the byte itself is worth keeping at a mismatch. -/
theorem esc_once : (0x1b : UInt8) ∉ ([0x5b, 0x32, 0x31, 0x7e] : List UInt8) := by decide

theorem matched_reset : Matched F10_SEQ [] 0 := matched_nil (List.cons_ne_nil _ _)

/-- The drain reads the UART first, and what it finds there does not change whether the keyboard can be
read. -/
theorem drain_eq (k : Bool) (l : Line) : bios_drain_enter_keys k l =
    let u := drainBytes l.uart l.f10_match
    if usbReadable k l then
      let v := drainBytes l.usb u.1
      ({ l with uart := [], usb := [], f10_match := v.1 }, u.2 || v.2)
    else ({ l with uart := [], f10_match := u.1 }, u.2) := rfl

/-! ## A line with bytes on one source -/

/-- `queue` waits on `S`, and nothing on the other source. -/
def Line.only (S : Source) (queue : List UInt8) (f10_match : Nat) (usb_kbd_ready : Bool) : Line :=
  match S with
  | .uart => { uart := queue, f10_match, usb_kbd_ready }
  | .usb => { usb := queue, f10_match, usb_kbd_ready }

def Readable (S : Source) (usbkbd usb_kbd_ready : Bool) : Prop :=
  S = .usb → usbkbd = true ∧ usb_kbd_ready = true

theorem readable_uart {k r : Bool} : Readable .uart k r := nofun

section

variable {S : Source} {q : List UInt8} {m : Nat} {k r : Bool}

@[simp] theorem only_f10_match : (Line.only S q m r).f10_match = m := by
  cases S <;> rfl

/-- Without bytes the sources do not matter. -/
theorem only_nil (S T : Source) : Line.only S [] m r = .only T [] m r := by
  cases S <;> cases T <;> rfl

theorem only_with_match (m' : Nat) : { Line.only S q m r with f10_match := m' } = Line.only S q m' r := by
  cases S <;> rfl

theorem only_arrive {a : Arrivals} (h : a.on S.other = []) :
    (Line.only S q m r).arrive a = Line.only S (q ++ a.on S) m r := by
  cases S with
  | uart =>
      have h : a.usb = [] := h
      simp [Line.only, Line.arrive, Arrivals.on, h]
  | usb =>
      have h : a.uart = [] := h
      simp [Line.only, Line.arrive, Arrivals.on, h]

theorem only_skip {e : KeyLook} (h : e.on S.other = []) :
    (Line.only S q m r).skip e = Line.only S (q ++ e.on S) m r := by
  obtain ⟨ht, hg⟩ := List.append_eq_nil_iff.mp h
  rw [Line.skip, only_arrive ht, only_arrive hg, List.append_assoc, KeyLook.on]

theorem only_attach : bios_usb_kbd_attach k (Line.only S q m r) = Line.only S q m (r || k) := by
  cases S <;> rfl

theorem only_drain (h : Readable S k r) : bios_drain_enter_keys k (Line.only S q m r) =
    (Line.only S [] (drainBytes q m).1 r, (drainBytes q m).2) := by
  cases S with
  | uart => simp [Line.only, bios_drain_enter_keys, usbReadable]
  | usb =>
      obtain ⟨rfl, rfl⟩ := h rfl
      by_cases hq : q = []
      · simp [Line.only, bios_drain_enter_keys, usbReadable, hq, drainBytes]
      · simp [Line.only, bios_drain_enter_keys, usbReadable, hq, drainBytes]

theorem only_tstc (h : Readable S k r) (b : Bool) :
    bios_key_tstc k b (Line.only S q m r) = (b || !decide (q = [])) := by
  cases S with
  | uart => by_cases hq : q = [] <;> simp [Line.only, bios_key_tstc, usbReadable, hq]
  | usb =>
      obtain ⟨rfl, rfl⟩ := h rfl
      by_cases hq : q = [] <;> simp [Line.only, bios_key_tstc, usbReadable, hq]

theorem only_getc (h : Readable S k r) :
    bios_key_getc k (Line.only S q m r) = (Line.only S q.tail m r, q.headD 0) := by
  cases S with
  | uart => simp [Line.only, bios_key_getc, usbReadable]
  | usb =>
      obtain ⟨rfl, rfl⟩ := h rfl
      cases q with
      | nil => simp [Line.only, bios_key_getc, usbReadable]
      | cons c q => simp [Line.only, bios_key_getc, usbReadable]

/-- A look with neither the board key nor a byte finds nothing; any other takes the first byte, or a 0
when there is none. -/
theorem only_keyLook (h : Readable S k r) {e : KeyLook} (hq : e.on S.other = []) :
    keyLook k e (Line.only S q m r) =
      if e.board = false ∧ q ++ e.tstc.on S = [] then (Line.only S (q ++ e.on S) m r, none)
      else (Line.only S (q ++ e.on S).tail m r, some ((q ++ e.on S).headD 0)) := by
  obtain ⟨ht, hg⟩ := List.append_eq_nil_iff.mp hq
  unfold keyLook
  rw [only_arrive ht]
  simp only [only_tstc h, only_arrive hg, only_getc h, List.append_assoc, KeyLook.on]
  cases e.board with
  | true => simp
  | false =>
      by_cases hnil : q ++ e.tstc.on S = []
      · simp [hnil]
      · simp [hnil]

/-! ## One key -/

variable {e : PollEnv}

theorem quiet_looks (h : e.on S.other = []) :
    e.look₀.on S.other = [] ∧ e.look₁.on S.other = [] ∧ e.look₂.on S.other = [] := by
  simpa [PollEnv.on] using h

theorem only_pollEscape (h : Readable S k r) (hq : e.on S.other = []) :
    pollEscape k e (Line.only S q m r) =
      if e.look₁.board = false ∧ q ++ e.look₁.tstc.on S = [] then
        (Line.only S (q ++ e.look₁.on S ++ e.look₂.on S) m r, .esc)
      else if (q ++ e.look₁.on S).headD 0 = 0x5b then
        pollBracket k e (Line.only S (q ++ e.look₁.on S).tail m r)
      else (Line.only S ((q ++ e.look₁.on S).tail ++ e.look₂.on S) m r, .esc) := by
  obtain ⟨_, h₁, h₂⟩ := quiet_looks hq
  unfold pollEscape
  rw [only_keyLook h h₁]
  by_cases hnone : e.look₁.board = false ∧ q ++ e.look₁.tstc.on S = []
  · simp only [hnone, and_self, if_true, only_skip h₂]
  · simp only [hnone, if_false, only_skip h₂]

def keyOf (c : UInt8) : Key :=
  if c = 0x0d ∨ c = 0x0a then .enter else if c = 0x62 ∨ c = 0x42 then .f10 else .none

theorem only_poll (h : Readable S k r) (hq : e.on S.other = []) (hboard : e.board = false) :
    kh_bios_poll_key k e (Line.only S q m r) =
      if e.look₀.board = false ∧ q ++ e.look₀.tstc.on S = [] then
        (Line.only S (q ++ e.on S) m r, .none)
      else
        let c := (q ++ e.look₀.on S).headD 0
        let rest := (q ++ e.look₀.on S).tail
        let fed := esc_state_feed m c
        if fed.2 then (Line.only S (rest ++ (e.look₁.on S ++ e.look₂.on S)) fed.1 r, .f10)
        else if c = 0x1b then pollEscape k e (Line.only S rest fed.1 r)
        else (Line.only S (rest ++ (e.look₁.on S ++ e.look₂.on S)) fed.1 r, keyOf c) := by
  obtain ⟨h₀, h₁, h₂⟩ := quiet_looks hq
  unfold kh_bios_poll_key
  rw [only_keyLook h h₀]
  simp only [hboard, Bool.false_eq_true, if_false]
  by_cases hnone : e.look₀.board = false ∧ q ++ e.look₀.tstc.on S = []
  · simp only [hnone, and_self, if_true, only_skip h₁, only_skip h₂, PollEnv.on, List.append_assoc]
  · simp only [hnone, if_false, only_f10_match, only_with_match, only_skip h₁, only_skip h₂,
      List.append_assoc, keyOf]

theorem only_poll_board (hq : e.on S.other = []) (hboard : e.board = true) :
    kh_bios_poll_key k e (Line.only S q m r) = (Line.only S (q ++ e.on S) m r, .f10) := by
  obtain ⟨h₀, h₁, h₂⟩ := quiet_looks hq
  unfold kh_bios_poll_key
  simp only [hboard, if_true, only_skip h₀, only_skip h₁, only_skip h₂, PollEnv.on, List.append_assoc]

end

/-! ## One turn of the loop -/

/-- What a turn makes of the key. -/
def keyEnds : Line × Key → Except (Bool × Line) Line
  | (l, .f10) => .error (true, l)
  | (l, .enter) | (l, .esc) => .error (false, l)
  | (l, _) => .ok l

theorem waitPass_eq (l : Line) (p : Pass) : waitPass l p =
    let l := bios_usb_kbd_attach p.usbkbd l
    if p.board then .error (true, l)
    else
      let (l, enter) := bios_drain_enter_keys p.usbkbd (l.arrive p.drain)
      if enter then .error (true, l) else keyEnds (kh_bios_poll_key p.usbkbd p.poll l) := rfl

end Kworker.Bios
