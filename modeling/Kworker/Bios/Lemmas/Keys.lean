import Kworker.Bios.Keys
import Kworker.Bios.Lemmas.Hotkey

/-!
# What `kh_bios_poll_key` makes of a list of keys
-/

namespace Kworker.Bios

/-! ## One press -/

@[simp] theorem arrivals_default_on (S : Source) : ({} : Arrivals).on S = [] := by
  cases S <;> rfl

@[simp] theorem keyLook_default_on (S : Source) : ({} : KeyLook).on S = [] := by
  simp [KeyLook.on]

@[simp] theorem pollEnv_default_on (S : Source) : ({} : PollEnv).on S = [] := by
  simp [PollEnv.on]

section

variable {S : Source} {k r : Bool} {m : Nat} {rest : List UInt8}

theorem poll_pending (h : Readable S k r) (c : UInt8) : kh_bios_poll_key k {} (.only S (c :: rest) m r) =
    if (esc_state_feed m c).2 then (.only S rest (esc_state_feed m c).1 r, .f10)
    else if c = 0x1b then pollEscape k {} (.only S rest (esc_state_feed m c).1 r)
    else (.only S rest (esc_state_feed m c).1 r, keyOf c) := by
  rw [only_poll h (pollEnv_default_on _) rfl]
  simp

theorem pollEscape_nil (h : Readable S k r) :
    pollEscape k {} (.only S [] m r) = (.only S [] m r, .esc) := by
  rw [only_pollEscape h (pollEnv_default_on _)]
  simp

theorem pollEscape_bracket (h : Readable S k r) (c : UInt8) :
    pollEscape k {} (.only S (0x5b :: c :: rest) m r) = (.only S rest m r,
      if c = 0x41 then .up else if c = 0x42 then .down else if c = 0x43 then .right
      else if c = 0x44 then .left else .esc) := by
  rw [only_pollEscape h (pollEnv_default_on _)]
  simp only [keyLook_default_on, arrivals_default_on, List.append_nil, List.cons_ne_nil, and_false,
    if_false, List.headD_cons, if_true, List.tail_cons, pollBracket]
  rw [only_keyLook h (keyLook_default_on _)]
  simp only [keyLook_default_on, arrivals_default_on, List.append_nil, List.cons_ne_nil, and_false,
    if_false, List.headD_cons, List.tail_cons]
  split_ifs <;> rfl

theorem feed_esc (hm : m ≤ 1) : esc_state_feed m 0x1b = (1, false) := by
  have key : ∀ m < 2, esc_state_feed m 0x1b = (1, false) := by decide
  exact key m (by omega)

theorem feed_reset (hm : m ≤ 1) {c : UInt8} (h : c ≠ 0x1b) (h' : c ≠ 0x5b) :
    esc_state_feed m c = (0, false) := by
  obtain rfl | rfl : m = 0 ∨ m = 1 := by omega
  · simp [esc_state_feed, F10_SEQ, h, Ne.symm h]
  · simp [esc_state_feed, F10_SEQ, h, Ne.symm h']

theorem poll_arrow (h : Readable S k r) (hm : m ≤ 1) (c : UInt8) :
    kh_bios_poll_key k {} (.only S (0x1b :: 0x5b :: c :: rest) m r) = (.only S rest 1 r,
      if c = 0x41 then .up else if c = 0x42 then .down else if c = 0x43 then .right
      else if c = 0x44 then .left else .esc) := by
  rw [poll_pending h, feed_esc hm]
  simp only [Bool.false_eq_true, if_false, if_true]
  rw [pollEscape_bracket h]

theorem poll_byte (h : Readable S k r) (hm : m ≤ 1) {c : UInt8} (hc : c ≠ 0x1b) (hc' : c ≠ 0x5b) :
    kh_bios_poll_key k {} (.only S (c :: rest) m r) = (.only S rest 0 r, keyOf c) := by
  rw [poll_pending h, feed_reset hm hc hc']
  simp only [Bool.false_eq_true, if_false, hc]

theorem poll_bare_esc (h : Readable S k r) (hm : m ≤ 1) :
    kh_bios_poll_key k {} (.only S [0x1b] m r) = (.only S [] 1 r, .esc) := by
  rw [poll_pending h, feed_esc hm]
  simp only [Bool.false_eq_true, if_false, if_true]
  exact pollEscape_nil h

end

/-! ## All presses -/

/-- The keys that are read for a press: F10 comes out as Esc and two bytes without meaning. -/
def Press.readAs : Press → List Key
  | .f10 => [.esc, .none, .none]
  | p => [p.key]

section

variable {S : Source} {k r : Bool} {m n : Nat}

theorem pollAll_nil (h : Readable S k r) : pollAll k n (.only S [] m r) = (.only S [] m r, []) := by
  cases n with
  | zero => rfl
  | succ n => simp [pollAll, only_tstc h]

theorem pollAll_step (h : Readable S k r) {q q' : List UInt8} {m' : Nat} {key : Key} (hq : q ≠ [])
    (hstep : kh_bios_poll_key k {} (.only S q m r) = (.only S q' m' r, key)) :
    pollAll k (n + 1) (.only S q m r) =
      ((pollAll k n (.only S q' m' r)).1, key :: (pollAll k n (.only S q' m' r)).2) := by
  simp [pollAll, only_tstc h, hq, hstep]

theorem bytes_ne_nil (p : Press) : p.bytes ≠ [] := by
  cases p <;> exact List.cons_ne_nil _ _

theorem bytes_append_ne_nil (p : Press) (rest : List UInt8) : p.bytes ++ rest ≠ [] :=
  List.append_ne_nil_of_left_ne_nil (bytes_ne_nil p) rest

/-- The list is read on to `rest`, with at least as many calls left as there are bytes. -/
def ReadsOn (S : Source) (k r : Bool) (n m : Nat) (p : Press) (rest : List UInt8) : Prop :=
  ∃ m' ≤ 1, ∃ n', rest.length ≤ n' ∧ pollAll k n (.only S (p.bytes ++ rest) m r) =
    ((pollAll k n' (.only S rest m' r)).1, p.readAs ++ (pollAll k n' (.only S rest m' r)).2)

theorem readsOn_of_step (h : Readable S k r) {p : Press} {rest : List UInt8} {m' : Nat} (hm' : m' ≤ 1)
    (hn : (p.bytes ++ rest).length ≤ n) {key : Key} (hkey : p.readAs = [key])
    (hstep : kh_bios_poll_key k {} (.only S (p.bytes ++ rest) m r) = (.only S rest m' r, key)) :
    ReadsOn S k r n m p rest := by
  have hpos := List.length_pos_of_ne_nil (bytes_ne_nil p)
  rw [List.length_append] at hn
  obtain ⟨n', rfl⟩ : ∃ n', n = n' + 1 := ⟨n - 1, by omega⟩
  refine ⟨m', hm', n', by omega, ?_⟩
  rw [pollAll_step h (bytes_append_ne_nil p rest) hstep, hkey]
  rfl

theorem readsOn_f10 (h : Readable S k r) (hm : m ≤ 1) {rest : List UInt8}
    (hn : (Press.f10.bytes ++ rest).length ≤ n) : ReadsOn S k r n m .f10 rest := by
  have hlen : Press.f10.bytes.length = 5 := rfl
  rw [List.length_append, hlen] at hn
  obtain ⟨n', rfl⟩ : ∃ n', n = n' + 3 := ⟨n - 3, by omega⟩
  refine ⟨0, Nat.zero_le _, n', by omega, ?_⟩
  have h₁ : kh_bios_poll_key k {} (.only S (Press.f10.bytes ++ rest) m r) =
      (.only S (0x31 :: 0x7e :: rest) 1 r, .esc) := poll_arrow h hm 0x32
  have h₂ : kh_bios_poll_key k {} (.only S (0x31 :: 0x7e :: rest) 1 r) =
      (.only S (0x7e :: rest) 0 r, .none) := poll_byte h le_rfl (by decide) (by decide)
  have h₃ : kh_bios_poll_key k {} (.only S (0x7e :: rest) 0 r) = (.only S rest 0 r, .none) :=
    poll_byte h (Nat.zero_le _) (by decide) (by decide)
  rw [pollAll_step h (bytes_append_ne_nil _ rest) h₁,
    pollAll_step h (List.cons_ne_nil _ _) h₂, pollAll_step h (List.cons_ne_nil _ _) h₃]
  rfl

theorem pollAll_press (h : Readable S k r) (hm : m ≤ 1) (p : Press) (rest : List UInt8)
    (hn : (p.bytes ++ rest).length ≤ n) : ReadsOn S k r n m p rest := by
  cases p with
  | up | down | left | right => exact readsOn_of_step h le_rfl hn rfl (poll_arrow h hm _)
  | enter lf =>
      apply readsOn_of_step h (Nat.zero_le _) hn rfl
      cases lf <;> exact poll_byte h hm (by decide) (by decide)
  | b upper =>
      apply readsOn_of_step h (Nat.zero_le _) hn rfl
      cases upper <;> exact poll_byte h hm (by decide) (by decide)
  | f10 => exact readsOn_f10 h hm hn

theorem pollAll_encode (h : Readable S k r) (hm : m ≤ 1) (ps : List Press) (esc : Bool)
    (hn : (encode ps esc).length ≤ n) : ∃ m',
      pollAll k n (.only S (encode ps esc) m r) =
        (.only S [] m' r, ps.flatMap Press.readAs ++ if esc then [.esc] else []) := by
  induction ps generalizing m n with
  | nil =>
      cases esc with
      | false => exact ⟨m, pollAll_nil h⟩
      | true =>
          obtain ⟨n', rfl⟩ : ∃ n', n = n' + 1 := ⟨n - 1, by simp [encode] at hn; omega⟩
          refine ⟨1, ?_⟩
          have hstep := pollAll_step (n := n') h (List.cons_ne_nil _ _) (poll_bare_esc h hm)
          rw [pollAll_nil h] at hstep
          exact hstep
  | cons p ps ih =>
      have henc : encode (p :: ps) esc = p.bytes ++ encode ps esc := by
        simp [encode, List.flatMap_cons]
      rw [henc] at hn ⊢
      obtain ⟨m', hm', n', hn', hstep⟩ := pollAll_press h hm p (encode ps esc) hn
      obtain ⟨m'', hrest⟩ := ih hm' hn'
      refine ⟨m'', ?_⟩
      rw [hstep, hrest, List.flatMap_cons, List.append_assoc]

end

/-! ## Which lists come out right -/

def Press.readKey : Press → Key
  | .f10 => .esc
  | p => p.key

theorem readAs_filter (p : Press) : p.readAs.filter (· ≠ .none) = [p.readKey] := by
  cases p <;> rfl

theorem readAs_all_filter (ps : List Press) :
    (ps.flatMap Press.readAs).filter (· ≠ .none) = ps.map Press.readKey := by
  induction ps with
  | nil => rfl
  | cons p ps ih => rw [List.flatMap_cons, List.filter_append, readAs_filter, ih]; rfl

theorem readKey_eq_key_iff (p : Press) : p.readKey = p.key ↔ p ≠ .f10 := by
  cases p <;> simp [Press.readKey, Press.key]

theorem read_eq_keys_iff (ps : List Press) (esc : Bool) :
    (ps.flatMap Press.readAs ++ if esc then [Key.esc] else []).filter (· ≠ Key.none) = keys ps esc ↔
      Press.f10 ∉ ps := by
  have hesc : (if esc then [Key.esc] else []).filter (· ≠ Key.none) = if esc then [.esc] else [] := by
    cases esc <;> rfl
  rw [List.filter_append, readAs_all_filter, hesc, keys, List.append_cancel_right_eq,
    List.map_inj_left]
  simp only [readKey_eq_key_iff]
  constructor
  · intro h hmem
    exact h _ hmem rfl
  · rintro h p hmem rfl
    exact h hmem

end Kworker.Bios
