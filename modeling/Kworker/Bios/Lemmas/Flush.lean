import Kworker.Bios.Hotkey

/-!
# How the flush of the input ends
-/

namespace Kworker.Bios

variable {k : Bool} {l : Line}

/-! ## One turn -/

theorem pending_eq_zero_iff : l.pending k = 0 ↔ l.uart = [] ∧ usbReadable k l = false := by
  unfold Line.pending
  cases hread : usbReadable k l with
  | false => simp
  | true =>
      have hne : l.usb ≠ [] := by
        intro hnil
        simp [usbReadable, hnil] at hread
      simp [hne]

theorem tstc_eq_pending (board : Bool) : bios_key_tstc k board l = (board || decide (l.pending k ≠ 0)) := by
  rw [bios_key_tstc, Bool.or_assoc]
  congr 1
  simp only [ne_eq, pending_eq_zero_iff, not_and_or, Bool.not_eq_false, Bool.decide_or,
    Bool.decide_eq_true, decide_not]

theorem getc_pending (h : l.pending k ≠ 0) : (bios_key_getc k l).1.pending k + 1 = l.pending k := by
  unfold bios_key_getc
  cases hread : usbReadable k l with
  | true =>
      obtain ⟨c, usb, husb⟩ := List.exists_cons_of_ne_nil (l := l.usb) fun hnil => by
        simp [usbReadable, hnil] at hread
      simp only [usbReadable, Bool.and_eq_true, decide_eq_true_eq] at hread
      cases usb with
      | nil => simp [Line.pending, usbReadable, husb, hread.1]
      | cons d usb => simp [Line.pending, usbReadable, husb, hread.1]; omega
  | false =>
      have huart : l.uart ≠ [] := fun hnil => h (pending_eq_zero_iff.mpr ⟨hnil, hread⟩)
      obtain ⟨c, uart, huart⟩ := List.exists_cons_of_ne_nil huart
      have hread' : usbReadable k { l with uart := uart } = false := hread
      simp [Line.pending, huart, hread, hread']

theorem getc_nothing (h : l.pending k = 0) : (bios_key_getc k l).1 = l := by
  obtain ⟨huart, hread⟩ := pending_eq_zero_iff.mp h
  simp only [bios_key_getc, hread, Bool.false_eq_true, if_false, huart, List.tail_nil]
  rw [← huart]

/-! ## The loop -/

/-- While bytes are pending the board key does not matter. -/
theorem flushTurns_pending (h : l.pending k ≠ 0) (board : Nat → Bool) (fuel : Nat) :
    flushTurns k (fuel + 1) board l =
      (flushTurns k fuel (fun n => board (n + 1)) (bios_key_getc k l).1).map
        fun (turns, last) => (l :: turns, last) := by
  rw [flushTurns, tstc_eq_pending, if_pos (by simp [h])]

theorem flushTurns_nothing (h : l.pending k = 0) (board : Nat → Bool) (fuel : Nat) :
    flushTurns k (fuel + 1) board l =
      if board 0 then (flushTurns k fuel (fun n => board (n + 1)) l).map
        fun (turns, last) => (l :: turns, last)
      else some ([], l) := by
  rw [flushTurns, tstc_eq_pending, getc_nothing h]
  simp [h]

/-- Once nothing is pending the loop ends at the first check that finds the board key released. -/
theorem ends_nothing_iff (h : l.pending k = 0) (board : Nat → Bool) :
    (∃ fuel, (flushTurns k fuel board l).isSome = true) ↔ ∃ n, board n = false := by
  constructor
  · rintro ⟨fuel, hsome⟩
    induction fuel generalizing board with
    | zero => cases hsome
    | succ fuel ih =>
        rw [flushTurns_nothing h] at hsome
        cases hb : board 0 with
        | false => exact ⟨0, hb⟩
        | true =>
            rw [hb, if_pos rfl, Option.isSome_map] at hsome
            obtain ⟨n, hn⟩ := ih (fun n => board (n + 1)) hsome
            exact ⟨n + 1, hn⟩
  · rintro ⟨n, hn⟩
    refine ⟨n + 1, ?_⟩
    induction n generalizing board with
    | zero => rw [flushTurns_nothing h, hn]; rfl
    | succ n ih =>
        rw [flushTurns_nothing h]
        split
        · rw [Option.isSome_map]
          exact ih (fun n => board (n + 1)) hn
        · rfl

/-- The loop ends exactly if some check after the last pending byte finds the board key released. -/
theorem ends_iff (board : Nat → Bool) :
    (∃ fuel, (flushTurns k fuel board l).isSome = true) ↔ ∃ n, l.pending k ≤ n ∧ board n = false := by
  induction hp : l.pending k generalizing l board with
  | zero => simpa using ends_nothing_iff hp board
  | succ p ih =>
      have hne : l.pending k ≠ 0 := by omega
      have hstep := getc_pending hne
      have hrest := ih (l := (bios_key_getc k l).1) (fun n => board (n + 1)) (by omega)
      constructor
      · rintro ⟨fuel, hsome⟩
        cases fuel with
        | zero => cases hsome
        | succ fuel =>
            rw [flushTurns_pending hne, Option.isSome_map] at hsome
            obtain ⟨n, hn, hb⟩ := hrest.mp ⟨fuel, hsome⟩
            exact ⟨n + 1, by omega, hb⟩
      · rintro ⟨n, hn, hb⟩
        obtain ⟨n', rfl⟩ : ∃ n', n = n' + 1 := ⟨n - 1, by omega⟩
        obtain ⟨fuel, hsome⟩ := hrest.mpr ⟨n', by omega, hb⟩
        refine ⟨fuel + 1, ?_⟩
        rw [flushTurns_pending hne, Option.isSome_map]
        exact hsome

/-! ## What its turns read -/

/-- The check after the last pending byte decides. -/
theorem flushed_iff (board : Nat → Bool) :
    (∃ fuel turns last, flushTurns k fuel board l = some (turns, last) ∧
        Flushed k (l.pending k) turns last) ↔
      board (l.pending k) = false := by
  induction hp : l.pending k generalizing l board with
  | zero =>
      constructor
      · rintro ⟨fuel, turns, last, hrun, hlen, _, _⟩
        cases fuel with
        | zero => cases hrun
        | succ fuel =>
            rw [flushTurns_nothing hp] at hrun
            split at hrun
            · -- a turn with nothing to read
              obtain ⟨r, _, hr⟩ := Option.map_eq_some_iff.mp hrun
              cases hr
              cases hlen
            · rename_i hb
              simpa using hb
      · intro hb
        refine ⟨1, [], l, ?_, rfl, hp, by simp⟩
        rw [flushTurns_nothing hp, hb]
        rfl
  | succ p ih =>
      have hne : l.pending k ≠ 0 := by omega
      have hstep := getc_pending hne
      have hrest := ih (l := (bios_key_getc k l).1) (fun n => board (n + 1)) (by omega)
      rw [← hrest]
      constructor
      · rintro ⟨fuel, turns, last, hrun, hlen, hlast, hturns⟩
        cases fuel with
        | zero => cases hrun
        | succ fuel =>
            rw [flushTurns_pending hne] at hrun
            obtain ⟨⟨turns', last'⟩, hrun, hr⟩ := Option.map_eq_some_iff.mp hrun
            cases hr
            refine ⟨fuel, turns', last, hrun, ?_, hlast, fun t ht => hturns t (List.mem_cons_of_mem _ ht)⟩
            rw [List.length_cons] at hlen
            omega
      · rintro ⟨fuel, turns, last, hrun, hlen, hlast, hturns⟩
        refine ⟨fuel + 1, l :: turns, last, ?_, ?_, hlast, ?_⟩
        · rw [flushTurns_pending hne, hrun]
          rfl
        · rw [List.length_cons]
          omega
        · intro t ht
          rcases List.mem_cons.mp ht with rfl | ht
          · exact hstep
          · exact hturns t ht

end Kworker.Bios
