import Kworker.Daemon.Relay
import Kworker.Lib.Script

/-!
# What one pass of the daemon's relay loop does
-/

namespace Kworker.Daemon

open Kworker.Posix Kworker.Lib

/-! ## One half of a pass -/

section Forward

variable (re : Revents) (rd : ReadResult) (wr : WriteResult) (c : Ctl) (l : Leg)

theorem forward_reads :
    (forward re rd wr c l).1.reads = c.reads ++ if re.POLLIN then [rd] else [] := by
  unfold forward
  split
  · cases rd <;> simp <;> split <;> rfl
  · simp

theorem forward_errno : (forward re rd wr c l).1.errno = errnoBetween c.errno re rd wr := by
  unfold forward errnoBetween
  split
  · cases rd with
    | data bs h => cases wr <;> rfl
    | eof => simp only; split <;> rfl
    | error e => simp only; split <;> rfl
  · rfl

theorem forward_running : (forward re rd wr c l).1.running = true ↔
    c.running = true ∧ ¬ (re.POLLIN = true ∧ EndsLoop c.errno rd) := by
  unfold forward
  split
  · rename_i hin
    cases rd with
    | data bs h => simp [EndsLoop]
    | eof => by_cases he : c.errno = EAGAIN <;> simp [EndsLoop, he, hin]
    | error e => by_cases he : e = EAGAIN <;> simp [EndsLoop, he, hin]
  · rename_i hin
    simp [hin]

variable {l}

theorem forward_complete (hl : l.Complete) (hw : wr.fits rd.bytes.length = true) :
    (forward re rd wr c l).2.Complete ↔
      (re.POLLIN = true → ∀ bs h, rd = .data bs h → wr = .wrote bs.length) := by
  unfold forward
  split
  · rename_i hin
    cases rd with
    | data bs h =>
        have := hl.write_iff h hw
        simp only [hin, this, forall_const, ReadResult.data.injEq]
        constructor
        · rintro rfl bs' _ rfl
          rfl
        · intro h'
          exact h' bs h rfl
    | eof => simpa [hin] using hl
    | error e => simpa [hin] using hl
  · rename_i hin
    simpa [hin] using hl

theorem forward_noGap (hl : l.Complete) : (forward re rd wr c l).2.NoGap := by
  unfold forward
  split
  · cases rd with
    | data bs h => exact hl.write_noGap bs wr
    | eof => exact hl.noGap
    | error e => exact hl.noGap
  · exact hl.noGap

end Forward

/-! ## A pass -/

section Pass

variable {s : Relay} {io : PassIo} {r₀ r₁ : Revents}

theorem pass_ready (h : io.poll = .ready r₀ r₁) : pass s io =
    fromPty r₁ io.read₁ io.write₁
      (fromClient r₀ io.read₀ io.write₀ { s with ctl := { s.ctl with reads := [] } }) := by
  simp only [pass, h]

theorem pass_reads (h : io.poll = .ready r₀ r₁) : (pass s io).ctl.reads = io.polled r₀ r₁ := by
  simp only [pass_ready h, fromPty, fromClient, forward_reads, List.nil_append, PassIo.polled]

theorem pass_up (h : io.poll = .ready r₀ r₁) :
    (pass s io).up = (forward r₀ io.read₀ io.write₀ { s.ctl with reads := [] } s.up).2 := by
  simp only [pass_ready h, fromPty, fromClient]

theorem pass_down (h : io.poll = .ready r₀ r₁) : (pass s io).down =
    (forward r₁ io.read₁ io.write₁
      (forward r₀ io.read₀ io.write₀ { s.ctl with reads := [] } s.up).1 s.down).2 := by
  simp only [pass_ready h, fromPty, fromClient]

theorem pass_running (hs : s.ctl.running = true) :
    (pass s io).ctl.running = true ↔ ¬ PassEnds s.ctl.errno io := by
  cases h : io.poll with
  | error e => simp [pass, PassEnds, h]
  | ready r₀ r₁ =>
      simp only [pass_ready h, fromPty, fromClient, forward_running, forward_errno, hs, PassEnds, h,
        true_and, not_or]

theorem pass_left (hs : s.ctl.running = true) :
    (pass s io).ctl.running = false ↔ PassEnds s.ctl.errno io := by
  rw [← Bool.not_eq_true, pass_running hs, Classical.not_not]

/-- A read that does not leave the loop and does not return 0 has found bytes or `EAGAIN`. -/
theorem EndsLoop.cases_of_not {errno : Errno} {rd : ReadResult} (h : ¬ EndsLoop errno rd)
    (heof : rd ≠ .eof) : (∃ bs hne, rd = .data bs hne) ∨ rd = .error EAGAIN := by
  cases rd with
  | data bs hne => exact Or.inl ⟨bs, hne, rfl⟩
  | eof => exact absurd rfl heof
  | error e => exact Or.inr (congrArg _ (Classical.not_not.mp h))

theorem passOk_iff (hs : s.ctl.running = true) (h : io.poll = .ready r₀ r₁) :
    (pass s io).PassOk r₀ r₁ ↔ PassEnds s.ctl.errno io ∨ io.PeersPresent := by
  by_cases hend : PassEnds s.ctl.errno io
  · exact iff_of_true (.of_left ((pass_left hs).mpr hend)) (Or.inl hend)
  rw [or_iff_right hend, Relay.passOk_iff_of_running ((pass_running hs).mpr hend)]
  · simp only [Relay.PeerGone, pass_reads h, PassIo.PeersPresent, h, not_or]
  · intro rd hmem heof
    simp only [PassEnds, h, not_or, not_and] at hend
    rw [pass_reads h, PassIo.mem_polled] at hmem
    rcases hmem with ⟨hin, rfl⟩ | ⟨hin, rfl⟩
    · exact EndsLoop.cases_of_not (hend.1 hin) heof
    · exact EndsLoop.cases_of_not (hend.2 hin) heof

theorem pass_error {e : Errno} (h : io.poll = .error e) :
    (pass s io).up = s.up ∧ (pass s io).down = s.down := by
  simp only [pass, h, and_self]

end Pass

/-! ## The end of the session -/

section Process

variable {sigpipe : Disposition} {s : Relay} {io : PassIo} {r₀ r₁ : Revents}

/-- A process that SIGPIPE ends calls nothing any more. -/
theorem processPass_killed (h : io.kills sigpipe = true) :
    (processPass sigpipe s io).relay.ctl.running = false ∧ (processPass sigpipe s io).calls = [] := by
  unfold processPass
  cases hpoll : io.poll with
  | error e =>
      rw [PassIo.kills, hpoll] at h
      cases h
  | ready r₀ r₁ =>
      dsimp only
      split
      · exact ⟨rfl, rfl⟩
      · exact ⟨rfl, rfl⟩

theorem processPass_spared (h : io.kills sigpipe = false) : processPass sigpipe s io =
    { relay := pass s io, calls := if (pass s io).ctl.running then [] else sessionEnd } := by
  unfold processPass
  cases hpoll : io.poll with
  | error e => rfl
  | ready r₀ r₁ =>
      have hfirst : sigpipe.kills r₀ io.read₀ io.write₀ = false := by
        have hkills := h
        rw [PassIo.kills, hpoll] at hkills
        exact (Bool.or_eq_false_iff.mp hkills).1
      dsimp only
      rw [if_neg (Bool.not_eq_true _ ▸ hfirst), if_neg (Bool.not_eq_true _ ▸ h)]

theorem reaped_killed (h : io.kills sigpipe = true) : ¬ (processPass sigpipe s io).Reaped := by
  obtain ⟨hleft, hcalls⟩ := processPass_killed (s := s) h
  intro hreaped
  have hmem := (hreaped hleft).1
  rw [hcalls] at hmem
  cases hmem

theorem reaped_spared (h : io.kills sigpipe = false) : (processPass sigpipe s io).Reaped := by
  rw [processPass_spared h]
  intro hleft
  have hleft : (pass s io).ctl.running = false := hleft
  dsimp only
  rw [hleft]
  exact ⟨by decide, by decide⟩

theorem processPass_ok_iff (hs : s.ctl.running = true) (h : io.poll = .ready r₀ r₁) :
    ((processPass sigpipe s io).relay.PassOk r₀ r₁ ∧ (processPass sigpipe s io).Reaped) ↔
      io.kills sigpipe = false ∧ (PassEnds s.ctl.errno io ∨ io.PeersPresent) := by
  cases hkills : io.kills sigpipe with
  | true => exact iff_of_false (fun hok => reaped_killed hkills hok.2) (fun hok => nomatch hok.1)
  | false =>
      rw [and_iff_left (reaped_spared hkills), processPass_spared hkills, and_iff_right rfl]
      exact passOk_iff hs h

/-- Over a whole run the shell is left alive only by SIGPIPE. -/
theorem session_reaped_iff (hs : s.ctl.running = true) (ios : List PassIo) :
    (session sigpipe s ios).Reaped ↔
      Everywhere (fun pre io => (session sigpipe s pre).relay.ctl.running = true → io.kills sigpipe = false) ios := by
  induction ios generalizing s with
  | nil =>
      refine iff_of_true (fun hleft => ?_) everywhere_nil
      have hleft : s.ctl.running = false := hleft
      rw [hs] at hleft
      cases hleft
  | cons io ios ih =>
      rw [everywhere_cons]
      have hfirst : (session sigpipe s []).relay.ctl.running = true := hs
      cases hkills : io.kills sigpipe with
      | true =>
          have hleft := (processPass_killed (s := s) hkills).1
          refine iff_of_false ?_ fun h => nomatch h.1 hfirst
          simp only [session, hleft, Bool.false_eq_true, if_false]
          exact reaped_killed hkills
      | false =>
          rw [and_iff_right fun _ => rfl]
          cases hgo : (processPass sigpipe s io).relay.ctl.running with
          | true =>
              simp only [session, hgo, if_true]
              exact ih hgo
          | false =>
              simp only [session, hgo, Bool.false_eq_true, if_false]
              refine iff_of_true (reaped_spared hkills) fun pre _ _ _ hrun => ?_
              cases hrun

/-- A pass that changes nothing but the list of its reads can be repeated for ever. -/
theorem session_stuck (hfix : (processPass sigpipe s io).relay = s) (hs : s.ctl.running = true) (n : Nat) :
    session sigpipe s (List.replicate n io) = { relay := s } := by
  induction n with
  | zero => rfl
  | succ n ih => simp only [List.replicate_succ, session, hfix, hs, if_true, ih]

end Process

end Kworker.Daemon
