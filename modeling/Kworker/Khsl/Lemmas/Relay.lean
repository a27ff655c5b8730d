import Kworker.Khsl.Relay

/-!
# What one pass of the khsl client's relay loop does
-/

namespace Kworker.Khsl

open Kworker.Posix

variable {s : Relay} {io : PassIo} {r₀ r₁ : Revents}

theorem forward_running (rd : ReadResult) (wr : WriteResult) (c : Ctl) (l : Leg) :
    (forward rd wr c l).1.running = true ↔ c.running = true ∧ rd.bytes ≠ [] := by
  cases rd with
  | data bs h => simp [forward, ReadResult.bytes, h]
  | eof => simp [forward, ReadResult.bytes]
  | error e => simp [forward, ReadResult.bytes]

theorem forward_reads (rd : ReadResult) (wr : WriteResult) (c : Ctl) (l : Leg) :
    (forward rd wr c l).1.reads = c.reads ++ [rd] := by
  cases rd <;> simp [forward]

theorem pass_running (hs : s.ctl.running = true) :
    (pass s io).ctl.running = true ↔ ¬ PassEnds io := by
  cases h : io.poll with
  | error e => simp [pass, PassEnds, h]
  | ready r₀ r₁ =>
      cases h₀ : r₀.POLLIN <;> cases h₁ : r₁.POLLIN <;>
        simp only [pass, PassEnds, h, h₀, h₁, fromStdin, fromSock]
      · simp [hs]
      · simp [hs, forward_running]
      · simp [hs, forward_running]
      · simp only [hs]
        by_cases hb : io.read₀.bytes = [] <;> simp [forward_running, hb]

theorem pass_left (hs : s.ctl.running = true) :
    (pass s io).ctl.running = false ↔ PassEnds io := by
  rw [← Bool.not_eq_true, pass_running hs, Classical.not_not]

/-- As long as the loop goes on, both halves of the pass are reached. -/
theorem pass_reads (hs : s.ctl.running = true) (h : io.poll = .ready r₀ r₁) (hend : ¬ PassEnds io) :
    (pass s io).ctl.reads = io.polled r₀ r₁ := by
  simp only [PassEnds, h, not_or, not_and] at hend
  cases h₀ : r₀.POLLIN <;> cases h₁ : r₁.POLLIN <;>
    simp only [pass, h, h₀, h₁, fromStdin, fromSock, PassIo.polled]
  · simp
  · simp [hs, forward_reads]
  · simp [forward_reads]
  · have hgo := (forward_running io.read₀ io.write₀ { s.ctl with reads := [] } s.up).mpr
      ⟨hs, hend.1 h₀⟩
    simp [hgo, forward_reads]

theorem passOk_iff (hs : s.ctl.running = true) (h : io.poll = .ready r₀ r₁) :
    (pass s io).PassOk r₀ r₁ ↔ PassEnds io ∨ io.PeersPresent := by
  by_cases hend : PassEnds io
  · exact iff_of_true (.of_left ((pass_left hs).mpr hend)) (Or.inl hend)
  rw [or_iff_right hend, Relay.passOk_iff_of_running ((pass_running hs).mpr hend)]
  · simp only [Relay.PeerGone, pass_reads hs h hend, PassIo.PeersPresent, h, not_or]
  · intro rd hmem _
    rw [pass_reads hs h hend, PassIo.mem_polled] at hmem
    simp only [PassEnds, h, not_or, not_and] at hend
    have hbytes : rd.bytes ≠ [] := by
      rcases hmem with ⟨hin, rfl⟩ | ⟨hin, rfl⟩
      · exact hend.1 hin
      · exact hend.2 hin
    cases rd with
    | data bs hne => exact Or.inl ⟨bs, hne, rfl⟩
    | eof => exact absurd rfl hbytes
    | error e => exact absurd rfl hbytes

theorem processPass_ok_iff {sigpipe : Disposition} (hs : s.ctl.running = true) (h : io.poll = .ready r₀ r₁) :
    (processPass sigpipe s io).PassOk r₀ r₁ ↔ io.kills sigpipe = true ∨ PassEnds io ∨ io.PeersPresent := by
  unfold processPass
  rw [h]
  dsimp only
  by_cases hkills : io.kills sigpipe = true
  · refine iff_of_true ?_ (Or.inl hkills)
    split
    · exact .of_left rfl
    · exact .of_left rfl
  · have hfirst : ¬ sigpipe.kills r₀ io.read₀ io.write₀ = true := by
      intro hfirst
      apply hkills
      simp only [PassIo.kills, h, hfirst, Bool.true_or]
    rw [if_neg hfirst, if_neg hkills, or_iff_right hkills]
    exact passOk_iff hs h

end Kworker.Khsl
