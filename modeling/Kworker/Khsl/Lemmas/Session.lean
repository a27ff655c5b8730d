import Kworker.Daemon.Lemmas.Relay
import Kworker.Khsl.Lemmas.Relay
import Kworker.Khsl.Session

/-!
# What an interactive session keeps
-/

namespace Kworker.Khsl

open Kworker.Posix Kworker.Lib Kworker.Daemon

/-! ## One direction of a loop -/

/-- From `l` to `l'` a buffer is read and a first part of it passed on, which is all of it exactly if
`w`. -/
def Moves (w : Prop) (l l' : Leg) : Prop :=
  ∃ bs n, n ≤ bs.length ∧ l' = ⟨l.got ++ bs, l.accepted ++ bs.take n⟩ ∧ (n = bs.length ↔ w)

section Moves

variable {w v : Prop} {l l' : Leg}

theorem moves_refl (l : Leg) (hw : w) : Moves w l l := by
  refine ⟨[], 0, le_refl 0, ?_, iff_of_true rfl hw⟩
  simp

theorem moves_data (l : Leg) {bs : List UInt8} (hne : bs ≠ []) {wr : WriteResult}
    (hfits : wr.fits bs.length = true) :
    Moves (TakesAll (.data bs hne) wr) l ((l.read bs).write bs wr) := by
  have htakes : TakesAll (.data bs hne) wr ↔ wr = .wrote bs.length := by
    constructor
    · intro h
      exact h bs hne rfl
    · rintro rfl bs' _ h
      cases h
      rfl
  cases wr with
  | wrote n =>
      refine ⟨bs, n, by simpa [WriteResult.fits] using hfits, rfl, ?_⟩
      rw [htakes, WriteResult.wrote.injEq]
  | error e =>
      refine ⟨bs, 0, Nat.zero_le _, by simp [Leg.read, Leg.write], ?_⟩
      rw [htakes]
      have hlen : bs.length ≠ 0 := mt List.length_eq_zero_iff.mp hne
      simp [hlen.symm]

theorem Moves.congr (h : Moves w l l') (hiff : w ↔ v) : Moves v l l' := by
  obtain ⟨bs, n, hn, hl, hw⟩ := h
  exact ⟨bs, n, hn, hl, hw.trans hiff⟩

theorem Moves.got_eq (h : Moves w l l') : l'.got = l.got ++ newlyRead l l' := by
  obtain ⟨bs, n, _, rfl, _⟩ := h
  simp [newlyRead]

theorem Moves.accepted_eq (h : Moves w l l') : l'.accepted = l.accepted ++ newlyAccepted l l' := by
  obtain ⟨bs, n, _, rfl, _⟩ := h
  simp [newlyAccepted]

theorem Moves.complete_iff (h : Moves w l l') (hl : l.Complete) : l'.Complete ↔ w := by
  obtain ⟨bs, n, hn, rfl, hw⟩ := h
  have hl : l.accepted = l.got := hl
  rw [← hw, Leg.Complete, hl, List.append_cancel_left_eq, List.take_eq_self_iff]
  omega

/-- What is not passed on is left out, and nothing else. -/
theorem Moves.sublist (h : Moves w l l') (hl : l.accepted.Sublist l.got) : l'.accepted.Sublist l'.got := by
  obtain ⟨bs, n, _, rfl, _⟩ := h
  exact hl.append (List.take_sublist n bs)

end Moves

/-! ## A pass of each loop -/

section Pass

variable {rd : ReadResult} {wr : WriteResult}

theorem daemon_forward_moves (re : Revents) (c : Ctl) (l : Leg) (hfits : wr.fits rd.bytes.length = true) :
    Moves (re.POLLIN = true → TakesAll rd wr) l (Daemon.forward re rd wr c l).2 := by
  unfold Daemon.forward
  split
  · rename_i hin
    simp only [hin, true_implies]
    cases rd with
    | data bs hne => exact moves_data l hne hfits
    | eof => exact moves_refl l fun _ _ h => nomatch h
    | error e => exact moves_refl l fun _ _ h => nomatch h
  · rename_i hin
    exact moves_refl l fun h => absurd h hin

theorem forward_moves (c : Ctl) (l : Leg) (hfits : wr.fits rd.bytes.length = true) :
    Moves (TakesAll rd wr) l (forward rd wr c l).2 := by
  cases rd with
  | data bs hne => exact moves_data l hne hfits
  | eof => exact moves_refl l fun _ _ h => nomatch h
  | error e => exact moves_refl l fun _ _ h => nomatch h

/-- What one pass does in each direction, and that its writes are complete when both directions are. -/
theorem daemon_pass_moves (s : Relay) {io : PassIo} (h : io.allowed bufferSize = true) :
    ∃ w v, Moves w s.up (Daemon.pass s io).up ∧ Moves v s.down (Daemon.pass s io).down ∧
      (w ∧ v ↔ (SessionAct.daemon io).Whole) := by
  simp only [PassIo.allowed, Bool.and_eq_true] at h
  obtain ⟨⟨_, hw₀⟩, hw₁⟩ := h
  cases hp : io.poll with
  | error e =>
      obtain ⟨hup, hdown⟩ := pass_error (s := s) hp
      rw [hup, hdown]
      refine ⟨True, True, moves_refl _ trivial, moves_refl _ trivial, ?_⟩
      simp only [SessionAct.Whole, PassIo.WritesComplete, hp, and_self]
  | ready r₀ r₁ =>
      rw [pass_up hp, pass_down hp]
      refine ⟨_, _, daemon_forward_moves r₀ _ _ hw₀, daemon_forward_moves r₁ _ _ hw₁, ?_⟩
      simp only [SessionAct.Whole, PassIo.WritesComplete, hp, TakesAll]

/-- The second half is reached unless there is nothing to read in the first. -/
theorem pass_legs {s : Relay} {io : PassIo} {r₀ r₁ : Revents} (hs : s.ctl.running = true)
    (h : io.poll = .ready r₀ r₁) :
    (pass s io).up = (if r₀.POLLIN = true then
      (forward io.read₀ io.write₀ { s.ctl with reads := [] } s.up).2 else s.up) ∧
    ∃ c, (pass s io).down = if r₁.POLLIN = true ∧ (r₀.POLLIN = true → io.read₀.bytes ≠ []) then
      (forward io.read₁ io.write₁ c s.down).2 else s.down := by
  simp only [pass, h]
  by_cases h₀ : r₀.POLLIN = true
  · have hgo := forward_running io.read₀ io.write₀ { s.ctl with reads := [] } s.up
    by_cases h₁ : io.read₀.bytes ≠ [] ∧ r₁.POLLIN = true
    · rw [if_pos h₀, if_pos h₀, if_pos ⟨hgo.mpr ⟨hs, h₁.1⟩, h₁.2⟩]
      exact ⟨rfl, _, (if_pos ⟨h₁.2, fun _ => h₁.1⟩).symm⟩
    · have hstop : ¬ ((fromStdin io.read₀ io.write₀ { s with ctl := { s.ctl with reads := [] } }).ctl.running
          = true ∧ r₁.POLLIN = true) := fun hc => h₁ ⟨(hgo.mp hc.1).2, hc.2⟩
      rw [if_pos h₀, if_pos h₀, if_neg hstop]
      exact ⟨rfl, s.ctl, (if_neg fun hc => h₁ ⟨hc.2 h₀, hc.1⟩).symm⟩
  · rw [if_neg h₀, if_neg h₀]
    by_cases h₁ : r₁.POLLIN = true
    · rw [if_pos ⟨hs, h₁⟩]
      exact ⟨rfl, _, (if_pos ⟨h₁, fun hc => absurd hc h₀⟩).symm⟩
    · rw [if_neg fun hc => h₁ hc.2]
      exact ⟨rfl, s.ctl, (if_neg fun hc => h₁ hc.1).symm⟩

theorem pass_moves {s : Relay} {io : PassIo} (hs : s.ctl.running = true) (h : io.allowed bufferSize = true) :
    ∃ w v, Moves w s.up (pass s io).up ∧ Moves v s.down (pass s io).down ∧
      (w ∧ v ↔ (SessionAct.client io).Whole) := by
  simp only [PassIo.allowed, Bool.and_eq_true] at h
  obtain ⟨⟨_, hw₀⟩, hw₁⟩ := h
  cases hp : io.poll with
  | error e =>
      simp only [pass, hp, SessionAct.Whole]
      exact ⟨True, True, moves_refl _ trivial, moves_refl _ trivial, by simp only [and_self]⟩
  | ready r₀ r₁ =>
      obtain ⟨hup, c, hdown⟩ := pass_legs hs hp
      refine ⟨r₀.POLLIN = true → TakesAll io.read₀ io.write₀,
        r₁.POLLIN = true → (r₀.POLLIN = true → io.read₀.bytes ≠ []) → TakesAll io.read₁ io.write₁,
        ?_, ?_, by simp only [SessionAct.Whole, hp]⟩
      · rw [hup]
        split
        · rename_i h₀
          exact (forward_moves _ _ hw₀).congr (by simp only [h₀, true_implies])
        · rename_i h₀
          exact moves_refl _ fun h => absurd h h₀
      · rw [hdown]
        split
        · rename_i h₁
          exact (forward_moves _ _ hw₁).congr ⟨fun ht _ _ => ht, fun ht => ht h₁.1 h₁.2⟩
        · rename_i h₁
          exact moves_refl _ fun hin hgo => absurd ⟨hin, hgo⟩ h₁

end Pass

/-! ## The size of the window comes out as it was put in -/

/-- The low byte and the high byte make up the number. -/
theorem littleEndian_or (w : UInt16) : w % (256 : UInt16) ||| (w >>> 8 % 256) <<< 8 = w := by
  apply UInt16.toNat_inj.mp
  have hlt := w.toNat_lt
  have hadd := Nat.shiftLeft_add_eq_or_of_lt (i := 8) (b := w.toNat % 256) (by omega) (w.toNat / 256)
  have hhigh : (w.toNat / 256 % 256) <<< 8 % 65536 = (w.toNat / 256) <<< 8 := by
    simp only [Nat.shiftLeft_eq]
    omega
  have hlow : (w.toNat / 256) <<< 8 + w.toNat % 256 = w.toNat := by
    simp only [Nat.shiftLeft_eq]
    omega
  calc (w % (256 : UInt16) ||| (w >>> 8 % 256) <<< 8).toNat
      = w.toNat % 256 ||| (w.toNat >>> 8 % 256) <<< 8 % 65536 := by
          simp only [UInt16.toNat_or, UInt16.toNat_shiftLeft, UInt16.toNat_mod, UInt16.toNat_shiftRight]
          rfl
    _ = w.toNat := by rw [Nat.shiftRight_eq_div_pow, hhigh, Nat.or_comm, ← hadd, hlow]

theorem winsizeToBytes_length (ws : Winsize) : (winsizeToBytes ws).length = winsizeBytes := rfl

theorem readWinsize_winsizeToBytes (stack : List UInt8) (ws : Winsize) :
    readWinsize stack (winsizeToBytes ws) = ws := by
  simp only [readWinsize, winsizeToBytes_length, ne_eq, not_true, if_false]
  cases ws
  simp [Winsize.ofBytes, Winsize.field, winsizeToBytes, littleEndian, littleEndian_or]

/-! ## A step -/

section Step

variable {stack : List UInt8} {ws : Winsize} {s s' : Session} {a : SessionAct}

/-- What a step can do: a pass of the client, a pass of the daemon, or the read of the size. -/
theorem session_step (h : (session stack).step s a = some s') :
    (∃ client w v, Moves w s.client.up client.up ∧ Moves v s.client.down client.down ∧
      (w ∧ v ↔ a.Whole) ∧ newlyRead s.client.down client.down <+: s.down.inFlight ∧
      s' = s.clientPassed client) ∨
    (∃ relay w v, Moves w s.conn.relay.up relay.up ∧ Moves v s.conn.relay.down relay.down ∧
      (w ∧ v ↔ a.Whole) ∧ s.conn.header ≠ none ∧ newlyRead s.conn.relay.up relay.up <+: s.up.inFlight ∧
      s' = s.daemonPassed { s.conn with relay }) ∨
    ∃ n, a = .header n ∧ s.conn.header = none ∧ n ≤ winsizeBytes ∧ n ≤ s.up.inFlight.length ∧
      s' = { s with
        up := s.up.take n
        conn := s.conn.readHeader stack (s.up.inFlight.take n) } := by
  cases a with
  | client io =>
      simp only [session, sessionStep, Option.ite_none_right_eq_some, Option.some.injEq] at h
      obtain ⟨⟨hs, hio, hread⟩, rfl⟩ := h
      obtain ⟨w, v, hup, hdown, hwhole⟩ := pass_moves hs hio
      exact Or.inl ⟨_, w, v, hup, hdown, hwhole, hread, rfl⟩
  | daemon io =>
      simp only [session, sessionStep, Option.ite_none_right_eq_some, Option.some.injEq] at h
      obtain ⟨⟨hheader, _, hio, hread⟩, rfl⟩ := h
      obtain ⟨w, v, hup, hdown, hwhole⟩ := daemon_pass_moves s.conn.relay hio
      exact Or.inr (Or.inl ⟨_, w, v, hup, hdown, hwhole, hheader, hread, rfl⟩)
  | header n =>
      simp only [session, sessionStep, Option.ite_none_right_eq_some, Option.some.injEq] at h
      obtain ⟨⟨hheader, _, hn⟩, rfl⟩ := h
      obtain ⟨hn, hlen⟩ := Nat.le_min.mp hn
      exact Or.inr (Or.inr ⟨n, rfl, hheader, hn, hlen, rfl⟩)

/-! ## Each end has what the channel has -/

/-- What is sent on a channel is what its writer has passed on, and what is taken from it what its reader
has read. -/
structure Session.Wired (ws : Winsize) (s : Session) : Prop where
  upSent : s.up.sent = winsizeToBytes ws ++ s.client.up.accepted
  upTaken : s.up.taken = s.conn.header.getD [] ++ s.conn.relay.up.got
  downSent : s.down.sent = s.conn.relay.down.accepted
  downTaken : s.down.taken = s.client.down.got
  unopened : s.conn.header = none → s.conn.ws = none ∧ s.conn.relay.up.got = []

theorem wired_start (ws : Winsize) : (Session.start ws).Wired ws where
  upSent := by simp [Session.start]
  upTaken := rfl
  downSent := rfl
  downTaken := rfl
  unopened := fun _ => ⟨rfl, rfl⟩

theorem wired_step (hs : s.Wired ws) (h : (session stack).step s a = some s') : s'.Wired ws := by
  rcases session_step h with ⟨client, w, v, hup, hdown, _, hread, rfl⟩ |
    ⟨relay, w, v, hup, hdown, _, hheader, hread, rfl⟩ | ⟨n, rfl, hheader, hn, hlen, rfl⟩
  · exact {
      upSent := by
        show s.up.sent ++ _ = winsizeToBytes ws ++ client.up.accepted
        rw [hs.upSent, hup.accepted_eq, List.append_assoc]
      upTaken := hs.upTaken
      downSent := hs.downSent
      downTaken := by
        show _ = client.down.got
        rw [hdown.got_eq, ← hs.downTaken]
        exact Channel.take_taken hread
      unopened := hs.unopened }
  · exact {
      upSent := hs.upSent
      upTaken := by
        show _ = s.conn.header.getD [] ++ relay.up.got
        rw [hup.got_eq, ← List.append_assoc, ← hs.upTaken]
        exact Channel.take_taken hread
      downSent := by
        show s.down.sent ++ _ = relay.down.accepted
        rw [hs.downSent, hdown.accepted_eq]
      downTaken := hs.downTaken
      unopened := fun hnone => absurd hnone hheader }
  · obtain ⟨_, hgot⟩ := hs.unopened hheader
    have htaken : s.up.taken = [] := by rw [hs.upTaken, hheader, hgot]; rfl
    exact {
      upSent := hs.upSent
      upTaken := by
        rw [Channel.take_taken_eq, htaken]
        show _ = s.up.inFlight.take n ++ s.conn.relay.up.got
        rw [hgot, List.nil_append, List.append_nil]
      downSent := hs.downSent
      downTaken := hs.downTaken
      unopened := fun hnone => nomatch hnone }

/-! ## Each direction of each loop -/

structure Session.Legs (P : Leg → Prop) (s : Session) : Prop where
  clientUp : P s.client.up
  clientDown : P s.client.down
  connUp : P s.conn.relay.up
  connDown : P s.conn.relay.down

/-- What has come out of a direction is what has gone in with parts left out. -/
def Thinned (l : Leg) : Prop := l.accepted.Sublist l.got

theorem thinned_step (hs : s.Legs Thinned) (h : (session stack).step s a = some s') : s'.Legs Thinned := by
  rcases session_step h with ⟨client, w, v, hup, hdown, _, _, rfl⟩ |
    ⟨relay, w, v, hup, hdown, _, _, _, rfl⟩ | ⟨n, rfl, _, _, _, rfl⟩
  · exact { hs with clientUp := hup.sublist hs.clientUp, clientDown := hdown.sublist hs.clientDown }
  · exact { hs with connUp := hup.sublist hs.connUp, connDown := hdown.sublist hs.connDown }
  · exact { hs with }

theorem complete_step_iff (hs : s.Legs Leg.Complete) (h : (session stack).step s a = some s')
    (hpass : ∀ n, a ≠ .header n) : s'.Legs Leg.Complete ↔ a.Whole := by
  rcases session_step h with ⟨client, w, v, hup, hdown, hwhole, _, rfl⟩ |
    ⟨relay, w, v, hup, hdown, hwhole, _, _, rfl⟩ | ⟨n, rfl, _⟩
  · rw [← hwhole, ← hup.complete_iff hs.clientUp, ← hdown.complete_iff hs.clientDown]
    exact ⟨fun h => ⟨h.clientUp, h.clientDown⟩, fun h => { hs with clientUp := h.1, clientDown := h.2 }⟩
  · rw [← hwhole, ← hup.complete_iff hs.connUp, ← hdown.complete_iff hs.connDown]
    exact ⟨fun h => ⟨h.connUp, h.connDown⟩, fun h => { hs with connUp := h.1, connDown := h.2 }⟩
  · exact absurd rfl (hpass n)

/-! ## From one end to the other -/

section Exact

/-- A direction that goes through two legs, with `mid` between them: all that goes in at `l` has come out
at `l'` or is in between exactly if neither leg has left anything out. -/
theorem through_iff {l l' : Leg} {mid : List UInt8} (hl : Thinned l) (hl' : Thinned l')
    (hmid : l.accepted = l'.got ++ mid) :
    l.got = l'.accepted ++ mid ↔ l.Complete ∧ l'.Complete := by
  constructor
  · intro h
    have hlen := congrArg List.length h
    have hlen' := congrArg List.length hmid
    have hle := hl.length_le
    have hle' := hl'.length_le
    simp only [List.length_append] at hlen hlen'
    exact ⟨hl.eq_of_length (by omega), hl'.eq_of_length (by omega)⟩
  · rintro ⟨hc, hc'⟩
    have hc : l.accepted = l.got := hc
    have hc' : l'.accepted = l'.got := hc'
    rw [← hc, hmid, hc']

/-- The size has been read as a whole, or not at all. -/
def Session.HeaderRead (ws : Winsize) (s : Session) : Prop :=
  ∀ got, s.conn.header = some got → got = winsizeToBytes ws ∧ s.conn.ws = some ws

theorem Session.Wired.inFlight_eq (hs : s.Wired ws) (hnone : s.conn.header = none) :
    s.up.inFlight = winsizeToBytes ws ++ s.client.up.accepted := by
  have hsplit := s.up.split
  rw [hs.upSent, hs.upTaken, hnone, (hs.unopened hnone).2] at hsplit
  exact hsplit.symm

theorem Session.Wired.up_eq (hs : s.Wired ws) (hheader : s.HeaderRead ws) :
    s.client.up.accepted = s.conn.relay.up.got ++ s.unread := by
  cases hh : s.conn.header with
  | none =>
      rw [Session.unread, hh, (hs.unopened hh).2, hs.inFlight_eq hh]
      exact (List.drop_left' (winsizeToBytes_length ws)).symm
  | some got =>
      obtain ⟨rfl, _⟩ := hheader got hh
      have hsplit := s.up.split
      rw [hs.upSent, hs.upTaken, hh, Option.getD_some, List.append_assoc] at hsplit
      rw [Session.unread, hh]
      exact List.append_cancel_left hsplit

theorem Session.Wired.down_eq (hs : s.Wired ws) :
    s.conn.relay.down.accepted = s.client.down.got ++ s.down.inFlight := by
  rw [← hs.downSent, s.down.split, hs.downTaken]

theorem exact_iff_complete (hs : s.Wired ws) (hlegs : s.Legs Thinned) (hheader : s.HeaderRead ws) :
    s.Exact ws ↔ s.Legs Leg.Complete := by
  have hup := through_iff hlegs.clientUp hlegs.connUp (hs.up_eq hheader)
  have hdown := through_iff hlegs.connDown hlegs.clientDown hs.down_eq
  constructor
  · intro h
    obtain ⟨hcu, hdu⟩ := hup.mp h.up
    obtain ⟨hdd, hcd⟩ := hdown.mp h.down
    exact ⟨hcu, hcd, hdu, hdd⟩
  · intro h
    refine ⟨fun ws' hws => ?_, hup.mpr ⟨h.clientUp, h.connUp⟩, hdown.mpr ⟨h.connDown, h.clientDown⟩⟩
    cases hh : s.conn.header with
    | none =>
        rw [(hs.unopened hh).1] at hws
        cases hws
    | some got =>
        rw [(hheader got hh).2] at hws
        exact (Option.some.inj hws).symm

theorem headerRead_pass (hs : s.HeaderRead ws) (h : (session stack).step s a = some s')
    (hpass : ∀ n, a ≠ .header n) : s'.HeaderRead ws := by
  rcases session_step h with ⟨_, _, _, _, _, _, _, rfl⟩ | ⟨_, _, _, _, _, _, _, _, rfl⟩ | ⟨n, rfl, _⟩
  · exact hs
  · exact hs
  · exact absurd rfl (hpass n)

theorem Session.Legs.thinned (h : s.Legs Leg.Complete) : s.Legs Thinned := by
  have hthin : ∀ l : Leg, l.Complete → Thinned l := by
    intro l hl
    have hl : l.accepted = l.got := hl
    rw [Thinned, hl]
  exact ⟨hthin _ h.clientUp, hthin _ h.clientDown, hthin _ h.connUp, hthin _ h.connDown⟩

/-- The read of the size takes all of it, or leaves its last bytes to be taken for what was typed. -/
theorem header_step_iff {n : Nat} (hs : s.Wired ws) (hlegs : s.Legs Leg.Complete)
    (h : (session stack).step s (.header n) = some s') :
    (s'.Exact ws ↔ n = winsizeBytes) ∧ (n = winsizeBytes → s'.HeaderRead ws) := by
  have hs' := wired_step hs h
  simp only [session, sessionStep, Option.ite_none_right_eq_some, Option.some.injEq] at h
  obtain ⟨⟨hnone, _, hn⟩, rfl⟩ := h
  have hflight := hs.inFlight_eq hnone
  have hgot := (hs.unopened hnone).2
  have hup : s.client.up.accepted = s.client.up.got := hlegs.clientUp
  have hconn : s.conn.relay.up.accepted = s.conn.relay.up.got := hlegs.connUp
  have hheader : n = winsizeBytes → Session.HeaderRead ws
      { s with up := s.up.take n, conn := s.conn.readHeader stack (s.up.inFlight.take n) } := by
    rintro rfl got hgot
    cases hgot
    have htake : s.up.inFlight.take winsizeBytes = winsizeToBytes ws := by
      rw [hflight]
      exact List.take_left' (winsizeToBytes_length ws)
    rw [htake]
    exact ⟨rfl, congrArg some (readWinsize_winsizeToBytes stack ws)⟩
  refine ⟨⟨fun hexact => ?_, fun hn => ?_⟩, hheader⟩
  · -- a shorter read moves the boundary between the size and what was typed
    have hlen := congrArg List.length hexact.up
    simp only [Session.unread, Conn.readHeader, Channel.take_inFlight, hconn, hgot, hflight, hup,
      List.nil_append, List.length_drop, List.length_append, winsizeToBytes_length] at hlen
    omega
  · have hlegs' : Session.Legs Leg.Complete
        { s with up := s.up.take n, conn := s.conn.readHeader stack (s.up.inFlight.take n) } := { hlegs with }
    exact (exact_iff_complete hs' hlegs'.thinned (hheader hn)).mpr hlegs'

/-! ## What holds as long as nothing is lost -/

structure Session.Kept (ws : Winsize) (s : Session) : Prop where
  wired : s.Wired ws
  legs : s.Legs Leg.Complete
  header : s.HeaderRead ws

theorem kept_start (ws : Winsize) : (Session.start ws).Kept ws :=
  ⟨wired_start ws, ⟨rfl, rfl, rfl, rfl⟩, fun _ h => nomatch h⟩

theorem Session.Kept.exact (h : s.Kept ws) : s.Exact ws :=
  (exact_iff_complete h.wired h.legs.thinned h.header).mpr h.legs

theorem exact_step_iff (hs : s.Kept ws) (h : (session stack).step s a = some s') :
    (s'.Exact ws ↔ a.Whole) ∧ (s'.Exact ws → s'.Kept ws) := by
  have hw := wired_step hs.wired h
  have hthin := thinned_step hs.legs.thinned h
  by_cases hpass : ∀ n, a ≠ .header n
  · have hheader := headerRead_pass hs.header h hpass
    have hiff := exact_iff_complete hw hthin hheader
    refine ⟨hiff.trans (complete_step_iff hs.legs h hpass), fun hexact => ?_⟩
    exact ⟨hw, hiff.mp hexact, hheader⟩
  · simp only [not_forall, not_not] at hpass
    obtain ⟨n, rfl⟩ := hpass
    obtain ⟨hiff, hheader⟩ := header_step_iff hs.wired hs.legs h
    refine ⟨hiff, fun hexact => ?_⟩
    have hread := hheader (hiff.mp hexact)
    exact ⟨hw, (exact_iff_complete hw hthin hread).mp hexact, hread⟩

theorem inOrder_of_wired (hs : s.Wired ws) (hthin : s.Legs Thinned) : s.InOrder ws := by
  constructor
  · have htaken : s.conn.relay.up.got.Sublist s.up.taken := by
      rw [hs.upTaken]
      exact List.sublist_append_right _ _
    have hsent : s.up.sent.Sublist (winsizeToBytes ws ++ s.client.up.got) := by
      rw [hs.upSent]
      exact hthin.clientUp.append_left _
    exact hthin.connUp.trans (htaken.trans (s.up.taken_prefix.sublist.trans hsent))
  · have hgot : s.client.down.got.Sublist s.conn.relay.down.accepted := by
      rw [← hs.downTaken, ← hs.downSent]
      exact s.down.taken_prefix.sublist
    exact hthin.clientDown.trans (hgot.trans hthin.connDown)

end Exact

/-! ## What is on its way can be delivered -/

section Deliver

/-- The pass of the daemon that reads what the client has sent, and of the client that reads what the daemon
has sent. Their writes take everything. -/
def daemonReads (bs : List UInt8) (hne : bs ≠ []) : PassIo where
  poll := .ready { POLLIN := true } {}
  read₀ := .data bs hne
  write₀ := .wrote bs.length

def clientReads (bs : List UInt8) (hne : bs ≠ []) : PassIo where
  poll := .ready {} { POLLIN := true }
  read₁ := .data bs hne
  write₁ := .wrote bs.length

/-- Both loops go on, `typed` has been read from standard input and `shown` from the PTY. -/
structure Session.Live (ws : Winsize) (typed shown : List UInt8) (s : Session) : Prop where
  kept : s.Kept ws
  client : s.client.ctl.running = true
  daemon : s.conn.relay.ctl.running = true
  typed : s.client.up.got = typed
  shown : s.conn.relay.down.got = shown

/-- What is on its way, and the size as long as it has not been read. -/
def Session.pending (s : Session) : Nat :=
  (if s.conn.header = none then 1 else 0) + s.up.inFlight.length + s.down.inFlight.length

variable {typed shown : List UInt8}

theorem live_header (stack : List UInt8) (hs : s.Live ws typed shown) (hnone : s.conn.header = none) :
    ∃ s', (session stack).step s (.header winsizeBytes) = some s' ∧ s'.Live ws typed shown ∧
      s'.pending < s.pending := by
  have hlen : winsizeBytes ≤ s.up.inFlight.length := by
    rw [hs.kept.wired.inFlight_eq hnone, List.length_append, winsizeToBytes_length]
    exact Nat.le_add_right _ _
  have hstep : (session stack).step s (.header winsizeBytes) = some { s with
      up := s.up.take winsizeBytes
      conn := s.conn.readHeader stack (s.up.inFlight.take winsizeBytes) } :=
    if_pos ⟨hnone, by decide, Nat.le_min.mpr ⟨le_refl _, hlen⟩⟩
  obtain ⟨hiff, hkept⟩ := exact_step_iff hs.kept hstep
  refine ⟨_, hstep, ⟨hkept (hiff.mpr rfl), hs.client, hs.daemon, hs.typed, hs.shown⟩, ?_⟩
  simp only [Session.pending, Conn.readHeader, hnone, Channel.take_inFlight, List.length_drop, if_true,
    reduceCtorEq, if_false]
  omega

theorem pass_daemonReads (r : Relay) {bs : List UInt8} (hne : bs ≠ []) :
    Daemon.pass r (daemonReads bs hne) =
      { r with
        ctl := { r.ctl with reads := [.data bs hne] }
        up := ⟨r.up.got ++ bs, r.up.accepted ++ bs⟩ } := by
  simp [Daemon.pass, daemonReads, fromClient, fromPty, Daemon.forward, Ctl.wrote, Leg.read, Leg.write]

theorem pass_clientReads (r : Relay) {bs : List UInt8} (hne : bs ≠ []) (hr : r.ctl.running = true) :
    pass r (clientReads bs hne) =
      { r with
        ctl := { r.ctl with reads := [.data bs hne] }
        down := ⟨r.down.got ++ bs, r.down.accepted ++ bs⟩ } := by
  simp [pass, clientReads, fromSock, forward, Ctl.wrote, Leg.read, Leg.write, hr]

theorem daemonReads_allowed {bs : List UInt8} (hne : bs ≠ []) (hlen : bs.length ≤ bufferSize) :
    (daemonReads bs hne).allowed bufferSize = true := by
  simp [PassIo.allowed, daemonReads, PollResult.positive, Revents.any, ReadResult.fits, WriteResult.fits,
    ReadResult.bytes, hlen]

theorem clientReads_allowed {bs : List UInt8} (hne : bs ≠ []) (hlen : bs.length ≤ bufferSize) :
    (clientReads bs hne).allowed bufferSize = true := by
  simp [PassIo.allowed, clientReads, PollResult.positive, Revents.any, ReadResult.fits, WriteResult.fits,
    ReadResult.bytes, hlen]

/-- A buffer that is not empty, of what is on its way. -/
theorem take_ne_nil {c : Channel UInt8} (h : c.inFlight ≠ []) : c.inFlight.take bufferSize ≠ [] := by
  intro hnil
  rcases List.take_eq_nil_iff.mp hnil with hzero | hempty
  · exact absurd hzero (by decide)
  · exact h hempty

theorem live_daemon (stack : List UInt8) (hs : s.Live ws typed shown) (hheader : s.conn.header ≠ none)
    (hne : s.up.inFlight.take bufferSize ≠ []) :
    ∃ s', (session stack).step s (.daemon (daemonReads _ hne)) = some s' ∧ s'.Live ws typed shown ∧
      s'.pending < s.pending := by
  have hpass := pass_daemonReads s.conn.relay hne
  have hread : newlyRead s.conn.relay.up (Daemon.pass s.conn.relay (daemonReads _ hne)).up =
      s.up.inFlight.take bufferSize := by
    rw [hpass, newlyRead, List.drop_left]
  have hallowed := daemonReads_allowed hne (List.length_take_le _ _)
  have hwhole : (SessionAct.daemon (daemonReads _ hne)).Whole := by
    refine ⟨fun _ bs h heq => ?_, fun h => absurd h (by decide)⟩
    cases heq
    rfl
  have hfound : newlyRead s.conn.relay.up (s.conn.relayPass (daemonReads _ hne)).relay.up <+: s.up.inFlight := by
    rw [Conn.relayPass, hread]
    exact List.take_prefix _ _
  have hstep : (session stack).step s (.daemon (daemonReads _ hne)) =
      some (s.daemonPassed (s.conn.relayPass (daemonReads _ hne))) :=
    if_pos ⟨hheader, hs.daemon, hallowed, hfound⟩
  refine ⟨_, hstep, ⟨?_, hs.client, ?_, hs.typed, ?_⟩, ?_⟩
  · obtain ⟨hiff, hkept⟩ := exact_step_iff hs.kept hstep
    exact hkept (hiff.mpr hwhole)
  · show (Daemon.pass s.conn.relay (daemonReads _ hne)).ctl.running = true
    rw [hpass]
    exact hs.daemon
  · show (Daemon.pass s.conn.relay (daemonReads _ hne)).down.got = shown
    rw [hpass]
    exact hs.shown
  · have hpos : 0 < (s.up.inFlight.take bufferSize).length := List.length_pos_of_ne_nil hne
    have hquiet : newlyAccepted s.conn.relay.down (Daemon.pass s.conn.relay (daemonReads _ hne)).down = [] := by
      rw [hpass, newlyAccepted, List.drop_length]
    simp only [Session.pending, Session.daemonPassed, Conn.relayPass, hread, hquiet, Channel.take_inFlight,
      Channel.send_inFlight, List.append_nil, List.length_drop]
    rw [List.length_take] at hpos
    rw [List.length_take]
    omega

theorem live_client (stack : List UInt8) (hs : s.Live ws typed shown) (hne : s.down.inFlight.take bufferSize ≠ []) :
    ∃ s', (session stack).step s (.client (clientReads _ hne)) = some s' ∧ s'.Live ws typed shown ∧
      s'.pending < s.pending := by
  have hpass := pass_clientReads s.client hne hs.client
  have hread : newlyRead s.client.down (pass s.client (clientReads _ hne)).down =
      s.down.inFlight.take bufferSize := by
    rw [hpass, newlyRead, List.drop_left]
  have hallowed := clientReads_allowed hne (List.length_take_le _ _)
  have hwhole : (SessionAct.client (clientReads _ hne)).Whole := by
    refine ⟨fun h => absurd h (by decide), fun _ _ bs h heq => ?_⟩
    cases heq
    rfl
  have hfound : newlyRead s.client.down (pass s.client (clientReads _ hne)).down <+: s.down.inFlight := by
    rw [hread]
    exact List.take_prefix _ _
  have hstep : (session stack).step s (.client (clientReads _ hne)) =
      some (s.clientPassed (pass s.client (clientReads _ hne))) :=
    if_pos ⟨hs.client, hallowed, hfound⟩
  refine ⟨_, hstep, ⟨?_, ?_, hs.daemon, ?_, hs.shown⟩, ?_⟩
  · obtain ⟨hiff, hkept⟩ := exact_step_iff hs.kept hstep
    exact hkept (hiff.mpr hwhole)
  · show (pass s.client (clientReads _ hne)).ctl.running = true
    rw [hpass]
    exact hs.client
  · show (pass s.client (clientReads _ hne)).up.got = typed
    rw [hpass]
    exact hs.typed
  · have hpos : 0 < (s.down.inFlight.take bufferSize).length := List.length_pos_of_ne_nil hne
    have hquiet : newlyAccepted s.client.up (pass s.client (clientReads _ hne)).up = [] := by
      rw [hpass, newlyAccepted, List.drop_length]
    simp only [Session.pending, Session.clientPassed, hread, hquiet, Channel.take_inFlight,
      Channel.send_inFlight, List.append_nil, List.length_drop]
    rw [List.length_take] at hpos
    rw [List.length_take]
    omega

theorem live_step (hs : s.Live ws typed shown) (hpending : s.pending ≠ 0) :
    ∃ a s', a.Whole ∧ (session stack).step s a = some s' ∧ s'.Live ws typed shown ∧ s'.pending < s.pending := by
  by_cases hheader : s.conn.header = none
  · obtain ⟨s', h⟩ := live_header stack hs hheader
    exact ⟨_, s', (exact_step_iff hs.kept h.1).1.mp h.2.1.kept.exact, h⟩
  by_cases hup : s.up.inFlight = []
  · have hdown : s.down.inFlight ≠ [] := by
      intro hdown
      simp [Session.pending, hheader, hup, hdown] at hpending
    obtain ⟨s', h⟩ := live_client stack hs (take_ne_nil hdown)
    exact ⟨_, s', (exact_step_iff hs.kept h.1).1.mp h.2.1.kept.exact, h⟩
  · obtain ⟨s', h⟩ := live_daemon stack hs hheader (take_ne_nil hup)
    exact ⟨_, s', (exact_step_iff hs.kept h.1).1.mp h.2.1.kept.exact, h⟩

theorem live_delivered (stack : List UInt8) (hs : s.Live ws typed shown) : ∃ as t, (∀ a ∈ as, SessionAct.Whole a) ∧
    (session stack).run s as = some t ∧ t.Live ws typed shown ∧
    t.conn.ws = some ws ∧ t.conn.relay.up.accepted = typed ∧ t.client.down.accepted = shown := by
  obtain ⟨as, t, has, hrun, ht, hzero⟩ :=
    (session stack).exists_run Session.pending (fun _ h hne => live_step h hne) hs
  refine ⟨as, t, has, hrun, ht, ?_⟩
  have hexact := ht.kept.exact
  have hup := hexact.up
  have hdown := hexact.down
  rw [ht.typed] at hup
  rw [ht.shown] at hdown
  cases hh : t.conn.header with
  | none => simp [Session.pending, hh] at hzero
  | some got =>
      simp only [Session.pending, hh, reduceCtorEq, if_false, Nat.zero_add, Nat.add_eq_zero_iff,
        List.length_eq_zero_iff] at hzero
      simp only [Session.unread, hh, hzero.1, List.append_nil] at hup
      rw [hzero.2, List.append_nil] at hdown
      exact ⟨(ht.kept.header got hh).2, hup.symm, hdown.symm⟩

end Deliver

end Step

end Kworker.Khsl
