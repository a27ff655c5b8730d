import Kworker.Daemon.Lemmas.Relay
import Kworker.Terminal.Link

/-!
# What becomes of the bytes that are typed into a daemon session
-/

namespace Kworker.Terminal

open Kworker.Posix Kworker.Lib Kworker.Daemon

/-! ## The session that `StartPty` opens -/

theorem findSession_insert (g : Globals) (id : Int) (s : PtySession) :
    findSession (g.insert id s) id = some s := by
  simp [findSession, Globals.insert]

theorem writePty_streamed {g : Globals} {id : Int} {s : PtySession} (h : findSession g id = some s)
    (hfd : 0 ≤ s.master_fd) (data : List UInt8) :
    streamed s.master_fd (writePty g data id) = data := by
  simp [writePty, h, Int.not_lt.mpr hfd, streamed]

/-- `StartPty` puts nothing into the socket, whatever it returns. -/
theorem startPtyDaemon_silent (strerror : Errno → String) (c : DaemonCalls) (g : Globals) (fd : Int) :
    streamed fd (startPtyDaemon strerror c g).2.2 = [] := by
  unfold startPtyDaemon
  cases c.socket with
  | error e => rfl
  | ok sock =>
      cases c.connect with
      | error e => rfl
      | ok _ => simp only; split <;> rfl

/-- An id that is not negative is that of a session on the connected socket. -/
theorem startPtyDaemon_session (strerror : Errno → String) (c : DaemonCalls) (g : Globals)
    (h : 0 ≤ (startPtyDaemon strerror c g).1) :
    ∃ s, findSession (startPtyDaemon strerror c g).2.1 (startPtyDaemon strerror c g).1 = some s ∧
      0 ≤ s.master_fd := by
  revert h
  unfold startPtyDaemon
  cases c.socket with
  | error e => simp
  | ok sock =>
      cases c.connect with
      | error e => simp
      | ok _ =>
          simp only
          split
          · simp
          · intro _
            exact ⟨_, findSession_insert _ _ _, Int.natCast_nonneg sock⟩

/-! ## The invariant of a session -/

/-- Where the typed bytes are: the window size, the PTY, the socket. -/
structure Link.Inv (l : Link) : Prop where
  writes : ∀ data, streamed l.fd (writePty l.globals data l.id) = data
  header_nonempty : ∀ bs, l.conn.header = some bs → bs ≠ []
  waiting : l.conn.header = none → l.conn.relay.up.accepted = []
  split : l.conn.header.getD [] ++ l.conn.relay.up.accepted ++ l.inSocket = l.passed

theorem openSession_inv {strerror : Errno → String} {c : DaemonCalls} {g : Globals} {l : Link}
    (h : openSession strerror c g = some l) : l.Inv ∧ l.passed = [] := by
  simp only [openSession] at h
  split at h
  · cases h
  · rename_i hid
    obtain ⟨s, hs, hfd⟩ := startPtyDaemon_session strerror c g (Int.not_lt.mp hid)
    rw [hs, Option.map_some, Option.some.injEq] at h
    subst h
    refine ⟨⟨writePty_streamed hs hfd, ?_, fun _ => rfl, ?_⟩, rfl⟩
    · intro bs hbs
      cases hbs
    · exact startPtyDaemon_silent strerror c g _

theorem relayPass_accepted (c : Conn) {io : PassIo}
    (hw : clientBytes io ≠ [] → io.write₀ = .wrote io.read₀.bytes.length) :
    (c.relayPass io).relay.up.accepted = c.relay.up.accepted ++ clientBytes io := by
  simp only [Conn.relayPass]
  cases hp : io.poll with
  | error e =>
      obtain ⟨hup, _⟩ := pass_error (s := c.relay) hp
      simp [hup, clientBytes, hp]
  | ready r₀ r₁ =>
      rw [pass_up hp]
      simp only [clientBytes, hp] at hw ⊢
      unfold forward
      split
      · rename_i hin
        simp only [hin, if_true] at hw
        cases hr : io.read₀ with
        | data bs hne =>
            rw [hr] at hw
            simp only [hw hne, ReadResult.bytes, Leg.write, Leg.read_accepted, List.take_length]
        | eof => simp [ReadResult.bytes]
        | error e => simp [ReadResult.bytes]
      · simp

theorem linkStep_inv (stack : List UInt8) (l : Link) (a : LinkAct) (l' : Link) (h : l.Inv)
    (hstep : (link stack).step l a = some l') : l'.Inv := by
  simp only [link] at hstep
  cases a with
  | writePty data =>
      simp only [linkStep, Option.some.injEq] at hstep
      subst hstep
      refine ⟨h.writes, h.header_nonempty, h.waiting, ?_⟩
      simp only [h.writes]
      rw [← h.split]
      simp
  | header n =>
      simp only [linkStep, Option.ite_none_right_eq_some, Option.some.injEq] at hstep
      obtain ⟨⟨hnone, hpos, hle⟩, rfl⟩ := hstep
      have hacc := h.waiting hnone
      have hsplit := h.split
      simp only [hnone, hacc, Option.getD_none, List.nil_append] at hsplit
      refine ⟨h.writes, ?_, ?_, ?_⟩
      · intro bs hbs
        cases hbs
        apply List.ne_nil_of_length_pos
        rw [List.length_take]
        omega
      · intro hbs
        cases hbs
      · simp only [Conn.readHeader, Option.getD_some, hacc, List.append_nil, List.take_append_drop]
        exact hsplit
  | pass io =>
      simp only [linkStep, Option.ite_none_right_eq_some, Option.some.injEq] at hstep
      obtain ⟨⟨hsome, _, _, ⟨rest, hrest⟩, hw⟩, rfl⟩ := hstep
      refine ⟨h.writes, h.header_nonempty, fun hnone => absurd hnone hsome, ?_⟩
      simp only [relayPass_accepted l.conn hw]
      have hsplit := h.split
      rw [← hrest] at hsplit ⊢
      simpa [Conn.relayPass] using hsplit

/-! ## What was typed -/

def typed (acts : List LinkAct) : List UInt8 :=
  acts.flatMap fun
    | .writePty data => data
    | _ => []

theorem typed_eq_nil {acts : List LinkAct} :
    typed acts = [] ↔ ∀ data, LinkAct.writePty data ∈ acts → data = [] := by
  rw [typed, List.flatMap_eq_nil_iff]
  constructor
  · intro h data hmem
    exact h _ hmem
  · intro h a hmem
    cases a with
    | writePty data => exact h data hmem
    | header n => rfl
    | pass io => rfl

theorem linkStep_passed {stack : List UInt8} {l l' : Link} {a : LinkAct}
    (hstep : (link stack).step l a = some l') : l'.passed = l.passed ++ typed [a] := by
  simp only [link] at hstep
  cases a with
  | writePty data =>
      simp only [linkStep, Option.some.injEq] at hstep
      subst hstep
      simp [typed]
  | header n =>
      simp only [linkStep, Option.ite_none_right_eq_some, Option.some.injEq] at hstep
      obtain ⟨_, rfl⟩ := hstep
      simp [typed]
  | pass io =>
      simp only [linkStep, Option.ite_none_right_eq_some, Option.some.injEq] at hstep
      obtain ⟨_, rfl⟩ := hstep
      simp [typed]

theorem run_passed {stack : List UInt8} {l t : Link} {acts : List LinkAct}
    (hrun : (link stack).run l acts = some t) : t.passed = l.passed ++ typed acts := by
  induction acts generalizing l with
  | nil =>
      cases hrun
      simp [typed]
  | cons a acts ih =>
      obtain ⟨l', hstep, hrun⟩ := (link stack).run_cons_eq_some.mp hrun
      rw [ih hrun, linkStep_passed hstep]
      simp [typed]

/-- When the socket is empty, the PTY has received what was typed exactly if nothing was. -/
theorem Link.Inv.exact_iff {l : Link} (h : l.Inv) (hdone : l.inSocket = []) :
    l.Exact ↔ l.passed = [] := by
  have hsplit := h.split
  rw [hdone, List.append_nil] at hsplit
  constructor
  · rintro ⟨hacc, htaken⟩
    cases hh : l.conn.header with
    | none => rw [← hacc, h.waiting hh]
    | some bs => exact absurd (htaken bs hh) (h.header_nonempty bs hh)
  · intro hnil
    rw [hnil, List.append_eq_nil_iff] at hsplit
    refine ⟨by rw [hsplit.2, hnil], fun bs hbs => ?_⟩
    simpa [hbs] using hsplit.1

end Kworker.Terminal
