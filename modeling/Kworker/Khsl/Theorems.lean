import Kworker.Daemon.Lemmas.Relay
import Kworker.Khsl.Lemmas.Args
import Kworker.Khsl.Lemmas.Main
import Kworker.Khsl.Lemmas.Relay
import Kworker.Khsl.Lemmas.Session

/-!
# The khsl client
-/

namespace Kworker.Khsl

open Kworker.Lib Kworker.Posix

/-! ## Passes of the two relay loops that make no progress -/

/-- For every state of either loop, all results of the calls of a pass, and whatever SIGPIPE does. In the daemon
the pass reads something, or sees `EAGAIN`, or ends the loop, and ends it when a peer is gone, with the shell killed
and reaped, exactly if no write raises a SIGPIPE that ends the process, and either a read leaves the loop (an end
of stream does so only while `errno` is not `EAGAIN`), or there is something to read and no peer is gone. In the
client SIGPIPE is one more end of the loop. Over a whole run of the daemon the shell is killed and reaped, unless
SIGPIPE ends the process. -/
theorem relay_pass_ok_iff (sigpipe : Disposition) (s : Relay) (io : PassIo) (r₀ r₁ : Revents)
    (hs : s.ctl.running = true) (hpoll : io.poll = .ready r₀ r₁) :
    ((Daemon.processPass sigpipe s io).relay.PassOk r₀ r₁ ∧ (Daemon.processPass sigpipe s io).Reaped ↔
      io.kills sigpipe = false ∧ (Daemon.PassEnds s.ctl.errno io ∨ io.PeersPresent)) ∧
    ((processPass sigpipe s io).PassOk r₀ r₁ ↔ io.kills sigpipe = true ∨ PassEnds io ∨ io.PeersPresent) ∧
    ∀ ios, (Daemon.session sigpipe s ios).Reaped ↔
      Everywhere (fun pre io => (Daemon.session sigpipe s pre).relay.ctl.running = true →
        io.kills sigpipe = false) ios := by
  refine ⟨?_, ?_, fun ios => ?_⟩
  · exact Daemon.processPass_ok_iff hs hpoll
  · exact processPass_ok_iff hs hpoll
  · exact Daemon.session_reaped_iff hs ios

/-- The client is gone, and the PTY still has output. -/
def outputForNobody : PassIo where
  poll := .ready { POLLIN := true } { POLLIN := true }
  read₁ := .data [0x24] (by decide)
  write₁ := .error EPIPE

theorem relay_pass_ok_output :
    ((Daemon.processPass .default {} outputForNobody).relay.PassOk { POLLIN := true } { POLLIN := true } ∧
      (Daemon.processPass .default {} outputForNobody).Reaped ↔
        outputForNobody.kills .default = false ∧
          (Daemon.PassEnds 0 outputForNobody ∨ outputForNobody.PeersPresent)) ∧
    ((processPass .default {} outputForNobody).PassOk { POLLIN := true } { POLLIN := true } ↔
      outputForNobody.kills .default = true ∨ PassEnds outputForNobody ∨ outputForNobody.PeersPresent) ∧
    ∀ ios, (Daemon.session .default {} ios).Reaped ↔
      Everywhere (fun pre io => (Daemon.session .default {} pre).relay.ctl.running = true →
        io.kills .default = false) ios :=
  relay_pass_ok_iff .default {} outputForNobody { POLLIN := true } { POLLIN := true } rfl rfl

/-- The shell has exited and `poll` reports `POLLHUP` on the PTY master, or the client has closed its
end while `errno` is still `EAGAIN`: the daemon's loop goes round without end, whatever SIGPIPE does. The client's
loop does so when its terminal hangs up. With output for a client that is gone SIGPIPE ends the daemon's process, and
the shell is neither killed nor reaped. -/
theorem relay_spins :
    (∀ sigpipe, ¬ (Daemon.processPass sigpipe {} { poll := .ready {} { POLLHUP := true } }).relay.PassOk {}
      { POLLHUP := true }) ∧
    (∀ sigpipe n, (Daemon.session sigpipe {}
      (List.replicate n { poll := .ready {} { POLLHUP := true } })).calls = []) ∧
    (∀ sigpipe, ¬ (Daemon.processPass sigpipe { ctl := { errno := EAGAIN } }
        { poll := .ready { POLLIN := true } {}, read₀ := .eof }).relay.PassOk { POLLIN := true } {}) ∧
    (∀ sigpipe, ¬ (processPass sigpipe {} { poll := .ready { POLLHUP := true } {} }).PassOk { POLLHUP := true } {}) ∧
    ¬ (Daemon.processPass .default {} outputForNobody).Reaped := by
  refine ⟨fun sigpipe => ?_, fun sigpipe n => ?_, fun sigpipe => ?_, fun sigpipe => ?_, ?_⟩
  · rintro ⟨_, h⟩
    have hleft := h (Or.inr (Or.inr ⟨rfl, Or.inl rfl⟩))
    cases sigpipe <;> cases hleft
  · rw [Daemon.session_stuck _ rfl]
    cases sigpipe <;> rfl
  · rintro ⟨_, h⟩
    cases sigpipe with
    | default =>
        have hleft := h (Or.inl (by decide))
        revert hleft
        decide
    | ignored =>
        have hleft := h (Or.inl (by decide))
        revert hleft
        decide
  · rintro ⟨_, h⟩
    have hleft := h (Or.inr (Or.inl ⟨rfl, Or.inl rfl⟩))
    cases sigpipe <;> cases hleft
  · exact Daemon.reaped_killed rfl

/-! ## An interactive session -/

/-- In every order of the passes of the two loops, whatever their calls come back with, nothing comes out
at either end that was not put in at the other, in this order. All of it comes out, and the PTY gets the
size of the window, exactly if the size is read as a whole and every write takes its whole buffer. -/
theorem session_bytes_iff (stack : List UInt8) (own : Daemon.Winsize) (tty : Option Daemon.Winsize)
    (acts : List SessionAct) :
    (session stack).Always (Session.InOrder (clientWinsize own tty)) (.start (clientWinsize own tty)) acts ∧
    ((session stack).Always (Session.Exact (clientWinsize own tty)) (.start (clientWinsize own tty)) acts ↔
      (session stack).Guarded (fun _ a => a.Whole) (.start (clientWinsize own tty)) acts) := by
  have hstart := kept_start (clientWinsize own tty)
  constructor
  · refine (session stack).always_of_invariant
      (I := fun s => s.Wired (clientWinsize own tty) ∧ s.Legs Thinned) ?_ ?_ ?_ acts
    · intro s a s' hs hstep
      exact ⟨wired_step hs.1 hstep, thinned_step hs.2 hstep⟩
    · intro s hs
      exact inOrder_of_wired hs.1 hs.2
    · exact ⟨hstart.wired, hstart.legs.thinned⟩
  · -- a state with `Exact` on the way has the whole invariant, which the next step needs
    apply (session stack).always_iff_guarded_of
      (I := fun s => s.Exact (clientWinsize own tty) → s.Kept (clientWinsize own tty))
    · intro s a s' hs hexact hstep
      exact (exact_step_iff (hs hexact) hstep).2
    · intro s a s' hs hexact hstep
      exact (exact_step_iff (hs hexact) hstep).1
    · intro _
      exact hstart
    · exact hstart.exact

/-- In a session that has lost nothing, and whose loops both go on, what is on its way can always be
delivered: some more passes, without further input, bring all that was typed to the PTY and all that the
PTY has shown to standard output. -/
theorem session_delivers (stack : List UInt8) (own : Daemon.Winsize) (tty : Option Daemon.Winsize)
    (acts : List SessionAct) (s : Session)
    (hrun : (session stack).run (.start (clientWinsize own tty)) acts = some s)
    (hwhole : ∀ a ∈ acts, a.Whole) (hclient : s.client.ctl.running = true)
    (hdaemon : s.conn.relay.ctl.running = true) :
    ∃ more t, (∀ a ∈ more, SessionAct.Whole a) ∧ (session stack).run s more = some t ∧
      t.client.up.got = s.client.up.got ∧ t.conn.relay.down.got = s.conn.relay.down.got ∧
      t.conn.ws = some (clientWinsize own tty) ∧ t.conn.relay.up.accepted = s.client.up.got ∧
      t.client.down.accepted = s.conn.relay.down.got := by
  have hkept : s.Kept (clientWinsize own tty) := by
    apply (session stack).run_of_guarded (C := fun _ a => a.Whole) _ (kept_start _) _ hrun
    · intro u a u' hu ha hstep
      obtain ⟨hiff, hkept⟩ := exact_step_iff hu hstep
      exact hkept (hiff.mpr ha)
    · intro pre a t t' hpre _ _
      exact hwhole a (hpre.subset (List.mem_append_right _ (List.mem_singleton.mpr rfl)))
  obtain ⟨more, t, hmore, hrun', ht, hws, hup, hdown⟩ :=
    live_delivered stack ⟨hkept, hclient, hdaemon, rfl, rfl⟩
  exact ⟨more, t, hmore, hrun', ht.typed, ht.shown, hws, hup, hdown⟩

/-- Two bytes are typed before the daemon has read the size, which no terminal has set. -/
theorem session_delivers_typed : ∃ more t,
    (session []).run (.start (clientWinsize ⟨0, 0, 0, 0⟩ none))
      (.client ⟨.ready { POLLIN := true } {}, .data [0x6c, 0x73] (by decide), .wrote 2, .eof,
        .error EAGAIN⟩ :: more) = some t ∧
    t.conn.ws = some ⟨24, 80, 0, 0⟩ ∧ t.conn.relay.up.accepted = [0x6c, 0x73] := by
  obtain ⟨more, t, _, hrun, _, _, hws, hup, _⟩ := session_delivers [] ⟨0, 0, 0, 0⟩ none
    [.client ⟨.ready { POLLIN := true } {}, .data [0x6c, 0x73] (by decide), .wrote 2, .eof,
      .error EAGAIN⟩] _ rfl
    (List.forall_mem_singleton.mpr ⟨fun _ bs h heq => by cases heq; rfl, fun h => absurd h (by decide)⟩)
    rfl rfl
  exact ⟨more, t, hrun, hws, hup⟩

/-! ## The credentials of what khsl runs -/

/-- Whatever khsl reaches when it is started with root privilege, it reaches as the user that was asked
for if every step of the change succeeds; if one fails it has first of all printed the text for this step, and goes
on with its user ids as they were and what the steps before have made of its groups. -/
theorem khsl_reaches_as (c : Calls) (args : List String) (env : Env) (cred : Cred) (opts : Opts)
    (r : Reached) (hargs : parse_args env args {} = .ok opts) (hroot : cred.ruid = 0 ∨ cred.euid = 0)
    (hr : r ∈ (main c args env cred).reached) :
    (SwitchSucceeds c (requestedUser opts env) cred → ∃ pw,
      c.getpwnam (requestedUser opts env) = some pw ∧
      r.cred.Are pw.pw_uid pw.pw_gid (c.grouplist pw.pw_name pw.pw_gid)) ∧
    (¬ SwitchSucceeds c (requestedUser opts env) cred →
      r.cred = credBeforeFailure c (requestedUser opts env) cred ∧
      (r.cred.ruid = cred.ruid ∧ r.cred.euid = cred.euid ∧ r.cred.suid = cred.suid) ∧
      ∃ rest, (main c args env cred).stderr = failureMessage c env (requestedUser opts env) cred :: rest) := by
  obtain ⟨hmem, hmain⟩ := main_reached hargs hr
  obtain ⟨hcred, hpre⟩ := runAs_reached hmem
  simp only [requestedUser, ← given_khsl_user]
  rw [hmain, hcred]
  constructor
  · exact try_drop_privileges_succeeds hroot
  · intro hfail
    obtain ⟨hleft, herr⟩ := try_drop_privileges_fails hroot hfail
    rw [hleft]
    refine ⟨rfl, credBeforeFailure_user _, ?_⟩
    rw [herr, failureMessage_override] at hpre
    obtain ⟨rest, hrest⟩ := hpre
    exact ⟨rest, hrest.symm⟩

def rootCred : Cred := ⟨0, 0, 0, 0, 0, 0, [0]⟩

def shellCalls : Calls where
  getpwnam := fun n => if n = "shell" then some { pw_name := n, pw_uid := 2000, pw_gid := 2000 } else none

theorem khsl_reaches_as_shell : ∃ r ∈ (main shellCalls ["id"] Env.empty rootCred).reached,
    r.launch = .execvp ["id"] ∧ r.cred.Are 2000 2000 [2000] := by
  refine ⟨_, List.mem_singleton.mpr rfl, rfl, ?_⟩
  obtain ⟨pw, hpw, hare⟩ := (khsl_reaches_as shellCalls ["id"] Env.empty rootCred
    { run_mode := .exec, exec_argv := ["id"] } _ rfl (Or.inl rfl) (List.mem_singleton.mpr rfl)).1
      ⟨⟨_, rfl⟩, rfl, rfl, rfl, rfl⟩
  cases hpw
  exact hare

/-- An unknown user, and a user for whom `setuid` fails: the command runs as root. -/
theorem khsl_runs_command_as_root :
    (∃ r ∈ (main {} ["-u", "guest", "id"] Env.empty rootCred).reached,
      r.launch = .execvp ["id"] ∧ r.cred = rootCred) ∧
    ∃ r ∈ (main { getpwnam := fun n => if n = "guest" then some ⟨n, 1000, 1000, none, none⟩ else none
                  setuidOk := false }
        ["-u", "guest", "id"] Env.empty rootCred).reached,
      r.launch = .execvp ["id"] ∧ r.cred.ruid = 0 ∧ r.cred.rgid = 1000 := by
  refine ⟨⟨_, List.mem_singleton.mpr rfl, rfl, rfl⟩, ⟨_, List.mem_singleton.mpr rfl, rfl, rfl, rfl⟩⟩

/-! ## The command line -/

/-- `parse_args` succeeds exactly for the words of a command line, and fails with 2 for any others. It
then reads what the command line says, and the command is a part of the words that goes up to their
end. -/
theorem parse_args_grammar (env : Env) (words : List String) :
    ((∃ opts, parse_args env words {} = .ok opts) ↔ ∃ c : CommandLine, c.words = words) ∧
    ((∃ text, parse_args env words {} = .error (2, text)) ↔ ¬ ∃ c : CommandLine, c.words = words) ∧
    ∀ c : CommandLine, c.words = words → parse_args env words {} = .ok c.opts ∧
      (c.opts.run_mode = .exec ↔ c.tail ≠ .nothing) ∧
      (c.opts.run_mode = .exec → c.opts.exec_argv ≠ [] ∧ c.opts.exec_argv <:+ words) := by
  have hread : ∀ c : CommandLine, c.words = words → parse_args env words {} = .ok c.opts := by
    rintro c rfl
    exact parse_commandLine env c
  refine ⟨?_, ?_, ?_⟩
  · constructor
    · rintro ⟨opts, hopts⟩
      rcases parse_args_cases env words {} with hc | ⟨text, htext⟩
      · exact hc
      · rw [htext] at hopts
        cases hopts
    · rintro ⟨c, hc⟩
      exact ⟨c.opts, hread c hc⟩
  · constructor
    · rintro ⟨text, htext⟩ ⟨c, hc⟩
      rw [hread c hc] at htext
      cases htext
    · intro hnone
      rcases parse_args_cases env words {} with hc | herr
      · exact absurd hc hnone
      · exact herr
  · rintro c rfl
    obtain ⟨hexec, hne⟩ := exec_iff c
    exact ⟨parse_commandLine env c, hexec, fun hmode => ⟨hne hmode, exec_argv_suffix c⟩⟩

/-- An option takes the next word whatever it looks like, and so does the command. -/
example : parse_args Env.empty ["--help", "-u", "--cd", "-e", "ls", "--help", "-u"] {} =
    .ok { want_help := true, user_override := some "--cd", run_mode := .exec
          exec_argv := ["ls", "--help", "-u"] } := by
  decide

end Kworker.Khsl
