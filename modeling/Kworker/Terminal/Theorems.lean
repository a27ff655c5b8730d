import Kworker.Terminal.Lemmas.Chrome
import Kworker.Terminal.Lemmas.Clipboard
import Kworker.Terminal.Lemmas.Controls
import Kworker.Terminal.Lemmas.Idempotent
import Kworker.Terminal.Lemmas.MenuEditor
import Kworker.Terminal.Lemmas.Link
import Kworker.Terminal.Lemmas.Promote
import Kworker.Terminal.Lemmas.Reader
import Kworker.Terminal.Lemmas.Resize
import Kworker.Terminal.Lemmas.Script
import Kworker.Terminal.Lemmas.Scroll
import Kworker.Terminal.Lemmas.Sessions
import Kworker.Terminal.Lemmas.Settings
import Kworker.Terminal.Lemmas.Thumb
import Kworker.Terminal.Lemmas.Ui

/-!
# The terminal
-/

namespace Kworker.Terminal

open Kworker.Posix Kworker.Lib Kworker.Daemon

/-! ## The bytes typed first are taken for the window size -/

/-- In every run of a session that `StartPty` has opened, once the socket is empty, the shell's PTY
has received what was passed to `WritePty` exactly if nothing was. -/
theorem session_exact_iff (strerror : Errno → String) (c : DaemonCalls) (g : Globals)
    (stack : List UInt8) (acts : List LinkAct) (l t : Link) (hopen : openSession strerror c g = some l)
    (hrun : (link stack).run l acts = some t) (hdone : t.inSocket = []) :
    t.Exact ↔ ∀ data, LinkAct.writePty data ∈ acts → data = [] := by
  obtain ⟨hinv, hnil⟩ := openSession_inv hopen
  have hinv' : t.Inv := (link stack).run_invariant (linkStep_inv stack) hinv hrun
  rw [hinv'.exact_iff hdone, run_passed hrun, hnil, List.nil_append, typed_eq_nil]

def firstSession : Link where
  globals :=
    { g_next_session_id := 2
      g_sessions := [(1, { id := 1, master_fd := 40, daemon_mode := true, running := true })]
      g_last_pty_diag := "ok" }
  id := 1
  fd := 40

def firstCalls : DaemonCalls := { socket := .ok 40, connect := .ok (), tsfn := napi_ok }

/-- The user types `ls` and a new line: the shell's PTY gets nothing. -/
theorem session_loses_first_bytes :
    openSession (fun _ => "") firstCalls {} = some firstSession ∧
    ∃ t, (link []).run firstSession [.writePty [0x6c, 0x73, 0x0a], .header 3] = some t ∧
      t.inSocket = [] ∧ t.conn.relay.up.accepted = [] ∧ ¬ t.Exact := by
  refine ⟨rfl, _, rfl, rfl, rfl, ?_⟩
  rintro ⟨hacc, _⟩
  revert hacc
  decide

theorem session_exact_iff_first :
    (∃ t, (link []).run firstSession [.writePty [0x6c, 0x73, 0x0a], .header 3] = some t ∧
      (t.Exact ↔ ∀ data, LinkAct.writePty data ∈
        [LinkAct.writePty [0x6c, 0x73, 0x0a], LinkAct.header 3] → data = [])) :=
  ⟨_, rfl, session_exact_iff (fun _ => "") firstCalls {} [] _ _ _ rfl rfl rfl⟩

/-! ## The output of a session -/

/-- In every run of a session, what was delivered is always a prefix of what was read, with nothing
lost, exactly if no read finds the queue full. -/
theorem output_inOrder_iff (id : Int) (acts : List ReaderAct) :
    reader.Always Reader.InOrder { session_id := id } acts ↔
      reader.Guarded HasRoom { session_id := id } acts := by
  apply reader.always_iff_guarded (I := fun _ => True) (fun _ _ _ _ _ => trivial)
  · intro r a s _ h hstep
    exact readerStep_inOrder_iff h hstep
  · trivial
  · exact (inOrder_iff _).mpr rfl

/-- The queue is filled, one more chunk is read, and then the JavaScript thread goes on. -/
def burst : List ReaderAct :=
  List.replicate kTsfnQueueSize (.read [0x61]) ++ ([.read [0x62], .dequeue, .read [0x63]] ++
    List.replicate kTsfnQueueSize .dequeue)

theorem burst_loses_chunk :
    (∃ r, reader.run { session_id := 1 } burst = some r ∧ ¬ r.delivered.map (·.buffer) <+: r.read) ∧
    ¬ reader.Always Reader.InOrder { session_id := 1 } burst := by
  obtain ⟨n, hn⟩ : ∃ n, kTsfnQueueSize = n + 1 := ⟨2047, rfl⟩
  let a : PtyData := { session_id := 1, buffer := [0x61] }
  let c : PtyData := { session_id := 1, buffer := [0x63] }
  let full : Reader :=
    { session_id := 1, read := List.replicate (n + 1) [0x61], queue := a :: List.replicate n a }
  let overrun : Reader :=
    { session_id := 1
      read := full.read ++ [[0x62], [0x63]]
      queue := List.replicate n a ++ [c]
      delivered := [a] }
  have hfill : reader.run { session_id := 1 } (List.replicate kTsfnQueueSize (.read [0x61])) = some full := by
    rw [run_reads [0x61] (by decide) (by decide) kTsfnQueueSize rfl (by simp), hn]
    rfl
  have hover : reader.run full [.read [0x62], .dequeue, .read [0x63]] = some overrun :=
    run_overrun rfl rfl (by rw [List.length_cons, List.length_replicate, hn]) (by decide) (by decide)
  have hdrain := run_dequeues (r := overrun) (List.replicate n a ++ [c]) [] (List.append_nil _).symm
  rw [List.length_append, List.length_replicate, List.length_singleton, ← hn] at hdrain
  have hrun : ∃ r, reader.run { session_id := 1 } burst = some r ∧
      ¬ r.delivered.map (·.buffer) <+: r.read := by
    rw [burst, Machine.run_append, hfill, Option.bind_some, Machine.run_append, hover, Option.bind_some]
    refine ⟨_, hdrain, ?_⟩
    have hmap : ([a] ++ (List.replicate n a ++ [c])).map (·.buffer) =
        List.replicate (n + 1) [0x61] ++ [[0x63]] := by
      simp [a, c, List.replicate_succ]
    rw [hmap, List.prefix_append_right_inj]
    decide
  obtain ⟨r, hrun, hprefix⟩ := hrun
  exact ⟨⟨r, hrun, hprefix⟩, fun h => hprefix (h burst r List.prefix_rfl hrun).1⟩

/-- For every decoder that replaces what is ill-formed and every text, once everything that was read
has been delivered, the callback was given the text exactly if no read began inside a character. -/
theorem shown_text_iff (D : Utf8Decoder) (id : Int) (acts : List ReaderAct) (r : Reader) (cs : List Char)
    (hrun : reader.run { session_id := id } acts = some r)
    (hroom : reader.Guarded HasRoom { session_id := id } acts) (hqueue : r.queue = [])
    (htext : r.read.flatten = utf8 cs) :
    r.text D = cs ↔ ∀ bs ∈ r.read, startsInside bs = false := by
  have hne : ∀ bs ∈ r.read, bs ≠ [] :=
    reader.run_invariant (I := fun r => ∀ bs ∈ r.read, bs ≠ []) (fun _ _ _ h hstep =>
      readerStep_chunks hstep h) (by simp) hrun
  have horder : r.InOrder := (output_inOrder_iff id acts).mpr hroom acts r List.prefix_rfl hrun
  have hdelivered : r.delivered.map (·.buffer) = r.read := by
    rw [← horder.2, hqueue, List.append_nil]
  have hshown : r.text D = r.read.flatMap D.decode := by
    rw [← hdelivered, List.flatMap_map]
    rfl
  rw [hshown]
  exact D.flatMap_decode_eq_iff hne htext

/-- The three bytes of one character are read as two and one. -/
theorem split_char_shown :
    ∃ r, reader.run { session_id := 1 } [.read [0xe4, 0xb8], .read [0xad], .dequeue, .dequeue] = some r ∧
      r.read.flatten = utf8 [Char.ofNat 0x4e2d] ∧
      r.text .replacing = [Char.ofNat 0xfffd, Char.ofNat 0xfffd] ∧
      r.text .replacing ≠ [Char.ofNat 0x4e2d] :=
  ⟨_, rfl, by decide, by decide, by decide⟩

theorem whole_chars_shown :
    ∃ r, reader.run { session_id := 1 } [.read [0xe4, 0xb8, 0xad], .read [0x21], .dequeue, .dequeue] = some r ∧
      r.text .replacing = [Char.ofNat 0x4e2d, Char.ofNat 0x21] := by
  refine ⟨_, rfl, (shown_text_iff .replacing 1
    [.read [0xe4, 0xb8, 0xad], .read [0x21], .dequeue, .dequeue] _ _ rfl ?_ rfl (by decide)).mpr (by decide)⟩
  exact guarded_hasRoom (by decide)

/-! ## Tabs that turn into KHSL -/

/-- However the output of a daemon tab is split, the tab ends up as with the output in one chunk, exactly
if a sign of KHSL lies in one chunk, or one is cut just when a piece of a cut line looks like a prompt. -/
theorem promotion_split_iff (chunks : List JsString) :
    let tab := StripTab.created "daemon"
    writeChunks tab chunks = writeChunks tab [chunks.flatten] ↔
      KeepsSign chunks ∨ (CutsSign chunks ↔ CutsOutPrompt chunks) := by
  intro tab
  have hchunks : writeChunks tab chunks = if chunks.any showsKhsl then applyKhslTabPresentation tab else tab :=
    writeChunks_eq rfl rfl rfl chunks
  have hwhole : writeChunks tab [chunks.flatten] =
      if showsKhsl chunks.flatten then applyKhslTabPresentation tab else tab := by
    rw [writeChunks_eq rfl rfl rfl, List.any_cons, List.any_nil, Bool.or_false]
  have hne : applyKhslTabPresentation tab ≠ tab := by decide
  have hsame : writeChunks tab chunks = writeChunks tab [chunks.flatten] ↔
      ((∃ c ∈ chunks, showsKhsl c = true) ↔ showsKhsl chunks.flatten = true) := by
    rw [hchunks, hwhole, ← List.any_eq_true]
    cases chunks.any showsKhsl <;> cases showsKhsl chunks.flatten <;> simp [hne, hne.symm]
  rw [hsame, shows_chunk_iff, shows_flatten_iff]
  by_cases hkeeps : KeepsSign chunks
  · simp only [hkeeps, true_or]
  · simp only [hkeeps, false_or]
    exact Iff.comm

/-- A title whose name is cut is missed, and a prompt is seen where a command follows it. -/
theorem promotion_depends_on_split :
    let tab := StripTab.created "daemon"
    let title := [27 :: js "]0;kh", js "sl" ++ [7]]
    let command := [js "khsl# ", js "ls" ++ [10]]
    (writeChunks tab title).presentationKhsl = false ∧
    (writeChunks tab [title.flatten]).presentationKhsl = true ∧
    (writeChunks tab command).presentationKhsl = true ∧
    (writeChunks tab [command.flatten]).presentationKhsl = false := by
  decide

/-! ## The descriptors of the shells -/

/-- In every run of `StartPty` and `StopPty`, every shell holds only its own slave besides what was there
before, exactly if whenever a shell is exec'd no session is live with a descriptor above 2, and the shell
is forked, or the system numbers master and slave so that `posix_spawn` drops the one and keeps the
other. -/
theorem shells_confined_iff (strerror : Errno → String) (before : Nat → Option Bool) (acts : List NativeAct) :
    (native strerror).Always (fun p => ∀ sh ∈ p.shells, sh.Confined) (.initial before) acts ↔
      (native strerror).Guarded StartsConfined (.initial before) acts := by
  apply (native strerror).always_iff_guarded (I := Native.Inv)
  · intro p a q hp hstep
    exact nativeStep_inv hp hstep
  · intro p a q hp hshells hstep
    exact nativeStep_confined_iff hp hshells hstep
  · exact initial_inv before
  · intro sh hsh
    cases hsh

/-- `StartPty` for a shell, with this master, and this number for the slave. -/
def startShell (master_fd slave_fd pid : Nat) : NativeAct :=
  .startPty "default" { socket := .error 0, connect := .error 0, tsfn := napi_ok }
    { posix_openpt := .ok master_fd
      fork := .ok pid
      child := { openSlave := .ok slave_fd, execv := fun _ => true }
      spawn := { openSlave := .error 0, posix_spawn := fun _ => .error 0 } }

/-- The shell of a second session holds the master of the first one. -/
theorem second_shell_holds_master :
    let stdio : Nat → Option Bool := fun fd => if fd ≤ 2 then some false else none
    (∃ p, (native fun _ => "").run (.initial stdio) [startShell 3 4 100, startShell 4 5 101] = some p ∧
      p.shells[1]?.bind (·.fds 3) = some ⟨.master 1, false⟩) ∧
    ¬ (native fun _ => "").Always (fun p => ∀ sh ∈ p.shells, sh.Confined) (.initial stdio)
      [startShell 3 4 100, startShell 4 5 101] := by
  refine ⟨⟨_, rfl, by decide⟩, fun h => ?_⟩
  have hall := h _ _ List.prefix_rfl rfl
  have hfile := (hall _ (List.mem_cons_of_mem _ List.mem_cons_self)).2 3 _ (by decide) rfl
  cases hfile

/-! ## A start that fails -/

/-- In every state that `StartPty` and `StopPty` lead to, and whatever its calls return: `StartPty` leaves
nothing but a text when it returns -1, and otherwise exactly one session with its child and its descriptor,
whose id no session had before. -/
theorem startPty_starts_whole (strerror : Errno → String) (before : Nat → Option Bool) (acts : List NativeAct)
    (p : Native) (profile : String) (d : DaemonCalls) (c : ShellCalls)
    (hrun : (native strerror).run (.initial before) acts = some p)
    (hallowed : (NativeAct.startPty profile d c).allowed p = true) :
    let r := startPty strerror profile d c p
    p.StartsWhole profile r ∧ (r.1 ≠ -1 →
      (native strerror).Always (fun t => ∀ e ∈ t.globals.g_sessions, e.1 < r.1) (.initial before) acts) := by
  have hp : p.Inv :=
    (native strerror).run_invariant (fun _ _ _ hp h => nativeStep_inv hp h) (initial_inv before) hrun
  have houtcome := startPty_outcome strerror hallowed
  exact ⟨houtcome.startsWhole hp, fun hid => houtcome.fresh (initial_inv before) hrun hid⟩

/-- `fork` fails, only `/system/bin/bash` can be spawned, and the queue of the session cannot be made. -/
def spawnedInVain : ShellCalls where
  posix_openpt := .ok 5
  fork := .error 12
  child := { openSlave := .error 0, execv := fun _ => false }
  spawn := {
    openSlave := .ok 6
    posix_spawn := fun argv => if argv = ["/system/bin/bash"] then .ok 102 else .error 2 }
  tsfn := 1

theorem startPty_starts_whole_in_vain :
    ∃ p, (native fun _ => "").run (.initial fun _ => none) [startShell 3 4 100] = some p ∧
      (startPty (fun _ => "") "default" ⟨.error 0, .error 0, 0⟩ spawnedInVain p).1 = -1 ∧
      p.StartsWhole "default" (startPty (fun _ => "") "default" ⟨.error 0, .error 0, 0⟩ spawnedInVain p) :=
  ⟨_, rfl, rfl, (startPty_starts_whole (fun _ => "") (fun _ => none) [startShell 3 4 100] _ "default"
    ⟨.error 0, .error 0, 0⟩ spawnedInVain rfl (by decide)).1⟩

/-! ## Tabs -/

/-- After `wtBootstrap`, whatever is done with the tabs and under any preference for the place of new
ones, the list of tabs, the active tab, the classes and the strip agree. -/
theorem tabs_inStep (strerror : Errno → String) (before : Nat → Option Bool) (profile : String)
    (start : StartCalls) (u : Ui) (acts : List UiAct)
    (hboot : uiStep strerror { native := .initial before } (.wtBootstrap profile start) = some u) :
    (ui strerror).Always (fun u => u.page.InStep) u acts := by
  have hu : u.page.Listed ∧ u.page.InStep := by
    cases uiStep_cases hboot with
    | boots _ _ => exact ⟨createTab_listed empty_listed, createTab_inStep empty_listed⟩
    | bootsAgain hne => exact absurd rfl hne
  refine (ui strerror).always_of_invariant (I := fun u => u.page.Listed ∧ u.page.InStep) ?_ (fun _ h => h.2) hu acts
  rintro u a v ⟨hlisted, hin⟩ hstep
  exact ⟨(uiStep_cases hstep).listed hlisted, (uiStep_cases hstep).inStep hlisted hin⟩

/-- The daemon accepts a connection on this descriptor. -/
def daemonSession (fd : Nat) : StartCalls :=
  some ({ socket := .ok fd, connect := .ok (), tsfn := napi_ok },
    { posix_openpt := .error 2
      fork := .error 0
      child := { openSlave := .error 0, execv := fun _ => false }
      spawn := { openSlave := .error 0, posix_spawn := fun _ => .error 0 } })

/-- Two shell tabs and the settings, one of them removed. -/
def tabActs : List UiAct :=
  [.setNewTabPosition "after_current", .openOrFocusSettingsTab, .createTab "daemon" (daemonSession 9),
    .switchTab 1, .removeTab 1, .output 1 "x", .output 2 "y"]

theorem tabs_inStep_acts :
    ∃ u v, uiStep (fun _ => "") { native := .initial fun _ => none }
        (.wtBootstrap "daemon" (daemonSession 8)) = some u ∧
      (ui fun _ => "").run u tabActs = some v ∧ v.page.strip = [2, 3] ∧ v.page.InStep :=
  ⟨_, _, rfl, rfl, rfl, tabs_inStep (fun _ => "") (fun _ => none) "daemon" (daemonSession 8) _ tabActs rfl
    tabActs _ List.prefix_rfl rfl⟩

/-- After `wtBootstrap`, with starts of sessions that may fail, the sessions of the native module are those of
the open tabs, no id is used twice, and output goes to the tab that started its session and to no
other. -/
theorem sessions_inStep (strerror : Errno → String) (before : Nat → Option Bool) (profile : String)
    (start : StartCalls) (u : Ui) (acts : List UiAct)
    (hboot : uiStep strerror { native := .initial before } (.wtBootstrap profile start) = some u) :
    (ui strerror).Always Ui.InStep u acts := by
  have hu : u.Inv := (uiStep_cases hboot).inv (initial_ui_inv before)
  refine (ui strerror).always_of_invariant (I := Ui.Inv) ?_ (fun _ h => h.inStep) hu acts
  intro u a v hinv hstep
  exact (uiStep_cases hstep).inv hinv

theorem sessions_inStep_acts :
    ∃ u v, uiStep (fun _ => "") { native := .initial fun _ => none }
        (.wtBootstrap "daemon" (daemonSession 8)) = some u ∧
      (ui fun _ => "").run u tabActs = some v ∧ v.native.globals.g_sessions.map (·.1) = [2] ∧
      v.page.tabs.map (·.written) = [[], ["y"]] ∧ v.InStep :=
  ⟨_, _, rfl, rfl, rfl, rfl, sessions_inStep (fun _ => "") (fun _ => none) "daemon" (daemonSession 8) _ tabActs
    rfl tabActs _ List.prefix_rfl rfl⟩

/-! ## Keys, buttons and the menu -/

/-- After `wtBootstrap`, whatever is pressed, clicked and chosen and whatever the sessions put out: the page
has taken steps of the tab machine only, the tabs and the sessions are in step, every shell tab has a
profile that the page offers, and the listener of the shortcuts stops a key exactly if it makes a call. -/
theorem window_inStep (strerror : Errno → String) (before : Nat → Option Bool) (profile position : String)
    (start : StartCalls) (inputs : List Input) (w : Window)
    (hrun : (window strerror).run (.initial before) (.wtBootstrap profile position start :: inputs) = some w) :
    w.InStep ∧ ∃ acts, (ui strerror).run { native := .initial before } acts = some w.ui := by
  have hinv := window_run_inv hrun
  exact ⟨⟨hinv.page, hinv.ui.inStep, hinv.tabs, hinv.profileForNewTab, shortcut_keeps hinv.page⟩,
    window_run_follows hrun⟩

/-- Ctrl+Shift+T, a tab of the menu, Ctrl+Shift+W and the settings by Ctrl+comma. -/
def keyInputs : List Input :=
  [.keydown { key := "T", ctrlKey := true, shiftKey := true } (daemonSession 9),
    .menuItem { profile := "khsl" } none,
    .keydown { key := "w", ctrlKey := true, shiftKey := true } none,
    .keydown { key := ",", ctrlKey := true } none, .tabRow 1, .tabClose 2]

theorem window_inStep_keys :
    ∃ w, (window fun _ => "").run (.initial fun _ => none)
        (.wtBootstrap "daemon" "last" (daemonSession 8) :: keyInputs) = some w ∧
      w.InStep ∧ ∃ acts, (ui fun _ => "").run { native := .initial fun _ => none } acts = some w.ui :=
  ⟨_, rfl, window_inStep (fun _ => "") (fun _ => none) "daemon" "last" (daemonSession 8) keyInputs _ rfl⟩

/-- In every window that can be reached, any presses of Ctrl+Tab and Ctrl+Shift+Tab, wherever the focus is, lead
from the tab at `i` around to the tab at `i` plus the presses without Shift minus those with it, where a press in a
form field does not count, and change nothing else. -/
theorem tab_presses (strerror : Errno → String) (before : Nat → Option Bool) (profile position : String)
    (start : StartCalls) (inputs : List Input) (w : Window)
    (hrun : (window strerror).run (.initial before) (.wtBootstrap profile position start :: inputs) = some w)
    (i : Nat) (hi : w.At i) (presses : List TabPress) :
    (window strerror).run w (presses.map (·.input)) =
      some (w.select ((i + turns presses) % w.ui.page.tabs.length).toNat) := by
  have hinv := window_run_inv hrun
  exact tabPress_run hinv.ui.page hinv.page hi presses

/-- A key press in the terminal is sent to the text area of xterm.js. -/
def inTerminal : Target := { tagName := "TEXTAREA", inXterm := true }

/-- Two shell tabs and the settings, which are active: a press in a list of the settings, one beside it and two in a
terminal. -/
theorem tab_presses_around :
    ∃ w, (window fun _ => "").run (.initial fun _ => none)
        [.wtBootstrap "daemon" "last" none, .newTabButton none,
          .keydown { key := ",", ctrlKey := true, target := some inTerminal } none] = some w ∧
      (window fun _ => "").run w ([⟨false, some { tagName := "SELECT", inXterm := false }⟩,
        ⟨false, some { tagName := "BODY", inXterm := false }⟩, ⟨true, some inTerminal⟩,
        ⟨true, some inTerminal⟩].map TabPress.input) = some (w.select 1) :=
  ⟨_, rfl, tab_presses (fun _ => "") (fun _ => none) "daemon" "last" none
    [.newTabButton none, .keydown { key := ",", ctrlKey := true, target := some inTerminal } none] _ rfl 2
    ⟨_, rfl, rfl⟩ [⟨false, some { tagName := "SELECT", inXterm := false }⟩,
      ⟨false, some { tagName := "BODY", inXterm := false }⟩, ⟨true, some inTerminal⟩, ⟨true, some inTerminal⟩]⟩

/-! ## The sizes of the terminals -/

section Sizes

variable {δ : Type} [DecidableEq δ]

/-- In every run, in whatever order timers and frames are called: the PTY of an open session of this process has
the size of its terminal, unless neither was laid out yet, and no session of the daemon is given a size. -/
theorem sizes_synced (anchor : δ → Nat × Nat → Nat × Nat) (strerror : Errno → String)
    (before : Nat → Option Bool) (stack : Nat × Nat) (metrics : Metrics) (d : δ) (profile : String)
    (start : StartCalls) (acts : List (LayoutAct δ)) (s : Layout δ)
    (hrun : (layout anchor strerror).run (.initial before stack metrics d)
      (.page (.wtBootstrap profile start) :: acts) = some s) : s.Synced :=
  (layout_run_inv hrun).1.synced

/-- A shell on a PTY of this process. -/
def shellCalls (master_fd slave_fd pid : Nat) : StartCalls :=
  some ({ socket := .error 0, connect := .error 0, tsfn := napi_ok },
    { posix_openpt := .ok master_fd
      fork := .ok pid
      child := { openSlave := .ok slave_fd, execv := fun _ => true }
      spawn := { openSlave := .error 0, posix_spawn := fun _ => .error 0 } })

def smallFont : Metrics := { measured := ⟨8, 18, by norm_num, by norm_num⟩ }

/-- The padding is all that the style takes away. -/
def padded (padding : Nat) (stack : Nat × Nat) : Nat × Nat := (stack.1 - 2 * padding, stack.2 - 2 * padding)

def firstLayout : List (LayoutAct Nat) :=
  [.page (.wtBootstrap "powershell" (shellCalls 3 4 100)), .call (.switched .shell), .resize (1200, 700),
    .call .created, .call .resized, .page (.createTab "khsl" (shellCalls 4 5 101)), .call (.frame 1), .call (.frame 1)]

theorem sizes_synced_two :
    ∃ s, (layout padded fun _ => "").run (.initial (fun _ => none) (1000, 600) smallFont 8) firstLayout = some s ∧
      s.Synced :=
  ⟨_, rfl, sizes_synced padded (fun _ => "") (fun _ => none) (1000, 600) smallFont 8 "powershell"
    (shellCalls 3 4 100) firstLayout.tail _ rfl⟩

/-- When nothing is pending any more, the terminal of an active shell tab that is not squeezed to nothing has the size
that the page computes from its anchor as it is now and from the cell of the font as it is now, and its PTY has this
size. -/
theorem laidOut_at_rest (anchor : δ → Nat × Nat → Nat × Nat) (strerror : Errno → String)
    (before : Nat → Option Bool) (stack : Nat × Nat) (metrics : Metrics) (d : δ) (profile : String)
    (start : StartCalls) (acts : List (LayoutAct δ)) (s : Layout δ)
    (hrun : (layout anchor strerror).run (.initial before stack metrics d)
      (.page (.wtBootstrap profile start) :: acts) = some s)
    (hrest : s.pending = []) (t : Tab) (ht : getActiveTab s.ui.page = some t) (hkind : t.kind = .shell)
    (hw : (anchor s.decorations s.stack).1 ≠ 0) (hh : (anchor s.decorations s.stack).2 ≠ 0) :
    s.LaidOut anchor t := by
  obtain ⟨hinv, hpage⟩ := layout_run_inv hrun
  exact laidOut_of_inv hinv hpage hrest ht hkind hw hh

def restLayout : List (LayoutAct Nat) :=
  [.page (.wtBootstrap "powershell" (shellCalls 3 4 100)), .call .created, .call (.switched .shell),
    .call (.frame 1), .call (.frame 1)]

theorem laidOut_at_rest_first :
    ∃ s t, (layout padded fun _ => "").run (.initial (fun _ => none) (1000, 600) smallFont 8) restLayout = some s ∧
      getActiveTab s.ui.page = some t ∧ s.LaidOut padded t :=
  ⟨_, _, rfl, rfl, laidOut_at_rest padded (fun _ => "") (fun _ => none) (1000, 600) smallFont 8 "powershell"
    (shellCalls 3 4 100) restLayout.tail _ rfl rfl _ rfl rfl (by decide) (by decide)⟩

end Sizes

/-! ## The preferences -/

variable {Text : Type}

/-- For whatever the stores hold when the script runs and when `wtBootstrap` runs, and for any tabs, it
returns with every preference inside its domain, and with one shell tab if there was none, exactly if
the value that the loads take does not name an inherited property as its scheme and the settings are
not the only tab. -/
theorem wtBootstrap_boots_iff (J : JsonText Text) (strerror : Errno → String) (start : StartCalls)
    (c d : Channels Text) (u : Ui) :
    (∃ v, wtBootstrap J strerror d start (openPage J c u) = some v ∧ (openPage J c u).Boots v) ↔
      (∀ v ∈ (loaded J d).or (loaded J c), SchemeNotInherited v) ∧
        (u.page.tabs ≠ [] → ∃ t ∈ u.page.tabs, t.kind = .shell) := by
  have hshell : (openPage J c u).shellTabs = 0 ↔ ¬∃ t ∈ u.page.tabs, t.kind = .shell := by
    show u.page.tabs.countP (·.kind = .shell) = 0 ↔ _
    rw [List.countP_eq_zero]
    simp
  rw [← loadPrefs_inDomain_iff c d u]
  constructor
  · rintro ⟨v, hboot, hdomain, htab⟩
    have hscheme := hdomain .scheme
    rw [wtBootstrap_scheme hboot] at hscheme
    have hload := loadPrefs_inDomain_of_scheme c d u hscheme
    refine ⟨hload, fun hne => ?_⟩
    by_contra hnone
    obtain ⟨v', hboot', _, _, hsame⟩ := wtBootstrap_inDomain (w := openPage J c u) strerror start hload
    rw [hboot] at hboot'
    cases hboot'
    have hzero := hshell.mpr hnone
    have hone := htab hzero
    have hui : v.shellTabs = (openPage J c u).shellTabs :=
      congrArg (fun ui => ui.page.tabs.countP (·.kind = .shell)) (hsame hne)
    omega
  · rintro ⟨hload, htabs⟩
    obtain ⟨v, hboot, hprefs, hnil, _⟩ := wtBootstrap_inDomain (w := openPage J c u) strerror start hload
    refine ⟨v, hboot, ?_, fun hzero => ?_⟩
    · rw [hprefs]
      exact hload
    · by_cases hne : u.page.tabs = []
      · exact hnil hne
      · exact absurd (htabs hne) (hshell.mp hzero)

/-- The stores when the native one holds `{"scheme":"constructor"}`. -/
def inheritedScheme : Stores JsonText.Written where
  native := .value (.object [(js "scheme", .string (js "constructor"))])
  localStorage := .empty
  latest := .empty

/-- The theme is a function without a JSON text: `wtBootstrap` throws and no tab is opened. -/
theorem inherited_scheme_throws :
    wtBootstrap JsonText.written (fun _ => "") inheritedScheme.atPageEnd none
      (openPage JsonText.written (inheritedScheme.atLoad JsonText.written) { native := .initial fun _ => none }) =
      none := by
  rfl

/-- In every run of saves the next start loads the last one that reached a store, exactly if the native
store takes every save that `localStorage` takes, or holds nothing older. -/
theorem latest_save_loaded_iff (J : JsonText Text) (acts : List Save) :
    (saves J).Always (Stores.YieldsLatest J) (Stores.initial J) acts ↔
      (saves J).Guarded (Save.KeepsNative J) (Stores.initial J) acts := by
  apply (saves J).always_iff_guarded (I := fun _ => True) (fun _ _ _ _ _ => trivial)
  · intro s a t _ hs hstep
    exact step_yieldsLatest_iff hs hstep
  · trivial
  · exact initial_yieldsLatest

/-- The second save, with another font size, only reaches `localStorage`. -/
def olderNative : List Save :=
  [{ prefs := defaultPrefs, localWrite := true, native := .written },
    { prefs := defaultPrefs.set .fontSize (intJson 30), localWrite := true, native := .putFails }]

theorem older_copy_wins :
    ∃ t, (saves JsonText.written).run (Stores.initial JsonText.written) olderNative = some t ∧
      t.latest = JsonText.written.stringify (Prefs.toJson (defaultPrefs.set .fontSize (intJson 30))) ∧
      nextStart JsonText.written t = defaultPrefs ∧ ¬t.YieldsLatest JsonText.written := by
  refine ⟨_, rfl, rfl, ?_, fun h => ?_⟩
  · exact (nextStart_of_text defaultPrefs_normalized.readable rfl).trans
      (normalizeField_of_normalized defaultPrefs_normalized)
  have htext : defaultPrefs.toJson = Prefs.toJson (defaultPrefs.set .fontSize (intJson 30)) :=
    JsonText.Written.value.inj h.text
  have hget := congrArg (Json.get PrefKey.fontSize.name) htext
  rw [Prefs.get_toJson, Prefs.get_toJson, Prefs.set_self] at hget
  have hnumber : intJson 22 = intJson 30 := Option.some.inj hget
  have hrat : ((22 : ℤ) : ℚ) = (30 : ℤ) := Number.finite.inj (Json.number.inj hnumber)
  norm_num at hrat

/-- Normalising twice gives what normalising once gives, exactly if no name is cut right after a blank. -/
theorem normalize_idempotent_iff (o : Json) :
    ((normalizePrefs o).bind fun p => normalizePrefs p.toJson) = normalizePrefs o ↔
      (o.isObject = true → normalizable o = true → CleanNames o) := by
  by_cases hobject : o.isObject = true
  · by_cases hnormalizable : normalizable o = true
    · have hsome : normalizePrefs o = some (normalizeField o) := by
        rw [normalizePrefs, if_pos hobject, if_pos hnormalizable]
      rw [hsome, Option.bind_some]
      refine (normalizeField_normalized_iff o).trans ?_
      exact ⟨fun h _ _ => h, fun h => h hobject hnormalizable⟩
    · have hnone : normalizePrefs o = none := by
        rw [normalizePrefs, if_pos hobject, if_neg hnormalizable]
      rw [hnone]
      exact iff_of_true rfl fun _ h => absurd h hnormalizable
  · have hdefault : normalizePrefs o = some defaultPrefs := by rw [normalizePrefs, if_neg hobject]
    rw [hdefault, Option.bind_some]
    exact iff_of_true defaultPrefs_normalized fun h => absurd h hobject

/-- A name of 121 units with a blank before the last. -/
def longFont : JsString := List.replicate 119 97 ++ [32, 98]

/-- The name is cut behind the blank, and the next time the blank goes too. -/
theorem long_font_not_idempotent :
    let o : Json := .object [(PrefKey.fontFamily.name, .string longFont)]
    ((normalizePrefs o).bind fun p => normalizePrefs p.toJson) ≠ normalizePrefs o := by
  intro o htwice
  have hobject : o.isObject = true := rfl
  have hnormalizable : normalizable o = true := rfl
  have hsome : normalizePrefs o = some (normalizeField o) := by
    rw [normalizePrefs, if_pos hobject, if_pos hnormalizable]
  rw [hsome, Option.bind_some] at htwice
  have hclean := ((normalizeField_normalized_iff o).mp htwice).1 longFont rfl
  have hends : NoBlankEnds longFont := by
    constructor
    · rintro _ ⟨⟩
      rfl
    · rintro _ ⟨⟩
      rfl
  have htrim : trim longFont = longFont := hends.trim_eq
  rw [CleanCut, htrim] at hclean
  exact absurd (hclean (by simp [longFont]) 32 rfl) (by decide)

/-! ## The window behind the page -/

/-- Whatever text is stored, the window agrees with the page if and only if a light scheme in the text is
`lightcream` exactly when the text can be normalised. -/
theorem shell_follows_page_iff {Text : Type} (J : JsonText Text) (c : Channels Text) :
    ShellFollowsPage J c ↔ SchemeReadAlike J c := by
  have hcream : js "lightcream" ∈ lightUiSchemes := by decide
  unfold ShellFollowsPage SchemeReadAlike
  rw [shell_light_iff, page_light_iff, loaded]
  cases hempty : J.isEmpty (rawPrefs J c) with
  | true => simp
  | false =>
      cases hparse : J.parse (rawPrefs J c) with
      | none => simp
      | some v =>
          simp only [true_and, Option.some.injEq, exists_eq_left', Bool.false_eq_true, if_false,
            Option.filter_some, Option.ite_none_right_eq_some]
          constructor
          · intro hfollows w s _ hw hs hlight
            cases hw
            constructor
            · rintro rfl
              obtain ⟨_, ⟨hnormal, _⟩, _⟩ := hfollows.mp hs
              exact hnormal
            · intro hnormal
              have hshell := hfollows.mpr ⟨v, ⟨hnormal, rfl⟩, s, hlight, hs⟩
              rw [hs] at hshell
              exact Json.string.inj (Option.some.inj hshell)
          · intro halike
            constructor
            · intro hs
              exact ⟨v, ⟨(halike v _ trivial rfl hs hcream).mp rfl, rfl⟩, _, hcream, hs⟩
            · rintro ⟨w, ⟨hnormal, hw⟩, s, hlight, hs⟩
              cases hw
              rw [hs, (halike v s trivial rfl hs hlight).mpr hnormal]

def storedScheme (scheme : String) : Channels JsonText.Written where
  injected := .empty
  native := .value (.object [(PrefKey.scheme.name, .string (js scheme))])
  localStorage := .empty

/-- The page becomes light, the window stays dark. -/
theorem shell_stays_dark :
    let c := storedScheme "onehalf_light"
    shellColorFromJson JsonText.written (rawPrefs JsonText.written c) = SHELL_DARK ∧
      appChromeScheme (loadPrefs JsonText.written c defaultPrefs) = "lightcream" ∧
      ¬ ShellFollowsPage JsonText.written c := by
  have hpage : appChromeScheme (loadPrefs JsonText.written (storedScheme "onehalf_light") defaultPrefs) =
      "lightcream" := by
    rw [page_light_iff]
    exact ⟨_, rfl, js "onehalf_light", by decide, rfl⟩
  refine ⟨by decide, hpage, fun h => ?_⟩
  exact absurd (h.mpr hpage) (by decide)

/-! ## The editor of the new-tab menu -/

/-- Whatever was stored, after every sequence of operations on rows of the list as it was last drawn the
stored list is sound, and every further operation does to it what it should. -/
theorem menu_editor_sound (stored : Json) (p : Prefs) (hload : normalizePrefs stored = some p)
    (ops : List MenuOp) (e : MenuEditor) (hrun : menuEditor.run (.opened p) ops = some e) :
    e.Sound ∧ ∀ op e', menuEditor.step e op = some e' → Edits op e.drawn e'.drawn := by
  have hinv : e.Inv := by
    refine menuEditor.run_invariant (I := MenuEditor.Inv) ?_ (opened_inv hload) hrun
    exact fun e op e' h hstep => (step_edits h hstep).2
  exact ⟨hinv.sound, fun op e' hstep => (step_edits hinv hstep).1⟩

theorem menu_editor_folder :
    ∃ e, menuEditor.run (.opened defaultPrefs) [.addFolder (js " a "), .down 0] = some e ∧ e.Sound ∧
      ∀ op e', menuEditor.step e op = some e' → Edits op e.drawn e'.drawn :=
  ⟨_, rfl, menu_editor_sound .null defaultPrefs rfl [.addFolder (js " a "), .down 0] _ rfl⟩

/-! ## Copying and pasting -/

/-- For every shell tab, whatever text the clipboard has: Ctrl+V does what typing the text would do, trimmed
when the preference says so, exactly if the tab is live, the text can be read and no line of it is to be
trimmed, or there is nothing to deliver. -/
theorem paste_as_typed_iff (api : ClipboardApi) (p : Prefs) (tab : InputTab) (text : JsString) :
    PastesAsTyped api p tab text ↔ PasteFits api p tab text := by
  unfold PasteFits
  cases h : tab.localEcho with
  | true =>
      rw [echo_pastesAsTyped_iff h, if_pos rfl, sentText]
      cases api.readText <;> cases tab.terminalProxy <;> simp
  | false =>
      have hproxy : tab.terminalProxy = true := tab.live (tab.session_of_live h)
      rw [live_pastesAsTyped_iff h, if_neg Bool.false_ne_true, sentText, hproxy, Bool.and_true]
      cases api.readText with
      | true => exact eq_comm.trans (pastedText_eq_self_iff text)
      | false => exact eq_comm

def liveTab : InputTab where
  sessionId := 1
  localEcho := false
  terminalProxy := true
  echoes := rfl
  live _ := rfl

/-- The tab whose start failed. -/
def echoTab : InputTab where
  sessionId := -1
  localEcho := true
  terminalProxy := true
  echoes := rfl
  live _ := rfl

/-- With the default preferences the blank is written too; and without a session the text goes to one that
is not there, for which `WritePty` writes nothing. -/
theorem paste_keeps_blank_and_is_lost :
    (ctrlV {} liveTab (js "ls ") = [.writeToPty (js "ls ") 1] ∧
      onData liveTab (pastedText defaultPrefs (js "ls ")) = [.writeToPty (js "ls") 1] ∧
      ¬ PastesAsTyped {} defaultPrefs liveTab (js "ls ")) ∧
    (ctrlV {} echoTab (js "ls") = [.writeToPty (js "ls") (-1)] ∧ writePty {} [0x6c, 0x73] (-1) = [] ∧
      onData echoTab (pastedText defaultPrefs (js "ls")) = [.termWriteChunk (js "ls")] ∧
      ¬ PastesAsTyped {} defaultPrefs echoTab (js "ls")) := by
  refine ⟨⟨by decide, by decide, fun h => ?_⟩, ⟨by decide, by decide, by decide, fun h => ?_⟩⟩
  · exact absurd (h (.session 1)) (by decide)
  · exact absurd (h .echo) (by decide)

/-! ## Texts in scripts and in HTML -/

/-- Whatever a shell writes and whatever the store has as the preferences: the program that the page is given
is read as the calls that are meant, with the whole text as the argument. -/
theorem script_reads (c : FromNative) : readProgram (script c).length (script c) = some c.meant := by
  obtain ⟨fuel, hlength⟩ := Nat.exists_eq_add_of_le' (length_script c)
  rw [hlength]
  exact readProgram_script c fuel

/-- The fragment that a copy puts on the clipboard shows the copied text exactly if this does not begin with a
line feed and has no carriage return and no 0 in it. -/
theorem fragment_shows_iff (plain : JsString) :
    readFragment (clipboardFragmentHtmlFromPlain plain) = some plain ↔
      plain.head? ≠ some 10 ∧ 13 ∉ plain ∧ 0 ∉ plain := by
  rw [readFragment_html, Option.some_inj]
  constructor
  · intro h
    have hcr : 13 ∉ plain := by
      rw [← h]
      exact not_mem_filter_dropLineFeed (not_mem_normalizeNewlines plain)
    rw [normalizeNewlines_eq hcr] at h
    obtain ⟨hlf, hzero⟩ := filter_dropLineFeed_eq.mp h
    exact ⟨hlf, hcr, hzero⟩
  · rintro ⟨hlf, hcr, hzero⟩
    rw [normalizeNewlines_eq hcr]
    exact filter_dropLineFeed_eq.mpr ⟨hlf, hzero⟩

/-! ## Following the output -/

/-- In every run in which the user scrolls away from the bottom calmly and xterm does not move the
viewport of a user who reads to the bottom, no output calls `scheduleScrollToBottom` while the user reads.
After every action that is not calm, output can do so, with nothing that the user does in between. -/
theorem reading_not_pulled (scrollOn : Bool) (baseY viewportY : Int) (scheduled : Bool)
    (acts : List ScrollAct) :
    ((scroll scrollOn).Guarded (fun s a => a.Calm scrollOn s) (.opened baseY viewportY scheduled) acts →
      (scroll scrollOn).Always (fun s => s.pulled = false) (.opened baseY viewportY scheduled) acts) ∧
    ∀ s a s', ¬ a.Calm scrollOn s → (scroll scrollOn).step s a = some s' →
      ∃ later t, (∀ b ∈ later, b.isOutput = true) ∧ (scroll scrollOn).run s' later = some t ∧ t.pulled = true := by
  constructor
  · exact (scroll scrollOn).always_of_guarded (I := Scroll.Steady scrollOn) (fun _ _ _ => step_steady)
      (fun _ hs => hs.pulled) (opened_steady baseY viewportY scheduled)
  · exact fun _ _ _ => not_calm_pulls

/-- The user scrolls up and reads while a line is written. -/
theorem reading_not_pulled_line :
    (scroll true).Always (fun s => s.pulled = false) (.opened 100 100 false)
      [.userScroll 50, .chunk, .parsed 101 50, .written] := by
  apply (reading_not_pulled true 100 100 false _).1
  simp only [Machine.guarded_cons]
  rintro _ ⟨⟩
  refine ⟨fun _ _ => by decide, ?_⟩
  rintro _ ⟨⟩
  refine ⟨trivial, ?_⟩
  rintro _ ⟨⟩
  refine ⟨fun _ _ => by decide, ?_⟩
  exact fun _ _ => ⟨trivial, Machine.guarded_nil _⟩

/-- The user scrolls up while a line that was written at the bottom is unfinished. -/
theorem reading_pulled_by_pending_write :
    ∃ s, (scroll true).run (.opened 100 100 false) [.chunk, .userScroll 50] = some s ∧ s.reading = true ∧
      ¬ (scroll true).Always (fun s => s.pulled = false) s [.written] := by
  refine ⟨_, rfl, rfl, fun h => ?_⟩
  cases h [.written] _ List.prefix_rfl rfl

/-! ## The scroll bar -/

/-- For a viewport with something to scroll, wherever it is scrolled: the thumb is drawn inside the track
and follows the pointer that drags it, exactly if the height that is computed for it is at least the
minimum of the style sheet. -/
theorem thumb_follows_iff (scrollHeight clientHeight scrollTop track : ℚ) (hclient : 0 < clientHeight)
    (hscroll : clientHeight < scrollHeight) (hlow : 0 ≤ scrollTop)
    (hhigh : scrollTop ≤ scrollHeight - clientHeight) (htrack : 100 ≤ track) :
    (syncThumb { scrollHeight, clientHeight, scrollTop, track }).Follows ↔
      79 / 2 ≤ clientHeight / scrollHeight * track ∧ 114 ≤ track := by
  have hbar : Bar.Scrollable { scrollHeight, clientHeight, scrollTop, track } := ⟨hclient, hscroll, htrack⟩
  rw [← minHeight_le_thumbH_iff (b := { scrollHeight, clientHeight, scrollTop, track })]
  constructor
  · intro hfollows
    exact minHeight_of_follows hbar rfl hlow hfollows
  · intro hthumb
    rw [← hbar.maxScroll_eq] at hhigh
    exact follows_of_minHeight hbar rfl hthumb hlow hhigh

theorem thumb_follows_short :
    (syncThumb { scrollHeight := 1000, clientHeight := 500, scrollTop := 100, track := 500 }).Follows :=
  (thumb_follows_iff 1000 500 100 500 (by norm_num) (by norm_num) (by norm_num) (by norm_num)
    (by norm_num)).mpr ⟨by norm_num, by norm_num⟩

def longBar (scrollTop : ℚ) : Bar :=
  syncThumb { scrollHeight := 14000, clientHeight := 500, scrollTop, track := 500 }

/-- With many lines, the thumb is drawn 12 pixels past the end of the track when they are scrolled to
their end, and a drag by 115 pixels from their beginning moves it by 118. -/
theorem thumb_past_track :
    (longBar 13500).thumb.top + (longBar 13500).thumb.offsetHeight = (longBar 13500).track + 12 ∧
    (longBar 0).thumb.top = 0 ∧ (dragThumb (longBar 0) 0 [115]).thumb.top = 118 ∧
    ¬ (longBar 13500).Follows ∧ ¬ (longBar 0).Follows := by
  have hend : (longBar 13500).thumb.top + (longBar 13500).thumb.offsetHeight = (longBar 13500).track + 12 := by
    decide +kernel
  have hdrag : (dragThumb (longBar 0) 0 ([] ++ [0 + 115])).thumb.top = 118 := by decide +kernel
  have hroom : max 0 (min ((longBar 0).track - (longBar 0).thumb.offsetHeight) ((longBar 0).thumb.top + 115)) =
      115 := by decide +kernel
  refine ⟨hend, by decide +kernel, ?_, ?_, ?_⟩
  · rw [← hdrag, List.nil_append, zero_add]
  · intro h
    have hinside := h.fits.inside.2
    rw [hend] at hinside
    linarith
  · intro h
    have hfollows := h.top_dragged 0 [] 115
    rw [hdrag, hroom] at hfollows
    norm_num at hfollows

end Kworker.Terminal
