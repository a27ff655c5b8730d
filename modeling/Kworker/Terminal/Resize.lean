import Mathlib.Data.Rat.Floor
import Kworker.Terminal.Tabs

/-!
# The sizes of the terminals and of their PTYs

`layoutTermForTab` of `terminal-app.js`, all that calls it, now or from a timer or an animation frame, and
`ResizePty` of `napi_init.cpp`. Pixels and cells are exact.
-/

namespace Kworker.Terminal

open Kworker.Lib

/-! ## Cells -/

structure Cell where
  width : ℚ
  height : ℚ
  width_pos : 0 < width
  height_pos : 0 < height

/-- `measured` is what `__wtMeasureXtermCellPx` estimates from the font of the preferences, not the cell that the
terminal draws. `core` is the `_core.cell` of the terminal; the xterm.js of the repository has none. -/
structure Metrics where
  measured : Cell
  core : Option Cell := none

/-- The columns and rows for an area. -/
def grid (w h : Nat) (c : Cell) : Nat × Nat := (max 2 (w / c.width).floor.toNat, max 1 (h / c.height).floor.toNat)

/-! ## The native side -/

/-- The `unsigned short` fields of a `struct winsize`. -/
def winsizeFields (g : Nat × Nat) : Nat × Nat := (g.1 % 65536, g.2 % 65536)

/-- `ResizePty`; the signal that follows is left out. -/
def resizePty (g : Globals) (size : Nat × Nat) (session_id : Int) (winsize : Int → Nat × Nat) : Int → Nat × Nat :=
  match findSession g session_id with
  | none => winsize
  | some s =>
      if s.master_fd < 0 then winsize
      -- the daemon does not relay changes of the window
      else if s.daemon_mode then winsize
      else Function.update winsize session_id (winsizeFields size)

/-! ## The page -/

/-- What waits to be called. -/
inductive Callback where
  /-- the listener of `resize`, or the observer of the stack -/
  | resized
  /-- the timer of `switchTab`, with the kind of its tab -/
  | switched (kind : TabKind)
  /-- the timer of `createTab` -/
  | created
  /-- `__wtGeomDebounceTimer` -/
  | debounced
  /-- the animation frames that `layoutTermForTab` asks for -/
  | frame (key : Nat)
  deriving DecidableEq, Repr

/-- `δ` is what `__wtApplyPaneDecorations` sets of the style of the panes. `size` holds `cols` and `rows` of the
terminal of each tab, `winsize` the size of the PTY of each session, `stack` the size of `#terminal-stack`. -/
structure Layout (δ : Type) where
  ui : Ui
  size : Nat → Nat × Nat := fun _ => (80, 24)
  winsize : Int → Nat × Nat := fun _ => (0, 0)
  stack : Nat × Nat
  metrics : Metrics
  decorations : δ
  pending : List Callback := []

section

variable {δ : Type}

/-- The preferences are loaded, and there is no tab. -/
def Layout.initial (before : Nat → Option Bool) (stack : Nat × Nat) (metrics : Metrics) (decorations : δ) :
    Layout δ where
  ui := { native := .initial before }
  stack
  metrics
  decorations

/-- The client size of the anchor; `anchor` is what the style makes of it. A hidden pane has none. -/
def Layout.client (anchor : δ → Nat × Nat → Nat × Nat) (s : Layout δ) (t : Tab) : Nat × Nat :=
  if t.visible then anchor s.decorations s.stack else (0, 0)

/-- The terminal and its PTY. -/
def Layout.resize (s : Layout δ) (t : Tab) (size : Nat × Nat) : Layout δ :=
  { s with
    size := Function.update s.size t.key size
    winsize := if !t.localEcho && t.sessionId ≥ 0 then
        resizePty s.ui.native.globals size t.sessionId s.winsize
      else s.winsize }

variable (anchor : δ → Nat × Nat → Nat × Nat)

def layoutTermForTab (t : Tab) (s : Layout δ) : Layout δ :=
  let (w, h) := s.client anchor t
  -- a settings tab has no `term`
  if t.kind = .settings ∨ w = 0 ∨ h = 0 then s
  else
    let size := grid w h s.metrics.measured
    -- the second `resize`, before that of the PTY
    let size := match s.metrics.core with
      | some c => grid w h c
      | none => size
    let s := s.resize t size
    { s with pending := s.pending ++ [.frame t.key] }

def layoutTerm (s : Layout δ) : Layout δ :=
  match getActiveTab s.ui.page with
  | some t => layoutTermForTab anchor t s
  | none => s

/-- `__wtScheduleLayoutAfterViewportOrIme` -/
def Layout.schedule (s : Layout δ) : Layout δ :=
  { s with pending := s.pending.filter (· ≠ .debounced) ++ [.debounced] }

/-- The inner of the two frames; a pane that was removed has no size. -/
def Layout.frame (key : Nat) (s : Layout δ) : Layout δ :=
  match s.ui.page.tabs.find? (·.key = key) with
  | none => s
  | some t =>
      let (w, h) := s.client anchor t
      if w = 0 ∨ h = 0 then s
      else
        match s.metrics.core with
        | none => s
        | some c => if grid w h c = s.size key then s else s.resize t (grid w h c)

def Layout.call (s : Layout δ) : Callback → Layout δ
  | .resized => (layoutTerm anchor s).schedule
  | .switched kind => if kind = .shell then layoutTerm anchor s else s
  | .created => layoutTerm anchor s
  | .debounced => layoutTerm anchor s
  | .frame key => s.frame anchor key

/-- The timer that `switchTab` starts. -/
def switchTimer (p : Page) : List Callback :=
  match getActiveTab p with
  | some a => [.switched a.kind]
  | none => []

/-- A step of the page, with the timers that it starts. A new terminal has the size of the defaults, and a new
PTY has none. -/
def Layout.page (s : Layout δ) (a : UiAct) (ui : Ui) : Layout δ :=
  match a with
  | .wtBootstrap _ _ | .createTab _ _ => { s with
      ui
      size := Function.update s.size (s.ui.page.nextTabKey + 1) (80, 24)
      winsize := Function.update s.winsize s.ui.native.globals.g_next_session_id (0, 0)
      pending := s.pending ++ switchTimer ui.page ++ [.created] }
  | .openOrFocusSettingsTab | .switchTab _ => { s with ui, pending := s.pending ++ switchTimer ui.page }
  | .removeTab key => { s with
      ui
      pending := s.pending ++
        if s.ui.page.activeTabKey = some key ∧ ui.page.tabs.length < s.ui.page.tabs.length then
          switchTimer ui.page
        else [] }
  | .setNewTabPosition _ | .output _ _ => { s with ui }

inductive LayoutAct (δ : Type) where
  | page (a : UiAct)
  | resize (stack : Nat × Nat)
  /-- an event of the visual viewport, or of the input method -/
  | viewport
  | applyPrefs (metrics : Metrics) (decorations : δ)
  /-- a timer, an observer or a frame is called -/
  | call (c : Callback)

variable [DecidableEq δ]

/-- The fields of the decorations are on the settings tab, so that they do not change while another tab is
active; the page is loaded once. Timers are called in any order. -/
def layoutStep (strerror : Posix.Errno → String) (s : Layout δ) : LayoutAct δ → Option (Layout δ)
  | .page a =>
      match a with
      | .wtBootstrap profile start =>
          if s.ui.page.tabs = [] then
            (uiStep strerror s.ui (.wtBootstrap profile start)).map (s.page (.wtBootstrap profile start))
          else none
      | a => (uiStep strerror s.ui a).map (s.page a)
  | .resize stack => some { s with stack, pending := s.pending ++ [.resized] }
  | .viewport => some s.schedule
  | .applyPrefs metrics decorations =>
      if decorations = s.decorations ∨ (getActiveTab s.ui.page).any (·.kind = .settings) then
        let s := s.ui.page.tabs.foldl (fun s t => layoutTermForTab anchor t s) { s with metrics }
        some { s with decorations }
      else none
  | .call c => if c ∈ s.pending then some ({ s with pending := s.pending.erase c }.call anchor c) else none

def layout (strerror : Posix.Errno → String) : Machine (Layout δ) (LayoutAct δ) := ⟨layoutStep anchor strerror⟩

/-! ## What should hold -/

/-- The cell that the page computes with: without a `_core.cell` its own estimate. -/
def Metrics.cell (m : Metrics) : Cell := m.core.getD m.measured

/-- A session on a PTY of this process that `t` shows. -/
def Layout.Local (s : Layout δ) (t : Tab) : Prop :=
  t.localEcho = false ∧ ∃ session, findSession s.ui.native.globals t.sessionId = some session ∧
    session.daemon_mode = false

/-- The PTY of a session has the size of its terminal, once that was laid out; a session of the daemon is
never given a size. -/
structure Layout.Synced (s : Layout δ) : Prop where
  onPty : ∀ t ∈ s.ui.page.tabs, s.Local t →
    s.winsize t.sessionId = winsizeFields (s.size t.key) ∨
      s.winsize t.sessionId = (0, 0) ∧ s.size t.key = (80, 24)
  daemon : ∀ id session, findSession s.ui.native.globals id = some session → session.daemon_mode = true →
    s.winsize id = (0, 0)

/-- The terminal of `t` has the size that the page computes from the current anchor and the current cell, and its PTY
has the same. -/
structure Layout.LaidOut (s : Layout δ) (t : Tab) : Prop where
  size : s.size t.key = grid (anchor s.decorations s.stack).1 (anchor s.decorations s.stack).2 s.metrics.cell
  winsize : s.Local t → s.winsize t.sessionId = winsizeFields (s.size t.key)

end

end Kworker.Terminal
