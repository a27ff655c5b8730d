import Kworker.Lib.Siblings
import Kworker.Terminal.Pty

/-!
# The tabs of the page

The tab list and the tab strip of `terminal-app.js`, and the sessions that the tabs start and stop
through `TerminalProxy` of `Index.ets`. An element is named by the key of its tab.
-/

namespace Kworker.Terminal

open Kworker.Lib

/-! ## The page -/

inductive TabKind where
  | shell
  | settings
  deriving DecidableEq, Repr

structure Tab where
  key : Nat
  kind : TabKind
  profile : String := ""
  sessionId : Int := -1
  localEcho : Bool := false
  /-- `tabEl` has the class `wt-tab-active` -/
  active : Bool := false
  /-- `paneEl` has the class `wt-pane-visible` -/
  visible : Bool := false
  /-- what `termWriteChunk` was given for the tab -/
  written : List String := []
  deriving DecidableEq, Repr

/-- `strip` lists the children of `#wt-tabs-strip`; `newTabPosition` is the field of `__wtPrefs`. -/
structure Page where
  nextTabKey : Nat := 0
  tabs : List Tab := []
  strip : List Nat := []
  activeTabKey : Option Nat := none
  newTabPosition : String := "last"
  deriving DecidableEq, Repr

def getActiveTab (p : Page) : Option Tab := p.tabs.find? (some ·.key = p.activeTabKey)

def insertShellTabInStrip (p : Page) (tab : Tab) : Page :=
  if p.newTabPosition = "first" then
    { p with
      strip := match p.strip.head? with
        | some ref => insertBefore tab.key ref p.strip
        | none => p.strip ++ [tab.key]
      tabs := tab :: p.tabs }
  else if p.newTabPosition = "after_current" then
    let a := getActiveTab p
    let ai := a.bind fun a => p.tabs.findIdx? (·.key = a.key)
    { p with
      strip := match a.bind fun a => nextSibling a.key p.strip with
        | some ref => insertBefore tab.key ref p.strip
        | none => p.strip ++ [tab.key]
      tabs := match ai with
        | some i => p.tabs.insertIdx (i + 1) tab
        | none => p.tabs ++ [tab] }
  else { p with strip := p.strip ++ [tab.key], tabs := p.tabs ++ [tab] }

def switchTab (key : Nat) (p : Page) : Page :=
  { p with
    tabs := p.tabs.map fun row => { row with active := row.key = key, visible := row.key = key }
    activeTabKey := some key }

def findSettingsTab (p : Page) : Option Tab := p.tabs.find? (·.kind = .settings)

def createSettingsTab (p : Page) : Page :=
  let key := p.nextTabKey + 1
  switchTab key { p with
    nextTabKey := key
    strip := p.strip ++ [key]
    tabs := p.tabs ++ [{ key, kind := .settings }] }

def openOrFocusSettingsTab (p : Page) : Page :=
  match findSettingsTab p with
  | some existing => switchTab existing.key p
  | none => createSettingsTab p

/-- The page, and the session that is stopped. -/
def removeTab (key : Nat) (p : Page) : Page × Option Int :=
  if p.tabs.length ≤ 1 then (p, none)
  else
    match p.tabs.findIdx? (·.key = key) with
    | none => (p, none)
    | some idx =>
        let victim := p.tabs[idx]?
        let q := { p with strip := p.strip.erase key, tabs := p.tabs.eraseIdx idx }
        let stopped := (victim.filter fun t => t.kind = .shell ∧ t.sessionId ≥ 0).map (·.sessionId)
        if p.activeTabKey = some key then
          match q.tabs[idx - 1]? with
          | some fall => (switchTab fall.key q, stopped)
          | none => (q, stopped)
        else (q, stopped)

def Tab.write (data : String) (t : Tab) : Tab := { t with written := t.written ++ [data] }

/-- The loop of `writeToTerminal`. -/
def writeFirst (sessionId : Int) (data : String) : List Tab → List Tab
  | [] => []
  | t :: tabs => if t.sessionId = sessionId then t.write data :: tabs else t :: writeFirst sessionId data tabs

def writeToTerminal (sessionId : Int) (data : String) (p : Page) : Page :=
  { p with tabs := writeFirst sessionId data p.tabs }

/-! ## The page and the native module -/

/-- `started` records which tab started which session. -/
structure Ui where
  page : Page := {}
  native : Native
  started : List (Int × Nat) := []

/-- What the calls of `StartPty` return; `none` when there is no `TerminalProxy` or no controller. -/
abbrev StartCalls := Option (DaemonCalls × ShellCalls)

def setSession (key : Nat) (id : Int) (p : Page) : Page :=
  { p with
    tabs := p.tabs.map fun t => if t.key = key then { t with sessionId := id, localEcho := id < 0 } else t }

/-- `profile` is never empty: every caller falls back to a profile. -/
def createTab (strerror : Posix.Errno → String) (profile : String) (start : StartCalls) (u : Ui) : Ui :=
  let key := u.page.nextTabKey + 1
  let page := switchTab key
    (insertShellTabInStrip { u.page with nextTabKey := key } { key, kind := .shell, profile })
  match start with
  | none => { u with page := setSession key (-1) page }
  | some (d, c) =>
      let (id, native) := startPty strerror profile d c u.native
      { page := setSession key id page
        native
        started := if id ≥ 0 then (id, key) :: u.started else u.started }

inductive UiAct where
  | wtBootstrap (profile : String) (start : StartCalls)
  | createTab (profile : String) (start : StartCalls)
  | openOrFocusSettingsTab
  | switchTab (key : Nat)
  | removeTab (key : Nat)
  | setNewTabPosition (position : String)
  /-- the callback of a session, by way of `runJavaScript` -/
  | output (sessionId : Int) (data : String)

/-- Fewer than `2^31` calls of `StartPty` have been made, so that the counter does not overflow. -/
def startAllowed (profile : String) (u : Ui) : StartCalls → Bool
  | none => true
  | some (d, c) =>
      (NativeAct.startPty profile d c).allowed u.native && u.native.globals.g_next_session_id < 2147483648

def uiStep (strerror : Posix.Errno → String) (u : Ui) : UiAct → Option Ui
  | .wtBootstrap profile start =>
      if u.page.tabs.length = 0 then
        if startAllowed profile u start then some (createTab strerror profile start u) else none
      else some u
  | .createTab profile start =>
      if startAllowed profile u start then some (createTab strerror profile start u) else none
  | .openOrFocusSettingsTab => some { u with page := openOrFocusSettingsTab u.page }
  | .switchTab key =>
      if key ∈ u.page.tabs.map (·.key) then some { u with page := switchTab key u.page } else none
  | .removeTab key =>
      let (page, stopped) := removeTab key u.page
      some { u with
        page
        native := match stopped with
          | some id => stopPty (some id) u.native
          | none => u.native }
  | .setNewTabPosition position => some { u with page := { u.page with newTabPosition := position } }
  | .output sessionId data =>
      if sessionId ∈ u.started.map (·.1) then
        some { u with page := writeToTerminal sessionId data u.page }
      else none

def ui (strerror : Posix.Errno → String) : Machine Ui UiAct := ⟨uiStep strerror⟩

/-! ## What should hold of them -/

/-- The list of tabs, the active tab and the strip agree. -/
structure Page.InStep (p : Page) : Prop where
  nonempty : p.tabs ≠ []
  keys : (p.tabs.map (·.key)).Nodup
  settings : p.tabs.countP (·.kind = .settings) ≤ 1
  active : ∃! t, t ∈ p.tabs ∧ p.activeTabKey = some t.key
  classes : ∀ t ∈ p.tabs, (t.active = true ↔ p.activeTabKey = some t.key) ∧
    (t.visible = true ↔ p.activeTabKey = some t.key)
  strip : p.strip = p.tabs.map (·.key)

/-- The sessions of the native module are those of the open tabs, no id is used twice, and the output of
a session goes to the tab that started it, if that is still open, and to no other tab. -/
structure Ui.InStep (u : Ui) : Prop where
  sessions : ∀ id, id ∈ u.native.globals.g_sessions.map (·.1) ↔
    ∃ t ∈ u.page.tabs, t.kind = .shell ∧ 0 ≤ t.sessionId ∧ t.sessionId = id
  distinct : ((u.page.tabs.map (·.sessionId)).filter (0 ≤ ·)).Nodup
  never_reused : (u.started.map (·.1)).Nodup
  output : ∀ id key data, (id, key) ∈ u.started →
    (writeToTerminal id data u.page).tabs = u.page.tabs.map fun t => if t.key = key then t.write data else t

end Kworker.Terminal
