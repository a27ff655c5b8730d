import Mathlib.Data.List.Defs
import Kworker.Terminal.Tabs

/-!
# Keys, buttons and the menu

What the handlers of `terminal-app.js` make of the + button, the rows of the menu, the shortcuts, the
clicks on tabs and the settings that new tabs depend on.
-/

namespace Kworker.Terminal

open Kworker.Lib

/-! ## The window -/

/-- `newTabProfile` is `window.__newTabProfile`, `defaultNewTabProfile` the field of `__wtPrefs`, and
`aboutHidden` that of `#wt-about-overlay`. -/
structure Window where
  ui : Ui
  newTabProfile : String := "daemon"
  defaultNewTabProfile : String := "daemon"
  aboutHidden : Bool := true

/-- Before anything was loaded. -/
def Window.initial (before : Nat → Option Bool) : Window := { ui := { native := .initial before } }

/-- `a || b` -/
def orElse (a b : String) : String := if a = "" then b else a

def profileForNewTabFromActive (w : Window) : String :=
  let chain := orElse w.newTabProfile (orElse w.defaultNewTabProfile "daemon")
  match getActiveTab w.ui.page with
  | some cur => if cur.kind = .shell ∧ cur.profile ≠ "" then cur.profile else chain
  | none => chain

/-! ## Shortcuts -/

/-- The element that an event is sent to. -/
structure Target where
  tagName : String
  inXterm : Bool
  isContentEditable : Bool := false
  deriving DecidableEq, Repr

/-- `none` stands for what is not an element. -/
def isFormFieldTarget : Option Target → Bool
  | none => false
  | some el =>
      if el.inXterm then false
      else if el.tagName = "INPUT" ∨ el.tagName = "TEXTAREA" ∨ el.tagName = "SELECT" then true
      else el.isContentEditable

structure KeyEvent where
  key : String
  ctrlKey : Bool := false
  shiftKey : Bool := false
  altKey : Bool := false
  target : Option Target := none
  deriving DecidableEq, Repr

/-- The calls that the handlers make. -/
inductive Call where
  | openAboutDialog
  | closeAboutDialog
  | openOrFocusSettingsTab
  | switchTab (key : Nat)
  | createTab (profile : String)
  | removeTab (key : Nat)
  deriving DecidableEq, Repr

/-- `prevented`: `preventDefault` was called. `stopped`: `stopPropagation` was called, by a listener of the capture
phase, so that the key does not come to the terminal. -/
structure Handled where
  prevented : Bool := false
  stopped : Bool := false
  call : Option Call := none
  deriving DecidableEq, Repr

/-- `ev.preventDefault(); ev.stopPropagation();` before the call. -/
def Handled.taken (call : Option Call) : Handled := { prevented := true, stopped := true, call }

def isSettingsTab (t : Option Tab) : Bool := t.any (·.kind = .settings)

/-- `((idx + (ev.shiftKey ? -1 : 1)) % n + n) % n` -/
def nextTab (idx n : Nat) (shiftKey : Bool) : Nat :=
  ((((idx : Int) + if shiftKey then -1 else 1).tmod n + n).tmod n).toNat

def profMap (key : String) : Option String :=
  if key = "1" then some "powershell"
  else if key = "2" then some "khsl"
  else if key = "3" then some "daemon"
  else none

/-- The listener that `__wtInstallGlobalShortcutCapture` adds. -/
def shortcut (w : Window) (ev : KeyEvent) : Handled :=
  let p := w.ui.page
  let actTab := getActiveTab p
  if !ev.ctrlKey || isFormFieldTarget ev.target then {}
  else if ev.key = "," ∧ !ev.shiftKey ∧ !ev.altKey then
    if isSettingsTab actTab then {} else .taken (some .openOrFocusSettingsTab)
  else if ev.key = "Tab" ∧ !ev.altKey then
    if p.tabs.length < 2 then {}
    else
      match p.tabs.findIdx? (some ·.key = p.activeTabKey) with
      | none => .taken none
      | some idx => .taken (p.tabs[nextTab idx p.tabs.length ev.shiftKey]?.map (.switchTab ·.key))
  else if !ev.shiftKey || ev.altKey then {}
  else
    -- no letter outside ASCII has one of these as its lower case
    let lk := ev.key.toList.map Char.toLower
    if lk = ['p'] then .taken (some .openAboutDialog)
    else if lk = ['t'] then
      if isSettingsTab actTab then {} else .taken (some (.createTab (profileForNewTabFromActive w)))
    else if lk = ['w'] then
      if p.tabs.length ≤ 1 then {} else .taken (p.activeTabKey.map .removeTab)
    else
      match profMap ev.key with
      | some profile => .taken (some (.createTab profile))
      | none => {}

/-- The listener that `__wtSetupAboutDialog` adds. It does not stop the key on its way. -/
def aboutKey (w : Window) (ev : KeyEvent) : Handled :=
  if ev.key = "Escape" ∧ !w.aboutHidden then { prevented := true, call := some .closeAboutDialog } else {}

/-! ## The menu -/

/-- The attributes `data-action` and `data-profile` of a row. -/
structure MenuRow where
  action : Option String := none
  profile : Option String := none
  deriving DecidableEq, Repr

/-- The rows of `#wt-dropdown` in `index.html`. -/
def menuRows : List MenuRow :=
  [{ profile := "daemon" }, { profile := "powershell" }, { profile := "khsl" }, { action := "settings" },
    { action := "about" }]

/-- The window, and the call. -/
def activateItem (row : MenuRow) (w : Window) : Window × Option Call :=
  if row.action = some "about" then (w, some .openAboutDialog)
  else if row.action = some "settings" then (w, some .openOrFocusSettingsTab)
  else
    match row.profile with
    | some pid => if pid = "" then (w, none) else ({ w with newTabProfile := pid }, some (.createTab pid))
    | none => (w, none)

/-! ## Inputs -/

/-- What the select of the default profile offers, and what a stored preference may be. -/
def profiles : List String := ["daemon", "powershell", "khsl"]

inductive Input where
  /-- with the preferences that were loaded -/
  | wtBootstrap (profile position : String) (start : StartCalls)
  | newTabButton (start : StartCalls)
  | menuItem (row : MenuRow) (start : StartCalls)
  | keydown (ev : KeyEvent) (start : StartCalls)
  | tabRow (key : Nat)
  | tabClose (key : Nat)
  /-- a click on OK or beside the dialog -/
  | aboutClick
  /-- the select of the default profile -/
  | profSel (value : String)
  /-- the select of the position of new tabs -/
  | ntpEl (value : String)
  | output (sessionId : Int) (data : String)

/-- `start` is what `StartPty` returns if the call comes to it. -/
def Call.step (strerror : Posix.Errno → String) (start : StartCalls) (w : Window) : Call → Option Window
  | .openAboutDialog => some { w with aboutHidden := false }
  | .closeAboutDialog => some { w with aboutHidden := true }
  | .openOrFocusSettingsTab => (uiStep strerror w.ui .openOrFocusSettingsTab).map ({ w with ui := · })
  | .switchTab key => (uiStep strerror w.ui (.switchTab key)).map ({ w with ui := · })
  | .createTab profile => (uiStep strerror w.ui (.createTab profile start)).map ({ w with ui := · })
  | .removeTab key => (uiStep strerror w.ui (.removeTab key)).map ({ w with ui := · })

def callStep (strerror : Posix.Errno → String) (start : StartCalls) (w : Window) : Option Call → Option Window
  | none => some w
  | some call => call.step strerror start w

def ntpValue (value : String) : String :=
  if value = "first" ∨ value = "after_current" then value else "last"

def windowStep (strerror : Posix.Errno → String) (w : Window) : Input → Option Window
  | .wtBootstrap profile position start =>
      if profile ∈ profiles then do
        let ui ← uiStep strerror w.ui (.setNewTabPosition (ntpValue position))
        let ui ← uiStep strerror ui (.wtBootstrap (orElse profile "daemon") start)
        some { w with ui, defaultNewTabProfile := profile, newTabProfile := orElse profile "daemon" }
      else none
  | .newTabButton start =>
      if isSettingsTab (getActiveTab w.ui.page) then some w
      else callStep strerror start w (some (.createTab (profileForNewTabFromActive w)))
  | .menuItem row start =>
      if row ∈ menuRows then callStep strerror start (activateItem row w).1 (activateItem row w).2 else none
  | .keydown ev start =>
      (callStep strerror start w (aboutKey w ev).call).bind fun w =>
        callStep strerror start w (shortcut w ev).call
  | .tabRow key => callStep strerror none w (some (.switchTab key))
  | .tabClose key => callStep strerror none w (some (.removeTab key))
  | .aboutClick => some { w with aboutHidden := true }
  | .profSel value =>
      if value ∈ profiles then some { w with defaultNewTabProfile := value, newTabProfile := value } else none
  | .ntpEl value => (uiStep strerror w.ui (.setNewTabPosition (ntpValue value))).map ({ w with ui := · })
  | .output sessionId data => (uiStep strerror w.ui (.output sessionId data)).map ({ w with ui := · })

def window (strerror : Posix.Errno → String) : Machine Window Input := ⟨windowStep strerror⟩

/-! ## What should hold of it -/

/-- The tabs and the sessions are in step, every shell tab has a profile of the list, and the listener of the shortcuts
keeps a key from the browser and from the terminal exactly when it makes a call. The listener of Ctrl+C and Ctrl+V,
which only calls `preventDefault`, has no part in this. -/
structure Window.InStep (w : Window) : Prop where
  page : w.ui.page.InStep
  ui : w.ui.InStep
  tabs : ∀ t ∈ w.ui.page.tabs, t.kind = .shell → t.profile ∈ profiles
  newTab : profileForNewTabFromActive w ∈ profiles
  keys : ∀ ev, (shortcut w ev).prevented = (shortcut w ev).call.isSome ∧
    (shortcut w ev).stopped = (shortcut w ev).call.isSome

/-- The tab at `i` is the active one. -/
def Window.At (w : Window) (i : Nat) : Prop :=
  ∃ t, w.ui.page.tabs[i]? = some t ∧ w.ui.page.activeTabKey = some t.key

/-- Ctrl+Tab, or Ctrl+Shift+Tab, with the focus on `target`. -/
structure TabPress where
  shiftKey : Bool := false
  target : Option Target
  deriving DecidableEq, Repr

def TabPress.input (press : TabPress) : Input :=
  .keydown { key := "Tab", ctrlKey := true, shiftKey := press.shiftKey, target := press.target } none

/-- By how many tabs the press moves on: in a form field by none. -/
def TabPress.turn (press : TabPress) : Int :=
  if isFormFieldTarget press.target then 0 else if press.shiftKey then -1 else 1

def turns : List TabPress → Int
  | [] => 0
  | press :: presses => press.turn + turns presses

/-- The window after a switch to the tab at `j`. -/
def Window.select (w : Window) (j : Nat) : Window :=
  match w.ui.page.tabs[j]? with
  | some t => { w with ui := { w.ui with page := switchTab t.key w.ui.page } }
  | none => w

end Kworker.Terminal
