import Kworker.Terminal.Prefs
import Kworker.Terminal.Tabs

/-!
# Loading and saving the preferences

`__wtLoadPrefs`, `__wtSavePrefs` and `wtBootstrap` of `terminal-app.js`, and the preference store of
`Index.ets`.
-/

namespace Kworker.Terminal

open Kworker.Lib

variable {Text : Type} (J : JsonText Text)

/-! ## Loading -/

/-- The places where `__wtLoadPrefs` looks; an empty text stands for none. -/
structure Channels (Text : Type) where
  /-- `window.__wtInjectedPrefsJson` -/
  injected : Text
  /-- what `TerminalProxy.loadWebPrefs` returns -/
  native : Text
  localStorage : Text

def rawPrefs (c : Channels Text) : Text :=
  if J.isEmpty c.injected = false then c.injected
  else if J.isEmpty c.native = false then c.native
  else c.localStorage

/-- `__wtAssignPrefsFromObject(JSON.parse(raw))`, with the exceptions caught. -/
def assignPrefs (raw : Text) (p : Prefs) : Prefs :=
  match J.parse raw with
  | some v => (normalizePrefs v).getD p
  | none => p

def loadPrefs (c : Channels Text) (p : Prefs) : Prefs :=
  if J.isEmpty (rawPrefs J c) then p else assignPrefs J (rawPrefs J c) p

/-! ## Saving -/

/-- How `saveWebPrefs` of `Index.ets` ends. -/
inductive NativeWrite where
  | noStore
  | putFails
  | flushFails
  | written
  deriving DecidableEq, Repr

/-- `latest` records the text of the last save that reached a store. -/
structure Stores (Text : Type) where
  native : Text
  localStorage : Text
  latest : Text

def Stores.initial : Stores Text := ⟨J.empty, J.empty, J.empty⟩

def savePrefs (p : Prefs) (localWrite : Bool) (native : NativeWrite) (s : Stores Text) : Stores Text :=
  let json := J.stringify p.toJson
  { native := if native = .written then json else s.native
    localStorage := if localWrite then json else s.localStorage
    latest := if localWrite ∨ native = .written then json else s.latest }

/-- What the script finds while the page is loaded. -/
def Stores.atLoad (s : Stores Text) : Channels Text := ⟨J.empty, s.native, s.localStorage⟩

/-- What `wtBootstrap` finds after `onPageEnd` has injected the native copy. -/
def Stores.atPageEnd (s : Stores Text) : Channels Text := ⟨s.native, s.native, s.localStorage⟩

/-- The preferences after the next start. -/
def nextStart (s : Stores Text) : Prefs :=
  loadPrefs J s.atPageEnd (loadPrefs J (s.atLoad J) defaultPrefs)

structure Save where
  prefs : Prefs
  localWrite : Bool
  native : NativeWrite

def saves : Machine (Stores Text) Save :=
  ⟨fun s a => some (savePrefs J a.prefs a.localWrite a.native s)⟩

/-- The next start loads the last save that reached a store. -/
structure Stores.YieldsLatest (s : Stores Text) : Prop where
  text : rawPrefs J s.atPageEnd = s.latest
  prefs : nextStart J s = loadPrefs J ⟨s.latest, J.empty, J.empty⟩ defaultPrefs

/-- The native store takes the save, or it holds nothing that is older than what `localStorage` takes. -/
def Save.KeepsNative (s : Stores Text) (a : Save) : Prop :=
  a.native = .written ∨ a.localWrite = false ∨ J.isEmpty s.native = true ∨
    s.native = J.stringify a.prefs.toJson

/-! ## The runtime -/

def textOf : Json → JsString
  | .string s => s
  | _ => []

def nameOf (s : JsString) : String := String.ofList (s.map fun c => Char.ofNat c.toNat)

/-- The colours of a preset, none for those of an empty object, with the cursor's colour and the
opacity of the background in its place; the contrast of the selection is left out. -/
structure Theme where
  preset : Option JsString
  cursor : Option JsString
  backgroundAlpha : Option ℚ
  deriving DecidableEq

/-- `none` is the SyntaxError of `JSON.parse(undefined)`: a function has no JSON text. -/
def themeForTerminal (p : Prefs) : Option Theme :=
  let curOv := trim (textOf (p .cursorColorOverride))
  let cursor := if isHexColor curOv then some curOv else none
  let bgOp := match p .terminalBgOpacity with
    | .number (.finite q) => q
    | _ => 100
  match (THEME_PRESETS (textOf (p .scheme))).getD (.preset (js "dark")) with
  | .preset id => some ⟨some id, cursor, if bgOp < 100 then some (bgOp / 100) else none⟩
  | .objectPrototype => some ⟨none, cursor, none⟩
  | .function _ => none

/-- `theme` is that of the shell tabs. -/
structure Web where
  prefs : Prefs
  newTabProfile : JsString := js "daemon"
  theme : Option Theme := none
  ui : Ui

def applyChromeTypography (p : Prefs) : Prefs := p.set .fontSize ((check .fontSize).run (some (p .fontSize)))

def defaultProfile (p : Prefs) : JsString :=
  if textOf (p .defaultNewTabProfile) = [] then js "daemon" else textOf (p .defaultNewTabProfile)

def applyPrefsToRuntime (w : Web) : Option Web :=
  let p := applyChromeTypography w.prefs
  (themeForTerminal p).map fun theme => { w with prefs := p, newTabProfile := defaultProfile p, theme := some theme }

/-- `createTab`, with the theme that `buildTerminalOptions` asks for. -/
def createShellTab (strerror : Posix.Errno → String) (start : StartCalls) (w : Web) : Option Web :=
  (themeForTerminal w.prefs).map fun _ =>
    let position := if textOf (w.prefs .newTabPosition) = [] then "last" else nameOf (textOf (w.prefs .newTabPosition))
    let ui := { w.ui with page := { w.ui.page with newTabPosition := position } }
    { w with ui := createTab strerror (nameOf (defaultProfile w.prefs)) start ui }

def wtBootstrap (strerror : Posix.Errno → String) (c : Channels Text) (start : StartCalls) (w : Web) : Option Web :=
  (applyPrefsToRuntime { w with prefs := loadPrefs J c w.prefs }).bind fun w =>
    if w.ui.page.tabs.length = 0 then createShellTab strerror start w else some w

/-- The page once its script has run. -/
def openPage (c : Channels Text) (u : Ui) : Web where
  prefs := loadPrefs J c defaultPrefs
  ui := u

/-! ## What `wtBootstrap` should do -/

def Web.shellTabs (w : Web) : Nat := w.ui.page.tabs.countP (·.kind = .shell)

structure Web.Boots (w v : Web) : Prop where
  domain : v.prefs.InDomain
  tab : w.shellTabs = 0 → v.shellTabs = 1

/-- The value that `__wtLoadPrefs` hands on, if there is one. -/
def loaded (c : Channels Text) : Option Json :=
  if J.isEmpty (rawPrefs J c) then none else (J.parse (rawPrefs J c)).filter normalizable

/-- The scheme in a stored value is not the name of a property that every object inherits. -/
def SchemeNotInherited (v : Json) : Prop :=
  ∀ s, v.get PrefKey.scheme.name = some (.string s) → s ∉ protoName :: inheritedFunctions

end Kworker.Terminal
