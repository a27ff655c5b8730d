import Kworker.Terminal.Load

/-!
# The settings panel

The handlers of `initSettingsPanelInRoot` and of Ctrl and the wheel in `terminal-app.js`, as far as
they change `window.__wtPrefs`. Select elements hand over one of their options in `index.html`.
-/

namespace Kworker.Terminal

open Kworker.Lib

/-! ## Fields that are changed alike -/

/-- The fields of the buttons that are switched on and off. -/
def toggles : List PrefKey :=
  [.bootOnStart, .autoScroll, .autoCopySelection, .rectCopyTrimTrailing, .pasteTrimTrailing,
    .snapWindowToCharGrid, .focusPaneOnHover, .ctrlScrollFontSize, .ctrlShiftScrollOpacity, .detectUrls,
    .experimentalSelectionColorKeys, .alwaysShowTabs, .showTabsInFullscreen, .tabRowAcrylic,
    .useActiveTitleForAppTitle, .alwaysOnTop, .paneAnimations, .notifyAreaIcon, .notifyHideWhenMinimized,
    .autoHideWindow, .disablePartialSwapChain, .softwareRenderingWarp, .allowBackgroundRun, .defaultElevate,
    .terminalCustomGlyphs, .colorEmoji, .retroTerminalEffect, .useAcrylic]

/-- The values that a handler lets through, and the one it takes for any other. -/
def choice : PrefKey → Option (List JsString × JsString)
  | .textMeasurementMode => some ([js "wcswidth", js "wincon"], js "grapheme")
  | .defaultStartingDirectoryMode => some ([js "custom"], js "inherit")
  | .defaultTabTitleMode => some ([js "profileName"], js "none")
  | .adjustIndistinguishableColors => some ([js "indexed", js "always"], js "never")
  | .cursorStyle => some ([js "block", js "underline"], js "bar")
  | .intenseTextStyle => some ([js "bold", js "all", js "none"], js "bright")
  | .terminalScrollbarMode => some ([js "hidden"], js "visible")
  | .tabSwitchStyle => some ([js "mru"], js "order")
  | .newTabPosition => some ([js "first", js "after_current"], js "last")
  | .tabWidth => some ([js "compact"], js "equal")
  | .graphicsApi => some ([js "d3d11", js "d2d"], js "auto")
  | _ => none

/-- The options of the elements whose value is taken as it is. -/
def selectOptions : PrefKey → List JsString
  | .defaultNewTabProfile => [js "daemon", js "powershell", js "khsl"]
  | .fontWeight => [js "normal", js "bold", js "100", js "400", js "600", js "700"]
  | .backgroundImageStretch => [js "uniformToFill", js "uniform", js "fill", js "none"]
  | .backgroundImageAlignment =>
      [js "center", js "top", js "bottom", js "left", js "right", js "topLeft", js "topRight",
        js "bottomLeft", js "bottomRight"]
  | _ => []

/-- How long a text may be that is only cut. -/
def textLimit : PrefKey → Option Nat
  | .defaultStartingDirectory => some 500
  | .defaultProfileIcon => some 256
  | .searchWebUrl => some 2000
  | .backgroundImagePath => some 2000
  | .terminalPadding => some 64
  | _ => none

/-- The least value of an opacity. -/
def opacityMin : PrefKey → Option ℤ
  | .backgroundImageOpacity => some 0
  | .terminalBgOpacity => some 10
  | _ => none

/-! ## Numbers -/

def clampFontSize (v : Option Json) : ℤ :=
  match v.bind Json.parseInt with
  | some n => n.clamp 8 36
  | none => 22

def numberJson : Number ℤ → Json
  | .finite z => intJson z
  | .infinity negative => .number (.infinity negative)

/-! ## The menu -/

def menuItems (p : Prefs) : List MenuItem := normalizeNewTabMenuItems (some (p .newTabMenuItems))

/-- `__wtRenderNewTabMenuList` -/
def renderMenu (p : Prefs) : Prefs := p.set .newTabMenuItems (menuJson (menuItems p))

/-- The entries at `i` and `i + 1` change places. -/
def swapNext {α : Type} (i : Nat) (items : List α) : List α :=
  match items[i]?, items[i + 1]? with
  | some a, some b => (items.set i b).set (i + 1) a
  | _, _ => items

def insertBeforeRemaining (item : MenuItem) (items : List MenuItem) : List MenuItem :=
  items.insertIdx (items.findIdx (· = .remaining)) item

/-- The list is normalised, stored and drawn. -/
def storeMenu (items : List MenuItem) (p : Prefs) : Prefs :=
  renderMenu (p.set .newTabMenuItems (menuJson (normalizeNewTabMenuItems (some (menuJson items)))))

def folderName (value : JsString) : JsString :=
  clampStr (if trim value = [] then js "新建文件夹" else trim value) 64

/-! ## The handlers -/

inductive FieldAct where
  | toggle (k : PrefKey) (on : Bool)
  | choose (k : PrefKey) (value : JsString)
  | select (k : PrefKey) (value : JsString)
  | text (k : PrefKey) (value : JsString)
  | opacity (k : PrefKey) (value : JsString)
  | wordSeparators (value : JsString)
  | fontFamily (value : JsString)
  | cursorColor (value : JsString)
  | fontSizeInput (value : JsString)
  | fontSizeSelect (value : JsString)
  | lineHeight (value : JsString)
  | letterSpacing (value : JsString)
  | startupMode (value : JsString)
  | copyFormat (value : JsString)
  | scheme (sid : JsString)
  | appTheme (value : JsString)
  | generator (g : Generator) (on : Bool)
  | menuUp (row : Nat)
  | menuDown (row : Nat)
  | menuDelete (row : Nat)
  | addProfile (profile : Profile)
  | addSeparator
  | addFolder (value : JsString)
  | ctrlWheel (up : Bool)

/-- The preferences as far as `syncSettingsDomFromPrefs` changes them. -/
def syncPrefs (p : Prefs) : Prefs :=
  renderMenu (p.set .extensionGenerators
    (generatorsJson (normalizeExtensionGenerators (some (p .extensionGenerators)))))

/-- `none` when the panel has no such element. -/
def change (p : Prefs) : FieldAct → Option Prefs
  | .toggle k on => if k ∈ toggles then some (p.set k (.bool on)) else none
  | .choose k value =>
      (choice k).map fun (options, d) => p.set k (.string (if value ∈ options then value else d))
  | .select k value => if value ∈ selectOptions k then some (p.set k (.string value)) else none
  | .text k value => (textLimit k).map fun maxLen => p.set k (.string (clampStr value maxLen))
  | .opacity k value =>
      (opacityMin k).map fun lo =>
        match parseIntText value with
        | some n => p.set k (intJson (n.clamp lo 100))
        | none => p
  | .wordSeparators value =>
      some (p.set .wordSeparators
        (.string (if value ≠ [] then clampStr value 500 else defaultWordSeparators)))
  | .fontFamily value => some (p.set .fontFamily (.string (clampStr (trim value) 120)))
  | .cursorColor value =>
      some (p.set .cursorColorOverride (.string (if isHexColor (trim value) then trim value else [])))
  | .fontSizeInput value =>
      some (syncPrefs (p.set .fontSize (intJson (clampFontSize ((parseIntText value).map numberJson)))))
  | .fontSizeSelect value =>
      match parseIntText value with
      | some n => some (p.set .fontSize (intJson (clampFontSize (some (numberJson n)))))
      | none => some p
  | .lineHeight value =>
      some (p.set .terminalLineHeight (.number (.finite
        (match parseFloatText value with
          | some n => n.clamp 1 3
          | none => 6 / 5))))
  | .letterSpacing value =>
      some (p.set .terminalLetterSpacing (.number (.finite
        (match parseFloatText value with
          | some n => n.clamp (-2) 8
          | none => 3 / 10))))
  | .startupMode value =>
      some (p.set .startupModeIndex (intJson (if parseIntText value = some (.finite 1) then 1 else 0)))
  | .copyFormat value =>
      let v := if value = js "html" then js "html" else js "plain"
      some ((p.set .copyFormat (.string v)).set .copyAsHtml (.bool (v = js "html")))
  | .scheme sid => if (THEME_PRESETS sid).isSome then some (p.set .scheme (.string sid)) else some p
  | .appTheme value =>
      some (p.set .scheme (.string (if value = js "lightcream" then js "lightcream" else js "dark")))
  | .generator g on =>
      let r := normalizeExtensionGenerators (some (p .extensionGenerators))
      some (p.set .extensionGenerators (generatorsJson fun h => if h = g then on else r h))
  | .menuUp row =>
      if 0 < row ∧ row < (menuItems p).length then
        some (renderMenu (p.set .newTabMenuItems (menuJson (swapNext (row - 1) (menuItems p)))))
      else none
  | .menuDown row =>
      if row + 1 < (menuItems p).length then
        some (renderMenu (p.set .newTabMenuItems (menuJson (swapNext row (menuItems p)))))
      else none
  | .menuDelete row =>
      match (menuItems p)[row]? with
      | none => none
      | some .remaining => none
      | some _ => some (storeMenu ((menuItems p).eraseIdx row) p)
  | .addProfile profile => some (storeMenu (insertBeforeRemaining (.profile profile) (menuItems p)) p)
  | .addSeparator => some (storeMenu (insertBeforeRemaining .separator (menuItems p)) p)
  | .addFolder value => some (storeMenu (insertBeforeRemaining (.folder (folderName value)) (menuItems p)) p)
  | .ctrlWheel up =>
      match p .ctrlScrollFontSize with
      | .bool true =>
          let fs0 := clampFontSize (some (p .fontSize))
          some (applyChromeTypography
            (p.set .fontSize (intJson (if up then min 36 (fs0 + 1) else max 8 (fs0 - 1)))))
      | _ => some p

/-- `marked` records the preferences that were in effect when the panel was opened or last saved or
reset. -/
structure Panel (Text : Type) where
  prefs : Prefs
  prefsSnapshot : Text
  marked : Prefs
  stores : Stores Text

inductive PanelAct where
  | field (a : FieldAct)
  | save (localWrite : Bool) (native : NativeWrite)
  | discard
  | reset (localWrite : Bool) (native : NativeWrite)

variable {Text : Type} (J : JsonText Text)

def prefsSnapshotSerialize (p : Prefs) : Text := J.stringify ((normalizePrefs p.toJson).getD p).toJson

def discard (s : Panel Text) : Panel Text :=
  match (J.parse s.prefsSnapshot).bind normalizePrefs with
  | some n => { s with prefs := applyChromeTypography (syncPrefs n) }
  | none => s

def save (localWrite : Bool) (native : NativeWrite) (s : Panel Text) : Panel Text :=
  { s with
    prefsSnapshot := prefsSnapshotSerialize J s.prefs
    marked := s.prefs
    stores := savePrefs J s.prefs localWrite native s.stores }

/-- `__wtResetPrefsToFactory`, and the handler of its button. -/
def reset (localWrite : Bool) (native : NativeWrite) (s : Panel Text) : Panel Text :=
  let p := applyChromeTypography defaultPrefs
  { prefs := syncPrefs p
    prefsSnapshot := prefsSnapshotSerialize J p
    marked := p
    stores := savePrefs J defaultPrefs localWrite native s.stores }

/-- A font's name is not blank and, when it is longer than 120 units, not cut after a blank. -/
def PanelAct.Fits : PanelAct → Prop
  | .field (.fontFamily value) => trim value ≠ [] ∧ NoBlankEnds ((trim value).take 120)
  | _ => True

end Kworker.Terminal
