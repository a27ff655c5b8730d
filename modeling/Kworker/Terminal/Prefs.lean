import Kworker.Lib.Json

/-!
# Preferences

The preferences of `terminal-app.js`: the fields of `window.__wtPrefs` and `__wtNormalizePrefs`.
-/

namespace Kworker.Terminal

open Kworker.Lib

/-! ## Helpers -/

/-- `__wtClampStr`, which is only called with strings. -/
def clampStr (s : JsString) (maxLen : Nat) : JsString := if maxLen < s.length then s.take maxLen else s

/-- `v === s` -/
def isText (s : JsString) : Option Json → Bool
  | some (.string t) => t == s
  | _ => false

/-- The pattern `^#[0-9A-Fa-f]{6}$`. -/
def isHexColor : JsString → Bool
  | 35 :: digits => digits.length = 6 && digits.all isHexDigit
  | _ => false

/-! ## The colour schemes -/

/-- The keys of `THEME_PRESETS`. -/
def presetIds : List JsString :=
  ["dark", "campbell_powershell", "cga", "dark_plus", "dimidium", "ibm5153", "onehalf_dark",
    "onehalf_light", "ottosson", "solarized_dark", "solarized_light", "tango_dark", "tango_light",
    "vintage", "vscode_dark_modern", "vscode_light_modern", "ubuntu", "lightcream"].map js

/-- The functions that every object inherits from `Object.prototype`. -/
def inheritedFunctions : List JsString :=
  ["constructor", "hasOwnProperty", "isPrototypeOf", "propertyIsEnumerable", "toLocaleString",
    "toString", "valueOf", "__defineGetter__", "__defineSetter__", "__lookupGetter__",
    "__lookupSetter__"].map js

def protoName : JsString := js "__proto__"

inductive PresetValue where
  | preset (id : JsString)
  | function (name : JsString)
  | objectPrototype
  deriving DecidableEq, Repr

/-- `THEME_PRESETS[id]`, inherited properties included; `none` is `undefined`, the rest is true. -/
def THEME_PRESETS (id : JsString) : Option PresetValue :=
  if id ∈ presetIds then some (.preset id)
  else if id ∈ inheritedFunctions then some (.function id)
  else if id = protoName then some .objectPrototype
  else none

/-! ## The new-tab menu -/

inductive Profile where
  | daemon
  | khsl
  | powershell
  deriving DecidableEq, Repr

def Profile.text : Profile → JsString
  | .daemon => js "daemon"
  | .khsl => js "khsl"
  | .powershell => js "powershell"

def readProfile (v : Option Json) : Option Profile :=
  [Profile.daemon, .khsl, .powershell].find? (isText ·.text v)

inductive MenuItem where
  | remaining
  | separator
  | folder (name : JsString)
  | profile (profile : Profile)
  deriving DecidableEq, Repr

def MenuItem.toJson : MenuItem → Json
  | .remaining => .object [(js "kind", .string (js "remaining"))]
  | .separator => .object [(js "kind", .string (js "separator"))]
  | .folder name => .object [(js "kind", .string (js "folder")), (js "name", .string name)]
  | .profile p => .object [(js "kind", .string (js "profile")), (js "profile", .string p.text)]

/-- What the loop body of `__wtNormalizeNewTabMenuItems` makes of an entry. -/
def readMenuItem (it : Json) : Option MenuItem :=
  let kind := it.get (js "kind")
  if isText (js "remaining") kind then some .remaining
  else if isText (js "separator") kind then some .separator
  else if isText (js "folder") kind then
    match it.get (js "name") with
    | some (.string name) =>
        let nm := clampStr (trim name) 64
        if nm = [] then none else some (.folder nm)
    | _ => none
  else if isText (js "profile") kind then (readProfile (it.get (js "profile"))).map .profile
  else none

def collectMenuItems (seenRemaining : Bool) : List Json → List MenuItem
  | [] => if seenRemaining then [] else [.remaining]
  | it :: raw =>
      match readMenuItem it with
      | none => collectMenuItems seenRemaining raw
      | some .remaining =>
          if seenRemaining then collectMenuItems seenRemaining raw
          else .remaining :: collectMenuItems true raw
      | some item => item :: collectMenuItems seenRemaining raw

def normalizeNewTabMenuItems (raw : Option Json) : List MenuItem :=
  match raw with
  | some (.array items) => collectMenuItems false items
  | _ => collectMenuItems false []

def menuJson (items : List MenuItem) : Json := .array (items.map MenuItem.toJson)

/-! ## The extension generators -/

inductive Generator where
  | azure
  | powershellCore
  | ubuntuLts
  | visualStudio
  | wsl
  | khBuiltin
  deriving DecidableEq, Repr

def Generator.all : List Generator := [.azure, .powershellCore, .ubuntuLts, .visualStudio, .wsl, .khBuiltin]

def Generator.name : Generator → JsString
  | .azure => js "azure"
  | .powershellCore => js "powershellCore"
  | .ubuntuLts => js "ubuntuLts"
  | .visualStudio => js "visualStudio"
  | .wsl => js "wsl"
  | .khBuiltin => js "khBuiltin"

def defaultExtensionGenerators (g : Generator) : Bool := g = .khBuiltin

def normalizeExtensionGenerators (o : Option Json) : Generator → Bool := fun g =>
  match o.bind (·.get g.name) with
  | some (.bool b) => b
  | _ => defaultExtensionGenerators g

def generatorsJson (r : Generator → Bool) : Json := Json.ofKeys Generator.all Generator.name fun g => .bool (r g)

/-! ## The fields -/

inductive PrefKey where
  | fontSize
  | scheme
  | defaultNewTabProfile
  | startupModeIndex
  | bootOnStart
  | autoScroll
  | copyFormat
  | copyAsHtml
  | autoCopySelection
  | rectCopyTrimTrailing
  | pasteTrimTrailing
  | wordSeparators
  | snapWindowToCharGrid
  | tabSwitchStyle
  | focusPaneOnHover
  | ctrlScrollFontSize
  | ctrlShiftScrollOpacity
  | detectUrls
  | searchWebUrl
  | experimentalSelectionColorKeys
  | newTabPosition
  | alwaysShowTabs
  | showTabsInFullscreen
  | tabRowAcrylic
  | useActiveTitleForAppTitle
  | alwaysOnTop
  | tabWidth
  | paneAnimations
  | notifyAreaIcon
  | notifyHideWhenMinimized
  | autoHideWindow
  | graphicsApi
  | disablePartialSwapChain
  | softwareRenderingWarp
  | allowBackgroundRun
  | textMeasurementMode
  | newTabMenuItems
  | extensionGenerators
  | defaultStartingDirectoryMode
  | defaultStartingDirectory
  | defaultProfileIcon
  | defaultTabTitleMode
  | defaultElevate
  | fontFamily
  | terminalLineHeight
  | terminalLetterSpacing
  | fontWeight
  | cursorStyle
  | cursorColorOverride
  | colorEmoji
  | retroTerminalEffect
  | adjustIndistinguishableColors
  | backgroundImagePath
  | backgroundImageStretch
  | backgroundImageAlignment
  | backgroundImageOpacity
  | intenseTextStyle
  | terminalBgOpacity
  | useAcrylic
  | terminalPadding
  | terminalScrollbarMode
  | terminalCustomGlyphs
  deriving DecidableEq, Repr

def PrefKey.all : List PrefKey :=
  [.fontSize, .scheme, .defaultNewTabProfile, .startupModeIndex, .bootOnStart, .autoScroll,
    .copyFormat, .copyAsHtml, .autoCopySelection, .rectCopyTrimTrailing, .pasteTrimTrailing,
    .wordSeparators, .snapWindowToCharGrid, .tabSwitchStyle, .focusPaneOnHover, .ctrlScrollFontSize,
    .ctrlShiftScrollOpacity, .detectUrls, .searchWebUrl, .experimentalSelectionColorKeys,
    .newTabPosition, .alwaysShowTabs, .showTabsInFullscreen, .tabRowAcrylic,
    .useActiveTitleForAppTitle, .alwaysOnTop, .tabWidth, .paneAnimations, .notifyAreaIcon,
    .notifyHideWhenMinimized, .autoHideWindow, .graphicsApi, .disablePartialSwapChain,
    .softwareRenderingWarp, .allowBackgroundRun, .textMeasurementMode, .newTabMenuItems,
    .extensionGenerators, .defaultStartingDirectoryMode, .defaultStartingDirectory,
    .defaultProfileIcon, .defaultTabTitleMode, .defaultElevate, .fontFamily, .terminalLineHeight,
    .terminalLetterSpacing, .fontWeight, .cursorStyle, .cursorColorOverride, .colorEmoji,
    .retroTerminalEffect, .adjustIndistinguishableColors, .backgroundImagePath,
    .backgroundImageStretch, .backgroundImageAlignment, .backgroundImageOpacity, .intenseTextStyle,
    .terminalBgOpacity, .useAcrylic, .terminalPadding, .terminalScrollbarMode, .terminalCustomGlyphs]

def PrefKey.name : PrefKey → JsString
  | .fontSize => js "fontSize"
  | .scheme => js "scheme"
  | .defaultNewTabProfile => js "defaultNewTabProfile"
  | .startupModeIndex => js "startupModeIndex"
  | .bootOnStart => js "bootOnStart"
  | .autoScroll => js "autoScroll"
  | .copyFormat => js "copyFormat"
  | .copyAsHtml => js "copyAsHtml"
  | .autoCopySelection => js "autoCopySelection"
  | .rectCopyTrimTrailing => js "rectCopyTrimTrailing"
  | .pasteTrimTrailing => js "pasteTrimTrailing"
  | .wordSeparators => js "wordSeparators"
  | .snapWindowToCharGrid => js "snapWindowToCharGrid"
  | .tabSwitchStyle => js "tabSwitchStyle"
  | .focusPaneOnHover => js "focusPaneOnHover"
  | .ctrlScrollFontSize => js "ctrlScrollFontSize"
  | .ctrlShiftScrollOpacity => js "ctrlShiftScrollOpacity"
  | .detectUrls => js "detectUrls"
  | .searchWebUrl => js "searchWebUrl"
  | .experimentalSelectionColorKeys => js "experimentalSelectionColorKeys"
  | .newTabPosition => js "newTabPosition"
  | .alwaysShowTabs => js "alwaysShowTabs"
  | .showTabsInFullscreen => js "showTabsInFullscreen"
  | .tabRowAcrylic => js "tabRowAcrylic"
  | .useActiveTitleForAppTitle => js "useActiveTitleForAppTitle"
  | .alwaysOnTop => js "alwaysOnTop"
  | .tabWidth => js "tabWidth"
  | .paneAnimations => js "paneAnimations"
  | .notifyAreaIcon => js "notifyAreaIcon"
  | .notifyHideWhenMinimized => js "notifyHideWhenMinimized"
  | .autoHideWindow => js "autoHideWindow"
  | .graphicsApi => js "graphicsApi"
  | .disablePartialSwapChain => js "disablePartialSwapChain"
  | .softwareRenderingWarp => js "softwareRenderingWarp"
  | .allowBackgroundRun => js "allowBackgroundRun"
  | .textMeasurementMode => js "textMeasurementMode"
  | .newTabMenuItems => js "newTabMenuItems"
  | .extensionGenerators => js "extensionGenerators"
  | .defaultStartingDirectoryMode => js "defaultStartingDirectoryMode"
  | .defaultStartingDirectory => js "defaultStartingDirectory"
  | .defaultProfileIcon => js "defaultProfileIcon"
  | .defaultTabTitleMode => js "defaultTabTitleMode"
  | .defaultElevate => js "defaultElevate"
  | .fontFamily => js "fontFamily"
  | .terminalLineHeight => js "terminalLineHeight"
  | .terminalLetterSpacing => js "terminalLetterSpacing"
  | .fontWeight => js "fontWeight"
  | .cursorStyle => js "cursorStyle"
  | .cursorColorOverride => js "cursorColorOverride"
  | .colorEmoji => js "colorEmoji"
  | .retroTerminalEffect => js "retroTerminalEffect"
  | .adjustIndistinguishableColors => js "adjustIndistinguishableColors"
  | .backgroundImagePath => js "backgroundImagePath"
  | .backgroundImageStretch => js "backgroundImageStretch"
  | .backgroundImageAlignment => js "backgroundImageAlignment"
  | .backgroundImageOpacity => js "backgroundImageOpacity"
  | .intenseTextStyle => js "intenseTextStyle"
  | .terminalBgOpacity => js "terminalBgOpacity"
  | .useAcrylic => js "useAcrylic"
  | .terminalPadding => js "terminalPadding"
  | .terminalScrollbarMode => js "terminalScrollbarMode"
  | .terminalCustomGlyphs => js "terminalCustomGlyphs"

/-- `window.__wtPrefs` -/
abbrev Prefs := PrefKey → Json

def Prefs.toJson (p : Prefs) : Json := Json.ofKeys PrefKey.all PrefKey.name p

def Prefs.set (k : PrefKey) (v : Json) (p : Prefs) : Prefs := fun j => if j = k then v else p j

/-! ## What a field accepts -/

/-- How `__wtNormalizePrefs` reads one field, with the default `d` of the field. -/
inductive Check where
  | boolean (d : Bool)
  | oneOf (options : List JsString) (d : JsString)
  | clampStr (maxLen : Nat) (d : JsString) (h : d.length ≤ maxLen := by decide)
  | clampInt (lo hi d : ℤ) (h : 0 ≤ lo ∧ lo ≤ d ∧ d ≤ hi ∧ hi ≤ 100 := by decide)
  | clampFloat (lo hi d : ℚ) (h : lo ≤ d ∧ d ≤ hi := by norm_num)
  | startupModeIndex
  | scheme
  | wordSeparators
  | newTabMenuItems
  | extensionGenerators
  | fontFamily
  | cursorColorOverride

/-- `WT_INTERACTION_DEFAULTS.wordSeparators` -/
def defaultWordSeparators : JsString := js "/ \\ ( ) \"' . , ; : < > ~ ! @ # $ % ^ & * | + = [ ] \x7b \x7d - ? |"

def defaultFontFamily : JsString := js "Cascadia Mono"

def intJson (z : ℤ) : Json := .number (.finite z)

/-- The value of a field for the property `v` of the object; `none` is `undefined`. -/
def Check.run (v : Option Json) : Check → Json
  | .boolean d =>
      match v with
      | some (.bool b) => .bool b
      | _ => .bool d
  | .oneOf options d =>
      match v with
      | some (.string s) => .string (if s ∈ options then s else d)
      | _ => .string d
  | .clampStr maxLen d _ =>
      match v with
      | some (.string s) => .string (Terminal.clampStr s maxLen)
      | _ => .string (Terminal.clampStr d maxLen)
  | .clampInt lo hi d _ =>
      match v.bind Json.parseInt with
      | some n => intJson (n.clamp lo hi)
      | none => intJson d
  | .clampFloat lo hi d _ =>
      match v.bind Json.parseFloat with
      | some n => .number (.finite (n.clamp lo hi))
      | none => .number (.finite d)
  | .startupModeIndex =>
      match v with
      | some (.number n) => if n = .finite 1 then intJson 1 else intJson 0
      | _ => intJson 0
  | .scheme =>
      match v with
      | some (.string s) => .string (if (THEME_PRESETS s).isSome then s else js "dark")
      | _ => .string (js "dark")
  | .wordSeparators =>
      match v with
      | some (.string s) => .string (if s ≠ [] then Terminal.clampStr s 500 else defaultWordSeparators)
      | _ => .string defaultWordSeparators
  | .newTabMenuItems => menuJson (normalizeNewTabMenuItems v)
  | .extensionGenerators => generatorsJson (normalizeExtensionGenerators v)
  | .fontFamily =>
      match v with
      | some (.string s) =>
          .string (Terminal.clampStr (if trim s ≠ [] then trim s else defaultFontFamily) 120)
      | _ => .string (Terminal.clampStr defaultFontFamily 120)
  | .cursorColorOverride =>
      match v with
      | some (.string s) => .string (if isHexColor (trim s) then trim s else [])
      | _ => .string []

def check : PrefKey → Check
  | .fontSize => .clampInt 8 36 22
  | .scheme => .scheme
  | .defaultNewTabProfile => .oneOf [js "daemon", js "khsl", js "powershell"] (js "daemon")
  | .startupModeIndex => .startupModeIndex
  | .bootOnStart => .boolean false
  | .autoScroll => .boolean true
  | .copyFormat => .oneOf [js "html", js "plain"] (js "plain")
  | .copyAsHtml => .boolean false
  | .autoCopySelection => .boolean true
  | .rectCopyTrimTrailing => .boolean true
  | .pasteTrimTrailing => .boolean true
  | .wordSeparators => .wordSeparators
  | .snapWindowToCharGrid => .boolean true
  | .tabSwitchStyle => .oneOf [js "mru"] (js "order")
  | .focusPaneOnHover => .boolean false
  | .ctrlScrollFontSize => .boolean true
  | .ctrlShiftScrollOpacity => .boolean true
  | .detectUrls => .boolean true
  | .searchWebUrl => .clampStr 2000 (js "https://www.bing.com/search?q=%22%s%22")
  | .experimentalSelectionColorKeys => .boolean false
  | .newTabPosition => .oneOf [js "first", js "after_current"] (js "last")
  | .alwaysShowTabs => .boolean true
  | .showTabsInFullscreen => .boolean false
  | .tabRowAcrylic => .boolean false
  | .useActiveTitleForAppTitle => .boolean true
  | .alwaysOnTop => .boolean false
  | .tabWidth => .oneOf [js "compact"] (js "equal")
  | .paneAnimations => .boolean true
  | .notifyAreaIcon => .boolean false
  | .notifyHideWhenMinimized => .boolean false
  | .autoHideWindow => .boolean false
  | .graphicsApi => .oneOf [js "d3d11", js "d2d"] (js "auto")
  | .disablePartialSwapChain => .boolean false
  | .softwareRenderingWarp => .boolean false
  | .allowBackgroundRun => .boolean false
  | .textMeasurementMode => .oneOf [js "wcswidth", js "wincon"] (js "grapheme")
  | .newTabMenuItems => .newTabMenuItems
  | .extensionGenerators => .extensionGenerators
  | .defaultStartingDirectoryMode => .oneOf [js "custom"] (js "inherit")
  | .defaultStartingDirectory => .clampStr 500 []
  | .defaultProfileIcon => .clampStr 256 []
  | .defaultTabTitleMode => .oneOf [js "profileName"] (js "none")
  | .defaultElevate => .boolean false
  | .fontFamily => .fontFamily
  | .terminalLineHeight => .clampFloat 1 3 (6 / 5)
  | .terminalLetterSpacing => .clampFloat (-2) 8 (3 / 10)
  | .fontWeight => .oneOf [js "bold", js "normal", js "100", js "400", js "600", js "700"] (js "normal")
  | .cursorStyle => .oneOf [js "block", js "underline"] (js "bar")
  | .cursorColorOverride => .cursorColorOverride
  | .colorEmoji => .boolean true
  | .retroTerminalEffect => .boolean false
  | .adjustIndistinguishableColors => .oneOf [js "indexed", js "always"] (js "never")
  | .backgroundImagePath => .clampStr 2000 []
  | .backgroundImageStretch => .oneOf [js "fill", js "none", js "uniform",
      js "uniformToFill"] (js "uniformToFill")
  | .backgroundImageAlignment => .oneOf [js "center", js "top", js "bottom", js "left", js "right",
      js "topLeft", js "topRight", js "bottomLeft", js "bottomRight"] (js "center")
  | .backgroundImageOpacity => .clampInt 0 100 100
  | .intenseTextStyle => .oneOf [js "bold", js "all", js "none"] (js "bright")
  | .terminalBgOpacity => .clampInt 10 100 100
  | .useAcrylic => .boolean false
  | .terminalPadding => .clampStr 64 (js "8, 8, 8, 8")
  | .terminalScrollbarMode => .oneOf [js "hidden"] (js "visible")
  | .terminalCustomGlyphs => .boolean true

/-- The object `d` of `__wtNormalizePrefs`. -/
def defaultPrefs : Prefs := fun k => (check k).run none

def copyFormat (o : Json) : JsString :=
  let v := o.get PrefKey.copyFormat.name
  if isText (js "html") v then js "html"
  else if isText (js "plain") v then js "plain"
  else match o.get PrefKey.copyAsHtml.name with
    | some (.bool true) => js "html"
    | _ => js "plain"

def normalizeField (o : Json) : PrefKey → Json
  | .copyFormat => .string (copyFormat o)
  | .copyAsHtml => .bool (copyFormat o = js "html")
  | k => (check k).run (o.get k.name)

/-- The fields that are read through `String(v)`. -/
def numericKeys : List PrefKey :=
  [.fontSize, .terminalLineHeight, .terminalLetterSpacing, .backgroundImageOpacity, .terminalBgOpacity]

def normalizable (o : Json) : Bool := numericKeys.all fun k => (o.get k.name).all Json.hasText

/-- `__wtNormalizePrefs`; `none` when it throws a TypeError. -/
def normalizePrefs (o : Json) : Option Prefs :=
  if o.isObject then
    if normalizable o then some (normalizeField o) else none
  else some defaultPrefs

/-! ## The declared domains -/

def MenuItem.WellFormed : MenuItem → Prop
  | .folder name => trim name ≠ [] ∧ name.length ≤ 64
  | _ => True

def Check.Domain (v : Json) : Check → Prop
  | .boolean _ => ∃ b, v = .bool b
  | .oneOf options d => ∃ s ∈ d :: options, v = .string s
  | .clampStr maxLen _ _ => ∃ s, v = .string s ∧ s.length ≤ maxLen
  | .clampInt lo hi _ _ => ∃ z, v = intJson z ∧ lo ≤ z ∧ z ≤ hi
  | .clampFloat lo hi _ _ => ∃ q, v = .number (.finite q) ∧ lo ≤ q ∧ q ≤ hi
  | .startupModeIndex => v = intJson 0 ∨ v = intJson 1
  | .scheme => ∃ s ∈ presetIds, v = .string s
  | .wordSeparators => ∃ s, v = .string s ∧ s ≠ [] ∧ s.length ≤ 500
  | .newTabMenuItems => ∃ items : List MenuItem, v = menuJson items ∧ (∀ i ∈ items, i.WellFormed) ∧
      items.count .remaining = 1
  | .extensionGenerators => ∃ r, v = generatorsJson r
  | .fontFamily => ∃ s, v = .string s ∧ trim s ≠ [] ∧ s.length ≤ 120
  | .cursorColorOverride => ∃ s, v = .string s ∧ (s = [] ∨ isHexColor s = true)

/-- Every field is inside its domain. -/
def Prefs.InDomain (p : Prefs) : Prop := ∀ k, (check k).Domain (p k)

/-- The preferences are a fixed point of `__wtNormalizePrefs`. -/
def Prefs.Normalized (p : Prefs) : Prop := normalizePrefs p.toJson = some p

/-! ## Names that are cut -/

/-- When the trimmed text has more than `n` units, the last of the first `n` is not a blank. -/
def CleanCut (n : Nat) (s : JsString) : Prop :=
  n < (trim s).length → ∀ c, (trim s)[n - 1]? = some c → isBlank c = false

/-- The font's name and the names of the folders, where the object has them. -/
def CleanNames (o : Json) : Prop :=
  (∀ s, o.get PrefKey.fontFamily.name = some (.string s) → CleanCut 120 s) ∧
  ∀ items, o.get PrefKey.newTabMenuItems.name = some (.array items) → ∀ it ∈ items,
    it.get (js "kind") = some (.string (js "folder")) →
      ∀ s, it.get (js "name") = some (.string s) → CleanCut 64 s

end Kworker.Terminal
