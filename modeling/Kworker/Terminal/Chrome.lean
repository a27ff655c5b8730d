import Kworker.Terminal.Load

/-!
# Light and dark

The colour of the window behind the page in `Index.ets`, and the attribute `data-wt-app-scheme` that
`terminal-app.js` sets, both read from the stored preferences.
-/

namespace Kworker.Terminal

open Kworker.Lib

variable {Text : Type} (J : JsonText Text)

def SHELL_LIGHT : String := "#FAF7F0"
def SHELL_DARK : String := "#1A1A1A"

def shellColorFromJson (json : Text) : String :=
  if J.isEmpty json then SHELL_DARK
  else
    match J.parse json with
    | some o => if isText (js "lightcream") (o.get PrefKey.scheme.name) then SHELL_LIGHT else SHELL_DARK
    | none => SHELL_DARK

def lightUiSchemes : List JsString :=
  [js "lightcream", js "onehalf_light", js "solarized_light", js "tango_light", js "vscode_light_modern"]

/-- `__wtIsLightUiScheme` -/
def isLightUiScheme (schemeId : Json) : Bool := lightUiSchemes.any (isText · (some schemeId))

/-- The value that `applyAppChromeScheme` gives to `data-wt-app-scheme`. -/
def appChromeScheme (p : Prefs) : String := if isLightUiScheme (p .scheme) then "lightcream" else "dark"

/-- The window is light exactly when the page is, once it has loaded the same text. -/
def ShellFollowsPage (c : Channels Text) : Prop :=
  shellColorFromJson J (rawPrefs J c) = SHELL_LIGHT ↔
    appChromeScheme (loadPrefs J c defaultPrefs) = "lightcream"

/-- The scheme in the stored text, if it is light, is `lightcream` and the rest of the text can be
normalised, or it is another one and the rest cannot. -/
def SchemeReadAlike (c : Channels Text) : Prop :=
  ∀ v s, J.isEmpty (rawPrefs J c) = false → J.parse (rawPrefs J c) = some v →
    v.get PrefKey.scheme.name = some (.string s) → s ∈ lightUiSchemes →
      (s = js "lightcream" ↔ normalizable v = true)

end Kworker.Terminal
