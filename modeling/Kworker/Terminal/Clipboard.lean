import Kworker.Lib.Lines
import Kworker.Terminal.Prefs

/-!
# Copying and pasting

The copy event of a terminal and the keys Ctrl+C and Ctrl+V of `terminal-app.js`, and what else is typed.
-/

namespace Kworker.Terminal

open Kworker.Lib

/-! ## Copying -/

/-- Which of the interfaces of the browser and of the native side there are. -/
structure ClipboardApi where
  clipboardItem : Bool := true
  write : Bool := true
  writeText : Bool := true
  readText : Bool := true

/-- `__wtTrimTrailingSpacesPerLine` -/
def trimTrailingSpacesPerLine (text : JsString) : JsString := trimLines text

def escapeHtmlForClipboard (s : JsString) : JsString :=
  s.flatMap fun c =>
    if c = 38 then js "&amp;" else if c = 60 then js "&lt;" else if c = 62 then js "&gt;" else [c]

def clipboardFragmentHtmlFromPlain (plain : JsString) : JsString :=
  js "<!DOCTYPE html><html><body><!--StartFragment--><pre style=\"margin:0;white-space:pre-wrap;" ++
    js "word-wrap:break-word;font-family:Consolas,'Cascadia Mono','Sarasa Mono SC',monospace\">" ++
    escapeHtmlForClipboard plain ++ js "</pre><!--EndFragment--></body></html>"

/-- The session of a shell tab; without one the tab echoes. -/
structure InputTab where
  sessionId : Int
  localEcho : Bool
  terminalProxy : Bool
  echoes : localEcho = decide (sessionId < 0)
  live : 0 ≤ sessionId → terminalProxy = true

inductive SinkCall where
  | writeToPty (data : JsString) (session_id : Int)
  | termWriteChunk (data : JsString)
  deriving DecidableEq, Repr

/-- The callback of `term.onData`. -/
def onData (tab : InputTab) (data : JsString) : List SinkCall :=
  if tab.localEcho then [.termWriteChunk data]
  else if tab.sessionId ≥ 0 && tab.terminalProxy then [.writeToPty data tab.sessionId]
  else []

/-- Ctrl+V; `tab` is the tab of the key when the text of the clipboard has been read. -/
def ctrlV (api : ClipboardApi) (tab : InputTab) (text : JsString) : List SinkCall :=
  if api.readText then
    if text ≠ [] && tab.terminalProxy then [.writeToPty text tab.sessionId] else []
  else []

/-! ## What should reach the clipboard and the shell -/

def pastedText (p : Prefs) (text : JsString) : JsString :=
  if (p .pasteTrimTrailing).truthy then trimTrailingSpacesPerLine text else text

inductive Sink where
  | session (id : Int)
  | echo
  deriving DecidableEq, Repr

def SinkCall.sink : SinkCall → Sink
  | .writeToPty _ session_id => .session session_id
  | .termWriteChunk _ => .echo

def SinkCall.data : SinkCall → JsString
  | .writeToPty data _ => data
  | .termWriteChunk data => data

/-- The text that a sink gets from these calls. -/
def received (sink : Sink) (calls : List SinkCall) : JsString :=
  (calls.filter (·.sink = sink)).flatMap (·.data)

/-- Every sink gets what it would get if the text were typed. -/
def PastesAsTyped (api : ClipboardApi) (p : Prefs) (tab : InputTab) (text : JsString) : Prop :=
  ∀ sink, received sink (ctrlV api tab text) = received sink (onData tab (pastedText p text))

/-- The text comes to the session of a live tab as it is, and no line of it is to be trimmed; or there is
nothing to be delivered, and nothing is written to a session that is not there. -/
def PasteFits (api : ClipboardApi) (p : Prefs) (tab : InputTab) (text : JsString) : Prop :=
  if tab.localEcho then
    pastedText p text = [] ∧ (text = [] ∨ api.readText = false ∨ tab.terminalProxy = false)
  else if api.readText then
    (p .pasteTrimTrailing).truthy = true → ∀ line ∈ text.splitOn 10, trimEnd line = line
  else pastedText p text = []

end Kworker.Terminal
