import Kworker.Lib.Escape
import Kworker.Lib.Js
import Kworker.Terminal.Clipboard

/-!
# Texts inside of scripts and of HTML

The programs that `Index.ets` passes to `runJavaScript`, with texts that come from the shell and from the
preference store, and the HTML fragment that a copy puts on the clipboard, each with a reader for what it
is taken for.
-/

namespace Kworker.Terminal

open Kworker.Lib

/-! ## `JSON.stringify` of a text -/

def isHighSurrogate (c : UInt16) : Bool := 0xD800 ≤ c && c ≤ 0xDBFF

def isLowSurrogate (c : UInt16) : Bool := 0xDC00 ≤ c && c ≤ 0xDFFF

def hexDigit (n : Nat) : UInt16 := if n < 10 then UInt16.ofNat (48 + n) else UInt16.ofNat (87 + n)

/-- `\uXXXX` -/
def unicodeEscape (c : UInt16) : JsString :=
  [92, 117, hexDigit (c.toNat / 4096 % 16), hexDigit (c.toNat / 256 % 16), hexDigit (c.toNat / 16 % 16),
    hexDigit (c.toNat % 16)]

def quoteUnit (c : UInt16) : JsString :=
  if c = 8 then js "\\b"
  else if c = 9 then js "\\t"
  else if c = 10 then js "\\n"
  else if c = 12 then js "\\f"
  else if c = 13 then js "\\r"
  else if c = 34 then js "\\\""
  else if c = 92 then js "\\\\"
  else if c < 32 || isHighSurrogate c || isLowSurrogate c then unicodeEscape c
  else [c]

/-- The pieces for each unit; the two halves of a pair stay as they are. -/
def quoteUnits : JsString → List JsString
  | [] => []
  | [c] => [quoteUnit c]
  | c :: d :: s =>
      if isHighSurrogate c && isLowSurrogate d then [c] :: [d] :: quoteUnits s
      else quoteUnit c :: quoteUnits (d :: s)

def stringify (s : JsString) : JsString := [34] ++ (quoteUnits s).flatten ++ [34]

/-! ## What `Index.ets` runs -/

/-- A number in a template literal. -/
def numberText (n : Nat) : JsString := (Nat.toDigits 10 n).map (·.toNat.toUInt16)

/-- What the native side has for the page: output of a session, or the end of the loading of the page with the
stored preferences. -/
inductive FromNative where
  | output (sessionId : Nat) (data : JsString)
  | pageEnd (prefsJson : JsString)
  deriving DecidableEq, Repr

/-- The text that is passed to `runJavaScript`. -/
def script : FromNative → JsString
  | .output sessionId data =>
      js "window.writeToTerminal(" ++ numberText sessionId ++ js ", " ++ stringify data ++ js ");"
  | .pageEnd prefsJson =>
      (if prefsJson.length > 0 then
        js "try\x7bwindow.__wtInjectedPrefsJson=" ++ stringify prefsJson ++ js ";\x7dcatch(e)\x7b\x7d;" else []) ++
      js "try\x7bwindow.wtBootstrap&&window.wtBootstrap();\x7dcatch(e)\x7b\x7d;"

/-! ## How JavaScript reads it -/

inductive Statement where
  /-- `window.writeToTerminal(sessionId, data)` -/
  | writeToTerminal (sessionId : Nat) (data : JsString)
  /-- an assignment to `window.__wtInjectedPrefsJson` -/
  | inject (text : JsString)
  | wtBootstrap
  deriving DecidableEq, Repr

def hexValue (c : UInt16) : Option Nat :=
  if isDigit c then some (c.toNat - 48)
  else if 97 ≤ c && c ≤ 102 then some (c.toNat - 87)
  else if 65 ≤ c && c ≤ 70 then some (c.toNat - 55)
  else none

/-- The four digits of `\uXXXX`. -/
def hexUnit : JsString → Option (UInt16 × JsString)
  | a :: b :: c :: d :: t =>
      match hexValue a, hexValue b, hexValue c, hexValue d with
      | some a, some b, some c, some d => some (UInt16.ofNat (((a * 16 + b) * 16 + c) * 16 + d), t)
      | _, _, _, _ => none
  | _ => none

/-- The unit that a backslash and `c` stand for. -/
def singleEscape (c : UInt16) : Option UInt16 :=
  if c = 98 then some 8
  else if c = 116 then some 9
  else if c = 110 then some 10
  else if c = 118 then some 11
  else if c = 102 then some 12
  else if c = 114 then some 13
  -- `\x`, octal escapes and continued lines are not among what is written here
  else if c = 120 || isDigit c || c = 10 || c = 13 || c = 0x2028 || c = 0x2029 then none
  else some c

/-- The inside of a string literal in double quotes. -/
def literalReader : EscapeReader UInt16 UInt16 where
  stop
    | [] => none
    | c :: t => if c = 34 then some t else none
  next
    | [] => none
    | c :: t =>
        if c = 92 then
          match t with
          | [] => none
          | d :: t => if d = 117 then hexUnit t else (singleEscape d).map (·, t)
        else if c = 10 || c = 13 then none
        else some (c, t)

/-- The rest of a text behind `w`. -/
def expect (w t : JsString) : Option JsString := if t.take w.length = w then some (t.drop w.length) else none

def readLiteral (t : JsString) : Option (JsString × JsString) := (expect [34] t).bind literalReader.read

def readNumber (t : JsString) : Nat × JsString :=
  (Nat.ofDigitChars 10 ((t.takeWhile isDigit).map fun c => Char.ofNat c.toNat) 0, t.dropWhile isDigit)

def readCall (t : JsString) : Option (Statement × JsString) := do
  let t ← expect (js "window.writeToTerminal(") t
  let (sessionId, t) := readNumber t
  let t ← expect (js ", ") t
  let (data, t) ← readLiteral t
  let t ← expect (js ");") t
  return (.writeToTerminal sessionId data, t)

def readInject (t : JsString) : Option (Statement × JsString) := do
  let t ← expect (js "try\x7bwindow.__wtInjectedPrefsJson=") t
  let (text, t) ← readLiteral t
  let t ← expect (js ";\x7dcatch(e)\x7b\x7d;") t
  return (.inject text, t)

def readBoot (t : JsString) : Option (Statement × JsString) := do
  let t ← expect (js "try\x7bwindow.wtBootstrap&&window.wtBootstrap();\x7dcatch(e)\x7b\x7d;") t
  return (.wtBootstrap, t)

/-- A program, statement by statement, at most `fuel` of them. -/
def readProgram : Nat → JsString → Option (List Statement)
  | _, [] => some []
  | 0, _ => none
  | fuel + 1, t =>
      ((readCall t).or ((readInject t).or (readBoot t))).bind fun (st, t) => (readProgram fuel t).map (st :: ·)

/-- The statements that the native side means. -/
def FromNative.meant : FromNative → List Statement
  | .output sessionId data => [.writeToTerminal sessionId data]
  | .pageEnd prefsJson => if prefsJson.length > 0 then [.inject prefsJson, .wtBootstrap] else [.wtBootstrap]

/-! ## How HTML reads the fragment of the clipboard -/

/-- The line ends of an input stream, as they are before anything else is done with it. -/
def normalizeNewlines : JsString → JsString
  | [] => []
  | [c] => if c = 13 then [10] else [c]
  | c :: d :: t =>
      if c = 13 then 10 :: (if d = 10 then normalizeNewlines t else normalizeNewlines (d :: t))
      else c :: normalizeNewlines (d :: t)

/-- The text of an element up to a tag. -/
def textReader : EscapeReader UInt16 UInt16 where
  stop
    | [] => none
    | c :: t => if c = 60 then some (c :: t) else none
  next
    | [] => none
    | c :: t =>
        if c = 38 then
          ((expect (js "amp;") t).map (38, ·)).or
            (((expect (js "lt;") t).map (60, ·)).or ((expect (js "gt;") t).map (62, ·)))
        else some (c, t)

/-- The text of the `pre`: a line end right behind its tag is left out, and so is every 0. -/
def readFragment (t : JsString) : Option JsString := do
  let t ← expect
    (js "<!DOCTYPE html><html><body><!--StartFragment--><pre style=\"margin:0;white-space:pre-wrap;" ++
      js "word-wrap:break-word;font-family:Consolas,'Cascadia Mono','Sarasa Mono SC',monospace\">")
    (normalizeNewlines t)
  let (text, t) ← textReader.read (if t.head? = some 10 then t.tail else t)
  let _ ← expect (js "</pre><!--EndFragment--></body></html>") t
  return text.filter (· ≠ 0)

end Kworker.Terminal
