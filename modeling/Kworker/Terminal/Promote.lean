import Kworker.Lib.Chunks
import Kworker.Lib.Lines
import Kworker.Terminal.Tabs

/-!
# Tabs that turn into KHSL

`tryPromoteDaemonTabToKhslIfOutput` of `terminal-app.js`, which `termWriteChunk` calls with every chunk of
output, and its regular expressions.
-/

namespace Kworker.Terminal

open Kworker.Lib

/-! ## Window titles -/

/-- A match of a regular expression at the front of a text: its first group and its length. -/
structure Match where
  group : JsString
  length : Nat
  deriving DecidableEq, Repr

/-- `[^\x07\x1b]` -/
def isTitleUnit (c : UInt16) : Bool := c ≠ 7 && c ≠ 27

/-- `\x1b\](?:0|2);([^\x07\x1b]+)(?:\x07|\x1b\\)` -/
def matchTitle : JsString → Option Match
  | 27 :: 93 :: d :: 59 :: s =>
      if (d = 48 ∨ d = 50) ∧ s.takeWhile isTitleUnit ≠ [] then
        match s.dropWhile isTitleUnit with
        | 7 :: _ => some ⟨s.takeWhile isTitleUnit, 5 + (s.takeWhile isTitleUnit).length⟩
        | 27 :: 92 :: _ => some ⟨s.takeWhile isTitleUnit, 6 + (s.takeWhile isTitleUnit).length⟩
        | _ => none
      else none
  | _ => none

/-- The first groups that `re.exec` finds one after the other; `skip` units of the last match are left. -/
def execTitles : Nat → JsString → List JsString
  | _, [] => []
  | skip + 1, _ :: s => execTitles skip s
  | 0, c :: s =>
      match matchTitle (c :: s) with
      | some m => m.group :: execTitles (m.length - 1) s
      | none => execTitles 0 s

def lowerUnit (c : UInt16) : UInt16 := if 65 ≤ c ∧ c ≤ 90 then c + 32 else c

/-- `khsl` at the front, in any case; no other unit has one of these letters as its upper case. -/
def startsKhsl (s : JsString) : Bool := (js "khsl").isPrefixOf (s.map lowerUnit)

/-- `/khsl/i` -/
def containsKhsl : JsString → Bool
  | [] => false
  | c :: s => startsKhsl (c :: s) || containsKhsl s

def hasKhslTitle (s : JsString) : Bool := (execTitles 0 s).any containsKhsl

/-! ## Prompts -/

/-- `\w` -/
def isWordUnit (c : UInt16) : Bool := isDigit c || 65 ≤ c && c ≤ 90 || 97 ≤ c && c ≤ 122 || c = 95

/-- `/\bkhsl\b/i` from a place on; `afterWord` says that the unit before it is a word unit. -/
def khslWordFrom (afterWord : Bool) : JsString → Bool
  | [] => false
  | c :: s =>
      (!afterWord && startsKhsl (c :: s) && !(s.drop 3).head?.any isWordUnit) || khslWordFrom (isWordUnit c) s

/-- `[#$>］\]]` -/
def isPromptMark (c : UInt16) : Bool := c ∈ [35, 36, 62, 0xFF3D, 93]

/-- `/[#$>］\]]\s*$/` -/
def endsAsPrompt : JsString → Bool
  | [] => false
  | c :: s => (isPromptMark c && s.all isBlank) || endsAsPrompt s

def isKhslPrompt (ln : JsString) : Bool := khslWordFrom false ln && endsAsPrompt ln

/-! ## The tab -/

/-- A tab with what it shows in the strip; there always is a `tabEl`, with a title and an icon. -/
structure StripTab where
  kind : TabKind
  profile : String
  presentationKhsl : Bool := false
  title : String
  icon : String
  deriving DecidableEq, Repr

def iconClassForProfile (profile : String) : String :=
  if profile = "khsl" then "wt-tab-icon wt-tab-icon--khsl"
  else if profile = "daemon" then "wt-tab-icon wt-tab-icon--daemon"
  else "wt-tab-icon wt-tab-icon--pw"

def profileToTabTitle (profile : String) : String :=
  if profile = "khsl" then "KHSL"
  else if profile = "daemon" then "管理员：Powershell"
  else "PowerShell"

def StripTab.created (profile : String) : StripTab where
  kind := .shell
  profile
  title := profileToTabTitle profile
  icon := iconClassForProfile profile

def applyKhslTabPresentation (tab : StripTab) : StripTab :=
  if tab.presentationKhsl then tab
  else { tab with presentationKhsl := true, title := "KHSL", icon := "wt-tab-icon wt-tab-icon--khsl" }

def tryPromoteDaemonTabToKhslIfOutput (tab : StripTab) (data : JsString) : StripTab :=
  if tab.kind ≠ .shell ∨ tab.profile ≠ "daemon" ∨ tab.presentationKhsl then tab
  else if hasKhslTitle data then applyKhslTabPresentation tab
  else if (splitLines data).any isKhslPrompt then applyKhslTabPresentation tab
  else tab

/-- What `termWriteChunk` does to the tab in the strip, for each of the chunks. -/
def writeChunks (tab : StripTab) (chunks : List JsString) : StripTab :=
  chunks.foldl tryPromoteDaemonTabToKhslIfOutput tab

/-! ## Titles and prompts that are cut -/

/-- `w` is a sequence that sets the window title to `t`. -/
def IsTitle (w t : JsString) : Prop :=
  ∃ d ending, w = 27 :: 93 :: d :: 59 :: (t ++ ending) ∧ (d = 48 ∨ d = 50) ∧ t ≠ [] ∧
    (∀ c ∈ t, isTitleUnit c = true) ∧ (ending = [7] ∨ ending = [27, 92])

def IsKhslTitle (w : JsString) : Prop := ∃ t, IsTitle w t ∧ containsKhsl t = true

/-- A title that names KHSL, or a line that is a KHSL prompt, is cut by the chunks. -/
def CutsSign (chunks : List JsString) : Prop :=
  (∃ w, IsKhslTitle w ∧ Straddles w chunks) ∨
    ∃ line ∈ pieces 10 chunks, 2 ≤ line.length ∧ isKhslPrompt line.flatten = true

/-- A piece of a line that is cut by the chunks looks like a KHSL prompt. -/
def CutsOutPrompt (chunks : List JsString) : Prop :=
  ∃ line ∈ pieces 10 chunks, 2 ≤ line.length ∧ ∃ piece ∈ line, isKhslPrompt piece = true

/-- A title that names KHSL, or a line that is a KHSL prompt, lies in one chunk. -/
def KeepsSign (chunks : List JsString) : Prop :=
  (∃ w, IsKhslTitle w ∧ ∃ c ∈ chunks, w <:+: c) ∨ ∃ line, [line] ∈ pieces 10 chunks ∧ isKhslPrompt line = true

end Kworker.Terminal
