import Kworker.Lib.Decimal
import Kworker.Lib.Machine
import Mathlib.Algebra.Group.Nat.Defs
import Mathlib.Data.List.Sort
import Mathlib.Data.Nat.Log

/-!
# Navigation in the file manager

`pages/Index.ets`: the history, the location that is shown and its files. Reading a directory is
asynchronous: `loadFilesFromPath` returns at its `await`, and the rest of it runs at some later time.
-/

namespace Kworker.FileManager

open Kworker.Lib

/-! ## Files -/

structure Stat where
  isDirectory : Bool
  size : Nat := 0
  deriving DecidableEq, Repr

/-- What the calls of `fs` return, `none` being an exception, and the collation. -/
structure FileSystem where
  statSync : String → Option Stat
  listFile : String → Option (List String)
  /-- the message of the exception -/
  message : String → String := fun _ => ""
  localeCompare : String → String → Ordering

inductive FileType where
  | folder
  | drive
  | file
  deriving DecidableEq, Repr

structure FileItem where
  id : String
  name : String
  type : FileType
  icon : String
  path : String
  details : String
  deriving DecidableEq, Repr

/-- `parseFloat(x.toFixed(dm))` for `x = hundredths / 10 ^ dm`, as text. -/
def decimalText (dm hundredths : Nat) : String :=
  let digits := String.ofList (Nat.toDigits 10 (hundredths % 10 ^ dm))
  let padded := String.ofList (List.replicate (dm - digits.length) '0') ++ digits
  let fraction := (padded.toList.reverse.dropWhile (· = '0')).reverse
  toString (hundredths / 10 ^ dm) ++ if dm = 0 ∨ fraction = [] then "" else "." ++ String.ofList fraction

def sizes : List String := ["Bytes", "KB", "MB", "GB", "TB", "PB", "EB", "ZB", "YB"]

/-- `formatBytes(bytes)` with two decimals; logarithm, division and rounding are exact. -/
def formatBytes (bytes : Nat) : String :=
  if bytes = 0 then "0 Bytes"
  else
    let i := Nat.log 1024 bytes
    let unit := 1024 ^ i
    decimalText 2 ((2 * 100 * bytes + unit) / (2 * unit)) ++ " " ++ sizes.getD i "undefined"

/-- What a size says: a number, and behind a blank a unit, for which its place in `sizes` stands. -/
def readSize (text : String) : Option (ℚ × Nat) :=
  let number := text.toList.takeWhile (· ≠ ' ')
  let unit := text.toList.dropWhile (· ≠ ' ')
  (readDecimal number).bind fun v => (sizes.findIdx? fun s => ' ' :: s.toList = unit).map fun i => (v, i)

/-- The size that is shown is at least one and less than 1024 of its unit, and the nearest one with two
decimals. -/
def ShowsSize (bytes : Nat) : Prop :=
  ∃ v i, readSize (formatBytes bytes) = some (v, i) ∧ 1 ≤ v ∧ v < 1024 ∧ |v - bytes / 1024 ^ i| ≤ 1 / 200

/-- One turn of the loop over the names; an entry that cannot be read is left out. -/
def fileItem (fs : FileSystem) (path filename : String) : Option FileItem :=
  let filePath := if path = "/" then "/" ++ filename else path ++ "/" ++ filename
  (fs.statSync filePath).map fun stat =>
    { id := filePath
      name := filename
      type := if stat.isDirectory then .folder else .file
      icon := if stat.isDirectory then "app.media.ic_folder" else "app.media.ic_file"
      path := filePath
      details := if stat.isDirectory then "" else formatBytes stat.size }

def fileOrder (fs : FileSystem) (a b : FileItem) : Ordering :=
  if a.type = b.type then fs.localeCompare a.name b.name
  else if a.type = .folder then .lt else .gt

/-- The files that are shown for a directory with these names; the sort is stable. -/
def listing (fs : FileSystem) (path : String) (filenames : List String) : List FileItem :=
  (filenames.filterMap (fileItem fs path)).insertionSort fun a b => fileOrder fs a b ≠ .gt

/-! ## The state of the page -/

structure NavNode where
  id : String
  name : String
  children : List (String × String) := []
  deriving DecidableEq, Repr

def MOCK_NAV_DATA : List NavNode :=
  [{ id := "quick_access", name := "快速访问"
     children := [("desktop", "桌面"), ("downloads", "下载"), ("documents", "文档"), ("pictures", "图片")] },
    { id := "this_pc", name := "此电脑"
      children := [("c_drive", "系统盘 (C:)"), ("d_drive", "开发工具 (E:)"), ("khsl_drive", "Linux (khsl)")] },
    { id := "network", name := "网络" }]

structure PathRecord where
  name : String
  realPath : Option String := none
  deriving DecidableEq, Repr

/-- `loads` are the directories whose reading has begun and has not ended. -/
structure Index where
  currentPath : String := "此电脑"
  currentRealPath : Option String := none
  selectedNavId : String := "this_pc"
  pathHistory : List PathRecord := [{ name := "此电脑" }]
  historyIndex : Nat := 0
  addressBarText : String := "此电脑"
  errorMessage : String := ""
  currentFiles : List FileItem := []
  loads : List String := []
  deriving DecidableEq, Repr

/-- A text counts as given when it is neither undefined nor empty. -/
def truthy (s : Option String) : Option String := s.filter (· ≠ "")

/-! ## Loading -/

def loadFailed (fs : FileSystem) (path : String) (v : Index) : Index :=
  { v with errorMessage := "无法访问: " ++ fs.message path, currentFiles := [] }

/-- `loadFilesFromPath` up to its `await`. -/
def loadFilesFromPath (fs : FileSystem) (path : String) (v : Index) : Index :=
  let v := { v with errorMessage := "" }
  match fs.statSync path with
  | none => loadFailed fs path v
  | some stat => if stat.isDirectory then { v with loads := v.loads ++ [path] } else v

/-- `loadFilesFromPath` after its `await`. -/
def loadFinished (fs : FileSystem) (path : String) (v : Index) : Index :=
  match fs.listFile path with
  | none => loadFailed fs path v
  | some filenames => { v with currentFiles := listing fs path filenames }

def showFiles (fs : FileSystem) (v : Index) : Index :=
  match truthy v.currentRealPath with
  | some realPath => loadFilesFromPath fs realPath v
  | none => { v with currentFiles := [] }

/-! ## Navigation -/

def navigateTo (fs : FileSystem) (pathName : String) (navId realPath : Option String) (v : Index) :
    Index :=
  let displayPath := (truthy realPath).getD pathName
  if v.currentPath = displayPath ∧ v.currentRealPath = realPath then v
  else
    let pathHistory :=
      (if v.historyIndex + 1 < v.pathHistory.length then v.pathHistory.take (v.historyIndex + 1)
        else v.pathHistory) ++ [{ name := displayPath, realPath }]
    showFiles fs { v with
      pathHistory
      historyIndex := pathHistory.length - 1
      currentPath := displayPath
      addressBarText := displayPath
      currentRealPath := realPath
      selectedNavId := (truthy navId).getD v.selectedNavId }

def syncNavIdByPath (path : String) (v : Index) : Index :=
  if path = "此电脑" then { v with selectedNavId := "this_pc" }
  else if path = "快速访问" then { v with selectedNavId := "quick_access" }
  else if path = "网络" then { v with selectedNavId := "network" }
  else
    match MOCK_NAV_DATA.findSome? fun node => node.children.find? (·.2 = path) with
    | some child => { v with selectedNavId := child.1 }
    | none => v

/-- The text that `goBack` and `goForward` share, at the new index. -/
def showRecord (fs : FileSystem) (historyIndex : Nat) (v : Index) : Index :=
  match v.pathHistory[historyIndex]? with
  -- no record: never the case
  | none => { v with historyIndex }
  | some record =>
      showFiles fs (syncNavIdByPath record.name { v with
        historyIndex
        currentPath := record.name
        addressBarText := record.name
        currentRealPath := record.realPath })

def goBack (fs : FileSystem) (v : Index) : Index :=
  if v.historyIndex > 0 then showRecord fs (v.historyIndex - 1) v else v

def goForward (fs : FileSystem) (v : Index) : Index :=
  if v.historyIndex + 1 < v.pathHistory.length then showRecord fs (v.historyIndex + 1) v else v

def goUp (fs : FileSystem) (v : Index) : Index :=
  if v.currentPath ≠ "此电脑" ∧ v.currentPath ≠ "快速访问" ∧ v.currentPath ≠ "网络" then
    navigateTo fs "此电脑" (some "this_pc") none v
  else v

/-- The handler of the address bar, for the trimmed text. -/
def onSubmit (fs : FileSystem) (input : String) (v : Index) : Index :=
  if input = "此电脑" then navigateTo fs "此电脑" (some "this_pc") none v
  else if input = "快速访问" then navigateTo fs "快速访问" (some "quick_access") none v
  else if input = "网络" then navigateTo fs "网络" (some "network") none v
  else navigateTo fs input none (some input) v

/-! ## Runs -/

inductive Act where
  | navigateTo (pathName : String) (navId realPath : Option String)
  | goBack
  | goForward
  /-- the `k`-th outstanding load comes to its end -/
  | finish (k : Nat)
  deriving DecidableEq, Repr

def Index.step (fs : FileSystem) (v : Index) : Act → Option Index
  | .navigateTo pathName navId realPath => some (FileManager.navigateTo fs pathName navId realPath v)
  | .goBack => some (FileManager.goBack fs v)
  | .goForward => some (FileManager.goForward fs v)
  | .finish k => (v.loads[k]?).map fun path =>
      loadFinished fs path { v with loads := v.loads.eraseIdx k }

/-- Every navigation, whatever its arguments. -/
def history (fs : FileSystem) : Machine Index Act := ⟨Index.step fs⟩

def FileSystem.Readable (fs : FileSystem) (path : String) : Prop :=
  (fs.statSync path).any (·.isDirectory) = true ∧ (fs.listFile path).isSome = true

instance (fs : FileSystem) (path : String) : Decidable (fs.Readable path) :=
  inferInstanceAs (Decidable (_ ∧ _))

/-- A navigation goes to a virtual location or to a directory that can be read. -/
def Act.ToReadable (fs : FileSystem) : Act → Bool
  | .navigateTo _ _ realPath => (truthy realPath).all fun path => fs.Readable path
  | _ => true

def navigation (fs : FileSystem) : Machine Index Act where
  step v a := if a.ToReadable fs then v.step fs a else none

/-! ## What should be shown -/

def FileSystem.contents (fs : FileSystem) (path : String) : List FileItem :=
  listing fs path ((fs.listFile path).getD [])

/-- The files of the location that is shown, none for a virtual one. -/
def Index.expected (fs : FileSystem) (v : Index) : List FileItem :=
  ((truthy v.currentRealPath).map fs.contents).getD []

/-- When nothing is being loaded the files shown are those of the location. -/
def Index.Consistent (fs : FileSystem) (v : Index) : Prop :=
  v.loads = [] → v.currentFiles = v.expected fs

/-- A load that ends last is one of a directory with the same files as the location shown. -/
def Index.EndsInPlace (fs : FileSystem) (v : Index) : Act → Prop
  | .finish k => ∀ path, v.loads[k]? = some path → v.loads.length = 1 → fs.contents path = v.expected fs
  | _ => True

/-! ## What a load should show -/

/-- A call of `loadFilesFromPath` is over when it has returned before its `await`, or when its load has
ended, whatever else was done meanwhile. -/
def LoadEnds (fs : FileSystem) (path : String) (v w : Index) : Prop :=
  if (loadFilesFromPath fs path v).loads = v.loads then w = loadFilesFromPath fs path v
  else
    ∃ acts u, (history fs).run (loadFilesFromPath fs path v) acts = some u ∧ u.loads = [path] ∧
      (history fs).step u (.finish 0) = some w

def entryPath (path name : String) : String := if path = "/" then "/" ++ name else path ++ "/" ++ name

/-- One item for each entry that `statSync` can read, folders first. -/
structure Lists (fs : FileSystem) (path : String) (files : List FileItem) : Prop where
  entries : (files.map (·.name)).Perm
    (((fs.listFile path).getD []).filter fun name => (fs.statSync (entryPath path name)).isSome)
  located : ∀ item ∈ files, item.path = entryPath path item.name
  folder : ∀ item ∈ files, item.type = .folder ↔ (fs.statSync item.path).any (·.isDirectory) = true
  ordered : files.Pairwise fun a b =>
    a.type = .folder ∧ b.type = .file ∨ a.type = b.type ∧ fs.localeCompare a.name b.name ≠ .gt

/-- After a load with no other one running the files are a function of the path: those in it if it is a
directory that can be read, else none. -/
def LoadShowsPath (fs : FileSystem) (path : String) : Prop :=
  ∃ files, (∀ v w, v.loads = [] → LoadEnds fs path v w → w.currentFiles = files) ∧
    (fs.Readable path → Lists fs path files) ∧ (¬ fs.Readable path → files = [])

/-! ## What the history should be -/

/-- The record that a navigation with these arguments asks for. -/
def target (pathName : String) (realPath : Option String) : PathRecord where
  name := (truthy realPath).getD pathName
  realPath := realPath

/-- The location that is shown, as a record. -/
def Index.here (v : Index) : PathRecord where
  name := v.currentPath
  realPath := v.currentRealPath

/-- The index is one of the history, its record is the location that is shown, and no record is followed
by an equal one. -/
structure Index.HistoryOk (v : Index) : Prop where
  inRange : v.historyIndex < v.pathHistory.length
  located : v.pathHistory[v.historyIndex]? = some v.here
  distinct : v.pathHistory.IsChain (· ≠ ·)

/-! ## Which node should be highlighted -/

/-- The identifiers and names of all nodes. -/
def navNodes : List (String × String) :=
  MOCK_NAV_DATA.flatMap fun node => (node.id, node.name) :: node.children

def nodeOf (name : String) : Option String := (navNodes.find? (·.2 = name)).map (·.1)

/-- A navigation that the page offers: to a node, or without one from the grid or the address bar. -/
def Act.Offered : Act → Bool
  | .navigateTo pathName navId realPath =>
      navId = none ∨ realPath = none ∧ ∃ node ∈ navNodes, navId = some node.1 ∧ pathName = node.2
  | _ => true

/-- The file manager in the hands of a user. -/
def clicks (fs : FileSystem) : Machine Index Act where
  step v a := if a.Offered then v.step fs a else none

/-- The node of the last of these records that has one. -/
def highlight (records : List PathRecord) : String :=
  records.foldl (fun id record => (nodeOf record.name).getD id) "this_pc"

/-- The node of the record at an index of the history. -/
def Index.nodeAt (v : Index) (i : Nat) : Option String := v.pathHistory[i]?.bind fun record => nodeOf record.name

/-- A navigation without a node does not go to the name of one that is not highlighted. -/
def Index.GoesToNoOther (v : Index) (pathName : String) (navId realPath : Option String) : Prop :=
  navId = none → v.here ≠ target pathName realPath →
    ∀ id, nodeOf (target pathName realPath).name = some id → v.selectedNavId = id

/-- The user goes back to a record without a node only if the one before it has none either, or the one
that is highlighted. -/
def Index.KeepsHighlight (v : Index) : Act → Prop
  | .navigateTo pathName navId realPath => v.GoesToNoOther pathName navId realPath
  | .goBack =>
      2 ≤ v.historyIndex → v.nodeAt (v.historyIndex - 1) = none →
        ∀ id, v.nodeAt (v.historyIndex - 2) = some id → v.selectedNavId = id
  | _ => True

/-- The user goes back to a record without a node only if the last one before it that has a node has the
one that is highlighted. -/
def Index.KeepsNearest (v : Index) : Act → Prop
  | .navigateTo pathName navId realPath => v.GoesToNoOther pathName navId realPath
  | .goBack =>
      0 < v.historyIndex → v.nodeAt (v.historyIndex - 1) = none →
        v.selectedNavId = highlight (v.pathHistory.take v.historyIndex)
  | _ => True

end Kworker.FileManager
