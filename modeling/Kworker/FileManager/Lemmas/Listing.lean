import Kworker.FileManager.Lemmas.Index

/-!
# What a load leaves behind
-/

namespace Kworker.FileManager

open Kworker.Lib

variable {fs : FileSystem} {path : String} {item : FileItem} {files : List FileItem} {u v w : Index}

/-! ## The entries -/

theorem fileItem_eq (fs : FileSystem) (path name : String) :
    fileItem fs path name = (fs.statSync (entryPath path name)).map fun stat =>
      { id := entryPath path name
        name := name
        type := if stat.isDirectory then .folder else .file
        icon := if stat.isDirectory then "app.media.ic_folder" else "app.media.ic_file"
        path := entryPath path name
        details := if stat.isDirectory then "" else formatBytes stat.size } := rfl

theorem mem_listing {names : List String} :
    item ∈ listing fs path names ↔ ∃ name ∈ names, fileItem fs path name = some item := by
  rw [listing, List.mem_insertionSort, List.mem_filterMap]

theorem of_mem_listing {names : List String} (h : item ∈ listing fs path names) :
    ∃ stat, fs.statSync item.path = some stat ∧ item.path = entryPath path item.name ∧
      item.type = if stat.isDirectory then .folder else .file := by
  obtain ⟨name, _, hitem⟩ := mem_listing.mp h
  rw [fileItem_eq, Option.map_eq_some_iff] at hitem
  obtain ⟨stat, hstat, rfl⟩ := hitem
  exact ⟨stat, hstat, rfl, rfl⟩

theorem listing_names (fs : FileSystem) (path : String) (names : List String) :
    ((listing fs path names).map (·.name)).Perm
      (names.filter fun name => (fs.statSync (entryPath path name)).isSome) := by
  have hnames : (names.filterMap (fileItem fs path)).map (·.name) =
      names.filter fun name => (fs.statSync (entryPath path name)).isSome := by
    rw [List.map_filterMap, ← List.filterMap_eq_filter]
    congr
    funext name
    rw [fileItem_eq, Option.map_map]
    cases hstat : fs.statSync (entryPath path name) with
    | none => simp [Option.guard, hstat]
    | some stat => simp [Option.guard, hstat]
  rw [← hnames]
  exact (List.perm_insertionSort _ _).map _

/-! ## The order -/

def FileType.rank : FileType → Nat
  | .folder => 0
  | _ => 1

/-- The order of the items of a directory, which holds no drives. -/
def itemOrder (fs : FileSystem) : FileItem → FileItem → Ordering :=
  compareLex (compareOn (·.type.rank)) fun a b => fs.localeCompare a.name b.name

theorem fileOrder_eq {a b : FileItem} (ha : a.type ≠ .drive) (hb : b.type ≠ .drive) :
    fileOrder fs a b = itemOrder fs a b := by
  show (if a.type = b.type then _ else if a.type = .folder then _ else _) =
    (compare a.type.rank b.type.rank).then (fs.localeCompare a.name b.name)
  generalize a.type = s at ha ⊢
  generalize b.type = t at hb ⊢
  cases s with
  | drive => exact absurd rfl ha
  | folder =>
      cases t with
      | drive => exact absurd rfl hb
      | folder => rfl
      | file => rfl
  | file =>
      cases t with
      | drive => exact absurd rfl hb
      | folder => rfl
      | file => rfl

theorem fileOrder_ne_gt {a b : FileItem} (hb : b.type ≠ .drive) (h : fileOrder fs a b ≠ .gt) :
    a.type = .folder ∧ b.type = .file ∨ a.type = b.type ∧ fs.localeCompare a.name b.name ≠ .gt := by
  unfold fileOrder at h
  split at h
  · rename_i hsame
    exact Or.inr ⟨hsame, h⟩
  · rename_i hother
    split at h
    · rename_i hfolder
      rw [hfolder] at hother
      left
      refine ⟨hfolder, ?_⟩
      cases htype : b.type with
      | drive => exact absurd htype hb
      | folder => exact absurd htype.symm hother
      | file => rfl
    · exact absurd rfl h

instance [Std.TransCmp fs.localeCompare] : Std.TransCmp (itemOrder fs) :=
  have : Std.TransCmp fun a b : FileItem => fs.localeCompare a.name b.name :=
    { eq_swap := Std.OrientedCmp.eq_swap, isLE_trans := Std.TransCmp.isLE_trans }
  inferInstanceAs (Std.TransCmp (compareLex _ _))

theorem type_ne_drive {names : List String} (h : item ∈ names.filterMap (fileItem fs path)) :
    item.type ≠ .drive := by
  obtain ⟨stat, _, _, htype⟩ := of_mem_listing ((List.mem_insertionSort _).mpr h)
  rw [htype]
  cases stat.isDirectory <;> decide

theorem listing_pairwise [Std.TransCmp fs.localeCompare] (path : String) (names : List String) :
    (listing fs path names).Pairwise fun a b => (itemOrder fs a b).isLE = true := by
  have htotal : Std.Total fun a b => (itemOrder fs a b).isLE = true := by
    refine ⟨fun a b => ?_⟩
    have hswap : itemOrder fs b a = (itemOrder fs a b).swap := Std.OrientedCmp.eq_swap
    rw [hswap]
    cases itemOrder fs a b <;> decide
  have htrans : IsTrans FileItem fun a b => (itemOrder fs a b).isLE = true :=
    ⟨fun _ _ _ => Std.TransCmp.isLE_trans⟩
  have hsame := List.map_insertionSort (fun a b => fileOrder fs a b ≠ .gt)
    (fun a b => (itemOrder fs a b).isLE = true) id (names.filterMap (fileItem fs path)) (by
      intro a ha b hb
      rw [fileOrder_eq (type_ne_drive ha) (type_ne_drive hb), Ordering.isLE_iff_ne_gt]
      rfl)
  rw [List.map_id, List.map_id] at hsame
  rw [listing, hsame]
  exact List.pairwise_insertionSort _ _

theorem contents_lists [Std.TransCmp fs.localeCompare] (path : String) :
    Lists fs path (fs.contents path) := by
  refine ⟨listing_names fs path _, ?_, ?_, ?_⟩
  · intro item hmem
    obtain ⟨_, _, hpath, _⟩ := of_mem_listing hmem
    exact hpath
  · intro item hmem
    obtain ⟨stat, hstat, _, htype⟩ := of_mem_listing hmem
    rw [htype, hstat, Option.any_some]
    cases stat.isDirectory <;> decide
  · refine (listing_pairwise path _).imp_of_mem fun {a b} ha hb hle => ?_
    have ha := type_ne_drive ((List.mem_insertionSort _).mp ha)
    have hb := type_ne_drive ((List.mem_insertionSort _).mp hb)
    apply fileOrder_ne_gt hb
    rw [fileOrder_eq ha hb]
    exact Ordering.isLE_iff_ne_gt.mp hle

/-! ## The end of a load -/

/-- What a path has to show: its contents if it is a directory that can be read. -/
def pathFiles (fs : FileSystem) (path : String) : List FileItem :=
  if fs.Readable path then fs.contents path else []

theorem loadFinished_files (hdir : (fs.statSync path).any (·.isDirectory) = true) (v : Index) :
    (loadFinished fs path v).currentFiles = pathFiles fs path := by
  by_cases hread : fs.Readable path
  · rw [loadFinished_eq hread, pathFiles, if_pos hread]
  · have hlist : fs.listFile path = none := by
      rw [← Option.not_isSome_iff_eq_none]
      exact fun hlist => hread ⟨hdir, hlist⟩
    rw [loadFinished, hlist, pathFiles, if_neg hread]
    rfl

/-- Where there is nothing, or a directory, a load that is over has left behind what the path has to show. -/
theorem loadEnds_files (hpath : (fs.statSync path).all (·.isDirectory) = true) (hv : v.loads = [])
    (hends : LoadEnds fs path v w) : w.currentFiles = pathFiles fs path := by
  unfold LoadEnds at hends
  cases hstat : fs.statSync path with
  | none =>
      have hcall : loadFilesFromPath fs path v = loadFailed fs path { v with errorMessage := "" } := by
        simp only [loadFilesFromPath, hstat]
      have hloads : (loadFilesFromPath fs path v).loads = v.loads := by rw [hcall]; rfl
      have hread : ¬ fs.Readable path := by
        rintro ⟨hdir, _⟩
        rw [hstat] at hdir
        cases hdir
      rw [if_pos hloads, hcall] at hends
      rw [hends, pathFiles, if_neg hread]
      rfl
  | some stat =>
      have hdir : stat.isDirectory = true := by simpa [hstat] using hpath
      have hloads : (loadFilesFromPath fs path v).loads = [path] := by
        simp [loadFilesFromPath, hstat, hdir, hv]
      rw [hloads, hv, if_neg (List.cons_ne_nil _ _)] at hends
      obtain ⟨_, u, _, hu, hstep⟩ := hends
      simp only [history, Index.step, hu, Option.map_eq_some_iff] at hstep
      obtain ⟨ended, hended, rfl⟩ := hstep
      cases hended
      exact loadFinished_files (by rw [hstat]; exact hdir) _

/-- At a path that is no directory the call returns at once and leaves the files as they are. -/
theorem loadEnds_of_not_directory {stat : Stat} (hstat : fs.statSync path = some stat)
    (hfile : stat.isDirectory = false) (v : Index) : LoadEnds fs path v { v with errorMessage := "" } := by
  have hcall : loadFilesFromPath fs path v = { v with errorMessage := "" } := by
    simp [loadFilesFromPath, hstat, hfile]
  rw [LoadEnds, hcall]
  exact (if_pos rfl).mpr rfl

theorem not_loadShowsPath {stat : Stat} (hstat : fs.statSync path = some stat)
    (hfile : stat.isDirectory = false) : ¬ LoadShowsPath fs path := by
  rintro ⟨files, hfiles, _, hnone⟩
  have hread : ¬ fs.Readable path := by
    rintro ⟨hdir, _⟩
    rw [hstat, Option.any_some, hfile] at hdir
    cases hdir
  have hempty := hnone hread
  have hkept := hfiles { currentFiles := [⟨"/a", "a", .file, "", "/a", ""⟩] } _ rfl
    (loadEnds_of_not_directory hstat hfile _)
  rw [hempty] at hkept
  cases hkept

end Kworker.FileManager
