import Kworker.FileManager.Lemmas.Highlight
import Kworker.FileManager.Lemmas.Listing
import Kworker.FileManager.Lemmas.Size

/-!
# The file manager
-/

namespace Kworker.FileManager

open Kworker.Lib

/-! ## Loads that end late -/

/-- In every run of navigations to virtual locations and readable directories, whatever the order in
which their loads end: whenever nothing is being loaded the files shown are those of the location,
exactly if every load that ends last is one of a directory with the files of the location shown
then. -/
theorem files_consistent_iff (fs : FileSystem) (acts : List Act) :
    (navigation fs).Always (Index.Consistent fs) {} acts ↔
      (navigation fs).Guarded (Index.EndsInPlace fs) {} acts := by
  apply (navigation fs).always_iff_guarded step_inv
  · intro v a v' h hv hstep
    exact step_consistent_iff h hv hstep
  · exact inv_initial fs
  · intro _
    rfl

def oneFile : FileSystem where
  statSync path := if path = "/data" then some { isDirectory := true } else some { isDirectory := false }
  listFile path := if path = "/data" then some ["a"] else none
  localeCompare _ _ := .eq

/-- The user opens the directory and goes back before it has been read. -/
theorem late_load_overwrites :
    ¬ (navigation oneFile).Always (Index.Consistent oneFile) {}
      [.navigateTo "/data" none (some "/data"), .goBack, .finish 0] := by
  intro h
  have hend := h _ _ List.prefix_rfl rfl rfl
  revert hend
  decide

/-! ## Loads of what is no directory -/

/-- For every file system whose collation is an order and every path: after a load the files shown are those
of the path, whatever was shown before, exactly if there is a directory or nothing at the path. -/
theorem load_shows_path_iff (fs : FileSystem) [Std.TransCmp fs.localeCompare] (path : String) :
    LoadShowsPath fs path ↔ (fs.statSync path).all (·.isDirectory) = true := by
  constructor
  · intro hshows
    by_contra hpath
    cases hstat : fs.statSync path with
    | none => exact hpath (by rw [hstat]; rfl)
    | some stat =>
        rw [hstat, Option.all_some, Bool.not_eq_true] at hpath
        exact not_loadShowsPath hstat hpath hshows
  · intro hpath
    refine ⟨pathFiles fs path, fun _ _ hv hends => loadEnds_files hpath hv hends, ?_, fun hread => if_neg hread⟩
    intro hread
    rw [pathFiles, if_pos hread]
    exact contents_lists path

def twoEntries : FileSystem where
  statSync path := if path = "/data/b" then some { isDirectory := false } else some { isDirectory := true }
  listFile path := if path = "/data" then some ["b", "a"] else none
  localeCompare := compare

theorem load_shows_path_two : LoadShowsPath twoEntries "/data" := by
  have : Std.TransCmp twoEntries.localeCompare :=
    inferInstanceAs (Std.TransCmp (compare : String → String → Ordering))
  exact (load_shows_path_iff twoEntries "/data").mpr (by decide)

/-- The user opens the directory, waits, and types the path of the file in it: the directory's files stay. -/
theorem load_keeps_old_files :
    (∃ v, (history oneFile).run {}
        [.navigateTo "/data" none (some "/data"), .finish 0, .navigateTo "/data/a" none (some "/data/a")] =
          some v ∧
      v.currentPath = "/data/a" ∧ v.loads = [] ∧ v.errorMessage = "" ∧ v.currentFiles.map (·.name) = ["a"]) ∧
    ¬ LoadShowsPath oneFile "/data/a" :=
  ⟨⟨_, rfl, by decide, by decide, by decide, by decide⟩,
    not_loadShowsPath (show oneFile.statSync "/data/a" = some { isDirectory := false } by decide) rfl⟩

/-! ## The history -/

/-- After every run of navigations with any arguments: the history is sound, a navigation that does
something keeps it up to the index, adds its record as the last one and can be taken back, and going
back can be taken back. -/
theorem history_sound (fs : FileSystem) (acts : List Act) (v : Index)
    (hrun : (history fs).run {} acts = some v) :
    v.HistoryOk ∧
    (∀ pathName navId realPath,
      let v' := navigateTo fs pathName navId realPath v
      v' ≠ v → v'.pathHistory = v.pathHistory.take (v.historyIndex + 1) ++ [target pathName realPath] ∧
        v'.historyIndex = v.historyIndex + 1 ∧ v'.here = target pathName realPath ∧
        (goBack fs v').here = v.here) ∧
    (goBack fs v ≠ v → (goForward fs (goBack fs v)).here = v.here) := by
  have hok : v.HistoryOk := (history fs).run_invariant Index.HistoryOk.step historyOk_initial hrun
  refine ⟨hok, ?_, goForward_goBack hok⟩
  intro pathName navId realPath v' heff
  rcases navigateTo_cases fs pathName navId realPath hok.inRange with ⟨_, hsame⟩ | ⟨_, hpaths, hindex, hhere⟩
  · exact absurd hsame heff
  · exact ⟨hpaths, hindex, hhere, goBack_navigateTo hok heff⟩

/-- The user opens the directory, goes back and forward. -/
theorem history_there_and_back :
    let v := navigateTo oneFile "/data" none (some "/data") {}
    v.pathHistory = [⟨"此电脑", none⟩, ⟨"/data", some "/data"⟩] ∧
    (goForward oneFile (goBack oneFile v)).here = ⟨"/data", some "/data"⟩ := by
  intro v
  have hrun : (history oneFile).run {} [.navigateTo "/data" none (some "/data")] = some v := rfl
  exact ⟨by decide, (history_sound oneFile _ v hrun).2.2 (by decide)⟩

/-! ## The highlighted node -/

/-- The size that is shown is right exactly if it is not so little below the next unit that rounding
takes it there. -/
theorem formatBytes_iff (bytes : Nat) (h1 : 1 ≤ bytes) (h : bytes ≤ 2 ^ 53) :
    ShowsSize bytes ↔ ∀ k, ¬(204799 * 1024 ^ k ≤ 200 * bytes ∧ bytes < 1024 ^ (k + 1)) := by
  have h0 : bytes ≠ 0 := Nat.one_le_iff_ne_zero.mp h1
  have hunit : Nat.log 1024 bytes < sizes.length := by
    have hlt : bytes < 1024 ^ 6 := lt_of_le_of_lt h (by norm_num)
    exact lt_trans (Nat.log_lt_of_lt_pow h0 hlt) (by decide)
  rw [showsSize_iff h0 hunit, hundredths_lt_iff, below_band_iff]

theorem formatBytes_of_kilobyte : ShowsSize 1536 := by
  refine (formatBytes_iff 1536 (by decide) (by decide)).mpr ?_
  rintro (_ | k) ⟨hband, hnext⟩
  · omega
  · rw [pow_succ] at hband
    have hpos : 0 < 1024 ^ k := by positivity
    omega

/-- One byte less than a megabyte. -/
theorem formatBytes_rounds_up : formatBytes 1048575 = "1024 KB" ∧ ¬ ShowsSize 1048575 := by
  have hlog : Nat.log 1024 1048575 = 1 := Nat.log_eq_of_pow_le_of_lt_pow (by decide) (by decide)
  constructor
  · simp only [formatBytes, hlog]
    decide
  · rw [showsSize_iff (by decide) (by rw [hlog]; decide), hundredths_lt_iff, hlog]
    decide

end Kworker.FileManager
