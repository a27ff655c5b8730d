import Kworker.FileManager.Index

/-!
# What one step does with the files that are shown
-/

namespace Kworker.FileManager

open Kworker.Lib

variable {fs : FileSystem} {v v' : Index}

/-! ## The invariant -/

def RealPathOk (fs : FileSystem) (realPath : Option String) : Prop :=
  ∀ path, truthy realPath = some path → fs.Readable path

/-- Every real path in the history and every outstanding load is a readable directory. -/
structure Index.Inv (fs : FileSystem) (v : Index) : Prop where
  inRange : v.historyIndex < v.pathHistory.length
  history : ∀ record ∈ v.pathHistory, RealPathOk fs record.realPath
  loads : ∀ path ∈ v.loads, fs.Readable path

theorem inv_initial (fs : FileSystem) : Index.Inv fs {} := by
  refine ⟨by decide, ?_, ?_⟩
  · intro record hmem path hpath
    rw [List.mem_singleton.mp hmem] at hpath
    cases hpath
  · intro path hmem
    cases hmem

theorem toReadable_iff {pathName : String} {navId realPath : Option String} :
    (Act.navigateTo pathName navId realPath).ToReadable fs = true ↔ RealPathOk fs realPath := by
  simp only [Act.ToReadable, RealPathOk]
  cases truthy realPath with
  | none => simp
  | some path => simp

/-! ## The parts of a step -/

/-- What the end of a navigation does: it begins a load, or there is nothing to wait for and the view is
right unless an earlier load is outstanding. -/
def Shows (fs : FileSystem) (v v' : Index) : Prop :=
  (∃ path, fs.Readable path ∧ v'.loads = v.loads ++ [path]) ∨ v'.loads = v.loads ∧ v'.Consistent fs

theorem showFiles_shows (h : RealPathOk fs v.currentRealPath) : Shows fs v (showFiles fs v) := by
  unfold showFiles
  cases hpath : truthy v.currentRealPath with
  | none =>
      refine Or.inr ⟨rfl, fun _ => ?_⟩
      simp [Index.expected, hpath]
  | some path =>
      have hread := h path hpath
      obtain ⟨stat, hstat, hdir⟩ := (Option.any_eq_true _ _).mp hread.1
      simp only [loadFilesFromPath, hstat, hdir, if_true]
      exact Or.inl ⟨path, hread, rfl⟩

/-- Showing the files changes nothing but the files, the error and the loads. -/
theorem showFiles_frame (fs : FileSystem) (v : Index) : ∃ files message loads,
    showFiles fs v = { v with currentFiles := files, errorMessage := message, loads := loads } := by
  unfold showFiles
  cases truthy v.currentRealPath with
  | none => exact ⟨_, _, _, rfl⟩
  | some path =>
      simp only [loadFilesFromPath]
      cases fs.statSync path with
      | none => exact ⟨_, _, _, rfl⟩
      | some stat =>
          simp only
          split
          · exact ⟨_, _, _, rfl⟩
          · exact ⟨_, _, _, rfl⟩

theorem showFiles_history (fs : FileSystem) (v : Index) :
    (showFiles fs v).pathHistory = v.pathHistory ∧ (showFiles fs v).historyIndex = v.historyIndex := by
  obtain ⟨_, _, _, h⟩ := showFiles_frame fs v
  rw [h]
  exact ⟨rfl, rfl⟩

theorem findSome_children {path : String} {nodes : List NavNode} (h : ∀ node ∈ nodes, node.name ≠ path) :
    (nodes.findSome? fun node => node.children.find? (·.2 = path)) =
      (nodes.flatMap fun node => (node.id, node.name) :: node.children).find? (·.2 = path) := by
  induction nodes with
  | nil => rfl
  | cons node nodes ih =>
      obtain ⟨hnode, hnodes⟩ := List.forall_mem_cons.mp h
      rw [List.findSome?_cons, List.flatMap_cons, List.cons_append, List.find?_cons_of_neg (by simp [hnode]),
        List.find?_append, ih hnodes]
      cases node.children.find? (·.2 = path) <;> rfl

/-- The node of the path is highlighted, if there is one. -/
theorem syncNavIdByPath_eq (path : String) (v : Index) :
    syncNavIdByPath path v = { v with selectedNavId := (nodeOf path).getD v.selectedNavId } := by
  unfold syncNavIdByPath
  split
  · rename_i hpc
    subst hpc
    rfl
  · rename_i hpc
    split
    · rename_i hquick
      subst hquick
      rfl
    · rename_i hquick
      split
      · rename_i hnetwork
        subst hnetwork
        rfl
      · rename_i hnetwork
        have hnames : ∀ node ∈ MOCK_NAV_DATA, node.name ≠ path := by
          simp [MOCK_NAV_DATA, Ne.symm hpc, Ne.symm hquick, Ne.symm hnetwork]
        rw [findSome_children hnames, nodeOf, navNodes]
        split
        · rename_i hfound
          rw [hfound]
          rfl
        · rename_i hfound
          rw [hfound]
          rfl

/-- The page at a record of its history, with its files still to be shown. -/
theorem showRecord_eq {i : Nat} (hi : i < v.pathHistory.length) (fs : FileSystem) :
    showRecord fs i v = showFiles fs { v with
      historyIndex := i
      currentPath := v.pathHistory[i].name
      addressBarText := v.pathHistory[i].name
      currentRealPath := v.pathHistory[i].realPath
      selectedNavId := (nodeOf v.pathHistory[i].name).getD v.selectedNavId } := by
  unfold showRecord
  simp only [List.getElem?_eq_getElem hi, syncNavIdByPath_eq]

/-- A navigation leaves everything as it is, or keeps a good history and shows the location. -/
def Navigates (fs : FileSystem) (v v' : Index) : Prop :=
  v' = v ∨ (v'.historyIndex < v'.pathHistory.length ∧
    ∀ record ∈ v'.pathHistory, RealPathOk fs record.realPath) ∧ Shows fs v v'

theorem showFiles_navigates {w : Index} (hloads : w.loads = v.loads)
    (hreal : RealPathOk fs w.currentRealPath) (hrange : w.historyIndex < w.pathHistory.length)
    (hhist : ∀ record ∈ w.pathHistory, RealPathOk fs record.realPath) :
    Navigates fs v (showFiles fs w) := by
  right
  obtain ⟨hpaths, hindex⟩ := showFiles_history fs w
  have hshows := showFiles_shows hreal
  rw [Shows, hloads] at hshows
  rw [hpaths, hindex]
  exact ⟨⟨hrange, hhist⟩, hshows⟩

theorem navigateTo_navigates {pathName : String} {navId realPath : Option String} (h : v.Inv fs)
    (hreal : RealPathOk fs realPath) : Navigates fs v (navigateTo fs pathName navId realPath v) := by
  unfold navigateTo
  simp only
  split
  · exact Or.inl rfl
  · apply showFiles_navigates
    · rfl
    · exact hreal
    · simp only [List.length_append, List.length_singleton]
      omega
    · intro record hmem
      rcases List.mem_append.mp hmem with hmem | hmem
      · apply h.history
        split at hmem
        · exact List.mem_of_mem_take hmem
        · exact hmem
      · rw [List.mem_singleton.mp hmem]
        exact hreal

theorem showRecord_navigates {i : Nat} (h : v.Inv fs) (hi : i < v.pathHistory.length) :
    Navigates fs v (showRecord fs i v) := by
  have hmem : v.pathHistory[i] ∈ v.pathHistory := List.getElem_mem hi
  rw [showRecord_eq hi]
  apply showFiles_navigates
  · rfl
  · exact h.history _ hmem
  · exact hi
  · exact h.history

theorem Navigates.inv (hn : Navigates fs v v') (h : v.Inv fs) : v'.Inv fs := by
  rcases hn with rfl | ⟨⟨hrange, hhist⟩, ⟨path, hpath, hloads⟩ | ⟨hloads, _⟩⟩
  · exact h
  · refine ⟨hrange, hhist, fun p hp => ?_⟩
    rw [hloads] at hp
    rcases List.mem_append.mp hp with hp | hp
    · exact h.loads p hp
    · rw [List.mem_singleton.mp hp]
      exact hpath
  · refine ⟨hrange, hhist, fun p hp => ?_⟩
    rw [hloads] at hp
    exact h.loads p hp

theorem Navigates.consistent (hn : Navigates fs v v') (hv : v.Consistent fs) : v'.Consistent fs := by
  rcases hn with rfl | ⟨_, ⟨path, _, hloads⟩ | ⟨_, hcons⟩⟩
  · exact hv
  · intro hnil
    simp [hloads] at hnil
  · exact hcons

theorem loadFinished_eq {path : String} (h : fs.Readable path) (v : Index) :
    loadFinished fs path v = { v with currentFiles := fs.contents path } := by
  obtain ⟨_, hlist⟩ := h
  obtain ⟨names, hnames⟩ := Option.isSome_iff_exists.mp hlist
  simp [loadFinished, FileSystem.contents, hnames]

/-! ## A step -/

/-- A step is a navigation, or the end of a load of a readable directory. -/
theorem step_cases {a : Act} (h : v.Inv fs) (hstep : (navigation fs).step v a = some v') :
    (Navigates fs v v' ∧ v.EndsInPlace fs a) ∨
    ∃ k path, a = .finish k ∧ v.loads[k]? = some path ∧ fs.Readable path ∧
      v' = { v with loads := v.loads.eraseIdx k, currentFiles := fs.contents path } := by
  simp only [navigation, Option.ite_none_right_eq_some] at hstep
  obtain ⟨hread, hstep⟩ := hstep
  cases a with
  | navigateTo pathName navId realPath =>
      cases hstep
      exact Or.inl ⟨navigateTo_navigates h (toReadable_iff.mp hread), trivial⟩
  | goBack =>
      cases hstep
      left
      refine ⟨?_, trivial⟩
      unfold goBack
      split
      · apply showRecord_navigates h
        have := h.inRange
        omega
      · exact Or.inl rfl
  | goForward =>
      cases hstep
      left
      refine ⟨?_, trivial⟩
      unfold goForward
      split
      · rename_i hi
        exact showRecord_navigates h hi
      · exact Or.inl rfl
  | finish k =>
      right
      simp only [Index.step, Option.map_eq_some_iff] at hstep
      obtain ⟨path, hk, rfl⟩ := hstep
      have hpath := h.loads path (List.mem_of_getElem? hk)
      exact ⟨k, path, rfl, hk, hpath, loadFinished_eq hpath _⟩

theorem step_inv (v : Index) (a : Act) (v' : Index) (h : v.Inv fs)
    (hstep : (navigation fs).step v a = some v') : v'.Inv fs := by
  rcases step_cases h hstep with ⟨hn, _⟩ | ⟨k, path, rfl, _, _, rfl⟩
  · exact hn.inv h
  · exact ⟨h.inRange, h.history, fun p hp => h.loads p (List.mem_of_mem_eraseIdx hp)⟩

/-- From a consistent page a step leads to one exactly if a load that ends last ends in place. -/
theorem step_consistent_iff {a : Act} (h : v.Inv fs) (hv : v.Consistent fs)
    (hstep : (navigation fs).step v a = some v') : v'.Consistent fs ↔ v.EndsInPlace fs a := by
  rcases step_cases h hstep with ⟨hn, hplace⟩ | ⟨k, path, rfl, hk, _, rfl⟩
  · exact iff_of_true (hn.consistent hv) hplace
  · have hlt : k < v.loads.length := (List.getElem?_eq_some_iff.mp hk).1
    have hnil : v.loads.eraseIdx k = [] ↔ v.loads.length = 1 := by
      rw [← List.length_eq_zero_iff, List.length_eraseIdx_of_lt hlt]
      omega
    simp only [Index.Consistent, Index.EndsInPlace, hk, Option.some.injEq, forall_eq', hnil]
    exact Iff.rfl

end Kworker.FileManager
