import Kworker.Daemon.Install
import Kworker.Daemon.Lemmas.Login

/-!
# The invariant of the first start
-/

namespace Kworker.Daemon

open Kworker.Lib Kworker.Posix

variable {s s' : Install} {a : InstallAct} {id : Nat} {name : List UInt8} {phase : Phase} {rest : List UInt8}

/-! ## Names -/

theorem isNameByte_ne {c d : UInt8} (h : isNameByte c = true) (hd : isNameByte d = false) : c ≠ d := by
  rintro rfl
  rw [h] at hd
  cases hd

theorem validUsername_bytes (h : validUsername name = true) : ∀ c ∈ name, isNameByte c = true := by
  cases name with
  | nil => cases h
  | cons c t =>
      rw [validUsername, Bool.and_eq_true, Bool.or_eq_true] at h
      refine List.forall_mem_cons.mpr ⟨?_, List.all_eq_true.mp h.2⟩
      rcases h.1 with hlower | hunderscore
      · rw [isNameByte, hlower]
        rfl
      · rw [of_decide_eq_true hunderscore]
        rfl

/-- A valid name is no option of `echo`. -/
theorem echo_valid (h : validUsername name = true) : echo name = name ++ [10] := by
  cases name with
  | nil => cases h
  | cons c t =>
      have hc : c ≠ 45 := by
        rintro rfl
        cases h
      unfold echo
      split
      · rename_i heq
        exact absurd (List.cons.inj heq).1 hc
      · rfl

theorem storedName_line (h : validUsername name = true) (rest : List UInt8) :
    storedName (some (name ++ 10 :: rest)) = name := by
  have hbytes := validUsername_bytes h
  rw [storedName, Option.getD_some, List.takeWhile_append_of_pos]
  · rw [List.takeWhile_cons]
    simp
  · intro c hc
    have hcr := isNameByte_ne (hbytes c hc) (d := 13) (by decide)
    have hlf := isNameByte_ne (hbytes c hc) (d := 10) (by decide)
    exact decide_eq_true ⟨hcr, hlf⟩

/-! ## Accounts -/

/-- Accounts stay, and so do their passwords, though they may be set again. -/
structure Install.Grows (s s' : Install) : Prop where
  account : ∀ name, (s.accounts name).isSome → (s'.accounts name).isSome
  password : ∀ name, (∃ pass, s.accounts name = some { password := some pass }) →
    ∃ pass, s'.accounts name = some { password := some pass }

theorem Install.Grows.of_eq (h : s'.accounts = s.accounts) : s.Grows s' where
  account _ hsome := h ▸ hsome
  password _ hpass := h ▸ hpass

theorem Install.Grows.add (h : s.accounts name = none) (id : Nat) (phase : Phase) :
    s.Grows ((s.setAccount name {}).to id phase) where
  account other hsome := by
    by_cases heq : other = name
    · subst heq
      simp [Install.to, Install.setAccount]
    · simpa [Install.to, Install.setAccount, heq] using hsome
  password other hpass := by
    have hne : other ≠ name := by
      rintro rfl
      obtain ⟨pass, hpass⟩ := hpass
      rw [h] at hpass
      cases hpass
    simpa [Install.to, Install.setAccount, hne] using hpass

theorem Install.Grows.change (name pass : List UInt8) (id : Nat) (phase : Phase) :
    s.Grows ((s.setAccount name { password := some pass }).to id phase) where
  account other hsome := by
    by_cases heq : other = name
    · subst heq
      simp [Install.to, Install.setAccount]
    · simpa [Install.to, Install.setAccount, heq] using hsome
  password other hpass := by
    by_cases heq : other = name
    · subst heq
      exact ⟨pass, by simp [Install.to, Install.setAccount]⟩
    · simpa [Install.to, Install.setAccount, heq] using hpass

theorem Install.Ready.grows (h : s.Ready name) (hgrows : s.Grows s') : s'.Ready name :=
  ⟨h.valid, h.notRoot, h.short, hgrows.password name h.password⟩

/-! ## The invariant -/

/-- What holds of the name that a script works on. -/
def PhaseOk (s : Install) : Phase → Prop
  | .askName => True
  | .adding name => name.bytes ≠ rootName
  | .askPassword name | .changing name _ => name.bytes ≠ rootName ∧ name.bytes.length ≤ 32
  | .storing name | .writing name | .su name => s.Ready name.bytes

theorem PhaseOk.grows (h : PhaseOk s phase) (hgrows : s.Grows s') : PhaseOk s' phase := by
  cases phase with
  | askName => trivial
  | adding name => exact h
  | askPassword name => exact h
  | changing name pass => exact h
  | storing name => exact Install.Ready.grows h hgrows
  | writing name => exact Install.Ready.grows h hgrows
  | su name => exact Install.Ready.grows h hgrows

inductive Install.FileOk (s : Install) : Prop
  | none (file : s.file = none)
  | empty (file : s.file = some [])
  | line (name rest : List UInt8) (file : s.file = some (name ++ 10 :: rest)) (ready : s.Ready name)

theorem Install.FileOk.grows (h : s.FileOk) (hgrows : s.Grows s') (hfile : s'.file = s.file) : s'.FileOk := by
  cases h with
  | none file => exact .none (hfile.trans file)
  | empty file => exact .empty (hfile.trans file)
  | line name rest file ready => exact .line name rest (hfile.trans file) (ready.grows hgrows)

structure Install.Inv (s : Install) : Prop where
  root : (s.accounts rootName).isSome
  file : s.FileOk
  phases : ∀ id phase, s.scripts id = some phase → PhaseOk s phase

/-- One script goes on, and the file stays as it is or is in order. -/
theorem Install.Inv.step (h : s.Inv) (hgrows : s.Grows s')
    (hscripts : ∀ id' p, s'.scripts id' = some p → s.scripts id' = some p ∨ PhaseOk s' p) (hfile : s'.FileOk) :
    s'.Inv where
  root := hgrows.account _ h.root
  file := hfile
  phases id' p hp := by
    rcases hscripts id' p hp with hold | hok
    · exact (h.phases id' p hold).grows hgrows
    · exact hok

theorem to_scripts (phase : Phase) (hok : PhaseOk s' phase)
    (hs : s'.scripts = Function.update s.scripts id (some phase)) :
    ∀ id' p, s'.scripts id' = some p → s.scripts id' = some p ∨ PhaseOk s' p := by
  intro id' p hp
  rw [hs] at hp
  by_cases heq : id' = id
  · subst heq
    rw [Function.update_self] at hp
    cases hp
    exact Or.inr hok
  · rw [Function.update_of_ne heq] at hp
    exact Or.inl hp

theorem to_inv (h : s.Inv) (phase : Phase) (hok : PhaseOk s phase) (id : Nat) : (s.to id phase).Inv :=
  have hgrows : s.Grows (s.to id phase) := .of_eq rfl
  h.step hgrows (to_scripts phase (hok.grows hgrows) rfl) (h.file.grows hgrows rfl)

theorem useradd_inv {name : UserName} (h : s.Inv) (hphase : s.scripts id = some (.adding name))
    (hadd : s.addable name = true) : ((s.setAccount name.bytes {}).to id (.askPassword name)).Inv := by
  obtain ⟨hnone, hshort⟩ := Bool.and_eq_true_iff.mp hadd
  have hgrows : s.Grows ((s.setAccount name.bytes {}).to id (.askPassword name)) :=
    .add (Option.isNone_iff_eq_none.mp hnone) id _
  refine h.step hgrows (to_scripts (.askPassword name) ?_ rfl) (h.file.grows hgrows rfl)
  exact ⟨h.phases id _ hphase, of_decide_eq_true hshort⟩

theorem chpasswd_inv {name : UserName} {pass : List UInt8} (h : s.Inv)
    (hphase : s.scripts id = some (.changing name pass)) :
    ((s.setAccount name.bytes { password := some pass }).to id (.storing name)).Inv := by
  have hgrows : s.Grows ((s.setAccount name.bytes { password := some pass }).to id (.storing name)) :=
    .change name.bytes pass id _
  refine h.step hgrows (to_scripts (.storing name) ?_ rfl) (h.file.grows hgrows rfl)
  obtain ⟨hroot, hshort⟩ := h.phases id _ hphase
  exact ⟨name.valid, hroot, hshort, pass, Function.update_self _ _ _⟩

theorem write_inv {name : UserName} (h : s.Inv) (hphase : s.scripts id = some (.writing name)) :
    ({ s with file := some (overwrite (echo name.bytes) s.file) }.to id (.su name)).Inv := by
  have hready : s.Ready name.bytes := h.phases id _ hphase
  have hgrows : s.Grows ({ s with file := some (overwrite (echo name.bytes) s.file) }.to id (.su name)) := .of_eq rfl
  refine h.step hgrows (to_scripts (.su name) (hready.grows hgrows) rfl) ?_
  refine .line name.bytes ((s.file.getD []).drop (name.bytes ++ [10]).length) ?_ (hready.grows hgrows)
  change some (overwrite (echo name.bytes) s.file) = _
  rw [overwrite, echo_valid name.valid, List.append_assoc, List.singleton_append]

/-! ## What a step can do -/

/-- `moves` is for every step of a script that only goes on to what it waits for next. -/
inductive InstallStep (s : Install) : InstallAct → Install → Prop
  | stays {a : InstallAct} : InstallStep s a s
  | moves {a : InstallAct} {id : Nat} {phase : Phase} (before : ∀ name, s.scripts id ≠ some (.writing name))
      (ok : s.Inv → PhaseOk s phase) : InstallStep s a (s.to id phase)
  | adds {a : InstallAct} {id : Nat} {name : UserName} (phase : s.scripts id = some (.adding name))
      (addable : s.addable name = true) :
      InstallStep s a ((s.setAccount name.bytes {}).to id (.askPassword name))
  | changes {a : InstallAct} {id : Nat} {name : UserName} {pass : List UInt8}
      (phase : s.scripts id = some (.changing name pass)) :
      InstallStep s a ((s.setAccount name.bytes { password := some pass }).to id (.storing name))
  | opens {a : InstallAct} {id : Nat} {name : UserName} (phase : s.scripts id = some (.storing name)) :
      InstallStep s a ({ s with file := some [] }.to id (.writing name))
  | writes {id : Nat} {name : UserName} (phase : s.scripts id = some (.writing name)) :
      InstallStep s (.write id true)
        ({ s with file := some (overwrite (echo name.bytes) s.file) }.to id (.su name))
  | fails {id : Nat} {name : UserName} (phase : s.scripts id = some (.writing name)) :
      InstallStep s (.write id false) (s.to id (.su name))
  | leaves {id : Nat} : InstallStep s (.leave id) { s with scripts := Function.update s.scripts id none }

theorem not_writing (h : s.scripts id = some phase) (hne : ∀ name, phase ≠ .writing name) (name : UserName) :
    s.scripts id ≠ some (.writing name) := by
  rw [h]
  exact fun heq => hne name (Option.some.inj heq)

theorem install_step_cases (hstep : install.step s a = some s') : InstallStep s a s' := by
  simp only [install] at hstep
  cases a with
  | start id calls p =>
      simp only [installStep, Option.ite_none_right_eq_some, Option.some.injEq] at hstep
      obtain ⟨hnone, rfl⟩ := hstep
      split
      · refine .moves (fun name hsome => ?_) fun _ => trivial
        rw [hsome] at hnone
        cases hnone
      · exact .stays
  | username id name =>
      simp only [installStep] at hstep
      split at hstep
      · rename_i hphase
        split at hstep
        · split at hstep
          · cases hstep
            exact .stays
          · rename_i hnew
            cases hstep
            refine .moves (not_writing hphase nofun) fun h => ?_
            rintro rfl
            exact hnew h.root
        · cases hstep
          exact .stays
      · cases hstep
  | useradd id ok =>
      simp only [installStep] at hstep
      split at hstep
      · rename_i name hphase
        split at hstep
        · rw [Option.ite_none_right_eq_some] at hstep
          obtain ⟨hadd, hs⟩ := hstep
          cases hs
          exact .adds hphase hadd
        · cases hstep
          exact .moves (not_writing hphase nofun) fun _ => trivial
      · cases hstep
  | passwords id pass1 pass2 =>
      simp only [installStep] at hstep
      split at hstep
      · rename_i name hphase
        cases hstep
        split
        · exact .moves (not_writing hphase nofun) fun h => h.phases id (.askPassword name) hphase
        · exact .stays
      · cases hstep
  | chpasswd id ok =>
      simp only [installStep] at hstep
      split at hstep
      · rename_i name pass hphase
        cases hstep
        split
        · exact .changes hphase
        · exact .moves (not_writing hphase nofun) fun h => h.phases id (.changing name pass) hphase
      · cases hstep
  | openFile id ok =>
      simp only [installStep] at hstep
      split at hstep
      · rename_i name hphase
        cases hstep
        split
        · exact .opens hphase
        · exact .moves (not_writing hphase nofun) fun h => h.phases id (.storing name) hphase
      · cases hstep
  | write id ok =>
      simp only [installStep] at hstep
      split at hstep
      · rename_i name hphase
        cases hstep
        cases ok with
        | true => exact .writes hphase
        | false => exact .fails hphase
      · cases hstep
  | leave id =>
      cases hstep
      exact .leaves

theorem install_step_inv (h : s.Inv) (hstep : InstallStep s a s') : s'.Inv := by
  cases hstep with
  | stays => exact h
  | moves _ ok => exact to_inv h _ (ok h) _
  | adds hphase hadd => exact useradd_inv h hphase hadd
  | changes hphase => exact chpasswd_inv h hphase
  | @opens _ id name hphase =>
      have hready : s.Ready name.bytes := h.phases id _ hphase
      have hgrows : s.Grows ({ s with file := some [] }.to id (.writing name)) := .of_eq rfl
      exact h.step hgrows (to_scripts (.writing name) (hready.grows hgrows) rfl) (.empty rfl)
  | writes hphase => exact write_inv h hphase
  | @fails id name hphase => exact to_inv h (.su name) (h.phases id (.writing name) hphase) id
  | @leaves id =>
      have hgrows : s.Grows { s with scripts := Function.update s.scripts id none } := .of_eq rfl
      refine h.step hgrows (fun id' p hp => ?_) (h.file.grows hgrows rfl)
      dsimp only at hp
      by_cases heq : id' = id
      · subst heq
        rw [Function.update_self] at hp
        cases hp
      · rw [Function.update_of_ne heq] at hp
        exact Or.inl hp

theorem install_run_inv {accounts : List UInt8 → Option Account} {acts : List InstallAct}
    (hroot : (accounts rootName).isSome) (hrun : install.run { accounts } acts = some s) : s.Inv := by
  have hstart : Install.Inv { accounts } := ⟨hroot, .none rfl, fun _ _ h => nomatch h⟩
  exact install.run_invariant (fun _ _ _ h hstep => install_step_inv h (install_step_cases hstep)) hstart hrun

/-! ## The next session -/

theorem ready_fits (h : s.Ready name) (rest : List UInt8) : NameFits (some (name ++ 10 :: rest)) := by
  rw [NameFits, storedName_line h.valid]
  refine ⟨?_, Nat.le_trans h.short (by decide), fun hzero => ?_⟩
  · rw [Ne, Option.some_inj]
    exact List.append_ne_nil_of_right_ne_nil _ (List.cons_ne_nil _ _)
  · exact isNameByte_ne (validUsername_bytes h.valid 0 hzero) (d := 0) (by decide) rfl

theorem loginFollows_of_fits {file : Option (List UInt8)} (h : NameFits file) : LoginFollows file := by
  intro c p hfile huse
  subst hfile
  have hfind : findUbuntu c = true := (Bool.and_eq_true_iff.mp huse).1
  exact sessionChild_logsIn huse ((defaultUser_eq_iff hfind).mpr h) p

theorem sound_of_inv (h : s.Inv) : s.Sound := by
  obtain ⟨_, hfile, hphases⟩ := h
  have hsu : ∀ id name, s.scripts id = some (.su name) → s.Ready name.bytes := fun id name hp => hphases id _ hp
  cases hfile with
  | none file =>
      have hfits : NameFits s.file := by
        rw [file]
        decide
      refine ⟨fun _ => loginFollows_of_fits hfits, fun hne => ?_, hsu, fun c hc huse => ?_⟩
      · rw [file] at hne
        exact absurd rfl hne
      · have hfind : findUbuntu c = true := (Bool.and_eq_true_iff.mp huse).1
        rw [(defaultUser_eq_iff hfind).mpr (hc ▸ hfits), hc, file]
        exact iff_of_false (by decide) (by decide)
  | empty file =>
      refine ⟨fun hne => absurd file hne, fun hne => ?_, hsu, fun c hc huse => ?_⟩
      · rw [file] at hne
        exact absurd rfl hne
      · have hfind : findUbuntu c = true := (Bool.and_eq_true_iff.mp huse).1
        refine iff_of_true ?_ file
        simp only [defaultUser, hfind, if_true, hc, file]
        rfl
  | line name rest file ready =>
      have hname : storedName s.file = name := by rw [file, storedName_line ready.valid]
      have hfits : NameFits s.file := file ▸ ready_fits ready rest
      refine ⟨fun _ => loginFollows_of_fits hfits, fun _ => hname ▸ ready, hsu, fun c hc huse => ?_⟩
      have hfind : findUbuntu c = true := (Bool.and_eq_true_iff.mp huse).1
      rw [(defaultUser_eq_iff hfind).mpr (hc ▸ hfits), hc, hname]
      exact iff_of_false ready.notRoot hfits.1

/-! ## The empty file -/

theorem Install.Written.of_update {p : Option Phase} (h : s.Written) (hfile : s'.file = s.file)
    (hs : s'.scripts = Function.update s.scripts id p) (hid : ∀ name, s.scripts id ≠ some (.writing name)) :
    s'.Written := by
  intro hempty
  obtain ⟨id', name, hwriting⟩ := h (hfile.symm.trans hempty)
  have hne : id' ≠ id := by
    rintro rfl
    exact hid name hwriting
  exact ⟨id', name, by rw [hs, Function.update_of_ne hne, hwriting]⟩

theorem install_step_written (h : s.Written) (hdone : Completes s a) (hstep : InstallStep s a s') : s'.Written := by
  cases hstep with
  | stays => exact h
  | moves before _ => exact h.of_update rfl rfl before
  | adds hphase _ => exact h.of_update rfl rfl (not_writing hphase nofun)
  | changes hphase => exact h.of_update rfl rfl (not_writing hphase nofun)
  | @opens _ id name _ => exact fun _ => ⟨id, name, Function.update_self _ _ _⟩
  | @writes id name _ =>
      intro hempty
      have hline : overwrite (echo name.bytes) s.file = [] := Option.some.inj hempty
      rw [overwrite, echo_valid name.valid] at hline
      simp at hline
  | fails _ => cases hdone
  | leaves => exact h.of_update rfl rfl hdone

theorem install_run_written {accounts : List UInt8 → Option Account} {acts : List InstallAct}
    (hdone : install.Guarded Completes { accounts } acts) (hrun : install.run { accounts } acts = some s) :
    s.Written := by
  have hstart : Install.Written { accounts } := by
    intro hempty
    cases hempty
  exact install.run_of_guarded (fun _ _ _ h hC hstep => install_step_written h hC (install_step_cases hstep))
    hstart hdone hrun

end Kworker.Daemon
