import Kworker.Bios.Lemmas.Setup

/-!
# What a boot does with the stored environment
-/

namespace Kworker.Bios

open Kworker.Lib

variable {ops : Option BoardOps} {stored : Env} {i : BootInput}

/-! ## The cases of a boot -/

/-- Either nothing is stored and recovery is not requested, or the boot saves and resets, and requests
recovery if what it saves asks for it. -/
theorem boot_check_cases (ops : Option BoardOps) (stored : Env) (i : BootInput) :
    (∃ r, kh_bios_boot_check ops stored i = (stored, r) ∧ r.saved = none ∧
      r.recoveryRequested = false) ∨
    ∃ ctx ram, kh_bios_boot_check ops stored i = (if i.save then ctx_env ctx ram else stored,
      { saved := some (ctx, i.save)
        recoveryRequested := requestsRecovery ops (ctx_env ctx ram)
        ending := .reset }) := by
  unfold kh_bios_boot_check
  cases ops with
  | none => exact Or.inl ⟨_, rfl, rfl, rfl⟩
  | some o =>
      simp only
      split
      · split
        · exact Or.inl ⟨_, rfl, rfl, rfl⟩
        · rename_i s _
          exact Or.inr ⟨s.ctx, s.ram, rfl⟩
        · exact Or.inl ⟨_, rfl, rfl, rfl⟩
        · exact Or.inl ⟨_, rfl, rfl, rfl⟩
        · exact Or.inl ⟨_, rfl, rfl, rfl⟩
        · exact Or.inl ⟨_, rfl, rfl, rfl⟩
      · exact Or.inl ⟨_, rfl, rfl, rfl⟩

theorem boot_check_saved {ctx : Ctx} {ok : Bool}
    (h : (kh_bios_boot_check ops stored i).2.saved = some (ctx, ok)) :
    ∃ ram, kh_bios_boot_check ops stored i = (if ok then ctx_env ctx ram else stored,
      { saved := some (ctx, ok)
        recoveryRequested := requestsRecovery ops (ctx_env ctx ram)
        ending := .reset }) := by
  rcases boot_check_cases ops stored i with ⟨r, hr, hsaved, _⟩ | ⟨ctx', ram, hr⟩
  · rw [hr] at h
    rw [hsaved] at h
    cases h
  · rw [hr] at h
    cases h
    exact ⟨ram, hr⟩

theorem boot_check_not_saved (h : (kh_bios_boot_check ops stored i).2.saved = none) :
    (kh_bios_boot_check ops stored i).1 = stored := by
  rcases boot_check_cases ops stored i with ⟨r, hr, _⟩ | ⟨ctx, ram, hr⟩
  · rw [hr]
  · rw [hr] at h
    cases h

theorem boot_check_bootCommand (h : (kh_bios_boot_check ops stored i).2.ending = .bootCommand) :
    (kh_bios_boot_check ops stored i).2.recoveryRequested = false := by
  rcases boot_check_cases ops stored i with ⟨r, hr, _, hreq⟩ | ⟨ctx, ram, hr⟩
  · rw [hr]
    exact hreq
  · rw [hr] at h
    cases h

theorem ending_eq_bootCommand_iff :
    (kh_bios_boot_check ops stored i).2.ending = .bootCommand ↔ i.GoesOn ops stored := by
  unfold kh_bios_boot_check BootInput.GoesOn
  cases ops with
  | none => simp
  | some o =>
      simp only [reduceCtorEq, false_or]
      cases hwait : (kh_bios_wait_f10 i.countdown (kh_bios_env_get_delay (some o))).1 with
      | false => simp
      | true =>
          simp only [if_true, Bool.true_eq_false, false_or]
          split <;> rename_i hrun <;> simp [hrun]

/-! ## The item for one boot -/

theorem switchesOnce_stored {w : World} (h : SwitchesOnce ops w i) :
    kh_bios_env_get_once_recovery (w.boot ops i).stored = true := by
  obtain ⟨_, ctx, hsaved, honce⟩ := h
  obtain ⟨ram, hboot⟩ := boot_check_saved hsaved
  simp only [World.boot, hboot, if_true, ctx_env_once, honce]

theorem stored_of_savesNothing {w v : World} {later : List BootInput}
    (hrun : (boots ops).run w later = some v) (hquiet : (boots ops).Guarded (SavesNothing ops) w later) :
    v.stored = w.stored := by
  refine (boots ops).run_of_guarded (I := fun u => u.stored = w.stored) ?_ rfl hquiet hrun
  intro u i u' hu hnone hstep
  cases hstep
  rw [← hu]
  exact boot_check_not_saved hnone

theorem savesUntouched_requests {w : World} (h : SavesUntouched ops w i)
    (honce : kh_bios_env_get_once_recovery w.stored = true)
    (hops : ops.any (·.set_recovery_next) = true) :
    (w.boot ops i).last.any (·.2.recoveryRequested) = true := by
  obtain ⟨ctx, ok, hsaved, hsame, _⟩ := h
  obtain ⟨ram, hboot⟩ := boot_check_saved hsaved
  simp [World.boot, hboot, requestsRecovery, wantRecovery, hsame, honce, hops]

/-! ## The default -/

theorem boot_followsDefault_iff (w : World) :
    (w.boot ops i).FollowsDefault ↔
      (i.GoesOn ops w.stored → kh_bios_env_get_default_boot w.stored ≠ .recovery) := by
  rw [← ending_eq_bootCommand_iff]
  simp only [World.FollowsDefault, World.boot, Option.some.injEq, Prod.mk.injEq]
  constructor
  · intro h hend hdefault
    have hreq := (h _ _ ⟨rfl, rfl⟩ hend).1 hdefault
    rw [boot_check_bootCommand hend] at hreq
    cases hreq
  · rintro h _ _ ⟨rfl, rfl⟩ hend
    exact ⟨fun hdefault => absurd hdefault (h hend), fun _ _ => boot_check_bootCommand hend⟩

end Kworker.Bios
