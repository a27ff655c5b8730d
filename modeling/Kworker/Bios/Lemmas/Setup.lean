import Kworker.Bios.Boot

/-!
# What a session of the setup leaves in the environment
-/

namespace Kworker.Bios

open Kworker.Lib

variable {o : BoardOps} {stored : Env} {i : BootInput} {s : Setup}

/-! ## Loading -/

theorem ctx_load_congr {e e' : Env} (h : ∀ name ∈ savedVariables, e name = e' name) :
    ctx_load e = ctx_load e' := by
  have hboot := h ENV_DEFAULT_BOOT (by simp [savedVariables])
  have honce := h ENV_ONCE_RECOVERY (by simp [savedVariables])
  have hgmac0 := h ENV_GMAC0 (by simp [savedVariables])
  have hgmac1 := h ENV_GMAC1 (by simp [savedVariables])
  simp [ctx_load, kh_bios_env_get_default_boot, kh_bios_env_get_once_recovery, kh_bios_env_get_gmac,
    gmacName, hboot, honce, hgmac0, hgmac1]

theorem serial_init_of_ne (uart : Option String) (env : Env) {name : String} (h : name ≠ "stdin") :
    bios_serial_init uart env name = env name := by
  cases uart with
  | none => rfl
  | some dev => exact env.set_of_ne "stdin" _ h

theorem serial_init_stdin (dev : String) (env : Env) :
    bios_serial_init (some dev) env "stdin" = some (String.ofList ((dev ++ ",usbkbd").toList.take 47)) :=
  env.set_self "stdin" _

theorem loaded_eq (i : BootInput) (stored : Env) : i.loaded stored = ctx_load stored := by
  apply ctx_load_congr
  intro name hname
  apply serial_init_of_ne
  rintro rfl
  revert hname
  decide

/-! ## Saving -/

theorem ctx_env_of_notMem (ctx : Ctx) (env : Env) {name : String} (h : name ∉ savedVariables) :
    ctx_env ctx env name = env name := by
  simp only [savedVariables, List.mem_cons, List.not_mem_nil, or_false, not_or] at h
  obtain ⟨hboot, honce, hgmac0, hgmac1⟩ := h
  simp [ctx_env, kh_bios_env_set_default_boot, kh_bios_env_set_once_recovery, kh_bios_env_set_gmac,
    gmacName, hboot, honce, hgmac0, hgmac1]

@[simp] theorem ctx_env_default_boot (ctx : Ctx) (env : Env) :
    kh_bios_env_get_default_boot (ctx_env ctx env) = ctx.default_boot := by
  have h : (ctx_env ctx env) ENV_DEFAULT_BOOT =
      some (if ctx.default_boot = .recovery then "recovery" else "normal") := by
    simp [ctx_env, kh_bios_env_set_gmac, kh_bios_env_set_once_recovery, kh_bios_env_set_default_boot,
      gmacName, ENV_DEFAULT_BOOT, ENV_ONCE_RECOVERY, ENV_GMAC0, ENV_GMAC1]
  rw [kh_bios_env_get_default_boot, h]
  cases ctx.default_boot <;> rfl

@[simp] theorem ctx_env_once (ctx : Ctx) (env : Env) :
    kh_bios_env_get_once_recovery (ctx_env ctx env) = ctx.once_recovery := by
  have h : (ctx_env ctx env) ENV_ONCE_RECOVERY = some (if ctx.once_recovery then "1" else "0") := by
    simp [ctx_env, kh_bios_env_set_gmac, kh_bios_env_set_once_recovery, gmacName, ENV_ONCE_RECOVERY,
      ENV_GMAC0, ENV_GMAC1]
  rw [kh_bios_env_get_once_recovery, h]
  cases ctx.once_recovery <;> rfl

@[simp] theorem ctx_env_gmac (ctx : Ctx) (env : Env) (idx : Nat) :
    kh_bios_env_get_gmac idx (ctx_env ctx env) = if idx ≠ 0 then ctx.gmac1 else ctx.gmac0 := by
  have h : (ctx_env ctx env) (gmacName idx) =
      some (if (if idx ≠ 0 then ctx.gmac1 else ctx.gmac0) then "1" else "0") := by
    by_cases hidx : idx = 0 <;> simp [ctx_env, kh_bios_env_set_gmac, gmacName, hidx, ENV_GMAC0, ENV_GMAC1]
  rw [kh_bios_env_get_gmac, h]
  cases (if idx ≠ 0 then ctx.gmac1 else ctx.gmac0) <;> rfl

theorem ctx_load_ctx_env (ctx : Ctx) (env : Env) :
    ctx_load (ctx_env ctx env) = { ctx with dirty := false } := by
  simp [ctx_load]

/-! ## A session -/

/-- What a key can do: it ends the session, moves in the menus, or toggles an item. -/
theorem key_cases (ops : Option BoardOps) (s : Setup) (key : Key) :
    (∃ exit, s.key ops key = .error (exit, s)) ∨ (∃ screen, s.key ops key = .ok { s with screen }) ∨
    (∃ sel, s.key ops key = .ok { s with ctx := toggleBoot sel s.ctx }) ∨
    ∃ sel, s.key ops key = .ok (toggleHardware ops sel s) := by
  have henter : ∀ page, ∃ screen, s.enter ops page = { s with screen } := by
    intro page
    cases page <;> exact ⟨_, rfl⟩
  obtain ⟨screen, ctx, ram⟩ := s
  unfold Setup.key
  split
  · exact Or.inr (Or.inl ⟨screen, rfl⟩)
  · cases screen with
    | main sel =>
        simp only [page_main]
        split
        · exact Or.inl ⟨_, rfl⟩
        · split
          · exact Or.inr (Or.inl ⟨_, rfl⟩)
          · rename_i item _
            obtain ⟨screen, hscreen⟩ := henter item.page
            cases item.action with
            | none => exact Or.inr (Or.inl ⟨screen, congrArg Except.ok hscreen⟩)
            | info => exact Or.inr (Or.inl ⟨_, rfl⟩)
            | save_exit => exact Or.inl ⟨_, rfl⟩
            | discard_exit => exact Or.inl ⟨_, rfl⟩
        · exact Or.inr (Or.inl ⟨_, rfl⟩)
    | info sel => exact Or.inr (Or.inl ⟨_, rfl⟩)
    | boot sel =>
        cases key with
        | enter => exact Or.inr (Or.inr (Or.inl ⟨sel, rfl⟩))
        | _ => exact Or.inr (Or.inl ⟨_, rfl⟩)
    | hardware sel line_count =>
        cases key with
        | enter => exact Or.inr (Or.inr (Or.inr ⟨sel, rfl⟩))
        | _ => exact Or.inr (Or.inl ⟨_, rfl⟩)
    | security =>
        simp only
        split
        · exact Or.inr (Or.inl ⟨_, rfl⟩)
        · exact Or.inr (Or.inl ⟨_, rfl⟩)
    | advanced sel =>
        simp only [page_advanced]
        split
        · exact Or.inr (Or.inl ⟨_, rfl⟩)
        · split
          · exact Or.inl ⟨_, rfl⟩
          · split
            · exact Or.inl ⟨_, rfl⟩
            · exact Or.inl ⟨_, rfl⟩
        · exact Or.inr (Or.inl ⟨_, rfl⟩)

theorem toggleHardware_ram (hops : o.hw_toggle_item = none) (sel : Nat) (s : Setup) :
    (toggleHardware (some o) sel s).ram = s.ram := by
  simp only [toggleHardware, Option.bind_some, hops]
  split <;> rfl

theorem key_ram (hops : o.hw_toggle_item = none) {key : Key} {s' : Setup}
    (h : s.key (some o) key = .ok s') : s'.ram = s.ram := by
  rcases key_cases (some o) s key with ⟨exit, hkey⟩ | ⟨screen, hkey⟩ | ⟨sel, hkey⟩ | ⟨sel, hkey⟩ <;>
    rw [hkey] at h <;> cases h
  · rfl
  · rfl
  · exact toggleHardware_ram hops sel s

theorem key_exit {ops : Option BoardOps} {key : Key} {exit : Exit} {s' : Setup}
    (h : s.key ops key = .error (exit, s')) : s' = s := by
  rcases key_cases ops s key with ⟨exit, hkey⟩ | ⟨screen, hkey⟩ | ⟨sel, hkey⟩ | ⟨sel, hkey⟩ <;>
    rw [hkey] at h <;> cases h
  rfl

/-- Without `hw_toggle_item` no session writes the RAM environment. -/
theorem run_ram (hops : o.hw_toggle_item = none) {keys : List Key} {exit : Exit} {s' : Setup}
    (h : keys.foldlM (Setup.key (some o)) s = .error (exit, s')) : s'.ram = s.ram := by
  induction keys generalizing s with
  | nil => cases h
  | cons key keys ih =>
      rw [List.foldlM_cons] at h
      cases hkey : s.key (some o) key with
      | error e =>
          rw [hkey] at h
          cases h
          rw [key_exit hkey]
      | ok t =>
          rw [hkey] at h
          rw [ih h, key_ram hops hkey]

/-! ## What is stored after it -/

theorem stored_of_save (h : i.Leaves (some o) stored .save s) (hsave : i.save = true) :
    (kh_bios_boot_check (some o) stored i).1 = ctx_env s.ctx s.ram := by
  simp only [kh_bios_boot_check, h.1, h.2, hsave, if_true]

theorem stored_of_discard (h : i.Leaves (some o) stored .discard s) :
    (kh_bios_boot_check (some o) stored i).1 = stored := by
  simp only [kh_bios_boot_check, h.1, h.2, if_true]

/-! ## Save Configuration and Exit -/

/-- What a boot does at the end of a session that is saved, a failed save leaving the store as it was. -/
theorem boot_check_save (h : i.Leaves (some o) stored .save s) :
    let e := saveExit (some o) (if i.save then .written else .failed stored) s.ctx s.ram
    kh_bios_boot_check (some o) stored i = (e.stored,
      { saved := some (s.ctx, i.save), recoveryRequested := e.recoveryRequested, ending := .reset }) := by
  simp only [kh_bios_boot_check, h.1, h.2, if_true]
  cases i.save <;> rfl

theorem saveExit_config_saved (ops : Option BoardOps) (save : SaveOutcome) (ctx : Ctx) (ram : Env) :
    (saveExit ops save ctx ram).config_saved = true := rfl

theorem requestsRecovery_want {ops : Option BoardOps} {env : Env} (h : requestsRecovery ops env = true) :
    wantRecovery env = true := by
  simp only [requestsRecovery, Bool.and_eq_true] at h
  exact h.1

end Kworker.Bios
