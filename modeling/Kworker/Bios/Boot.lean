import Kworker.Bios.Setup
import Kworker.Lib.Machine

/-!
# Boots

`core/kh_bios.c` and `core/kh_bios_boot.c`: what one power-on does with the stored environment and with
the request to boot the recovery system, and the machine of all boots.
-/

namespace Kworker.Bios

open Kworker.Lib

/-! ## One boot -/

inductive Ending where
  /-- the boot goes on to the boot command -/
  | bootCommand
  | reset
  | cli
  /-- the power is cut while the menu waits for a key -/
  | powerOff
  deriving DecidableEq, Repr

/-- What a boot has done: whether the setup was saved (with what, and successfully), whether
`set_recovery_next` was called, and how it ended. -/
structure BootRecord where
  saved : Option (Ctx × Bool) := none
  recoveryRequested : Bool := false
  ending : Ending

/-- What happens during a boot. `save` says whether `env_save` succeeds. -/
structure BootInput where
  /-- the name of the serial device, if one is found -/
  uart : Option String := none
  countdown : Countdown
  keys : List Key := []
  save : Bool := true

/-- The environment part of `bios_serial_init`. -/
def bios_serial_init (uart : Option String) (env : Env) : Env :=
  match uart with
  | none => env
  -- `char stdin_cfg[48]`
  | some name => env.set "stdin" (String.ofList ((name ++ ",usbkbd").toList.take 47))

def wantRecovery (env : Env) : Bool :=
  kh_bios_env_get_default_boot env = .recovery || kh_bios_env_get_once_recovery env

def requestsRecovery (ops : Option BoardOps) (env : Env) : Bool :=
  wantRecovery env && ops.any (·.set_recovery_next)

/-- The request that `kh_bios_boot_system` makes, the environment it leaves, and whether it calls
`boot_normal`. No boot calls it. -/
def kh_bios_boot_system (ops : Option BoardOps) (env : Env) : Bool × Env × Bool :=
  (requestsRecovery ops env, kh_bios_env_apply_boot_choice env, ops.any (·.boot_normal))

/-- The request that `kh_bios_exit_reboot` makes and the environment it leaves in RAM. -/
def kh_bios_exit_reboot (ops : Option BoardOps) (config_saved : Bool) (env : Env) : Bool × Env :=
  if config_saved then (requestsRecovery ops env, kh_bios_env_apply_boot_choice env) else (false, env)

/-! ## Save Configuration and Exit -/

def CMD_RET_SUCCESS : Int := 0
def CMD_RET_FAILURE : Int := 1

/-- How a call of `env_save` goes; one that fails may leave anything in the store. -/
inductive SaveOutcome where
  | written
  | failed (left : Env)

/-- The returned value and what is stored. -/
def kh_bios_env_save (save : SaveOutcome) (ram : Env) : Int × Env :=
  match save with
  | .written => (CMD_RET_SUCCESS, ram)
  | .failed left => (CMD_RET_FAILURE, left)

/-- The context, the environment in RAM and what is stored. -/
def ctx_save_all (save : SaveOutcome) (ctx : Ctx) (ram : Env) : Ctx × Env × Env :=
  let ram := ctx_env ctx ram
  -- the returned value is not looked at
  let (_, stored) := kh_bios_env_save save ram
  ({ ctx with dirty := false }, ram, stored)

/-- What has been done when the board resets; `config_saved` is what `kh_bios_exit_reboot` was called
with. -/
structure SaveExit where
  ctx : Ctx
  ram : Env
  stored : Env
  recoveryRequested : Bool
  config_saved : Bool

/-- The case `KH_MAIN_ACT_SAVE_EXIT` of `page_main`. -/
def saveExit (ops : Option BoardOps) (save : SaveOutcome) (ctx : Ctx) (ram : Env) : SaveExit :=
  let (ctx, ram, stored) := ctx_save_all save ctx ram
  let (recoveryRequested, ram) := kh_bios_exit_reboot ops true ram
  { ctx, ram, stored, recoveryRequested, config_saved := true }

/-! ## The boot as a whole -/

/-- From the environment in the store to the one that is stored at the end. -/
def kh_bios_boot_check (ops : Option BoardOps) (stored : Env) (i : BootInput) : Env × BootRecord :=
  match ops with
  | none => (stored, { ending := .bootCommand })
  | some _ =>
      let ram := bios_serial_init i.uart stored
      if (kh_bios_wait_f10 i.countdown (kh_bios_env_get_delay ops)).1 then
        match kh_bios_run ops ram i.keys with
        | .ok _ => (stored, { ending := .powerOff })
        | .error (.save, s) =>
            let ram := ctx_env s.ctx s.ram
            (if i.save then ram else stored,
              { saved := some (s.ctx, i.save)
                recoveryRequested := (kh_bios_exit_reboot ops true ram).1
                ending := .reset })
        | .error (.discard, s) =>
            (stored, { recoveryRequested := (kh_bios_exit_reboot ops false s.ram).1, ending := .reset })
        | .error (.fastboot, _) | .error (.rockusb, _) => (stored, { ending := .bootCommand })
        | .error (.cli, _) => (stored, { ending := .cli })
      else (stored, { ending := .bootCommand })

/-! ## All boots -/

/-- The stored environment, and what the last boot found there and did. -/
structure World where
  stored : Env
  last : Option (Env × BootRecord) := none

def World.boot (ops : Option BoardOps) (w : World) (i : BootInput) : World :=
  let (stored, r) := kh_bios_boot_check ops w.stored i
  { stored, last := some (w.stored, r) }

def boots (ops : Option BoardOps) : Machine World BootInput := ⟨fun w i => some (w.boot ops i)⟩

/-! ## What the recovery choices should do -/

/-- The ways to the boot command: there is no board, the countdown expires or is skipped, or the menu is
left through Advanced. -/
def BootInput.GoesOn (i : BootInput) (ops : Option BoardOps) (stored : Env) : Prop :=
  ops = none ∨ (kh_bios_wait_f10 i.countdown (kh_bios_env_get_delay ops)).1 = false ∨
    ∃ s, kh_bios_run ops (bios_serial_init i.uart stored) i.keys = .error (.fastboot, s) ∨
      kh_bios_run ops (bios_serial_init i.uart stored) i.keys = .error (.rockusb, s)

/-- A boot that goes on to the boot command has requested recovery if that is the default, and has not
if the default is normal and the item for one boot is off. -/
def BootRecord.FollowsDefault (r : BootRecord) (stored : Env) : Prop :=
  r.ending = .bootCommand →
    (kh_bios_env_get_default_boot stored = .recovery → r.recoveryRequested = true) ∧
    (kh_bios_env_get_default_boot stored = .normal → kh_bios_env_get_once_recovery stored = false →
      r.recoveryRequested = false)

def World.FollowsDefault (w : World) : Prop := ∀ stored r, w.last = some (stored, r) → r.FollowsDefault stored

/-- The boot switches 'Boot Recovery once' from off to on and saves. -/
def SwitchesOnce (ops : Option BoardOps) (w : World) (i : BootInput) : Prop :=
  kh_bios_env_get_once_recovery w.stored = false ∧
    ∃ ctx, (kh_bios_boot_check ops w.stored i).2.saved = some (ctx, true) ∧ ctx.once_recovery = true

def SavesNothing (ops : Option BoardOps) (w : World) (i : BootInput) : Prop :=
  (kh_bios_boot_check ops w.stored i).2.saved = none

/-- The boot saves, with the item as it was loaded and the default normal. -/
def SavesUntouched (ops : Option BoardOps) (w : World) (i : BootInput) : Prop :=
  ∃ ctx ok, (kh_bios_boot_check ops w.stored i).2.saved = some (ctx, ok) ∧
    ctx.once_recovery = kh_bios_env_get_once_recovery w.stored ∧ ctx.default_boot = .normal

/-- The request has been used up: it is not stored any more, and no later Save and Exit that leaves the
item untouched requests recovery again. -/
def OnceConsumed (ops : Option BoardOps) (w : World) : Prop :=
  kh_bios_env_get_once_recovery w.stored = false ∧
    ∀ later v i, (boots ops).run w later = some v → (boots ops).Guarded (SavesNothing ops) w later →
      SavesUntouched ops v i → (v.boot ops i).last.any (·.2.recoveryRequested) = false

/-! ## What a session should leave -/

/-- The variables that `ctx_save_all` sets. -/
def savedVariables : List String := [ENV_DEFAULT_BOOT, ENV_ONCE_RECOVERY, ENV_GMAC0, ENV_GMAC1]

/-- The context that a session of this boot begins with. -/
def BootInput.loaded (i : BootInput) (stored : Env) : Ctx := ctx_load (bios_serial_init i.uart stored)

/-- Either all is saved and the request agrees with it, or nothing is done: the changes still count as
unsaved, recovery is not requested, and the exit is not one of a saved configuration. -/
structure SaveExit.AllOrNothing (ops : Option BoardOps) (save : SaveOutcome) (ctx : Ctx) (ram : Env)
    (e : SaveExit) : Prop where
  all : save = .written → e.ctx = { ctx with dirty := false } ∧ e.stored = ctx_env ctx ram ∧
    e.config_saved = true ∧ e.recoveryRequested = requestsRecovery ops e.stored
  nothing : save ≠ .written → e.ctx = ctx ∧ e.recoveryRequested = false ∧
    e.ram "reboot_mode" = ram "reboot_mode" ∧ e.config_saved = false
  agree : e.recoveryRequested = true → wantRecovery e.stored = true

/-- The boot enters the setup, and the session ends in this way. -/
def BootInput.Leaves (i : BootInput) (ops : Option BoardOps) (stored : Env) (exit : Exit) (s : Setup) :
    Prop :=
  (kh_bios_wait_f10 i.countdown (kh_bios_env_get_delay ops)).1 = true ∧
    kh_bios_run ops (bios_serial_init i.uart stored) i.keys = .error (exit, s)

/-- The stored `stdin` already names the serial device that is found, if one is. -/
def BootInput.StdinStored (i : BootInput) (stored : Env) : Prop :=
  ∀ name, i.uart = some name →
    stored "stdin" = some (String.ofList ((name ++ ",usbkbd").toList.take 47))

end Kworker.Bios
