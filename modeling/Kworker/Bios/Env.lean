import Kworker.Lib.Env

/-!
# The environment of the BIOS

`core/kh_bios_env.c`, and what a board supplies (`kh_bios_board.h`).
-/

namespace Kworker.Bios

open Kworker.Lib

/-- `struct kh_bios_board_ops`, a pointer that may be null being an `Option`. `set_recovery_next` and
`boot_normal` say whether there is such a function. -/
structure BoardOps where
  product_name : String := ""
  soc_name : String := ""
  features : UInt32 := 0
  default_delay_sec : Int := 0
  boot_normal : Bool := true
  set_recovery_next : Bool := true
  fill_sys_info : Option (List String) := none
  fill_hw_lines : Option (Env → List String) := none
  hw_toggle_item : Option (Nat → Env → Env) := none

inductive BootTarget where
  | normal
  | recovery
  deriving DecidableEq, Repr

def ENV_DEFAULT_BOOT : String := "kh_default_boot"
def ENV_ONCE_RECOVERY : String := "kh_once_recovery"
def ENV_GMAC0 : String := "kh_gmac0"
def ENV_GMAC1 : String := "kh_gmac1"

def KH_BIOS_DEFAULT_DELAY : Int := 3

def kh_bios_env_get_default_boot (env : Env) : BootTarget :=
  if env ENV_DEFAULT_BOOT = some "recovery" then .recovery else .normal

def kh_bios_env_set_default_boot (target : BootTarget) (env : Env) : Env :=
  env.set ENV_DEFAULT_BOOT (if target = .recovery then "recovery" else "normal")

def startsWithOne (v : String) : Bool := v.toList.head? = some '1'

def kh_bios_env_get_once_recovery (env : Env) : Bool := (env ENV_ONCE_RECOVERY).any startsWithOne

def kh_bios_env_set_once_recovery (enable : Bool) (env : Env) : Env :=
  env.set ENV_ONCE_RECOVERY (if enable then "1" else "0")

/-- `kh_bios_delay` is read, but only for a message. -/
def kh_bios_env_get_delay (ops : Option BoardOps) : Int :=
  match ops with
  | none => KH_BIOS_DEFAULT_DELAY
  | some ops => if ops.default_delay_sec > 0 then ops.default_delay_sec else KH_BIOS_DEFAULT_DELAY

def gmacName (idx : Nat) : String := if idx ≠ 0 then ENV_GMAC1 else ENV_GMAC0

def kh_bios_env_get_gmac (idx : Nat) (env : Env) : Bool :=
  match env (gmacName idx) with
  | none => true
  | some v => startsWithOne v

def kh_bios_env_set_gmac (idx : Nat) (enable : Bool) (env : Env) : Env :=
  env.set (gmacName idx) (if enable then "1" else "0")

def kh_bios_env_apply_boot_choice (env : Env) : Env :=
  if kh_bios_env_get_once_recovery env then
    (kh_bios_env_set_once_recovery false env).set "reboot_mode" "recovery"
  else env

end Kworker.Bios
