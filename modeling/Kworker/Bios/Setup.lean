import Kworker.Bios.Env
import Kworker.Bios.Hotkey

/-!
# The setup menu

`core/kh_bios_menu.c`, `core/kh_bios_ui.c` and `core/kh_bios_security.c`: the tables of the menus, and
the pages as a machine that takes the keys which `kh_bios_poll_key` returns.
-/

namespace Kworker.Bios

open Kworker.Lib

/-! ## The tables -/

def KH_BIOS_FEAT_BOOT_MENU : UInt32 := 1
def KH_BIOS_FEAT_HW_MENU : UInt32 := 2
def KH_BIOS_FEAT_SECURITY : UInt32 := 4
def KH_BIOS_FEAT_FASTBOOT : UInt32 := 8
def KH_BIOS_FEAT_ROCKUSB : UInt32 := 16

inductive Page where
  | main
  | boot
  | hardware
  | security
  | advanced
  deriving DecidableEq, Repr

inductive MainAction where
  | none
  | info
  | save_exit
  | discard_exit
  deriving DecidableEq, Repr

structure MainMenuItem where
  label : String
  required_feat : UInt32
  page : Page
  action : MainAction
  deriving DecidableEq, Repr

def main_menu_table : List MainMenuItem :=
  [⟨"System Information", 0, .main, .info⟩,
    ⟨"Boot Configuration", KH_BIOS_FEAT_BOOT_MENU, .boot, .none⟩,
    ⟨"Hardware Configuration", KH_BIOS_FEAT_HW_MENU, .hardware, .none⟩,
    ⟨"Security", KH_BIOS_FEAT_SECURITY, .security, .none⟩,
    ⟨"Advanced", 0, .advanced, .none⟩,
    ⟨"Save Configuration and Exit", 0, .main, .save_exit⟩,
    ⟨"Discard Changes and Exit", 0, .main, .discard_exit⟩]

/-- `adv_labels` and `adv_feats`. -/
def adv_table : List (String × UInt32) :=
  [("Enter Fastboot Mode", KH_BIOS_FEAT_FASTBOOT), ("Enter Rockusb Download", KH_BIOS_FEAT_ROCKUSB),
    ("U-Boot Command Line", 0)]

def board_features (ops : Option BoardOps) : UInt32 :=
  match ops with
  | none => 0
  | some ops => ops.features

def feat_ok (ops : Option BoardOps) (required : UInt32) : Bool :=
  required = 0 || board_features ops &&& required = required

def mainItems (ops : Option BoardOps) : List MainMenuItem :=
  main_menu_table.filter (feat_ok ops ·.required_feat)

def kh_bios_menu_main_count (ops : Option BoardOps) : Nat := (mainItems ops).length

def kh_bios_menu_main_item (ops : Option BoardOps) (index : Nat) : Option MainMenuItem :=
  (mainItems ops)[index]?

def advItems (ops : Option BoardOps) : List (String × UInt32) := adv_table.filter (feat_ok ops ·.2)

def kh_bios_menu_adv_count (ops : Option BoardOps) : Nat := (advItems ops).length

def kh_bios_menu_adv_feat (ops : Option BoardOps) (index : Nat) : UInt32 :=
  ((advItems ops)[index]?.map (·.2)).getD 0

/-! ## The session -/

structure Ctx where
  dirty : Bool
  default_boot : BootTarget
  once_recovery : Bool
  gmac0 : Bool
  gmac1 : Bool
  deriving DecidableEq, Repr

def ctx_load (env : Env) : Ctx where
  default_boot := kh_bios_env_get_default_boot env
  once_recovery := kh_bios_env_get_once_recovery env
  gmac0 := kh_bios_env_get_gmac 0 env
  gmac1 := kh_bios_env_get_gmac 1 env
  dirty := false

def ctx_env (ctx : Ctx) (env : Env) : Env :=
  kh_bios_env_set_gmac 1 ctx.gmac1 (kh_bios_env_set_gmac 0 ctx.gmac0
    (kh_bios_env_set_once_recovery ctx.once_recovery
      (kh_bios_env_set_default_boot ctx.default_boot env)))

/-- The loop that waits for a key, with its local variables. -/
inductive Screen where
  | main (sel : Nat)
  /-- `show_sys_info`, called with this selection in `page_main` -/
  | info (sel : Nat)
  | boot (sel : Nat)
  | hardware (sel line_count : Nat)
  | security
  | advanced (sel : Nat)
  deriving DecidableEq, Repr

structure Setup where
  screen : Screen
  ctx : Ctx
  ram : Env

inductive Exit where
  | save
  | discard
  | fastboot
  | rockusb
  | cli
  deriving DecidableEq, Repr

def hwLineCount (ops : Option BoardOps) (env : Env) : Nat :=
  match ops.bind (·.fill_hw_lines) with
  | none => 2
  | some fill => if (fill env).length = 0 then 2 else (fill env).length

def Setup.enter (ops : Option BoardOps) (s : Setup) : Page → Setup
  | .main => { s with screen := .main 0 }
  | .boot => { s with screen := .boot (if s.ctx.default_boot = .recovery then 1 else 0) }
  | .hardware => { s with screen := .hardware 0 (hwLineCount ops s.ram) }
  | .security => { s with screen := .security }
  | .advanced => { s with screen := .advanced 0 }

def moveSel (count sel : Nat) : Key → Nat
  | .up => sel - 1
  | .down => if sel + 1 < count then sel + 1 else sel
  | _ => sel

/-! ## The pages -/

def page_main (ops : Option BoardOps) (sel : Nat) (s : Setup) (key : Key) : Except (Exit × Setup) Setup :=
  match key with
  | .esc => .error (.discard, s)
  | .enter =>
      match kh_bios_menu_main_item ops sel with
      | none => .ok s
      | some item =>
          match item.action with
          | .info => .ok { s with screen := .info sel }
          | .save_exit => .error (.save, s)
          | .discard_exit => .error (.discard, s)
          | .none => .ok (s.enter ops item.page)
  | key => .ok { s with screen := .main (moveSel (kh_bios_menu_main_count ops) sel key) }

def toggleBoot (sel : Nat) (ctx : Ctx) : Ctx :=
  if sel = 0 then { ctx with dirty := true, default_boot := .normal }
  else if sel = 1 then { ctx with dirty := true, default_boot := .recovery }
  else { ctx with dirty := true, once_recovery := !ctx.once_recovery }

def KH_BOOT_ITEMS : Nat := 3

def page_boot (ops : Option BoardOps) (sel : Nat) (s : Setup) (key : Key) : Except (Exit × Setup) Setup :=
  match key with
  | .esc => .ok (s.enter ops .main)
  | .enter => .ok { s with ctx := toggleBoot sel s.ctx }
  | key => .ok { s with screen := .boot (moveSel KH_BOOT_ITEMS sel key) }

def toggleHardware (ops : Option BoardOps) (sel : Nat) (s : Setup) : Setup :=
  match ops.bind (·.hw_toggle_item) with
  | some toggle =>
      let ram := toggle sel s.ram
      { s with
        ram
        ctx := { s.ctx with
          dirty := true
          gmac0 := kh_bios_env_get_gmac 0 ram
          gmac1 := kh_bios_env_get_gmac 1 ram } }
  | none =>
      if sel = 0 then { s with ctx := { s.ctx with dirty := true, gmac0 := !s.ctx.gmac0 } }
      else { s with ctx := { s.ctx with dirty := true, gmac1 := !s.ctx.gmac1 } }

def page_hardware (ops : Option BoardOps) (sel line_count : Nat) (s : Setup) (key : Key) :
    Except (Exit × Setup) Setup :=
  match key with
  | .esc => .ok (s.enter ops .main)
  | .enter => .ok (toggleHardware ops sel s)
  | key => .ok { s with screen := .hardware (moveSel line_count sel key) line_count }

def page_advanced (ops : Option BoardOps) (sel : Nat) (s : Setup) (key : Key) :
    Except (Exit × Setup) Setup :=
  match key with
  | .esc => .ok (s.enter ops .main)
  | .enter =>
      let feat := kh_bios_menu_adv_feat ops sel
      if feat = KH_BIOS_FEAT_FASTBOOT then .error (.fastboot, s)
      else if feat = KH_BIOS_FEAT_ROCKUSB then .error (.rockusb, s)
      -- `cli_loop` does not return
      else .error (.cli, s)
  | key => .ok { s with screen := .advanced (moveSel (kh_bios_menu_adv_count ops) sel key) }

/-- What the loop that is waiting does with the next result of `kh_bios_poll_key`. -/
def Setup.key (ops : Option BoardOps) (s : Setup) (key : Key) : Except (Exit × Setup) Setup :=
  if key = .none then .ok s
  else
    match s.screen with
    | .main sel => page_main ops sel s key
    | .info sel => .ok { s with screen := .main sel }
    | .boot sel => page_boot ops sel s key
    | .hardware sel line_count => page_hardware ops sel line_count s key
    | .security => if key = .esc ∨ key = .enter then .ok (s.enter ops .main) else .ok s
    | .advanced sel => page_advanced ops sel s key

/-- `kh_bios_run` over the keys that come; without an exit it still waits for a key. -/
def kh_bios_run (ops : Option BoardOps) (ram : Env) (keys : List Key) : Except (Exit × Setup) Setup :=
  keys.foldlM (Setup.key ops) { screen := .main 0, ctx := ctx_load ram, ram }

end Kworker.Bios
