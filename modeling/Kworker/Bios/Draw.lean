import Kworker.Bios.Setup

/-!
# What the setup menu shows

The lines that the pages of `core/kh_bios_ui.c` and `core/kh_bios_security.c` draw between title and
footer, and what their texts say.
-/

namespace Kworker.Bios

/-! ## The lookups as loops -/

section

variable {α : Type}

/-- The loop of the functions that count the visible items of a table. -/
def countVisible (ok : α → Bool) : Nat → List α → Nat
  | n, [] => n
  | n, a :: as => countVisible ok (if ok a then n + 1 else n) as

/-- The loop of the functions that look for the visible item `index`. -/
def lookupVisible (ok : α → Bool) (index : Nat) : Nat → List α → Option α
  | _, [] => none
  | vis, a :: as =>
      if ok a then if vis = index then some a else lookupVisible ok index (vis + 1) as
      else lookupVisible ok index vis as

end

def kh_bios_menu_adv_label (ops : Option BoardOps) (index : Nat) : Option String :=
  (advItems ops)[index]?.map (·.1)

/-! ## The rows -/

/-- A call of `kh_bios_ui_draw_line`. -/
structure Row where
  row : Nat
  text : String
  highlight : Bool
  deriving DecidableEq, Repr

/-- The array `lines` of `page_hardware`, and whether `CONFIG_HVB_LIBHVB` is set. -/
structure Shown where
  lines : Nat → String
  hvb : Bool

def mainRows (ops : Option BoardOps) (sel : Nat) : List Row :=
  (List.range (kh_bios_menu_main_count ops)).filterMap fun i =>
    (kh_bios_menu_main_item ops i).map fun item => ⟨i, item.label, i = sel⟩

def sysInfoRows (ops : Option BoardOps) : List Row :=
  match ops.bind (·.fill_sys_info) with
  | none | some [] => [⟨0, "(no board system info)", false⟩]
  | some lines => lines.mapIdx fun i line => ⟨i, line, false⟩

def bootRows (ctx : Ctx) (sel : Nat) : List Row :=
  [⟨0, "Default: KaihongOS (Normal)" ++ if ctx.default_boot = .normal then "  [*]" else "", sel = 0⟩,
    ⟨1, "Default: Recovery" ++ if ctx.default_boot = .recovery then "  [*]" else "", sel = 1⟩,
    ⟨2, "Boot Recovery once (next reset)" ++ if ctx.once_recovery then "  [ON]" else "  [OFF]", sel = 2⟩]

def gmacLine (idx : Nat) (enabled : Bool) : String :=
  "GMAC" ++ toString idx ++ ": " ++ (if enabled then "Enabled" else "Disabled") ++ " (toggle)"

def hardwareLine (ops : Option BoardOps) (lines : Nat → String) (ctx : Ctx) (i : Nat) : String :=
  if (ops.bind (·.fill_hw_lines)).isSome then lines i
  else if i = 0 then gmacLine 0 ctx.gmac0
  else if i = 1 then gmacLine 1 ctx.gmac1
  else lines i

def hardwareRows (ops : Option BoardOps) (lines : Nat → String) (ctx : Ctx) (sel line_count : Nat) :
    List Row :=
  (List.range line_count).map fun i => ⟨i, hardwareLine ops lines ctx i, sel = i⟩

def KH_SEC_STATUS (hvb : Bool) : String :=
  if hvb then "HVB: enabled (bootloader)" else "HVB: not configured (Phase 5)"

def securityRows (hvb : Bool) : List Row :=
  [⟨0, KH_SEC_STATUS hvb, false⟩, ⟨1, "Secure Boot policy: read-only in v1", false⟩,
    ⟨2, "Use fastboot/CLI for unlock (future)", false⟩]

def advancedRows (ops : Option BoardOps) (sel : Nat) : List Row :=
  (List.range (kh_bios_menu_adv_count ops)).filterMap fun i =>
    (kh_bios_menu_adv_label ops i).map fun label => ⟨i, label, i = sel⟩

def Setup.rows (ops : Option BoardOps) (shown : Shown) (s : Setup) : List Row :=
  match s.screen with
  | .main sel => mainRows ops sel
  | .info _ => sysInfoRows ops
  | .boot sel => bootRows s.ctx sel
  | .hardware sel line_count => hardwareRows ops shown.lines s.ctx sel line_count
  | .security => securityRows shown.hvb
  | .advanced sel => advancedRows ops sel

/-! ## What the labels say -/

inductive Choice where
  | page (page : Page)
  | info
  | exit (exit : Exit)
  deriving DecidableEq, Repr

/-- The labels of the main page and of Advanced. -/
def meanings : List (String × Choice) :=
  [("System Information", .info), ("Boot Configuration", .page .boot),
    ("Hardware Configuration", .page .hardware), ("Security", .page .security),
    ("Advanced", .page .advanced), ("Save Configuration and Exit", .exit .save),
    ("Discard Changes and Exit", .exit .discard), ("Enter Fastboot Mode", .exit .fastboot),
    ("Enter Rockusb Download", .exit .rockusb), ("U-Boot Command Line", .exit .cli)]

def meaningOf (label : String) : Option Choice := meanings.lookup label

/-- The selection and the number of items it is one of; behind the system information those of the
main page. -/
def Screen.selection (ops : Option BoardOps) : Screen → Option (Nat × Nat)
  | .main sel | .info sel => some (sel, kh_bios_menu_main_count ops)
  | .boot sel => some (sel, KH_BOOT_ITEMS)
  | .hardware sel line_count => some (sel, line_count)
  | .security => none
  | .advanced sel => some (sel, kh_bios_menu_adv_count ops)

def Screen.showsItems : Screen → Bool
  | .info _ | .security => false
  | _ => true

def Choice.carryOut (ops : Option BoardOps) (s : Setup) : Choice → Except (Exit × Setup) Setup
  | .page p => .ok (s.enter ops p)
  | .info => .ok { s with screen := .info (((s.screen.selection ops).map (·.1)).getD 0) }
  | .exit e => .error (e, s)

/-- The selection is one of the items; each item has its row, and the row of the selection is the one
that is highlighted; on the main page and in Advanced the item is found, and Enter does what its row
says. -/
structure Setup.MenuOk (ops : Option BoardOps) (shown : Shown) (s : Setup) : Prop where
  inRange : ∀ sel count, s.screen.selection ops = some (sel, count) → sel < count
  rows : s.screen.showsItems = true → ∀ sel count, s.screen.selection ops = some (sel, count) →
    (s.rows ops shown).map (·.row) = List.range count ∧
    ∀ row ∈ s.rows ops shown, row.highlight = true ↔ row.row = sel
  noHighlight : s.screen.showsItems = false → ∀ row ∈ s.rows ops shown, row.highlight = false
  found : (∀ sel, s.screen = .main sel → (kh_bios_menu_main_item ops sel).isSome = true) ∧
    ∀ sel, s.screen = .advanced sel → (kh_bios_menu_adv_label ops sel).isSome = true
  enter : (∃ sel, s.screen = .main sel ∨ s.screen = .advanced sel) →
    ∀ row ∈ s.rows ops shown, row.highlight = true →
      ∃ choice, meaningOf row.text = some choice ∧ s.key ops .enter = choice.carryOut ops s

end Kworker.Bios
