import Kworker.Bios.Draw
import Kworker.Lib.Machine

/-!
# The Hardware page

The loop of `page_hardware` with its array of lines, which `fill_hw_lines` fills before the loop and the
loop itself writes only when there is no such function.
-/

namespace Kworker.Bios

open Kworker.Lib

/-- The local variables of `page_hardware` while it waits for a key, its context and the environment in
memory. -/
structure HwPage where
  sel : Nat
  line_count : Nat
  lines : Nat → String
  ctx : Ctx
  ram : Env

def HwPage.setup (p : HwPage) : Setup where
  screen := .hardware p.sel p.line_count
  ctx := p.ctx
  ram := p.ram

/-- What the loop does before it draws. -/
def HwPage.redraw (ops : Option BoardOps) (p : HwPage) : HwPage :=
  { p with lines := hardwareLine ops p.lines p.ctx }

/-- The call of the page up to the first wait; `lines` is what the array holds before that. -/
def HwPage.enter (ops : Option BoardOps) (lines : Nat → String) (ctx : Ctx) (ram : Env) : HwPage :=
  let filled : Nat → String :=
    match ops.bind (·.fill_hw_lines) with
    | none => lines
    | some fill => fun i => (fill ram).getD i (lines i)
  HwPage.redraw ops { sel := 0, line_count := hwLineCount ops ram, lines := filled, ctx, ram }

/-- One pass of the loop from a wait for a key to the next; Esc leaves the page. -/
def hwStep (ops : Option BoardOps) (p : HwPage) : Key → Option HwPage
  | .none => some p
  | .esc => none
  | .enter =>
      let s := toggleHardware ops p.sel p.setup
      some (HwPage.redraw ops { p with ctx := s.ctx, ram := s.ram })
  | key => some (HwPage.redraw ops { p with sel := moveSel p.line_count p.sel key })

def hardware (ops : Option BoardOps) : Machine HwPage Key where
  step := hwStep ops

def HwPage.rows (p : HwPage) : List Row :=
  (List.range p.line_count).map fun i => ⟨i, p.lines i, p.sel = i⟩

/-! ## What the page is for -/

/-- The lines that describe a state: those `fill_hw_lines` returns in it, or else the two flags of the
context. -/
def hwLines (ops : Option BoardOps) (ctx : Ctx) (ram : Env) : List String :=
  match ops.bind (·.fill_hw_lines) with
  | some fill => fill ram
  | none => [gmacLine 0 ctx.gmac0, gmacLine 1 ctx.gmac1]

def HwPage.ShowsState (ops : Option BoardOps) (p : HwPage) : Prop :=
  p.rows.map (·.text) = hwLines ops p.ctx p.ram

instance (ops : Option BoardOps) (p : HwPage) : Decidable (p.ShowsState ops) :=
  inferInstanceAs (Decidable (_ = _))

/-- What is switched by the line with a number. -/
inductive HwItem where
  | board (index : Nat)
  | gmac0
  | gmac1
  | nothing
  deriving DecidableEq, Repr

def hwItem (ops : Option BoardOps) (row : Nat) : HwItem :=
  if (ops.bind (·.hw_toggle_item)).isSome then .board row
  else if row = 0 then .gmac0
  else if row = 1 then .gmac1
  else .nothing

/-- The context and the environment once an item is switched; the flags follow the environment when it
is the board that switches. -/
def HwItem.switch (ops : Option BoardOps) (ctx : Ctx) (ram : Env) : HwItem → Ctx × Env
  | .board index =>
      let ram' := ((ops.bind (·.hw_toggle_item)).getD fun _ ram => ram) index ram
      ({ ctx with gmac0 := kh_bios_env_get_gmac 0 ram', gmac1 := kh_bios_env_get_gmac 1 ram' }, ram')
  | .gmac0 => ({ ctx with gmac0 := !ctx.gmac0 }, ram)
  | .gmac1 => ({ ctx with gmac1 := !ctx.gmac1 }, ram)
  | .nothing => (ctx, ram)

/-- One row is highlighted, and Enter switches its item and nothing else; only `dirty` is set as well. -/
def HwPage.SwitchesHighlighted (ops : Option BoardOps) (p : HwPage) (key : Key) : Prop :=
  key = .enter → ∀ p', hwStep ops p key = some p' → ∃ row, p.rows.filter (·.highlight) = [row] ∧
    ((hwItem ops row.row).switch ops { p.ctx with dirty := true } p.ram) = (p'.ctx, p'.ram)

/-- Where a board has both functions, what `fill_hw_lines` returns does not change with this Enter. -/
def HwPage.KeepsLines (ops : Option BoardOps) (p : HwPage) (key : Key) : Prop :=
  key = .enter → ∀ fill toggle, ops.bind (·.fill_hw_lines) = some fill →
    ops.bind (·.hw_toggle_item) = some toggle → fill (toggle p.sel p.ram) = fill p.ram

/-- Where the board does not switch, the selection is one of the two flags at this Enter. -/
def HwPage.HasItem (ops : Option BoardOps) (p : HwPage) (key : Key) : Prop :=
  key = .enter → ops.bind (·.hw_toggle_item) = none → p.sel ≤ 1

end Kworker.Bios
