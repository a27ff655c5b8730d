import Kworker.Bios.Keys
import Kworker.Bios.Schedule
import Kworker.Lib.Machine

/-!
# Keys that are typed while they are read

Calls of `kh_bios_poll_key` one after the other, with the bytes of a list of keys arriving on one source
between the calls and within them.
-/

namespace Kworker.Bios

open Kworker.Lib

/-- `todo` has not arrived yet; `results` are the returned keys. -/
structure Typing where
  line : Line
  todo : List UInt8
  results : List Key := []

/-- Nothing arrives on the other source, and the board key is not pressed. -/
structure PollEnv.Quiet (S : Source) (e : PollEnv) : Prop where
  other : e.on S.other = []
  board : e.board = false
  board₀ : e.look₀.board = false
  board₁ : e.look₁.board = false
  board₂ : e.look₂.board = false

instance (S : Source) (e : PollEnv) : Decidable (e.Quiet S) :=
  decidable_of_iff (e.on S.other = [] ∧ e.board = false ∧ e.look₀.board = false ∧ e.look₁.board = false ∧
      e.look₂.board = false)
    ⟨fun ⟨h, hb, h₀, h₁, h₂⟩ => ⟨h, hb, h₀, h₁, h₂⟩, fun h => ⟨h.1, h.2, h.3, h.4, h.5⟩⟩

/-- One call, during which the next bytes of `todo` arrive. -/
def typing (S : Source) (usbkbd : Bool) : Machine Typing PollEnv where
  step s e :=
    if e.Quiet S ∧ e.on S <+: s.todo then
      let (line, key) := kh_bios_poll_key usbkbd e s.line
      some { line, todo := s.todo.drop (e.on S).length, results := s.results ++ [key] }
    else none

def Typing.start (ready : Bool) (ps : List Press) : Typing where
  line := { usb_kbd_ready := ready }
  todo := encode ps false

/-- Everything has arrived and been read. -/
def Typing.Done (S : Source) (s : Typing) : Prop := s.line.queue S = [] ∧ s.todo = []

/-- What has been read are the bytes of some first keys of the list, and these keys are the results. -/
def Typing.InOrder (S : Source) (ps : List Press) (s : Typing) : Prop :=
  ∃ qs rs, ps = qs ++ rs ∧ s.line.queue S ++ s.todo = encode rs false ∧
    s.results.filter (· ≠ .none) = keys qs false

/-- When the call takes an `ESC`, the next byte has arrived at its second check and the one after that at
its third. -/
def PollEnv.Whole (S : Source) (s : Typing) (e : PollEnv) : Prop :=
  (s.line.queue S ++ e.look₀.tstc.on S).head? = some 0x1b →
    2 ≤ (s.line.queue S ++ e.look₀.on S ++ e.look₁.tstc.on S).length ∧
    3 ≤ (s.line.queue S ++ e.look₀.on S ++ e.look₁.on S ++ e.look₂.tstc.on S).length

/-- An arrow key or Enter. -/
def Press.ArrowOrEnter (p : Press) : Prop := p.key ≠ .f10

end Kworker.Bios
