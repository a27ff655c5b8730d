import Kworker.Terminal.Settings

/-!
# The editor of the new-tab menu

The six operations of the settings panel on the list of the new-tab menu, each of them on a row of the
list as it was last drawn.
-/

namespace Kworker.Terminal

open Kworker.Lib

inductive MenuOp where
  | up (row : Nat)
  | down (row : Nat)
  | delete (row : Nat)
  | addProfile (profile : Profile)
  | addSeparator
  | addFolder (value : JsString)

/-- The preferences, and the entries of the rows that `__wtRenderNewTabMenuList` drew last. -/
structure MenuEditor where
  prefs : Prefs
  drawn : List MenuItem

/-- The preferences when the handler draws the list; `none` when it does nothing. -/
def MenuOp.store (p : Prefs) : MenuOp → Option Prefs
  | .up row =>
      if 0 < row ∧ row < (menuItems p).length then
        some (p.set .newTabMenuItems (menuJson (swapNext (row - 1) (menuItems p))))
      else none
  | .down row =>
      if row + 1 < (menuItems p).length then
        some (p.set .newTabMenuItems (menuJson (swapNext row (menuItems p))))
      else none
  | .delete row =>
      match (menuItems p)[row]? with
      | none => none
      | some .remaining => none
      | some _ => some (p.set .newTabMenuItems
          (menuJson (normalizeNewTabMenuItems (some (menuJson ((menuItems p).eraseIdx row))))))
  | .addProfile profile => some (p.set .newTabMenuItems
      (menuJson (normalizeNewTabMenuItems
        (some (menuJson (insertBeforeRemaining (.profile profile) (menuItems p)))))))
  | .addSeparator => some (p.set .newTabMenuItems
      (menuJson (normalizeNewTabMenuItems
        (some (menuJson (insertBeforeRemaining .separator (menuItems p)))))))
  | .addFolder value => some (p.set .newTabMenuItems
      (menuJson (normalizeNewTabMenuItems
        (some (menuJson (insertBeforeRemaining (.folder (folderName value)) (menuItems p)))))))

def MenuEditor.draw (p : Prefs) : MenuEditor := { prefs := renderMenu p, drawn := menuItems p }

/-- The panel is opened. -/
def MenuEditor.opened (p : Prefs) : MenuEditor :=
  .draw (p.set .extensionGenerators
    (generatorsJson (normalizeExtensionGenerators (some (p .extensionGenerators)))))

/-- The row exists and its button is not disabled. -/
def MenuOp.enabled (drawn : List MenuItem) : MenuOp → Bool
  | .up row => row < drawn.length && row ≠ 0
  | .down row => row < drawn.length && row ≠ drawn.length - 1
  | .delete row => drawn[row]?.any (· ≠ .remaining)
  | _ => true

def MenuEditor.step (e : MenuEditor) (op : MenuOp) : Option MenuEditor :=
  if op.enabled e.drawn then some (((op.store e.prefs).map .draw).getD e) else none

def menuEditor : Machine MenuEditor MenuOp := ⟨MenuEditor.step⟩

/-! ## What the operations should do -/

/-- The list stored is the list drawn, the normaliser leaves it as it is, and it has exactly one
`remaining` and only well-formed entries. -/
structure MenuEditor.Sound (e : MenuEditor) : Prop where
  stored : e.prefs .newTabMenuItems = menuJson e.drawn
  normal : menuItems e.prefs = e.drawn
  remaining : e.drawn.count .remaining = 1
  wellFormed : ∀ i ∈ e.drawn, i.WellFormed

/-- What `op` makes of the list that is drawn. -/
inductive Edits : MenuOp → List MenuItem → List MenuItem → Prop
  | up (pre post : List MenuItem) (a b : MenuItem) :
      Edits (.up (pre.length + 1)) (pre ++ a :: b :: post) (pre ++ b :: a :: post)
  | down (pre post : List MenuItem) (a b : MenuItem) :
      Edits (.down pre.length) (pre ++ a :: b :: post) (pre ++ b :: a :: post)
  | delete (pre post : List MenuItem) (a : MenuItem) (ha : a ≠ .remaining) :
      Edits (.delete pre.length) (pre ++ a :: post) (pre ++ post)
  | addProfile (pre post : List MenuItem) (profile : Profile) :
      Edits (.addProfile profile) (pre ++ .remaining :: post) (pre ++ .profile profile :: .remaining :: post)
  | addSeparator (pre post : List MenuItem) :
      Edits .addSeparator (pre ++ .remaining :: post) (pre ++ .separator :: .remaining :: post)
  /-- what is left of the name when it is cut has no blanks at its ends -/
  | addFolder (pre post : List MenuItem) (value : JsString) :
      Edits (.addFolder value) (pre ++ .remaining :: post)
        (pre ++ .folder (trim (folderName value)) :: .remaining :: post)

end Kworker.Terminal
