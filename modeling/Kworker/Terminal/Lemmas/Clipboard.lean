import Kworker.Terminal.Clipboard

/-!
# What is copied and pasted
-/

namespace Kworker.Terminal

open Kworker.Lib

variable {api : ClipboardApi} {p : Prefs} {tab : InputTab}

/-! ## Copying -/

@[simp] theorem received_nil (sink : Sink) : received sink [] = [] := rfl

theorem received_singleton (sink : Sink) (call : SinkCall) :
    received sink [call] = if sink = call.sink then call.data else [] := by
  by_cases h : call.sink = sink
  · simp [received, h]
  · simp [received, h, Ne.symm h]

/-- What Ctrl+V writes. -/
def sentText (api : ClipboardApi) (tab : InputTab) (text : JsString) : JsString :=
  if api.readText && tab.terminalProxy then text else []

theorem received_ctrlV (sink : Sink) (text : JsString) : received sink (ctrlV api tab text) =
    if sink = .session tab.sessionId then sentText api tab text else [] := by
  by_cases hsent : sentText api tab text = []
  · have hcalls : ctrlV api tab text = [] := by
      unfold sentText at hsent
      unfold ctrlV
      cases hread : api.readText <;> cases hproxy : tab.terminalProxy <;> simp_all
    rw [hcalls, hsent, ite_self, received_nil]
  · have hcalls : ctrlV api tab text = [.writeToPty (sentText api tab text) tab.sessionId] := by
      unfold sentText at hsent ⊢
      unfold ctrlV
      cases hread : api.readText <;> cases hproxy : tab.terminalProxy <;> simp_all
    rw [hcalls, received_singleton]
    rfl

theorem received_onData_echo (h : tab.localEcho = true) (sink : Sink) (data : JsString) :
    received sink (onData tab data) = if sink = .echo then data else [] := by
  rw [onData, if_pos h, received_singleton]
  rfl

theorem InputTab.session_of_live (h : tab.localEcho = false) : 0 ≤ tab.sessionId := by
  have hdec := tab.echoes
  rw [h] at hdec
  exact not_lt.mp (of_decide_eq_false hdec.symm)

theorem received_onData_live (h : tab.localEcho = false) (sink : Sink) (data : JsString) :
    received sink (onData tab data) = if sink = .session tab.sessionId then data else [] := by
  have hid := tab.session_of_live h
  have hcalls : onData tab data = [.writeToPty data tab.sessionId] := by
    simp [onData, h, hid, tab.live hid]
  rw [hcalls, received_singleton]
  rfl

theorem echo_pastesAsTyped_iff (h : tab.localEcho = true) (text : JsString) :
    PastesAsTyped api p tab text ↔ pastedText p text = [] ∧ sentText api tab text = [] := by
  constructor
  · intro hsame
    have hecho := hsame .echo
    have hsession := hsame (.session tab.sessionId)
    rw [received_ctrlV, received_onData_echo h] at hecho hsession
    exact ⟨by simpa using hecho.symm, by simpa using hsession⟩
  · rintro ⟨hwant, hsent⟩ sink
    rw [received_ctrlV, received_onData_echo h, hwant, hsent, ite_self, ite_self]

theorem live_pastesAsTyped_iff (h : tab.localEcho = false) (text : JsString) :
    PastesAsTyped api p tab text ↔ sentText api tab text = pastedText p text := by
  constructor
  · intro hsame
    have hsession := hsame (.session tab.sessionId)
    rw [received_ctrlV, received_onData_live h, if_pos rfl, if_pos rfl] at hsession
    exact hsession
  · intro hsent sink
    rw [received_ctrlV, received_onData_live h, hsent]

theorem pastedText_eq_self_iff (text : JsString) : pastedText p text = text ↔
    ((p .pasteTrimTrailing).truthy = true → ∀ line ∈ text.splitOn 10, trimEnd line = line) := by
  unfold pastedText
  split
  · rename_i hon
    exact trimLines_eq_self_iff.trans ⟨fun h _ => h, fun h => h hon⟩
  · rename_i hoff
    exact iff_of_true rfl fun h => absurd h hoff

end Kworker.Terminal
