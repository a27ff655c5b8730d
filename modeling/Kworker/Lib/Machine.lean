import Mathlib.Data.List.Infix

/-!
# Machines with a partial step, and properties of their runs

A machine takes one action at a time and refuses an action that does not fit its state. A run is a
list of actions. `Always` speaks about the states a run visits and `Guarded` about the pairs of a
state and the action taken in it; the rules below relate both to what a single step does.
-/

namespace Kworker.Lib

universe u v

/-- A deterministic machine. `none` means that the action is not possible in the state. -/
structure Machine (σ : Type u) (α : Type v) where
  step : σ → α → Option σ

namespace Machine

variable {σ : Type u} {α : Type v} (m : Machine σ α)

def run : σ → List α → Option σ
  | s, [] => some s
  | s, a :: as => (m.step s a).bind fun s' => run s' as

/-- `P` holds in every state that the run visits, the first and the last one included. -/
def Always (P : σ → Prop) (s : σ) (as : List α) : Prop :=
  ∀ pre t, pre <+: as → m.run s pre = some t → P t

/-- `C` holds of every action that the run takes, in the state in which it takes it. -/
def Guarded (C : σ → α → Prop) (s : σ) (as : List α) : Prop :=
  ∀ pre a t t', pre ++ [a] <+: as → m.run s pre = some t → m.step t a = some t' → C t a

/-! ## Runs -/

theorem run_cons (s : σ) (a : α) (as : List α) :
    m.run s (a :: as) = (m.step s a).bind fun s' => m.run s' as := rfl

theorem run_cons_eq_some {s t : σ} {a : α} {as : List α} :
    m.run s (a :: as) = some t ↔ ∃ s', m.step s a = some s' ∧ m.run s' as = some t := by
  rw [run_cons, Option.bind_eq_some_iff]

theorem run_append (s : σ) (as bs : List α) :
    m.run s (as ++ bs) = (m.run s as).bind fun t => m.run t bs := by
  induction as generalizing s with
  | nil => rfl
  | cons a as ih =>
      rw [List.cons_append, run_cons, run_cons, Option.bind_assoc]
      exact congrArg _ (funext ih)

/-! ## Taking a run apart at its first action -/

theorem always_nil {P : σ → Prop} {s : σ} : m.Always P s [] ↔ P s := by
  constructor
  · intro h
    exact h [] s List.prefix_rfl rfl
  · intro h pre t hpre hrun
    rw [List.prefix_nil.mp hpre] at hrun
    cases hrun
    exact h

theorem always_cons {P : σ → Prop} {s : σ} {a : α} {as : List α} :
    m.Always P s (a :: as) ↔ P s ∧ ∀ s', m.step s a = some s' → m.Always P s' as := by
  constructor
  · intro h
    refine ⟨h [] s List.nil_prefix rfl, fun s' hs pre t hpre hrun => ?_⟩
    exact h (a :: pre) t (List.cons_prefix_cons.mpr ⟨rfl, hpre⟩)
      ((m.run_cons_eq_some).mpr ⟨s', hs, hrun⟩)
  · rintro ⟨h0, h⟩ pre t hpre hrun
    cases pre with
    | nil => cases hrun; exact h0
    | cons b pre =>
        obtain ⟨rfl, hpre'⟩ := List.cons_prefix_cons.mp hpre
        obtain ⟨s', hs, hrun⟩ := (m.run_cons_eq_some).mp hrun
        exact h s' hs pre t hpre' hrun

theorem guarded_nil {C : σ → α → Prop} {s : σ} : m.Guarded C s [] := by
  intro pre a t t' hpre
  simp at hpre

theorem guarded_cons {C : σ → α → Prop} {s : σ} {a : α} {as : List α} :
    m.Guarded C s (a :: as) ↔ ∀ s', m.step s a = some s' → C s a ∧ m.Guarded C s' as := by
  constructor
  · intro h s' hs
    refine ⟨h [] a s s' (List.cons_prefix_cons.mpr ⟨rfl, List.nil_prefix⟩) rfl hs,
      fun pre b t t' hpre hrun ht => ?_⟩
    exact h (a :: pre) b t t' (List.cons_prefix_cons.mpr ⟨rfl, hpre⟩)
      ((m.run_cons_eq_some).mpr ⟨s', hs, hrun⟩) ht
  · intro h pre b t t' hpre hrun ht
    cases pre with
    | nil =>
        obtain ⟨rfl, _⟩ := List.cons_prefix_cons.mp hpre
        cases hrun
        exact (h t' ht).1
    | cons c pre =>
        obtain ⟨rfl, hpre'⟩ := List.cons_prefix_cons.mp hpre
        obtain ⟨s', hs, hrun⟩ := (m.run_cons_eq_some).mp hrun
        exact (h s' hs).2 pre b t t' hpre' hrun ht

theorem guarded_and {C D : σ → α → Prop} {s : σ} {as : List α} :
    m.Guarded (fun t a => C t a ∧ D t a) s as ↔ m.Guarded C s as ∧ m.Guarded D s as := by
  constructor
  · intro h
    exact ⟨fun pre a t t' hpre hrun ht => (h pre a t t' hpre hrun ht).1,
      fun pre a t t' hpre hrun ht => (h pre a t t' hpre hrun ht).2⟩
  · rintro ⟨hC, hD⟩ pre a t t' hpre hrun ht
    exact ⟨hC pre a t t' hpre hrun ht, hD pre a t t' hpre hrun ht⟩

/-! ## Rules -/

/-- The invariant rule: what one step preserves, a run preserves. -/
theorem run_invariant {I : σ → Prop} (hstep : ∀ s a s', I s → m.step s a = some s' → I s')
    {s t : σ} {as : List α} (hs : I s) (hrun : m.run s as = some t) : I t := by
  induction as generalizing s with
  | nil => cases hrun; exact hs
  | cons a as ih =>
      obtain ⟨s', h, hrun⟩ := (m.run_cons_eq_some).mp hrun
      exact ih (hstep s a s' hs h) hrun

theorem guarded_congr {I : σ → Prop} {C D : σ → α → Prop}
    (hstep : ∀ s a s', I s → m.step s a = some s' → I s') (hiff : ∀ s a, I s → (C s a ↔ D s a))
    {s : σ} (hs : I s) (as : List α) : m.Guarded C s as ↔ m.Guarded D s as := by
  constructor
  · intro h pre a t t' hpre hrun ht
    exact (hiff t a (m.run_invariant hstep hs hrun)).mp (h pre a t t' hpre hrun ht)
  · intro h pre a t t' hpre hrun ht
    exact (hiff t a (m.run_invariant hstep hs hrun)).mpr (h pre a t t' hpre hrun ht)

theorem always_of_invariant {I P : σ → Prop} (hstep : ∀ s a s', I s → m.step s a = some s' → I s')
    (hP : ∀ s, I s → P s) {s : σ} (hs : I s) (as : List α) : m.Always P s as :=
  fun _ t _ hrun => hP t (m.run_invariant hstep hs hrun)

/-- The invariant rule for runs whose actions all meet `C`. -/
theorem always_of_guarded {I P : σ → Prop} {C : σ → α → Prop}
    (hstep : ∀ s a s', I s → C s a → m.step s a = some s' → I s') (hP : ∀ s, I s → P s)
    {s : σ} (hs : I s) {as : List α} (hguard : m.Guarded C s as) : m.Always P s as := by
  induction as generalizing s with
  | nil => exact (m.always_nil).mpr (hP s hs)
  | cons a as ih =>
      rw [always_cons]
      refine ⟨hP s hs, fun s' hs' => ?_⟩
      obtain ⟨hC, hrest⟩ := (m.guarded_cons).mp hguard s' hs'
      exact ih (hstep s a s' hs hC hs') hrest

theorem run_of_guarded {I : σ → Prop} {C : σ → α → Prop}
    (hstep : ∀ s a s', I s → C s a → m.step s a = some s' → I s') {s t : σ} (hs : I s) {as : List α}
    (hguard : m.Guarded C s as) (hrun : m.run s as = some t) : I t :=
  m.always_of_guarded hstep (fun _ h => h) hs hguard as t List.prefix_rfl hrun

/-- When, under an invariant and from a state with `P`, a step ends in a state with `P` exactly if
its action meets `C`, then a run stays in `P` exactly if all its actions meet `C`. The invariant may
rest on `P`. -/
theorem always_iff_guarded_of {I P : σ → Prop} {C : σ → α → Prop}
    (hinv : ∀ s a s', I s → P s → m.step s a = some s' → I s')
    (hstep : ∀ s a s', I s → P s → m.step s a = some s' → (P s' ↔ C s a))
    {s : σ} (hI : I s) (hP : P s) (as : List α) : m.Always P s as ↔ m.Guarded C s as := by
  induction as generalizing s with
  | nil => exact iff_of_true ((m.always_nil).mpr hP) m.guarded_nil
  | cons a as ih =>
      rw [always_cons, guarded_cons]
      constructor
      · rintro ⟨_, hall⟩ s' hs
        have hP' : P s' := hall s' hs [] s' List.nil_prefix rfl
        exact ⟨(hstep s a s' hI hP hs).mp hP', (ih (hinv s a s' hI hP hs) hP').mp (hall s' hs)⟩
      · intro hall
        refine ⟨hP, fun s' hs => ?_⟩
        have hP' : P s' := (hstep s a s' hI hP hs).mpr (hall s' hs).1
        exact (ih (hinv s a s' hI hP hs) hP').mpr (hall s' hs).2

theorem always_iff_guarded {I P : σ → Prop} {C : σ → α → Prop}
    (hinv : ∀ s a s', I s → m.step s a = some s' → I s')
    (hstep : ∀ s a s', I s → P s → m.step s a = some s' → (P s' ↔ C s a))
    {s : σ} (hI : I s) (hP : P s) (as : List α) : m.Always P s as ↔ m.Guarded C s as :=
  m.always_iff_guarded_of (fun s a s' h _ hs => hinv s a s' h hs) hstep hI hP as

/-- The progress rule: when from every state with `I` in which the measure is not 0 an action that meets
`C` keeps `I` and makes the measure smaller, then a run of such actions leads to a state where it is 0. -/
theorem exists_run {I : σ → Prop} {C : α → Prop} (μ : σ → Nat)
    (hstep : ∀ s, I s → μ s ≠ 0 → ∃ a s', C a ∧ m.step s a = some s' ∧ I s' ∧ μ s' < μ s) {s : σ} (hs : I s) :
    ∃ as t, (∀ a ∈ as, C a) ∧ m.run s as = some t ∧ I t ∧ μ t = 0 := by
  induction hn : μ s using Nat.strong_induction_on generalizing s with
  | _ n ih =>
      subst hn
      by_cases h0 : μ s = 0
      · exact ⟨[], s, by simp, rfl, hs, h0⟩
      · obtain ⟨a, s', hC, hstep', hs', hlt⟩ := hstep s hs h0
        obtain ⟨as, t, has, hrun, ht⟩ := ih (μ s') hlt hs' rfl
        refine ⟨a :: as, t, ?_, (m.run_cons_eq_some).mpr ⟨s', hstep', hrun⟩, ht⟩
        exact List.forall_mem_cons.mpr ⟨hC, has⟩

end Machine

end Kworker.Lib
