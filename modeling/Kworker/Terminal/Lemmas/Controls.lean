import Kworker.Lib.Js
import Kworker.Terminal.Controls
import Kworker.Terminal.Lemmas.Ui

/-!
# The inputs of the window over a whole run
-/

namespace Kworker.Terminal

open Kworker.Posix Kworker.Lib

variable {strerror : Errno → String} {w w' : Window} {p q : Page} {u v : Ui} {a : UiAct} {start : StartCalls}
  {i j : Nat}

/-! ## Moving from tab to tab -/

theorem nextTab_eq {n : Nat} (hn : 0 < n) (i : Nat) (shiftKey : Bool) :
    (nextTab i n shiftKey : Int) = (i + if shiftKey then -1 else 1) % n := by
  rw [nextTab, tmod_add_tmod (by omega), Int.toNat_of_nonneg (Int.emod_nonneg _ (by omega))]

theorem nextTab_lt {n : Nat} (hn : 0 < n) (i : Nat) (shiftKey : Bool) : nextTab i n shiftKey < n := by
  have := Int.emod_lt_of_pos ((i : Int) + if shiftKey then -1 else 1) (show (0 : Int) < n by omega)
  rw [← nextTab_eq hn] at this
  omega

theorem switchTab_switchTab (k k' : Nat) (p : Page) : switchTab k (switchTab k' p) = switchTab k p := by
  simp only [switchTab, List.map_map]
  rfl

/-- To switch to the active tab is to do nothing. -/
theorem switchTab_self (h : p.InStep) {t : Tab} (ht : p.activeTabKey = some t.key) : switchTab t.key p = p := by
  have hrow : ∀ row ∈ p.tabs,
      { row with active := row.key = t.key, visible := row.key = t.key } = id row := by
    intro row hmem
    obtain ⟨hactive, hvisible⟩ := h.classes row hmem
    have hkey : p.activeTabKey = some row.key ↔ row.key = t.key := by
      rw [ht, Option.some.injEq, eq_comm]
    rw [hkey, ← decide_eq_true_iff (p := row.key = t.key), ← Bool.eq_iff_iff] at hactive hvisible
    exact (congrArg₂ (fun active visible => { row with active, visible }) hactive hvisible).symm
  rw [switchTab, List.map_congr_left hrow, List.map_id, ← ht]

theorem exists_active (h : p.InStep) :
    ∃ i t, i < p.tabs.length ∧ p.tabs[i]? = some t ∧ p.activeTabKey = some t.key := by
  obtain ⟨t, ⟨hmem, hkey⟩, _⟩ := h.active
  obtain ⟨i, hi, hget⟩ := List.getElem_of_mem hmem
  exact ⟨i, t, hi, by rw [List.getElem?_eq_getElem hi, hget], hkey⟩

/-- The search of the handler finds the active tab. -/
theorem findIdx_active (h : p.InStep) {t : Tab} (hi : p.tabs[i]? = some t) (ht : p.activeTabKey = some t.key) :
    p.tabs.findIdx? (some ·.key = p.activeTabKey) = some i := by
  obtain ⟨hlt, hget⟩ := List.getElem?_eq_some_iff.mp hi
  rw [List.findIdx?_eq_some_iff_getElem]
  refine ⟨hlt, by simp [hget, ht], fun k hk => ?_⟩
  have hne := List.nodup_iff_getElem?_ne_getElem?.mp h.keys k i hk (by simpa using hlt)
  rw [List.getElem?_map, List.getElem?_map, hi, List.getElem?_eq_getElem (by omega)] at hne
  simp only [ht, Option.some.injEq, decide_eq_true_eq]
  intro heq
  exact hne (congrArg some heq)

/-! ## Ctrl+Tab -/

theorem Window.At.lt (h : w.At i) : i < w.ui.page.tabs.length := by
  obtain ⟨t, ht, _⟩ := h
  exact (List.getElem?_eq_some_iff.mp ht).1

theorem select_eq {t : Tab} (ht : w.ui.page.tabs[j]? = some t) :
    w.select j = { w with ui := { w.ui with page := switchTab t.key w.ui.page } } := by
  rw [Window.select, ht]

theorem select_self (h : w.ui.page.InStep) (hi : w.At i) : w.select i = w := by
  obtain ⟨t, ht, hkey⟩ := hi
  rw [select_eq ht, switchTab_self h hkey]

theorem select_length (w : Window) (j : Nat) :
    (w.select j).ui.page.tabs.length = w.ui.page.tabs.length := by
  rw [Window.select]
  split
  · exact List.length_map _
  · rfl

theorem select_at (hj : j < w.ui.page.tabs.length) : (w.select j).At j := by
  have ht := List.getElem?_eq_getElem hj
  rw [select_eq ht]
  have hget := congrArg (Option.map fun row : Tab => { row with
    active := row.key = w.ui.page.tabs[j].key, visible := row.key = w.ui.page.tabs[j].key }) ht
  rw [← List.getElem?_map] at hget
  exact ⟨_, hget, rfl⟩

theorem select_select (hi : i < w.ui.page.tabs.length) (hj : j < w.ui.page.tabs.length) :
    (w.select i).select j = w.select j := by
  have ht := List.getElem?_eq_getElem hj
  have hti := List.getElem?_eq_getElem hi
  have htabs : (w.select i).ui.page.tabs[j]?.map (·.key) = some w.ui.page.tabs[j].key := by
    rw [select_eq hti, switchTab, List.getElem?_map, ht]
    rfl
  obtain ⟨t, hget, hkey⟩ := Option.map_eq_some_iff.mp htabs
  rw [select_eq hget, select_eq ht, select_eq hti, hkey, switchTab_switchTab]

theorem select_inStep (hl : w.ui.page.Listed) (hj : j < w.ui.page.tabs.length) :
    (w.select j).ui.page.InStep := by
  have ht := List.getElem?_eq_getElem hj
  rw [select_eq ht]
  exact switchTab_inStep hl (List.mem_map_of_mem (List.getElem_mem hj))

theorem shortcut_tab (w : Window) (shiftKey : Bool) {target : Option Target} (h : isFormFieldTarget target = false) :
    shortcut w { key := "Tab", ctrlKey := true, shiftKey, target } =
      if w.ui.page.tabs.length < 2 then {}
      else
        match w.ui.page.tabs.findIdx? (some ·.key = w.ui.page.activeTabKey) with
        | none => .taken none
        | some idx => .taken (w.ui.page.tabs[nextTab idx w.ui.page.tabs.length shiftKey]?.map (.switchTab ·.key)) := by
  rw [shortcut]
  dsimp only
  rw [h]
  rfl

/-- In a form field no key is a shortcut. -/
theorem shortcut_formField (w : Window) {ev : KeyEvent} (h : isFormFieldTarget ev.target = true) :
    shortcut w ev = {} := by
  rw [shortcut]
  dsimp only
  rw [h, Bool.or_true]
  rfl

theorem switchTab_call (start : StartCalls) {t : Tab} (ht : w.ui.page.tabs[j]? = some t) :
    callStep strerror start w (some (.switchTab t.key)) = some (w.select j) := by
  have hmem : t.key ∈ w.ui.page.tabs.map (·.key) := List.mem_map_of_mem (List.mem_of_getElem? ht)
  rw [select_eq ht, callStep, Call.step, uiStep, if_pos hmem]
  rfl

theorem toNat_emod_self (hi : w.At i) : (((i : Int) + 0) % w.ui.page.tabs.length).toNat = i := by
  have hlt := hi.lt
  rw [Int.add_zero, Int.emod_eq_of_lt (by omega) (by omega), Int.toNat_natCast]

/-- One press outside the form fields moves on by one tab, around at the ends. -/
theorem tabPress_outside (h : w.ui.page.InStep) (hi : w.At i) {press : TabPress}
    (hout : isFormFieldTarget press.target = false) :
    (window strerror).step w press.input = some (w.select (nextTab i w.ui.page.tabs.length press.shiftKey)) := by
  have hlt := hi.lt
  have hnext := nextTab_lt (by omega : 0 < w.ui.page.tabs.length) i press.shiftKey
  change callStep strerror none w (shortcut w _).call = _
  rw [shortcut_tab w press.shiftKey hout]
  split
  · have hsame : nextTab i w.ui.page.tabs.length press.shiftKey = i := by omega
    rw [hsame, select_self h hi]
    rfl
  · obtain ⟨t, ht, hkey⟩ := hi
    rw [findIdx_active h ht hkey]
    have hget := List.getElem?_eq_getElem hnext
    dsimp only
    rw [hget]
    exact switchTab_call none hget

theorem tabPress_step (h : w.ui.page.InStep) (hi : w.At i) (press : TabPress) :
    (window strerror).step w press.input =
      some (w.select (((i : Int) + press.turn) % w.ui.page.tabs.length).toNat) := by
  have hpos : 0 < w.ui.page.tabs.length := by
    have := hi.lt
    omega
  cases hfield : isFormFieldTarget press.target with
  | true =>
      rw [TabPress.turn, if_pos hfield, toNat_emod_self hi, select_self h hi]
      change callStep strerror none w (shortcut w _).call = _
      rw [shortcut_formField w hfield]
      rfl
  | false =>
      rw [tabPress_outside h hi hfield, TabPress.turn, hfield, if_neg Bool.false_ne_true, ← nextTab_eq hpos,
        Int.toNat_natCast]

theorem toNat_emod_lt {n : Nat} (hn : 0 < n) (a : Int) : (a % n).toNat < n := by
  have := Int.emod_lt_of_pos a (show (0 : Int) < n by omega)
  omega

theorem turns_cons (i : Nat) {n : Nat} (hn : 0 < n) (press : TabPress) (presses : List TabPress) :
    ((i : Int) + turns (press :: presses)) % n =
      ((((i : Int) + press.turn) % n).toNat + turns presses) % n := by
  rw [Int.toNat_of_nonneg (Int.emod_nonneg _ (by omega)), Int.emod_add_emod, turns, Int.add_assoc]

theorem tabPress_run (hl : w.ui.page.Listed) (h : w.ui.page.InStep) (hi : w.At i) (presses : List TabPress) :
    (window strerror).run w (presses.map (·.input)) =
      some (w.select ((i + turns presses) % w.ui.page.tabs.length).toNat) := by
  induction presses generalizing w i with
  | nil =>
      have hsame := toNat_emod_self hi
      rw [show turns [] = 0 from rfl, hsame, select_self h hi]
      rfl
  | cons press presses ih =>
      have hpos : 0 < w.ui.page.tabs.length := by
        have := hi.lt
        omega
      have hnext := toNat_emod_lt hpos ((i : Int) + press.turn)
      have hrest := ih (w := w.select (((i : Int) + press.turn) % w.ui.page.tabs.length).toNat) ?_
        (select_inStep hl hnext) (select_at hnext)
      · rw [List.map_cons, Machine.run_cons, tabPress_step h hi, Option.bind_some, hrest, select_length,
          select_select hnext (toNat_emod_lt hpos _), turns_cons i hpos]
      · rw [select_eq (List.getElem?_eq_getElem hnext)]
        exact switchTab_listed hl _

/-! ## The profiles of the tabs -/

/-- What of a tab its start depends on. -/
def Tab.offer (t : Tab) : TabKind × String := (t.kind, t.profile)

/-- Every shell tab has a profile of the list. -/
def Page.Offered (p : Page) : Prop := ∀ t ∈ p.tabs, t.kind = .shell → t.profile ∈ profiles

theorem Page.Offered.congr (h : p.Offered) (hoffers : q.tabs.map Tab.offer = p.tabs.map Tab.offer) :
    q.Offered := by
  intro t ht hkind
  have hmem := List.mem_map_of_mem (f := Tab.offer) ht
  rw [hoffers] at hmem
  obtain ⟨s, hs, heq⟩ := List.mem_map.mp hmem
  have hprofile : s.profile = t.profile := congrArg Prod.snd heq
  rw [← hprofile]
  exact h s hs ((congrArg Prod.fst heq).trans hkind)

theorem switchTab_offers (key : Nat) (p : Page) :
    (switchTab key p).tabs.map Tab.offer = p.tabs.map Tab.offer := by
  rw [switchTab, List.map_map]
  rfl

theorem setSession_offers (key : Nat) (id : Int) (p : Page) :
    (setSession key id p).tabs.map Tab.offer = p.tabs.map Tab.offer := by
  rw [setSession, List.map_map]
  refine List.map_congr_left fun t _ => ?_
  simp only [Function.comp_apply]
  split <;> rfl

theorem createTab_offered (hl : u.page.Listed) (h : u.page.Offered) {profile : String}
    (hprofile : profile ∈ profiles) : (createTab strerror profile start u).page.Offered := by
  obtain ⟨id, hpage⟩ := createTab_page strerror profile start u
  obtain ⟨xs, ys, htabs, _, hshell⟩ := withShell_cases hl profile
  rw [hpage, hshell]
  refine Page.Offered.congr ?_ ((setSession_offers _ _ _).trans (switchTab_offers _ _))
  intro t ht hkind
  rcases List.mem_append.mp ht with hx | hy
  · exact h t (htabs ▸ List.mem_append_left ys hx) hkind
  · rcases List.mem_cons.mp hy with rfl | hy
    · exact hprofile
    · exact h t (htabs ▸ List.mem_append_right xs hy) hkind

theorem settings_offered (h : p.Offered) : (openOrFocusSettingsTab p).Offered := by
  rw [openOrFocusSettingsTab]
  split
  · exact h.congr (switchTab_offers _ _)
  · rw [createSettingsTab]
    refine Page.Offered.congr ?_ (switchTab_offers _ _)
    intro t ht hkind
    rcases List.mem_append.mp ht with hold | hnew
    · exact h t hold hkind
    · rw [List.mem_singleton.mp hnew] at hkind
      cases hkind

theorem Removes.offered {r : Page × Option Int} {key : Nat} (hr : Removes key p r) (h : p.Offered) :
    r.1.Offered := by
  have hrest : ∀ {xs ys : List Tab} {t : Tab} {strip : List Nat}, p.tabs = xs ++ t :: ys →
      Page.Offered { p with tabs := xs ++ ys, strip } := by
    intro xs ys t strip htabs s hs hkind
    have hsub : (xs ++ ys).Sublist p.tabs := by
      rw [htabs]
      exact List.Sublist.append_left (List.sublist_cons_self t ys) xs
    exact h s (hsub.subset hs) hkind
  cases hr with
  | nothing => exact h
  | one htabs _ hq _ =>
      subst hq
      exact hrest htabs
  | active htabs _ hq _ =>
      subst hq
      exact (hrest htabs).congr (switchTab_offers _ _)

/-- The profile that an action of the page starts, if it starts one. -/
def UiAct.profile : UiAct → Option String
  | .wtBootstrap profile _ => some profile
  | .createTab profile _ => some profile
  | _ => none

theorem UiStep.offered (h : UiStep strerror u a v) (hl : u.page.Listed) (hu : u.page.Offered)
    (ha : ∀ profile, a.profile = some profile → profile ∈ profiles) : v.page.Offered := by
  cases h with
  | boots _ _ => exact createTab_offered hl hu (ha _ rfl)
  | bootsAgain _ => exact hu
  | creates _ => exact createTab_offered hl hu (ha _ rfl)
  | opensSettings => exact settings_offered hu
  | switches _ => exact hu.congr (switchTab_offers _ _)
  | removes => exact (removeTab_removes _ _).offered hu
  | sets => exact hu
  | writes _ => exact hu.congr (writeFirst_map (fun _ _ => rfl) _ _ _)

/-! ## What an input does -/

/-- What every window satisfies after `wtBootstrap`. -/
structure Window.Inv (w : Window) : Prop where
  ui : w.ui.Inv
  page : w.ui.page.InStep
  tabs : w.ui.page.Offered
  newTab : w.newTabProfile ∈ profiles
  default : w.defaultNewTabProfile ∈ profiles

theorem profiles_ne {profile : String} (h : profile ∈ profiles) : profile ≠ "" := by
  rintro rfl
  exact absurd h (by decide)

theorem orElse_eq {a b : String} (h : a ≠ "") : orElse a b = a := if_neg h

theorem Window.Inv.profileForNewTab (h : w.Inv) : profileForNewTabFromActive w ∈ profiles := by
  rw [profileForNewTabFromActive, orElse_eq (profiles_ne h.newTab)]
  cases hactive : getActiveTab w.ui.page with
  | none => exact h.newTab
  | some cur =>
      dsimp only
      split
      · rename_i hcur
        exact h.tabs cur (List.mem_of_find?_eq_some hactive) hcur.1
      · exact h.newTab

/-- A step of the page, with what the window keeps besides it. -/
theorem Window.Inv.ui_step (h : w.Inv) (hstep : uiStep strerror w.ui a = some v)
    (ha : ∀ profile, a.profile = some profile → profile ∈ profiles) : Window.Inv { w with ui := v } where
  ui := (uiStep_cases hstep).inv h.ui
  page := (uiStep_cases hstep).inStep h.ui.page h.page
  tabs := (uiStep_cases hstep).offered h.ui.page h.tabs ha
  newTab := h.newTab
  default := h.default

/-- Calls of the page are steps of it. -/
def Call.act (start : StartCalls) : Call → Option UiAct
  | .openAboutDialog => none
  | .closeAboutDialog => none
  | .openOrFocusSettingsTab => some .openOrFocusSettingsTab
  | .switchTab key => some (.switchTab key)
  | .createTab profile => some (.createTab profile start)
  | .removeTab key => some (.removeTab key)

theorem Call.step_act {c : Call} (h : c.act start = some a) :
    c.step strerror start w = (uiStep strerror w.ui a).map ({ w with ui := · }) := by
  cases c <;> cases h <;> rfl

theorem Call.step_dialog (strerror : Errno → String) (w : Window) {c : Call} (h : c.act start = none) :
    ∃ aboutHidden, c.step strerror start w = some { w with aboutHidden } := by
  cases c with
  | openAboutDialog => exact ⟨false, rfl⟩
  | closeAboutDialog => exact ⟨true, rfl⟩
  | _ => cases h

/-- A call opens or closes the dialog, or it is a step of the page. -/
theorem callStep_cases {call : Option Call} (h : callStep strerror start w call = some w') :
    (∃ aboutHidden, w' = { w with aboutHidden }) ∨
      ∃ c a v, call = some c ∧ c.act start = some a ∧ uiStep strerror w.ui a = some v ∧
        w' = { w with ui := v } := by
  cases call with
  | none =>
      cases h
      exact Or.inl ⟨w.aboutHidden, rfl⟩
  | some c =>
      rw [callStep] at h
      cases hact : c.act start with
      | none =>
          obtain ⟨aboutHidden, hstep⟩ := Call.step_dialog strerror w hact
          rw [hstep] at h
          cases h
          exact Or.inl ⟨aboutHidden, rfl⟩
      | some a =>
          rw [Call.step_act hact] at h
          obtain ⟨v, hv, rfl⟩ := Option.map_eq_some_iff.mp h
          exact Or.inr ⟨c, a, v, rfl, hact, hv, rfl⟩

/-- The profiles that a call starts are of the list. -/
def CallOffered (call : Option Call) : Prop := ∀ profile, call = some (.createTab profile) → profile ∈ profiles

theorem callStep_inv {call : Option Call} (hw : w.Inv) (hcall : CallOffered call)
    (h : callStep strerror start w call = some w') : w'.Inv := by
  rcases callStep_cases h with ⟨_, rfl⟩ | ⟨c, a, v, rfl, hact, hv, rfl⟩
  · exact ⟨hw.ui, hw.page, hw.tabs, hw.newTab, hw.default⟩
  · refine hw.ui_step hv fun profile hprofile => ?_
    cases c <;> cases hact <;> cases hprofile
    exact hcall _ rfl

/-- Steps of the page lead from one state to the other. -/
def Follows (strerror : Errno → String) (u v : Ui) : Prop := ∃ acts, (ui strerror).run u acts = some v

theorem Follows.refl (strerror : Errno → String) (u : Ui) : Follows strerror u u := ⟨[], rfl⟩

theorem Follows.single (h : uiStep strerror u a = some v) : Follows strerror u v :=
  ⟨[a], (ui strerror).run_cons_eq_some.mpr ⟨v, h, rfl⟩⟩

theorem Follows.trans {t : Ui} (h : Follows strerror t u) (h' : Follows strerror u v) : Follows strerror t v := by
  obtain ⟨acts, hacts⟩ := h
  obtain ⟨acts', hacts'⟩ := h'
  exact ⟨acts ++ acts', by rw [Machine.run_append, hacts, Option.bind_some, hacts']⟩

theorem callStep_follows {call : Option Call} (h : callStep strerror start w call = some w') :
    Follows strerror w.ui w'.ui := by
  rcases callStep_cases h with ⟨_, rfl⟩ | ⟨c, a, v, _, _, hv, rfl⟩
  · exact .refl strerror w.ui
  · exact .single hv

/-! ## The calls of the handlers -/

theorem Window.Inv.shortcut_offered (h : w.Inv) (ev : KeyEvent) : CallOffered (shortcut w ev).call := by
  have hprof : ∀ {profile}, profMap ev.key = some profile → profile ∈ profiles := by
    intro profile hprofile
    rw [profMap] at hprofile
    split at hprofile
    · cases hprofile; decide
    · split at hprofile
      · cases hprofile; decide
      · split at hprofile
        · cases hprofile; decide
        · cases hprofile
  intro profile hcall
  unfold shortcut at hcall
  dsimp only at hcall
  split at hcall
  · cases hcall
  split at hcall
  · split at hcall <;> cases hcall
  split at hcall
  · split at hcall
    · cases hcall
    · split at hcall
      · cases hcall
      · obtain ⟨_, _, hcontra⟩ := Option.map_eq_some_iff.mp hcall
        cases hcontra
  split at hcall
  · cases hcall
  split at hcall
  · cases hcall
  split at hcall
  · split at hcall
    · cases hcall
    · cases hcall
      exact h.profileForNewTab
  split at hcall
  · split at hcall
    · cases hcall
    · obtain ⟨_, _, hcontra⟩ := Option.map_eq_some_iff.mp hcall
      cases hcontra
  · split at hcall
    · rename_i hmap
      cases hcall
      exact hprof hmap
    · cases hcall

theorem aboutKey_offered (w : Window) (ev : KeyEvent) : CallOffered (aboutKey w ev).call := by
  intro profile hcall
  rw [aboutKey] at hcall
  split at hcall <;> cases hcall

/-- A key is kept from the terminal exactly when it makes a call: there is an active tab, and one next to it. -/
theorem shortcut_keeps (h : w.ui.page.InStep) (ev : KeyEvent) :
    (shortcut w ev).prevented = (shortcut w ev).call.isSome ∧
      (shortcut w ev).stopped = (shortcut w ev).call.isSome := by
  obtain ⟨i, t, hi, ht, hkey⟩ := exists_active h
  have hidx := findIdx_active h ht hkey
  unfold shortcut
  dsimp only
  split
  · exact ⟨rfl, rfl⟩
  split
  · split <;> exact ⟨rfl, rfl⟩
  split
  · split
    · exact ⟨rfl, rfl⟩
    · rw [hidx]
      have hnext := List.getElem?_eq_getElem (nextTab_lt (by omega : 0 < w.ui.page.tabs.length) i ev.shiftKey)
      dsimp only
      rw [hnext]
      exact ⟨rfl, rfl⟩
  split
  · exact ⟨rfl, rfl⟩
  split
  · exact ⟨rfl, rfl⟩
  split
  · split <;> exact ⟨rfl, rfl⟩
  split
  · split
    · exact ⟨rfl, rfl⟩
    · rw [hkey]
      exact ⟨rfl, rfl⟩
  · split <;> exact ⟨rfl, rfl⟩

/-- What a row of the menu changes besides its call. -/
structure Activates (w : Window) (r : Window × Option Call) : Prop where
  offered : CallOffered r.2
  ui : r.1.ui = w.ui
  newTab : r.1.newTabProfile = w.newTabProfile ∨ r.1.newTabProfile ∈ profiles
  default : r.1.defaultNewTabProfile = w.defaultNewTabProfile

theorem activateItem_activates {row : MenuRow} (hrow : row ∈ menuRows) (w : Window) :
    Activates w (activateItem row w) := by
  have hpid : ∀ pid ∈ profiles, Activates w ({ w with newTabProfile := pid }, some (.createTab pid)) := by
    refine fun pid hmem => ⟨fun _ h => ?_, rfl, Or.inr hmem, rfl⟩
    cases h
    exact hmem
  simp only [menuRows, List.mem_cons, List.not_mem_nil, or_false] at hrow
  rcases hrow with rfl | rfl | rfl | rfl | rfl
  · exact hpid "daemon" (by decide)
  · exact hpid "powershell" (by decide)
  · exact hpid "khsl" (by decide)
  · exact ⟨fun _ h => (nomatch h), rfl, Or.inl rfl, rfl⟩
  · exact ⟨fun _ h => (nomatch h), rfl, Or.inl rfl, rfl⟩

/-! ## Steps of the window -/

theorem windowStep_follows {input : Input} (h : windowStep strerror w input = some w') :
    Follows strerror w.ui w'.ui := by
  cases input with
  | wtBootstrap profile position start =>
      simp only [windowStep, Option.ite_none_right_eq_some, Option.bind_eq_bind, Option.bind_eq_some_iff,
        Option.some.injEq] at h
      obtain ⟨_, u, hu, v, hv, rfl⟩ := h
      exact (Follows.single hu).trans (.single hv)
  | newTabButton start =>
      simp only [windowStep] at h
      split at h
      · cases h
        exact .refl strerror w.ui
      · exact callStep_follows h
  | menuItem row start =>
      simp only [windowStep, Option.ite_none_right_eq_some] at h
      obtain ⟨hrow, h⟩ := h
      have hui := (activateItem_activates hrow w).ui
      exact hui ▸ callStep_follows h
  | keydown ev start =>
      simp only [windowStep, Option.bind_eq_some_iff] at h
      obtain ⟨v, hv, h⟩ := h
      exact (callStep_follows hv).trans (callStep_follows h)
  | tabRow key =>
      rw [windowStep] at h
      exact callStep_follows h
  | tabClose key =>
      rw [windowStep] at h
      exact callStep_follows h
  | aboutClick =>
      cases h
      exact .refl strerror w.ui
  | profSel value =>
      simp only [windowStep, Option.ite_none_right_eq_some, Option.some.injEq] at h
      obtain ⟨_, rfl⟩ := h
      exact .refl strerror w.ui
  | ntpEl value =>
      rw [windowStep] at h
      obtain ⟨v, hv, rfl⟩ := Option.map_eq_some_iff.mp h
      exact .single hv
  | output id data =>
      rw [windowStep] at h
      obtain ⟨v, hv, rfl⟩ := Option.map_eq_some_iff.mp h
      exact .single hv

theorem windowStep_inv {input : Input} (hw : w.Inv) (h : windowStep strerror w input = some w') : w'.Inv := by
  have hnone : ∀ {a : UiAct}, a.profile = none → ∀ profile, a.profile = some profile → profile ∈ profiles := by
    intro a ha profile hprofile
    rw [ha] at hprofile
    cases hprofile
  cases input with
  | wtBootstrap profile position start =>
      simp only [windowStep, Option.ite_none_right_eq_some, Option.bind_eq_bind, Option.bind_eq_some_iff,
        Option.some.injEq] at h
      obtain ⟨hprofile, u, hu, v, hv, rfl⟩ := h
      rw [orElse_eq (profiles_ne hprofile)] at hv ⊢
      have hinv := (hw.ui_step hu (hnone rfl)).ui_step hv fun _ heq => by cases heq; exact hprofile
      exact ⟨hinv.ui, hinv.page, hinv.tabs, hprofile, hprofile⟩
  | newTabButton start =>
      simp only [windowStep] at h
      split at h
      · cases h
        exact hw
      · refine callStep_inv hw (fun profile hcall => ?_) h
        cases hcall
        exact hw.profileForNewTab
  | menuItem row start =>
      simp only [windowStep, Option.ite_none_right_eq_some] at h
      obtain ⟨hrow, h⟩ := h
      obtain ⟨hcall, hui, hnew, hdefault⟩ := activateItem_activates hrow w
      refine callStep_inv ⟨hui ▸ hw.ui, hui ▸ hw.page, hui ▸ hw.tabs, ?_, hdefault ▸ hw.default⟩ hcall h
      rcases hnew with hsame | hmem
      · exact hsame ▸ hw.newTab
      · exact hmem
  | keydown ev start =>
      simp only [windowStep, Option.bind_eq_some_iff] at h
      obtain ⟨v, hv, h⟩ := h
      have hinv := callStep_inv hw (aboutKey_offered w ev) hv
      exact callStep_inv hinv (hinv.shortcut_offered ev) h
  | tabRow key =>
      rw [windowStep] at h
      refine callStep_inv hw (fun _ hcall => ?_) h
      cases hcall
  | tabClose key =>
      rw [windowStep] at h
      refine callStep_inv hw (fun _ hcall => ?_) h
      cases hcall
  | aboutClick =>
      cases h
      exact ⟨hw.ui, hw.page, hw.tabs, hw.newTab, hw.default⟩
  | profSel value =>
      simp only [windowStep, Option.ite_none_right_eq_some, Option.some.injEq] at h
      obtain ⟨hvalue, rfl⟩ := h
      exact ⟨hw.ui, hw.page, hw.tabs, hvalue, hvalue⟩
  | ntpEl value =>
      rw [windowStep] at h
      obtain ⟨v, hv, rfl⟩ := Option.map_eq_some_iff.mp h
      exact hw.ui_step hv (hnone rfl)
  | output id data =>
      rw [windowStep] at h
      obtain ⟨v, hv, rfl⟩ := Option.map_eq_some_iff.mp h
      exact hw.ui_step hv (hnone rfl)

theorem boot_inv {before : Nat → Option Bool} {profile position : String}
    (h : windowStep strerror (.initial before) (.wtBootstrap profile position start) = some w) : w.Inv := by
  simp only [windowStep, Option.ite_none_right_eq_some, Option.bind_eq_bind, Option.bind_eq_some_iff,
    Option.some.injEq] at h
  obtain ⟨hprofile, u, hu, v, hv, rfl⟩ := h
  rw [orElse_eq (profiles_ne hprofile)] at hv ⊢
  have hui := (uiStep_cases hu).inv (initial_ui_inv before)
  cases hu
  cases uiStep_cases hv with
  | boots hempty hallowed =>
      refine ⟨(UiStep.boots hempty hallowed).inv hui, createTab_inStep hui.page, ?_, hprofile, hprofile⟩
      exact createTab_offered hui.page (fun _ ht => nomatch ht) hprofile
  | bootsAgain hne => exact absurd rfl hne

/-- After `wtBootstrap` and any inputs. -/
theorem window_run_inv {before : Nat → Option Bool} {profile position : String} {inputs : List Input}
    (h : (window strerror).run (.initial before) (.wtBootstrap profile position start :: inputs) = some w) :
    w.Inv := by
  obtain ⟨w₀, hboot, hrun⟩ := (window strerror).run_cons_eq_some.mp h
  exact (window strerror).run_invariant (fun _ _ _ => windowStep_inv) (boot_inv hboot) hrun

theorem window_run_follows {inputs : List Input} (h : (window strerror).run w inputs = some w') :
    Follows strerror w.ui w'.ui := by
  induction inputs generalizing w with
  | nil =>
      cases h
      exact .refl strerror _
  | cons input inputs ih =>
      obtain ⟨v, hv, hrun⟩ := (window strerror).run_cons_eq_some.mp h
      exact (windowStep_follows hv).trans (ih hrun)

end Kworker.Terminal
