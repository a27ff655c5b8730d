import Kworker.Terminal.Lemmas.Sessions
import Kworker.Terminal.Lemmas.Tabs

/-!
# The tabs and the sessions over a whole run
-/

namespace Kworker.Terminal

open Kworker.Posix Kworker.Lib

variable {strerror : Errno → String} {u v : Ui} {a : UiAct} {profile : String} {start : StartCalls}

/-! ## Steps -/

/-- The page of `createTab` is that of the new tab, with the session that `StartPty` returned. -/
theorem createTab_page (strerror : Errno → String) (profile : String) (start : StartCalls) (u : Ui) :
    ∃ id, (createTab strerror profile start u).page =
      setSession (u.page.nextTabKey + 1) id (u.page.withShell profile) := by
  cases start with
  | none => exact ⟨-1, rfl⟩
  | some calls => exact ⟨_, rfl⟩

inductive UiStep (strerror : Errno → String) (u : Ui) : UiAct → Ui → Prop
  | boots {profile : String} {start : StartCalls} (empty : u.page.tabs = [])
      (allowed : startAllowed profile u start = true) :
      UiStep strerror u (.wtBootstrap profile start) (createTab strerror profile start u)
  | bootsAgain {profile : String} {start : StartCalls} (nonempty : u.page.tabs ≠ []) :
      UiStep strerror u (.wtBootstrap profile start) u
  | creates {profile : String} {start : StartCalls} (allowed : startAllowed profile u start = true) :
      UiStep strerror u (.createTab profile start) (createTab strerror profile start u)
  | opensSettings : UiStep strerror u .openOrFocusSettingsTab { u with page := openOrFocusSettingsTab u.page }
  | switches {key : Nat} (mem : key ∈ u.page.tabs.map (·.key)) :
      UiStep strerror u (.switchTab key) { u with page := switchTab key u.page }
  | removes {key : Nat} : UiStep strerror u (.removeTab key) { u with
      page := (removeTab key u.page).1
      native := match (removeTab key u.page).2 with
        | some id => stopPty (some id) u.native
        | none => u.native }
  | sets {position : String} : UiStep strerror u (.setNewTabPosition position)
      { u with page := { u.page with newTabPosition := position } }
  | writes {id : Int} {data : String} (started : id ∈ u.started.map (·.1)) :
      UiStep strerror u (.output id data) { u with page := writeToTerminal id data u.page }

theorem uiStep_cases (h : uiStep strerror u a = some v) : UiStep strerror u a v := by
  cases a with
  | wtBootstrap profile start =>
      simp only [uiStep] at h
      split at h
      · rename_i hempty
        split at h
        · rename_i hallowed
          cases h
          exact .boots (List.length_eq_zero_iff.mp hempty) hallowed
        · cases h
      · rename_i hne
        cases h
        exact .bootsAgain fun hnil => hne (by rw [hnil, List.length_nil])
  | createTab profile start =>
      simp only [uiStep, Option.ite_none_right_eq_some] at h
      obtain ⟨hallowed, h⟩ := h
      cases h
      exact .creates hallowed
  | openOrFocusSettingsTab =>
      cases h
      exact .opensSettings
  | switchTab key =>
      simp only [uiStep, Option.ite_none_right_eq_some] at h
      obtain ⟨hmem, h⟩ := h
      cases h
      exact .switches hmem
  | removeTab key =>
      cases h
      exact .removes
  | setNewTabPosition position =>
      cases h
      exact .sets
  | output id data =>
      simp only [uiStep, Option.ite_none_right_eq_some] at h
      obtain ⟨hstarted, h⟩ := h
      cases h
      exact .writes hstarted

/-! ## The page -/

theorem createTab_listed (h : u.page.Listed) : (createTab strerror profile start u).page.Listed := by
  obtain ⟨id, hpage⟩ := createTab_page strerror profile start u
  rw [hpage]
  exact (withShell_listed h profile).congr (setSession_face _ _ _) rfl rfl

theorem createTab_inStep (h : u.page.Listed) : (createTab strerror profile start u).page.InStep := by
  obtain ⟨id, hpage⟩ := createTab_page strerror profile start u
  rw [hpage]
  exact (withShell_inStep h profile).congr (setSession_face _ _ _) rfl rfl

theorem UiStep.listed (h : UiStep strerror u a v) (hu : u.page.Listed) : v.page.Listed := by
  cases h with
  | boots _ _ => exact createTab_listed hu
  | bootsAgain _ => exact hu
  | creates _ => exact createTab_listed hu
  | opensSettings => exact openOrFocusSettingsTab_listed hu
  | switches _ => exact switchTab_listed hu _
  | removes => exact (removeTab_removes _ _).listed hu
  | sets => exact ⟨hu.keys, hu.below, hu.settings, hu.strip⟩
  | writes _ => exact hu.congr (writeFirst_map (fun _ _ => rfl) _ _ _) rfl rfl

theorem UiStep.inStep (h : UiStep strerror u a v) (hu : u.page.Listed) (hin : u.page.InStep) :
    v.page.InStep := by
  cases h with
  | boots _ _ => exact createTab_inStep hu
  | bootsAgain _ => exact hin
  | creates _ => exact createTab_inStep hu
  | opensSettings => exact openOrFocusSettingsTab_inStep hu
  | switches hmem => exact switchTab_inStep hu hmem
  | removes => exact (removeTab_removes _ _).inStep hu hin
  | sets => exact ⟨hin.nonempty, hin.keys, hin.settings, hin.active, hin.classes, hin.strip⟩
  | writes _ => exact hin.congr (writeFirst_map (fun _ _ => rfl) _ _ _) rfl rfl

/-- The page before `wtBootstrap`. -/
theorem empty_listed : Page.Listed {} := by
  refine ⟨List.nodup_nil, ?_, Nat.zero_le _, rfl⟩
  intro t ht
  cases ht

/-! ## The sessions of the open tabs -/

/-- What of a tab the sessions depend on. -/
def Tab.ident (t : Tab) : Nat × TabKind × Int := (t.key, t.kind, t.sessionId)

def Page.idents (p : Page) : List (Nat × TabKind × Int) := p.tabs.map Tab.ident

/-- Who started which session: the sessions of the open tabs are those of the native module, and `started`
is the history of both. -/
structure Ui.Sessions (u : Ui) : Prop where
  owners : ∀ key kind id, (key, kind, id) ∈ u.page.idents → 0 ≤ id → kind = .shell ∧ (id, key) ∈ u.started
  sessions : ∀ id, id ∈ u.native.globals.g_sessions.map (·.1) ↔
    0 ≤ id ∧ ∃ key kind, (key, kind, id) ∈ u.page.idents
  ids : (u.started.map (·.1)).Nodup
  history : ∀ e ∈ u.started, 0 ≤ e.1 ∧ e.1 < u.native.globals.g_next_session_id ∧ e.2 ≤ u.page.nextTabKey
  kept : ∀ e ∈ u.started, ∀ kind id, (e.2, kind, id) ∈ u.page.idents → id = e.1

theorem started_inj {started : List (Int × Nat)} (h : (started.map (·.1)).Nodup) {id : Int} {k k' : Nat}
    (hk : (id, k) ∈ started) (hk' : (id, k') ∈ started) : k = k' :=
  congrArg Prod.snd (List.inj_on_of_nodup_map h hk hk' rfl)

/-! ### Pages with the same tabs -/

theorem switchTab_idents (key : Nat) (p : Page) : (switchTab key p).idents = p.idents := by
  rw [Page.idents, switchTab, List.map_map]
  rfl

theorem Ui.Sessions.congr {q : Page} (h : u.Sessions) (hidents : q.idents = u.page.idents)
    (hnext : q.nextTabKey = u.page.nextTabKey) : Ui.Sessions { u with page := q } where
  owners := by
    simp only [hidents]
    exact h.owners
  sessions := by
    simp only [hidents]
    exact h.sessions
  ids := h.ids
  history := by
    simp only [hnext]
    exact h.history
  kept := by
    simp only [hidents]
    exact h.kept

/-- A new tab is none of those that started a session. -/
theorem Ui.Sessions.kept_new {kind kind' : TabKind} {id id' : Int} {e : Int × Nat} (h : u.Sessions)
    (he : e ∈ u.started)
    (hmem : (e.2, kind, id) ∈ u.page.idents ∨ (e.2, kind, id) = (u.page.nextTabKey + 1, kind', id')) :
    id = e.1 := by
  rcases hmem with hold | hnew
  · exact h.kept e he kind id hold
  · have hbelow := (h.history e he).2.2
    have hkey : e.2 = u.page.nextTabKey + 1 := congrArg Prod.fst hnew
    omega

/-- A new tab without a session. -/
theorem Ui.Sessions.add {q : Page} (h : u.Sessions) {kind : TabKind} {n : Native} {started : List (Int × Nat)}
    (hidents : ∀ x, x ∈ q.idents ↔ x ∈ u.page.idents ∨ x = (u.page.nextTabKey + 1, kind, -1))
    (hnext : q.nextTabKey = u.page.nextTabKey + 1) (hstarted : started = u.started)
    (hsessions : n.globals.g_sessions = u.native.globals.g_sessions)
    (hid : u.native.globals.g_next_session_id ≤ n.globals.g_next_session_id) :
    Ui.Sessions { page := q, native := n, started } where
  owners key kind id hmem hpos := by
    rcases (hidents _).mp hmem with hold | hnew
    · rw [hstarted]
      exact h.owners key kind id hold hpos
    · cases hnew
      omega
  sessions id := by
    simp only [hsessions, h.sessions id, hidents]
    refine and_congr_right fun hpos => exists_congr fun key => exists_congr fun kind => ?_
    refine (or_iff_left ?_).symm
    rintro heq
    cases heq
    omega
  ids := by
    rw [hstarted]
    exact h.ids
  history e he := by
    rw [hstarted] at he
    obtain ⟨hpos, hlt, hkey⟩ := h.history e he
    simp only
    omega
  kept e he kind id hmem := by
    rw [hstarted] at he
    exact h.kept_new he ((hidents _).mp hmem)

/-- A new tab with a new session. -/
theorem Ui.Sessions.addStarted {q : Page} (h : u.Sessions) (hl : u.page.Listed) {n : Native} {s : PtySession}
    (hpos : 1 ≤ u.native.globals.g_next_session_id)
    (hidents : ∀ x, x ∈ q.idents ↔ x ∈ u.page.idents ∨
      x = (u.page.nextTabKey + 1, .shell, u.native.globals.g_next_session_id))
    (hnext : q.nextTabKey = u.page.nextTabKey + 1)
    (hsessions : n.globals.g_sessions =
      (u.native.globals.g_next_session_id, s) :: u.native.globals.g_sessions)
    (hid : n.globals.g_next_session_id = u.native.globals.g_next_session_id + 1) :
    Ui.Sessions { page := q, native := n,
                  started := (u.native.globals.g_next_session_id, u.page.nextTabKey + 1) :: u.started } where
  owners key kind id hmem hpos := by
    rcases (hidents _).mp hmem with hold | hnew
    · obtain ⟨hkind, hstarted⟩ := h.owners key kind id hold hpos
      exact ⟨hkind, List.mem_cons_of_mem _ hstarted⟩
    · cases hnew
      exact ⟨rfl, List.mem_cons_self⟩
  sessions id := by
    simp only [hsessions, List.map_cons, List.mem_cons, h.sessions id, hidents]
    constructor
    · rintro (rfl | ⟨hpos', key, kind, hmem⟩)
      · exact ⟨by omega, _, _, Or.inr rfl⟩
      · exact ⟨hpos', key, kind, Or.inl hmem⟩
    · rintro ⟨hpos', key, kind, hmem | hnew⟩
      · exact Or.inr ⟨hpos', key, kind, hmem⟩
      · cases hnew
        exact Or.inl rfl
  ids := by
    rw [List.map_cons, List.nodup_cons]
    refine ⟨?_, h.ids⟩
    intro hmem
    obtain ⟨e, he, heq⟩ := List.mem_map.mp hmem
    have := (h.history e he).2.1
    omega
  history e he := by
    rcases List.mem_cons.mp he with rfl | hold
    · simp only
      omega
    · obtain ⟨hpos', hlt, hkey⟩ := h.history e hold
      simp only
      omega
  kept e he kind id hmem := by
    rcases List.mem_cons.mp he with rfl | hold
    · rcases (hidents _).mp hmem with hin | hnew
      · obtain ⟨t, ht, hident⟩ := List.mem_map.mp hin
        have hkey : t.key = u.page.nextTabKey + 1 := congrArg Prod.fst hident
        have := hl.below t ht
        omega
      · cases hnew
        rfl
    · exact h.kept_new hold ((hidents _).mp hmem)

/-! ### New tabs -/

theorem settings_idents (h : findSettingsTab u.page = none) (x : Nat × TabKind × Int) :
    x ∈ (openOrFocusSettingsTab u.page).idents ↔
      x ∈ u.page.idents ∨ x = (u.page.nextTabKey + 1, .settings, -1) := by
  rw [openOrFocusSettingsTab, h, createSettingsTab, switchTab_idents, Page.idents, List.map_append,
    List.mem_append]
  exact or_congr_right List.mem_singleton

theorem setSession_idents (hl : u.page.Listed) (profile : String) (id : Int) (x : Nat × TabKind × Int) :
    x ∈ (setSession (u.page.nextTabKey + 1) id (u.page.withShell profile)).idents ↔
      x ∈ u.page.idents ∨ x = (u.page.nextTabKey + 1, .shell, id) := by
  obtain ⟨xs, ys, htabs, _, hpage⟩ := withShell_cases hl profile
  have hold : ∀ t ∈ xs ++ ys, t.key ≠ u.page.nextTabKey + 1 := by
    intro t ht
    have := hl.below t (htabs ▸ ht)
    omega
  let f : Tab → Tab := fun t =>
    if t.key = u.page.nextTabKey + 1 then { t with sessionId := id, localEcho := id < 0 } else t
  let g : Tab → Tab := fun row =>
    { row with active := row.key = u.page.nextTabKey + 1, visible := row.key = u.page.nextTabKey + 1 }
  have hkeep : ∀ ts : List Tab, (∀ t ∈ ts, t.key ≠ u.page.nextTabKey + 1) →
      ((ts.map g).map f).map Tab.ident = ts.map Tab.ident := by
    intro ts hts
    rw [List.map_map, List.map_map]
    refine List.map_congr_left fun t ht => ?_
    simp only [Function.comp_apply, f, g, if_neg (hts t ht)]
    rfl
  have hx := hkeep xs fun t ht => hold t (List.mem_append_left _ ht)
  have hy := hkeep ys fun t ht => hold t (List.mem_append_right _ ht)
  have hidents : (setSession (u.page.nextTabKey + 1) id (u.page.withShell profile)).idents =
      xs.map Tab.ident ++ (u.page.nextTabKey + 1, .shell, id) :: ys.map Tab.ident := by
    rw [hpage, ← hx, ← hy]
    simp [Page.idents, setSession, switchTab, f, g, Tab.ident]
  rw [hidents, Page.idents, htabs, List.map_append]
  simp only [List.mem_append, List.mem_cons]
  tauto

theorem setSession_nextTabKey (hl : u.page.Listed) (profile : String) (id : Int) :
    (setSession (u.page.nextTabKey + 1) id (u.page.withShell profile)).nextTabKey = u.page.nextTabKey + 1 := by
  obtain ⟨xs, ys, _, _, hpage⟩ := withShell_cases hl profile
  rw [hpage]
  rfl

/-- The new tab when `StartPty` has returned. -/
def Ui.withSession (u : Ui) (profile : String) (r : Int × Native) : Ui where
  page := setSession (u.page.nextTabKey + 1) r.1 (u.page.withShell profile)
  native := r.2
  started := if r.1 ≥ 0 then (r.1, u.page.nextTabKey + 1) :: u.started else u.started

theorem withSession_sessions {r : Int × Native} (h : u.Sessions) (hl : u.page.Listed) (hn : u.native.Inv)
    (hr : Started u.native r) : (u.withSession profile r).Sessions := by
  unfold Ui.withSession
  cases hr with
  | fails _ hsessions hnext _ =>
      exact h.add (setSession_idents hl profile (-1)) (setSession_nextTabKey hl profile (-1)) rfl hsessions
        (by rw [hnext]; omega)
  | starts _ _ _ _ hsessions hnext =>
      have hpos := hn.next_id
      rw [insert_sessions fun e he => (hn.below e he).2] at hsessions
      rw [if_pos (show u.native.globals.g_next_session_id ≥ 0 by omega)]
      exact h.addStarted hl hpos (setSession_idents hl profile _) (setSession_nextTabKey hl profile _)
        hsessions hnext

theorem createTab_sessions (strerror : Errno → String) (h : u.Sessions) (hl : u.page.Listed) (hn : u.native.Inv)
    (hallowed : startAllowed profile u start = true) :
    (createTab strerror profile start u).Sessions ∧ (createTab strerror profile start u).native.Inv := by
  cases start with
  | none =>
      refine ⟨?_, hn⟩
      exact h.add (setSession_idents hl profile (-1)) (setSession_nextTabKey hl profile (-1)) rfl rfl
        (Int.le_refl _)
  | some calls =>
      obtain ⟨d, c⟩ := calls
      simp only [startAllowed, Bool.and_eq_true] at hallowed
      have hstarted := startPty_started strerror hallowed.1
      exact ⟨withSession_sessions h hl hn hstarted, hstarted.inv hn⟩

/-! ### Removing -/

theorem stopPty_nonneg {id : Int} (h : 0 ≤ id) (p : Native) : stopPty (some id) p = stopSession p id := by
  simp only [stopPty, if_neg (Int.not_lt.mpr h)]

theorem rest_idents {xs ys : List Tab} {t : Tab} (hl : u.page.Listed) (htabs : u.page.tabs = xs ++ t :: ys)
    (x : Nat × TabKind × Int) :
    x ∈ (xs ++ ys).map Tab.ident ↔ x ∈ u.page.idents ∧ x.1 ≠ t.key := by
  have hkeys : ((xs ++ t :: ys).map (·.key)).Nodup := htabs ▸ hl.keys
  rw [Page.idents, htabs]
  constructor
  · intro hx
    obtain ⟨s, hs, rfl⟩ := List.mem_map.mp hx
    obtain ⟨hmem, hne⟩ := (mem_rest_iff hkeys).mp hs
    exact ⟨List.mem_map_of_mem hmem, hne⟩
  · rintro ⟨hx, hne⟩
    obtain ⟨s, hs, rfl⟩ := List.mem_map.mp hx
    exact List.mem_map_of_mem ((mem_rest_iff hkeys).mpr ⟨hs, hne⟩)

/-- A tab goes, and its session with it. -/
theorem Ui.Sessions.remove {q : Page} {n : Native} {t : Tab} (h : u.Sessions) (hl : u.page.Listed)
    (ht : t ∈ u.page.tabs) (hidents : ∀ x, x ∈ q.idents ↔ x ∈ u.page.idents ∧ x.1 ≠ t.key)
    (hnext : q.nextTabKey = u.page.nextTabKey)
    (hid : n.globals.g_next_session_id = u.native.globals.g_next_session_id)
    (hsessions : ∀ id, id ∈ n.globals.g_sessions.map (·.1) ↔
      id ∈ u.native.globals.g_sessions.map (·.1) ∧ id ≠ t.sessionId) :
    Ui.Sessions { u with page := q, native := n } where
  owners key kind id hmem hpos := h.owners key kind id ((hidents _).mp hmem).1 hpos
  sessions id := by
    simp only [hsessions, h.sessions id, hidents]
    constructor
    · rintro ⟨⟨hpos, key, kind, hmem⟩, hne⟩
      refine ⟨hpos, key, kind, hmem, ?_⟩
      intro hkey
      obtain ⟨s, hs, hident⟩ := List.mem_map.mp hmem
      have heq : s = t := eq_of_key hl.keys hs ht ((congrArg Prod.fst hident).trans hkey)
      rw [heq] at hident
      exact hne (congrArg (·.2.2) hident).symm
    · rintro ⟨hpos, key, kind, hmem, hkey⟩
      refine ⟨⟨hpos, key, kind, hmem⟩, ?_⟩
      rintro rfl
      have hown := (h.owners key kind _ hmem hpos).2
      have hown' := (h.owners t.key t.kind t.sessionId (List.mem_map_of_mem ht) hpos).2
      exact hkey (started_inj h.ids hown hown')
  ids := h.ids
  history := by
    simp only [hnext, hid]
    exact h.history
  kept e he kind id hmem := h.kept e he kind id ((hidents _).mp hmem).1

/-- What happens to the native module when the tab goes. -/
theorem Ui.Sessions.stops {t : Tab} (h : u.Sessions) (hn : u.native.Inv) (ht : t ∈ u.page.tabs) :
    let n := match t.stopped with
      | some id => stopPty (some id) u.native
      | none => u.native
    n.Inv ∧ n.globals.g_next_session_id = u.native.globals.g_next_session_id ∧
      ∀ id, id ∈ n.globals.g_sessions.map (·.1) ↔
        id ∈ u.native.globals.g_sessions.map (·.1) ∧ id ≠ t.sessionId := by
  by_cases hpos : 0 ≤ t.sessionId
  · have hkind := (h.owners t.key t.kind t.sessionId (List.mem_map_of_mem ht) hpos).1
    have hstops := stopSession_stops hn t.sessionId
    simp only [Tab.stopped, hkind, ge_iff_le, hpos, and_self, if_true, stopPty_nonneg hpos]
    refine ⟨hstops.inv hn, hstops.next_id, fun id => ?_⟩
    rw [hstops.sessions]
    simp only [List.mem_map, List.mem_filter, decide_eq_true_eq]
    constructor
    · rintro ⟨e, ⟨he, hne⟩, rfl⟩
      exact ⟨⟨e, he, rfl⟩, hne⟩
    · rintro ⟨⟨e, he, rfl⟩, hne⟩
      exact ⟨e, ⟨he, hne⟩, rfl⟩
  · simp only [Tab.stopped, ge_iff_le, hpos, and_false, if_false]
    refine ⟨hn, trivial, fun id => (and_iff_left_of_imp ?_).symm⟩
    rintro hmem rfl
    exact hpos ((h.sessions _).mp hmem).1

theorem removes_sessions {r : Page × Option Int} {key : Nat} (hr : Removes key u.page r) (h : u.Sessions)
    (hl : u.page.Listed) (hn : u.native.Inv) :
    let n := match r.2 with
      | some id => stopPty (some id) u.native
      | none => u.native
    Ui.Sessions { u with page := r.1, native := n } ∧ n.Inv := by
  cases hr with
  | nothing => exact ⟨h, hn⟩
  | @one xs ys t q htabs hkey hrest _ =>
      subst hrest
      have ht : t ∈ u.page.tabs := htabs ▸ List.mem_append_right xs List.mem_cons_self
      obtain ⟨hinv, hid, hsessions⟩ := h.stops hn ht
      exact ⟨h.remove hl ht (rest_idents hl htabs) rfl hid hsessions, hinv⟩
  | @active xs ys t fall q htabs hkey hrest _ =>
      subst hrest
      have ht : t ∈ u.page.tabs := htabs ▸ List.mem_append_right xs List.mem_cons_self
      obtain ⟨hinv, hid, hsessions⟩ := h.stops hn ht
      refine ⟨h.remove hl ht (fun x => ?_) rfl hid hsessions, hinv⟩
      rw [switchTab_idents]
      exact rest_idents hl htabs x

/-! ## The invariant of the run -/

structure Ui.Inv (u : Ui) : Prop where
  page : u.page.Listed
  native : u.native.Inv
  sessions : u.Sessions

theorem openOrFocusSettingsTab_sessions (h : u.Sessions) :
    Ui.Sessions { u with page := openOrFocusSettingsTab u.page } := by
  cases hfind : findSettingsTab u.page with
  | none =>
      refine h.add (settings_idents hfind) ?_ rfl rfl (Int.le_refl _)
      rw [openOrFocusSettingsTab, hfind]
      rfl
  | some t =>
      have hpage : openOrFocusSettingsTab u.page = switchTab t.key u.page := by
        rw [openOrFocusSettingsTab, hfind]
      rw [hpage]
      exact h.congr (switchTab_idents _ _) rfl

theorem UiStep.inv (h : UiStep strerror u a v) (hu : u.Inv) : v.Inv := by
  have hlisted := h.listed hu.page
  cases h with
  | boots _ hallowed =>
      have hs := createTab_sessions strerror hu.sessions hu.page hu.native hallowed
      exact ⟨hlisted, hs.2, hs.1⟩
  | bootsAgain _ => exact hu
  | creates hallowed =>
      have hs := createTab_sessions strerror hu.sessions hu.page hu.native hallowed
      exact ⟨hlisted, hs.2, hs.1⟩
  | opensSettings => exact ⟨hlisted, hu.native, openOrFocusSettingsTab_sessions hu.sessions⟩
  | switches _ => exact ⟨hlisted, hu.native, hu.sessions.congr (switchTab_idents _ _) rfl⟩
  | @removes key =>
      have hs := removes_sessions (removeTab_removes key u.page) hu.sessions hu.page hu.native
      exact ⟨hlisted, hs.2, hs.1⟩
  | sets => exact ⟨hlisted, hu.native, hu.sessions.congr rfl rfl⟩
  | writes _ => exact ⟨hlisted, hu.native, hu.sessions.congr (writeFirst_map (fun _ _ => rfl) _ _ _) rfl⟩

theorem initial_ui_inv (before : Nat → Option Bool) : Ui.Inv { native := .initial before } := by
  refine ⟨empty_listed, initial_inv before, ?_, ?_, List.nodup_nil, ?_, ?_⟩
  · intro key kind id hmem
    cases hmem
  · intro id
    refine iff_of_false (by simp [Native.initial]) ?_
    rintro ⟨_, key, kind, hmem⟩
    cases hmem
  · intro e he
    cases he
  · intro e he
    cases he

/-! ## What the invariant gives -/

theorem writeFirst_eq_map {id : Int} {key : Nat} {data : String} {tabs : List Tab}
    (hkeys : (tabs.map (·.key)).Nodup) (h : ∀ t ∈ tabs, t.sessionId = id ↔ t.key = key) :
    writeFirst id data tabs = tabs.map fun t => if t.key = key then t.write data else t := by
  induction tabs with
  | nil => rfl
  | cons t tabs ih =>
      rw [List.map_cons, List.nodup_cons] at hkeys
      have hrest := ih hkeys.2 fun s hs => h s (List.mem_cons_of_mem t hs)
      rw [writeFirst, List.map_cons]
      by_cases hid : t.sessionId = id
      · have hkey := (h t List.mem_cons_self).mp hid
        rw [if_pos hid, if_pos hkey]
        have hother : ∀ s ∈ tabs, (if s.key = key then s.write data else s) = s := by
          intro s hs
          rw [if_neg]
          intro heq
          exact hkeys.1 (List.mem_map.mpr ⟨s, hs, heq.trans hkey.symm⟩)
        rw [List.map_congr_left hother, List.map_id']
      · rw [if_neg hid, if_neg fun hkey => hid ((h t List.mem_cons_self).mpr hkey), hrest]

theorem Ui.Inv.inStep (h : u.Inv) : u.InStep := by
  have hident : ∀ {t : Tab}, t ∈ u.page.tabs → (t.key, t.kind, t.sessionId) ∈ u.page.idents :=
    fun ht => List.mem_map_of_mem (f := Tab.ident) ht
  refine ⟨fun id => ?_, ?_, h.sessions.ids, fun id key data hstarted => ?_⟩
  · rw [h.sessions.sessions id]
    constructor
    · rintro ⟨hpos, key, kind, hmem⟩
      obtain ⟨t, ht, heq⟩ := List.mem_map.mp hmem
      cases heq
      exact ⟨t, ht, (h.sessions.owners _ _ _ hmem hpos).1, hpos, rfl⟩
    · rintro ⟨t, ht, _, hpos, rfl⟩
      exact ⟨hpos, t.key, t.kind, hident ht⟩
  · rw [List.filter_map]
    refine List.Nodup.map_on ?_ (h.page.keys.of_map.filter _)
    intro t ht t' ht' heq
    obtain ⟨ht, hpos⟩ := List.mem_filter.mp ht
    obtain ⟨ht', _⟩ := List.mem_filter.mp ht'
    simp only [Function.comp_apply, decide_eq_true_eq] at hpos
    have hown := (h.sessions.owners _ _ _ (hident ht) hpos).2
    have hown' := (h.sessions.owners _ _ _ (hident ht') (heq ▸ hpos)).2
    rw [heq] at hown
    exact eq_of_key h.page.keys ht ht' (started_inj h.sessions.ids hown hown')
  · refine writeFirst_eq_map h.page.keys fun t ht => ⟨?_, ?_⟩
    · intro hid
      have hown := (h.sessions.owners _ _ _ (hident ht) (hid ▸ (h.sessions.history _ hstarted).1)).2
      rw [hid] at hown
      exact started_inj h.sessions.ids hown hstarted
    · intro hkey
      have hmem := hident ht
      rw [hkey] at hmem
      exact h.sessions.kept _ hstarted _ _ hmem

end Kworker.Terminal
