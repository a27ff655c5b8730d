import Kworker.Terminal.Resize
import Kworker.Terminal.Lemmas.Ui

/-!
# The sizes of terminals and PTYs over a whole run
-/

namespace Kworker.Terminal

open Kworker.Posix Kworker.Lib

variable {δ : Type} {anchor : δ → Nat × Nat → Nat × Nat} {s s' : Layout δ} {t t' : Tab} {u v : Ui} {a : UiAct}
  {strerror : Errno → String} {profile : String} {start : StartCalls} {p q : Page} {key : Nat} {id : Int}
  {session : PtySession}

/-! ## The sessions of the native module -/

theorem findSession_of_mem {g : Globals} (hkeys : (g.g_sessions.map (·.1)).Nodup)
    (h : (id, session) ∈ g.g_sessions) : findSession g id = some session := by
  cases hfind : findSession g id with
  | none => exact absurd rfl (findSession_eq_none hfind _ h)
  | some other =>
      have heq := List.inj_on_of_nodup_map hkeys (findSession_eq_some hfind) h rfl
      cases heq
      rfl

theorem Started.returns {n : Native} {r : Int × Native} (h : Started n r) :
    r.1 = -1 ∨ r.1 = n.globals.g_next_session_id := by
  cases h with
  | fails _ _ _ _ => exact Or.inl rfl
  | starts _ _ _ _ _ _ => exact Or.inr rfl

theorem Started.session_mem {n : Native} {r : Int × Native} (h : Started n r) (hn : n.Inv)
    (hmem : (id, session) ∈ r.2.globals.g_sessions) :
    (id, session) ∈ n.globals.g_sessions ∨ id = n.globals.g_next_session_id := by
  cases h with
  | fails _ hsessions _ _ => exact Or.inl (hsessions ▸ hmem)
  | starts _ _ _ _ hsessions _ =>
      rw [hsessions, insert_sessions fun e he => (hn.below e he).2] at hmem
      rcases List.mem_cons.mp hmem with heq | hold
      · exact Or.inr (congrArg Prod.fst heq)
      · exact Or.inl hold

/-- The actions that create a shell tab. -/
def UiAct.opensShell : UiAct → Bool
  | .wtBootstrap _ _ | .createTab _ _ => true
  | _ => false

/-- Only what is on a session is stopped. -/
theorem Tab.stopped_nonneg (h : t.stopped = some id) : 0 ≤ id := by
  rw [Tab.stopped] at h
  split at h
  · rename_i hshell
    cases h
    exact hshell.2
  · cases h

/-- A step of the page makes no session but the one with the next id. -/
theorem UiStep.session_mem (h : UiStep strerror u a v) (hu : u.Inv)
    (hmem : (id, session) ∈ v.native.globals.g_sessions) :
    (id, session) ∈ u.native.globals.g_sessions ∨
      id = u.native.globals.g_next_session_id ∧ a.opensShell = true := by
  have hcreate : ∀ {profile : String} {start : StartCalls}, startAllowed profile u start = true →
      (id, session) ∈ (createTab strerror profile start u).native.globals.g_sessions →
      (id, session) ∈ u.native.globals.g_sessions ∨ id = u.native.globals.g_next_session_id := by
    intro profile start hallowed hnew
    cases start with
    | none => exact Or.inl hnew
    | some calls =>
        simp only [startAllowed, Bool.and_eq_true] at hallowed
        exact (startPty_started strerror hallowed.1).session_mem hu.native hnew
  cases h with
  | boots _ hallowed => exact (hcreate hallowed hmem).imp_right fun h => ⟨h, rfl⟩
  | creates hallowed => exact (hcreate hallowed hmem).imp_right fun h => ⟨h, rfl⟩
  | @removes key =>
      refine Or.inl ?_
      cases hr : removeTab key u.page with
      | mk q stopped =>
          have hremoves := removeTab_removes key u.page
          rw [hr] at hremoves hmem
          dsimp only at hmem
          have hpos : ∀ id', stopped = some id' → 0 ≤ id' := by
            intro id' hid
            cases hremoves with
            | nothing => cases hid
            | one _ _ _ _ => exact Tab.stopped_nonneg hid
            | active _ _ _ _ => exact Tab.stopped_nonneg hid
          cases stopped with
          | none => exact hmem
          | some id' =>
              dsimp only at hmem
              rw [stopPty_nonneg (hpos id' rfl), (stopSession_stops hu.native _).sessions] at hmem
              exact (List.mem_filter.mp hmem).1
  | bootsAgain _ => exact Or.inl hmem
  | opensSettings => exact Or.inl hmem
  | switches _ => exact Or.inl hmem
  | sets => exact Or.inl hmem
  | writes _ => exact Or.inl hmem

theorem UiStep.findSession_old (h : UiStep strerror u a v) (hu : u.Inv)
    (hfind : findSession v.native.globals id = some session) (hne : id ≠ u.native.globals.g_next_session_id) :
    findSession u.native.globals id = some session := by
  rcases h.session_mem hu (findSession_eq_some hfind) with hold | hnew
  · exact findSession_of_mem hu.native.keys hold
  · exact absurd hnew.1 hne

/-! ## The tabs of a step -/

/-- What of a tab its size and its session depend on. -/
def Tab.link (t : Tab) : Nat × TabKind × Int × Bool := (t.key, t.kind, t.sessionId, t.localEcho)

/-- A tab after the action `a` was there before, or it is new and has no session or the next one. -/
inductive FromTab (u : Ui) (a : UiAct) (t : Tab) : Prop
  | old (t₀ : Tab) (mem : t₀ ∈ u.page.tabs) (link : t₀.link = t.link)
  | bare (session : t.sessionId = -1)
  | started (opens : a.opensShell = true) (key : t.key = u.page.nextTabKey + 1)
      (session : t.sessionId = u.native.globals.g_next_session_id)

theorem createTab_id (strerror : Posix.Errno → String) (hallowed : startAllowed profile u start = true) :
    ∃ id, (createTab strerror profile start u).page =
        setSession (u.page.nextTabKey + 1) id (u.page.withShell profile) ∧
      (id = -1 ∨ id = u.native.globals.g_next_session_id) := by
  cases start with
  | none => exact ⟨-1, rfl, Or.inl rfl⟩
  | some calls =>
      simp only [startAllowed, Bool.and_eq_true] at hallowed
      exact ⟨_, rfl, (startPty_started strerror hallowed.1).returns⟩

theorem createTab_from (ha : a.opensShell = true) (hl : u.page.Listed)
    (hallowed : startAllowed profile u start = true)
    (ht : t ∈ (createTab strerror profile start u).page.tabs) : FromTab u a t := by
  obtain ⟨id, hpage, hid⟩ := createTab_id strerror hallowed
  obtain ⟨xs, ys, htabs, _, hshell⟩ := withShell_cases hl profile
  rw [hpage, hshell, setSession, switchTab, List.map_map] at ht
  obtain ⟨t₀, ht₀, rfl⟩ := List.mem_map.mp ht
  simp only [Function.comp_apply]
  have hold : ∀ t₀ ∈ u.page.tabs, t₀.key ≠ u.page.nextTabKey + 1 := by
    intro t₀ hmem
    have := hl.below t₀ hmem
    omega
  rw [htabs] at hold
  rcases List.mem_append.mp ht₀ with hx | hy
  · rw [if_neg (hold t₀ (List.mem_append_left ys hx))]
    exact .old t₀ (htabs ▸ List.mem_append_left ys hx) rfl
  · rcases List.mem_cons.mp hy with rfl | hy
    · rw [if_pos rfl]
      rcases hid with hid | hid
      · exact .bare hid
      · exact .started ha rfl hid
    · rw [if_neg (hold t₀ (List.mem_append_right xs hy))]
      exact .old t₀ (htabs ▸ List.mem_append_right xs hy) rfl

theorem switch_from {k : Nat} (hq : ∀ t ∈ q.tabs, FromTab u a t) (ht : t ∈ (switchTab k q).tabs) : FromTab u a t := by
  obtain ⟨t₀, hmem, rfl⟩ := List.mem_map.mp ht
  cases hq t₀ hmem with
  | old t₁ hold hlink => exact .old t₁ hold hlink
  | bare hsession => exact .bare hsession
  | started ha hkey hsession => exact .started ha hkey hsession

theorem settings_from (ht : t ∈ (openOrFocusSettingsTab u.page).tabs) : FromTab u a t := by
  rw [openOrFocusSettingsTab] at ht
  split at ht
  · exact switch_from (fun t hmem => .old t hmem rfl) ht
  · refine switch_from (fun t hmem => ?_) ht
    rcases List.mem_append.mp hmem with hold | hnew
    · exact .old t hold rfl
    · rw [List.mem_singleton.mp hnew]
      exact .bare rfl

theorem Removes.from {r : Page × Option Int} (hr : Removes key u.page r) (ht : t ∈ r.1.tabs) : FromTab u a t := by
  have hrest : ∀ {xs ys : List Tab} {gone : Tab}, u.page.tabs = xs ++ gone :: ys → ∀ t ∈ xs ++ ys,
      t ∈ u.page.tabs := by
    intro xs ys gone htabs t ht
    rw [htabs]
    exact (List.Sublist.append_left (List.sublist_cons_self gone ys) xs).subset ht
  cases hr with
  | nothing => exact .old t ht rfl
  | one htabs _ hq _ =>
      subst hq
      exact .old t (hrest htabs t ht) rfl
  | active htabs _ hq _ =>
      subst hq
      exact switch_from (fun t hmem => .old t (hrest htabs t hmem) rfl) ht

/-- Every tab that output is written to keeps its link. -/
theorem writes_from {data : String} (ht : t ∈ (writeToTerminal id data u.page).tabs) : FromTab u a t := by
  have hlinks : (writeToTerminal id data u.page).tabs.map Tab.link = u.page.tabs.map Tab.link :=
    writeFirst_map (fun _ _ => rfl) _ _ _
  have hmem := List.mem_map_of_mem (f := Tab.link) ht
  rw [hlinks] at hmem
  obtain ⟨t₀, hold, hlink⟩ := List.mem_map.mp hmem
  exact .old t₀ hold hlink

theorem UiStep.fromTab (h : UiStep strerror u a v) (hl : u.page.Listed) (ht : t ∈ v.page.tabs) : FromTab u a t := by
  cases h with
  | boots _ hallowed => exact createTab_from rfl hl hallowed ht
  | bootsAgain _ => exact .old t ht rfl
  | creates hallowed => exact createTab_from rfl hl hallowed ht
  | opensSettings => exact settings_from ht
  | switches _ => exact switch_from (fun t hmem => .old t hmem rfl) ht
  | removes => exact (removeTab_removes _ _).from ht
  | sets => exact .old t ht rfl
  | writes _ => exact writes_from ht

/-! ## Giving a terminal and its PTY a size -/

@[simp] theorem resize_ui (s : Layout δ) (t : Tab) (size : Nat × Nat) : (s.resize t size).ui = s.ui := rfl

@[simp] theorem resize_pending (s : Layout δ) (t : Tab) (size : Nat × Nat) :
    (s.resize t size).pending = s.pending := rfl

theorem resize_size_self (s : Layout δ) (t : Tab) (size : Nat × Nat) : (s.resize t size).size t.key = size :=
  Function.update_self ..

theorem resize_size_of_ne (hkey : t'.key ≠ t.key) (size : Nat × Nat) :
    (s.resize t size).size t'.key = s.size t'.key := Function.update_of_ne hkey ..

theorem resizePty_cases (g : Globals) (size : Nat × Nat) (id : Int) (winsize : Int → Nat × Nat) :
    resizePty g size id winsize = winsize ∨
      resizePty g size id winsize = Function.update winsize id (winsizeFields size) := by
  unfold resizePty
  split
  · exact Or.inl rfl
  split
  · exact Or.inl rfl
  split
  · exact Or.inl rfl
  · exact Or.inr rfl

theorem resizePty_of_ne {g : Globals} {size : Nat × Nat} {winsize : Int → Nat × Nat} {id' : Int} (hne : id' ≠ id) :
    resizePty g size id winsize id' = winsize id' := by
  rcases resizePty_cases g size id winsize with h | h <;> rw [h]
  exact Function.update_of_ne hne ..

theorem resize_winsize_of_ne (hne : id ≠ t.sessionId) (size : Nat × Nat) :
    (s.resize t size).winsize id = s.winsize id := by
  simp only [Layout.resize]
  split
  · exact resizePty_of_ne hne
  · rfl

/-- Sessions of the daemon are passed over. -/
theorem resize_winsize_daemon (hfind : findSession s.ui.native.globals id = some session)
    (hmode : session.daemon_mode = true) (t : Tab) (size : Nat × Nat) :
    (s.resize t size).winsize id = s.winsize id := by
  by_cases hid : id = t.sessionId
  · subst hid
    simp only [Layout.resize, resizePty, hfind, hmode, if_true, ite_self]
  · exact resize_winsize_of_ne hid size

theorem Layout.Local.nonneg (h : s.Local t) (hn : s.ui.native.Inv) : 1 ≤ t.sessionId := by
  obtain ⟨_, session, hfind, _⟩ := h
  exact (hn.below _ (findSession_eq_some hfind)).1

theorem resize_winsize_self (h : s.Local t) (hn : s.ui.native.Inv) (size : Nat × Nat) :
    (s.resize t size).winsize t.sessionId = winsizeFields size := by
  have hpos := h.nonneg hn
  obtain ⟨hecho, session, hfind, hmode⟩ := h
  obtain ⟨fd, hfd, _⟩ := hn.live _ (findSession_eq_some hfind)
  have hmaster : ¬ session.master_fd < 0 := by
    rw [show session.master_fd = fd from hfd]
    omega
  have hstarted : (!t.localEcho && decide (t.sessionId ≥ 0)) = true := by
    simp only [hecho, Bool.not_false, Bool.true_and, decide_eq_true_eq]
    omega
  simp only [Layout.resize, hstarted, if_true, resizePty, hfind, hmaster, if_false, hmode, Bool.false_eq_true]
  exact Function.update_self ..

/-- Two tabs do not share a session. -/
theorem session_ne (hu : u.Inv) (ht : t ∈ u.page.tabs) (ht' : t' ∈ u.page.tabs) (hkey : t'.key ≠ t.key)
    (hpos : 0 ≤ t'.sessionId) : t'.sessionId ≠ t.sessionId := by
  intro heq
  have hown := (hu.sessions.owners t'.key t'.kind t'.sessionId (List.mem_map_of_mem ht') hpos).2
  have hown' := (hu.sessions.owners t.key t.kind t.sessionId (List.mem_map_of_mem ht) (heq ▸ hpos)).2
  rw [heq] at hown
  exact hkey (started_inj hu.sessions.ids hown hown')

/-- The PTY of the terminal has its size. -/
def Layout.Laid (s : Layout δ) (t : Tab) : Prop :=
  s.Local t → s.winsize t.sessionId = winsizeFields (s.size t.key)

theorem resize_laid (hn : s.ui.native.Inv) (t : Tab) (size : Nat × Nat) : (s.resize t size).Laid t := by
  intro hlocal
  rw [resize_size_self]
  exact resize_winsize_self (s := s) hlocal hn size

/-- The other tabs keep their sizes. -/
theorem resize_other (hu : s.ui.Inv) (ht : t ∈ s.ui.page.tabs) (ht' : t' ∈ s.ui.page.tabs) (hkey : t'.key ≠ t.key)
    (size : Nat × Nat) : (s.resize t size).size t'.key = s.size t'.key ∧
      (s.Local t' → (s.resize t size).winsize t'.sessionId = s.winsize t'.sessionId) := by
  refine ⟨resize_size_of_ne hkey size, fun hlocal => resize_winsize_of_ne (session_ne hu ht ht' hkey ?_) size⟩
  have := hlocal.nonneg hu.native
  omega

theorem resize_keeps_laid (hu : s.ui.Inv) (ht : t ∈ s.ui.page.tabs) (ht' : t' ∈ s.ui.page.tabs) (h : s.Laid t')
    (size : Nat × Nat) : (s.resize t size).Laid t' := by
  by_cases hkey : t'.key = t.key
  · rw [eq_of_key hu.page.keys ht' ht hkey]
    exact resize_laid hu.native t size
  · obtain ⟨hsize, hwinsize⟩ := resize_other hu ht ht' hkey size
    intro hlocal
    rw [hsize, hwinsize hlocal]
    exact h hlocal

theorem resize_synced (hu : s.ui.Inv) (ht : t ∈ s.ui.page.tabs) (h : s.Synced) (size : Nat × Nat) :
    (s.resize t size).Synced where
  onPty t' ht' hlocal := by
    by_cases hkey : t'.key = t.key
    · have heq := eq_of_key hu.page.keys ht' ht hkey
      subst heq
      exact Or.inl (resize_laid hu.native _ size hlocal)
    · obtain ⟨hsize, hwinsize⟩ := resize_other hu ht ht' hkey size
      rw [hsize, hwinsize hlocal]
      exact h.onPty t' ht' hlocal
  daemon id session hfind hmode := by
    rw [resize_winsize_daemon (s := s) hfind hmode]
    exact h.daemon id session hfind hmode

/-! ## What every state satisfies -/

/-- The part that does not speak about what is pending for the active tab. -/
structure Layout.Base (s : Layout δ) : Prop where
  ui : s.ui.Inv
  synced : s.Synced
  framed : ∀ t ∈ s.ui.page.tabs, .frame t.key ∈ s.pending → s.Laid t
  below : ∀ key, .frame key ∈ s.pending → key ≤ s.ui.page.nextTabKey

theorem Layout.Base.repend (h : s.Base) {pending : List Callback}
    (hsub : ∀ key, .frame key ∈ pending → .frame key ∈ s.pending) : Layout.Base { s with pending } where
  ui := h.ui
  synced := ⟨h.synced.onPty, h.synced.daemon⟩
  framed t ht hmem := h.framed t ht (hsub _ hmem)
  below key hmem := h.below key (hsub _ hmem)

theorem Layout.Base.resize (h : s.Base) (ht : t ∈ s.ui.page.tabs) (size : Nat × Nat) : (s.resize t size).Base where
  ui := h.ui
  synced := resize_synced h.ui ht h.synced size
  framed t' ht' hmem := resize_keeps_laid h.ui ht ht' (h.framed t' ht' hmem) size
  below := h.below

variable (anchor)

/-- The terminal has the size that its anchor asks for, and so has its PTY. -/
def Layout.Fits (s : Layout δ) (t : Tab) : Prop :=
  (s.client anchor t).1 ≠ 0 → (s.client anchor t).2 ≠ 0 →
    s.size t.key = grid (s.client anchor t).1 (s.client anchor t).2 s.metrics.cell ∧ s.Laid t

/-- The callback lays out the active tab, if that is `t`. -/
def Layout.LaidBy (s : Layout δ) (t : Tab) : Callback → Prop
  | .resized | .created | .debounced => True
  | .switched kind => kind = .shell
  | .frame key => key = t.key ∧ s.metrics.core.isSome

def Layout.Covered (s : Layout δ) (t : Tab) : Prop := ∃ c ∈ s.pending, s.LaidBy t c

/-- The active tab fits, or something is pending that makes it fit. -/
structure Layout.Inv (s : Layout δ) : Prop extends s.Base where
  covered : ∀ t, getActiveTab s.ui.page = some t → t.kind = .shell → s.Fits anchor t ∨ s.Covered t

variable {anchor}

theorem getActiveTab_mem (h : getActiveTab p = some t) : t ∈ p.tabs ∧ p.activeTabKey = some t.key := by
  refine ⟨List.mem_of_find?_eq_some h, ?_⟩
  have hkey := List.find?_some h
  simp only [decide_eq_true_eq] at hkey
  exact hkey.symm

theorem getActiveTab_of_mem (hkeys : (p.tabs.map (·.key)).Nodup) (ht : t ∈ p.tabs)
    (hkey : p.activeTabKey = some t.key) : getActiveTab p = some t := by
  cases hactive : getActiveTab p with
  | none =>
      have := List.find?_eq_none.mp hactive t ht
      simp [hkey] at this
  | some t' =>
      obtain ⟨hmem, hkey'⟩ := getActiveTab_mem hactive
      rw [hkey, Option.some.injEq] at hkey'
      rw [eq_of_key hkeys hmem ht hkey'.symm]

/-! ## Layouts -/

/-- `layoutTermForTab` does nothing, or it gives the terminal and the PTY the size for the anchor. -/
theorem layoutTermForTab_cases (anchor : δ → Nat × Nat → Nat × Nat) (t : Tab) (s : Layout δ) :
    layoutTermForTab anchor t s = s ∧
        (t.kind = .settings ∨ (s.client anchor t).1 = 0 ∨ (s.client anchor t).2 = 0) ∨
      layoutTermForTab anchor t s =
        { s.resize t (grid (s.client anchor t).1 (s.client anchor t).2 s.metrics.cell) with
          pending := s.pending ++ [.frame t.key] } := by
  unfold layoutTermForTab
  dsimp only
  split
  · rename_i hnone
    exact Or.inl ⟨rfl, hnone⟩
  · refine Or.inr ?_
    rw [Metrics.cell]
    cases s.metrics.core <;> rfl

theorem layout_base (h : s.Base) (ht : t ∈ s.ui.page.tabs) : (layoutTermForTab anchor t s).Base := by
  rcases layoutTermForTab_cases anchor t s with ⟨heq, _⟩ | heq <;> rw [heq]
  · exact h
  · have hbase := h.resize ht (grid (s.client anchor t).1 (s.client anchor t).2 s.metrics.cell)
    refine ⟨h.ui, ⟨hbase.synced.onPty, hbase.synced.daemon⟩, fun t' ht' hmem => ?_, fun key hmem => ?_⟩
    · rcases List.mem_append.mp hmem with hold | hnew
      · exact hbase.framed t' ht' hold
      · obtain hkey := Callback.frame.inj (List.mem_singleton.mp hnew)
        rw [eq_of_key h.ui.page.keys ht' ht hkey]
        exact resize_laid h.ui.native t _
    · rcases List.mem_append.mp hmem with hold | hnew
      · exact h.below key hold
      · rw [Callback.frame.inj (List.mem_singleton.mp hnew)]
        exact h.ui.page.below t ht

/-- What a layout leaves as it is. -/
structure SameRoom (s s' : Layout δ) : Prop where
  ui : s'.ui = s.ui
  stack : s'.stack = s.stack
  metrics : s'.metrics = s.metrics
  decorations : s'.decorations = s.decorations

theorem SameRoom.refl (s : Layout δ) : SameRoom s s := ⟨rfl, rfl, rfl, rfl⟩

theorem layout_room (anchor : δ → Nat × Nat → Nat × Nat) (t : Tab) (s : Layout δ) :
    SameRoom s (layoutTermForTab anchor t s) := by
  rcases layoutTermForTab_cases anchor t s with ⟨heq, _⟩ | heq <;> rw [heq]
  · exact .refl s
  · exact ⟨rfl, rfl, rfl, rfl⟩

theorem SameRoom.client (h : SameRoom s s') (t : Tab) : s'.client anchor t = s.client anchor t := by
  rw [Layout.client, Layout.client, h.decorations, h.stack]

theorem layout_fits (h : s.Base) (hkind : t.kind = .shell) : (layoutTermForTab anchor t s).Fits anchor t := by
  intro hw hh
  rw [(layout_room anchor t s).client] at hw hh ⊢
  rcases layoutTermForTab_cases anchor t s with ⟨_, hnone⟩ | heq
  · rcases hnone with hsettings | hzero | hzero
    · rw [hkind] at hsettings
      cases hsettings
    · exact absurd hzero hw
    · exact absurd hzero hh
  · rw [heq]
    exact ⟨resize_size_self s t _, resize_laid h.ui.native t _⟩

/-- A layout of another tab changes nothing of one that fits. -/
theorem resize_keeps_fits (hu : s.ui.Inv) (ht : t ∈ s.ui.page.tabs) (ht' : t' ∈ s.ui.page.tabs)
    (hkey : t'.key ≠ t.key) (h : s.Fits anchor t') (size : Nat × Nat) : (s.resize t size).Fits anchor t' := by
  intro hw hh
  obtain ⟨hsize, hlaid⟩ := h hw hh
  refine ⟨(resize_size_of_ne hkey size).trans hsize, resize_keeps_laid hu ht ht' hlaid size⟩

theorem layout_keeps_fits (hb : s.Base) (ht : t ∈ s.ui.page.tabs) (ht' : t' ∈ s.ui.page.tabs)
    (h : s.Fits anchor t') : (layoutTermForTab anchor t s).Fits anchor t' := by
  rcases layoutTermForTab_cases anchor t s with ⟨heq, _⟩ | heq
  · rw [heq]
    exact h
  · by_cases hkey : t'.key = t.key
    · have hsame := eq_of_key hb.ui.page.keys ht' ht hkey
      subst hsame
      cases hkind : t'.kind with
      | shell => exact layout_fits hb hkind
      | settings =>
          have hnone : layoutTermForTab anchor t' s = s := by
            unfold layoutTermForTab
            dsimp only
            rw [if_pos (Or.inl hkind)]
          rw [hnone]
          exact h
    · rw [heq]
      exact resize_keeps_fits hb.ui ht ht' hkey h _

theorem layoutTerm_inv (h : s.Base) : (layoutTerm anchor s).Inv anchor := by
  cases hactive : getActiveTab s.ui.page with
  | none =>
      rw [layoutTerm, hactive]
      refine ⟨h, fun t ht => ?_⟩
      rw [hactive] at ht
      cases ht
  | some t =>
      rw [layoutTerm, hactive]
      refine ⟨layout_base h (getActiveTab_mem hactive).1, fun t' ht' hkind => Or.inl ?_⟩
      rw [(layout_room anchor t s).ui, hactive] at ht'
      cases ht'
      exact layout_fits h hkind

/-! ## Callbacks -/

/-- A state with the callback taken out of those that are pending. -/
theorem Layout.Base.erase (h : s.Base) (c : Callback) : Layout.Base { s with pending := s.pending.erase c } :=
  h.repend fun _ hmem => List.mem_of_mem_erase hmem

theorem schedule_inv (h : s.Inv anchor) : (s.schedule).Inv anchor := by
  have hframe : ∀ key, .frame key ∈ s.pending.filter (· ≠ .debounced) ++ [.debounced] → .frame key ∈ s.pending := by
    intro key hmem
    rcases List.mem_append.mp hmem with hold | hnew
    · exact (List.mem_filter.mp hold).1
    · cases List.mem_singleton.mp hnew
  refine ⟨h.toBase.repend hframe, fun t _ _ => Or.inr ⟨.debounced, ?_, trivial⟩⟩
  exact List.mem_append_right _ List.mem_cons_self

/-- A callback that does not lay out the active tab leaves what covers it. -/
theorem erase_inv {c : Callback} (h : s.Inv anchor)
    (hc : ∀ t, getActiveTab s.ui.page = some t → t.kind = .shell → s.LaidBy t c → s.Fits anchor t) :
    Layout.Inv anchor { s with pending := s.pending.erase c } := by
  refine ⟨h.toBase.erase c, fun t ht hkind => ?_⟩
  rcases h.covered t ht hkind with hfits | ⟨c', hmem, hlays⟩
  · exact Or.inl hfits
  · by_cases heq : c' = c
    · subst heq
      exact Or.inl (hc t ht hkind hlays)
    · exact Or.inr ⟨c', (List.mem_erase_of_ne heq).mpr hmem, hlays⟩

theorem frame_inv (h : s.Inv anchor) {key : Nat} (hmem : .frame key ∈ s.pending) :
    (Layout.frame anchor key { s with pending := s.pending.erase (.frame key) }).Inv anchor := by
  have hbase := h.toBase.erase (.frame key)
  unfold Layout.frame
  dsimp only
  cases hfind : s.ui.page.tabs.find? (·.key = key) with
  | none =>
      dsimp only
      refine erase_inv h fun t ht _ hlays => ?_
      have hnone := List.find?_eq_none.mp hfind t (getActiveTab_mem ht).1
      simp [hlays.1] at hnone
  | some t₁ =>
      dsimp only
      have ht₁ := List.mem_of_find?_eq_some hfind
      have hkey₁ : t₁.key = key := by simpa using List.find?_some hfind
      have hsame : ∀ t, getActiveTab s.ui.page = some t → s.LaidBy t (.frame key) → t = t₁ := by
        intro t ht hlays
        exact eq_of_key h.ui.page.keys (getActiveTab_mem ht).1 ht₁ (hlays.1.symm.trans hkey₁.symm)
      split
      · rename_i hzero
        refine erase_inv h fun t ht _ hlays hw hh => ?_
        rw [hsame t ht hlays] at hw hh
        exact (hzero.elim hw hh).elim
      · cases hcore : s.metrics.core with
        | none =>
            refine erase_inv h fun t _ _ hlays => ?_
            have hsome := hlays.2
            rw [hcore] at hsome
            cases hsome
        | some c =>
            have hcell : s.metrics.cell = c := by rw [Metrics.cell, hcore, Option.getD_some]
            dsimp only
            split
            · rename_i hsize
              refine erase_inv h fun t ht _ hlays _ _ => ?_
              have heq := hsame t ht hlays
              subst heq
              rw [hcell, hkey₁]
              exact ⟨hsize.symm, h.framed _ ht₁ (hkey₁ ▸ hmem)⟩
            · refine ⟨hbase.resize ht₁ _, fun t ht hkind => ?_⟩
              by_cases heq : t = t₁
              · subst heq
                refine Or.inl fun _ _ => ⟨?_, resize_laid hbase.ui.native t _⟩
                rw [resize_size_self]
                exact congrArg _ hcell.symm
              · have hne : t.key ≠ t₁.key := fun hk =>
                  heq (eq_of_key h.ui.page.keys (getActiveTab_mem ht).1 ht₁ hk)
                rcases h.covered t ht hkind with hfits | ⟨c', hmem', hlays⟩
                · exact Or.inl (resize_keeps_fits (s := { s with pending := s.pending.erase (.frame key) })
                    h.ui ht₁ (getActiveTab_mem ht).1 hne hfits _)
                · refine Or.inr ⟨c', (List.mem_erase_of_ne ?_).mpr hmem', hlays⟩
                  rintro rfl
                  exact heq (hsame t ht hlays)

theorem call_inv {c : Callback} (h : s.Inv anchor) (hmem : c ∈ s.pending) :
    (Layout.call anchor { s with pending := s.pending.erase c } c).Inv anchor := by
  have hbase := h.toBase.erase c
  cases c with
  | resized => exact schedule_inv (layoutTerm_inv hbase)
  | switched kind =>
      cases kind with
      | shell => exact layoutTerm_inv hbase
      | settings => exact erase_inv h fun t _ _ hlays => nomatch hlays
  | created => exact layoutTerm_inv hbase
  | debounced => exact layoutTerm_inv hbase
  | frame key => exact frame_inv h hmem

theorem call_ui (anchor : δ → Nat × Nat → Nat × Nat) (s : Layout δ) (c : Callback) : (s.call anchor c).ui = s.ui := by
  have hlayout : (layoutTerm anchor s).ui = s.ui := by
    rw [layoutTerm]
    split
    · exact (layout_room anchor _ s).ui
    · rfl
  cases c with
  | resized => exact hlayout
  | switched kind =>
      rw [Layout.call]
      split
      · exact hlayout
      · rfl
  | created => exact hlayout
  | debounced => exact hlayout
  | frame key =>
      rw [Layout.call, Layout.frame]
      split
      · rfl
      · dsimp only
        split
        · rfl
        · split
          · rfl
          · split <;> rfl

/-! ## Preferences -/

/-- All tabs are laid out, one after the other. -/
theorem layoutAll (anchor : δ → Nat × Nat → Nat × Nat) (hb : s.Base) {ts : List Tab}
    (hts : ∀ t ∈ ts, t ∈ s.ui.page.tabs) :
    (ts.foldl (fun s t => layoutTermForTab anchor t s) s).Base ∧
      SameRoom s (ts.foldl (fun s t => layoutTermForTab anchor t s) s) ∧
      ∀ t ∈ s.ui.page.tabs, t.kind = .shell → t ∈ ts ∨ s.Fits anchor t →
        (ts.foldl (fun s t => layoutTermForTab anchor t s) s).Fits anchor t := by
  induction ts generalizing s with
  | nil =>
      refine ⟨hb, .refl s, fun t _ _ h => h.elim (fun hmem => ?_) id⟩
      cases hmem
  | cons t₁ ts ih =>
      have ht₁ := hts t₁ List.mem_cons_self
      have hroom := layout_room anchor t₁ s
      obtain ⟨hbase, hroom', hfits⟩ := ih (s := layoutTermForTab anchor t₁ s) (layout_base hb ht₁)
        fun t hmem => by
          rw [hroom.ui]
          exact hts t (List.mem_cons_of_mem t₁ hmem)
      refine ⟨hbase, ⟨hroom'.ui.trans hroom.ui, hroom'.stack.trans hroom.stack, hroom'.metrics.trans hroom.metrics,
        hroom'.decorations.trans hroom.decorations⟩, fun t ht hkind h => ?_⟩
      refine hfits t (hroom.ui.symm ▸ ht) hkind ?_
      rcases h with hmem | hfit
      · rcases List.mem_cons.mp hmem with rfl | hmem
        · exact Or.inr (layout_fits hb hkind)
        · exact Or.inl hmem
      · exact Or.inr (layout_keeps_fits hb ht₁ ht hfit)

theorem applyPrefs_inv (h : s.Inv anchor) (metrics : Metrics) {d : δ}
    (hd : d = s.decorations ∨ (getActiveTab s.ui.page).any (·.kind = .settings)) :
    Layout.Inv anchor
      { s.ui.page.tabs.foldl (fun s t => layoutTermForTab anchor t s) { s with metrics } with decorations := d } := by
  have hbase : Layout.Base { s with metrics } := ⟨h.ui, ⟨h.synced.onPty, h.synced.daemon⟩, h.framed, h.below⟩
  obtain ⟨hall, hroom, hfits⟩ := layoutAll anchor hbase fun t ht => ht
  generalize s.ui.page.tabs.foldl (fun s t => layoutTermForTab anchor t s) { s with metrics } = s' at hall hroom hfits ⊢
  refine ⟨⟨hall.ui, ⟨hall.synced.onPty, hall.synced.daemon⟩, hall.framed, hall.below⟩, fun t ht hkind => ?_⟩
  rw [show s'.ui = s.ui from hroom.ui] at ht
  rcases hd with rfl | hsettings
  · refine Or.inl ?_
    rw [← show s'.decorations = s.decorations from hroom.decorations]
    exact hfits t (getActiveTab_mem ht).1 hkind (Or.inl (getActiveTab_mem ht).1)
  · rw [ht] at hsettings
    simp [hkind] at hsettings

/-! ## Steps of the page -/

theorem UiStep.nextTabKey_le (h : UiStep strerror u a v) (hl : u.page.Listed) :
    u.page.nextTabKey ≤ v.page.nextTabKey := by
  have hcreate : ∀ {profile : String} {start : StartCalls},
      u.page.nextTabKey ≤ (createTab strerror profile start u).page.nextTabKey := by
    intro profile start
    obtain ⟨id, hpage⟩ := createTab_page strerror profile start u
    rw [hpage, setSession_nextTabKey hl]
    exact Nat.le_succ _
  cases h with
  | boots _ _ => exact hcreate
  | bootsAgain _ => exact Nat.le_refl _
  | creates _ => exact hcreate
  | opensSettings =>
      rw [openOrFocusSettingsTab]
      split
      · exact Nat.le_refl _
      · exact Nat.le_succ _
  | switches _ => exact Nat.le_refl _
  | @removes key =>
      have hremoves := removeTab_removes key u.page
      dsimp only
      cases hr : removeTab key u.page with
      | mk q stopped =>
          rw [hr] at hremoves
          cases hremoves with
          | nothing => exact Nat.le_refl _
          | one _ _ hq _ =>
              subst hq
              exact Nat.le_refl _
          | active _ _ hq _ =>
              subst hq
              exact Nat.le_refl _
  | sets => exact Nat.le_refl _
  | writes _ => exact Nat.le_refl _

/-- The page step leaves the sizes of what was there. -/
theorem page_size (s : Layout δ) (a : UiAct) (v : Ui) {key : Nat} (hkey : key ≤ s.ui.page.nextTabKey) :
    (s.page a v).size key = s.size key := by
  have hne : key ≠ s.ui.page.nextTabKey + 1 := by omega
  cases a <;> first | rfl | exact Function.update_of_ne hne ..

theorem page_winsize (s : Layout δ) (a : UiAct) (v : Ui) (hid : id ≠ s.ui.native.globals.g_next_session_id) :
    (s.page a v).winsize id = s.winsize id := by
  cases a <;> first | rfl | exact Function.update_of_ne hid ..

theorem page_ui (s : Layout δ) (a : UiAct) (v : Ui) : (s.page a v).ui = v := by
  cases a <;> rfl

theorem page_opens (s : Layout δ) (v : Ui) (ha : a.opensShell = true) :
    (s.page a v).size (s.ui.page.nextTabKey + 1) = (80, 24) ∧
      (s.page a v).winsize s.ui.native.globals.g_next_session_id = (0, 0) := by
  cases a with
  | wtBootstrap _ _ => exact ⟨Function.update_self .., Function.update_self ..⟩
  | createTab _ _ => exact ⟨Function.update_self .., Function.update_self ..⟩
  | _ => cases ha

theorem switchTimer_frame (p : Page) (key : Nat) : .frame key ∉ switchTimer p := by
  rw [switchTimer]
  split <;> simp

theorem page_frames (s : Layout δ) (a : UiAct) (v : Ui) {key : Nat} (h : .frame key ∈ (s.page a v).pending) :
    .frame key ∈ s.pending := by
  have htimer := switchTimer_frame v.page key
  cases a with
  | wtBootstrap _ _ | createTab _ _ => simpa [Layout.page, htimer] using h
  | openOrFocusSettingsTab | switchTab _ => simpa [Layout.page, htimer] using h
  | removeTab k =>
      simp only [Layout.page, List.mem_append] at h
      rcases h with hold | hnew
      · exact hold
      · split at hnew
        · exact absurd hnew htimer
        · cases hnew
  | setNewTabPosition _ | output _ _ => exact h

/-- A local session after the step belongs to a tab that was there, or it is new and has no size yet. -/
theorem page_local (hv : UiStep strerror s.ui a v) (hu : s.ui.Inv) (ht : t ∈ v.page.tabs)
    (hlocal : (s.page a v).Local t) :
    (∃ t₀ ∈ s.ui.page.tabs, t₀.key = t.key ∧ t₀.sessionId = t.sessionId ∧ s.Local t₀ ∧
        (s.page a v).size t.key = s.size t.key ∧ (s.page a v).winsize t.sessionId = s.winsize t.sessionId) ∨
      t.key = s.ui.page.nextTabKey + 1 ∧ (s.page a v).size t.key = (80, 24) ∧
        (s.page a v).winsize t.sessionId = (0, 0) := by
  have hpos := hlocal.nonneg (by rw [page_ui]; exact (hv.inv hu).native)
  obtain ⟨hecho, session, hfind, hmode⟩ := hlocal
  rw [page_ui] at hfind
  cases hv.fromTab hu.page ht with
  | bare hsession => omega
  | started hopens hkey hsession =>
      obtain ⟨hsize, hwinsize⟩ := page_opens s v hopens
      rw [hkey, hsession]
      exact Or.inr ⟨rfl, hsize, hwinsize⟩
  | old t₀ hmem hlink =>
      have hkey : t₀.key = t.key := congrArg Prod.fst hlink
      have hid : t₀.sessionId = t.sessionId := congrArg (·.2.2.1) hlink
      have hecho₀ : t₀.localEcho = t.localEcho := congrArg (·.2.2.2) hlink
      have hmem_id : t₀.sessionId ∈ s.ui.native.globals.g_sessions.map (·.1) := by
        rw [hu.sessions.sessions]
        exact ⟨by omega, t₀.key, t₀.kind, List.mem_map_of_mem hmem⟩
      obtain ⟨e, he, heid⟩ := List.mem_map.mp hmem_id
      have hlt := (hu.native.below e he).2
      have hne : t.sessionId ≠ s.ui.native.globals.g_next_session_id := by omega
      refine Or.inl ⟨t₀, hmem, hkey, hid, ⟨hecho₀.trans hecho, session, ?_, hmode⟩, ?_, page_winsize s a v hne⟩
      · rw [hid]
        exact hv.findSession_old hu hfind hne
      · exact page_size s a v (hkey ▸ hu.page.below t₀ hmem)

theorem page_base (h : s.Base) (hv : UiStep strerror s.ui a v) : (s.page a v).Base where
  ui := by
    rw [page_ui]
    exact hv.inv h.ui
  synced := by
    refine ⟨fun t ht hlocal => ?_, fun id session hfind hmode => ?_⟩
    · rw [page_ui] at ht
      rcases page_local hv h.ui ht hlocal with ⟨t₀, hmem, hkey, hid, hold, hsize, hwinsize⟩ | ⟨_, hsize, hwinsize⟩
      · rw [hsize, hwinsize, ← hkey, ← hid]
        exact h.synced.onPty t₀ hmem hold
      · exact Or.inr ⟨hwinsize, hsize⟩
    · rw [page_ui] at hfind
      by_cases hid : id = s.ui.native.globals.g_next_session_id
      · subst hid
        rcases hv.session_mem h.ui (findSession_eq_some hfind) with hold | ⟨_, hopens⟩
        · exact absurd (h.ui.native.below _ hold).2 (Int.lt_irrefl _)
        · exact (page_opens s v hopens).2
      · rw [page_winsize s a v hid]
        exact h.synced.daemon id session (hv.findSession_old h.ui hfind hid) hmode
  framed t ht hmem := by
    intro hlocal
    rw [page_ui] at ht
    have hframe := page_frames s a v hmem
    rcases page_local hv h.ui ht hlocal with ⟨t₀, hmem, hkey, hid, hold, hsize, hwinsize⟩ | ⟨hkey, _⟩
    · rw [hsize, hwinsize, ← hkey, ← hid]
      exact h.framed t₀ hmem (hkey ▸ hframe) hold
    · have := h.below _ hframe
      omega
  below key hmem := by
    rw [page_ui]
    exact (h.below key (page_frames s a v hmem)).trans (hv.nextTabKey_le h.ui.page)

/-! ## What is pending after a step of the page -/

theorem covered_of_timer {p : Page} (hactive : getActiveTab p = some t) (hkind : t.kind = .shell)
    (hsub : ∀ c ∈ switchTimer p, c ∈ s.pending) : s.Covered t := by
  refine ⟨.switched t.kind, hsub _ ?_, hkind⟩
  rw [switchTimer, hactive]
  exact List.mem_cons_self

/-- What of a tab its layout depends on. -/
def Tab.view (t : Tab) : (Nat × TabKind × Int × Bool) × Bool := (t.link, t.visible)

/-- The active tab is the same as before. -/
structure Stays (u v : Ui) : Prop where
  active : v.page.activeTabKey = u.page.activeTabKey
  tabs : ∀ t ∈ v.page.tabs, ∃ t₀ ∈ u.page.tabs, t₀.view = t.view

theorem page_room (s : Layout δ) (a : UiAct) (v : Ui) : (s.page a v).stack = s.stack ∧
    (s.page a v).metrics = s.metrics ∧ (s.page a v).decorations = s.decorations := by
  cases a <;> exact ⟨rfl, rfl, rfl⟩

theorem covered_of_stays (h : s.Inv anchor) (hv : UiStep strerror s.ui a v) (hstays : Stays s.ui v)
    (hsub : ∀ c ∈ s.pending, c ∈ (s.page a v).pending) (hactive : getActiveTab v.page = some t)
    (hkind : t.kind = .shell) : (s.page a v).Fits anchor t ∨ (s.page a v).Covered t := by
  obtain ⟨hmem, hkey⟩ := getActiveTab_mem hactive
  obtain ⟨t₀, hmem₀, hview⟩ := hstays.tabs t hmem
  obtain ⟨hstack, hmetrics, hdecorations⟩ := page_room s a v
  have hkey₀ : t₀.key = t.key := congrArg (·.1.1) hview
  have hkind₀ : t₀.kind = .shell := (congrArg (·.1.2.1) hview).trans hkind
  have hvisible : t₀.visible = t.visible := congrArg Prod.snd hview
  have hbelow := h.ui.page.below t₀ hmem₀
  have hactive₀ : getActiveTab s.ui.page = some t₀ := by
    refine getActiveTab_of_mem h.ui.page.keys hmem₀ ?_
    rw [← hstays.active, hkey, hkey₀]
  have hclient : (s.page a v).client anchor t = s.client anchor t₀ := by
    rw [Layout.client, Layout.client, hdecorations, hstack, hvisible]
  rcases h.covered t₀ hactive₀ hkind₀ with hfits | ⟨c, hc, hlays⟩
  · refine Or.inl fun hw hh => ?_
    rw [hclient] at hw hh ⊢
    obtain ⟨hsize, hlaid⟩ := hfits hw hh
    rw [page_size s a v (hkey₀ ▸ hbelow), hmetrics, ← hkey₀]
    refine ⟨hsize, fun hlocal => ?_⟩
    rcases page_local hv h.ui hmem hlocal with ⟨t₁, hmem₁, hkey₁, hid, hold, hsize', hwinsize⟩ | ⟨hnew, _⟩
    · have heq := eq_of_key h.ui.page.keys hmem₁ hmem₀ (hkey₁.trans hkey₀.symm)
      subst heq
      rw [hsize', hwinsize, ← hid, ← hkey₁]
      exact hlaid hold
    · omega
  · refine Or.inr ⟨c, hsub c hc, ?_⟩
    cases c with
    | frame key =>
        refine ⟨hlays.1.trans hkey₀, ?_⟩
        rw [hmetrics]
        exact hlays.2
    | _ => exact hlays

theorem removeTab_stays (hkey : p.activeTabKey ≠ some key) :
    (removeTab key p).1.activeTabKey = p.activeTabKey ∧ ∀ t ∈ (removeTab key p).1.tabs, t ∈ p.tabs := by
  unfold removeTab
  split
  · exact ⟨rfl, fun t ht => ht⟩
  · split
    · exact ⟨rfl, fun t ht => ht⟩
    · exact ⟨rfl, fun t ht => List.mem_of_mem_eraseIdx ht⟩

/-- When no tab is taken out, nothing is changed. -/
theorem removeTab_nothing (hlen : ¬ (removeTab key p).1.tabs.length < p.tabs.length) :
    (removeTab key p).1 = p := by
  have hremoves := removeTab_removes key p
  generalize removeTab key p = r at hlen hremoves
  cases hremoves with
  | nothing => rfl
  | one htabs _ hq _ =>
      subst hq
      rw [htabs] at hlen
      simp at hlen
  | active htabs _ hq _ =>
      subst hq
      rw [htabs] at hlen
      simp [switchTab] at hlen

theorem page_inv (h : s.Inv anchor) (hv : UiStep strerror s.ui a v) (ha : ∀ profile start, a ≠ .wtBootstrap profile start) :
    (s.page a v).Inv anchor := by
  refine ⟨page_base h.toBase hv, fun t hactive hkind => ?_⟩
  rw [page_ui] at hactive
  have hstep := hv
  cases hv with
  | boots _ _ => exact absurd rfl (ha _ _)
  | bootsAgain _ => exact absurd rfl (ha _ _)
  | creates _ =>
      refine Or.inr (covered_of_timer hactive hkind fun c hc => ?_)
      exact List.mem_append_left _ (List.mem_append_right _ hc)
  | opensSettings => exact Or.inr (covered_of_timer hactive hkind fun c hc => List.mem_append_right _ hc)
  | switches _ => exact Or.inr (covered_of_timer hactive hkind fun c hc => List.mem_append_right _ hc)
  | @removes key =>
      by_cases hswitch : s.ui.page.activeTabKey = some key ∧
          (removeTab key s.ui.page).1.tabs.length < s.ui.page.tabs.length
      · refine Or.inr (covered_of_timer hactive hkind fun c hc => List.mem_append_right _ ?_)
        rw [if_pos hswitch]
        exact hc
      · refine covered_of_stays h hstep ?_ (fun c hc => List.mem_append_left _ hc) hactive hkind
        rcases Decidable.not_and_iff_or_not.mp hswitch with hkey | hlen
        · obtain ⟨hstays, htabs⟩ := removeTab_stays hkey
          exact ⟨hstays, fun t ht => ⟨t, htabs t ht, rfl⟩⟩
        · have hnothing := removeTab_nothing hlen
          refine ⟨?_, fun t ht => ⟨t, ?_, rfl⟩⟩
          · dsimp only
            rw [hnothing]
          · dsimp only at ht
            rwa [hnothing] at ht
  | sets =>
      refine covered_of_stays h hstep ⟨rfl, fun t ht => ⟨t, ht, rfl⟩⟩ (fun c hc => hc) hactive hkind
  | @writes id data _ =>
      refine covered_of_stays h hstep ⟨rfl, fun t ht => ?_⟩ (fun c hc => hc) hactive hkind
      have hviews : (writeToTerminal id data s.ui.page).tabs.map Tab.view = s.ui.page.tabs.map Tab.view :=
        writeFirst_map (fun _ _ => rfl) _ _ _
      have hmem := List.mem_map_of_mem (f := Tab.view) ht
      rw [hviews] at hmem
      exact List.mem_map.mp hmem

/-! ## The run -/

theorem initial_base (before : Nat → Option Bool) (stack : Nat × Nat) (metrics : Metrics) (d : δ) :
    (Layout.initial before stack metrics d).Base where
  ui := initial_ui_inv before
  synced := ⟨fun _ ht => (nomatch ht), fun _ _ h => nomatch h⟩
  framed _ ht := nomatch ht
  below _ h := nomatch h

/-- With nothing pending, the active tab fits. -/
theorem laidOut_of_inv (h : s.Inv anchor) (hpage : s.ui.page.InStep) (hrest : s.pending = [])
    (ht : getActiveTab s.ui.page = some t) (hkind : t.kind = .shell)
    (hw : (anchor s.decorations s.stack).1 ≠ 0) (hh : (anchor s.decorations s.stack).2 ≠ 0) :
    s.LaidOut anchor t := by
  have hvisible : t.visible = true :=
    ((hpage.classes t (getActiveTab_mem ht).1).2).mpr (getActiveTab_mem ht).2
  have hclient : s.client anchor t = anchor s.decorations s.stack := by rw [Layout.client, if_pos hvisible]
  rcases h.covered t ht hkind with hfits | ⟨c, hmem, _⟩
  · rw [Layout.Fits, hclient] at hfits
    obtain ⟨hsize, hlaid⟩ := hfits hw hh
    exact ⟨hsize, hlaid⟩
  · rw [hrest] at hmem
    cases hmem

variable [DecidableEq δ]

theorem layoutStep_inv {act : LayoutAct δ} (h : s.Inv anchor ∧ s.ui.page.InStep)
    (hstep : (layout anchor strerror).step s act = some s') : s'.Inv anchor ∧ s'.ui.page.InStep := by
  obtain ⟨hinv, hpage⟩ := h
  simp only [layout] at hstep
  cases act with
  | page a =>
      have hmap : ∀ {a : UiAct}, (∀ profile start, a ≠ .wtBootstrap profile start) →
          (uiStep strerror s.ui a).map (s.page a) = some s' → s'.Inv anchor ∧ s'.ui.page.InStep := by
        intro a ha h
        obtain ⟨v, hv, rfl⟩ := Option.map_eq_some_iff.mp h
        refine ⟨page_inv hinv (uiStep_cases hv) ha, ?_⟩
        rw [page_ui]
        exact (uiStep_cases hv).inStep hinv.ui.page hpage
      cases a with
      | wtBootstrap profile start =>
          simp only [layoutStep, if_neg hpage.nonempty] at hstep
          cases hstep
      | _ =>
          rw [layoutStep] at hstep
          · refine hmap ?_ hstep
            intro _ _ h
            cases h
          · intro _ _ h
            cases h
  | resize stack =>
      cases hstep
      have hframe : ∀ key, .frame key ∈ s.pending ++ [.resized] → .frame key ∈ s.pending := by
        intro key hmem
        simpa using hmem
      refine ⟨⟨⟨hinv.ui, ⟨hinv.synced.onPty, hinv.synced.daemon⟩, fun t ht hmem => hinv.framed t ht (hframe _ hmem),
        fun key hmem => hinv.below key (hframe _ hmem)⟩, fun t _ _ => Or.inr ⟨.resized, ?_, trivial⟩⟩, hpage⟩
      exact List.mem_append_right _ List.mem_cons_self
  | viewport =>
      cases hstep
      exact ⟨schedule_inv hinv, hpage⟩
  | applyPrefs metrics d =>
      simp only [layoutStep, Option.ite_none_right_eq_some, Option.some.injEq] at hstep
      obtain ⟨hd, rfl⟩ := hstep
      refine ⟨applyPrefs_inv hinv metrics hd, ?_⟩
      have hbase : Layout.Base { s with metrics } :=
        ⟨hinv.ui, ⟨hinv.synced.onPty, hinv.synced.daemon⟩, hinv.framed, hinv.below⟩
      have hui := (layoutAll anchor hbase fun t ht => ht).2.1.ui
      exact Eq.mpr (congrArg (fun u : Ui => u.page.InStep) hui) hpage
  | call c =>
      simp only [layoutStep, Option.ite_none_right_eq_some, Option.some.injEq] at hstep
      obtain ⟨hmem, rfl⟩ := hstep
      refine ⟨call_inv hinv hmem, ?_⟩
      rw [call_ui]
      exact hpage

theorem layout_boot_inv {before : Nat → Option Bool} {stack : Nat × Nat} {metrics : Metrics} {d : δ}
    (hstep : layoutStep anchor strerror (.initial before stack metrics d) (.page (.wtBootstrap profile start)) =
      some s) : s.Inv anchor ∧ s.ui.page.InStep := by
  have hnil : (Layout.initial before stack metrics d).ui.page.tabs = [] := rfl
  simp only [layoutStep, if_pos hnil] at hstep
  obtain ⟨v, hv, rfl⟩ := Option.map_eq_some_iff.mp hstep
  have hcases := uiStep_cases hv
  refine ⟨⟨page_base (initial_base before stack metrics d) hcases, fun t hactive hkind => Or.inr ?_⟩, ?_⟩
  · rw [page_ui] at hactive
    refine covered_of_timer hactive hkind fun c hc => ?_
    exact List.mem_append_left _ (List.mem_append_right _ hc)
  · rw [page_ui]
    cases hcases with
    | boots _ _ => exact createTab_inStep empty_listed
    | bootsAgain hne => exact absurd rfl hne

theorem layout_run_inv {before : Nat → Option Bool} {stack : Nat × Nat} {metrics : Metrics} {d : δ}
    {acts : List (LayoutAct δ)}
    (hrun : (layout anchor strerror).run (.initial before stack metrics d)
      (.page (.wtBootstrap profile start) :: acts) = some s) : s.Inv anchor ∧ s.ui.page.InStep := by
  obtain ⟨s₀, hboot, hrun⟩ := (layout anchor strerror).run_cons_eq_some.mp hrun
  exact (layout anchor strerror).run_invariant (fun _ _ _ => layoutStep_inv) (layout_boot_inv hboot) hrun

end Kworker.Terminal
