import Kworker.Terminal.Tabs

/-!
# The tab list, the active tab and the strip
-/

namespace Kworker.Terminal

open Kworker.Lib

variable {p q : Page} {tab : Tab} {key : Nat}

/-! ## What every operation keeps -/

/-- The part that does not speak about the active tab. -/
structure Page.Listed (p : Page) : Prop where
  keys : (p.tabs.map (·.key)).Nodup
  below : ∀ t ∈ p.tabs, t.key ≤ p.nextTabKey
  settings : p.tabs.countP (·.kind = .settings) ≤ 1
  strip : p.strip = p.tabs.map (·.key)

/-- What of a tab the invariants speak about. -/
def Tab.face (t : Tab) : Nat × TabKind × Bool × Bool := (t.key, t.kind, t.active, t.visible)

theorem map_key_of_face {as bs : List Tab} (h : as.map Tab.face = bs.map Tab.face) :
    as.map (·.key) = bs.map (·.key) := by
  have hmap := congrArg (List.map Prod.fst) h
  rwa [List.map_map, List.map_map] at hmap

theorem countP_kind_of_face {as bs : List Tab} {kind : TabKind} (h : as.map Tab.face = bs.map Tab.face) :
    as.countP (·.kind = kind) = bs.countP (·.kind = kind) := by
  have hcount : ∀ ts : List Tab,
      ts.countP (·.kind = kind) = (ts.map Tab.face).countP (·.2.1 = kind) := by
    intro ts
    rw [List.countP_map]
    rfl
  rw [hcount, hcount, h]

theorem exists_of_face {as bs : List Tab} (h : as.map Tab.face = bs.map Tab.face) {t : Tab} (ht : t ∈ as) :
    ∃ t' ∈ bs, t'.face = t.face := by
  have hmem := List.mem_map_of_mem (f := Tab.face) ht
  rw [h] at hmem
  exact List.mem_map.mp hmem

theorem Page.Listed.congr (h : p.Listed) (hface : q.tabs.map Tab.face = p.tabs.map Tab.face)
    (hstrip : q.strip = p.strip) (hnext : q.nextTabKey = p.nextTabKey) : q.Listed where
  keys := by
    rw [map_key_of_face hface]
    exact h.keys
  below t ht := by
    obtain ⟨t', ht', heq⟩ := exists_of_face hface ht
    have hkey : t'.key = t.key := congrArg Prod.fst heq
    rw [hnext, ← hkey]
    exact h.below t' ht'
  settings := by
    rw [countP_kind_of_face hface]
    exact h.settings
  strip := by rw [hstrip, h.strip, map_key_of_face hface]

theorem eq_of_key (h : (p.tabs.map (·.key)).Nodup) {t t' : Tab} (ht : t ∈ p.tabs) (ht' : t' ∈ p.tabs)
    (hkey : t.key = t'.key) : t = t' :=
  List.inj_on_of_nodup_map h ht ht' hkey

theorem Page.InStep.congr (h : p.InStep) (hface : q.tabs.map Tab.face = p.tabs.map Tab.face)
    (hstrip : q.strip = p.strip) (hactive : q.activeTabKey = p.activeTabKey) : q.InStep := by
  have hkeys : (q.tabs.map (·.key)).Nodup := by
    rw [map_key_of_face hface]
    exact h.keys
  refine ⟨?_, hkeys, ?_, ?_, ?_, ?_⟩
  · intro hnil
    rw [hnil, List.map_nil] at hface
    exact h.nonempty (List.map_eq_nil_iff.mp hface.symm)
  · rw [countP_kind_of_face hface]
    exact h.settings
  · obtain ⟨t, ⟨ht, hkey⟩, _⟩ := h.active
    obtain ⟨t', ht', heq⟩ := exists_of_face hface.symm ht
    have hkey' : t'.key = t.key := congrArg Prod.fst heq
    refine ⟨t', ⟨ht', by rw [hactive, hkey, hkey']⟩, ?_⟩
    rintro s ⟨hs, hskey⟩
    rw [hactive, hkey, Option.some.injEq] at hskey
    exact eq_of_key hkeys hs ht' (hskey.symm.trans hkey'.symm)
  · intro t ht
    obtain ⟨t', ht', heq⟩ := exists_of_face hface ht
    obtain ⟨hkey, _, hact, hvis⟩ : t'.key = t.key ∧ t'.kind = t.kind ∧ t'.active = t.active ∧
        t'.visible = t.visible := by simpa [Tab.face] using heq
    rw [hactive, ← hkey, ← hact, ← hvis]
    exact h.classes t' ht'
  · rw [hstrip, h.strip, map_key_of_face hface]

/-! ## switchTab -/

theorem switchTab_map_key (key : Nat) (p : Page) : (switchTab key p).tabs.map (·.key) = p.tabs.map (·.key) := by
  simp [switchTab, Function.comp_def]

theorem switchTab_listed (h : p.Listed) (key : Nat) : (switchTab key p).Listed where
  keys := by
    rw [switchTab_map_key]
    exact h.keys
  below t ht := by
    obtain ⟨row, hrow, rfl⟩ := List.mem_map.mp ht
    exact h.below row hrow
  settings := by
    have hcount : (switchTab key p).tabs.countP (·.kind = .settings) =
        p.tabs.countP (·.kind = .settings) := by
      rw [switchTab, List.countP_map]
      rfl
    rw [hcount]
    exact h.settings
  strip := by
    rw [switchTab_map_key]
    exact h.strip

theorem switchTab_inStep (h : p.Listed) (hkey : key ∈ p.tabs.map (·.key)) : (switchTab key p).InStep := by
  have hl := switchTab_listed h key
  obtain ⟨t, ht, rfl⟩ := List.mem_map.mp hkey
  refine ⟨?_, hl.keys, hl.settings, ?_, ?_, hl.strip⟩
  · intro hnil
    rw [List.map_eq_nil_iff.mp hnil] at ht
    cases ht
  · have hmem := List.mem_map_of_mem (f := fun row : Tab =>
      { row with active := row.key = t.key, visible := row.key = t.key }) ht
    refine ⟨_, ⟨hmem, rfl⟩, ?_⟩
    rintro s ⟨hs, hskey⟩
    exact eq_of_key hl.keys hs hmem (Option.some.inj hskey).symm
  · intro s hs
    obtain ⟨row, _, rfl⟩ := List.mem_map.mp hs
    simp [switchTab, eq_comm]

/-! ## Inserting -/

theorem key_notMem {xs ys : List Tab} (h : ((xs ++ tab :: ys).map (·.key)).Nodup) :
    ∀ t ∈ xs, t.key ≠ tab.key := by
  intro t ht
  exact ((mem_rest_iff h).mp (List.mem_append_left ys ht)).2

/-- Whatever the preference says, the tab goes to one place of the list and of the strip. -/
theorem insertShellTabInStrip_splits (h : p.Listed) (tab : Tab) :
    ∃ xs ys, p.tabs = xs ++ ys ∧ insertShellTabInStrip p tab =
      { p with tabs := xs ++ tab :: ys, strip := (xs ++ tab :: ys).map (·.key) } := by
  have hstrip := h.strip
  have hlast : p.strip ++ [tab.key] = (p.tabs ++ [tab]).map (·.key) := by
    rw [hstrip, List.map_append, List.map_singleton]
  unfold insertShellTabInStrip
  split
  · refine ⟨[], p.tabs, rfl, ?_⟩
    cases htabs : p.tabs with
    | nil => simp [hstrip, htabs]
    | cons t ts => simp [hstrip, htabs, insertBefore]
  · split
    · cases hactive : getActiveTab p with
      | none => exact ⟨p.tabs, [], (List.append_nil _).symm, by simp [hlast]⟩
      | some a =>
          obtain ⟨_, xs, ys, htabs, _⟩ := List.find?_eq_some_iff_append.mp hactive
          have hkeys : ((xs ++ a :: ys).map (·.key)).Nodup := htabs ▸ h.keys
          have hidx : p.tabs.findIdx? (·.key = a.key) = some xs.length := by
            rw [htabs]
            refine findIdx?_append_cons (by simp) fun t ht => ?_
            simpa using key_notMem hkeys t ht
          refine ⟨xs ++ [a], ys, by rw [htabs, List.append_assoc]; rfl, ?_⟩
          rw [List.map_append, List.map_cons] at hkeys
          have hafter := insert_after tab.key hkeys
          have hstrip' : p.strip = xs.map (·.key) ++ a.key :: ys.map (·.key) := by
            rw [hstrip, htabs, List.map_append, List.map_cons]
          simp only [Option.bind_some, hidx, Page.mk.injEq, true_and, and_true]
          constructor
          · rw [htabs, insertIdx_after, List.append_assoc, List.singleton_append]
          · have hplace : (xs ++ [a] ++ tab :: ys).map (·.key) =
                xs.map (·.key) ++ a.key :: tab.key :: ys.map (·.key) := by simp
            rw [hplace, ← hafter, hstrip']
            cases nextSibling a.key (xs.map (·.key) ++ a.key :: ys.map (·.key)) <;> rfl
    · exact ⟨p.tabs, [], (List.append_nil _).symm, by rw [hlast]⟩

theorem insert_listed {xs ys : List Tab} (tab : Tab) (h : p.Listed) (htabs : p.tabs = xs ++ ys)
    (hkey : tab.key = p.nextTabKey + 1)
    (hsettings : (xs ++ tab :: ys).countP (·.kind = .settings) ≤ 1) :
    Page.Listed { p with
      nextTabKey := tab.key, tabs := xs ++ tab :: ys, strip := (xs ++ tab :: ys).map (·.key) } where
  keys := by
    have hkeys := h.keys
    rw [htabs, List.map_append] at hkeys
    rw [List.map_append, List.map_cons, List.nodup_middle]
    refine List.nodup_cons.mpr ⟨?_, hkeys⟩
    rw [← List.map_append, ← htabs]
    intro hmem
    obtain ⟨t, ht, heq⟩ := List.mem_map.mp hmem
    have := h.below t ht
    omega
  below t ht := by
    rcases List.mem_append.mp ht with hxs | htys
    · have := h.below t (htabs ▸ List.mem_append_left _ hxs)
      simp only
      omega
    · rcases List.mem_cons.mp htys with rfl | hys
      · exact Nat.le_refl _
      · have := h.below t (htabs ▸ List.mem_append_right _ hys)
        simp only
        omega
  settings := hsettings
  strip := rfl

/-! ## New tabs -/

/-- The page of `createTab` before the session is set. -/
def Page.withShell (p : Page) (profile : String) : Page :=
  switchTab (p.nextTabKey + 1) (insertShellTabInStrip { p with nextTabKey := p.nextTabKey + 1 }
    { key := p.nextTabKey + 1, kind := .shell, profile })

theorem withShell_cases (h : p.Listed) (profile : String) :
    ∃ xs ys, p.tabs = xs ++ ys ∧
      Page.Listed { p with
        nextTabKey := p.nextTabKey + 1
        tabs := xs ++ { key := p.nextTabKey + 1, kind := .shell, profile } :: ys
        strip := (xs ++ { key := p.nextTabKey + 1, kind := .shell, profile } :: ys).map (·.key) } ∧
      p.withShell profile = switchTab (p.nextTabKey + 1) { p with
        nextTabKey := p.nextTabKey + 1
        tabs := xs ++ { key := p.nextTabKey + 1, kind := .shell, profile } :: ys
        strip := (xs ++ { key := p.nextTabKey + 1, kind := .shell, profile } :: ys).map (·.key) } := by
  have hbelow : Page.Listed { p with nextTabKey := p.nextTabKey + 1 } :=
    ⟨h.keys, fun t ht => Nat.le_succ_of_le (h.below t ht), h.settings, h.strip⟩
  let tab : Tab := { key := p.nextTabKey + 1, kind := .shell, profile }
  obtain ⟨xs, ys, htabs, hins⟩ := insertShellTabInStrip_splits hbelow tab
  refine ⟨xs, ys, htabs, insert_listed tab h htabs rfl ?_, congrArg (switchTab _) hins⟩
  have hsettings := h.settings
  rw [show p.tabs = xs ++ ys from htabs, List.countP_append] at hsettings
  rw [List.countP_append, List.countP_cons_of_neg (by simp [tab])]
  exact hsettings

theorem withShell_listed (h : p.Listed) (profile : String) : (p.withShell profile).Listed := by
  obtain ⟨xs, ys, _, hl, heq⟩ := withShell_cases h profile
  rw [heq]
  exact switchTab_listed hl _

theorem withShell_inStep (h : p.Listed) (profile : String) : (p.withShell profile).InStep := by
  obtain ⟨xs, ys, _, hl, heq⟩ := withShell_cases h profile
  rw [heq]
  exact switchTab_inStep hl (by simp)

theorem findSettingsTab_eq_none (h : findSettingsTab p = none) :
    p.tabs.countP (·.kind = .settings) = 0 := by
  rw [List.countP_eq_zero]
  exact List.find?_eq_none.mp h

theorem settings_listed (h : p.Listed) (hnone : findSettingsTab p = none) :
    Page.Listed { p with
      nextTabKey := p.nextTabKey + 1
      strip := p.strip ++ [p.nextTabKey + 1]
      tabs := p.tabs ++ [{ key := p.nextTabKey + 1, kind := .settings }] } := by
  have hl := insert_listed { key := p.nextTabKey + 1, kind := .settings } h
    (List.append_nil p.tabs).symm rfl (by
      rw [List.countP_append, findSettingsTab_eq_none hnone]
      simp)
  rw [List.map_append, ← h.strip] at hl
  exact hl

theorem openOrFocusSettingsTab_listed (h : p.Listed) : (openOrFocusSettingsTab p).Listed := by
  unfold openOrFocusSettingsTab
  cases hfind : findSettingsTab p with
  | some t => exact switchTab_listed h t.key
  | none => exact switchTab_listed (settings_listed h hfind) _

theorem openOrFocusSettingsTab_inStep (h : p.Listed) : (openOrFocusSettingsTab p).InStep := by
  unfold openOrFocusSettingsTab
  cases hfind : findSettingsTab p with
  | some t => exact switchTab_inStep h (List.mem_map_of_mem (List.mem_of_find?_eq_some hfind))
  | none => exact switchTab_inStep (settings_listed h hfind) (by simp)

/-! ## removeTab -/

/-- The session that is stopped with a tab. -/
def Tab.stopped (t : Tab) : Option Int := if t.kind = .shell ∧ t.sessionId ≥ 0 then some t.sessionId else none

/-- What `removeTab` does: nothing, or it takes out one of several tabs, and when that was the active one
it switches to one that is left. -/
inductive Removes (key : Nat) (p : Page) : Page × Option Int → Prop
  | nothing : Removes key p (p, none)
  | one {xs ys : List Tab} {t : Tab} {q : Page} (tabs : p.tabs = xs ++ t :: ys) (key_eq : t.key = key)
      (rest : q = { p with tabs := xs ++ ys, strip := p.strip.erase key }) (stays : p.activeTabKey ≠ some key) :
      Removes key p (q, t.stopped)
  | active {xs ys : List Tab} {t fall : Tab} {q : Page} (tabs : p.tabs = xs ++ t :: ys) (key_eq : t.key = key)
      (rest : q = { p with tabs := xs ++ ys, strip := p.strip.erase key }) (left : fall ∈ xs ++ ys) :
      Removes key p (switchTab fall.key q, t.stopped)

theorem removeTab_removes (key : Nat) (p : Page) : Removes key p (removeTab key p) := by
  unfold removeTab
  split
  · exact .nothing
  · rename_i hlen
    rcases findIdx?_cases (fun t : Tab => decide (t.key = key)) p.tabs with
      ⟨hnone, _⟩ | ⟨xs, t, ys, htabs, hkey, _, hidx⟩
    · rw [hnone]
      exact .nothing
    · have hvictim : p.tabs[xs.length]? = some t := by rw [htabs, List.getElem?_append_right (Nat.le_refl _)]; simp
      have hstop : ((some t).filter fun t : Tab => decide (t.kind = .shell ∧ t.sessionId ≥ 0)).map
          (·.sessionId) = t.stopped := by
        rw [Tab.stopped, Option.filter_some]
        split <;> rename_i hc <;> simp only [decide_eq_true_eq] at hc <;> simp [hc]
      have herase : p.tabs.eraseIdx xs.length = xs ++ ys := by rw [htabs, eraseIdx_at]
      simp only [decide_eq_true_eq] at hkey
      simp only [hidx, hvictim, herase, hstop]
      have hfall : ∃ fall, (xs ++ ys)[xs.length - 1]? = some fall := by
        rw [htabs, List.length_append, List.length_cons] at hlen
        exact ⟨_, List.getElem?_eq_getElem (by rw [List.length_append]; omega)⟩
      obtain ⟨fall, hfall⟩ := hfall
      simp only [hfall]
      split
      · exact .active htabs hkey rfl (List.mem_of_getElem? hfall)
      · rename_i hstays
        exact .one htabs hkey rfl hstays

theorem erase_key {xs ys : List Tab} {t : Tab} (h : p.Listed) (htabs : p.tabs = xs ++ t :: ys) :
    p.strip.erase t.key = (xs ++ ys).map (·.key) := by
  have hnot : t.key ∉ xs.map (·.key) := by
    intro hmem
    obtain ⟨s, hs, heq⟩ := List.mem_map.mp hmem
    exact key_notMem (htabs ▸ h.keys) s hs heq
  rw [h.strip, htabs, List.map_append, List.map_cons, List.erase_append_right _ hnot, List.erase_cons_head,
    List.map_append]

theorem rest_listed {xs ys : List Tab} {t : Tab} (h : p.Listed) (htabs : p.tabs = xs ++ t :: ys) :
    Page.Listed { p with tabs := xs ++ ys, strip := p.strip.erase t.key } := by
  have hsub : (xs ++ ys).Sublist p.tabs := by
    rw [htabs]
    exact List.Sublist.append_left (List.sublist_cons_self t ys) xs
  refine ⟨(hsub.map _).nodup h.keys, fun s hs => h.below s (hsub.subset hs), ?_, erase_key h htabs⟩
  exact (hsub.countP_le).trans h.settings

theorem Removes.listed {r : Page × Option Int} (hr : Removes key p r) (h : p.Listed) : r.1.Listed := by
  cases hr with
  | nothing => exact h
  | one htabs hkey hrest _ =>
      subst hkey hrest
      exact rest_listed h htabs
  | active htabs hkey hrest _ =>
      subst hkey hrest
      exact switchTab_listed (rest_listed h htabs) _

theorem Removes.inStep {r : Page × Option Int} (hr : Removes key p r) (h : p.Listed) (hin : p.InStep) :
    r.1.InStep := by
  cases hr with
  | nothing => exact hin
  | active htabs hkey hrest hleft =>
      subst hkey hrest
      exact switchTab_inStep (rest_listed h htabs) (List.mem_map_of_mem hleft)
  | @one xs ys t q htabs hkey hrest hstays =>
      subst hkey hrest
      have hl := rest_listed h htabs
      have hmem : ∀ s, s ∈ xs ++ ys ↔ s ∈ p.tabs ∧ s.key ≠ t.key := by
        intro s
        rw [htabs]
        exact mem_rest_iff (htabs ▸ h.keys)
      obtain ⟨a, ⟨ha, hakey⟩, huniq⟩ := hin.active
      have hane : a.key ≠ t.key := by
        intro heq
        exact hstays (heq ▸ hakey)
      refine ⟨?_, hl.keys, hl.settings, ⟨a, ⟨(hmem a).mpr ⟨ha, hane⟩, hakey⟩, ?_⟩, ?_, hl.strip⟩
      · exact List.ne_nil_of_mem ((hmem a).mpr ⟨ha, hane⟩)
      · rintro s ⟨hs, hskey⟩
        exact huniq s ⟨((hmem s).mp hs).1, hskey⟩
      · intro s hs
        exact hin.classes s ((hmem s).mp hs).1

/-! ## Sessions and output leave the faces of the tabs -/

theorem setSession_face (key : Nat) (id : Int) (p : Page) :
    (setSession key id p).tabs.map Tab.face = p.tabs.map Tab.face := by
  rw [setSession, List.map_map]
  refine List.map_congr_left fun t _ => ?_
  simp only [Function.comp_apply]
  split <;> rfl

/-- Output changes only what was written to a tab. -/
theorem writeFirst_map {α : Type} {f : Tab → α} (hf : ∀ data t, f (Tab.write data t) = f t) (id : Int)
    (data : String) (tabs : List Tab) : (writeFirst id data tabs).map f = tabs.map f := by
  induction tabs with
  | nil => rfl
  | cons t tabs ih =>
      rw [writeFirst]
      split
      · rw [List.map_cons, List.map_cons, hf]
      · rw [List.map_cons, List.map_cons, ih]

end Kworker.Terminal
