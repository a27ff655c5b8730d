import Kworker.Terminal.Scroll

/-!
# Output while the user reads
-/

namespace Kworker.Terminal

open Kworker.Lib

section

variable {scrollOn : Bool} {s s' : Scroll} {a : ScrollAct}

/-! ## The handlers -/

theorem writeCallback_eq (follow : Bool) : writeCallback follow s = { s with
    writePendingCount := s.writePendingCount - 1
    scrollBottomScheduled := s.scrollBottomScheduled || follow } := by
  cases follow with
  | false => simp [writeCallback]
  | true => cases hsched : s.scrollBottomScheduled <;> simp [writeCallback, scheduleScrollToBottom, hsched]

theorem termWriteChunk_eq : termWriteChunk scrollOn s =
    let follow := s.wtFollowOutput || (scrollOn && termViewportNearBottom s 64)
    { s with
      wtFollowOutput := follow
      writePendingCount := s.writePendingCount + 1
      writes := s.writes ++ [scrollOn && follow] } := by
  cases hnear : scrollOn && termViewportNearBottom s 64 <;> simp [termWriteChunk, hnear]

/-- The scroll handler can only stop the following, and not while there is something unfinished. -/
theorem sync_cases (scrollOn : Bool) (s : Scroll) : syncThumbAndOutputFollow scrollOn s = s ∨
    syncThumbAndOutputFollow scrollOn s = { s with wtFollowOutput := false } ∧ s.writePendingCount = 0 := by
  unfold syncThumbAndOutputFollow
  split_ifs with hoff hbusy hfar
  · exact Or.inl rfl
  · exact Or.inl rfl
  · simp only [Bool.or_eq_true, decide_eq_true_iff, not_or] at hbusy
    exact Or.inr ⟨rfl, by omega⟩
  · exact Or.inl rfl

theorem sync_far (hfar : termViewportNearBottom s 64 = false) (hcount : s.writePendingCount = 0)
    (hsched : s.scrollBottomScheduled = false) :
    syncThumbAndOutputFollow true s = { s with wtFollowOutput := false } := by
  simp [syncThumbAndOutputFollow, hfar, hcount, hsched]

/-! ## While the user reads -/

/-- Nothing is on its way to the bottom. -/
structure Scroll.Quiet (s : Scroll) : Prop where
  scheduled : s.scrollBottomScheduled = false
  writes : true ∉ s.writes
  follow : s.wtFollowOutput = false
  far : termViewportNearBottom s 64 = false

/-- The last write follows if the tab does, and nothing moves a user who reads. -/
structure Scroll.Steady (scrollOn : Bool) (s : Scroll) : Prop where
  count : s.writePendingCount = s.writes.length
  last : ∀ follow, s.writes.getLast? = some follow → follow = (scrollOn && s.wtFollowOutput)
  off : scrollOn = false → true ∉ s.writes
  reading : scrollOn = true → s.reading = true → s.Quiet
  pulled : s.pulled = false

theorem opened_steady (baseY viewportY : Int) (scheduled : Bool) :
    (Scroll.opened baseY viewportY scheduled).Steady scrollOn :=
  ⟨rfl, nofun, fun _ => List.not_mem_nil, nofun, rfl⟩

theorem Scroll.Steady.follow_false (hs : s.Steady true) (hwrites : true ∉ s.writes) (hne : s.writes ≠ []) :
    s.wtFollowOutput = false := by
  have hlast := List.getLast?_eq_some_getLast hne
  have hfollow := hs.last _ hlast
  rw [Bool.true_and] at hfollow
  rw [← hfollow, ← Bool.not_eq_true]
  intro htrue
  rw [htrue] at hlast
  exact hwrites (List.mem_of_getLast? hlast)

theorem chunk_steady (hs : s.Steady scrollOn) : (termWriteChunk scrollOn s).Steady scrollOn := by
  rw [termWriteChunk_eq]
  refine ⟨?_, ?_, ?_, ?_, hs.pulled⟩
  · simp [hs.count]
  · intro follow hlast
    rw [List.getLast?_concat, Option.some.injEq] at hlast
    exact hlast.symm
  · rintro rfl
    simpa using hs.off rfl
  · intro hon hreading
    obtain ⟨hsched, hwrites, hfollow, hfar⟩ := hs.reading hon hreading
    refine ⟨hsched, ?_, ?_, hfar⟩
    · simpa [hfollow, hfar] using hwrites
    · simp [hfollow, hfar]

/-- The callback of the oldest write, which a user who reads does not notice. -/
theorem written_steady {follow : Bool} {writes : List Bool} (hs : s.Steady scrollOn)
    (hwrites : s.writes = follow :: writes) :
    (writeCallback follow { s with writes, pulled := s.pulled || (follow && s.reading) }).Steady scrollOn := by
  have hcount := hs.count
  have hmem : ∀ b ∈ writes, b ∈ s.writes := by
    rw [hwrites]
    exact fun b hb => List.mem_cons_of_mem _ hb
  rw [writeCallback_eq]
  refine ⟨?_, ?_, ?_, ?_, ?_⟩
  · simp [hcount, hwrites]
  · intro f hf
    apply hs.last
    rw [hwrites, List.getLast?_cons, hf]
    rfl
  · intro hoff htrue
    exact hs.off hoff (hmem _ htrue)
  · intro hon hreading
    obtain ⟨hsched, hquiet, hfollow, hfar⟩ := hs.reading hon hreading
    have hf : follow = false := by
      rw [← Bool.not_eq_true]
      rintro rfl
      exact hquiet (by rw [hwrites]; exact List.mem_cons_self ..)
    exact ⟨by simp [hsched, hf], fun htrue => hquiet (hmem _ htrue), hfollow, hfar⟩
  · simp only [hs.pulled, Bool.false_or, Bool.and_eq_false_iff]
    by_contra hboth
    simp only [not_or, Bool.not_eq_false] at hboth
    obtain ⟨rfl, hreading⟩ := hboth
    have hhead : true ∈ s.writes := by
      rw [hwrites]
      exact List.mem_cons_self ..
    cases scrollOn with
    | false => exact hs.off rfl hhead
    | true => exact (hs.reading rfl hreading).writes hhead

theorem sync_steady (hs : s.Steady scrollOn) : (syncThumbAndOutputFollow scrollOn s).Steady scrollOn := by
  rcases sync_cases scrollOn s with heq | ⟨heq, hcount⟩
  · rw [heq]
    exact hs
  · have hnil : s.writes = [] := List.length_eq_zero_iff.mp (hs.count ▸ hcount)
    rw [heq]
    refine ⟨hs.count, ?_, hs.off, ?_, hs.pulled⟩
    · rw [hnil]
      exact nofun
    · intro hon hreading
      obtain ⟨hsched, hwrites, _, hfar⟩ := hs.reading hon hreading
      exact ⟨hsched, hwrites, rfl, hfar⟩

/-- Only a user who scrolls away from the bottom calmly reads. -/
theorem userScroll_steady (hs : s.Steady scrollOn) {viewportY : Int}
    (hcalm : (ScrollAct.userScroll viewportY).Calm scrollOn s) :
    let t := { s with viewportY }
    (syncThumbAndOutputFollow scrollOn { t with reading := !termViewportNearBottom t 64 }).Steady
      scrollOn := by
  intro t
  by_cases hreads : scrollOn = true ∧ termViewportNearBottom t 64 = false
  · obtain ⟨rfl, hfar⟩ := hreads
    obtain ⟨hsched, hwrites⟩ := hcalm rfl hfar
    by_cases hnil : s.writes = []
    · -- the handler stops the following
      have hcount : s.writePendingCount = 0 := by rw [hs.count, hnil]; rfl
      rw [sync_far (s := { t with reading := !termViewportNearBottom t 64 }) hfar hcount hsched]
      refine ⟨hs.count, ?_, nofun, fun _ _ => ⟨hsched, hwrites, rfl, hfar⟩, hs.pulled⟩
      show ∀ follow, s.writes.getLast? = some follow → _
      rw [hnil]
      exact nofun
    · -- the handler ignores the event, and the tab does not follow
      apply sync_steady
      have hfollow := hs.follow_false hwrites hnil
      exact ⟨hs.count, hs.last, nofun, fun _ _ => ⟨hsched, hwrites, hfollow, hfar⟩, hs.pulled⟩
  · apply sync_steady
    refine ⟨hs.count, hs.last, hs.off, fun hon hreading => ?_, hs.pulled⟩
    have hreading : (!termViewportNearBottom t 64) = true := hreading
    rw [Bool.not_eq_true'] at hreading
    exact absurd ⟨hon, hreading⟩ hreads

theorem step_steady (hs : s.Steady scrollOn) (hcalm : a.Calm scrollOn s)
    (hstep : (scroll scrollOn).step s a = some s') : s'.Steady scrollOn := by
  simp only [scroll] at hstep
  cases a with
  | chunk =>
      cases hstep
      exact chunk_steady hs
  | parsed baseY viewportY =>
      simp only [scrollStep] at hstep
      split_ifs at hstep
      cases hstep
      refine ⟨hs.count, hs.last, hs.off, fun hon hreading => ?_, hs.pulled⟩
      obtain ⟨hsched, hwrites, hfollow, _⟩ := hs.reading hon hreading
      exact ⟨hsched, hwrites, hfollow, hcalm hon hreading⟩
  | written =>
      simp only [scrollStep] at hstep
      split at hstep
      · cases hstep
      · rename_i follow writes hwrites
        cases hstep
        exact written_steady hs hwrites
  | frame =>
      simp only [scrollStep] at hstep
      split_ifs at hstep with hsched
      cases hstep
      refine ⟨hs.count, hs.last, hs.off, fun hon hreading => ?_, hs.pulled⟩
      rw [(hs.reading hon hreading).scheduled] at hsched
      cases hsched
  | userScroll viewportY =>
      cases hstep
      exact userScroll_steady hs hcalm
  | scrollEvent =>
      cases hstep
      exact sync_steady hs
  | typed =>
      cases hstep
      exact ⟨hs.count, hs.last, hs.off, nofun, hs.pulled⟩

/-! ## When the condition fails -/

/-- The callbacks of the unfinished writes pull a user who reads if one of them follows. -/
theorem callbacks_pull (scrollOn : Bool) (hreading : s.reading = true) (hwrites : true ∈ s.writes) :
    ∃ acts t, (∀ a ∈ acts, a.isOutput = true) ∧ (scroll scrollOn).run s acts = some t ∧ t.pulled = true := by
  generalize hw : s.writes = writes at hwrites
  induction writes generalizing s with
  | nil => cases hwrites
  | cons follow writes ih =>
      let s₁ := writeCallback follow { s with writes, pulled := s.pulled || (follow && s.reading) }
      have hstep : (scroll scrollOn).step s .written = some s₁ := by
        simp only [scroll, scrollStep]
        rw [hw]
      have hs₁ : s₁ = { s with
          writes
          pulled := s.pulled || (follow && s.reading)
          writePendingCount := s.writePendingCount - 1
          scrollBottomScheduled := s.scrollBottomScheduled || follow } := writeCallback_eq follow
      cases follow with
      | true =>
          refine ⟨[.written], s₁, List.forall_mem_singleton.mpr rfl,
            ((scroll scrollOn).run_cons_eq_some).mpr ⟨s₁, hstep, rfl⟩, ?_⟩
          simp [hs₁, hreading]
      | false =>
          have hrest : true ∈ writes := (List.mem_cons.mp hwrites).resolve_left nofun
          obtain ⟨acts, t, hacts, hrun, hpulled⟩ := ih (s := s₁) (by rw [hs₁]; exact hreading) (by rw [hs₁]) hrest
          exact ⟨.written :: acts, t, List.forall_mem_cons.mpr ⟨rfl, hacts⟩,
            ((scroll scrollOn).run_cons_eq_some).mpr ⟨s₁, hstep, hrun⟩, hpulled⟩

theorem chunk_pulls (hreading : s.reading = true) (hnear : termViewportNearBottom s 64 = true) :
    ∃ acts t, (∀ a ∈ acts, a.isOutput = true) ∧ (scroll true).run s acts = some t ∧ t.pulled = true := by
  have hchunk : (termWriteChunk true s).reading = true ∧ true ∈ (termWriteChunk true s).writes := by
    rw [termWriteChunk_eq]
    simp [hreading, hnear]
  obtain ⟨acts, t, hacts, hrun, hpulled⟩ := callbacks_pull true hchunk.1 hchunk.2
  exact ⟨.chunk :: acts, t, List.forall_mem_cons.mpr ⟨rfl, hacts⟩,
    ((scroll true).run_cons_eq_some).mpr ⟨_, rfl, hrun⟩, hpulled⟩

theorem frame_pulls (hreading : s.reading = true) (hsched : s.scrollBottomScheduled = true) :
    ∃ acts t, (∀ a ∈ acts, a.isOutput = true) ∧ (scroll true).run s acts = some t ∧ t.pulled = true := by
  obtain ⟨acts, t, hacts, hrun, hpulled⟩ := chunk_pulls
    (s := { s with scrollBottomScheduled := false, viewportY := s.baseY }) hreading
    (by simp [termViewportNearBottom])
  have hstep : (scroll true).step s .frame =
      some { s with scrollBottomScheduled := false, viewportY := s.baseY } := by
    simp only [scroll, scrollStep, hsched, if_true]
  exact ⟨.frame :: acts, t, List.forall_mem_cons.mpr ⟨rfl, hacts⟩,
    ((scroll true).run_cons_eq_some).mpr ⟨_, hstep, hrun⟩, hpulled⟩

/-- Every action that does not meet the condition can be followed by output that pulls the user, with nothing that the
user does in between. -/
theorem not_calm_pulls (hcalm : ¬ a.Calm scrollOn s) (hstep : (scroll scrollOn).step s a = some s') :
    ∃ acts t, (∀ a ∈ acts, a.isOutput = true) ∧ (scroll scrollOn).run s' acts = some t ∧ t.pulled = true := by
  simp only [scroll] at hstep
  cases a with
  | parsed baseY viewportY =>
      simp only [ScrollAct.Calm, Classical.not_imp, Bool.not_eq_false] at hcalm
      obtain ⟨rfl, hreading, hnear⟩ := hcalm
      simp only [scrollStep] at hstep
      split_ifs at hstep
      cases hstep
      exact chunk_pulls hreading hnear
  | userScroll viewportY =>
      simp only [ScrollAct.Calm, Classical.not_imp, Classical.not_and_iff_not_or_not, Bool.not_eq_false,
        Classical.not_not] at hcalm
      obtain ⟨rfl, hfar, hbusy⟩ := hcalm
      cases hstep
      generalize hmoved : { s with viewportY, reading := !termViewportNearBottom { s with viewportY } 64 } = t
      have hreading : t.reading = true := by
        rw [← hmoved, hfar]
        rfl
      obtain ⟨follow, hsync⟩ : ∃ follow, syncThumbAndOutputFollow true t = { t with wtFollowOutput := follow } := by
        rcases sync_cases true t with heq | ⟨heq, _⟩
        · exact ⟨_, heq⟩
        · exact ⟨_, heq⟩
      rw [hsync]
      rcases hbusy with hsched | hwrites
      · exact frame_pulls hreading (by rw [← hmoved]; exact hsched)
      · exact callbacks_pull true hreading (by rw [← hmoved]; exact hwrites)
  | chunk => exact absurd trivial hcalm
  | written => exact absurd trivial hcalm
  | frame => exact absurd trivial hcalm
  | scrollEvent => exact absurd trivial hcalm
  | typed => exact absurd trivial hcalm

end

end Kworker.Terminal
