import Kworker.Bios.Lemmas.Keys
import Kworker.Bios.Typing

/-!
# What one call makes of keys that are still arriving
-/

namespace Kworker.Bios

open Kworker.Lib

/-! ## Taking a byte -/

section

variable {α : Type} {a d : α} {x y rest : List α}

/-- What is there of a list begins with its first byte. -/
theorem take_first (h : x ++ y = a :: rest) (hx : x ≠ []) : x.headD d = a ∧ x.tail ++ y = rest := by
  obtain ⟨b, x, rfl⟩ := List.exists_cons_of_ne_nil hx
  obtain ⟨rfl, hrest⟩ := List.cons.inj h
  exact ⟨rfl, hrest⟩

theorem ne_nil_append {z : List α} (h : x ++ y ≠ []) : x ++ (y ++ z) ≠ [] := by
  rw [← List.append_assoc]
  exact List.append_ne_nil_of_left_ne_nil h z

end

section

variable {S : Source} {k r : Bool} {m : Nat} {q todo rest : List UInt8} {e : PollEnv}

def letterKey (c : UInt8) : Key :=
  if c = 0x41 then .up else if c = 0x42 then .down else if c = 0x43 then .right
  else if c = 0x44 then .left else .esc

theorem letterKey_eq (c : UInt8) (l : Line) :
    (if c = 0x41 then (l, Key.up) else if c = 0x42 then (l, Key.down) else if c = 0x43 then (l, Key.right)
      else if c = 0x44 then (l, Key.left) else (l, Key.esc)) = (l, letterKey c) := by
  unfold letterKey
  split_ifs <;> rfl

theorem quiet_tstc {look : KeyLook} (h : look.board = false) (x : List UInt8) :
    (look.board = false ∧ x ++ look.tstc.on S = []) ↔ x ++ look.tstc.on S = [] := and_iff_right h

/-- The last byte of an arrow key has arrived at the third check, or the call returns Esc. -/
theorem pollBracket_letter (h : Readable S k r) (hq : e.Quiet S) {c : UInt8}
    (hbytes : q ++ (e.look₂.on S ++ todo) = c :: rest) :
    (q ++ e.look₂.tstc.on S = [] ∧ (pollBracket k e (.only S q m r)).2 = .esc) ∨
    (q ++ e.look₂.tstc.on S ≠ [] ∧ ∃ q', pollBracket k e (.only S q m r) = (.only S q' m r, letterKey c) ∧
      q' ++ todo = rest) := by
  obtain ⟨_, _, h₂⟩ := quiet_looks hq.other
  unfold pollBracket
  rw [only_keyLook h h₂]
  simp only [quiet_tstc hq.board₂]
  by_cases hnone : q ++ e.look₂.tstc.on S = []
  · simp only [hnone, if_true]
    exact Or.inl ⟨trivial, trivial⟩
  · rw [← List.append_assoc] at hbytes
    obtain ⟨hhead, htail⟩ := take_first (d := 0) hbytes (ne_nil_append hnone)
    right
    simp only [hnone, if_false, hhead, letterKey_eq]
    exact ⟨hnone, _, rfl, htail⟩

/-- With `q` left after the `ESC`, the next byte has arrived at the second check and the one after that at
the third. -/
def PollEnv.RestWhole (S : Source) (q : List UInt8) (e : PollEnv) : Prop :=
  q ++ e.look₁.tstc.on S ≠ [] ∧ (q ++ e.look₁.on S).tail ++ e.look₂.tstc.on S ≠ []

/-- After the `ESC` of an arrow key the other bytes are read if they have arrived, or the call returns
Esc. -/
theorem pollEscape_arrow (h : Readable S k r) (hq : e.Quiet S) {c : UInt8}
    (hbytes : q ++ (e.look₁.on S ++ (e.look₂.on S ++ todo)) = 0x5b :: c :: rest) :
    (¬ e.RestWhole S q ∧ (pollEscape k e (.only S q m r)).2 = .esc) ∨
    (e.RestWhole S q ∧ ∃ q', pollEscape k e (.only S q m r) = (.only S q' m r, letterKey c) ∧
      q' ++ todo = rest) := by
  rw [only_pollEscape h hq.other]
  simp only [quiet_tstc hq.board₁]
  by_cases hnone : q ++ e.look₁.tstc.on S = []
  · simp only [hnone, if_true]
    exact Or.inl ⟨fun hwhole => hwhole.1 hnone, trivial⟩
  · rw [← List.append_assoc] at hbytes
    obtain ⟨hhead, htail⟩ := take_first (d := 0) hbytes (ne_nil_append hnone)
    simp only [hnone, if_false, hhead, if_true]
    rcases pollBracket_letter (m := m) h hq htail with ⟨hnil, hesc⟩ | ⟨hne, hletter⟩
    · exact Or.inl ⟨fun hwhole => hwhole.2 hnil, hesc⟩
    · exact Or.inr ⟨⟨hnone, hne⟩, hletter⟩

/-! ## One call -/

theorem poll_nothing_there (h : Readable S k r) (hq : e.Quiet S) (hnone : q ++ e.look₀.tstc.on S = []) :
    kh_bios_poll_key k e (.only S q m r) = (.only S (q ++ e.on S) m r, .none) := by
  rw [only_poll h hq.other hq.board, if_pos ⟨hq.board₀, hnone⟩]

theorem poll_enter (h : Readable S k r) (hm : m ≤ 1) (hq : e.Quiet S) {c : UInt8} (hc : c ≠ 0x1b)
    (hc' : c ≠ 0x5b) (hfound : q ++ e.look₀.tstc.on S ≠ [])
    (hbytes : q ++ (e.on S ++ todo) = c :: rest) :
    ∃ q', kh_bios_poll_key k e (.only S q m r) = (.only S q' 0 r, keyOf c) ∧ q' ++ todo = rest := by
  have hbytes : (q ++ e.look₀.on S) ++ (e.look₁.on S ++ e.look₂.on S ++ todo) = c :: rest := by
    rw [← hbytes, PollEnv.on]
    simp only [List.append_assoc]
  obtain ⟨hhead, htail⟩ := take_first (d := 0) hbytes (ne_nil_append hfound)
  rw [only_poll h hq.other hq.board, if_neg fun hnone => hfound hnone.2]
  simp only [hhead, feed_reset hm hc hc', Bool.false_eq_true, if_false, hc]
  refine ⟨_, rfl, ?_⟩
  rw [List.append_assoc]
  exact htail

theorem poll_arrow_arriving (h : Readable S k r) (hm : m ≤ 1) (hq : e.Quiet S) {c : UInt8}
    (hfound : q ++ e.look₀.tstc.on S ≠ [])
    (hbytes : q ++ (e.on S ++ todo) = 0x1b :: 0x5b :: c :: rest) :
    (¬ e.RestWhole S (q ++ e.look₀.on S).tail ∧ (kh_bios_poll_key k e (.only S q m r)).2 = .esc) ∨
    (e.RestWhole S (q ++ e.look₀.on S).tail ∧
      ∃ q', kh_bios_poll_key k e (.only S q m r) = (.only S q' 1 r, letterKey c) ∧ q' ++ todo = rest) := by
  have hbytes : (q ++ e.look₀.on S) ++ (e.look₁.on S ++ (e.look₂.on S ++ todo)) =
      0x1b :: 0x5b :: c :: rest := by
    rw [← hbytes, PollEnv.on]
    simp only [List.append_assoc]
  obtain ⟨hhead, htail⟩ := take_first (d := 0) hbytes (ne_nil_append hfound)
  rw [only_poll h hq.other hq.board, if_neg fun hnone => hfound hnone.2]
  simp only [hhead, feed_esc hm, Bool.false_eq_true, if_false, if_true]
  exact pollEscape_arrow h hq htail

theorem whole_iff (hfound : q ++ e.look₀.tstc.on S ≠ []) :
    (2 ≤ (q ++ e.look₀.on S ++ e.look₁.tstc.on S).length ∧
      3 ≤ (q ++ e.look₀.on S ++ e.look₁.on S ++ e.look₂.tstc.on S).length) ↔
    e.RestWhole S (q ++ e.look₀.on S).tail := by
  have hpos := List.length_pos_of_ne_nil (ne_nil_append (z := e.look₀.getc.on S) hfound)
  simp only [PollEnv.RestWhole, ← List.length_pos_iff, List.length_append, List.length_tail,
    KeyLook.on] at hpos ⊢
  omega

/-! ## The list of keys -/

theorem encode_cons (p : Press) (ps : List Press) : encode (p :: ps) false = p.bytes ++ encode ps false := by
  simp [encode, List.flatMap_cons]

theorem keys_append (ps qs : List Press) : keys (ps ++ qs) false = keys ps false ++ keys qs false := by
  simp [keys]

theorem esc_notMem_keys (ps : List Press) : Key.esc ∉ keys ps false := by
  simp only [keys, Bool.false_eq_true, if_false, List.append_nil, List.mem_map, not_exists, not_and]
  intro p _ hkey
  cases p <;> cases hkey

/-- An arrow key or Enter is one byte, or `ESC`, `[` and its letter. -/
theorem Press.ArrowOrEnter.bytes_cases {p : Press} (hp : p.ArrowOrEnter) :
    (∃ c, c ≠ 0x1b ∧ c ≠ 0x5b ∧ p.bytes = [c] ∧ p.key = keyOf c) ∨
    ∃ c, p.bytes = [0x1b, 0x5b, c] ∧ p.key = letterKey c := by
  cases p with
  | up => exact Or.inr ⟨_, rfl, by decide⟩
  | down => exact Or.inr ⟨_, rfl, by decide⟩
  | left => exact Or.inr ⟨_, rfl, by decide⟩
  | right => exact Or.inr ⟨_, rfl, by decide⟩
  | enter lf => exact Or.inl ⟨_, by cases lf <;> decide, by cases lf <;> decide, rfl, by cases lf <;> decide⟩
  | f10 => exact absurd rfl hp
  | b upper => exact absurd rfl hp

/-- What one call does when `rs` are the keys that have not been read: nothing, it reads the first of
them, or it returns Esc because the rest of it has not arrived. -/
inductive CallOutcome (S : Source) (k r : Bool) (q : List UInt8) (e : PollEnv) (rs : List Press)
    (todo : List UInt8) : Line × Key → Prop
  | idle (q' : List UInt8) (m : Nat) (hm : m ≤ 1) (hbytes : q' ++ todo = encode rs false)
      (hnone : q ++ e.look₀.tstc.on S = []) : CallOutcome S k r q e rs todo (.only S q' m r, .none)
  | reads (p : Press) (rs' : List Press) (q' : List UInt8) (m : Nat) (hm : m ≤ 1) (hrs : rs = p :: rs')
      (hbytes : q' ++ todo = encode rs' false)
      (hwhole : (q ++ e.look₀.tstc.on S).head? = some 0x1b → e.RestWhole S (q ++ e.look₀.on S).tail) :
      CallOutcome S k r q e rs todo (.only S q' m r, p.key)
  | cuts (l : Line) (hesc : (q ++ e.look₀.tstc.on S).head? = some 0x1b)
      (hcut : ¬ e.RestWhole S (q ++ e.look₀.on S).tail) : CallOutcome S k r q e rs todo (l, .esc)

theorem head?_of_bytes {c : UInt8} {x y : List UInt8} (hx : x ≠ []) (h : x ++ y = c :: rest) :
    x.head? = some c := by
  obtain ⟨b, x, rfl⟩ := List.exists_cons_of_ne_nil hx
  rw [(List.cons.inj h).1]
  rfl

theorem call_outcome (h : Readable S k r) (hm : m ≤ 1) (hq : e.Quiet S) {rs : List Press}
    (hrs : ∀ p ∈ rs, p.ArrowOrEnter) (hbytes : q ++ (e.on S ++ todo) = encode rs false) :
    CallOutcome S k r q e rs todo (kh_bios_poll_key k e (.only S q m r)) := by
  by_cases hfound : q ++ e.look₀.tstc.on S = []
  · rw [poll_nothing_there h hq hfound]
    refine .idle _ m hm ?_ hfound
    rw [List.append_assoc]
    exact hbytes
  cases rs with
  | nil =>
      have hnil : q ++ (e.on S ++ todo) = [] := hbytes
      simp only [PollEnv.on, KeyLook.on, List.append_eq_nil_iff] at hnil
      simp [hnil] at hfound
  | cons p rs =>
      rw [encode_cons] at hbytes
      have hfirst : (q ++ e.look₀.tstc.on S) ++ (e.look₀.getc.on S ++ (e.look₁.on S ++ e.look₂.on S) ++ todo) =
          p.bytes ++ encode rs false := by
        rw [← hbytes]
        simp only [PollEnv.on, KeyLook.on, List.append_assoc]
      rcases (hrs p List.mem_cons_self).bytes_cases with ⟨c, hc, hc', hp, hkey⟩ | ⟨c, hp, hkey⟩
      · rw [hp] at hbytes hfirst
        obtain ⟨q', hpoll, hrest⟩ := poll_enter (m := m) h hm hq hc hc' hfound hbytes
        rw [hpoll, ← hkey]
        refine .reads p rs q' 0 (Nat.zero_le _) rfl hrest fun hesc => ?_
        rw [head?_of_bytes hfound hfirst, Option.some.injEq] at hesc
        exact absurd hesc hc
      · rw [hp] at hbytes hfirst
        rcases poll_arrow_arriving (m := m) h hm hq hfound hbytes with ⟨hcut, hesc⟩ | ⟨hwhole, q', hpoll, hrest⟩
        · generalize kh_bios_poll_key k e (.only S q m r) = res at hesc
          obtain ⟨l, key⟩ := res
          have hesc : key = .esc := hesc
          rw [hesc]
          exact .cuts l (head?_of_bytes hfound hfirst) hcut
        · rw [hpoll, ← hkey]
          exact .reads p rs q' 1 le_rfl rfl hrest fun _ => hwhole

end

/-! ## The calls -/

section

variable {S : Source} {k : Bool} {ps : List Press} {s s' t : Typing} {e : PollEnv}

/-- Bytes wait on `S` only, and the matcher has at most an `ESC`. -/
def Typing.Steady (S : Source) (k : Bool) (s : Typing) : Prop :=
  ∃ q m r, s.line = .only S q m r ∧ m ≤ 1 ∧ Readable S k r

@[simp] theorem only_queue (S : Source) (q : List UInt8) (m : Nat) (r : Bool) :
    (Line.only S q m r).queue S = q := by
  cases S <;> rfl

theorem typing_step_eq (hstep : (typing S k).step s e = some s') :
    e.Quiet S ∧ ∃ todo, s.todo = e.on S ++ todo ∧ s' =
      { line := (kh_bios_poll_key k e s.line).1, todo
        results := s.results ++ [(kh_bios_poll_key k e s.line).2] } := by
  simp only [typing, Option.ite_none_right_eq_some, Option.some.injEq] at hstep
  obtain ⟨⟨hq, todo, htodo⟩, rfl⟩ := hstep
  refine ⟨hq, todo, htodo.symm, ?_⟩
  rw [← htodo, List.drop_left]

theorem whole_head (hfound : (s.line.queue S ++ e.look₀.tstc.on S).head? = some 0x1b) :
    e.Whole S s ↔ e.RestWhole S (s.line.queue S ++ e.look₀.on S).tail := by
  rw [PollEnv.Whole, imp_iff_right hfound]
  apply whole_iff
  intro hnil
  rw [hnil] at hfound
  cases hfound

/-- One call reads on in the list if what it takes is whole, and returns Esc otherwise. -/
theorem typing_step (hps : ∀ p ∈ ps, p.ArrowOrEnter) (hs : s.Steady S k) (hin : s.InOrder S ps)
    (hstep : (typing S k).step s e = some s') :
    (e.Whole S s ∧ s'.Steady S k ∧ s'.InOrder S ps) ∨ (¬ e.Whole S s ∧ .esc ∈ s'.results) := by
  obtain ⟨hq, todo, htodo, rfl⟩ := typing_step_eq hstep
  obtain ⟨q, m, r, hline, hm, hread⟩ := hs
  obtain ⟨qs, rs, rfl, hbytes, hresults⟩ := hin
  rw [hline, only_queue, htodo] at hbytes
  have hrs : ∀ p ∈ rs, p.ArrowOrEnter := fun p hp => hps p (List.mem_append_right _ hp)
  have hout := call_outcome hread hm hq hrs hbytes
  have hqueue : s.line.queue S = q := by rw [hline, only_queue]
  rw [hline]
  generalize kh_bios_poll_key k e (.only S q m r) = res at hout
  cases hout with
  | idle q' m' hm' hbytes' hnone =>
      left
      refine ⟨fun hesc => ?_, ⟨q', m', r, rfl, hm', hread⟩, qs, rs, rfl, ?_, ?_⟩
      · rw [hqueue, hnone] at hesc
        cases hesc
      · rw [only_queue]
        exact hbytes'
      · rw [List.filter_append, hresults]
        exact List.append_nil _
  | reads p rs' q' m' hm' hrs' hbytes' hwhole =>
      subst hrs'
      left
      refine ⟨fun hesc => ?_, ⟨q', m', r, rfl, hm', hread⟩, qs ++ [p], rs', ?_, ?_, ?_⟩
      · refine (whole_head hesc).mpr ?_ hesc
        rw [hqueue] at hesc ⊢
        exact hwhole hesc
      · rw [List.append_assoc, List.singleton_append]
      · rw [only_queue]
        exact hbytes'
      · have hkey : p.key ≠ .none := by cases p <;> exact nofun
        rw [List.filter_append, hresults, keys_append, List.filter_cons_of_pos (by simpa using hkey)]
        rfl
  | cuts l hesc hcut =>
      right
      refine ⟨fun hwhole => hcut ?_, List.mem_append_right _ (List.mem_singleton_self _)⟩
      rw [← hqueue] at hesc ⊢
      exact (whole_head hesc).mp hwhole

theorem not_inOrder_of_esc (h : .esc ∈ s.results) : ¬ s.InOrder S ps := by
  rintro ⟨qs, rs, _, _, hresults⟩
  apply esc_notMem_keys qs
  rw [← hresults]
  exact List.mem_filter.mpr ⟨h, rfl⟩

theorem start_steady (ready : Bool) (ps : List Press) (h : S = .usb → k = true ∧ ready = true) :
    (Typing.start ready ps).Steady S k :=
  ⟨[], 0, ready, by cases S <;> rfl, Nat.zero_le _, h⟩

theorem start_inOrder (S : Source) (ready : Bool) (ps : List Press) :
    (Typing.start ready ps).InOrder S ps :=
  ⟨[], ps, rfl, by cases S <;> rfl, rfl⟩

theorem always_inOrder_iff (hps : ∀ p ∈ ps, p.ArrowOrEnter) (hs : s.Steady S k) (hin : s.InOrder S ps)
    (calls : List PollEnv) : (typing S k).Always (Typing.InOrder S ps) s calls ↔
      (typing S k).Guarded (fun s e => e.Whole S s) s calls := by
  apply (typing S k).always_iff_guarded_of (I := fun s => s.InOrder S ps → s.Steady S k)
  · intro s e s' hinv hin hstep hin'
    rcases typing_step hps (hinv hin) hin hstep with ⟨_, hs', _⟩ | ⟨_, hesc⟩
    · exact hs'
    · exact absurd hin' (not_inOrder_of_esc hesc)
  · intro s e s' hinv hin hstep
    rcases typing_step hps (hinv hin) hin hstep with ⟨hwhole, _, hin'⟩ | ⟨hcut, hesc⟩
    · exact iff_of_true hin' hwhole
    · exact iff_of_false (not_inOrder_of_esc hesc) hcut
  · exact fun _ => hs
  · exact hin

theorem earlier_results {calls : List PollEnv} (hrun : (typing S k).run s calls = some t) :
    s.results <+: t.results := by
  refine (typing S k).run_invariant (I := fun t => s.results <+: t.results) ?_ List.prefix_rfl hrun
  intro u e u' hu hstep
  obtain ⟨_, todo, _, rfl⟩ := typing_step_eq hstep
  exact hu.trans (List.prefix_append _ _)

theorem guarded_of_no_esc (hps : ∀ p ∈ ps, p.ArrowOrEnter) (hs : s.Steady S k) (hin : s.InOrder S ps)
    {calls : List PollEnv} (hrun : (typing S k).run s calls = some t) (hesc : .esc ∉ t.results) :
    (typing S k).Guarded (fun s e => e.Whole S s) s calls := by
  induction calls generalizing s with
  | nil => exact (typing S k).guarded_nil
  | cons e calls ih =>
      obtain ⟨s', hstep, hrun⟩ := (typing S k).run_cons_eq_some.mp hrun
      refine (typing S k).guarded_cons.mpr fun s'' hstep' => ?_
      rw [hstep, Option.some.injEq] at hstep'
      subst hstep'
      rcases typing_step hps hs hin hstep with ⟨hwhole, hs', hin'⟩ | ⟨_, hesc'⟩
      · exact ⟨hwhole, ih hs' hin' hrun⟩
      · exact absurd ((earlier_results hrun).subset hesc') hesc

theorem encode_eq_nil {rs : List Press} (h : encode rs false = []) : rs = [] := by
  cases rs with
  | nil => rfl
  | cons p rs =>
      rw [encode_cons] at h
      exact absurd (List.append_eq_nil_iff.mp h).1 (bytes_ne_nil p)

/-- When everything has been read the results are the list exactly if no key was cut. -/
theorem done_results_iff (hps : ∀ p ∈ ps, p.ArrowOrEnter) (hs : s.Steady S k) (hin : s.InOrder S ps)
    {calls : List PollEnv} (hrun : (typing S k).run s calls = some t) (hdone : t.Done S) :
    t.results.filter (· ≠ .none) = keys ps false ↔
      (typing S k).Guarded (fun s e => e.Whole S s) s calls := by
  constructor
  · intro hresults
    refine guarded_of_no_esc hps hs hin hrun fun hesc => esc_notMem_keys ps ?_
    rw [← hresults]
    exact List.mem_filter.mpr ⟨hesc, rfl⟩
  · intro hguard
    obtain ⟨qs, rs, rfl, hbytes, hresults⟩ :=
      (always_inOrder_iff hps hs hin calls).mpr hguard calls t List.prefix_rfl hrun
    rw [hdone.1, hdone.2] at hbytes
    rw [encode_eq_nil hbytes.symm, List.append_nil]
    exact hresults

end

end Kworker.Bios
