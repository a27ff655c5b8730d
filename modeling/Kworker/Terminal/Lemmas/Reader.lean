import Kworker.Terminal.Reader

/-!
# Chunks on their way from the reader thread to the callback
-/

namespace Kworker.Terminal

open Kworker.Lib

variable {r s : Reader} {a : ReaderAct}

/-! ## One step -/

theorem callThreadsafeFunction_of_room {queue : List PtyData} (h : queue.length < kTsfnQueueSize)
    (data : PtyData) : callThreadsafeFunction queue data = some (queue ++ [data]) := if_pos h

theorem callThreadsafeFunction_full {queue : List PtyData} (h : ¬ queue.length < kTsfnQueueSize)
    (data : PtyData) : callThreadsafeFunction queue data = none := if_neg h

theorem readerStep_read {bytes : List UInt8} (h : readerStep r (.read bytes) = some s) :
    r.looping = true ∧ bytes ≠ [] ∧ s = { r with
      read := r.read ++ [bytes]
      queue := (callThreadsafeFunction r.queue { session_id := r.session_id, buffer := bytes }).getD
        r.queue } := by
  simp only [readerStep, Option.ite_none_right_eq_some, Option.some.injEq] at h
  obtain ⟨⟨hloop, hne, _⟩, rfl⟩ := h
  exact ⟨hloop, hne, rfl⟩

theorem readerStep_readFails (h : readerStep r .readFails = some s) : s = { r with looping := false } := by
  simp only [readerStep, Option.ite_none_right_eq_some, Option.some.injEq] at h
  exact h.2.symm

theorem readerStep_dequeue (h : readerStep r .dequeue = some s) :
    ∃ data queue, r.queue = data :: queue ∧ s = { r with queue, delivered := r.delivered ++ [data] } := by
  unfold readerStep at h
  cases hqueue : r.queue with
  | nil =>
      rw [hqueue] at h
      cases h
  | cons data queue =>
      rw [hqueue] at h
      cases h
      exact ⟨data, queue, rfl, rfl⟩

/-! ## The order of the chunks -/

theorem inOrder_iff (r : Reader) : r.InOrder ↔ (r.delivered ++ r.queue).map (·.buffer) = r.read := by
  constructor
  · exact fun h => h.2
  · intro h
    refine ⟨?_, h⟩
    rw [← h, List.map_append]
    exact List.prefix_append _ _

theorem readerStep_inOrder_iff (h : r.InOrder) (hstep : readerStep r a = some s) :
    s.InOrder ↔ HasRoom r a := by
  rw [inOrder_iff] at h ⊢
  cases a with
  | read bytes =>
      obtain ⟨_, _, rfl⟩ := readerStep_read hstep
      have hroom : HasRoom r (.read bytes) ↔ r.queue.length < kTsfnQueueSize := by
        constructor
        · exact fun h => h bytes rfl
        · exact fun h _ _ => h
      rw [hroom]
      by_cases hlen : r.queue.length < kTsfnQueueSize
      · simp only [callThreadsafeFunction_of_room hlen, Option.getD_some, hlen, iff_true]
        rw [← List.append_assoc, List.map_append, h, List.map_singleton]
      · simp only [callThreadsafeFunction_full hlen, Option.getD_none, hlen, iff_false]
        intro heq
        rw [h] at heq
        simp at heq
  | readFails =>
      rw [readerStep_readFails hstep]
      exact iff_of_true h fun _ hread => nomatch hread
  | dequeue =>
      obtain ⟨data, queue, hqueue, rfl⟩ := readerStep_dequeue hstep
      refine iff_of_true ?_ fun _ hread => nomatch hread
      rw [hqueue] at h
      rw [List.append_assoc]
      exact h

/-! ## Runs -/

theorem readerStep_chunks (hstep : readerStep r a = some s) (h : ∀ bs ∈ r.read, bs ≠ []) :
    ∀ bs ∈ s.read, bs ≠ [] := by
  cases a with
  | read bytes =>
      obtain ⟨_, hne, rfl⟩ := readerStep_read hstep
      intro bs hbs
      rcases List.mem_append.mp hbs with hold | hnew
      · exact h bs hold
      · rw [List.mem_singleton.mp hnew]
        exact hne
  | readFails =>
      rw [readerStep_readFails hstep]
      exact h
  | dequeue =>
      obtain ⟨data, queue, _, rfl⟩ := readerStep_dequeue hstep
      exact h

theorem readerStep_queue (hstep : readerStep r a = some s) : s.queue.length ≤ r.queue.length + 1 := by
  cases a with
  | read bytes =>
      obtain ⟨_, _, rfl⟩ := readerStep_read hstep
      by_cases hlen : r.queue.length < kTsfnQueueSize
      · simp [callThreadsafeFunction_of_room hlen]
      · simp [callThreadsafeFunction_full hlen]
  | readFails =>
      rw [readerStep_readFails hstep]
      exact Nat.le_succ _
  | dequeue =>
      obtain ⟨data, queue, hqueue, rfl⟩ := readerStep_dequeue hstep
      rw [hqueue, List.length_cons]
      exact (Nat.le_succ _).trans (Nat.le_succ _)

/-- A run that is not longer than the queue finds room. -/
theorem guarded_hasRoom {acts : List ReaderAct} (h : r.queue.length + acts.length ≤ kTsfnQueueSize) :
    reader.Guarded HasRoom r acts := by
  induction acts generalizing r with
  | nil => exact reader.guarded_nil
  | cons a acts ih =>
      rw [List.length_cons] at h
      refine reader.guarded_cons.mpr fun s hstep => ⟨fun _ _ => by omega, ih ?_⟩
      have hqueue := readerStep_queue hstep
      omega

theorem run_reads (bs : List UInt8) (hne : bs ≠ []) (hsize : bs.length ≤ readBufferSize) (n : Nat)
    (hloop : r.looping = true) (hroom : r.queue.length + n ≤ kTsfnQueueSize) :
    reader.run r (List.replicate n (.read bs)) = some { r with
      read := r.read ++ List.replicate n bs
      queue := r.queue ++ List.replicate n { session_id := r.session_id, buffer := bs } } := by
  induction n generalizing r with
  | zero => simp [Machine.run]
  | succ n ih =>
      have hstep : reader.step r (.read bs) = some { r with
          read := r.read ++ [bs]
          queue := r.queue ++ [{ session_id := r.session_id, buffer := bs }] } := by
        change readerStep r (.read bs) = _
        rw [readerStep, if_pos ⟨hloop, hne, hsize⟩]
        simp only [callThreadsafeFunction_of_room (show r.queue.length < kTsfnQueueSize by omega),
          Option.getD_some]
      rw [List.replicate_succ, Machine.run_cons, hstep, Option.bind_some]
      refine (ih ?_ ?_).trans ?_
      · exact hloop
      · simp only [List.length_append, List.length_singleton]
        omega
      · simp [List.replicate_succ]

theorem run_dequeues (ds queue : List PtyData) (h : r.queue = ds ++ queue) :
    reader.run r (List.replicate ds.length .dequeue) =
      some { r with queue, delivered := r.delivered ++ ds } := by
  induction ds generalizing r with
  | nil =>
      rw [List.nil_append] at h
      simp [Machine.run, ← h]
  | cons d ds ih =>
      have hstep : reader.step r .dequeue =
          some { r with queue := ds ++ queue, delivered := r.delivered ++ [d] } := by
        change readerStep r .dequeue = _
        rw [readerStep, h, List.cons_append]
      rw [List.length_cons, List.replicate_succ, Machine.run_cons, hstep, Option.bind_some]
      exact (ih rfl).trans (by simp)

/-- A chunk that finds the queue full is lost, and the next one is not. -/
theorem run_overrun {data : PtyData} {queue : List PtyData} {lost kept : List UInt8} (hloop : r.looping = true)
    (hqueue : r.queue = data :: queue) (hfull : r.queue.length = kTsfnQueueSize)
    (hlost : lost ≠ [] ∧ lost.length ≤ readBufferSize) (hkept : kept ≠ [] ∧ kept.length ≤ readBufferSize) :
    reader.run r [.read lost, .dequeue, .read kept] = some { r with
      read := r.read ++ [lost, kept]
      queue := queue ++ [{ session_id := r.session_id, buffer := kept }]
      delivered := r.delivered ++ [data] } := by
  have hroom : queue.length < kTsfnQueueSize := by
    rw [← hfull, hqueue]
    exact Nat.lt_succ_self _
  have hread : reader.step r (.read lost) = some { r with read := r.read ++ [lost] } := by
    change readerStep r (.read lost) = _
    rw [readerStep, if_pos ⟨hloop, hlost⟩]
    simp only [callThreadsafeFunction_full (Nat.not_lt.mpr hfull.ge), Option.getD_none]
  have hdequeue : reader.step { r with read := r.read ++ [lost] } .dequeue =
      some { r with read := r.read ++ [lost], queue, delivered := r.delivered ++ [data] } := by
    change readerStep _ .dequeue = _
    simp only [readerStep, hqueue]
  have hnext : reader.step { r with read := r.read ++ [lost], queue, delivered := r.delivered ++ [data] }
      (.read kept) = some { r with
        read := r.read ++ [lost] ++ [kept]
        queue := queue ++ [{ session_id := r.session_id, buffer := kept }]
        delivered := r.delivered ++ [data] } := by
    change readerStep _ (.read kept) = _
    rw [readerStep, if_pos ⟨hloop, hkept⟩]
    simp only [callThreadsafeFunction_of_room hroom, Option.getD_some]
  rw [Machine.run_cons, hread, Option.bind_some, Machine.run_cons, hdequeue, Option.bind_some,
    Machine.run_cons, hnext, Option.bind_some, List.append_assoc]
  rfl

end Kworker.Terminal
