import Mathlib.Data.List.Infix

/-!
# Results of read, write and poll, and what passes through a relay

A relay copies bytes between two descriptors in both directions. What it reads and what its sinks
accept is recorded per direction (`Leg`), so that a property of a relay speaks about these two lists.
-/

namespace Kworker.Posix

abbrev Errno := Int

def EINTR : Errno := 4
def EAGAIN : Errno := 11
def EPIPE : Errno := 32

/-- What `read` came back with. `data` is a positive return value, `eof` the return value 0. -/
inductive ReadResult where
  | data (bytes : List UInt8) (nonempty : bytes ≠ [])
  | eof
  | error (errno : Errno)
  deriving DecidableEq

/-- What `write` came back with. `wrote n` accepts the first `n` bytes of the buffer. -/
inductive WriteResult where
  | wrote (n : Nat)
  | error (errno : Errno)
  deriving DecidableEq, Repr

/-- The bits that `poll` can report when only `POLLIN` is asked for. -/
structure Revents where
  POLLIN : Bool := false
  POLLHUP : Bool := false
  POLLERR : Bool := false
  POLLNVAL : Bool := false
  deriving DecidableEq, Repr

inductive PollResult where
  | ready (r₀ r₁ : Revents)
  | error (errno : Errno)
  deriving DecidableEq, Repr

/-! ## What the calls may return -/

/-- A read into a buffer of `count` bytes returns at most that many. -/
def ReadResult.fits (count : Nat) : ReadResult → Bool
  | .data bs _ => bs.length ≤ count
  | _ => true

def ReadResult.bytes : ReadResult → List UInt8
  | .data bs _ => bs
  | _ => []

def WriteResult.fits (count : Nat) : WriteResult → Bool
  | .wrote n => n ≤ count
  | .error _ => true

def Revents.any (r : Revents) : Bool := r.POLLIN || r.POLLHUP || r.POLLERR || r.POLLNVAL

/-- Hang-up or error is reported, and nothing to read. -/
def Revents.HungUp (r : Revents) : Prop := r.POLLIN = false ∧ (r.POLLHUP = true ∨ r.POLLERR = true)

instance (r : Revents) : Decidable r.HungUp := inferInstanceAs (Decidable (_ ∧ _))

/-- Without a timeout `poll` returns a positive number or fails. -/
def PollResult.positive : PollResult → Bool
  | .ready r₀ r₁ => r₀.any || r₁.any
  | .error _ => true

/-! ## One direction of a relay -/

structure Leg where
  got : List UInt8 := []
  accepted : List UInt8 := []
  deriving DecidableEq, Repr

def Leg.read (l : Leg) (bs : List UInt8) : Leg := { l with got := l.got ++ bs }

def Leg.write (l : Leg) (buf : List UInt8) : WriteResult → Leg
  | .wrote n => { l with accepted := l.accepted ++ buf.take n }
  | .error _ => l

@[simp] theorem Leg.read_accepted (l : Leg) (bs : List UInt8) :
    (l.read bs).accepted = l.accepted := rfl

def Leg.Complete (l : Leg) : Prop := l.accepted = l.got

/-- The accepted bytes are the read bytes up to some point: nothing is missing in between. -/
def Leg.NoGap (l : Leg) : Prop := l.accepted <+: l.got

theorem Leg.Complete.noGap {l : Leg} (h : l.Complete) : l.NoGap := by
  rw [Leg.NoGap, show l.accepted = l.got from h]

theorem Leg.Complete.write_noGap {l : Leg} (h : l.Complete) (bs : List UInt8) (w : WriteResult) :
    ((l.read bs).write bs w).NoGap := by
  have h : l.accepted = l.got := h
  cases w with
  | wrote n =>
      show l.accepted ++ bs.take n <+: l.got ++ bs
      rw [h]
      exact (List.prefix_append_right_inj _).mpr (List.take_prefix n bs)
  | error e =>
      show l.accepted <+: l.got ++ bs
      rw [h]
      exact List.prefix_append _ _

/-- From a complete direction, passing on what was read stays complete exactly if the write takes
all of it. -/
theorem Leg.Complete.write_iff {l : Leg} (h : l.Complete) {bs : List UInt8} (hne : bs ≠ [])
    {w : WriteResult} (hw : w.fits bs.length = true) :
    ((l.read bs).write bs w).Complete ↔ w = .wrote bs.length := by
  have h : l.accepted = l.got := h
  cases w with
  | wrote n =>
      have hn : n ≤ bs.length := by simpa [WriteResult.fits] using hw
      show l.accepted ++ bs.take n = l.got ++ bs ↔ _
      rw [h, List.append_cancel_left_eq, List.take_eq_self_iff, WriteResult.wrote.injEq]
      omega
  | error e =>
      show l.accepted = l.got ++ bs ↔ _
      rw [h]
      simp [hne]

/-! ## The state of a relay -/

/-- The control part: whether the loop goes on, `errno`, and what `read` has returned in the
current pass. -/
structure Ctl where
  running : Bool := true
  errno : Errno := 0
  reads : List ReadResult := []

/-- A failing call sets `errno`, a successful one leaves it alone. -/
def Ctl.wrote (c : Ctl) : WriteResult → Ctl
  | .wrote _ => c
  | .error e => { c with errno := e }

@[simp] theorem Ctl.wrote_running (c : Ctl) (w : WriteResult) :
    (c.wrote w).running = c.running := by
  cases w <;> rfl

@[simp] theorem Ctl.wrote_reads (c : Ctl) (w : WriteResult) : (c.wrote w).reads = c.reads := by
  cases w <;> rfl

/-- `up` leads from the first descriptor that is polled to the second, `down` back. -/
structure Relay where
  ctl : Ctl := {}
  up : Leg := {}
  down : Leg := {}

/-- While the loop goes on, every byte that was read has been passed on; when it has been left,
the last buffer may be missing at the end. -/
def Relay.Lossless (s : Relay) : Prop :=
  if s.ctl.running then s.up.Complete ∧ s.down.Complete else s.up.NoGap ∧ s.down.NoGap

/-- The process is gone, and the loop with it. -/
def Relay.stop (s : Relay) : Relay := { s with ctl := { s.ctl with running := false } }

/-! ## What a pass should achieve -/

/-- The pass that ended in `s` has read something, or has seen a read fail with `EAGAIN`, or has left
the loop. -/
def Relay.Advances (s : Relay) : Prop :=
  (∃ bs h, ReadResult.data bs h ∈ s.ctl.reads) ∨ ReadResult.error EAGAIN ∈ s.ctl.reads ∨
    s.ctl.running = false

/-- In the pass that ended in `s` a read has returned 0, or `poll` has reported a hang-up or an error
on a descriptor with nothing to read. -/
def Relay.PeerGone (r₀ r₁ : Revents) (s : Relay) : Prop :=
  ReadResult.eof ∈ s.ctl.reads ∨ r₀.HungUp ∨ r₁.HungUp

def Relay.PassOk (r₀ r₁ : Revents) (s : Relay) : Prop :=
  s.Advances ∧ (s.PeerGone r₀ r₁ → s.ctl.running = false)

theorem Relay.PassOk.of_left {r₀ r₁ : Revents} {s : Relay} (h : s.ctl.running = false) :
    s.PassOk r₀ r₁ := ⟨Or.inr (Or.inr h), fun _ => h⟩

/-- When the loop goes on and every read has found bytes, `EAGAIN` or the end of the stream, a pass
is as it should be exactly if it has read at all and no peer is gone. -/
theorem Relay.passOk_iff_of_running {r₀ r₁ : Revents} {s : Relay} (h : s.ctl.running = true)
    (hreads : ∀ rd ∈ s.ctl.reads, rd ≠ .eof → (∃ bs hne, rd = .data bs hne) ∨ rd = .error EAGAIN) :
    s.PassOk r₀ r₁ ↔ s.ctl.reads ≠ [] ∧ ¬ s.PeerGone r₀ r₁ := by
  simp only [Relay.PassOk, Relay.Advances, h, Bool.true_eq_false, or_false, imp_false]
  refine and_congr_left fun hgone => ?_
  constructor
  · rintro (⟨bs, hne, hmem⟩ | hmem) <;> exact List.ne_nil_of_mem hmem
  · intro hne
    obtain ⟨rd, hmem⟩ := List.exists_mem_of_ne_nil _ hne
    have heof : rd ≠ .eof := by rintro rfl; exact hgone (Or.inl hmem)
    rcases hreads rd hmem heof with ⟨bs, hbs, rfl⟩ | rfl
    · exact Or.inl ⟨bs, hbs, hmem⟩
    · exact Or.inr hmem

/-- The results of the calls of one pass. A result is used only if the pass makes the call. -/
structure PassIo where
  poll : PollResult
  read₀ : ReadResult := .eof
  write₀ : WriteResult := .error EAGAIN
  read₁ : ReadResult := .eof
  write₁ : WriteResult := .error EAGAIN

/-- What POSIX allows, for a buffer of `count` bytes and a `poll` without timeout. -/
def PassIo.allowed (count : Nat) (io : PassIo) : Bool :=
  io.poll.positive && io.read₀.fits count && io.read₁.fits count &&
    io.write₀.fits io.read₀.bytes.length && io.write₁.fits io.read₁.bytes.length

/-- What a process does about SIGPIPE: the default action ends it. -/
inductive Disposition where
  | default
  | ignored
  deriving DecidableEq, Repr

/-- What was read is written where nobody is left to read it, and the signal ends the process. -/
def Disposition.kills (sigpipe : Disposition) (revents : Revents) (rd : ReadResult) (wr : WriteResult) : Bool :=
  sigpipe = .default && revents.POLLIN && rd.bytes ≠ [] && wr = .error EPIPE

/-- A write of the pass ends the process. -/
def PassIo.kills (sigpipe : Disposition) (io : PassIo) : Bool :=
  match io.poll with
  | .ready r₀ r₁ => sigpipe.kills r₀ io.read₀ io.write₀ || sigpipe.kills r₁ io.read₁ io.write₁
  | .error _ => false

/-- Every write that the pass makes takes the whole buffer. -/
def PassIo.WritesComplete (io : PassIo) : Prop :=
  match io.poll with
  | .ready r₀ r₁ =>
      (r₀.POLLIN = true → ∀ bs h, io.read₀ = .data bs h → io.write₀ = .wrote bs.length) ∧
      (r₁.POLLIN = true → ∀ bs h, io.read₁ = .data bs h → io.write₁ = .wrote bs.length)
  | .error _ => True

def PassIo.polled (io : PassIo) (r₀ r₁ : Revents) : List ReadResult :=
  (if r₀.POLLIN then [io.read₀] else []) ++ if r₁.POLLIN then [io.read₁] else []

theorem PassIo.mem_polled {io : PassIo} {r₀ r₁ : Revents} {rd : ReadResult} :
    rd ∈ io.polled r₀ r₁ ↔
      (r₀.POLLIN = true ∧ rd = io.read₀) ∨ (r₁.POLLIN = true ∧ rd = io.read₁) := by
  cases h₀ : r₀.POLLIN <;> cases h₁ : r₁.POLLIN <;> simp [PassIo.polled, h₀, h₁]

/-- `poll` has found something to read, and neither `poll` nor a read has found a peer gone. -/
def PassIo.PeersPresent (io : PassIo) : Prop :=
  match io.poll with
  | .ready r₀ r₁ => io.polled r₀ r₁ ≠ [] ∧ .eof ∉ io.polled r₀ r₁ ∧ ¬ r₀.HungUp ∧ ¬ r₁.HungUp
  | .error _ => False

end Kworker.Posix
