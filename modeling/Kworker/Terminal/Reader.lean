import Kworker.Lib.Machine
import Kworker.Lib.Utf8

/-!
# The output of a session

`ReadThreadWorker` and `CallJs` of `napi_init.cpp`: the reader thread puts what it reads into the queue
of the thread-safe function, and the JavaScript thread takes it out again.
-/

namespace Kworker.Terminal

open Kworker.Lib

structure PtyData where
  session_id : Int
  buffer : List UInt8
  deriving DecidableEq, Repr

def kTsfnQueueSize : Nat := 2048

/-- `sizeof(buffer)` in `ReadThreadWorker` -/
def readBufferSize : Nat := 4096

/-- `napi_call_threadsafe_function` with `napi_tsfn_nonblocking`; `none` is `napi_queue_full`. -/
def callThreadsafeFunction (queue : List PtyData) (data : PtyData) : Option (List PtyData) :=
  if queue.length < kTsfnQueueSize then some (queue ++ [data]) else none

/-- The arguments that the callback gets. -/
def callJs (D : Utf8Decoder) (data : PtyData) : Int × List Char := (data.session_id, D.decode data.buffer)

/-- A running session: what was read from `master_fd`, what waits in the queue and what was delivered. -/
structure Reader where
  session_id : Int
  /-- the loop of the thread has not been left -/
  looping : Bool := true
  read : List (List UInt8) := []
  queue : List PtyData := []
  delivered : List PtyData := []
  deriving DecidableEq, Repr

inductive ReaderAct where
  | read (bytes : List UInt8)
  /-- `read` returns 0 or an error -/
  | readFails
  /-- the JavaScript thread takes an entry out of the queue -/
  | dequeue
  deriving DecidableEq, Repr

def readerStep (r : Reader) : ReaderAct → Option Reader
  | .read bytes =>
      if r.looping ∧ bytes ≠ [] ∧ bytes.length ≤ readBufferSize then
        let data : PtyData := { session_id := r.session_id, buffer := bytes }
        some { r with
          read := r.read ++ [bytes]
          -- what the queue refuses is deleted
          queue := (callThreadsafeFunction r.queue data).getD r.queue }
      else none
  | .readFails => if r.looping then some { r with looping := false } else none
  | .dequeue =>
      match r.queue with
      | [] => none
      | data :: queue => some { r with queue, delivered := r.delivered ++ [data] }

def reader : Machine Reader ReaderAct := ⟨readerStep⟩

/-- The text that the callback has been given. -/
def Reader.text (D : Utf8Decoder) (r : Reader) : List Char := r.delivered.flatMap fun data => (callJs D data).2

/-- What was delivered is a prefix of what was read, and the rest is still in the queue. -/
def Reader.InOrder (r : Reader) : Prop :=
  r.delivered.map (·.buffer) <+: r.read ∧ (r.delivered ++ r.queue).map (·.buffer) = r.read

def HasRoom (r : Reader) (a : ReaderAct) : Prop := ∀ bytes, a = .read bytes → r.queue.length < kTsfnQueueSize

end Kworker.Terminal
