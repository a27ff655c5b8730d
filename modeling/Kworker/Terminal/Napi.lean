import Kworker.Posix.Io

/-!
# The native module of the terminal: sessions on the daemon

`StartPty` with the profile `daemon` and `WritePty`, of `napi_init.cpp`. The calls they make on the
socket are listed in order.
-/

namespace Kworker.Terminal

open Kworker.Posix

structure PtySession where
  id : Int
  master_fd : Int
  child_pid : Int := -1
  daemon_mode : Bool
  running : Bool := false
  deriving DecidableEq, Repr

/-- The module's global variables; `g_sessions` lists the entries of the map. -/
structure Globals where
  g_next_session_id : Int := 1
  g_sessions : List (Int × PtySession) := []
  g_last_pty_diag : String := ""

inductive SockCall where
  | connect (fd : Int)
  | close (fd : Int)
  | write (fd : Int) (bytes : List UInt8)
  deriving DecidableEq, Repr

structure DaemonCalls where
  socket : Except Errno Nat
  connect : Except Errno Unit
  tsfn : Int

def napi_ok : Int := 0

/-- `g_sessions[id] = session` -/
def Globals.insert (g : Globals) (id : Int) (s : PtySession) : Globals :=
  { g with g_sessions := (id, s) :: g.g_sessions.filter (·.1 ≠ id) }

def errnoText (strerror : Errno → String) (call : String) (e : Errno) : String :=
  call ++ " errno=" ++ toString e ++ " " ++ strerror e

/-- `StartPty` for the profile `daemon`: the returned id, the globals and the calls on the socket. -/
def startPtyDaemon (strerror : Errno → String) (c : DaemonCalls) (g : Globals) :
    Int × Globals × List SockCall :=
  let new_id := g.g_next_session_id
  let g := { g with g_last_pty_diag := "", g_next_session_id := new_id + 1 }
  match c.socket with
  | .error e => (-1, { g with g_last_pty_diag := errnoText strerror "daemon socket()" e }, [])
  | .ok sock =>
      match c.connect with
      | .error e => (-1, { g with g_last_pty_diag := errnoText strerror "daemon connect" e },
          [.connect sock, .close sock])
      | .ok () =>
          if c.tsfn ≠ napi_ok then
            (-1, { g with g_last_pty_diag :=
                "napi_create_threadsafe_function status=" ++ toString c.tsfn },
              [.connect sock, .close sock])
          else
            let session := { id := new_id, master_fd := sock, daemon_mode := true, running := true }
            (new_id, { g.insert new_id session with g_last_pty_diag := "ok" }, [.connect sock])

def findSession (g : Globals) (id : Int) : Option PtySession :=
  (g.g_sessions.find? (·.1 = id)).map (·.2)

/-- `WritePty(data, sessionId)`, `data` being the UTF-8 bytes of the string. -/
def writePty (g : Globals) (data : List UInt8) (session_id : Int) : List SockCall :=
  match findSession g session_id with
  | none => []
  | some s => if s.master_fd < 0 then [] else [.write s.master_fd data]

/-- What the calls put into the stream of `fd`, each write being complete. -/
def streamed (fd : Int) (calls : List SockCall) : List UInt8 :=
  calls.flatMap fun
    | .write fd' bytes => if fd' = fd then bytes else []
    | _ => []

end Kworker.Terminal
