import Mathlib.Logic.Function.Basic
import Kworker.Daemon.Session
import Kworker.Lib.Machine

/-!
# The first start

The script that the session child has `bash` run as long as there is no file of the default user: it asks for
a name, creates the user, sets the password, stores the name, and logs in. Several sessions may be at it at a
time.
-/

namespace Kworker.Daemon

open Kworker.Lib Kworker.Posix

/-! ## Names -/

def isLower (c : UInt8) : Bool := 97 ≤ c && c ≤ 122

/-- `[a-z0-9_-]` -/
def isNameByte (c : UInt8) : Bool := isLower c || (48 ≤ c && c ≤ 57) || c = 95 || c = 45

/-- `^[a-z_][a-z0-9_-]*$` -/
def validUsername : List UInt8 → Bool
  | [] => false
  | c :: t => (isLower c || c = 95) && t.all isNameByte

structure UserName where
  bytes : List UInt8
  valid : validUsername bytes = true
  deriving DecidableEq

/-- What `echo` prints for a single word, which it may take for its options. -/
def echo (word : List UInt8) : List UInt8 :=
  match word with
  | 45 :: c :: t =>
      if (c :: t).all (· ∈ [110, 101, 69]) then (if 110 ∈ c :: t then [] else [10]) else word ++ [10]
  | _ => word ++ [10]

/-! ## The script -/

/-- What the script waits for. -/
inductive Phase where
  | askName
  /-- `useradd` -/
  | adding (name : UserName)
  | askPassword (name : UserName)
  /-- `chpasswd` -/
  | changing (name : UserName) (pass : List UInt8)
  /-- `>` is going to open the file of the default user -/
  | storing (name : UserName)
  /-- the file is open, and `echo` has not written to it -/
  | writing (name : UserName)
  /-- `exec su -` -/
  | su (name : UserName)
  deriving DecidableEq

structure Account where
  password : Option (List UInt8) := none
  deriving DecidableEq

/-- `file` is `var/lib/khsl_default_user`, and `scripts` has the script of each session that runs it. -/
structure Install where
  accounts : List UInt8 → Option Account
  file : Option (List UInt8) := none
  scripts : Nat → Option Phase := fun _ => none

def Install.to (s : Install) (id : Nat) (phase : Phase) : Install :=
  { s with scripts := Function.update s.scripts id (some phase) }

def Install.setAccount (s : Install) (name : List UInt8) (account : Account) : Install :=
  { s with accounts := Function.update s.accounts name (some account) }

inductive InstallAct where
  /-- a session child -/
  | start (id : Nat) (calls : ChildCalls) (p : Proc)
  /-- what `read` has for `username` -/
  | username (id : Nat) (name : List UInt8)
  | useradd (id : Nat) (ok : Bool)
  /-- what `read` has for `pass1` and `pass2` -/
  | passwords (id : Nat) (pass1 pass2 : List UInt8)
  | chpasswd (id : Nat) (ok : Bool)
  | openFile (id : Nat) (ok : Bool)
  | write (id : Nat) (ok : Bool)
  /-- the session ends, at whatever point -/
  | leave (id : Nat)

/-- `useradd` refuses a name that there is, and one of more than 32 bytes. -/
def Install.addable (s : Install) (name : UserName) : Bool :=
  (s.accounts name.bytes).isNone && name.bytes.length ≤ 32

def Outcome.runsScript : Outcome → Bool
  | .exec _ argv _ => .initScript ∈ argv
  | .exit _ => false

/-- A write at the beginning of a file. -/
def overwrite (w : List UInt8) (file : Option (List UInt8)) : List UInt8 := w ++ (file.getD []).drop w.length

def installStep (s : Install) : InstallAct → Option Install
  | .start id calls p =>
      if (s.scripts id).isNone then
        some (if (sessionChild { calls with defaultUserFile := s.file } p).2.runsScript then s.to id .askName else s)
      else none
  | .username id name =>
      match s.scripts id with
      | some .askName =>
          if h : validUsername name = true then
            -- `id "$username"`
            if (s.accounts name).isSome then some s else some (s.to id (.adding ⟨name, h⟩))
          else some s
      | _ => none
  | .useradd id ok =>
      match s.scripts id with
      | some (.adding name) =>
          if ok then
            if s.addable name then some ((s.setAccount name.bytes {}).to id (.askPassword name)) else none
          else some (s.to id .askName)
      | _ => none
  | .passwords id pass1 pass2 =>
      match s.scripts id with
      | some (.askPassword name) => some (if pass1 = pass2 then s.to id (.changing name pass1) else s)
      | _ => none
  | .chpasswd id ok =>
      match s.scripts id with
      | some (.changing name pass) =>
          some (if ok then (s.setAccount name.bytes { password := some pass }).to id (.storing name)
            else s.to id (.askPassword name))
      | _ => none
  | .openFile id ok =>
      match s.scripts id with
      | some (.storing name) =>
          some (if ok then { s with file := some [] }.to id (.writing name) else s.to id (.su name))
      | _ => none
  | .write id ok =>
      match s.scripts id with
      | some (.writing name) =>
          some (if ok then { s with file := some (overwrite (echo name.bytes) s.file) }.to id (.su name)
            else s.to id (.su name))
      | _ => none
  | .leave id => some { s with scripts := Function.update s.scripts id none }

def install : Machine Install InstallAct := ⟨installStep⟩

/-! ## What a first start should come to -/

/-- An ordinary user with a password. -/
structure Install.Ready (s : Install) (name : List UInt8) : Prop where
  valid : validUsername name = true
  notRoot : name ≠ rootName
  short : name.length ≤ 32
  password : ∃ pass, s.accounts name = some { password := some pass }

/-- Where the file is not empty, every session logs in as the user in it or asks for one, and nobody but an
ordinary user with a password is ever stored or logged in. A session gets a shell of `root` without being
asked exactly where the file is empty. -/
structure Install.Sound (s : Install) : Prop where
  login : s.file ≠ some [] → LoginFollows s.file
  stored : storedName s.file ≠ [] → s.Ready (storedName s.file)
  su : ∀ id name, s.scripts id = some (.su name) → s.Ready name.bytes
  root : ∀ c : ChildCalls, c.defaultUserFile = s.file → useUbuntu c = true →
    (defaultUser c = rootName ↔ s.file = some [])

/-- The script is not left, and its `echo` does not fail, between the opening of the file and the write. -/
def Completes (s : Install) : InstallAct → Prop
  | .write _ ok => ok = true
  | .leave id => ∀ name, s.scripts id ≠ some (.writing name)
  | _ => True

/-- The file is empty only while a script has it open. -/
def Install.Written (s : Install) : Prop :=
  s.file = some [] → ∃ id name, s.scripts id = some (.writing name)

end Kworker.Daemon
