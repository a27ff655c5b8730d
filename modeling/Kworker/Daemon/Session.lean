import Kworker.Lib.Env
import Kworker.Posix.Cred

/-!
# The session child of the daemon

What the child of `forkpty` does in `kh_term_daemon/main.cpp`: it looks for the Ubuntu root, enters it
or falls back to the host, gives up its privileges there, and executes a shell.
-/

namespace Kworker.Daemon

open Kworker.Lib Kworker.Posix

/-! ## The service -/

/-- `"gid"` of `kh_term_daemon.cfg`. -/
def serviceGroups : List String := ["root", "shell", "log", "readproc"]

def serviceCred (gidOf : String → Nat) : Cred where
  ruid := 0
  euid := 0
  suid := 0
  rgid := gidOf "root"
  egid := gidOf "root"
  sgid := gidOf "root"
  groups := serviceGroups.map gidOf

/-! ## The calls of the child -/

inductive Root where
  | host
  | rootfs
  deriving DecidableEq, Repr

/-- What the calls come back with, in the order in which they are made. -/
structure ChildCalls where
  /-- `st_dev` of the two directories, `none` where `stat` fails -/
  rootfsDev : Option Nat := none
  parentDev : Option Nat := none
  /-- `access(img_path, F_OK) == 0` -/
  img : Bool := false
  mountStatus : Int := 0
  /-- the second `stat`: whether it is a directory -/
  rootfsIsDir : Option Bool := none
  /-- `access(path, X_OK) == 0` below the rootfs -/
  executable : String → Bool := fun _ => false
  /-- the bytes of `var/lib/khsl_default_user`, `none` where `fopen` fails -/
  defaultUserFile : Option (List UInt8) := none
  unshareOk : Bool := false
  procOk : Bool := false
  chrootOk : Bool := false
  setgidOk : Bool := false
  setuidOk : Bool := false
  setgroupsOk : Bool := false
  hostname : Option String := none
  cwd : Option String := none
  execOk : Root → String → Bool := fun _ _ => false

inductive MountCall where
  | system (command : String)
  | unshareMounts
  | makePrivate
  | mountProc
  | bind (source : String)
  | chroot
  | chdirRoot
  deriving DecidableEq, Repr

inductive Arg where
  | text (s : String)
  | user (name : List UInt8)
  /-- the script that asks for a user name and a password at the first start -/
  | initScript
  deriving DecidableEq, Repr

structure Proc where
  cred : Cred
  root : Root := .host
  env : Env := Env.empty

def Proc.setenv (p : Proc) (name value : String) : Proc := { p with env := p.env.set name value }

inductive Outcome where
  | exec (path : String) (argv : List Arg) (p : Proc)
  | exit (status : Int)

/-! ## The Ubuntu root -/

def directMount : String :=
  "mount -t ext4 -o loop /data/khsl/ubuntu-22.04-arm64.img /data/khsl/rootfs"

def manualLosetup : String :=
  "for i in 0 1 2 3 4 5 6 7 8 9; do if ! losetup /dev/block/loop$i >/dev/null 2>&1; then " ++
  "mknod /dev/block/loop$i b 7 $i 2>/dev/null; " ++
  "losetup /dev/block/loop$i /data/khsl/ubuntu-22.04-arm64.img && " ++
  "mount -t ext4 /dev/block/loop$i /data/khsl/rootfs && break; fi; done"

def mountImage (c : ChildCalls) : List MountCall :=
  if c.rootfsDev.isSome ∧ c.rootfsDev = c.parentDev ∧ c.img then
    .system directMount :: if c.mountStatus ≠ 0 then [.system manualLosetup] else []
  else []

def rootfsShells : List String := ["/bin/bash", "/bin/sh", "/usr/bin/bash", "/usr/bin/sh"]

/-- `use_ubuntu` before the mounts. -/
def findUbuntu (c : ChildCalls) : Bool :=
  c.rootfsIsDir = some true && rootfsShells.any c.executable

/-- A `char` array up to its first 0. -/
def cString (bs : List UInt8) : List UInt8 := bs.takeWhile (· ≠ 0)

/-- `fgets` into an array of `size`, `none` at the end of the file. -/
def fgets (size : Nat) (content : List UInt8) : Option (List UInt8) :=
  if content = [] then none
  else
    let line := content.takeWhile (· ≠ 10)
    some ((if line.length < content.length then line ++ [10] else line).take (size - 1))

def defaultUser (c : ChildCalls) : List UInt8 :=
  let root : List UInt8 := [0x72, 0x6f, 0x6f, 0x74]
  if findUbuntu c then
    match c.defaultUserFile with
    | none => []
    | some content =>
        match fgets 256 content with
        | none => root
        | some line => (cString line).takeWhile fun b => b ≠ 13 ∧ b ≠ 10
  else root

def enterUbuntu (c : ChildCalls) (p : Proc) : List MountCall × Proc :=
  let mounts := [.unshareMounts] ++ (if c.unshareOk then [.makePrivate] else []) ++ [.mountProc] ++
    (if c.procOk then [] else [.bind "/proc"]) ++ [.bind "/sys", .bind "/dev", .bind "/dev/pts", .chroot]
  if c.chrootOk then (mounts ++ [.chdirRoot], { p with root := .rootfs }) else (mounts, p)

/-- `use_ubuntu` after the mounts: a failing `chroot` falls back to the host. -/
def useUbuntu (c : ChildCalls) : Bool := findUbuntu c && c.chrootOk

/-! ## Privileges, environment and shell -/

def shellId : Nat := 8876

/-- `if (setgid(8876) != 0 || setuid(8876) != 0) … else (void)setgroups(0, nullptr)` -/
def dropPrivileges (c : ChildCalls) (cred : Cred) : Cred :=
  match setgid c.setgidOk shellId cred with
  | none => cred
  | some cred =>
      match setuid c.setuidOk shellId cred with
      | none => cred
      | some cred => (setgroups c.setgroupsOk [] cred).getD cred

def child_set_prompt (c : ChildCalls) (p : Proc) : Proc :=
  let hn := c.hostname.getD "host"
  let cwd := c.cwd.getD "/"
  let who := if p.cred.euid = 0 then "root" else "user"
  let pch := if p.cred.euid = 0 then "#" else "$"
  let no_color := p.env "TERM" = some "dumb" ∨ (p.env.given "NO_COLOR").isSome
  let ps1 :=
    if no_color then who ++ "@" ++ hn ++ ":" ++ cwd ++ pch ++ " "
    else "\x1b[01;32m" ++ who ++ "@" ++ hn ++ "\x1b[00m:\x1b[01;34m" ++ cwd ++ "\x1b[00m" ++ pch ++ " "
  -- `char ps1[576]`
  p.setenv "PS1" (String.ofList (ps1.toList.take 575))

def login (user : List UInt8) : List (String × List Arg) :=
  if user = [] then
    [("/bin/bash", [.text "bash", .text "-c", .initScript]),
      ("/usr/bin/bash", [.text "bash", .text "-c", .initScript])]
  else if user ≠ [0x72, 0x6f, 0x6f, 0x74] then
    [("/bin/su", [.text "su", .text "-", .user user]),
      ("/usr/bin/su", [.text "su", .text "-", .user user])]
  else
    [("/bin/bash", [.text "bash", .text "-l"]), ("/usr/bin/bash", [.text "bash", .text "-l"]),
      ("/bin/sh", [.text "sh", .text "-l"]), ("/usr/bin/sh", [.text "sh", .text "-l"])]

def hostShell : List (String × List Arg) :=
  [("/system/bin/sh", [.text "sh", .text "-i"]), ("/bin/sh", [.text "sh", .text "-i"])]

/-- `execl` one after the other: a call that succeeds does not return. -/
def execFirst (c : ChildCalls) (p : Proc) : List (String × List Arg) → Outcome
  | [] => .exit 127
  | (path, argv) :: rest => if c.execOk p.root path then .exec path argv p else execFirst c p rest

/-- The child from the search for the Ubuntu root to its end. -/
def sessionChild (c : ChildCalls) (p : Proc) : List MountCall × Outcome :=
  let (mounts, p) := if findUbuntu c then enterUbuntu c p else ([], p)
  let p := if useUbuntu c then p else { p with cred := dropPrivileges c p.cred }
  let p := p.setenv "HOME" (if useUbuntu c then "/root" else "/")
  let p := ((p.setenv "USER" "root").setenv "LOGNAME" "root").setenv "TERM" "xterm-256color"
  let outcome :=
    if useUbuntu c then
      execFirst c (p.setenv "PATH" "/usr/local/sbin:/usr/local/bin:/usr/sbin:/usr/bin:/sbin:/bin")
        (login (defaultUser c))
    else
      execFirst c (child_set_prompt c (p.setenv "PATH" "/system/bin:/bin:/usr/bin:/vendor/bin"))
        hostShell
  (mountImage c ++ mounts, outcome)

/-! ## What the child should do -/

/-- The child ends up on the host: the rootfs is missing, has no shell, or `chroot` fails. -/
def ChildCalls.HostPath (c : ChildCalls) : Prop :=
  c.rootfsIsDir ≠ some true ∨ (∀ path ∈ rootfsShells, c.executable path = false) ∨ c.chrootOk = false

instance (c : ChildCalls) : Decidable c.HostPath := inferInstanceAs (Decidable (_ ∨ _))

/-- A program is executed with the ids of the shell and no supplementary groups, or none is. -/
def Outcome.Confined : Outcome → Prop
  | .exec _ _ p => p.cred.Are shellId shellId []
  | .exit _ => True

/-- The first line of the file of the default user, up to CR or LF. -/
def storedName (file : Option (List UInt8)) : List UInt8 :=
  (file.getD []).takeWhile fun b => b ≠ 13 ∧ b ≠ 10

def rootName : List UInt8 := [0x72, 0x6f, 0x6f, 0x74]

/-- The program logs in as the stored user, as `root` without asking, or has a first user created. -/
structure LogsIn (name : List UInt8) (argv : List Arg) : Prop where
  initScript : .initScript ∈ argv ↔ name = []
  su : ∀ user, .user user ∈ argv ↔ user = name ∧ name ≠ [] ∧ name ≠ rootName
  loginShell : .text "-l" ∈ argv ↔ name = rootName

/-- What the login of `name` needs. -/
def loginProgram (name : List UInt8) : String := if name = [] ∨ name = rootName then "bash" else "su"

/-- The child gives up only where the program for this name cannot be executed. -/
def Outcome.LogsIn (c : ChildCalls) (name : List UInt8) : Outcome → Prop
  | .exec _ argv p => p.root = .rootfs ∧ Daemon.LogsIn name argv
  | .exit _ => ∀ dir ∈ ["/bin/", "/usr/bin/"], c.execOk .rootfs (dir ++ loginProgram name) = false

/-- Whatever the calls come back with, a child that has entered the Ubuntu root does as the file says. -/
def LoginFollows (file : Option (List UInt8)) : Prop :=
  ∀ (c : ChildCalls) (p : Proc), c.defaultUserFile = file → useUbuntu c = true →
    (sessionChild c p).2.LogsIn c (storedName file)

/-- The stored name fits into `default_user` and has no 0, and there is something to read. -/
def NameFits (file : Option (List UInt8)) : Prop :=
  file ≠ some [] ∧ (storedName file).length ≤ 255 ∧ 0 ∉ storedName file

instance (file : Option (List UInt8)) : Decidable (NameFits file) := inferInstanceAs (Decidable (_ ∧ _))

end Kworker.Daemon
