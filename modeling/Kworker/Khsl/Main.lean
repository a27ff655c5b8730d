import Kworker.Lib.Env
import Kworker.Posix.Cred

/-!
# The khsl command

`main` of `khsl/main.c` with the functions it calls: the command line, the change of the user, the
environment, and the program that is run at the end. The welcome text is left out.
-/

namespace Kworker.Khsl

open Kworker.Lib Kworker.Posix

/-! ## The command line -/

inductive RunMode where
  | interactive
  | exec
  deriving DecidableEq, Repr

structure Opts where
  want_help : Bool := false
  want_version : Bool := false
  user_override : Option String := none
  cd_override : Option String := none
  run_mode : RunMode := .interactive
  exec_argv : List String := []
  deriving DecidableEq, Repr

def help_wants_zh (env : Env) : Bool :=
  match env.given "KHSL_HELP" with
  | none => false
  | some ov => ov.toLower ∈ ["zh", "zh_cn", "chs"]

def khsl_t (env : Env) (en zh : String) : String := if help_wants_zh env then zh else en

def managementArgs : List String :=
  ["--install", "--shutdown", "--status", "--update", "--rollback", "--inbox", "--web-download",
    "--export", "--import", "--list", "--quiet", "--verbose", "--online", "--set-default",
    "--set-version", "--terminate", "--unregister", "--distribution", "--set-default-version",
    "--all", "--running", "-d", "-l", "-q", "-v", "-o", "-t", "-s"]

def management_arg_known_unimplemented (a : String) : Bool := a ∈ managementArgs

/-- `parse_args` over the words after `argv[0]`. An error is the return value and the text printed. -/
def parse_args (env : Env) : List String → Opts → Except (Int × String) Opts
  | [], opts => .ok opts
  | a :: rest, opts =>
      if a = "--help" ∨ a = "-h" then parse_args env rest { opts with want_help := true }
      else if a = "--version" then parse_args env rest { opts with want_version := true }
      else if a = "--user" ∨ a = "-u" then
        match rest with
        | [] => .error (2, khsl_t env "khsl: -u/--user requires <UserName>\n"
            "khsl: 选项 -u/--user 需要参数 <UserName>\n")
        | x :: rest => parse_args env rest { opts with user_override := some x }
      else if a = "--cd" then
        match rest with
        | [] => .error (2, khsl_t env "khsl: --cd requires a directory argument\n"
            "khsl: 选项 --cd 需要目录参数\n")
        | x :: rest => parse_args env rest { opts with cd_override := some x }
      else if a = "-e" ∨ a = "--exec" then
        if rest = [] then .error (2, khsl_t env "khsl: -e/--exec requires a command\n"
          "khsl: 选项 -e/--exec 需要命令\n")
        else .ok { opts with run_mode := .exec, exec_argv := rest }
      else if a = "--" then
        if rest = [] then .error (2, khsl_t env "khsl: nothing after '--'; need a command word\n"
          "khsl: 选项 -- 后需要至少一个命令参数\n")
        else .ok { opts with run_mode := .exec, exec_argv := rest }
      else if a.toList.head? = some '-' then
        if management_arg_known_unimplemented a then
          .error (2, khsl_t env
            ("khsl: \"" ++ a ++ "\" is a WSL-style management flag (not implemented).\n" ++
              "    Try khsl --help. Examples: khsl -e ls -la  or  khsl ls -la\n")
            ("khsl: \"" ++ a ++ "\" 与 WSL 管理类参数对应，KHSL 当前版本尚未实现。\n" ++
              "    请使用 khsl --help 查看已实现项；运行命令请使用 -e/--exec 或 " ++
              "khsl <命令> [参数...]。\n"))
        else .error (2, khsl_t env ("khsl: unknown option \"" ++ a ++ "\". Try khsl --help.\n")
          ("khsl: 未知选项 \"" ++ a ++ "\"。请运行 khsl --help。\n"))
      -- the first word that is not an option begins the command
      else .ok { opts with run_mode := .exec, exec_argv := a :: rest }

/-! ## The calls -/

structure Passwd where
  pw_name : String
  pw_uid : Nat
  pw_gid : Nat
  pw_dir : Option String := none
  pw_shell : Option String := none
  deriving DecidableEq, Repr

structure Calls where
  getpwnam : String → Option Passwd := fun _ => none
  getpwuid : Nat → Option Passwd := fun _ => none
  /-- the groups that `initgroups` takes from the group database -/
  grouplist : String → Nat → List Nat := fun _ gid => [gid]
  initgroupsOk : Bool := true
  setgidOk : Bool := true
  setuidOk : Bool := true
  /-- the text for the `errno` that the named call has left -/
  strerror : String → String := fun _ => ""
  chdirOk : String → Bool := fun _ => true
  hostname : Option String := none
  nodename : Option String := none
  cwd : Option String := none
  socketOk : Bool := true
  connectOk : Bool := false
  execOk : String → Bool := fun _ => true

/-! ## The user -/

def apply_user_cli_override (opts : Opts) (env : Env) : Env :=
  match opts.user_override with
  | none => env
  | some user => if user = "" then env else env.set "KHSL_USER" user

/-- The return value, `*out_pw`, the credentials afterwards and what has been printed. -/
structure Drop where
  rc : Int
  out_pw : Option Passwd
  cred : Cred
  stderr : List String := []

/-- The text for a user that is in no passwd entry. -/
def passwdNotFound (env : Env) (user : String) : String :=
  khsl_t env
    ("[khsl] passwd user \"" ++ user ++ "\" not found; staying as root.\n" ++
      "       Set KHSL_USER or use -u <UserName>.\n")
    ("[khsl] passwd 用户 \"" ++ user ++ "\" 不存在：保持当前(root)权限。" ++
      "可设置 KHSL_USER 或使用 -u <UserName>。\n")

def try_drop_privileges (c : Calls) (env : Env) (cred : Cred) : Drop :=
  if cred.ruid ≠ 0 ∧ cred.euid ≠ 0 then { rc := 0, out_pw := c.getpwuid cred.ruid, cred }
  else
    let user := (env.given "KHSL_USER").getD "shell"
    match c.getpwnam user with
    | none => { rc := -1, out_pw := none, cred, stderr := [passwdNotFound env user] }
    | some pw =>
        match setgroups c.initgroupsOk (c.grouplist pw.pw_name pw.pw_gid) cred with
        | none => { rc := -1, out_pw := none, cred
                    stderr := ["[khsl] initgroups: " ++ c.strerror "initgroups" ++ "\n"] }
        | some cred =>
            match setgid c.setgidOk pw.pw_gid cred with
            | none => { rc := -1, out_pw := none, cred
                        stderr := ["[khsl] setgid: " ++ c.strerror "setgid" ++ "\n"] }
            | some cred =>
                match setuid c.setuidOk pw.pw_uid cred with
                | none => { rc := -1, out_pw := none, cred
                            stderr := ["[khsl] setuid: " ++ c.strerror "setuid" ++
                              khsl_t env " (still root)" "（仍保持 root）" ++ "\n"] }
                | some cred => { rc := 0, out_pw := some pw, cred }

/-! ## Environment and working directory -/

def setNonempty (env : Env) (name : String) : Option String → Env
  | none => env
  | some v => if v = "" then env else env.set name v

def apply_env_from_passwd (pw : Option Passwd) (env : Env) : Env :=
  let env := match pw with
    | none => env
    | some pw =>
        let env := setNonempty env "HOME" pw.pw_dir
        let env := (env.set "USER" pw.pw_name).set "LOGNAME" pw.pw_name
        setNonempty env "SHELL" pw.pw_shell
  let env := env.set "TERM" ((env.given "TERM").getD "xterm-256color")
  (env.set "PATH" "/system/bin:/vendor/bin:/bin:/usr/bin").set "KHSL" "1"

/-- The directory that `--cd` leads to, `none` if its path is too long. -/
def cdTarget (env : Env) (dir : String) : Option String :=
  let home := (env.given "HOME").getD "/"
  match dir.toList with
  | ['~'] => some home
  | '~' :: '/' :: suf =>
      let suf := String.ofList ('/' :: suf)
      if home.utf8ByteSize + suf.utf8ByteSize + 1 ≥ 1024 then none else some (home ++ suf)
  | _ => some dir

def apply_cd_override (c : Calls) (env : Env) : Option String → Int
  | none => 0
  | some dir =>
      if dir = "" then 0
      else match cdTarget env dir with
        | none => -1
        | some path => if c.chdirOk path then 0 else -1

def khsl_export_ps1 (c : Calls) (cred : Cred) (env : Env) : Env :=
  let log := ((env.given "LOGNAME").or (env.given "USER")).getD "?"
  let hn := (c.hostname.or (c.nodename.map fun s => String.ofList (s.toList.take 63))).getD "host"
  let cwd := c.cwd.getD "/"
  let pch := if cred.euid = 0 then "#" else "$"
  let no_color := env "TERM" = some "dumb" ∨ (env.given "NO_COLOR").isSome ∨
    (env "KHSL_NO_COLOR").isSome
  let ps1 :=
    if no_color then "KHSL " ++ log ++ "@khsl-" ++ hn ++ ":" ++ cwd ++ pch ++ " "
    else "\x1b[01;32m" ++ log ++ "@khsl-" ++ hn ++ "\x1b[00m:\x1b[01;34m" ++ cwd ++ "\x1b[00m" ++
      pch ++ " "
  -- `char ps1[576]`
  env.set "PS1" (String.ofList (ps1.toList.take 575))

/-! ## The program -/

inductive Launch where
  | execvp (argv : List String)
  | daemon
  | sh (path : String)
  deriving DecidableEq, Repr

structure Reached where
  launch : Launch
  cred : Cred
  env : Env

/-- `status` is `none` when khsl has become another program. -/
structure Run where
  stderr : List String := []
  reached : List Reached := []
  status : Option Int

def runExec (c : Calls) (argv : List String) (cred : Cred) (env : Env) : Run :=
  match argv with
  | [] => { stderr := [khsl_t env "khsl: no command to execute\n" "khsl: 无可执行命令\n"]
            status := some 2 }
  | file :: _ =>
      if c.execOk file then { reached := [⟨.execvp argv, cred, env⟩], status := none }
      else { stderr := ["[khsl] exec " ++ file ++ ": " ++ c.strerror "execvp" ++ "\n"]
             reached := [⟨.execvp argv, cred, env⟩], status := some 127 }

def runInteractive (c : Calls) (cred : Cred) (env : Env) : Run :=
  if c.socketOk ∧ c.connectOk then { reached := [⟨.daemon, cred, env⟩], status := some 0 }
  else if c.execOk "/system/bin/sh" then
    { reached := [⟨.sh "/system/bin/sh", cred, env⟩], status := none }
  else
    { stderr := if c.execOk "/bin/sh" then [] else ["[khsl] exec sh: " ++ c.strerror "execl" ++ "\n"]
      reached := [⟨.sh "/system/bin/sh", cred, env⟩, ⟨.sh "/bin/sh", cred, env⟩]
      status := if c.execOk "/bin/sh" then none else some 127 }

def homeOfRoot (drop : Drop) (env : Env) : Env :=
  if drop.out_pw = none ∧ (drop.cred.ruid = 0 ∨ drop.cred.euid = 0) then
    env.set "HOME" ((env.given "HOME").getD "/")
  else env

def runAs (c : Calls) (opts : Opts) (env : Env) (cred : Cred) : Run :=
  let env := apply_user_cli_override opts env
  -- `(void)try_drop_privileges(&pw)`
  let drop := try_drop_privileges c env cred
  let env := apply_env_from_passwd drop.out_pw (homeOfRoot drop env)
  if apply_cd_override c env opts.cd_override ≠ 0 then
    { stderr := drop.stderr ++
        ["[khsl] --cd \"" ++ opts.cd_override.getD "" ++ "\": " ++ c.strerror "chdir" ++ "\n"]
      status := some 1 }
  else
    let env := khsl_export_ps1 c drop.cred env
    let r := match opts.run_mode with
      | .exec => runExec c opts.exec_argv drop.cred env
      | .interactive => runInteractive c drop.cred env
    { r with stderr := drop.stderr ++ r.stderr }

/-- `main` over the words after `argv[0]`. -/
def main (c : Calls) (args : List String) (env : Env) (cred : Cred) : Run :=
  match parse_args env args {} with
  | .error (rc, msg) => { stderr := [msg], status := some rc }
  | .ok opts => if opts.want_help ∨ opts.want_version then { status := some 0 } else runAs c opts env cred

/-! ## What the change of the user should do -/

/-- The user that is asked for: `-u`, or else `KHSL_USER`, or else `shell`. -/
def requestedUser (opts : Opts) (env : Env) : String :=
  ((opts.user_override.filter (· ≠ "")).or (env.given "KHSL_USER")).getD "shell"

/-- The user exists and every call that changes the credentials succeeds. -/
def SwitchSucceeds (c : Calls) (user : String) (cred : Cred) : Prop :=
  (∃ pw, c.getpwnam user = some pw) ∧ cred.privileged = true ∧ c.initgroupsOk = true ∧
    c.setgidOk = true ∧ c.setuidOk = true

/-- What the steps before the one that fails have made of `cred`. -/
def credBeforeFailure (c : Calls) (user : String) (cred : Cred) : Cred :=
  match c.getpwnam user with
  | none => cred
  | some pw =>
      if cred.privileged = false ∨ c.initgroupsOk = false then cred
      else
        let cred := { cred with groups := c.grouplist pw.pw_name pw.pw_gid }
        if c.setgidOk = false then cred
        else { cred with rgid := pw.pw_gid, egid := pw.pw_gid, sgid := pw.pw_gid }

/-- The text about the step that fails. -/
def failureMessage (c : Calls) (env : Env) (user : String) (cred : Cred) : String :=
  match c.getpwnam user with
  | none => passwdNotFound env user
  | some _ =>
      if cred.privileged = false ∨ c.initgroupsOk = false then "[khsl] initgroups: " ++ c.strerror "initgroups" ++ "\n"
      else if c.setgidOk = false then "[khsl] setgid: " ++ c.strerror "setgid" ++ "\n"
      else "[khsl] setuid: " ++ c.strerror "setuid" ++ khsl_t env " (still root)" "（仍保持 root）" ++ "\n"

end Kworker.Khsl
