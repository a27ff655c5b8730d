import Kworker.Khsl.Main

/-!
# The grammar of the command line

What the words after `argv[0]` mean: options, then a command or nothing.
-/

namespace Kworker.Khsl

inductive CliOption where
  | help (long : Bool)
  | version
  | user (long : Bool) (x : String)
  | cd (x : String)
  deriving DecidableEq, Repr

def CliOption.words : CliOption → List String
  | .help long => [if long then "--help" else "-h"]
  | .version => ["--version"]
  | .user long x => [if long then "--user" else "-u", x]
  | .cd x => ["--cd", x]

def CliOption.isHelp : CliOption → Bool
  | .help _ => true
  | _ => false

def CliOption.isVersion : CliOption → Bool
  | .version => true
  | _ => false

def CliOption.user? : CliOption → Option String
  | .user _ x => some x
  | _ => none

def CliOption.cd? : CliOption → Option String
  | .cd x => some x
  | _ => none

inductive Separator where
  | e
  | exec
  | dashes
  deriving DecidableEq, Repr

def Separator.word : Separator → String
  | .e => "-e"
  | .exec => "--exec"
  | .dashes => "--"

def startsWithDash (a : String) : Bool := a.toList.head? = some '-'

/-- What follows the options. Without a separator the command is a word that does not start with `-`. -/
inductive Tail where
  | nothing
  | after (separator : Separator) (command : String) (args : List String)
  | bare (command : String) (args : List String) (h : startsWithDash command = false)
  deriving DecidableEq, Repr

def Tail.exec_argv : Tail → List String
  | .nothing => []
  | .after _ command args => command :: args
  | .bare command args _ => command :: args

def Tail.words : Tail → List String
  | .after separator command args => separator.word :: command :: args
  | t => t.exec_argv

def Tail.run_mode : Tail → RunMode
  | .nothing => .interactive
  | _ => .exec

structure CommandLine where
  options : List CliOption
  tail : Tail
  deriving DecidableEq, Repr

def CommandLine.words (c : CommandLine) : List String := c.options.flatMap CliOption.words ++ c.tail.words

/-- What the command line says. A word that an option takes as its own is none of the other options. -/
def CommandLine.opts (c : CommandLine) : Opts where
  want_help := c.options.any (·.isHelp)
  want_version := c.options.any (·.isVersion)
  user_override := (c.options.filterMap (·.user?)).getLast?
  cd_override := (c.options.filterMap (·.cd?)).getLast?
  run_mode := c.tail.run_mode
  exec_argv := c.tail.exec_argv

end Kworker.Khsl
