import VhdlStyle.CommandLine.Flag
import VhdlStyle.CommandLine.Failure

/-! # Commands

Commands form a tree: the first argument that is neither a flag nor the value of one names a command
below the present one, as long as there is such a command. What remains are the arguments of the
command found. Which arguments are values depends on the flags of the command on the way. -/

namespace VhdlStyle.CommandLine

/-- The commands; the top one formats too. -/
inductive Command where
  | top
  | fmt
  | config
  | configInit
  | configShow
  | tokenize
  | parse
  | version
  | help
  deriving DecidableEq, Inhabited

namespace Command

/-- The name of the program. -/
def program : Bytes := "vhdl-fmt"

/-- The command with all those above it. -/
def path : Command → Bytes
  | .top => program
  | .fmt => "vhdl-fmt fmt"
  | .config => "vhdl-fmt config"
  | .configInit => "vhdl-fmt config init"
  | .configShow => "vhdl-fmt config show"
  | .tokenize => "vhdl-fmt tokenize"
  | .parse => "vhdl-fmt parse"
  | .version => "vhdl-fmt version"
  | .help => "vhdl-fmt help"

/-- The commands below a command. -/
def children : Command → List (String × Command)
  | .top => [("fmt", .fmt), ("config", .config), ("tokenize", .tokenize), ("parse", .parse),
      ("version", .version), ("help", .help)]
  | .config => [("init", .configInit), ("show", .configShow)]
  | _ => []

/-! ## Flags -/

/-- The flags of all commands. -/
def globalFlags : List Flag :=
  [{ name := "color", initial := .text "auto", usage := "colorize output (auto|on|off)" },
   { name := "quiet", initial := .switch false, usage := "suppress non-essential output" },
   { name := "timings", initial := .switch false, usage := "print per-phase timings to stderr" },
   { name := "ui", initial := .text "auto",
     usage := "progress view for large batches (auto|on|off)" },
   { name := "max-diagnostics", initial := .number 100,
     usage := "maximum number of diagnostics per file" },
   { name := "location", letter := some 'l', initial := .text [],
     usage := "path to the configuration file (default: nearest vhdl-fmt.toml)" },
   { name := "trace", initial := .text [],
     usage := "trace output file (- for stderr, *.ndjson for NDJSON)" },
   { name := "trace-level", initial := .text "off",
     usage := "trace level (off|error|phase|detail|debug)" },
   { name := "trace-mode", initial := .text "stream",
     usage := "trace storage (stream|ring|both)" },
   { name := "trace-ring-size", initial := .number 4096,
     usage := "ring buffer capacity in events" },
   { name := "cpuprofile", initial := .text [], usage := "write a CPU profile to file" },
   { name := "memprofile", initial := .text [], usage := "write a heap profile to file on exit" },
   { name := "runtime-trace", initial := .text [], usage := "write a runtime trace to file" }]

/-- The flags of formatting. -/
def formatFlags : List Flag :=
  [{ name := "write", letter := some 'w', initial := .switch false,
     usage := "rewrite files in place" },
   { name := "check", letter := some 'c', initial := .switch false,
     usage := "exit with status 1 when any file would change; write nothing" },
   { name := "stdin", initial := .switch false,
     usage := "read source from stdin and write the result to stdout" },
   { name := "stdin-name", initial := .text "<stdin>",
     usage := "file name used in diagnostics for --stdin" },
   { name := "diff", initial := .switch false,
     usage := "print a unified diff instead of the formatted text" },
   { name := "watch", initial := .switch false,
     usage := "keep running and re-format files when they change (requires --write)" },
   { name := "cache", initial := .switch false,
     usage := "skip inputs already known to be formatted" },
   { name := "verify", initial := .switch false,
     usage := "re-parse the output and check that formatting is stable" },
   { name := "jobs", initial := .number 0, usage := "max parallel workers" },
   { name := "format", initial := .text "text",
     usage := "report format for --check and --write (text|json)" },
   { name := "line-length", initial := .number 0, usage := "override line_length" },
   { name := "indent-size", initial := .number 0, usage := "override indent_size" },
   { name := "indent-style", initial := .text [],
     usage := "override indent_style (spaces|tabs)" },
   { name := "eol", initial := .text [], usage := "override eol (lf|crlf|auto)" }]

/-- The flags of a command besides those of all commands. -/
def ownFlags : Command → List Flag
  | .top | .fmt => formatFlags
  | .configInit =>
    [{ name := "force", initial := .switch false,
       usage := "overwrite an existing vhdl-fmt.toml" }]
  | .tokenize | .version =>
    [{ name := "format", initial := .text "pretty", usage := "output format (pretty|json)" }]
  | .parse =>
    [{ name := "jobs", initial := .number 0,
       usage := "max parallel workers for directory processing (0=auto)" }]
  | _ => []

/-- The flags that are looked at while the command is searched for. -/
def searchFlags (c : Command) : List Flag := c.ownFlags ++ globalFlags

/-- The flag that asks for help. -/
def helpFlag : Flag :=
  { name := "help", letter := some 'h', initial := .switch false, usage := "help" }

/-- The flag that asks for the version. -/
def versionFlag : Flag :=
  { name := "version", letter := some 'v', initial := .switch false, usage := "version" }

/-- All flags of a command. -/
def flags (c : Command) : List Flag :=
  c.searchFlags ++ helpFlag :: (if c == .top then [versionFlag] else [])

/-! ## Arguments -/

/-- How many arguments a command takes. -/
inductive ArgumentRule where
  | any
  | none
  | exactly (n : Nat)
  | atLeast (n : Nat)
  | atMost (n : Nat)
  deriving DecidableEq, Inhabited

/-- The rule of a command. -/
def argumentRule : Command → ArgumentRule
  | .configInit => .atMost 1
  | .configShow | .version => .none
  | .tokenize => .exactly 1
  | .parse => .atLeast 1
  | _ => .any

/-- The command takes so many arguments. -/
def checkArguments (c : Command) (arguments : List Bytes) : Except Failure Unit :=
  let n := arguments.length
  match c.argumentRule, arguments with
  | .any, _ => .ok ()
  | .none, [] => .ok ()
  | .none, first :: _ => .error (.plain (List.flatten
      ["unknown command ", Quoted.quote first, " for ", Quoted.quote c.path]))
  | .exactly m, _ => if n == m then .ok () else .error (.plain (List.flatten
      ["accepts ", Bytes.ofNat m, " arg(s), received ", Bytes.ofNat n]))
  | .atLeast m, _ => if m ≤ n then .ok () else .error (.plain (List.flatten
      ["requires at least ", Bytes.ofNat m, " arg(s), only received ", Bytes.ofNat n]))
  | .atMost m, _ => if n ≤ m then .ok () else .error (.plain (List.flatten
      ["accepts at most ", Bytes.ofNat m, " arg(s), received ", Bytes.ofNat n]))

/-! ## Finding the command -/

/-- The argument is a flag that takes the next argument as its value. Unknown flags are taken to do
so. -/
def takesNext (flags : List Flag) (argument : Bytes) : Bool :=
  !argument.contains ('=' : UInt8) &&
  match argument with
  | 45 :: 45 :: name => !((Flag.byName? flags name).map (·.isSwitch)).getD false
  | [45, letter] => !((Flag.byLetter? flags letter).map (·.isSwitch)).getD false
  | _ => false

/-- The argument is a word. -/
def isWord (argument : Bytes) : Bool :=
  !argument.isEmpty && argument.head? != some ('-' : UInt8)

/-- The first word that is no value of a flag. A flag whose value would be the last argument ends the
search. -/
def firstWord? (flags : List Flag) : List Bytes → Option Bytes
  | [] => none
  | argument :: rest =>
    if argument == "--" then none
    else if takesNext flags argument then
      match rest with
      | _ :: next :: rest => firstWord? flags (next :: rest)
      | _ => none
    else if isWord argument then some argument
    else firstWord? flags rest

/-- The arguments without the first occurrence of a word that is no value of a flag. -/
def withoutWord (flags : List Flag) (word : Bytes) : List Bytes → List Bytes
  | [] => []
  | argument :: rest =>
    if argument == "--" then argument :: rest
    else if takesNext flags argument then
      match rest with
      | value :: rest => argument :: value :: withoutWord flags word rest
      | [] => [argument]
    else if argument == word then rest
    else argument :: withoutWord flags word rest

/-- Goes down at most `depth` commands. -/
def findN : Nat → Command → List Bytes → Command × List Bytes
  | 0, c, arguments => (c, arguments)
  | depth + 1, c, arguments =>
    match firstWord? c.searchFlags arguments with
    | none => (c, arguments)
    | some word =>
      match c.children.find? fun child => Bytes.ofString child.1 == word with
      | none => (c, arguments)
      | some (_, child) => findN depth child (withoutWord c.searchFlags word arguments)

/-- The command that arguments ask for, and what is left of them. -/
def find (arguments : List Bytes) : Command × List Bytes := findN 2 .top arguments

end Command

end VhdlStyle.CommandLine
