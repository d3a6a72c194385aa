import VhdlStyle.CommandLine.Command

/-! # Help texts -/

namespace VhdlStyle.CommandLine.Command

/-- What a command does. -/
def purpose : Command → Bytes
  | .top => "VHDL source formatter"
  | .fmt => "Format VHDL files or directories"
  | .config => "Create or inspect vhdl-fmt.toml"
  | .configInit => "Write the default configuration to vhdl-fmt.toml"
  | .configShow => "Print the resolved configuration"
  | .tokenize => "Dump the tokens of a VHDL source file"
  | .parse => "Parse VHDL sources and print the AST outline"
  | .version => "Show vhdl-fmt build information"
  | .help => "Help about any command"

/-- How a command is called. -/
def usageLine (c : Command) : Bytes :=
  let arguments : Bytes := match c with
    | .top => " [flags] [path...]"
    | .fmt => " [flags] <path> [path...]"
    | .config => " [command]"
    | .configInit => " [dir] [flags]"
    | .tokenize => " [flags] file.vhd"
    | .parse => " [flags] <file.vhd|directory>..."
    | .help => " [command] [flags]"
    | _ => " [flags]"
  c.path ++ arguments

/-- A list under a heading, one entry a line; the first column has one width. -/
def helpTable (heading : Bytes) (rows : List (Bytes × Bytes)) : Bytes :=
  let width := (rows.map (·.1.length)).foldl max 0
  if rows.isEmpty then []
  else List.flatten ["\n", heading, ":\n", rows.flatMap fun (name, text) =>
    List.flatten ["  ", Bytes.padRight width Bytes.space name, "   ", text, "\n"]]

/-- The rows of flags. -/
def flagRows (flags : List Flag) : List (Bytes × Bytes) :=
  flags.map fun f => (f.spelling, Bytes.ofString f.usage)

/-- The help text of a command. -/
def helpText (c : Command) : Bytes :=
  List.flatten [c.purpose, "\n\nUsage:\n  ", c.usageLine, "\n",
    helpTable "Available Commands" (c.children.map fun (name, child) =>
      (Bytes.ofString name, child.purpose)),
    helpTable "Flags" (flagRows c.ownFlags),
    helpTable "Global Flags" (flagRows globalFlags)]

end VhdlStyle.CommandLine.Command
