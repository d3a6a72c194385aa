import VhdlStyle.Number.Literal
import VhdlStyle.Text.CaseMap
import VhdlStyle.Text.Quoted

/-! # Flags

A flag is a long name after two dashes or a letter after one. Letters can be grouped. A switch needs
no value; other flags take theirs after an equals sign, from the rest of the group, or from the next
argument. Arguments that are no flags are collected, and after two bare dashes all are. -/

namespace VhdlStyle.CommandLine

/-- The value of a flag. -/
inductive FlagValue where
  | switch (on : Bool)
  | number (n : Int)
  | text (t : Bytes)
  deriving DecidableEq, Inhabited

/-- A flag that a command knows. -/
structure Flag where
  name : String
  letter : Option Char := none
  initial : FlagValue
  usage : String := ""
  deriving DecidableEq, Inhabited

/-- Why the arguments of a command cannot be read. -/
inductive FlagFault where
  | badForm (argument : Bytes)
  | unknownName (name : Bytes)
  | unknownLetter (letter : UInt8) (group : Bytes)
  | nameNeedsValue (name : Bytes)
  | letterNeedsValue (letter : UInt8) (group : Bytes)
  | badValue (flag : Flag) (value reason : Bytes)
  deriving DecidableEq, Inhabited

namespace Flag

/-- The flag needs no value. -/
def isSwitch (f : Flag) : Bool :=
  match f.initial with
  | .switch _ => true
  | _ => false

/-- The flag as it is typed. -/
def spelling (f : Flag) : Bytes :=
  match f.letter with
  | some c => List.flatten ["-", [(c : UInt8)], ", --", Bytes.ofString f.name]
  | none => Bytes.ofString "--" ++ Bytes.ofString f.name

/-- The words for yes. -/
def yes : List String := ["1", "t", "T", "TRUE", "true", "True"]

/-- The words for no. -/
def no : List String := ["0", "f", "F", "FALSE", "false", "False"]

/-- A value that cannot be read by the named reader. -/
def unreadable (reader value reason : Bytes) : Bytes :=
  List.flatten ["strconv.", reader, ": parsing ", Quoted.quote value, ": ", reason]

/-- Reads a value for a flag. -/
def read (f : Flag) (value : Bytes) : Except FlagFault FlagValue :=
  match f.initial with
  | .text _ => .ok (.text value)
  | .number _ =>
    match Number.ofText value with
    | .ok n => .ok (.number n)
    | .error fault => .error (.badValue f value (unreadable "ParseInt" value fault.message))
  | .switch _ =>
    if yes.any (Bytes.ofString · == value) then .ok (.switch true)
    else if no.any (Bytes.ofString · == value) then .ok (.switch false)
    else .error (.badValue f value
      (unreadable "ParseBool" value Number.LiteralFault.malformed.message))

/-- The flag with a name. -/
def byName? (flags : List Flag) (name : Bytes) : Option Flag :=
  flags.find? fun f => Bytes.ofString f.name == name

/-- The flag with a letter. -/
def byLetter? (flags : List Flag) (letter : UInt8) : Option Flag :=
  flags.find? fun f => f.letter.map Char.toUInt8 == some letter

end Flag

/-- A letter in single quotes. Of a character outside ASCII only the first byte of its two-byte form
is known. -/
def quoteLetter (b : UInt8) : Bytes :=
  let r := if b < 0x80 then b.toNat else if b < 0xC0 then 0xC2 else 0xC3
  let body : Bytes :=
    if r == 39 then "\\'"
    else if r == 92 then "\\\\"
    else if Printable.isPrintable r then Utf8.encode r
    else Quoted.escape r
  List.flatten ["'", body, "'"]

/-- The fault in words. -/
def FlagFault.message : FlagFault → Bytes
  | .badForm argument => Bytes.ofString "bad flag syntax: " ++ argument
  | .unknownName name => Bytes.ofString "unknown flag: --" ++ name
  | .unknownLetter letter group =>
    List.flatten ["unknown shorthand flag: ", quoteLetter letter, " in -", group]
  | .nameNeedsValue name => Bytes.ofString "flag needs an argument: --" ++ name
  | .letterNeedsValue letter group =>
    List.flatten ["flag needs an argument: ", quoteLetter letter, " in -", group]
  | .badValue flag value reason =>
    List.flatten ["invalid argument ", Quoted.quote value, " for ", Quoted.quote flag.spelling,
      " flag: ", reason]

/-- Flags that were given, the first one first, and the other arguments. -/
structure Parsed where
  given : List (String × FlagValue) := []
  arguments : List Bytes := []
  deriving DecidableEq, Inhabited

namespace Parsed

/-- One more flag. -/
def give (p : Parsed) (f : Flag) (v : FlagValue) : Parsed :=
  { p with given := p.given ++ [(f.name, v)] }

/-- The value given last. -/
def value? (p : Parsed) (name : String) : Option FlagValue :=
  (p.given.reverse.find? (·.1 == name)).map (·.2)

/-- The flag was given. -/
def isGiven (p : Parsed) (name : String) : Bool := (p.value? name).isSome

end Parsed

/-- The value of a flag without a value of its own. -/
def switchedOn : Bytes := "true"

/-- Reads a long flag; the arguments that are left come with the result. -/
def readLong (flags : List Flag) (p : Parsed) (argument : Bytes) (rest : List Bytes) :
    Except FlagFault (Parsed × List Bytes) := do
  let body := argument.drop 2
  if body.head? == some ('-' : UInt8) || body.head? == some ('=' : UInt8) then
    .error (.badForm argument)
  let (name, value?) := match Bytes.cut? '=' body with
    | some (name, value) => (name, some value)
    | none => (body, none)
  match Flag.byName? flags name with
  | none => .error (.unknownName name)
  | some f =>
    match value?, f.isSwitch, rest with
    | some value, _, _ => return (p.give f (← f.read value), rest)
    | none, true, _ => return (p.give f (← f.read switchedOn), rest)
    | none, false, value :: rest => return (p.give f (← f.read value), rest)
    | none, false, [] => .error (.nameNeedsValue name)

/-- Reads a group of letters. A group that belongs to a test runner is passed over. -/
def readLetters (flags : List Flag) (p : Parsed) (rest : List Bytes) :
    Bytes → Except FlagFault (Parsed × List Bytes)
  | [] => .ok (p, rest)
  | letter :: more => do
    let group := letter :: more
    if (Bytes.ofString "test.").isPrefixOf group then return (p, rest)
    match Flag.byLetter? flags letter with
    | none => .error (.unknownLetter letter group)
    | some f =>
      match more with
      | 61 :: b :: value => return (p.give f (← f.read (b :: value)), rest)
      | _ =>
        if f.isSwitch then readLetters flags (p.give f (← f.read switchedOn)) rest more
        else if !more.isEmpty then return (p.give f (← f.read more), rest)
        else match rest with
          | value :: rest => return (p.give f (← f.read value), rest)
          | [] => .error (.letterNeedsValue letter group)

/-- Reads arguments from the left, at most `fuel` of them. -/
def readArgumentsN (flags : List Flag) : Nat → Parsed → List Bytes → Except FlagFault Parsed
  | 0, p, _ => .ok p
  | _ + 1, p, [] => .ok p
  | fuel + 1, p, argument :: rest =>
    match argument with
    | [45, 45] => .ok { p with arguments := p.arguments ++ rest }
    | 45 :: 45 :: _ => do
      let (p, rest) ← readLong flags p argument rest
      readArgumentsN flags fuel p rest
    | 45 :: b :: group => do
      let (p, rest) ← readLetters flags p rest (b :: group)
      readArgumentsN flags fuel p rest
    | _ => readArgumentsN flags fuel { p with arguments := p.arguments ++ [argument] } rest

/-- The flags and arguments of a command. -/
def readArguments (flags : List Flag) (arguments : List Bytes) : Except FlagFault Parsed :=
  readArgumentsN flags arguments.length {} arguments

/-- The values of all flags of a command. -/
structure Flags where
  known : List Flag
  parsed : Parsed
  deriving Inhabited

namespace Flags

/-- The value of a flag. -/
def value (fs : Flags) (name : String) : FlagValue :=
  match fs.parsed.value? name with
  | some v => v
  | none => ((fs.known.find? (·.name == name)).map (·.initial)).getD (.text [])

/-- The value of a switch. -/
def switch (fs : Flags) (name : String) : Bool :=
  match fs.value name with
  | .switch b => b
  | _ => false

/-- The value of a number. -/
def number (fs : Flags) (name : String) : Int :=
  match fs.value name with
  | .number n => n
  | _ => 0

/-- The value of a text. -/
def text (fs : Flags) (name : String) : Bytes :=
  match fs.value name with
  | .text t => t
  | _ => []

end Flags

/-! ## Flags that are on, off, or left to the program -/

/-- The value of a flag that is on, off, or left to the program. -/
inductive Choice where
  | auto
  | on
  | off
  deriving DecidableEq, Inhabited

namespace Choice

/-- The word for a choice. -/
def name : Choice → Bytes
  | .auto => "auto"
  | .on => "on"
  | .off => "off"

/-- Reads a choice in any case and between blanks; no word leaves it to the program. -/
def parse? (text : Bytes) : Option Choice :=
  let word := CaseMap.toLower (Blank.trim text)
  if word.isEmpty then some .auto else [Choice.auto, .on, .off].find? (·.name == word)

/-- A word that is no choice. -/
def badMessage (flag text : Bytes) : Bytes :=
  List.flatten ["invalid --", flag, " value ", Quoted.quote text, " (expected auto|on|off)"]

/-- The choice, where `otherwise` is what the program would do; a bad word counts as no word. -/
def resolve (text : Bytes) (otherwise : Bool) : Bool :=
  match parse? text with
  | some .on => true
  | some .off => false
  | _ => otherwise

end Choice

end VhdlStyle.CommandLine
