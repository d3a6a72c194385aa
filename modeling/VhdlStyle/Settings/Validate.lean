import VhdlStyle.Settings.Basic
import VhdlStyle.Diagnostic.Code
import VhdlStyle.Semver.Constraint
import VhdlStyle.Text.Quoted

/-! # Checking settings

Validation looks at every field and reports all problems at once. A settings file may pin the
versions of the formatter it is meant for. -/

namespace VhdlStyle.Settings

/-- What can be wrong with a single setting. -/
inductive Problem where
  | outOfRange (name : Bytes) (least greatest got : Int)
  | badWord (name : Bytes) (words : List Bytes) (got : Bytes)
  | badRequirement (text : Bytes) (fault : Semver.ConstraintFault)
  deriving DecidableEq, Inhabited

/-- The constraint of a settings file cannot be read. -/
def requirementMessage (text : Bytes) (fault : Semver.ConstraintFault) : Bytes :=
  List.flatten ["invalid constraint ", Quoted.quote text, ": ", fault.message]

/-- The problem in words. -/
def Problem.message : Problem → Bytes
  | .outOfRange name least greatest got => List.flatten [name, " must be between ",
      Bytes.ofInt least, " and ", Bytes.ofInt greatest, " (got ", Bytes.ofInt got, ")"]
  | .badWord name words got => List.flatten [name, " must be one of ", Bytes.join ", " words,
      " (got ", Quoted.quote got, ")"]
  | .badRequirement text fault =>
      Bytes.ofString "required_version: " ++ requirementMessage text fault

/-- Why settings cannot be used. -/
inductive Fault where
  | cannotOpen (reason : Bytes)
  | unreadable (reason : Bytes)
  | undecodable
  | invalid (problems : List Problem)
  | badRequirement (text : Bytes) (fault : Semver.ConstraintFault)
  | pinned (text : Bytes) (running : Semver.Version) (mismatch : Semver.Mismatch)
  deriving DecidableEq, Inhabited

/-- The fault in words. -/
def Fault.message : Fault → Bytes
  | .cannotOpen reason => reason
  | .unreadable reason => Bytes.ofString "cannot decode configuration: " ++ reason
  | .undecodable => "cannot decode configuration"
  | .invalid problems => Bytes.ofString "invalid configuration: " ++
      Bytes.join "\n" (problems.map Problem.message)
  | .badRequirement text fault => requirementMessage text fault
  | .pinned text running mismatch => List.flatten [
      "formatter version does not satisfy required_version (", text, ", running ", running.text,
      "): ", mismatch.message]

/-- The code of a fault. -/
def Fault.code : Fault → Code
  | .unreadable _ | .undecodable => .decodeFailed
  | .pinned .. => .versionPinned
  | _ => .invalidValue

/-- A number is in its range. -/
def checkRange (name : Bytes) (least greatest got : Int) : List Problem :=
  if got < least || greatest < got then [.outOfRange name least greatest got] else []

/-- A text is one of the words. -/
def checkWord (name : Bytes) (words : List Bytes) (got : Bytes) : List Problem :=
  if words.contains got then [] else [.badWord name words got]

/-- A text names a case style. -/
def checkStyle (name got : Bytes) : List Problem :=
  if (CaseStyle.parse? got).isSome then []
  else [.badWord name (CaseStyle.all.map CaseStyle.name) got]

/-- A constraint can be read, if there is one. -/
def checkRequirement (text : Bytes) : List Problem :=
  if text.isEmpty then []
  else match Semver.Constraint.parse text with
    | .ok _ => []
    | .error fault => [.badRequirement text fault]

/-- All problems, in the order of the fields. -/
def problems (s : Settings) : List Problem :=
  List.flatten [checkRange "line_length" 10 200 s.lineLength,
    checkRange "indent_size" 1 16 s.indentSize,
    checkWord "indent_style" ["spaces", "tabs"] s.indentStyle,
    checkWord "eol" ["lf", "crlf", "auto"] s.eol,
    checkStyle "casing.keywords" s.keywordCase,
    checkStyle "casing.constants" s.constantCase,
    checkStyle "casing.identifiers" s.identifierCase,
    checkRequirement s.requiredVersion]

/-- Accepts settings without problems. -/
def validate (s : Settings) : Except Fault Unit :=
  if s.problems.isEmpty then .ok () else .error (.invalid s.problems)

/-- The running version satisfies the constraint of the settings. A version that cannot be read is
that of a development build and satisfies every constraint. -/
def checkVersion (s : Settings) (running : Bytes) : Except Fault Unit :=
  if s.requiredVersion.isEmpty then .ok ()
  else match Semver.Constraint.parse s.requiredVersion with
    | .error fault => .error (.badRequirement s.requiredVersion fault)
    | .ok constraint =>
      match Semver.Version.parse? running with
      | none => .ok ()
      | some v => match constraint.check v with
        | .ok _ => .ok ()
        | .error mismatch => .error (.pinned s.requiredVersion v mismatch)

end VhdlStyle.Settings
