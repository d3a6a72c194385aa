import VhdlStyle.Text.Bytes

/-! # How commands fail -/

namespace VhdlStyle.CommandLine

/-- Why a command failed. The last two have been reported in detail before. -/
inductive Failure where
  | usage (reason : Bytes)
  | plain (reason : Bytes)
  | checkFailed
  | formatFailed
  deriving DecidableEq, Inhabited

namespace Failure

/-- The failure in words. -/
def message : Failure → Bytes
  | .usage reason => reason
  | .plain reason => reason
  | .checkFailed => "formatting changes required: reported"
  | .formatFailed => "some files could not be formatted: reported"

/-- The details are known to the user. -/
def isReported : Failure → Bool
  | .checkFailed | .formatFailed => true
  | _ => false

/-- The exit code: bad flags and settings are told from everything else. -/
def exitCode : Failure → Nat
  | .usage _ => 2
  | _ => 1

end Failure

/-- The exit code of a command. -/
def exitCode {α : Type} : Except Failure α → Nat
  | .ok _ => 0
  | .error failure => failure.exitCode

end VhdlStyle.CommandLine
