import Emitter.Config.File
import Emitter.Pipeline

/-!
# Reports

What a failed run tells its user: a message and the chain of its causes.  A run that
broke off tells nothing.

`Report.text` sets the causes under the message, each indented.  A single cause
stands alone; several are numbered from zero.  A message of several lines keeps
its later lines indented as well.
-/

namespace Emitter.CommandLine

/-- A message and what led to it, the nearest cause first. -/
structure Report where
  message : String
  causes : List String := []
deriving DecidableEq, Repr

namespace Report

/-- What a failed run reports. -/
def ofBuild (e : BuildError) : Stop Report :=
  match e.sentences with
  | message :: causes => .failure { message, causes }
  | [] => .breakdown

/-- The report of a failure with a configuration. -/
def ofConfig (e : ConfigError) : Report := { message := e.message }

/-- The report as the cause of another message. -/
def within (message : String) (r : Report) : Report :=
  { message, causes := r.message :: r.causes }

/-- A text with a mark before its first line and blanks before the others. -/
def hang (mark : String) (blanks : Nat) (text : String) : String :=
  mark ++ ("\n" ++ String.ofList (List.replicate blanks ' ')).intercalate (splitText '\n' text)

/-- A cause with its number, right-aligned. -/
def numbered (cause : String) (number : Nat) : String :=
  let digits := number.repr
  hang (String.ofList (List.replicate (5 - digits.length) ' ') ++ digits ++ ": ") 7 cause

/-- The lines of the causes. -/
def causeLines : List String → List String
  | [cause] => [hang "    " 4 cause]
  | causes => causes.zipIdx.map fun (cause, number) => numbered cause number

/-- The whole report. -/
def text (r : Report) : String :=
  if r.causes.isEmpty then r.message
  else r.message ++ "\n\nCaused by:\n" ++ "\n".intercalate (causeLines r.causes)

end Report

end Emitter.CommandLine
