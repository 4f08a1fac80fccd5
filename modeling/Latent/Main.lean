import Latent.Command.Run
import Std.Time

/-!
# The command line

Reads the clock and the context file, runs the command, prints.  Today is the local date, now is the
time in UTC.
-/

namespace Latent

/-- The date-time some nanoseconds after 1970-01-01. -/
def dateTimeOfNanos (nanos : Int) : DateTime :=
  match DateTime.ofMicroNumber? (nanos / 1000) with
  | some t => t
  | none => default

/-- The clock of the system. -/
def systemClock : IO Clock := do
  let now ← Std.Time.Timestamp.now
  let today ← Std.Time.PlainDate.now
  let date := Date.of? today.year.toInt today.month.toNat today.day.toNat
  let instant := dateTimeOfNanos now.toNanosecondsSinceUnixEpoch.toInt
  return ⟨date.getD instant.date, instant⟩

/-- The file that a command names, when it can be read. -/
def contextFile : Except Invocation.Interruption Invocation → IO (Option String)
  | .ok ⟨_, _, .file path⟩ => do
    try
      return some (← IO.FS.readFile path)
    catch _ => return none
  | _ => return none

end Latent

open Latent in
/-- One command: its arguments, the file they name and the clock give what is printed and the exit
code. -/
def main (args : List String) : IO UInt32 := do
  let request := Invocation.ofArgs args
  let file ← contextFile request
  let outcome := Command.run ⟨← systemClock, fun _ => file⟩ request
  IO.print outcome.output
  IO.eprint outcome.complaint
  return outcome.exit.toUInt32
