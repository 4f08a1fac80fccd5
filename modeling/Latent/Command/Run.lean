import Latent.Command.Invocation
import Latent.Syntax.Reader
import Latent.Value.Text
import Latent.Wire.Decode
import Latent.Wire.Encode

/-!
# Running a command

`encode` writes the value of a text in the call syntax as JSON; `decode` evaluates JSON, or rebuilds
its nodes, and prints the canonical text; `eval` evaluates the call syntax and prints the canonical
text.  The variables are read before the text.
-/

namespace Latent

/-- What a command leaves behind: its exit status, what it prints, and what it complains about. -/
structure Outcome where
  exit : UInt8
  output : String
  complaint : String
  deriving DecidableEq, Repr

namespace Command

/-- The world of a command: the clock, and the files that can be read. -/
structure World where
  clock : Clock
  file? : String → Option String

/-- The variables of a context, or the complaint about it. -/
def bindings (world : World) : ContextSource → Except String (Entries Value)
  | .nowhere => .ok []
  | .inline text =>
    (Value.decodeVariables world.clock text).mapError fun _ => "Failed to parse inline context"
  | .file path =>
    match world.file? path with
    | none => .error ("Failed to read context file " ++ path)
    | some text =>
      (Value.decodeVariables world.clock text).mapError fun _ =>
        "Failed to parse context file " ++ path

/-- The line that a command prints, or its complaint. -/
def line (world : World) (invocation : Invocation) : Except String String := do
  match invocation.action with
  | .encode =>
    let v ← (Value.read invocation.text).mapError ReadError.headline
    v.encode.mapError WireError.message
  | .decode rebuild =>
    let bindings ← bindings world invocation.context
    let revival := if rebuild then .rebuilding else .evaluating ⟨bindings, world.clock⟩
    let v ← (Value.decode revival invocation.text).mapError WireError.message
    return v.print
  | .eval =>
    let bindings ← bindings world invocation.context
    let v ← (Value.read invocation.text).mapError ReadError.headline
    return (v.evaluate ⟨bindings, world.clock⟩).print

/-- How the command line is used. -/
def usage : String :=
  "Usage: latent [-d] encode EXPRESSION\n" ++
  "       latent [-d] decode [--noeval] [-c FILE | --context-json JSON] TEXT\n" ++
  "       latent [-d] eval [-c FILE | --context-json JSON] EXPRESSION\n" ++
  "       latent help [encode | decode | eval | help]\n" ++
  "       latent --version\n"

/-- The name and the version of the program. -/
def version : String := "latent 0.1.0\n"

/-- Runs what a command line asks for. -/
def run (world : World) : Except Invocation.Interruption Invocation → Outcome
  | .error .misuse => ⟨2, "", usage⟩
  | .error .help => ⟨0, usage, ""⟩
  | .error .version => ⟨0, version, ""⟩
  | .ok invocation =>
    match line world invocation with
    | .ok text => ⟨0, text ++ "\n", ""⟩
    | .error complaint => ⟨1, "", "Error: " ++ complaint ++ "\n"⟩

end Command

end Latent
