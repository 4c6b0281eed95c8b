import ShaderLegalizer.CommandLine.Arguments
import ShaderLegalizer.Legalize
import ShaderLegalizer.Wire.ModuleText

set_option autoImplicit false

namespace ShaderLegalizer.CommandLine

/-- What reading a file or the standard input gave. -/
inductive Source where
  | absent
  | unreadable (reason : String)
  | content (bytes : ByteArray)

inductive Failure where
  | usage
  | notFound (path : String)
  | unreadable (path reason : String)
  | noModule (e : ReadError)
deriving DecidableEq, Repr

structure Output where
  stdout : String := ""
  stderr : String := ""
deriving DecidableEq, Repr

def usage : String :=
  "Usage: fxlegalize legalize [--profile <PROFILE>] [--input <INPUT>] [--stats]\n"

def versionLine : String := "fxlegalize 0.1.0\n"

def Failure.report : Failure → String
  | .usage => CommandLine.usage
  | .notFound path => "Error: Input file not found: " ++ path ++ "\n"
  | .unreadable path reason => "Error: Failed to read " ++ path ++ ": " ++ reason ++ "\n"
  | .noModule e => "Error: " ++ e.message ++ "\n"

def Source.text (path : String) : Source → Except Failure String
  | .absent => .error (.notFound path)
  | .unreadable reason => .error (.unreadable path reason)
  | .content bytes =>
    match String.fromUTF8? bytes with
    | some text => .ok text
    | none => .error (.unreadable path "stream did not contain valid UTF-8")

def Options.inputName (o : Options) : String :=
  o.input.getD "<stdin>"

def Options.legalizeText (o : Options) (text : String) : Except Failure Output := do
  let m ← (Module.ofText text).mapError .noModule
  let outcome := legalize { module := m, override := o.profile }
  return {
    stdout := outcome.module.toText ++ "\n"
    stderr := if o.statistics then outcome.statistics.report ++ "\n" else "" }

def Options.run (o : Options) (source : Source) : Except Failure Output := do
  let text ← source.text o.inputName
  o.legalizeText text

/-- Runs a command, given what can be read under a file name or, without one, from the standard
input. -/
def Command.run (lookup : Option String → Source) : Command → Except Failure Output
  | .version => .ok { stdout := versionLine }
  | .legalize o => o.run (lookup o.input)

def run (lookup : Option String → Source) (args : List String) : Except Failure Output :=
  match Command.ofArguments? args with
  | some c => c.run lookup
  | none => .error .usage

structure Transcript where
  status : UInt32
  stdout : String
  stderr : String
deriving DecidableEq, Repr

/-- Runs a command to its end. One that fails prints its report and nothing else. -/
def execute (lookup : Option String → Source) (args : List String) : Transcript :=
  match run lookup args with
  | .ok out => { status := 0, stdout := out.stdout, stderr := out.stderr }
  | .error e => { status := 1, stdout := "", stderr := e.report }

end ShaderLegalizer.CommandLine
