import ShaderLegalizer.CommandLine.Run

set_option autoImplicit false

namespace ShaderLegalizer.CommandLine

def errorReason : IO.Error → String
  | .inappropriateType _ code details | .permissionDenied _ code details
  | .resourceExhausted _ code details => s!"{details} (os error {code})"
  | e => toString e

partial def readAll (h : IO.FS.Stream) (acc : ByteArray) : IO ByteArray := do
  let chunk ← h.read 65536
  if chunk.isEmpty then return acc else readAll h (acc ++ chunk)

def readSource : Option String → IO Source
  | none => do return .content (← readAll (← IO.getStdin) .empty)
  | some path =>
    try
      return .content (← IO.FS.readBinFile path)
    catch
      | .noFileOrDirectory .. => return .absent
      | e => return .unreadable (errorReason e)

def runProgram (args : List String) : IO UInt32 := do
  let source ← match Command.ofArguments? args with
    | some (.legalize o) => readSource o.input
    | _ => pure .absent
  let transcript := execute (fun _ => source) args
  (← IO.getStderr).putStr transcript.stderr
  (← IO.getStdout).putStr transcript.stdout
  return transcript.status

end ShaderLegalizer.CommandLine

def main (args : List String) : IO UInt32 :=
  ShaderLegalizer.CommandLine.runProgram args
