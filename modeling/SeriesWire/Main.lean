import SeriesWire.Command.Render

/-! The command line program. -/

namespace SeriesWire.Command

/-- The cause that a failure of the system stands for. -/
def fileError : IO.Error → FileError
  | .permissionDenied .. => .denied
  | .inappropriateType _ code _ => if code = 21 then .directory else .notDirectory
  | .invalidArgument .. => .nameTooLong
  | _ => .notFound

/-- Reads a file as text. -/
def readText (path : String) : IO (Except FileError String) := do
  try return decodeText (← IO.FS.readBinFile path)
  catch error => return .error (fileError error)

def usage : String :=
  "usage: --input FILE [--mode bulk|partial] [--ms] [--parallel-threshold N]"

end SeriesWire.Command

open SeriesWire.Command in
/-- Renders the fixture named on the command line. -/
def main (words : List String) : IO UInt32 := do
  match invocation words with
  | .help =>
    IO.println usage
    return 0
  | .version =>
    IO.println versionText
    return 0
  | .invalid =>
    IO.eprintln usage
    return 2
  | .render input arguments =>
    let outcome ← renderInput readText input arguments
    let out ← IO.getStdout
    out.write outcome.output
    out.flush
    if let some error := outcome.failure then IO.eprintln error.report
    return UInt32.ofNat outcome.exitCode
