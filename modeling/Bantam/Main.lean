import Bantam.CommandLine

/-! The program that the command line starts. -/
namespace Bantam

def readInput (input : String) : IO (Except ReadError String) := do
  try
    let bytes ← IO.FS.readBinFile input
    return match String.fromUTF8? bytes with
      | some source => .ok source
      | none => .error .notText
  catch
    | .noFileOrDirectory .. => return .error .notFound
    | error => return .error (.failed (toString error))

def Response.write (response : Response) : IO UInt32 := do
  IO.print response.output
  IO.eprint response.errors
  return UInt32.ofNat response.exit

end Bantam

def main (arguments : List String) : IO UInt32 := do
  match Bantam.Options.ofArguments arguments with
  | .error error => error.respond.write
  | .ok (options, input) => (options.respond input (← Bantam.readInput input)).write
