import Stencil.Command.Response

/-!
# The program

The program reads its arguments and its input, and prints the response. Colours
are left to the label alone where the environment asks for none.
-/

set_option autoImplicit false

namespace Stencil

namespace Command

def readAll (stream : IO.FS.Stream) : IO ByteArray := do
  let mut bytes := ByteArray.empty
  repeat
    let chunk ← stream.read 65536
    if chunk.isEmpty then
      break
    bytes := bytes ++ chunk
  return bytes

def readOrigin : Origin → IO (Except ReadError Text)
  | .standardInput => return decode (← readAll (← IO.getStdin))
  | .file name =>
    try
      return decode (← IO.FS.readBinFile (String.ofList name))
    catch
      | .noFileOrDirectory .. => return .error .absent
      | .permissionDenied .. => return .error .denied
      | .inappropriateType (some _) .. => return .error .notDirectory
      | .inappropriateType none .. => return .error .directory
      | .invalidArgument (some _) .. => return .error .nameTooLong
      | error => return .error (.other (toString error).toList)

def respond (request : Request) : IO Response := do
  match request with
  | .version => return versionResponse
  | .help => return helpResponse
  | .run options =>
    let palette := if (← IO.getEnv "NO_COLOR").isSome then Palette.labels else .full
    return options.respond palette (← readOrigin options.origin)

end Command

end Stencil

open Stencil.Command in
def main (arguments : List String) : IO UInt32 := do
  let response ← match parse (arguments.map String.toList) with
    | .ok request => respond request
    | .error error => pure (usageResponse error)
  IO.print (String.ofList response.output)
  IO.eprint (String.ofList response.errors)
  return UInt32.ofNat response.status
