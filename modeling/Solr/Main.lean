import Solr.CommandLine.Run

/-! The program. It has no network of its own: a request that is to be sent finds no
connection. -/
namespace Solr.CommandLine

/-- The number of a system error, which may be given with either sign. -/
def errorNumber (code : UInt32) : Nat :=
  min code.toNat (-code).toNat

def fileFault (e : IO.Error) : FileFault :=
  match e with
  | .noFileOrDirectory .. => .noSuchFile
  | .permissionDenied .. => .accessDenied
  | .inappropriateType _ code _ => if errorNumber code = 21 then .isDirectory else .notDirectory
  | .invalidArgument _ code _ =>
    if errorNumber code = 36 then .nameTooLong else .other (toString e)
  | .userError _ => .notText
  | _ => .other (toString e)

/-- The contents of the file that a command names, if it names one. -/
def readNamedFile (arguments : List String) : IO (Except FileFault String) := do
  match Arguments.read arguments with
  | .ok ⟨_, _, .update name⟩ =>
    try
      return .ok (← IO.FS.readFile name)
    catch e =>
      return .error (fileFault e)
  | _ => return .error .noSuchFile

def program (arguments : List String) : IO UInt32 := do
  let file ← readNamedFile arguments
  let baseUrl ← IO.getEnv Settings.baseUrlVariable
  let ending := (run ⟨baseUrl, fun _ => file, .unreachable⟩ arguments).ending
  IO.print ending.output
  IO.eprint ending.complaints
  return UInt32.ofNat ending.exitCode

end Solr.CommandLine

def main (arguments : List String) : IO UInt32 :=
  Solr.CommandLine.program arguments
