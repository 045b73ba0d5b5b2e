import ActionStream.Command.Run
/-!
# The program

Reads the arguments and the files that the command asks for, runs the command, writes its file and
prints its texts.
-/

namespace ActionStream

def FileFault.ofError : IO.Error → FileFault
  | .noFileOrDirectory _ _ _ => .missing
  | error => .other (toString error)

def readFile (path : String) : IO (Except FileFault (List UInt8)) := do
  try
    let bytes ← IO.FS.readBinFile path
    return .ok bytes.toList
  catch error => return .error (.ofError error)

def writeFile (path : String) (bytes : List UInt8) : IO (Except FileFault Unit) := do
  try
    IO.FS.writeBinFile path ⟨bytes.toArray⟩
    return .ok ()
  catch error => return .error (.ofError error)

/-- The files that a command may read, read in advance. -/
def viewFor (invocation : Invocation) : IO FileView := do
  let input ← readFile invocation.file
  let config ←
    match invocation.config with
    | none => pure (.error .missing)
    | some path => readFile path
  return fun path => if invocation.config = some path then config else input

def printReport (report : Report) : IO UInt32 := do
  IO.print report.output
  IO.eprint report.errors
  return report.code.toUInt32

end ActionStream

open ActionStream in
def main (arguments : List String) : IO UInt32 := do
  match CommandLine.parse arguments with
  | .error issue => printReport issue.report
  | .ok invocation =>
    let view ← viewFor invocation
    match Command.run view invocation with
    | .finished report => printReport report
    | .save path bytes saved failed =>
      match ← writeFile path bytes with
      | .ok _ => printReport saved
      | .error fault => printReport (failed fault)
