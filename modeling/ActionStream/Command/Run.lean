import ActionStream.Command.Arguments
import ActionStream.Command.Check
import ActionStream.Configuration.File
import ActionStream.Interchange.Decode
import ActionStream.Listing
/-!
# Running commands

A command reads at most two files, a configuration and its input, and writes at most one.  What it
reads is given as a function on paths, so a run is a value: the texts it prints, the exit code, and
the file that is to be written.
-/

namespace ActionStream

/-- Why a file cannot be read or written. -/
inductive FileFault where
  | missing
  | isDirectory
  | notDirectory
  | notText
  | other (reason : String)
  deriving DecidableEq, Repr

def FileFault.message : FileFault → String
  | missing => "No such file or directory (os error 2)"
  | isDirectory => "Is a directory (os error 21)"
  | notDirectory => "Not a directory (os error 20)"
  | notText => "stream did not contain valid UTF-8"
  | other reason => reason

/-- What a run prints and its exit code. -/
structure Report where
  code : UInt8
  output : String
  errors : String
  deriving DecidableEq, Repr

namespace Report

def success (output : String) : Report :=
  ⟨0, output, ""⟩

def failure (reason : String) : Report :=
  ⟨1, "", s!"Error: {reason}\n"⟩

def failureBecause (reason cause : String) : Report :=
  ⟨1, "", s!"Error: {reason}\n\nCaused by:\n    {cause}\n"⟩

end Report

/-- A run that is not finished: a report, or a file to write with the reports for both outcomes. -/
inductive Run where
  | finished (report : Report)
  | save (path : String) (bytes : List UInt8) (saved : Report) (failed : FileFault → Report)

/-- What reading a path gives. -/
abbrev FileView := String → Except FileFault (List UInt8)

def FileView.readText (view : FileView) (path : String) : Except FileFault String := do
  let bytes ← view path
  match Text.Utf8.decode bytes with
  | .ok text => return text
  | .error _ => throw .notText

def versionText : String :=
  "avm1 0.1.0\n"

/-- The usage line.  It stands for the texts that the argument parser composes: the help, and what
it prints about arguments that it refuses. -/
def usageText : String :=
  "Usage: avm1 [OPTIONS] <COMMAND>\n"

def UsageIssue.report : UsageIssue → Report
  | helpRequested => .success usageText
  | versionRequested => .success versionText
  | _ => ⟨2, "", usageText⟩

namespace Command

/-- The context that a command works in.  What the parser of configurations says about a text that
it refuses is left out. -/
def resolve (view : FileView) (config : Option String) (overrides : Overrides) :
    Except Report Context :=
  match config with
  | none => .ok (Context.overridden {} overrides)
  | some path =>
    match view.readText path with
    | .error fault => .error (.failureBecause s!"Failed to read config '{path}'" fault.message)
    | .ok text =>
      match Settings.contextOf? text with
      | none => .error (.failure s!"Invalid codec config '{path}'")
      | some context => .ok (context.overridden overrides)

def readInput (view : FileView) (path : String) : Except Report (List UInt8) :=
  match view path with
  | .ok bytes => .ok bytes
  | .error fault => .error (.failureBecause s!"Failed to read file '{path}'" fault.message)

def undecodable (path : String) (error : CodecError) : Report :=
  .failureBecause s!"Failed to decode action stream '{path}'" error.message

def readActions (view : FileView) (context : Context) (path : String) :
    Except Report (List Action) := do
  let bytes ← readInput view path
  match Action.decodeAll context bytes with
  | .ok actions => return actions
  | .error error => throw (undecodable path error)

def checkReport (path : String) : CheckOutcome → Report
  | .undecodable error => undecodable path error
  | .unencodable error =>
    .failureBecause "Failed to re-encode decoded actions" error.message
  | .identical actions bytes => .success s!"ok: {actions} actions, {bytes} bytes\n"
  | .different offset input output =>
    .failure (s!"re-encoded stream differs at byte {offset} " ++
      s!"(input {input} bytes, output {output} bytes)")

/-- The actions in a document.  The error of a value that breaks a rule of the actions is the cause
that is given; what the parser of documents says about a malformed text is left out. -/
def readJson (view : FileView) (path : String) : Except Report (List Action) :=
  match view.readText path with
  | .error fault => .error (.failureBecause s!"Failed to read file '{path}'" fault.message)
  | .ok text =>
    match Action.ofJsonText text with
    | .ok actions => .ok actions
    | .error (.invalid error) =>
      .error (.failureBecause s!"Invalid action JSON in '{path}'" error.message)
    | .error .malformed => .error (.failure s!"Invalid action JSON in '{path}'")

def encode (view : FileView) (context : Context) (path : String) (output : Option String) :
    Except Report Run := do
  let actions ← readJson view path
  match Action.encodeAll context actions with
  | .error error => throw (.failureBecause "Failed to encode actions" error.message)
  | .ok bytes =>
    let target := output.getD (Path.withExtension "bin" path)
    return .save target bytes (.success s!"wrote {bytes.length} bytes to {target}\n")
      fun fault => .failureBecause s!"Failed to write '{target}'" fault.message

def runIn (view : FileView) (context : Context) (invocation : Invocation) : Except Report Run :=
  match invocation.command with
  | .disasm => do
    let actions ← readActions view context invocation.file
    return .finished (.success (listing actions))
  | .decode => do
    let actions ← readActions view context invocation.file
    return .finished (.success (Json.indented (Action.allToJson actions) ++ "\n"))
  | .encode => encode view context invocation.file invocation.output
  | .check => do
    let bytes ← readInput view invocation.file
    return .finished (checkReport invocation.file (checkStream context bytes))

/-- Runs a command; a configuration is read before the input. -/
def run (view : FileView) (invocation : Invocation) : Run :=
  let result := do
    let context ← resolve view invocation.config invocation.overrides
    runIn view context invocation
  match result with
  | .ok run => run
  | .error report => .finished report

end Command

end ActionStream
