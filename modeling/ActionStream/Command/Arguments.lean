import ActionStream.Command.Path
import ActionStream.Configuration.Choice
/-!
# Command lines

A command line names a command, with options before it, and gives the command a file, with options
around it.  Some options are allowed at both levels; each may occur once at a level, and the inner
level wins.  The value of an option may be the following argument.  Such a value is settled only
when the next option begins or the level ends, which decides the error that is reported when there
are several.
-/

namespace ActionStream

inductive CommandName where
  | disasm
  | decode
  | encode
  | check
  deriving DecidableEq, Repr

namespace CommandName

def text : CommandName → String
  | disasm => "disasm"
  | decode => "decode"
  | encode => "encode"
  | check => "check"

def ofText? (text : String) : Option CommandName :=
  [disasm, decode, encode, check].find? fun command => command.text == text

end CommandName

/-- Why a command line does not name a command to run. -/
inductive UsageIssue where
  /-- The value of an option or the file is not acceptable. -/
  | badValue
  | missingValue
  /-- An option occurs twice at one level. -/
  | repeatedOption
  /-- An argument is neither an option nor needed. -/
  | unknownArgument
  | missingFile
  | missingCommand
  /-- An argument in the place of a command is none. -/
  | unknownCommand
  | unexpectedValue
  | helpRequested
  | versionRequested
  | nothingGiven
  deriving DecidableEq, Repr

/-- What the options of a level say. -/
structure Options where
  overrides : Overrides := {}
  config : Option String := none
  file : Option String := none
  output : Option String := none
  deriving DecidableEq, Repr, Inhabited

structure Invocation where
  command : CommandName
  file : String
  output : Option String
  config : Option String
  overrides : Overrides
  deriving DecidableEq, Repr

namespace CommandLine

/-- What a value is given for. -/
inductive Slot where
  | version
  | config
  | file
  | output
  deriving DecidableEq, Repr

inductive Switch where
  | lenient
  | lengthPrefixed
  | help
  | version
  deriving DecidableEq, Repr

/-- The state of reading a level: what is settled, what waits to be settled with its value if that
has come, and whether only operands follow. -/
structure Progress where
  options : Options := {}
  pending : Option (Slot × Option String) := none
  operandsOnly : Bool := false
  deriving Inhabited

/-- The digits of a version number with an optional sign, as a number. -/
def versionNumber? (text : String) : Option Int :=
  let (negative, digits) :=
    match text.toList with
    | '-' :: rest => (true, rest)
    | '+' :: rest => (false, rest)
    | rest => (false, rest)
  if digits.isEmpty || !digits.all Char.isDigit then none
  else
    let magnitude : Nat :=
      digits.foldl (fun value digit => value * 10 + (digit.toNat - 0x30)) 0
    some (if negative then -(magnitude : Int) else magnitude)

def version? (text : String) : Option UInt8 := do
  let number ← versionNumber? text
  if 0 ≤ number ∧ number ≤ 255 then some (UInt8.ofNat number.toNat) else none

def acceptPath (path : String) : Except UsageIssue String :=
  match Path.sanitized path with
  | .ok path => .ok path
  | .error _ => .error .badValue

def Options.fill (options : Options) (slot : Slot) (text : String) :
    Except UsageIssue Options :=
  match slot with
  | .version =>
    if options.overrides.version.isSome then .error .repeatedOption
    else
      match version? text with
      | some version =>
        .ok { options with overrides := { options.overrides with version := some version } }
      | none => .error .badValue
  | .config =>
    if options.config.isSome then .error .repeatedOption
    else (acceptPath text).map fun path => { options with config := some path }
  | .file => (acceptPath text).map fun path => { options with file := some path }
  | .output =>
    if options.output.isSome then .error .repeatedOption
    else (acceptPath text).map fun path => { options with output := some path }

/-- Settles what is pending. -/
def settle (progress : Progress) : Except UsageIssue Progress :=
  match progress.pending with
  | none => .ok progress
  | some (_, none) => .error .missingValue
  | some (slot, some text) => do
    let options ← Options.fill progress.options slot text
    return { progress with options := options, pending := none }

def fillNow (progress : Progress) (slot : Slot) (text : String) : Except UsageIssue Progress := do
  let progress ← settle progress
  let options ← Options.fill progress.options slot text
  return { progress with options := options }

def await (progress : Progress) (slot : Slot) : Except UsageIssue Progress := do
  let progress ← settle progress
  return { progress with pending := some (slot, none) }

def turn (progress : Progress) (switch : Switch) : Except UsageIssue Progress := do
  let progress ← settle progress
  let options := progress.options
  match switch with
  | .help => throw .helpRequested
  | .version => throw .versionRequested
  | .lenient =>
    if options.overrides.lenient then throw .repeatedOption
    else
      let overrides := { options.overrides with lenient := true }
      return { progress with options := { options with overrides := overrides } }
  | .lengthPrefixed =>
    if options.overrides.lengthPrefixed then throw .repeatedOption
    else
      let overrides := { options.overrides with lengthPrefixed := true }
      return { progress with options := { options with overrides := overrides } }

/-- The switch of the given name; the version can be asked for only before the command. -/
def switch? (command : Option CommandName) (name : List Char) : Option Switch :=
  if name = "lenient".toList then some .lenient
  else if name = "length-prefixed".toList then some .lengthPrefixed
  else if name = "help".toList then some .help
  else if name = "version".toList ∧ command = none then some .version
  else none

/-- The option of the given name; only encoding has an output. -/
def slot? (command : Option CommandName) (name : List Char) : Option Slot :=
  if name = "swf-version".toList then some .version
  else if name = "config".toList then some .config
  else if name = "output".toList ∧ command = some .encode then some .output
  else none

/-- The progress after an argument that begins with two hyphens, which are taken off. -/
def longArgument (command : Option CommandName) (progress : Progress) (argument : List Char) :
    Except UsageIssue Progress :=
  let (name, value) := argument.span (· != '=')
  match switch? command name, slot? command name, value with
  | some switch, _, [] => turn progress switch
  | some _, _, _ :: _ => .error .unexpectedValue
  | none, some slot, [] => await progress slot
  | none, some slot, _ :: value => fillNow progress slot (String.ofList value)
  | none, none, _ => .error .unknownArgument

def shortArgument (command : Option CommandName) (progress : Progress) :
    List Char → Except UsageIssue Progress
  | 'h' :: _ => turn progress .help
  | 'V' :: _ => if command = none then turn progress .version else .error .unknownArgument
  | 'o' :: value =>
    if command = some .encode then
      match value with
      | [] => await progress .output
      | '=' :: value => fillNow progress .output (String.ofList value)
      | value => fillNow progress .output (String.ofList value)
    else .error .unknownArgument
  | _ => .error .unknownArgument

def operand (progress : Progress) (argument : String) : Except UsageIssue Progress :=
  let fileGiven :=
    match progress.pending with
    | some (.file, _) => true
    | _ => progress.options.file.isSome
  if fileGiven then .error .unknownArgument
  else do
    let progress ← settle progress
    return { progress with pending := some (.file, some argument) }

def awaitsValue (progress : Progress) : Bool :=
  match progress.pending with
  | some (_, none) => true
  | _ => false

/-- The progress after an argument that begins like an option; nothing if the argument does not. -/
def optionLike (command : Option CommandName) (progress : Progress) (argument : String) :
    Option (Except UsageIssue Progress) :=
  if progress.operandsOnly then none
  else
    match argument.toList with
    | ['-', '-'] => some (.ok { progress with operandsOnly := true })
    | '-' :: '-' :: rest => some (longArgument command progress rest)
    | '-' :: first :: rest => some (shortArgument command progress (first :: rest))
    | _ =>
      match progress.pending with
      | some (slot, none) => some (.ok { progress with pending := some (slot, some argument) })
      | _ => none

def commandOptions (command : CommandName) (progress : Progress) :
    List String → Except UsageIssue Options
  | [] => do
    let progress ← settle progress
    if progress.options.file.isSome then return progress.options else throw .missingFile
  | argument :: rest => do
    let next ← (optionLike (some command) progress argument).getD (operand progress argument)
    commandOptions command next rest

/-- What help on a list of words comes to: only commands have help. -/
def helpOn : List String → UsageIssue
  | [] => .helpRequested
  | [word] =>
    if (CommandName.ofText? word).isSome || word == "help" then .helpRequested
    else .unknownCommand
  | _ => .unknownCommand

/-- The command to run, from the options of the outer and the inner level. -/
def combined (command : CommandName) (outer inner : Options) : Except UsageIssue Invocation :=
  match inner.file with
  | none => .error .missingFile
  | some file =>
    .ok
      { command
        file
        output := inner.output
        config := inner.config <|> outer.config
        overrides :=
          { version := inner.overrides.version <|> outer.overrides.version
            lenient := inner.overrides.lenient || outer.overrides.lenient
            lengthPrefixed := inner.overrides.lengthPrefixed || outer.overrides.lengthPrefixed } }

/-- What an argument comes to that stands where a command should. -/
def misplaced (progress : Progress) (argument : String) : UsageIssue :=
  if progress.operandsOnly && ((CommandName.ofText? argument).isSome || argument == "help") then
    .unknownArgument
  else .unknownCommand

def parseFrom (progress : Progress) : List String → Except UsageIssue Invocation
  | [] => do
    let progress ← settle progress
    if progress.options = {} then throw .nothingGiven else throw .missingCommand
  | argument :: rest =>
    let command :=
      if progress.operandsOnly || awaitsValue progress then none
      else CommandName.ofText? argument
    match command with
    | some command => do
      let inner ← commandOptions command {} rest
      let outer ← settle progress
      combined command outer.options inner
    | none =>
      if argument == "help" && !progress.operandsOnly && !awaitsValue progress then
        .error (helpOn rest)
      else
        match optionLike none progress argument with
        | some (.ok progress) => parseFrom progress rest
        | some (.error issue) => .error issue
        | none => .error (misplaced progress argument)

/-- The command to run that a command line names. -/
def parse (arguments : List String) : Except UsageIssue Invocation :=
  parseFrom {} arguments

end CommandLine

end ActionStream
