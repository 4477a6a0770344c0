import LineTables.Directory.Path
import LineTables.Event
import LineTables.Text.Alphanumeric

/-!
# Arguments of the command line

The options of the program come first, then a command with its own arguments. An option that takes a
value takes it after an equals sign or from the next argument, whatever that looks like, and its last
value counts; two dashes alone end the options. What is asked for by `--help` is shown, unless the
arguments before the command cannot be read at all.
-/

set_option autoImplicit false

namespace LineTables.CommandLine

inductive Ending where
  | help
  | misuse
  | nullInPath
  deriving DecidableEq, Repr

namespace Ending

def exitCode : Ending → Nat
  | help => 0
  | misuse => 2
  | nullInPath => 1

end Ending

structure Settings where
  dataDir : Text
  level : Level
  strict : Bool

inductive Command where
  | shell
  | run (lines : List Text)
  deriving DecidableEq, Repr

inductive ValueOption where
  | dataDir
  | logLevel
  deriving DecidableEq, Repr

inductive Given where
  | value (option : ValueOption) (value : Text)
  | strict
  | help
  deriving DecidableEq, Repr

/-- The argument is an option or two dashes: it begins with a dash and is not that dash alone. -/
def isOption : Text → Bool
  | '-' :: _ :: _ => true
  | _ => false

def nameAndValue (argument : Text) : Text × Option Text :=
  let name := argument.takeWhile (· != '=')
  match argument.dropWhile (· != '=') with
  | [] => (name, none)
  | _ :: value => (name, some value)

def valueOption? (name : Text) : Option ValueOption :=
  if name = "--data-dir".toList then some .dataDir
  else if name = "--log-level".toList then some .logLevel
  else none

def flag? (name : Text) : Option Given :=
  if name = "--strict-schema".toList then some .strict
  else if name = "--help".toList then some .help
  else none

/-- The options before the command, and the command with its arguments. An option still waits for
its value, if one is given first. -/
def scanOptions : Option ValueOption → List Text → Except Ending (List Given × List Text)
  | some _, [] => .error .misuse
  | some option, value :: rest => do
    let (given, rest) ← scanOptions none rest
    return (.value option value :: given, rest)
  | none, [] => .ok ([], [])
  | none, argument :: rest =>
    if argument = "--".toList then .ok ([], rest)
    else if isOption argument then
      let (name, value) := nameAndValue argument
      match valueOption? name, flag? name, value with
      | some option, _, some value => do
        let (given, rest) ← scanOptions none rest
        return (.value option value :: given, rest)
      | some option, _, none => scanOptions (some option) rest
      | none, some flag, none => do
        let (given, rest) ← scanOptions none rest
        return (flag :: given, rest)
      | none, _, _ => .error .misuse
    else .ok ([], argument :: rest)

def lastValue? (option : ValueOption) : List Given → Option Text
  | [] => none
  | .value other value :: given =>
    (lastValue? option given).or (if other = option then some value else none)
  | _ :: given => lastValue? option given

def defaultDataDir : Text := "db_data".toList

def dataDir (given : List Given) : Text := (lastValue? .dataDir given).getD defaultDataDir

def levelIsFirst : List Given → Bool
  | [] => false
  | .value option _ :: _ => option == .logLevel
  | _ :: given => levelIsFirst given

/-- The settings that the options ask for, each looked at in the order in which it was given first.
The level has to be one, and the data directory must not be a file. -/
def settings (isFile : Text → Bool) (given : List Given) : Except Ending Settings :=
  if given.contains .help then .error .help
  else
    let dataDir := dataDir given
    match Level.ofName? ((lastValue? .logLevel given).getD Level.info.name) with
    | none => .error (if dataDir.hasNull && !levelIsFirst given then .nullInPath else .misuse)
    | some level =>
      if dataDir.hasNull then .error .nullInPath
      else if isFile dataDir then .error .misuse
      else .ok ⟨dataDir, level, given.contains .strict⟩

def scanArguments : List Text → Except Ending (List Text × Bool)
  | [] => .ok ([], false)
  | argument :: rest =>
    if argument = "--".toList then .ok (rest, false)
    else if isOption argument then
      if argument = "--help".toList then do
        let (arguments, _) ← scanArguments rest
        return (arguments, true)
      else .error .misuse
    else do
      let (arguments, help) ← scanArguments rest
      return (argument :: arguments, help)

/-- The command of a name and its arguments. A name that is none but begins as no word does is taken
for a question. -/
def command : List Text → Except Ending Command
  | [] => .error .misuse
  | name :: rest =>
    if name = "shell".toList then do
      let (arguments, help) ← scanArguments rest
      if help then throw .help
      if arguments.isEmpty then return .shell else throw .misuse
    else if name = "run".toList then do
      let (arguments, help) ← scanArguments rest
      if help then throw .help
      if arguments.isEmpty then throw .misuse else return .run arguments
    else
      match name with
      | c :: _ => if Text.isAlphanumeric c then .error .misuse else .error .help
      | [] => .error .misuse

/-- The settings and the command of the arguments, where `isFile` tells the paths of files. No
argument at all is taken for a question. -/
def interpret (isFile : Text → Bool) (arguments : List Text) :
    Except Ending (Settings × Command) := do
  if arguments.isEmpty then throw .help
  let (given, rest) ← scanOptions none arguments
  let settings ← settings isFile given
  let command ← command rest
  return (settings, command)

end LineTables.CommandLine
