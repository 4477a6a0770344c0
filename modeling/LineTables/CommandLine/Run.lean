import LineTables.CommandLine.Arguments
import LineTables.Database.Execution

/-!
# Runs of the program

A run opens the database of the data directory, answers lines up to the first one that ends it, and
writes all files if no line did. The lines come from the arguments or from the input, which makes no
other difference.

A line of the input ends at a line feed, at a carriage return, or at both in this order. Whatever follows
the last line end is a line if it is not empty. In the output the control sequences that set the looks of a
terminal are left out: the escape character, an opening square bracket, digits, semicolons and question
marks, and a closing ASCII letter.
-/

set_option autoImplicit false

namespace LineTables

namespace CommandLine

/-- All line ends as line feeds. A lone carriage return ends a line only in an input that is read with
universal newlines, as it is here. -/
def unifiedLineEnds : Text → Text
  | [] => []
  | '\r' :: '\n' :: t => '\n' :: unifiedLineEnds t
  | c :: t => (if c = '\r' then '\n' else c) :: unifiedLineEnds t

def inputLines (input : Text) : List Text :=
  let pieces := (unifiedLineEnds input).cutAt '\n'
  if pieces.getLast? = some [] then pieces.dropLast else pieces

def isControlArgument (c : Char) : Bool := c == ';' || c == '?' || c.isDigit

def controlLength? : Text → Option Nat
  | '\x1b' :: '[' :: t =>
    match t.dropWhile isControlArgument with
    | c :: _ => if c.isAlpha then some (3 + (t.takeWhile isControlArgument).length) else none
    | [] => none
  | _ => none

/-- A text without its control sequences, where the first characters, as many as `skip` says, belong
to a sequence found before. -/
def withoutControlsSkipping : Nat → Text → Text
  | _, [] => []
  | skip + 1, _ :: t => withoutControlsSkipping skip t
  | 0, c :: t =>
    match controlLength? (c :: t) with
    | some length => withoutControlsSkipping (length - 1) t
    | none => c :: withoutControlsSkipping 0 t

def withoutControls (t : Text) : Text := withoutControlsSkipping 0 t

def printed (answer : Text) : Text := withoutControls (answer ++ ['\n'])

structure Result where
  exitCode : Nat
  output : Text
  events : List Event
  files : Directory

def Command.lines (input : Text) : Command → List Text
  | .shell => inputLines input
  | .run lines => lines

/-- A run among the files of a file system, in a current folder, with arguments and an input. -/
def run (files : Directory) (current arguments : List Text) (input : Text) : Result :=
  match interpret (files.isFile current) arguments with
  | .error ending => ⟨ending.exitCode, [], [], files⟩
  | .ok (settings, command) =>
    let path := Path.shown settings.dataDir
    match files.makePath current 0 path with
    | (files, none) => ⟨1, [], [], files⟩
    | (files, some folder) =>
      let location : Location := ⟨path, '/' :: folder⟩
      match Database.open? location (files.subdirectory folder) with
      | some (db, events) =>
        let step := db.serve ⟨settings.strict⟩ (command.lines input)
        ⟨0, step.outcome.flatMap printed, Event.atLeast settings.level (events ++ step.events),
          files.withSubdirectory folder step.after.directory⟩
      | none => ⟨1, [], [], files⟩

end CommandLine
end LineTables
