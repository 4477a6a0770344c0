import LineTables.CommandLine.Run

/-!
# The program

The outer layer reads the entries of the data directory, hands lines to the database and carries the
changes of its directory over to the disk. What a line means and what is answered is decided by the
database.
-/

set_option autoImplicit false

namespace LineTables.Program

/-- The entries of a folder that matter to a database: its folders and its table files. -/
def readDirectory (folder : String) : IO Directory := do
  let root ← IO.FS.realPath folder
  let mut directory := Directory.empty
  for entry in ← root.readDir do
    let name := entry.fileName.toList
    if ← entry.path.isDir then
      directory := directory.insert name .folder
    else if Storage.suffix.isSuffixOf name then
      directory := directory.insert name (.file (← IO.FS.readBinFile entry.path))
  return directory

/-- Writes a file through a temporary one, so that it has the old content or the new one. -/
def writeFile (folder name : String) (content : ByteArray) : IO Unit := do
  let temporary := folder ++ "/." ++ name ++ ".tmp"
  IO.FS.writeBinFile temporary content
  IO.FS.rename temporary (folder ++ "/" ++ name)

/-- Carries the differences between two directories over to the disk. A write that fails is only
told. -/
def carryOver (folder : String) (before after : Directory) : IO Unit := do
  for (path, entry) in after.entries do
    if let .file content := entry then
      unless before.get? path == some entry do
        try writeFile folder (String.ofList path) content
        catch failure => IO.eprintln failure
  for (path, _) in before.entries do
    if (after.get? path).isNone then
      IO.FS.removeFile (folder ++ "/" ++ String.ofList path)

def tell (level : Level) (events : List Event) : IO Unit := do
  for event in Event.atLeast level events do
    IO.eprintln (String.ofList ('[' :: event.level.name ++ "] ".toList ++ event.origin.name ++
      ": ".toList ++ event.text))

structure Session where
  settings : CommandLine.Settings
  folder : String
  db : Database

def Session.take (s : Session) (after : Database) (events : List Event) : IO Session := do
  carryOver s.folder s.db.directory after.directory
  tell s.settings.level events
  return { s with db := after }

def Session.print (answers : List Text) : IO Unit := do
  let output ← IO.getStdout
  for answer in answers do
    output.putStr (String.ofList (CommandLine.printed answer))
  output.flush

/-- Serves the lines that `next` gives in groups. The last group is served with the end of the run. -/
partial def Session.serve (s : Session) (next : IO (Option (List Text))) : IO Unit := do
  let options : Options := ⟨s.settings.strict⟩
  match ← next with
  | none =>
    let step := s.db.serve options []
    discard (s.take step.after step.events)
  | some lines =>
    let (ended, step) := s.db.answerUntilFinal options lines
    let s ← s.take step.after step.events
    Session.print step.outcome
    unless ended do s.serve next

def nextOfInput (input : IO.FS.Stream) : IO (Option (List Text)) := do
  let chunk ← input.getLine
  return if chunk.isEmpty then none else some (CommandLine.inputLines chunk.toList)

def nextOfLines (lines : IO.Ref (List Text)) : IO (Option (List Text)) := do
  match ← lines.get with
  | [] => return none
  | line :: rest =>
    lines.set rest
    return some [line]

def work (settings : CommandLine.Settings) (command : CommandLine.Command) : IO Unit := do
  let folder := String.ofList (Path.shown settings.dataDir)
  IO.FS.createDirAll folder
  let directory ← readDirectory folder
  let root ← IO.FS.realPath folder
  let some (db, events) := Database.open? ⟨folder.toList, root.toString.toList⟩ directory
    | throw (IO.userError "the path of a table file is too long")
  tell settings.level events
  let session : Session := ⟨settings, folder, db⟩
  match command with
  | .shell => session.serve (nextOfInput (← IO.getStdin))
  | .run lines => session.serve (nextOfLines (← IO.mkRef lines))

def dataDirIsFile (arguments : List Text) : IO Bool := do
  match CommandLine.scanOptions none arguments with
  | .error _ => return false
  | .ok (given, _) =>
    try
      let path ← IO.FS.realPath (String.ofList (CommandLine.dataDir given))
      return (← path.metadata).type == .file
    catch _ => return false

end LineTables.Program

open LineTables in
def main (arguments : List String) : IO UInt32 := do
  let arguments := arguments.map String.toList
  let isFile ← Program.dataDirIsFile arguments
  match CommandLine.interpret (fun _ => isFile) arguments with
  | .error ending => return ending.exitCode.toUInt32
  | .ok (settings, command) =>
    Program.work settings command
    return 0
