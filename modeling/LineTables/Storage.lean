import LineTables.Directory.Navigation
import LineTables.Event
import LineTables.Json.Reader
import LineTables.Json.Basic
import LineTables.Table.Document

/-!
# Table files

Each table has one file in the directory, named after it, with the document of the table in UTF-8. A
file is exchanged as a whole: the new content goes to a temporary file beside it, which then takes its
place, so a write that fails leaves the old content and no other trace. A file gives a table only if
its document does and the table has the name of the file.
-/

set_option autoImplicit false

namespace LineTables

inductive StorageError where
  | writeFailed (path : Text)
  | readFailed (path : Text)
  | notAnObject (path : Text)
  | invalidDocument (path : Text) (cause : DocumentError)
  | otherName (file table : Text)
  | nullInPath (path : Text)
  deriving Repr

namespace StorageError

/-- The text of the error, which names the reason only where the document is at fault. -/
def message : StorageError → Text
  | writeFailed path => "写入表文件失败: ".toList ++ path
  | readFailed path => "读取表文件失败: ".toList ++ path
  | notAnObject path => "表文件格式错误: ".toList ++ path
  | invalidDocument path cause =>
    "表文件内容非法: ".toList ++ path ++ (cause.message?.elim [] (": ".toList ++ ·))
  | otherName file table => "文件名与表名不符: ".toList ++ file ++ " != ".toList ++ table
  | nullInPath path => "写入表文件失败: ".toList ++ path

end StorageError

namespace Storage

def suffix : Text := ".dat".toList

def fileName (table : Text) : Text := table ++ suffix

def tableName (file : Text) : Text := file.take (file.length - suffix.length)

theorem tableName_fileName (table : Text) : tableName (fileName table) = table := by
  simp [tableName, fileName]

/-- The bytes of the temporary file's name or path beside a file's: it has a dot in front of the name,
and a part of eight characters chosen afresh and an ending of five after it. -/
def temporarySize (file : Text) : Nat := file.byteSize + 14

def encoded (document : Json) : ByteArray := (String.ofList document.written).toUTF8

def characters? (content : ByteArray) : Option Text := (String.fromUTF8? content).map String.toList

def decoded? (content : ByteArray) : Option Json :=
  match characters? content with
  | some text => Json.read? Text.maxDigits text
  | none => none

theorem characters?_toUTF8 (t : Text) : characters? (String.ofList t).toUTF8 = some t := by
  have h : (String.ofList t).toUTF8.IsValidUTF8 := (String.ofList t).isValidUTF8
  rw [characters?, String.fromUTF8?, dif_pos h]
  exact congrArg some String.toList_ofList

/-- Writes the file of a table. It fails where a folder of its name stands, where the name or a path is
too long, and where a folder on the way cannot be made. A path that leads out of the directory changes
nothing in it. -/
def write (location : Location) (d : Directory) (t : Table Json) : Directory × Option StorageError :=
  let written := Path.shown (fileName t.name)
  let names := Path.names written
  let file := names.getLast?.getD []
  let bytes := Path.bytesBefore location.path
  if names.dropLast.any Text.hasNull then (d, some (.nullInPath written))
  else if Path.leadsOut written then (d, none)
  else
    match d.makePath [] bytes (Path.ofNames names.dropLast) with
    | (d, none) => (d, some (.writeFailed written))
    | (d, some folder) =>
      let path := Path.below folder file
      if file.hasNull then (d, some (.nullInPath written))
      else if Path.maxNameBytes < temporarySize file ||
          Path.maxBytes < Path.bytesBefore location.root + temporarySize path ||
          Path.maxBytes < bytes + written.byteSize || d.hasFolder path then
        (d, some (.writeFailed written))
      else (d.insert path (.file (encoded t.toDocument)), none)

def tableOf (path file : Text) (document : Json) : Except StorageError (Table Value) :=
  match document with
  | .object fields =>
    match Table.ofDocument? fields with
    | .error cause => .error (.invalidDocument path cause)
    | .ok t => if tableName file = t.name then .ok t else .error (.otherName file t.name)
  | _ => .error (.notAnObject path)

def tableOfContent (path file : Text) (content : ByteArray) : Except StorageError (Table Value) :=
  match decoded? content with
  | some document => tableOf path file document
  | none => .error (.readFailed path)

/-- Reads the table of a file. A missing file is one without an object. -/
def read (location : Location) (d : Directory) (written : Text) :
    Except StorageError (Table Value) :=
  let path := Path.shown written
  let names := Path.names written
  let seen :=
    if Path.isAbsolute path then if names.all (· = Path.up) then .folder else .nothing
    else d.sight [] (Path.bytesBefore location.path) path
  match seen with
  | .file content => tableOfContent path (names.getLast?.getD []) content
  | .folder => .error (.readFailed path)
  | .tooLong => .error (.readFailed path)
  | .nothing => .error (.notAnObject path)

def isTablePath (path : Text) : Bool := !path.contains '/' && suffix.isSuffixOf path

def isTableFile (path : Text) : Entry → Bool
  | .file _ => isTablePath path
  | .folder => false

/-- The table files can be listed: all entries with names of table files have paths that are short
enough to be looked at. -/
def canLoad (location : Location) (d : Directory) : Bool :=
  d.entries.all fun (path, _) =>
    !isTablePath path || Path.bytesBefore location.path + path.byteSize ≤ Path.maxBytes

def tableFiles (d : Directory) : List Text :=
  (d.filter isTableFile).entries.map (·.1)

def loadFiles : List (Text × Entry) → List (Table Value) × List Event
  | [] => ([], [])
  | (_, .folder) :: files => loadFiles files
  | (file, .file content) :: files =>
    let (tables, events) := loadFiles files
    match tableOfContent file file content with
    | .ok t =>
      (t :: tables, ⟨.info, .storage, "加载表: 表=".toList ++ t.name ++ ", 行数=".toList ++
        Text.ofNat t.rows.length⟩ :: events)
    | .error e => (tables, ⟨.error, .storage, "跳过表文件: ".toList ++ e.message⟩ :: events)

def loadAll (d : Directory) : List (Table Value) × List Event :=
  loadFiles (d.filter isTableFile).entries

def deleteAll (d : Directory) : Directory × Nat :=
  (d.filter (fun path entry => !isTableFile path entry), (tableFiles d).length)

/-- Lists the table files and removes them. None is removed where they cannot be listed. -/
def deleteAll? (location : Location) (d : Directory) : Option (Directory × Nat) :=
  if canLoad location d then some (deleteAll d) else none

end Storage
end LineTables
