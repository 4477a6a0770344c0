import LineTables.Directory.Basic
import LineTables.Directory.Path

/-!
# Going along paths

A written path is followed name by name from the top of a directory: every name but the last has to
be that of a folder, also where two dots follow it. Folders on the way to a new entry are made where
they are missing, up to the name at which this fails; those made before it stay.
-/

set_option autoImplicit false

namespace LineTables

inductive Sight where
  | file (content : ByteArray)
  | folder
  | nothing
  | tooLong

namespace Directory

def hasFolder (d : Directory) (path : Text) : Bool :=
  path.isEmpty || d.get? path == some .folder

def subdirectory (d : Directory) (folder : Text) : Directory where
  entries := d.entries.filterMap fun pair => (Path.from? folder pair.1).map (·, pair.2)
  ascending := d.ascending.filterMap _ fun a b h c hc e he => by
    obtain ⟨rest, hr, rfl⟩ := Option.map_eq_some_iff.1 hc
    obtain ⟨more, hm, rfl⟩ := Option.map_eq_some_iff.1 he
    exact Path.lt_of_from?_eq_some h hr hm

/-- What is seen where the names lead from a directory, which is below others, the nearest first.
Above all of them nothing is known but that there are folders. -/
def look (d : Directory) (above : List Directory) : List Text → Sight
  | [] => .folder
  | name :: names =>
    if name.isEmpty || name = ['.'] then d.look above names
    else if name = Path.up then
      match above with
      | [] => if names.all (· = Path.up) then .folder else .nothing
      | parent :: above => parent.look above names
    else if Path.maxNameBytes < name.byteSize then .tooLong
    else
      match d.get? name with
      | some .folder => (d.subdirectory name).look (d :: above) names
      | some (.file content) => if names.isEmpty then .file content else .nothing
      | none => .nothing

/-- What is seen at the end of a path that is written after so many bytes and starts in a folder. -/
def sight (d : Directory) (folder : List Text) (bytes : Nat) (written : Text) : Sight :=
  let start := if Path.isAbsolute written then [] else folder
  if written.hasNull then .nothing
  else if Path.maxBytes < bytes + written.byteSize then .tooLong
  else d.look [] (start ++ written.cutAt '/')

def isFile (d : Directory) (folder : List Text) (written : Text) : Bool :=
  match d.sight folder 0 written with
  | .file _ => true
  | _ => false

/-- The most folders that are made on the way to one entry after the first of them. -/
def maxMissing : Nat := 978

/-- Goes from a folder along names and makes the folders that are missing. The path reached is given,
or none where a file or a name of too many bytes is in the way, or too many folders are missing. -/
def makeFolders (d : Directory) (folder : List Text) : List Text → Directory × Option Text
  | [] => (d, some (Path.ofNames folder))
  | name :: names =>
    if name = Path.up then d.makeFolders folder.dropLast names
    else
      let path := Path.ofNames (folder ++ [name])
      if Path.maxNameBytes < name.byteSize then (d, none)
      else
        match d.get? path with
        | some .folder => d.makeFolders (folder ++ [name]) names
        | some (.file _) => (d, none)
        | none =>
          if maxMissing < names.length then (d, none)
          else
            let (d, reached) := d.makeFolders (folder ++ [name]) names
            (d.insert path .folder, reached)

/-- Makes the folders of a path that is written after so many bytes and starts in a folder. None is
made if the path has too many bytes. -/
def makePath (d : Directory) (folder : List Text) (bytes : Nat) (written : Text) :
    Directory × Option Text :=
  let start := if Path.isAbsolute written then [] else folder
  if Path.maxBytes < bytes + written.byteSize then (d, none)
  else d.makeFolders start (Path.names written)

def putFile (d : Directory) (written : Text) (content : ByteArray) : Directory :=
  let d := (d.makeFolders [] (Path.names written).dropLast).1
  d.insert (Path.direct written) (.file content)

def remove (d : Directory) (written : Text) : Directory :=
  let path := Path.direct written
  d.filter (fun other _ => other != path && (Path.from? path other).isNone)

def withSubdirectory (d : Directory) (folder : Text) (inner : Directory) : Directory :=
  inner.entries.foldr (fun pair d => d.insert (Path.below folder pair.1) pair.2)
    (d.filter (fun path _ => (Path.from? folder path).isNone))

/-- The name under which a listing shows an entry: that of a folder ends with a slash. -/
def listedName (path : Text) : Entry → Text
  | .file _ => path
  | .folder => path ++ ['/']

def listing (d : Directory) : List (Text × Entry) :=
  (d.entries.foldr (fun pair listed => listed.insert (listedName pair.1 pair.2) pair.2)
    empty).entries

end Directory
end LineTables
