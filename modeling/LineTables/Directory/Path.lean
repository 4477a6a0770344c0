import LineTables.Text.Pieces

/-!
# Paths

A path is written with slashes between names; empty names and single dots in it do not count, and two
dots lead back to the folder above. A name has at most 255 bytes and a path at most 4095, and neither
has a null character in it.
-/

set_option autoImplicit false

namespace LineTables

namespace Text

/-- The number of bytes of the text in UTF-8. -/
def byteSize : Text → Nat
  | [] => 0
  | c :: t => c.utf8Size + byteSize t

def hasNull (t : Text) : Bool := t.contains '\x00'

end Text

namespace Path

def maxNameBytes : Nat := 255

def maxBytes : Nat := 4095

def up : Text := ['.', '.']

def names (written : Text) : List Text :=
  (written.cutAt '/').filter (fun name => !name.isEmpty && name != ['.'])

def ofNames (names : List Text) : Text := Text.joined ['/'] names

def reached (folder : List Text) : List Text → List Text
  | [] => folder
  | name :: names =>
    if name = up then reached folder.dropLast names else reached (folder ++ [name]) names

def direct (written : Text) : Text := ofNames (reached [] (names written))

/-- The slashes with which a path begins as it is shown: one, or two if it is written with just
these. -/
def leadingSlashes (written : Text) : Text :=
  let slashes := written.takeWhile (· == '/')
  if slashes.length = 2 then slashes else slashes.take 1

def shown (written : Text) : Text :=
  let path := leadingSlashes written ++ ofNames (names written)
  if path.isEmpty then ['.'] else path

def isAbsolute (written : Text) : Bool := written.head? == some '/'

/-- The names lead above a folder that is so many folders below another. -/
def leadsAbove : Nat → List Text → Bool
  | _, [] => false
  | depth, name :: names =>
    if name = up then
      match depth with
      | 0 => true
      | depth + 1 => leadsAbove depth names
    else leadsAbove (depth + 1) names

def leadsOut (written : Text) : Bool := isAbsolute written || leadsAbove 0 (names written)

def below (folder path : Text) : Text := if folder.isEmpty then path else folder ++ '/' :: path

def from? (folder path : Text) : Option Text :=
  if folder.isEmpty then some path else Text.after? (folder ++ ['/']) path

theorem lt_of_from?_eq_some {folder path other rest more : Text} (h : path < other)
    (hr : from? folder path = some rest) (hm : from? folder other = some more) : rest < more := by
  rw [from?] at hr hm
  split at hr
  · rw [if_pos (by assumption)] at hm
    exact Option.some.inj hr ▸ Option.some.inj hm ▸ h
  · rw [if_neg (by assumption)] at hm
    rw [Text.eq_append_of_after? hr, Text.eq_append_of_after? hm] at h
    exact Text.lt_of_append_lt h

def bytesBefore (folder : Text) : Nat :=
  if folder = ['.'] then 0
  else if folder.getLast? = some '/' then folder.byteSize
  else folder.byteSize + 1

end Path

structure Location where
  /-- The path by which the directory is reached. -/
  path : Text
  /-- The path of the directory from the root of the file system. -/
  root : Text
  deriving DecidableEq, Repr

end LineTables
