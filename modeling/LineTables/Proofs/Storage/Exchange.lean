import LineTables.Proofs.Storage.Codec

/-!
# Files exchanged as a whole

The content of a file is exchanged by way of a temporary file beside it: this one is filled first and
then takes the place of the file; where it cannot, it is taken away again. When all is done, the directory
is the one that a write gives, whatever part of the temporary name was chosen afresh: no temporary file is
ever left.
-/

set_option autoImplicit false

namespace LineTables

theorem Text.byteSize_append (t u : Text) : (t ++ u).byteSize = t.byteSize + u.byteSize := by
  induction t with
  | nil => simp [byteSize]
  | cons c t ih =>
    rw [List.cons_append, byteSize, byteSize, ih]
    omega

namespace Directory

def erase (d : Directory) (path : Text) : Directory := d.filter (fun other _ => other != path)

theorem get?_erase (d : Directory) (path other : Text) :
    (d.erase path).get? other = if other = path then none else d.get? other := by
  rw [erase, get?_filter]
  by_cases h : other = path
  · simp [h]
  · cases d.get? other <;> simp [h]

theorem erase_insert (d : Directory) {path : Text} (h : d.get? path = none) (entry : Entry) :
    (d.insert path entry).erase path = d := by
  apply ext
  intro other
  rw [get?_erase]
  by_cases hother : other = path
  · rw [if_pos hother, hother, h]
  · rw [if_neg hother, get?_insert_of_ne d hother]

end Directory

namespace Storage

def temporaryName (file chosen : Text) : Text := '.' :: file ++ '.' :: chosen ++ ".tmp".toList

theorem byteSize_temporaryName (file : Text) {chosen : Text} (h : chosen.byteSize = 8) :
    (temporaryName file chosen).byteSize = temporarySize file := by
  have hdot : Char.utf8Size '.' = 1 := by decide
  have hending : Text.byteSize ".tmp".toList = 4 := by decide
  simp only [temporaryName, temporarySize, List.cons_append, Text.byteSize, Text.byteSize_append, h,
    hdot, hending]
  omega

theorem temporaryName_ne (file chosen : Text) : temporaryName file chosen ≠ file := by
  intro h
  have hlength := congrArg List.length h
  simp [temporaryName] at hlength
  omega

/-- Exchanges the content of a file by way of a temporary file, which cannot be made if its name or its
path is too long, and cannot take a place that a folder has or that the written path does not reach. -/
def exchange (location : Location) (d : Directory) (file chosen : Text) (content : ByteArray) :
    Directory × Bool :=
  let temporary := temporaryName file chosen
  if Path.maxNameBytes < temporary.byteSize ||
      Path.maxBytes < Path.bytesBefore location.root + temporary.byteSize then (d, false)
  else
    let filled := d.insert temporary (.file content)
    if Path.maxBytes < Path.bytesBefore location.path + file.byteSize || filled.hasFolder file then
      (filled.erase temporary, false)
    else ((filled.erase temporary).insert file (.file content), true)

theorem exchange_eq (location : Location) (d : Directory) {name chosen : Text}
    (hname : isValidName name = true) (hchosen : chosen.byteSize = 8)
    (hfresh : d.get? (temporaryName (fileName name) chosen) = none) (content : ByteArray) :
    exchange location d (fileName name) chosen content =
      if CanWrite location d name then (d.insert (fileName name) (.file content), true)
      else (d, false) := by
  have hrefused := refused_iff_not_canWrite location d hname
  have hfolder : (d.insert (temporaryName (fileName name) chosen) (.file content)).hasFolder
      (fileName name) = d.hasFolder (fileName name) := by
    rw [Directory.hasFolder, Directory.hasFolder,
      Directory.get?_insert_of_ne d (temporaryName_ne _ _).symm]
  rw [exchange]
  dsimp only
  rw [hfolder, Directory.erase_insert d hfresh, byteSize_temporaryName _ hchosen]
  simp only [Bool.or_eq_true] at hrefused ⊢
  by_cases hcan : CanWrite location d name
  · have hfree := mt hrefused.1 (not_not_intro hcan)
    have hshort := fun h => hfree (Or.inl (Or.inl h))
    have hplace := fun h : _ ∨ _ => hfree (h.imp_left Or.inr)
    rw [if_pos hcan, if_neg hshort, if_neg hplace]
  · rw [if_neg hcan]
    rcases hrefused.2 hcan with (hlong | hpath) | htaken
    · rw [if_pos hlong]
    · rw [if_pos (Or.inl hpath), ite_self]
    · rw [if_pos (Or.inr htaken), ite_self]

end Storage
end LineTables
