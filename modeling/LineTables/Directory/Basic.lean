import LineTables.Record

/-!
# Directories

A directory holds files and folders under their paths, in the code point order of the paths. A path
is relative, with slashes between the names of folders and at last of the entry itself. Two
directories with the same entry under every path are equal.
-/

set_option autoImplicit false

namespace LineTables

inductive Entry where
  | file (content : ByteArray)
  | folder

instance : DecidableEq Entry
  | .file a, .file b =>
    match ByteArray.decEq a b with
    | isTrue h => isTrue (congrArg Entry.file h)
    | isFalse h => isFalse fun he => h (Entry.file.inj he)
  | .folder, .folder => isTrue rfl
  | .file _, .folder => isFalse nofun
  | .folder, .file _ => isFalse nofun

structure Directory where
  entries : List (Text × Entry)
  ascending : entries.Pairwise (fun a b => a.1 < b.1)

namespace Directory

/-- Puts an entry in its place among ascending paths, instead of the one that is there. -/
def insertEntry (path : Text) (entry : Entry) : List (Text × Entry) → List (Text × Entry)
  | [] => [(path, entry)]
  | (other, old) :: rest =>
    if path < other then (path, entry) :: (other, old) :: rest
    else if path = other then (path, entry) :: rest
    else (other, old) :: insertEntry path entry rest

theorem mem_insertEntry {path : Text} {entry : Entry} {pair : Text × Entry}
    {entries : List (Text × Entry)} (h : pair ∈ insertEntry path entry entries) :
    pair = (path, entry) ∨ pair ∈ entries := by
  induction entries with
  | nil => simpa [insertEntry] using h
  | cons head rest ih =>
    obtain ⟨other, old⟩ := head
    rw [insertEntry] at h
    split at h
    · simpa using h
    · split at h
      · rcases List.mem_cons.1 h with h | h
        · exact Or.inl h
        · exact Or.inr (List.mem_cons_of_mem _ h)
      · rcases List.mem_cons.1 h with h | h
        · exact Or.inr (h ▸ List.mem_cons_self)
        · rcases ih h with h | h
          · exact Or.inl h
          · exact Or.inr (List.mem_cons_of_mem _ h)

theorem insertEntry_ascending (path : Text) (entry : Entry) {entries : List (Text × Entry)}
    (h : entries.Pairwise (fun a b => a.1 < b.1)) :
    (insertEntry path entry entries).Pairwise (fun a b => a.1 < b.1) := by
  induction entries with
  | nil => simp [insertEntry]
  | cons head rest ih =>
    obtain ⟨other, old⟩ := head
    have hrest := List.pairwise_cons.1 h
    rw [insertEntry]
    split
    case isTrue hlt =>
      refine List.pairwise_cons.2 ⟨fun pair hp => ?_, h⟩
      rcases List.mem_cons.1 hp with rfl | hp
      · exact hlt
      · exact List.lt_trans hlt (hrest.1 pair hp)
    case isFalse hnlt =>
      split
      case isTrue heq =>
        subst heq
        exact List.pairwise_cons.2 ⟨hrest.1, hrest.2⟩
      case isFalse hne =>
        refine List.pairwise_cons.2 ⟨fun pair hp => ?_, ih hrest.2⟩
        rcases mem_insertEntry hp with rfl | hp
        · exact Text.gt_of_not_lt_of_ne hnlt hne
        · exact hrest.1 pair hp

def empty : Directory := ⟨[], .nil⟩

def get? (d : Directory) (path : Text) : Option Entry := Record.get? path d.entries

def insert (d : Directory) (path : Text) (entry : Entry) : Directory :=
  ⟨insertEntry path entry d.entries, insertEntry_ascending path entry d.ascending⟩

def filter (d : Directory) (keep : Text → Entry → Bool) : Directory :=
  ⟨d.entries.filter (fun pair => keep pair.1 pair.2), d.ascending.filter _⟩

theorem get?_insertEntry_self (path : Text) (entry : Entry) (entries : List (Text × Entry)) :
    Record.get? path (insertEntry path entry entries) = some entry := by
  induction entries with
  | nil => simp [insertEntry, Record.get?]
  | cons head rest ih =>
    obtain ⟨other, old⟩ := head
    rw [insertEntry]
    split
    · simp [Record.get?]
    · split
      · simp [Record.get?]
      case isFalse hne => rw [Record.get?, if_neg (Ne.symm hne), ih]

theorem get?_insertEntry_of_ne {path other : Text} (h : other ≠ path) (entry : Entry)
    (entries : List (Text × Entry)) :
    Record.get? other (insertEntry path entry entries) = Record.get? other entries := by
  induction entries with
  | nil => simp [insertEntry, Record.get?, h.symm]
  | cons head rest ih =>
    obtain ⟨key, old⟩ := head
    rw [insertEntry]
    split
    · rw [Record.get?, if_neg h.symm]
    · split
      case isTrue heq =>
        subst heq
        rw [Record.get?, Record.get?, if_neg h.symm, if_neg h.symm]
      · rw [Record.get?, Record.get?, ih]

theorem get?_insert_self (d : Directory) (path : Text) (entry : Entry) :
    (d.insert path entry).get? path = some entry :=
  get?_insertEntry_self path entry d.entries

theorem get?_insert_of_ne (d : Directory) {path other : Text} (h : other ≠ path) (entry : Entry) :
    (d.insert path entry).get? other = d.get? other :=
  get?_insertEntry_of_ne h entry d.entries

theorem get?_eq_some_iff_mem {entries : List (Text × Entry)}
    (h : entries.Pairwise (fun a b => a.1 < b.1)) {path : Text} {entry : Entry} :
    Record.get? path entries = some entry ↔ (path, entry) ∈ entries := by
  induction entries with
  | nil => simp [Record.get?]
  | cons head rest ih =>
    obtain ⟨key, old⟩ := head
    have hrest := List.pairwise_cons.1 h
    rw [Record.get?, List.mem_cons, Prod.mk.injEq]
    split
    case isTrue heq =>
      subst heq
      constructor
      · intro hs
        exact Or.inl ⟨rfl, (Option.some.inj hs).symm⟩
      · rintro (⟨-, rfl⟩ | hm)
        · rfl
        · exact absurd (hrest.1 _ hm) (List.lt_irrefl _)
    case isFalse hne =>
      rw [ih hrest.2]
      exact ⟨Or.inr, fun hm => hm.resolve_left fun hk => hne hk.1.symm⟩

theorem get?_filter (d : Directory) (keep : Text → Entry → Bool) (path : Text) :
    (d.filter keep).get? path = (d.get? path).filter (keep path) := by
  ext entry
  rw [Option.filter_eq_some_iff, get?, get?, get?_eq_some_iff_mem (d.filter keep).ascending,
    get?_eq_some_iff_mem d.ascending, filter, List.mem_filter]

theorem eq_of_ascending {as bs : List (Text × Entry)}
    (ha : as.Pairwise (fun a b => a.1 < b.1)) (hb : bs.Pairwise (fun a b => a.1 < b.1))
    (h : ∀ pair, pair ∈ as ↔ pair ∈ bs) : as = bs := by
  induction as generalizing bs with
  | nil =>
    cases bs with
    | nil => rfl
    | cons b bs => exact absurd ((h b).2 List.mem_cons_self) (List.not_mem_nil)
  | cons a as ih =>
    cases bs with
    | nil => exact absurd ((h a).1 List.mem_cons_self) (List.not_mem_nil)
    | cons b bs =>
      have ha' := List.pairwise_cons.1 ha
      have hb' := List.pairwise_cons.1 hb
      have hab : a = b := by
        rcases List.mem_cons.1 ((h a).1 List.mem_cons_self) with rfl | hm
        · rfl
        · rcases List.mem_cons.1 ((h b).2 List.mem_cons_self) with rfl | hn
          · rfl
          · exact absurd (List.lt_trans (hb'.1 a hm) (ha'.1 b hn)) (List.lt_irrefl _)
      subst hab
      congr 1
      refine ih ha'.2 hb'.2 fun pair => ?_
      have hp := h pair
      rw [List.mem_cons, List.mem_cons] at hp
      constructor
      · intro hm
        exact (hp.1 (Or.inr hm)).resolve_left fun he =>
          absurd (ha'.1 pair hm) (he ▸ List.lt_irrefl _)
      · intro hm
        exact (hp.2 (Or.inr hm)).resolve_left fun he =>
          absurd (hb'.1 pair hm) (he ▸ List.lt_irrefl _)

theorem ext {d e : Directory} (h : ∀ path, d.get? path = e.get? path) : d = e := by
  obtain ⟨as, ha⟩ := d
  obtain ⟨bs, hb⟩ := e
  have hab : as = bs := eq_of_ascending ha hb fun pair => by
    obtain ⟨path, entry⟩ := pair
    have hpath : Record.get? path as = Record.get? path bs := h path
    rw [← get?_eq_some_iff_mem ha, ← get?_eq_some_iff_mem hb, hpath]
  subst hab
  rfl

end Directory
end LineTables
