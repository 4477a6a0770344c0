import LineTables.Proofs.Statement.Codec
import LineTables.Proofs.Table.Described

/-!
# The clauses of a new table

A clause declares a column if it is a valid name and the keyword of a type, in any case, with blanks between
them and around them. All other clauses are rejected, and the declared columns keep their order. Which
statement a line asks for is decided by its clauses as they stand between the commas.
-/

set_option autoImplicit false

namespace LineTables
open Text

namespace Column

/-- The clause consists of the name of the column and the keyword of its type, between blanks. -/
structure DeclaredBy (clause : Text) (c : Column) : Prop where
  valid : isValidName c.name = true
  form : ∃ left between keyword right : Text, clause = left ++ c.name ++ between ++ keyword ++ right ∧
    (∀ d ∈ left ++ between ++ right, isBlank d = true) ∧ between ≠ [] ∧
    (∀ d ∈ keyword, isBlank d = false) ∧ keyword.capitalized = c.type.keyword

theorem ofClause?_eq_some_iff_words {clause : Text} {c : Column} :
    ofClause? clause = some c ↔ ∃ keyword, clause.words = [c.name, keyword] ∧
      isValidName c.name = true ∧ keyword.capitalized = c.type.keyword := by
  rw [ofClause?]
  constructor
  · intro h
    split at h
    · rename_i name keyword hwords
      split at h
      · rename_i hvalid
        obtain ⟨type, htype, rfl⟩ := Option.map_eq_some_iff.1 h
        exact ⟨keyword, hwords, hvalid, DataType.ofKeyword?_eq_some_iff.1 htype⟩
      · cases h
    · cases h
  · rintro ⟨keyword, hwords, hvalid, hkeyword⟩
    rw [hwords]
    dsimp only
    rw [if_pos hvalid, DataType.ofKeyword?_eq_some_iff.2 hkeyword]
    rfl

theorem ofClause?_eq_some_iff {clause : Text} {c : Column} :
    ofClause? clause = some c ↔ DeclaredBy clause c := by
  rw [ofClause?_eq_some_iff_words]
  constructor
  · rintro ⟨keyword, hwords, hvalid, hkeyword⟩
    obtain ⟨-, -, -, hsolid, left, between, right, hclause, hleft, hbetween, hright, hne⟩ :=
      words_eq_pair_iff.1 hwords
    refine ⟨hvalid, left, between, keyword, right, hclause, ?_, hne, hsolid, hkeyword⟩
    have hall : (left ++ between ++ right).all isBlank = true := by
      simp only [List.all_append, hleft, hbetween, hright, Bool.and_self]
    exact List.all_eq_true.1 hall
  · rintro ⟨hvalid, left, between, keyword, right, hclause, hblank, hne, hsolid, hkeyword⟩
    have hname := isWord_of_isValidName hvalid
    have hsome : keyword ≠ [] := by
      rintro rfl
      exact (isWord_keyword c.type).ne_nil hkeyword.symm
    have hall := List.all_eq_true.2 hblank
    simp only [List.all_append, Bool.and_eq_true] at hall
    refine ⟨keyword, words_eq_pair_iff.2 ?_, hvalid, hkeyword⟩
    exact ⟨hname.ne_nil, notBlank_of_isWord hname, hsome, hsolid, left, between, right, hclause,
      hall.1.1, hall.1.2, hall.2, hne⟩

end Column

namespace Statement

/-- The clauses are sifted into the columns that they declare, in their order, and rejected clauses. -/
inductive Sifted : List Text → List Column → List Text → Prop
  | nil : Sifted [] [] []
  | column {clause : Text} {c : Column} {clauses : List Text} {columns : List Column}
      {rejected : List Text} (declared : Column.DeclaredBy clause c)
      (rest : Sifted clauses columns rejected) :
      Sifted (clause :: clauses) (c :: columns) rejected
  | rejected {clause : Text} {clauses : List Text} {columns : List Column} {rejected : List Text}
      (undeclared : ∀ c, ¬ Column.DeclaredBy clause c) (rest : Sifted clauses columns rejected) :
      Sifted (clause :: clauses) columns (clause :: rejected)

theorem exists_sifted (table : Text) (clauses : List Text) :
    ∃ columns rejected, Sifted clauses columns rejected ∧
      ofClauses table clauses = .createTable table columns (rejected.map trim) := by
  induction clauses with
  | nil => exact ⟨[], [], .nil, rfl⟩
  | cons clause clauses ih =>
    obtain ⟨columns, rejected, hsifted, heq⟩ := ih
    rw [ofClauses, createTable.injEq] at heq
    obtain ⟨-, hcolumns, hrejected⟩ := heq
    cases hclause : Column.ofClause? clause with
    | some c =>
      refine ⟨c :: columns, rejected, .column (Column.ofClause?_eq_some_iff.1 hclause) hsifted, ?_⟩
      rw [ofClauses, List.filterMap_cons_some hclause, hcolumns,
        List.filter_cons_of_neg (by simp [hclause]), hrejected]
    | none =>
      have hnone : ∀ c, ¬ Column.DeclaredBy clause c := by
        intro c hc
        rw [Column.ofClause?_eq_some_iff.2 hc] at hclause
        cases hclause
      refine ⟨columns, clause :: rejected, .rejected hnone hsifted, ?_⟩
      rw [ofClauses, List.filterMap_cons_none hclause, hcolumns,
        List.filter_cons_of_pos (by simp [hclause]), List.map_cons, hrejected, List.map_cons]

def creation (table : Text) (clauses : List Text) : Text :=
  "CREATE_TABLE ".toList ++ table ++ " (".toList ++ joined [','] clauses ++ [')']

theorem parse_creation {table : Text} (hname : isValidName table = true) {clauses : List Text}
    (hne : clauses ≠ []) (h : ∀ clause ∈ clauses, ∀ c ∈ [',', '(', ')'], c ∉ clause) :
    ∃ columns rejected, Sifted clauses columns rejected ∧
      parse (creation table clauses) = .ok (.createTable table columns (rejected.map trim)) := by
  have hlist : ∀ c ∈ ['(', ')'], c ∉ joined [','] clauses := by
    intro c hc hm
    rcases mem_of_mem_joined hm with hcomma | ⟨clause, hclause, hmem⟩
    · rw [List.mem_singleton.1 hcomma] at hc
      exact absurd hc (by decide)
    · exact h clause hclause c (List.mem_cons_of_mem ',' hc) hmem
  obtain ⟨columns, rejected, hsifted, heq⟩ := exists_sifted table clauses
  have hcut : cutAt ',' (joined [','] clauses) = clauses :=
    cutAt_joined hne fun clause hm => h clause hm ',' (by simp)
  have hread := parse_clauses hname (hlist '(' (by simp)) (hlist ')' (by simp))
  rw [hcut, heq] at hread
  exact ⟨columns, rejected, hsifted, hread⟩

end Statement
end LineTables
