import LineTables.Proofs.Statement.Legible

/-!
# The written form of a statement

A legible statement is read back from its written form. Since whatever is read is legible, writing and
reading again never changes a statement that came from a line, however that line was written. The
statements that are put together from names, literals and conditions are legible under conditions on
these parts alone.
-/

set_option autoImplicit false

namespace LineTables
open Checks Text

theorem notBlank_of_isWord {t : Text} (h : IsWord t) : ∀ c ∈ t, isBlank c = false :=
  fun c hc => not_isBlank_of_isWordChar (h.all c hc)

theorem solid_of_isWord {t : Text} (h : IsWord t) : Solid t :=
  Solid.of_all h.ne_nil (notBlank_of_isWord h)

theorem punctuation : ∀ c ∈ [' ', ',', '(', ')', '=', '*', '"'], isWordChar c = false := by
  have hall : [' ', ',', '(', ')', '=', '*', '"'].all (fun c => !isWordChar c) = true := by
    decide +kernel
  intro c hc
  simpa using List.all_eq_true.1 hall c hc

theorem separators : ∀ c ∈ [',', ' '], isWordChar c = false := by
  intro c hc
  simp only [List.mem_cons, List.not_mem_nil, or_false] at hc
  rcases hc with rfl | rfl <;> exact punctuation _ (by simp)

theorem solid_bracket : ∀ c ∈ ['(', ')', '*'], Solid [c] := by
  intro c hc
  apply Solid.of_all (by simp)
  intro d hd
  rw [List.mem_singleton.1 hd]
  simp only [List.mem_cons, List.not_mem_nil, or_false] at hc
  rcases hc with rfl | rfl | rfl <;> rfl

theorem isWord_verb (verb : Verb) : IsWord verb.text := by
  constructor
  · cases verb <;> decide
  · apply List.all_eq_true.1
    cases verb <;> decide +kernel

namespace Statement

theorem firstWord_written (verb : Verb) {rest : Text} (hr : Solid rest) :
    firstWord (verb.text ++ ' ' :: rest) = (verb.text, rest) := by
  have hword := isWord_verb verb
  have hsolid : Solid (verb.text ++ ' ' :: rest) := by
    simpa using (solid_of_isWord hword).append [' '] hr
  have htake : (verb.text ++ ' ' :: rest).takeWhile (!isBlank ·) = verb.text := by
    rw [List.takeWhile_append_of_pos (by simpa using notBlank_of_isWord hword)]
    simp [isBlank]
  have hdrop : (verb.text ++ ' ' :: rest).dropWhile (!isBlank ·) = ' ' :: rest := by
    rw [List.dropWhile_append_of_pos (by simpa using notBlank_of_isWord hword)]
    simp [isBlank]
  have hstart : trimStart (' ' :: rest) = rest := by
    have happ := hr.trimStart_eq []
    rw [List.append_nil] at happ
    exact happ
  rw [firstWord]
  rw [hsolid.trim_eq, htake, hdrop, hstart]

theorem parse_verb (verb : Verb) {rest : Text} (hr : Solid rest) :
    parse (verb.text ++ ' ' :: rest) = parseRest verb rest := by
  have hne : verb.text.isEmpty = false := by cases verb <;> rfl
  rw [parse, firstWord_written verb hr]
  simp only [hne, Verb.ofText?_text]
  rfl

theorem ofClauses_congr {table : Text} {clauses others : List Text}
    (h : clauses.map (fun c => (Column.ofClause? c, c.trim)) =
      others.map (fun c => (Column.ofClause? c, c.trim))) :
    ofClauses table clauses = ofClauses table others := by
  have hcolumns : ∀ cs : List Text, cs.filterMap Column.ofClause? =
      (cs.map (fun c => (Column.ofClause? c, c.trim))).filterMap (·.1) := by
    intro cs
    rw [List.filterMap_map]
    rfl
  have hrejected : ∀ cs : List Text,
      (cs.filter (fun c => (Column.ofClause? c).isNone)).map trim =
        ((cs.map (fun c => (Column.ofClause? c, c.trim))).filter (·.1.isNone)).map (·.2) := by
    intro cs
    rw [List.filter_map, List.map_map]
    rfl
  rw [ofClauses, ofClauses, hcolumns, hcolumns, hrejected, hrejected, h]

end Statement

namespace Column

theorem isWord_keyword (type : DataType) : IsWord type.keyword := by
  cases type <;> exact isWord_of_isValidName (by decide)

theorem ofClause?_clause {c : Column} (h : isValidName c.name = true) :
    ofClause? c.clause = some c := by
  have hname := isWord_of_isValidName h
  have hkeyword := isWord_keyword c.type
  rw [ofClause?, clause, words_pair hname.ne_nil hkeyword.ne_nil (notBlank_of_isWord hname)
    (notBlank_of_isWord hkeyword)]
  simp [h, DataType.ofKeyword?_keyword]

theorem not_mem_clause {c : Column} (h : isValidName c.name = true) {d : Char}
    (hd : isWordChar d = false) (hne : d ≠ ' ') : d ∉ c.clause := by
  rw [clause, List.mem_append, List.mem_cons]
  rintro (hm | hm | hm)
  · exact (isWord_of_isValidName h).not_mem hd hm
  · exact hne hm
  · exact (isWord_keyword c.type).not_mem hd hm

end Column

theorem not_mem_commaSeparated {parts : List Text} {c : Char} (hcomma : c ≠ ',') (hblank : c ≠ ' ')
    (h : ∀ part ∈ parts, c ∉ part) : c ∉ commaSeparated parts := by
  intro hm
  rcases mem_of_mem_joined hm with hs | ⟨part, hp, hc⟩
  · have hseparator : c ∈ [',', ' '] := hs
    simp [hcomma, hblank] at hseparator
  · exact h part hp hc

namespace Statement

def clauses (columns : List Column) (rejected : List Text) : List Text :=
  columns.map Column.clause ++ rejected

theorem not_mem_clauses {columns : List Column} {rejected : List Text}
    (hc : ∀ c ∈ columns, isValidName c.name = true) {d : Char} (hd : isWordChar d = false)
    (hne : d ≠ ' ') (hr : ∀ clause ∈ rejected, d ∉ clause) :
    ∀ clause ∈ clauses columns rejected, d ∉ clause := by
  intro clause hm
  rcases List.mem_append.1 hm with hm | hm
  · obtain ⟨c, hmem, rfl⟩ := List.mem_map.1 hm
    exact Column.not_mem_clause (hc c hmem) hd hne
  · exact hr clause hm

theorem ofClauses_clauses {columns : List Column} {rejected : List Text} (table : Text)
    (hc : ∀ c ∈ columns, isValidName c.name = true)
    (hr : ∀ clause ∈ rejected, Column.RejectedClause clause) :
    ofClauses table (clauses columns rejected) = .createTable table columns rejected := by
  have hcolumns : (columns.map Column.clause).filterMap Column.ofClause? = columns := by
    induction columns with
    | nil => rfl
    | cons c columns ih =>
      rw [List.map_cons, List.filterMap_cons_some (Column.ofClause?_clause (hc c (by simp))),
        ih (fun d hd => hc d (by simp [hd]))]
  have hnone : rejected.filterMap Column.ofClause? = [] :=
    List.filterMap_eq_nil_iff.2 fun clause hm => (hr clause hm).noColumn
  have hkept : (columns.map Column.clause).filter
      (fun clause => (Column.ofClause? clause).isNone) = [] := by
    rw [List.filter_eq_nil_iff]
    intro clause hm
    obtain ⟨c, hmem, rfl⟩ := List.mem_map.1 hm
    simp [Column.ofClause?_clause (hc c hmem)]
  have hall : rejected.filter (fun clause => (Column.ofClause? clause).isNone) = rejected :=
    List.filter_eq_self.2 fun clause hm => by simp [(hr clause hm).noColumn]
  have htrim : rejected.map trim = rejected :=
    (List.map_congr_left fun clause hm => (hr clause hm).trimmed).trans (List.map_id' rejected)
  rw [ofClauses, clauses, List.filterMap_append, hcolumns, hnone, List.append_nil,
    List.filter_append, hkept, hall, List.nil_append, htrim]

theorem ofClauses_written {columns : List Column} {rejected : List Text} (table : Text)
    (hne : columns ≠ [] ∨ rejected ≠ []) (hc : ∀ c ∈ columns, isValidName c.name = true)
    (hr : ∀ clause ∈ rejected, Column.RejectedClause clause) :
    ofClauses table (cutAt ',' (commaSeparated (clauses columns rejected))) =
      .createTable table columns rejected := by
  have hclauses : clauses columns rejected ≠ [] := by
    rcases hne with hne | hne <;> simp [clauses, hne]
  have hcomma := not_mem_clauses hc (punctuation ',' (by simp)) (by decide)
    (fun clause hm => (hr clause hm).noComma)
  rw [← ofClauses_clauses table hc hr]
  apply ofClauses_congr
  apply map_cutAt_commaSeparated hclauses hcomma
  intro part
  rw [← Column.ofClause?_trim (' ' :: part), trim_cons_blank, Column.ofClause?_trim]

theorem parse_clauses {table list : Text} (hname : isValidName table = true) (hopening : '(' ∉ list)
    (hclosing : ')' ∉ list) :
    parse ("CREATE_TABLE ".toList ++ table ++ " (".toList ++ list ++ [')']) =
      .ok (ofClauses table (cutAt ',' list)) := by
  have hword := isWord_of_isValidName hname
  have hsolid := solid_of_isWord hword
  have hline : "CREATE_TABLE ".toList ++ table ++ " (".toList ++ list ++ [')'] =
      Verb.createTable.text ++ ' ' :: (table ++ ' ' :: '(' :: (list ++ [')'])) := by
    have hverb : "CREATE_TABLE ".toList = Verb.createTable.text ++ [' '] := by decide
    have hopen : " (".toList = [' ', '('] := by decide
    rw [hverb, hopen]
    simp only [List.append_assoc, List.cons_append, List.nil_append]
  have hrest : Solid (table ++ ' ' :: '(' :: (list ++ [')'])) := by
    simpa using hsolid.append (' ' :: '(' :: list) (solid_bracket ')' (by simp))
  have hcut : cutAt '(' (table ++ ' ' :: '(' :: (list ++ [')'])) =
      [table ++ [' '], list ++ [')']] := by
    have htable := hword.not_mem (punctuation '(' (by simp))
    have hbefore : '(' ∉ table ++ [' '] := by simp [htable]
    have hafter : '(' ∉ list ++ [')'] := by simp [hopening]
    have hassoc : table ++ ' ' :: '(' :: (list ++ [')']) =
        (table ++ [' ']) ++ '(' :: (list ++ [')']) := by simp
    rw [hassoc, cutAt, cutWhere_append_cons (not_separates hbefore) (beq_self_eq_true '('),
      cutWhere_eq_singleton (not_separates hafter)]
  have hfilter : (list ++ [')']).filter (· != ')') = list := by
    rw [List.filter_append, List.filter_eq_self.2]
    · simp
    · intro c hm
      rw [bne_iff_ne]
      rintro rfl
      exact hclosing hm
  rw [hline, parse_verb _ hrest, parseRest, parseCreateTable, hcut]
  dsimp only
  rw [trim_concat_blank, hsolid.trim_eq, hfilter, hname]
  rfl

theorem parse_createTable {table : Text} {columns : List Column} {rejected : List Text}
    (h : Legible (.createTable table columns rejected)) :
    parse (written (.createTable table columns rejected)) =
      .ok (.createTable table columns rejected) := by
  obtain ⟨hname, hne, hc, hr⟩ := h
  have hopening : '(' ∉ commaSeparated (clauses columns rejected) :=
    not_mem_commaSeparated (by decide) (by decide) (not_mem_clauses hc
      (punctuation '(' (by simp)) (by decide) fun clause hm => (hr clause hm).noOpening)
  have hclosing : ')' ∉ commaSeparated (clauses columns rejected) :=
    not_mem_commaSeparated (by decide) (by decide) (not_mem_clauses hc
      (punctuation ')' (by simp)) (by decide) fun clause hm => (hr clause hm).noClosing)
  have hread := parse_clauses hname hopening hclosing
  rw [ofClauses_written table hne hc hr] at hread
  exact hread

end Statement

theorem tableName_of_trim {t name : Text} (ht : trim t = name) (h : Solid name) :
    Text.tableName t = .ok name := by
  have hne : name.isEmpty = false := by simpa using h.ne_nil
  rw [Text.tableName, ht, hne]
  rfl

theorem tableName_concat {name : Text} (h : Solid name) :
    Text.tableName (name ++ [' ']) = .ok name :=
  tableName_of_trim (by rw [trim_concat_blank, h.trim_eq]) h

theorem beginsInWord_blank (t : Text) : beginsInWord (' ' :: t) = false :=
  punctuation ' ' (by simp)

theorem lacks_cons_blank_iff {word : Text} (hw : IsWord word) (t : Text) :
    Lacks word (' ' :: t) ↔ Lacks word t := by
  have happ := lacks_append_cons_iff hw (punctuation ' ' (by simp)) [] t
  rw [List.nil_append] at happ
  rw [happ]
  simp [lacks_nil]

theorem writtenCondition_eq (w : Text) :
    Action.writtenCondition w = ' ' :: (Keyword.whereText ++ ' ' :: w) := by
  rfl

theorem cutAtCondition_written {t w : Text} (ht : Lacks Keyword.whereText t) (hw : Solid w) :
    cutAtCondition (t ++ Action.writtenCondition w) = .ok (t ++ [' '], some w) := by
  have htrim : trim (' ' :: w) = w := by
    rw [trim_cons_blank, hw.trim_eq]
  have hne : w.isEmpty = false := by simpa using hw.ne_nil
  rw [writtenCondition_eq, cutAtCondition, cutAtWord?_append isWord_where ht (beginsInWord_blank w)
    (punctuation ' ' (by simp))]
  simp only [htrim, hne]
  rfl

theorem cutAtKeyword_written {t keyword : Text} (hk : IsWord keyword) (ht : Lacks keyword t)
    (rest : Text) :
    cutAtKeyword (t ++ ' ' :: (keyword ++ ' ' :: rest)) keyword = .ok (t ++ [' '], ' ' :: rest) := by
  rw [cutAtKeyword_ok_iff]
  exact cutAtWord?_append hk ht (beginsInWord_blank rest) (punctuation ' ' (by simp))

namespace Statement

theorem parseLiterals_bracketed (list : Text) :
    parseLiterals (' ' :: '(' :: (list ++ [')'])) = .ok ((cutAt ',' list).map trim) := by
  have hsolid : Solid ('(' :: (list ++ [')'])) := by
    simpa using (solid_bracket '(' (by simp)).append list (solid_bracket ')' (by simp))
  have htrim : trim (' ' :: '(' :: (list ++ [')'])) = '(' :: (list ++ [')']) := by
    rw [trim_cons_blank, hsolid.trim_eq]
  rw [parseLiterals, htrim]
  show (if (list ++ [')']).getLast? = some ')' then
    Except.ok ((cutAt ',' (list ++ [')']).dropLast).map trim) else _) = _
  rw [List.getLast?_concat, if_pos rfl, List.dropLast_concat]

theorem literals_written {literals : List Text} (hne : literals ≠ [])
    (h : ∀ literal ∈ literals, literal.trim = literal ∧ ',' ∉ literal) :
    (cutAt ',' (commaSeparated literals)).map trim = literals := by
  rw [map_cutAt_commaSeparated hne (fun l hl => (h l hl).2) trim trim_cons_blank]
  exact (List.map_congr_left fun l hl => (h l hl).1).trans (List.map_id' literals)

theorem parse_insertion {table : Text} (hsolid : Solid table)
    (hlacks : Lacks Keyword.valuesText table) (list : Text) :
    parse ("INSERT INTO ".toList ++ table ++ " VALUES (".toList ++ list ++ [')']) =
      .ok (.onTable table (.insert ((cutAt ',' list).map trim))) := by
  let values := '(' :: (list ++ [')'])
  have hline : "INSERT INTO ".toList ++ table ++ " VALUES (".toList ++ list ++ [')'] =
      Verb.insert.text ++ ' ' ::
        (Keyword.intoText ++ [' '] ++ (table ++ ' ' :: (Keyword.valuesText ++ ' ' :: values))) := by
    have hverb : "INSERT INTO ".toList = Verb.insert.text ++ ' ' :: (Keyword.intoText ++ [' ']) := by
      decide
    have hopen : " VALUES (".toList = ' ' :: (Keyword.valuesText ++ [' ', '(']) := by decide
    rw [hverb, hopen]
    simp only [values, List.append_assoc, List.cons_append, List.nil_append]
  have hrest : Solid (Keyword.intoText ++ [' '] ++
      (table ++ ' ' :: (Keyword.valuesText ++ ' ' :: values))) := by
    have hinto : Solid Keyword.intoText :=
      solid_of_isWord (isWord_of_isValidName (by decide))
    simpa [values] using hinto.append
      (' ' :: (table ++ ' ' :: (Keyword.valuesText ++ ' ' :: '(' :: list)))
      (solid_bracket ')' (by simp))
  rw [hline, parse_verb _ hrest, parseRest, parseInsert, after?_append]
  simp only [bind_ok_iff]
  exact ⟨_, cutAtKeyword_written isWord_values hlacks values, _, parseLiterals_bracketed list, table,
    tableName_concat hsolid, rfl⟩

theorem parse_insert {table : Text} {literals : List Text}
    (h : Legible (.onTable table (.insert literals))) :
    parse (written (.onTable table (.insert literals))) =
      .ok (.onTable table (.insert literals)) := by
  obtain ⟨hsolid, hlacks, hne, hliterals⟩ := h
  have hparse := parse_insertion hsolid hlacks (commaSeparated literals)
  rwa [literals_written hne hliterals] at hparse

theorem parseProjection_written {columns : Option (List Text)}
    (h : ∀ names, columns = some names → names ≠ [] ∧ ∀ n ∈ names, Column.LegibleName n) :
    parseProjection (columns.elim ['*'] commaSeparated ++ [' ']) = .ok columns := by
  cases columns with
  | none => rfl
  | some names =>
    obtain ⟨hne, hall⟩ := h names rfl
    have hblank : Column.separates ' ' = true := rfl
    have hruns : runsOutside Column.separates (commaSeparated names ++ [' ']) = names := by
      rw [runsOutside_append hblank, runsOutside_commaSeparated rfl hblank
        fun n hn => ⟨(hall n hn).ne_nil, (hall n hn).chars⟩]
      exact List.append_nil names
    have hstar : ['*'] ∉ names := fun hm => (hall _ hm).ne_star rfl
    have hempty : names.isEmpty = false := by simpa using hne
    show (let columns := runsOutside Column.separates (commaSeparated names ++ [' '])
      if columns.isEmpty then Except.error SyntaxError.noColumns
      else if columns.contains ['*'] then _ else Except.ok (some columns)) = _
    rw [hruns]
    simp [hempty, hstar]

theorem lacks_projection {columns : Option (List Text)}
    (h : ∀ names, columns = some names → names ≠ [] ∧ ∀ n ∈ names, Column.LegibleName n) :
    Lacks Keyword.fromText (columns.elim ['*'] commaSeparated) := by
  cases columns with
  | none =>
    show Lacks Keyword.fromText ([] ++ '*' :: [])
    rw [lacks_append_cons_iff isWord_from (punctuation '*' (by simp))]
    exact ⟨lacks_nil _, lacks_nil _⟩
  | some names =>
    show Lacks Keyword.fromText (joined [',', ' '] names)
    rw [lacks_joined_iff isWord_from (by simp) separators]
    intro n hn
    exact ((h names rfl).2 n hn).lacks

theorem solid_projection {columns : Option (List Text)}
    (h : ∀ names, columns = some names → names ≠ [] ∧ ∀ n ∈ names, Column.LegibleName n) :
    ∃ first rest, Solid first ∧ columns.elim ['*'] commaSeparated = first ++ rest := by
  cases columns with
  | none => exact ⟨['*'], [], solid_bracket '*' (by simp), rfl⟩
  | some names =>
    obtain ⟨hne, hall⟩ := h names rfl
    cases names with
    | nil => exact absurd rfl hne
    | cons n names =>
      have hn := hall n List.mem_cons_self
      have hsolid : Solid n := by
        apply Solid.of_all hn.ne_nil
        intro c hc
        have hsep := hn.chars c hc
        rw [Column.separates, Bool.or_eq_false_iff] at hsep
        exact hsep.1
      by_cases hrest : names = []
      · exact ⟨n, [], hsolid, by simp [hrest, commaSeparated, joined]⟩
      · exact ⟨n, ',' :: ' ' :: commaSeparated names, hsolid, commaSeparated_cons n hrest⟩

theorem cutAtCondition_source {table : Text} {condition : Option Text}
    (ht : Lacks Keyword.whereText table) (hw : ∀ w, condition = some w → Solid w) :
    ∃ before, cutAtCondition (' ' :: (table ++ condition.elim [] Action.writtenCondition)) =
      .ok (before, condition) ∧ trim before = trim table := by
  have hlacks := (lacks_cons_blank_iff isWord_where table).2 ht
  cases condition with
  | none =>
    refine ⟨' ' :: table, ?_, trim_cons_blank table⟩
    simp only [Option.elim, List.append_nil]
    rw [cutAtCondition, show cutAtWord? Keyword.whereText (' ' :: table) = none from hlacks]
  | some w =>
    refine ⟨' ' :: table ++ [' '], cutAtCondition_written hlacks (hw w rfl), ?_⟩
    rw [trim_concat_blank, trim_cons_blank]

theorem solid_source {table : Text} {condition : Option Text} (ht : Solid table)
    (hw : ∀ w, condition = some w → Solid w) :
    Solid (table ++ condition.elim [] Action.writtenCondition) := by
  cases condition with
  | none => simpa using ht
  | some w =>
    have happ := ht.append (' ' :: (Keyword.whereText ++ [' '])) (hw w rfl)
    simpa [writtenCondition_eq] using happ

theorem parse_select {table : Text} {columns : Option (List Text)} {condition : Option Text}
    (h : Legible (.onTable table (.select columns condition))) :
    parse (written (.onTable table (.select columns condition))) =
      .ok (.onTable table (.select columns condition)) := by
  obtain ⟨hsolid, hlacks, hcolumns, hw⟩ := h
  generalize hsource : table ++ condition.elim [] Action.writtenCondition = source
  generalize hprojection : columns.elim ['*'] commaSeparated = projection
  have hline : written (.onTable table (.select columns condition)) =
      Verb.select.text ++ ' ' :: (projection ++ ' ' :: (Keyword.fromText ++ ' ' :: source)) := by
    have hverb : "SELECT ".toList = Verb.select.text ++ [' '] := by decide
    have hfrom : " FROM ".toList = ' ' :: (Keyword.fromText ++ [' ']) := by decide
    show "SELECT ".toList ++ columns.elim ['*'] commaSeparated ++ " FROM ".toList ++ table ++
      condition.elim [] Action.writtenCondition = _
    rw [hverb, hfrom, hprojection, ← hsource]
    simp only [List.append_assoc, List.cons_append, List.nil_append]
  have hrest : Solid (projection ++ ' ' :: (Keyword.fromText ++ ' ' :: source)) := by
    obtain ⟨first, rest, hfirst, heq⟩ := solid_projection hcolumns
    have happ := hfirst.append (rest ++ ' ' :: (Keyword.fromText ++ [' ']))
      (solid_source hsolid hw)
    rw [hsource] at happ
    simpa [← hprojection, heq] using happ
  obtain ⟨before, hcut, hbefore⟩ := cutAtCondition_source hlacks hw
  rw [hsource] at hcut
  have hread := parseProjection_written hcolumns
  have hfrom := lacks_projection hcolumns
  rw [hprojection] at hread hfrom
  rw [hsolid.trim_eq] at hbefore
  rw [hline, parse_verb _ hrest, parseRest, parseSelect]
  simp only [bind_ok_iff]
  exact ⟨_, cutAtKeyword_written isWord_from hfrom source, columns, hread, _, hcut, table,
    tableName_of_trim hbefore hsolid, rfl⟩

theorem parse_delete {table condition : Text}
    (h : Legible (.onTable table (.delete condition))) :
    parse (written (.onTable table (.delete condition))) =
      .ok (.onTable table (.delete condition)) := by
  obtain ⟨hsolid, hlacks, hw⟩ := h
  have hline : written (.onTable table (.delete condition)) = Verb.delete.text ++ ' ' ::
      (Keyword.fromText ++ [' '] ++ (table ++ Action.writtenCondition condition)) := by
    have hverb : "DELETE FROM ".toList = Verb.delete.text ++ ' ' :: (Keyword.fromText ++ [' ']) := by
      decide
    show "DELETE FROM ".toList ++ table ++ Action.writtenCondition condition = _
    rw [hverb]
    simp only [List.append_assoc, List.cons_append, List.nil_append]
  have hrest : Solid (Keyword.fromText ++ [' '] ++ (table ++ Action.writtenCondition condition)) := by
    have happ := (solid_of_isWord isWord_from).append
      (' ' :: (table ++ ' ' :: (Keyword.whereText ++ [' ']))) hw
    simpa [writtenCondition_eq] using happ
  rw [hline, parse_verb _ hrest, parseRest, parseDelete, after?_append]
  simp only [bind_ok_iff]
  refine ⟨_, cutAtRequiredCondition_ok_iff.2 (cutAtCondition_written hlacks hw), table,
    tableName_concat hsolid, rfl⟩

theorem parseAssignment_congr {clause other : Text} (htrim : trim clause = trim other)
    (h : (cutAt '=' clause).map trim = (cutAt '=' other).map trim) :
    parseAssignment clause = parseAssignment other := by
  rw [parseAssignment, parseAssignment, htrim]
  generalize cutAt '=' clause = pieces at h ⊢
  generalize cutAt '=' other = others at h ⊢
  rcases pieces with _ | ⟨_, _ | ⟨_, _ | ⟨_, _⟩⟩⟩ <;>
    rcases others with _ | ⟨_, _ | ⟨_, _ | ⟨_, _⟩⟩⟩ <;> simp_all

theorem parseAssignment_cons_blank (clause : Text) :
    parseAssignment (' ' :: clause) = parseAssignment clause := by
  apply parseAssignment_congr (trim_cons_blank clause)
  exact map_cutAt_cons (by decide) trim trim_cons_blank clause

theorem parseAssignment_concat_blank (clause : Text) :
    parseAssignment (clause ++ [' ']) = parseAssignment clause := by
  apply parseAssignment_congr (trim_concat_blank clause)
  exact map_cutAt_concat (by decide) trim trim_concat_blank clause

theorem parseAssignment_written {a : Text × Text}
    (h : Action.LegibleSide a.1 ∧ Action.LegibleSide a.2) :
    parseAssignment (Action.writtenAssignment a) = .ok a := by
  have hcut : cutAt '=' (Action.writtenAssignment a) = [a.1, a.2] := by
    rw [Action.writtenAssignment, cutAt,
      cutWhere_append_cons (not_separates h.1.noEquals) (beq_self_eq_true '='),
      cutWhere_eq_singleton (not_separates h.2.noEquals)]
  rw [parseAssignment, hcut]
  dsimp only
  rw [h.1.trimmed, h.2.trimmed]

theorem parseAssignments_written {assignments : List (Text × Text)} (hne : assignments ≠ [])
    (h : ∀ a ∈ assignments, Action.LegibleSide a.1 ∧ Action.LegibleSide a.2) :
    parseAssignments (cutAt ','
      (' ' :: commaSeparated (assignments.map Action.writtenAssignment) ++ [' '])) =
        .ok assignments := by
  have hcomma : ∀ part ∈ assignments.map Action.writtenAssignment, ',' ∉ part := by
    intro part hp
    obtain ⟨a, ha, rfl⟩ := List.mem_map.1 hp
    simp [Action.writtenAssignment, (h a ha).1.noComma, (h a ha).2.noComma]
  rw [parseAssignments_ok_iff, map_cutAt_concat (by decide) _ parseAssignment_concat_blank,
    map_cutAt_cons (by decide) _ parseAssignment_cons_blank,
    map_cutAt_commaSeparated (by simpa using hne) hcomma _ parseAssignment_cons_blank, List.map_map]
  apply List.map_congr_left
  intro a ha
  exact parseAssignment_written (h a ha)

theorem lacks_assignments {assignments : List (Text × Text)}
    (h : ∀ a ∈ assignments, Action.LegibleSide a.1 ∧ Action.LegibleSide a.2) :
    Lacks Keyword.whereText (commaSeparated (assignments.map Action.writtenAssignment)) := by
  show Lacks Keyword.whereText (joined [',', ' '] (assignments.map Action.writtenAssignment))
  rw [lacks_joined_iff isWord_where (by simp) separators]
  intro part hp
  obtain ⟨a, ha, rfl⟩ := List.mem_map.1 hp
  rw [Action.writtenAssignment, lacks_append_cons_iff isWord_where (punctuation '=' (by simp))]
  exact ⟨(h a ha).1.lacks, (h a ha).2.lacks⟩

theorem parse_updating {table w : Text} (hsolid : Solid table) (hlacks : Lacks Keyword.setText table)
    (hw : Solid w) (list : Text) {s : Statement} :
    parse ("UPDATE ".toList ++ table ++ " SET ".toList ++ list ++ Action.writtenCondition w) = .ok s ↔
      ∃ clauses condition assignments,
        cutAtCondition (' ' :: (list ++ Action.writtenCondition w)) = .ok (clauses, some condition) ∧
        parseAssignments (cutAt ',' clauses) = .ok assignments ∧
        s = .onTable table (.update assignments condition) := by
  let tail := list ++ Action.writtenCondition w
  have hline : "UPDATE ".toList ++ table ++ " SET ".toList ++ list ++ Action.writtenCondition w =
      Verb.update.text ++ ' ' :: (table ++ ' ' :: (Keyword.setText ++ ' ' :: tail)) := by
    have hverb : "UPDATE ".toList = Verb.update.text ++ [' '] := by decide
    have hset : " SET ".toList = ' ' :: (Keyword.setText ++ [' ']) := by decide
    rw [hverb, hset]
    simp only [tail, List.append_assoc, List.cons_append, List.nil_append]
  have hrest : Solid (table ++ ' ' :: (Keyword.setText ++ ' ' :: tail)) := by
    have happ := hsolid.append
      (' ' :: (Keyword.setText ++ ' ' :: (list ++ ' ' :: (Keyword.whereText ++ [' '])))) hw
    simpa [tail, writtenCondition_eq] using happ
  have hset := cutAtKeyword_written isWord_set hlacks tail
  have hname := tableName_concat hsolid
  rw [hline, parse_verb _ hrest, parseRest, parseUpdate]
  simp only [bind_ok_iff, pure_ok_iff]
  constructor
  · rintro ⟨cut, hcut, ⟨clauses, condition⟩, hcondition, assignments, hassignments, name, hread, rfl⟩
    cases hset.symm.trans hcut
    cases hname.symm.trans hread
    exact ⟨clauses, condition, assignments, cutAtRequiredCondition_ok_iff.1 hcondition,
      hassignments, rfl⟩
  · rintro ⟨clauses, condition, assignments, hcondition, hassignments, rfl⟩
    exact ⟨_, hset, _, cutAtRequiredCondition_ok_iff.2 hcondition, assignments, hassignments, table,
      hname, rfl⟩

theorem parse_update {table condition : Text} {assignments : List (Text × Text)}
    (h : Legible (.onTable table (.update assignments condition))) :
    parse (written (.onTable table (.update assignments condition))) =
      .ok (.onTable table (.update assignments condition)) := by
  obtain ⟨hsolid, hlacks, hne, hsides, hw⟩ := h
  have hwhere := (lacks_cons_blank_iff isWord_where _).2 (lacks_assignments hsides)
  exact (parse_updating hsolid hlacks hw _).2 ⟨_, condition, assignments,
    cutAtCondition_written hwhere hw, parseAssignments_written hne hsides, rfl⟩

theorem parse_written {s : Statement} (h : s.Legible) : parse s.written = .ok s := by
  match s with
  | .createTable _ _ _ => exact parse_createTable h
  | .onTable _ (.insert _) => exact parse_insert h
  | .onTable _ (.select _ _) => exact parse_select h
  | .onTable _ (.update _ _) => exact parse_update h
  | .onTable _ (.delete _) => exact parse_delete h
  | .showTables => rfl
  | .stop => rfl
  | .purgeAndStop => rfl

end Statement
end LineTables
