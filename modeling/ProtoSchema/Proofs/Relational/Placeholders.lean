import Mathlib.Data.List.Perm.Basic
import Mathlib.Data.List.Range
import ProtoSchema.Relational.Query

/-!
# Placeholders and columns

The placeholders of a statement say which value goes where, so their numbers have to fit the
columns: those of an insertion all columns, those of an update the columns other than the key,
behind the number of the key.

A statement is taken apart into pieces, which are words of its own, names and placeholders; they
say where each placeholder stands. Where no name has the sign of a placeholder in it, the
placeholders can also be read back from the text.

Key results:
* `Query.texts_pieces`, `Query.numbers_pieces` — statements and the numbers in them
* `Piece.placeholdersIn_texts` — placeholders are read back
* `QueryTarget.exists_condition` — the number of the key stands in the condition on it
* `queries_of_columns` — the statements of tables, and their document
-/

namespace ProtoSchema.Relational

/-! ## Pieces of statements -/

/-- A piece of a statement. -/
inductive Piece where
  /-- Words of the statement itself. -/
  | words (text : String)
  /-- The name of a table, of a column, or of rows in query names. -/
  | name (text : String)
  | placeholder (number : Nat)
deriving DecidableEq, Repr

namespace Piece

/-- The text of a piece. -/
def text : Piece → String
  | words text | name text => text
  | placeholder number => "$" ++ toString number

/-- The number of a placeholder. -/
def number? : Piece → Option Nat
  | words _ | name _ => none
  | placeholder number => some number

/-- The text of pieces. -/
def texts (ps : List Piece) : String :=
  String.join (ps.map text)

/-- The numbers of the placeholders among pieces, in order. -/
def numbers (ps : List Piece) : List Nat :=
  ps.filterMap number?

/-- Groups of pieces with the same words between them. -/
def separated (separator : String) (groups : List (List Piece)) : List Piece :=
  [words separator].intercalate groups

/-- Names separated by commas. -/
def listing (names : List String) : List Piece :=
  separated ", " (names.map ([name ·]))

/-- A name and the placeholder of its value. -/
def assignment (p : String × Nat) : List Piece :=
  [name p.1, words " = ", placeholder p.2]

/-- Names and placeholders, each pair on an indented line. -/
def assignmentLines (ps : List (String × Nat)) : List Piece :=
  separated ",\n" (ps.map (words "  " :: assignment ·))

variable {ps qs : List Piece} {separator : String}

@[simp] theorem texts_nil : texts [] = "" := rfl

@[simp] theorem texts_words (text : String) : texts (words text :: ps) = text ++ texts ps := by
  simp [texts, Piece.text]

@[simp] theorem texts_name (text : String) : texts (name text :: ps) = text ++ texts ps := by
  simp [texts, Piece.text]

@[simp] theorem texts_placeholder (n : Nat) :
    texts (placeholder n :: ps) = Query.placeholder n ++ texts ps := by
  simp [texts, Piece.text, Query.placeholder]

@[simp] theorem texts_append : texts (ps ++ qs) = texts ps ++ texts qs := by
  simp [texts]

@[simp] theorem numbers_nil : numbers [] = [] := rfl

@[simp] theorem numbers_words (text : String) : numbers (words text :: ps) = numbers ps := rfl

@[simp] theorem numbers_name (text : String) : numbers (name text :: ps) = numbers ps := rfl

@[simp] theorem numbers_placeholder (n : Nat) :
    numbers (placeholder n :: ps) = n :: numbers ps := rfl

@[simp] theorem numbers_append : numbers (ps ++ qs) = numbers ps ++ numbers qs := by
  simp [numbers]

@[simp] theorem separated_nil : separated separator [] = [] := by
  simp [separated]

@[simp] theorem separated_singleton (g : List Piece) : separated separator [g] = g := by
  simp [separated]

@[simp] theorem separated_cons_cons (g h : List Piece) (groups : List (List Piece)) :
    separated separator (g :: h :: groups)
      = g ++ words separator :: separated separator (h :: groups) := by
  simp [separated]

/-- Groups with a separator between them are written as their texts with it between them. -/
theorem texts_separated (groups : List (List Piece)) :
    texts (separated separator groups) = separator.intercalate (groups.map texts) := by
  induction groups with
  | nil => simp
  | cons g groups ih =>
    -- Words follow a group when it is not the last one.
    cases groups with
    | nil => simp
    | cons h groups => simp [ih, String.append_assoc]

/-- A separator has no placeholder. -/
theorem numbers_separated (groups : List (List Piece)) :
    numbers (separated separator groups) = groups.flatMap numbers := by
  induction groups with
  | nil => simp
  | cons g groups ih =>
    cases groups with
    | nil => simp
    | cons h groups => simp [ih]

/-- A listing is written as the list of its names. -/
theorem texts_listing (names : List String) : texts (listing names) = nameList names := by
  simp [listing, texts_separated, nameList, Function.comp_def]

/-- A listing has no placeholder. -/
theorem numbers_listing (names : List String) : numbers (listing names) = [] := by
  simp [listing, numbers_separated, List.flatMap_map]

/-- An assignment is written as the equation of its column and placeholder. -/
theorem texts_assignment (p : String × Nat) : texts (assignment p) = Query.equation p := by
  simp [assignment, Query.equation, String.append_assoc]

theorem numbers_assignment (p : String × Nat) : numbers (assignment p) = [p.2] := rfl

/-- Assignments are written on lines of their own. -/
theorem texts_assignmentLines (ps : List (String × Nat)) :
    texts (assignmentLines ps) = ",\n".intercalate ((ps.map Query.equation).map ("  " ++ ·)) := by
  simp [assignmentLines, texts_separated, texts_assignment, Function.comp_def]

/-- The placeholders of assignments are theirs, in order. -/
theorem numbers_assignmentLines (ps : List (String × Nat)) :
    numbers (assignmentLines ps) = ps.map Prod.snd := by
  rw [assignmentLines, numbers_separated, List.flatMap_map, List.map_eq_flatMap]
  rfl

end Piece

namespace Query

/-- The pieces of the statement of a query on the table `table`. -/
def statementPieces (table : String) : Query → List Piece
  | create columns values =>
    [.words "INSERT INTO ", .name table, .words " (\n  "] ++ Piece.listing columns
      ++ [.words "\n) VALUES (\n  "] ++ Piece.separated ", " (values.map ([.placeholder ·]))
      ++ [.words "\n)\nRETURNING "] ++ Piece.listing columns ++ [.words ";\n"]
  | get columns key =>
    [.words "SELECT "] ++ Piece.listing columns ++ [.words " FROM ", .name table]
      ++ [.words "\nWHERE "] ++ Piece.assignment key ++ [.words " LIMIT 1;\n"]
  | list columns order =>
    [.words "SELECT "] ++ Piece.listing columns ++ [.words " FROM ", .name table]
      ++ [.words "\nORDER BY ", .name order, .words ";\n"]
  | update assignments key returning =>
    -- Without assignments, the line break in front of the condition is the one behind `SET`.
    [.words "UPDATE ", .name table, .words " SET\n"]
      ++ Piece.assignmentLines assignments
      ++ [.words (if assignments.isEmpty then "WHERE " else "\nWHERE ")] ++ Piece.assignment key
      ++ ([.words "\nRETURNING "] ++ Piece.listing returning ++ [.words ";\n"])
  | delete key =>
    [.words "DELETE FROM ", .name table]
      ++ [.words "\nWHERE "] ++ Piece.assignment key ++ [.words ";\n"]

/-- The pieces of the line with the name of a query for rows called `row`. -/
def titlePieces (row : String) (q : Query) : List Piece :=
  [.words "-- name: ", .words q.verb, .name row, .words " ", .words q.cardinality, .words "\n"]

/-- The pieces of a query for rows called `row` of the table `table`. -/
def pieces (row table : String) (q : Query) : List Piece :=
  q.titlePieces row ++ q.statementPieces table

/-- The numbers of the placeholders of a query, in the order of its statement. -/
def placeholders : Query → List Nat
  | create _ values => values
  | get _ key | delete key => [key.2]
  | list _ _ => []
  | update assignments key _ => assignments.map Prod.snd ++ [key.2]

/-- The names in a query besides those of its rows and of its table. -/
def names : Query → List String
  | create columns _ => columns
  | get columns key => columns ++ [key.1]
  | list columns order => columns ++ [order]
  | update assignments key returning => assignments.map Prod.fst ++ key.1 :: returning
  | delete key => [key.1]

/-- The text of a statement is that of its pieces. -/
theorem texts_statementPieces (table : String) (q : Query) :
    Piece.texts (q.statementPieces table) = q.statement table := by
  -- Each case states the text first: then both sides are the same texts, put together differently.
  cases q with
  | create columns values =>
    show _ = "INSERT INTO " ++ table ++ " (\n  " ++ nameList columns ++ "\n) VALUES (\n  "
      ++ ", ".intercalate (values.map placeholder) ++ "\n)\nRETURNING " ++ nameList columns
      ++ ";\n"
    simp [statementPieces, Piece.texts_listing, Piece.texts_separated, Function.comp_def,
      String.append_assoc]
  | get columns key =>
    show _ = "SELECT " ++ nameList columns ++ " FROM " ++ table ++ "\nWHERE " ++ equation key
      ++ " LIMIT 1;\n"
    simp [statementPieces, Piece.texts_listing, Piece.texts_assignment, String.append_assoc]
  | list columns order =>
    show _ = "SELECT " ++ nameList columns ++ " FROM " ++ table ++ "\nORDER BY " ++ order ++ ";\n"
    simp [statementPieces, Piece.texts_listing, String.append_assoc]
  | update assignments key returning =>
    show _ = "UPDATE " ++ table ++ " SET\n" ++ itemLines (assignments.map equation) ++ "WHERE "
      ++ equation key ++ "\nRETURNING " ++ nameList returning ++ ";\n"
    cases assignments with
    | nil =>
      simp [statementPieces, Piece.texts_listing, Piece.texts_assignment,
        Piece.texts_assignmentLines, itemLines, String.append_assoc]
      exact (String.append_assoc ..).symm
    | cons a assignments =>
      simp [statementPieces, Piece.texts_listing, Piece.texts_assignment,
        Piece.texts_assignmentLines, itemLines, String.append_assoc]
  | delete key =>
    show _ = "DELETE FROM " ++ table ++ "\nWHERE " ++ equation key ++ ";\n"
    simp [statementPieces, Piece.texts_assignment, String.append_assoc]

/-- The text of a query is that of its pieces. -/
theorem texts_pieces (row table : String) (q : Query) :
    Piece.texts (q.pieces row table) = q.text row table := by
  rw [pieces, Piece.texts_append, texts_statementPieces]
  simp [titlePieces, Query.text, Query.name, String.append_assoc]

/-- The placeholders among the pieces of a query are those of the query. -/
theorem numbers_pieces (row table : String) (q : Query) :
    Piece.numbers (q.pieces row table) = q.placeholders := by
  have htitle : Piece.numbers (q.titlePieces row) = [] := rfl
  rw [pieces, Piece.numbers_append, htitle, List.nil_append]
  cases q <;>
    simp [statementPieces, placeholders, Piece.numbers_listing, Piece.numbers_separated,
      Piece.numbers_assignment, Piece.numbers_assignmentLines, List.flatMap_map]

end Query

/-! ## Reading placeholders back -/

/-- The numbers behind the signs of placeholders in a text. -/
def placeholdersIn : List Char → List Nat
  | [] => []
  | c :: cs =>
    if c = '$' then Nat.ofDigitChars 10 (cs.takeWhile Char.isDigit) 0 :: placeholdersIn cs
    else placeholdersIn cs

/-- A text without the sign has no placeholders. -/
theorem placeholdersIn_append {xs : List Char} (h : '$' ∉ xs) (ys : List Char) :
    placeholdersIn (xs ++ ys) = placeholdersIn ys := by
  induction xs with
  | nil => rfl
  | cons x xs ih =>
    rw [List.mem_cons, not_or] at h
    rw [List.cons_append, placeholdersIn, if_neg (Ne.symm h.1), ih h.2]

/-- A placeholder is read back when no digit follows it. -/
theorem placeholdersIn_placeholder (n : Nat) {rest : List Char}
    (h : rest.head?.all (!·.isDigit) = true) :
    placeholdersIn ((Query.placeholder n).toList ++ rest) = n :: placeholdersIn rest := by
  have htext : (Query.placeholder n).toList = '$' :: Nat.toDigits 10 n := by
    simp [Query.placeholder, Nat.toList_repr]
  have hdigits : ∀ c ∈ Nat.toDigits 10 n, c.isDigit = true :=
    fun c hc => Nat.isDigit_of_mem_toDigits (by omega) (by omega) hc
  -- The sign is no digit, so no other placeholder starts in the number.
  have hsign : '$' ∉ Nat.toDigits 10 n := fun hmem => absurd (hdigits _ hmem) (by decide)
  have hend : rest.takeWhile Char.isDigit = [] := by
    cases rest with
    | nil => rfl
    | cons c cs => simpa [List.takeWhile_cons] using h
  rw [htext, List.cons_append, placeholdersIn, if_pos rfl, List.takeWhile_append_of_pos hdigits,
    hend, List.append_nil, Nat.ofDigitChars_toDigits (by omega) (by omega),
    placeholdersIn_append hsign]

namespace Piece

/-- The first piece is words that do not start with a digit. -/
def startsApart : List Piece → Bool
  | words text :: _ => text.toList.head?.any (!·.isDigit)
  | _ => false

/-- Pieces whose placeholders can be told from the rest of the text. -/
def Readable : List Piece → Prop
  | [] => True
  | words text :: ps | name text :: ps => '$' ∉ text.toList ∧ Readable ps
  | placeholder _ :: ps => startsApart ps = true ∧ Readable ps

@[simp] theorem startsApart_words {text : String} {ps : List Piece} :
    startsApart (words text :: ps) = text.toList.head?.any (!·.isDigit) := rfl

@[simp] theorem readable_nil : Readable [] := trivial

@[simp] theorem readable_words {text : String} {ps : List Piece} :
    Readable (words text :: ps) ↔ '$' ∉ text.toList ∧ Readable ps := Iff.rfl

@[simp] theorem readable_name {text : String} {ps : List Piece} :
    Readable (name text :: ps) ↔ '$' ∉ text.toList ∧ Readable ps := Iff.rfl

@[simp] theorem readable_placeholder {n : Nat} {ps : List Piece} :
    Readable (placeholder n :: ps) ↔ startsApart ps = true ∧ Readable ps := Iff.rfl

/-- Pieces that start apart start with another character than a digit. -/
theorem isDigit_head_texts {ps : List Piece} (h : startsApart ps = true) :
    (texts ps).toList.head?.all (!·.isDigit) = true := by
  match ps with
  | words text :: ps =>
    rw [texts_words, String.toList_append, List.head?_append]
    rw [startsApart] at h
    -- The next piece is words, which are not empty and start with no digit.
    cases hhead : text.toList.head? with
    | none => simp [hhead] at h
    | some c => simpa [hhead] using h

/-- The placeholders are read back from the text. -/
theorem placeholdersIn_texts {ps : List Piece} (h : Readable ps) :
    placeholdersIn (texts ps).toList = numbers ps := by
  induction ps with
  | nil => rfl
  | cons p ps ih =>
    cases p with
    | words text =>
      rw [texts_words, String.toList_append, placeholdersIn_append h.1, ih h.2, numbers_words]
    | name text =>
      rw [texts_name, String.toList_append, placeholdersIn_append h.1, ih h.2, numbers_name]
    -- A number ends where the next piece starts, which is with no digit.
    | placeholder n =>
      rw [texts_placeholder, String.toList_append,
        placeholdersIn_placeholder n (isDigit_head_texts h.1), ih h.2, numbers_placeholder]

/-- A listing can be read back when no name in it has a dollar sign. -/
@[simp] theorem readable_listing {names : List String} {rest : List Piece} :
    Readable (listing names ++ rest) ↔ (∀ x ∈ names, '$' ∉ x.toList) ∧ Readable rest := by
  rw [listing]
  induction names with
  | nil => simp
  | cons x names ih =>
    cases names with
    | nil => simp
    | cons y names =>
      rw [List.forall_mem_cons, and_assoc, ← ih]
      simp

/-- An assignment can be read back when its name has no dollar sign and no digit follows. -/
@[simp] theorem readable_assignment {p : String × Nat} {rest : List Piece} :
    Readable (assignment p ++ rest)
      ↔ '$' ∉ p.1.toList ∧ startsApart rest = true ∧ Readable rest := by
  simp [assignment]

/-- Placeholders at the ends of groups can be told apart when the separator starts apart. -/
theorem readable_separated {separator : String} {groups : List (List Piece)} {rest : List Piece}
    (hseparator : Readable [words separator]) (hapart : startsApart [words separator] = true)
    (hgroups : ∀ g ∈ groups, ∀ tail, startsApart tail = true → Readable tail → Readable (g ++ tail))
    (hrest : startsApart rest = true) (h : Readable rest) :
    Readable (separated separator groups ++ rest) := by
  induction groups with
  | nil => exact h
  | cons g groups ih =>
    -- What follows a group starts apart: it is the separator or the rest.
    have hfirst := hgroups g List.mem_cons_self
    have hmore := ih fun g hg => hgroups g (List.mem_cons_of_mem _ hg)
    cases groups with
    | nil =>
      rw [separated_singleton]
      exact hfirst rest hrest h
    | cons g' groups =>
      rw [separated_cons_cons, List.append_assoc]
      exact hfirst _ hapart ⟨hseparator.1, hmore⟩

/-- Assignments can be read back, since each one ends with words that start with no digit. -/
theorem readable_assignmentLines {ps : List (String × Nat)} {rest : List Piece}
    (hnames : ∀ p ∈ ps, '$' ∉ p.1.toList) (hrest : startsApart rest = true) (h : Readable rest) :
    Readable (assignmentLines ps ++ rest) := by
  refine readable_separated (by simp) (by simp) ?_ hrest h
  rw [List.forall_mem_map]
  intro p hp tail hapart htail
  simpa [hapart, htail] using hnames p hp

end Piece

namespace Query

variable {row table : String}

/-- The placeholders of a statement can be told apart when its names do not have the sign. -/
theorem readable_statementPieces {q : Query} (htable : '$' ∉ table.toList)
    (hnames : ∀ x ∈ q.names, '$' ∉ x.toList) : Piece.Readable (q.statementPieces table) := by
  cases q with
  | create columns values =>
    simp only [names] at hnames
    have hvalues : Piece.Readable (Piece.separated ", " (values.map ([Piece.placeholder ·]))
        ++ Piece.words "\n)\nRETURNING " :: (Piece.listing columns ++ [Piece.words ";\n"])) := by
      refine Piece.readable_separated (by simp) (by simp) ?_ (by simp) (by simpa using hnames)
      rw [List.forall_mem_map]
      exact fun _ _ _ hrest h => ⟨hrest, h⟩
    simpa [statementPieces, htable, hvalues] using hnames
  | get columns key =>
    simp only [names, List.forall_mem_append, List.forall_mem_singleton] at hnames
    simpa [statementPieces, htable, hnames.2] using hnames.1
  | list columns order =>
    simp only [names, List.forall_mem_append, List.forall_mem_singleton] at hnames
    simpa [statementPieces, htable, hnames.2] using hnames.1
  | update assignments key returning =>
    simp only [names, List.forall_mem_append, List.forall_mem_cons, List.forall_mem_map] at hnames
    obtain ⟨hassigned, hkey, hreturning⟩ := hnames
    -- What follows the assigned lines starts with no digit, whether or not there are any.
    have hwhere : Piece.Readable
        (Piece.words (if assignments.isEmpty then "WHERE " else "\nWHERE ")
          :: (Piece.assignment key ++ Piece.words "\nRETURNING "
            :: (Piece.listing returning ++ [Piece.words ";\n"]))) := by
      cases assignments <;> simpa [hkey] using hreturning
    have hlines := Piece.readable_assignmentLines hassigned (by cases assignments <;> simp) hwhere
    simpa [statementPieces, htable] using hlines
  | delete key =>
    have hkey := hnames key.1 (List.mem_singleton_self _)
    simp [statementPieces, htable, hkey]

/-- The placeholders of a query are read back from its text when its names do not have the sign. -/
theorem placeholdersIn_text {q : Query} (hrow : '$' ∉ row.toList)
    (htable : '$' ∉ table.toList) (hnames : ∀ x ∈ q.names, '$' ∉ x.toList) :
    placeholdersIn (q.text row table).toList = q.placeholders := by
  rw [← numbers_pieces row table, ← texts_pieces row table]
  apply Piece.placeholdersIn_texts
  -- No dollar sign stands in the fixed words, so only placeholders are counted.
  have hverb : '$' ∉ q.verb.toList := by
    cases q <;> simp [verb]
  have hcardinality : '$' ∉ q.cardinality.toList := by
    cases q <;> simp [cardinality]
  simp [pieces, titlePieces, hverb, hcardinality, hrow, readable_statementPieces htable hnames]

end Query

/-! ## Queries of a table -/

namespace QueryTarget

variable (t : QueryTarget)

/-- All that a query of a table can be. -/
theorem mem_queries {t : QueryTarget} {q : Query} (h : q ∈ t.queries) :
    q = .create t.columns (List.range' 1 t.columns.length)
      ∨ q = .get t.columns (t.primaryKey, 1)
      ∨ q = .list t.columns t.primaryKey
      ∨ (t.assignments.isEmpty = false
        ∧ q = .update t.assignments (t.primaryKey, 1) t.columns)
      ∨ q = .delete (t.primaryKey, 1) := by
  rw [queries] at h
  split at h
  · cases h
  · simp only [List.cons_append, List.nil_append, List.mem_cons, List.mem_append, List.not_mem_nil,
      or_false] at h
    -- The update is there only when some column is no key.
    cases hempty : t.assignments.isEmpty <;> simpa [hempty] using h

/-- The queries of a table name its columns and its key. -/
theorem names_of_mem_queries {q : Query} (hq : q ∈ t.queries) {x : String} (hx : x ∈ q.names) :
    x = t.primaryKey ∨ x ∈ t.columns := by
  -- The assigned columns are among those of the table.
  have hassigned : ∀ y ∈ t.assignments.map Prod.fst, y ∈ t.columns := by
    rw [map_fst_assignments]
    exact fun y hy => List.mem_of_mem_filter hy
  rcases mem_queries hq with rfl | rfl | rfl | ⟨-, rfl⟩ | rfl
  · exact .inr hx
  · simpa [Query.names, or_comm] using hx
  · simpa [Query.names, or_comm] using hx
  · rcases List.mem_append.1 hx with hx | hx
    · exact .inr (hassigned x hx)
    · exact List.mem_cons.1 hx
  · exact .inl (List.mem_singleton.1 hx)

/-- Assigned columns have the numbers from two on. -/
theorem map_snd_assignments : t.assignments.map Prod.snd
    = List.range' 2 (t.columns.filter (· ≠ t.primaryKey)).length :=
  List.zipIdx_map_snd 2 _

/-- The first placeholder is that of the key, so no assignment has it. -/
theorem one_notMem_assignments : 1 ∉ t.assignments.map Prod.snd := by
  rw [map_snd_assignments, List.mem_range'_1]
  omega

/-- The number of the key stands once in a query by key, in the condition on it. -/
theorem exists_condition {q : Query} (hq : q ∈ t.queries)
    (hverb : q.verb ∈ ["Get", "Update", "Delete"]) : ∃ before after,
      q.pieces t.row t.table.name = before ++ [Piece.words "\nWHERE ", Piece.name t.primaryKey,
        Piece.words " = ", Piece.placeholder 1] ++ after
      ∧ 1 ∉ Piece.numbers before ∧ Piece.numbers after = [] := by
  -- The line with the name of a query has no placeholders.
  suffices h : ∃ before after, q.statementPieces t.table.name
      = before ++ [Piece.words "\nWHERE "] ++ Piece.assignment (t.primaryKey, 1) ++ after
        ∧ 1 ∉ Piece.numbers before ∧ Piece.numbers after = [] by
    obtain ⟨before, after, hpieces, hbefore, hafter⟩ := h
    refine ⟨q.titlePieces t.row ++ before, after, ?_, ?_, hafter⟩
    · simp [Query.pieces, hpieces, Piece.assignment]
    · simpa [Query.titlePieces] using hbefore
  rcases mem_queries hq with rfl | rfl | rfl | ⟨hassigned, rfl⟩ | rfl
  · simp [Query.verb] at hverb
  · exact ⟨_, _, rfl, by simp [Piece.numbers_listing], rfl⟩
  · simp [Query.verb] at hverb
  · refine ⟨_, _, by rw [Query.statementPieces, hassigned, if_neg Bool.false_ne_true], ?_, ?_⟩
    · simpa [Piece.numbers_assignmentLines] using t.one_notMem_assignments
    · simp [Piece.numbers_listing]
  · exact ⟨_, _, rfl, by simp, rfl⟩

/-- The queries of a table with columns. -/
theorem queries_of_ne_nil (h : t.columns ≠ []) :
    let others := t.columns.filter (· ≠ t.primaryKey)
    t.queries = [Query.create t.columns (List.range' 1 t.columns.length),
        Query.get t.columns (t.primaryKey, 1), Query.list t.columns t.primaryKey]
      ++ (if others.length = 0 then []
        else [Query.update (others.zip (List.range' 2 others.length)) (t.primaryKey, 1) t.columns])
      ++ [Query.delete (t.primaryKey, 1)] := by
  intro others
  have hassignments : t.assignments = others.zip (List.range' 2 others.length) :=
    List.zipIdx_eq_zip_range'
  have hempty : t.assignments.isEmpty = true ↔ others.length = 0 := by
    rw [List.isEmpty_iff_length_eq_zero, assignments, List.length_zipIdx]
  rw [queries, if_neg (by simpa using h)]
  simp only [hempty]
  rw [hassignments]

/-- The numbers of the placeholders of each query of a table with columns. -/
theorem map_placeholders_queries (h : t.columns ≠ []) :
    let k := (t.columns.filter (· ≠ t.primaryKey)).length
    t.queries.map (fun q => (q.verb, q.placeholders))
      = [("Create", List.range' 1 t.columns.length), ("Get", [1]), ("List", [])]
        ++ (if k = 0 then [] else [("Update", List.range' 2 k ++ [1])]) ++ [("Delete", [1])] := by
  intro k
  -- The update numbers its columns from 2 and ends with the key, which is 1.
  have hnumbers : ((t.columns.filter (· ≠ t.primaryKey)).zip (List.range' 2 k)).map Prod.snd
      = List.range' 2 k :=
    List.map_snd_zip (by rw [List.length_range'])
  rw [t.queries_of_ne_nil h, List.map_append, List.map_append]
  split
  · rfl
  · exact congrArg (fun ns => _ ++ [("Update", ns ++ [1])] ++ _) hnumbers

/-- The placeholders are read back from the statements when no name has their sign. -/
theorem map_placeholdersIn_statements (hrow : '$' ∉ t.row.toList)
    (htable : '$' ∉ t.table.name.toList) (hkey : '$' ∉ t.primaryKey.toList)
    (hcolumns : ∀ name ∈ t.columns, '$' ∉ name.toList) :
    t.statements.map (placeholdersIn ·.toList) = t.queries.map Query.placeholders := by
  rw [statements, List.map_map]
  refine List.map_congr_left fun q hq => Query.placeholdersIn_text hrow htable fun x hx => ?_
  -- A query names the key and columns of the table, and nothing else.
  rcases t.names_of_mem_queries hq hx with rfl | hx
  · exact hkey
  · exact hcolumns x hx

end QueryTarget

/-- Texts made in groups are joined group by group. -/
theorem join_map_flatMap {α : Type} (f : α → List String) (g : String → String) (xs : List α) :
    String.join ((xs.flatMap f).map g)
      = String.join (xs.map fun x => String.join ((f x).map g)) := by
  induction xs with
  | nil => rfl
  | cons x xs ih => simp [ih]

/-- The numbers from two on and one are the numbers from one on. -/
theorem perm_range'_append_one (k : Nat) :
    (List.range' 2 k ++ [1]).Perm (List.range' 1 (k + 1)) := by
  rw [List.range'_succ]
  exact List.perm_append_singleton 1 _

/-- The queries of a table follow from its columns and its key, and so do their placeholders. An
insertion has the numbers from one on for all columns, in order; an update has the numbers from two
on for the columns other than the key, in order, and is left out where there are none; and one is
the number of the key, in the condition on it. So the placeholders of an update are the numbers
from one on, each used once. The document of several tables has one head, and then the statements
of each table. -/
theorem queries_of_columns (sources : List String) (targets : List QueryTarget) :
    (∀ t : QueryTarget,
      let names := t.table.columns.map (·.name)
      let others := names.filter (· ≠ t.primaryKey)
      let pieces := Query.pieces t.row t.table.name
      t.statements = t.queries.map (fun q => Piece.texts (pieces q))
        ∧ (names = [] → t.queries = [])
        ∧ (names ≠ [] →
          t.queries = [Query.create names (List.range' 1 names.length),
              Query.get names (t.primaryKey, 1), Query.list names t.primaryKey]
            ++ (if others.length = 0 then []
              else
                [Query.update (others.zip (List.range' 2 others.length)) (t.primaryKey, 1) names])
            ++ [Query.delete (t.primaryKey, 1)]
          ∧ t.queries.map (fun q => (q.verb, Piece.numbers (pieces q)))
            = [("Create", List.range' 1 names.length), ("Get", [1]), ("List", [])]
              ++ (if others.length = 0 then []
                else [("Update", List.range' 2 others.length ++ [1])])
              ++ [("Delete", [1])])
        ∧ (List.range' 2 others.length ++ [1]).Perm (List.range' 1 (others.length + 1))
        ∧ (∀ q ∈ t.queries, q.verb ∈ ["Get", "Update", "Delete"] → ∃ before after,
          pieces q = before ++ [Piece.words "\nWHERE ", Piece.name t.primaryKey,
              Piece.words " = ", Piece.placeholder 1] ++ after
            ∧ 1 ∉ Piece.numbers before ∧ Piece.numbers after = [])
        ∧ ('$' ∉ t.row.toList → '$' ∉ t.table.name.toList → '$' ∉ t.primaryKey.toList →
          (∀ name ∈ names, '$' ∉ name.toList) →
            t.statements.map (placeholdersIn ·.toList) = t.queries.map (Piece.numbers ∘ pieces)))
      ∧ queryDocument sources targets
        = "-- Code generated by protoc-gen-sqlc. DO NOT EDIT.\n"
          ++ (if sources = [] then "" else "-- source:\n")
          ++ String.join (sources.map fun source => "--   " ++ source ++ "\n")
          ++ String.join (targets.map fun t => String.join (t.statements.map ("\n" ++ ·))) := by
  refine ⟨fun t => ?_, ?_⟩
  · intro names others pieces
    have htexts : Piece.texts ∘ pieces = Query.text t.row t.table.name :=
      funext (Query.texts_pieces t.row t.table.name)
    -- The pieces of a query spell its text and hold its placeholders.
    have hnumbers : Piece.numbers ∘ pieces = Query.placeholders :=
      funext (Query.numbers_pieces t.row t.table.name)
    have hlisted : (fun q => (q.verb, Piece.numbers (pieces q)))
        = fun q => (q.verb, q.placeholders) :=
      funext fun q => congrArg (q.verb, ·) (Query.numbers_pieces t.row t.table.name q)
    refine ⟨?_, ?_, ?_, perm_range'_append_one _, fun q => t.exists_condition, ?_⟩
    · exact congrArg (t.queries.map ·) htexts.symm
    · intro h
      exact t.queries_eq_nil_iff.2 (List.map_eq_nil_iff.1 h)
    · intro h
      rw [hlisted]
      exact ⟨t.queries_of_ne_nil h, t.map_placeholders_queries h⟩
    · rw [hnumbers]
      exact t.map_placeholdersIn_statements
  · rw [queryDocument, document, join_map_flatMap, documentHead]
    simp only [List.isEmpty_iff, generatedLine]

/-- A table with its key between other columns, two of which have the same name. -/
def seatTarget : QueryTarget where
  table := {
    name := "seats"
    columns := [
      { name := "row", type := .integer },
      { name := "id", type := .uuid },
      { name := "label", type := .text },
      { name := "row", type := .integer }] }
  row := "Seat"

/-- The placeholders are read back from its statements. -/
theorem queries_of_columns_seatTarget : seatTarget.statements.map (placeholdersIn ·.toList)
    = [[1, 2, 3, 4], [1], [], [2, 3, 4, 1], [1]] := by
  obtain ⟨-, -, -, -, -, hread⟩ := (queries_of_columns [] [seatTarget]).1 seatTarget
  exact (hread (by decide) (by decide) (by decide) (by decide)).trans (by decide)

end ProtoSchema.Relational
