import ProtoSchema.Proofs.Sql.DefinitionTokens
import ProtoSchema.Proofs.Sql.SqlReader

/-!
# Closed texts

Names, types and defaults are pasted into definitions as they are. A text is closed for a reader of
SQL when it is cut into tokens by itself: no quote and no comment is left open in it, and no
semicolon stands outside of them. A definition of closed texts has a semicolon at its end and
nowhere else.

Key results:
* `SqlReader.isClosed_quote`, `SqlReader.isClosedTable_of_isPlainTable` — literals of any text are
  closed, and so are plain names and defaults
* `SqlReader.cuts_closedTable`, `SqlReader.cuts_closedIndex` — definitions of closed texts
-/

namespace ProtoSchema.Sql

open Relational

/-- What stands behind a text that is pasted into a definition, or the end. -/
def endsText : Option Char → Prop := fun o => ∀ c ∈ o, c ∈ [' ', ',', ')', '\n']

theorem endsText_some {c : Char} (h : c ∈ [' ', ',', ')', '\n']) : endsText (some c) := by
  intro d hd
  cases hd
  exact h

/-- What stands behind a pasted text ends a word. -/
theorem endsWord_of_endsText {o : Option Char} (h : endsText o) : endsWord o := by
  have hgap : [' ', ',', ')', '\n'].all (blanks ++ marks).contains = true := by decide
  intro c hc
  have hmem := List.all_eq_true.1 hgap c (h c hc)
  rwa [List.contains_iff_mem, List.mem_append] at hmem

/-- What stands behind an item of a table body may stand behind a pasted text. -/
theorem endsText_of_endsItem {o : Option Char} (h : endsItem o) : endsText o := by
  rcases h with rfl | rfl
  · exact endsText_some (by decide)
  · exact endsText_some (by decide)

/-- Where each step goes over something in between, so does the whole. -/
theorem exists_forall₂_comp {α β γ : Type} {r : α → β → Prop} {s : β → γ → Prop} {as : List α}
    {cs : List γ} (h : List.Forall₂ (fun a c => ∃ b, s b c ∧ r a b) as cs) :
    ∃ bs, List.Forall₂ r as bs ∧ List.Forall₂ s bs cs := by
  induction h with
  | nil => exact ⟨[], .nil, .nil⟩
  | cons hac _ ih =>
    obtain ⟨b, hs, hr⟩ := hac
    obtain ⟨bs, hrs, hss⟩ := ih
    exact ⟨b :: bs, .cons hr hrs, .cons hs hss⟩

/-- The indexes of a schema with their tables, in the order of their definitions. -/
def placedIndexes (schema : Schema) : List (String × Index) :=
  schema.tables.flatMap fun t => t.indexes.map (t.name, ·)

namespace SqlReader

section

variable {ε : Type} (reader : SqlReader ε)

/-- The text is cut into tokens of which none is a semicolon, wherever `next` stands behind it. -/
def CutsClosed (s : List Char) (next : Option Char → Prop) : Prop :=
  ∃ ts, reader.Cuts s ts next ∧ .symbol ";" ∉ ts

/-- The text is cut into tokens by itself, of which none is a semicolon. -/
def IsClosed (s : String) : Prop :=
  reader.CutsClosed s.toList endsText

/-- A column of closed texts. -/
structure IsClosedColumn (c : Column) : Prop where
  name : reader.IsClosed c.name
  type : ∀ n, c.type = .enum n → reader.IsClosed n
  default : ∀ literal, c.default = some literal → reader.IsClosed literal

/-- A constraint of closed texts. -/
structure IsClosedConstraint (c : Constraint) : Prop where
  columns : ∀ n ∈ c.columns, reader.IsClosed n
  reference : ∀ r, c.reference = some r →
    reader.IsClosed r.table ∧ ∀ n ∈ r.columns, reader.IsClosed n

/-- A table of closed texts. -/
structure IsClosedTable (t : Table) : Prop where
  name : reader.IsClosed t.name
  columns : ∀ c ∈ t.columns, reader.IsClosedColumn c
  constraints : ∀ c ∈ t.constraints, reader.IsClosedConstraint c
  indexes : ∀ i ∈ t.indexes, reader.IsClosed i.name ∧ ∀ n ∈ i.columns, reader.IsClosed n

/-- The tokens of a text by itself, none if it cannot be cut. -/
def tokensOf (s : String) : List Token :=
  (reader.tokens s.toList).getD []

end

variable {ε : Type} {reader : SqlReader ε}

/-! ## Texts put together -/

namespace CutsClosed

variable {s u : List Char} {next next' : Option Char → Prop}

/-- Two closed parts make a closed whole. -/
theorem append (hs : reader.CutsClosed s next) (hu : reader.CutsClosed u next')
    (hnext : ∀ o, next' o → next (u.head?.or o)) : reader.CutsClosed (s ++ u) next' := by
  obtain ⟨ts, hts, hnone⟩ := hs
  obtain ⟨us, hus, hnone'⟩ := hu
  exact ⟨ts ++ us, hts.append hus hnext, by simp [hnone, hnone']⟩

theorem mono (hs : reader.CutsClosed s next) (h : ∀ o, next' o → next o) :
    reader.CutsClosed s next' := by
  obtain ⟨ts, hts, hnone⟩ := hs
  exact ⟨ts, hts.mono h, hnone⟩

/-- Closed texts with a separator between them are closed. -/
theorem intercalate {sep : List Char} (hsep : reader.CutsClosed sep anyNext)
    (hnext : ∀ o, next (sep.head?.or o)) {texts : List (List Char)}
    (h : ∀ s ∈ texts, reader.CutsClosed s next) :
    reader.CutsClosed (sep.intercalate texts) next := by
  induction texts with
  | nil => exact ⟨[], cuts_nil _, by simp⟩
  | cons s texts ih =>
    obtain ⟨hs, htexts⟩ := List.forall_mem_cons.1 h
    -- The last text has no separator behind it.
    cases texts with
    | nil => simpa using hs
    | cons s' texts =>
      rw [List.intercalate_cons_cons]
      exact (hs.append hsep fun o _ => hnext o).append (ih htexts) fun _ _ => trivial

end CutsClosed

/-- The empty text is closed. -/
theorem closed_nil (next : Option Char → Prop) : reader.CutsClosed [] next :=
  ⟨[], cuts_nil _, by simp⟩

/-- A phrase of the grammar that ends with a blank or a mark, without a semicolon. -/
theorem closed_phrase (hlaw : reader.IsLawful) {phrase : String}
    (h : isPhrase phrase.toList = true ∧ phrase.toList.getLast?.all (!·.isUpper) = true
      ∧ .symbol ";" ∉ plainTokens [] phrase.toList) :
    reader.CutsClosed phrase.toList anyNext :=
  ⟨_, cuts_phrase hlaw h.1 h.2.1 rfl, h.2.2⟩

/-- A phrase of the grammar that ends with a word, without a semicolon. -/
theorem closed_words (hlaw : reader.IsLawful) {phrase : String}
    (h : isPhrase phrase.toList = true ∧ .symbol ";" ∉ plainTokens [] phrase.toList) :
    reader.CutsClosed phrase.toList endsWord :=
  ⟨_, cuts_words hlaw h.1 rfl, h.2⟩

/-- The tokens of a closed text are those it has by itself. -/
theorem IsClosed.cuts {s : String} (h : reader.IsClosed s) (hlaw : reader.IsLawful) :
    reader.tokens s.toList = some (reader.tokensOf s)
      ∧ reader.Cuts s.toList (reader.tokensOf s) endsText
      ∧ .symbol ";" ∉ reader.tokensOf s := by
  obtain ⟨ts, hts, hnone⟩ := h
  have hall := hts.tokens_eq hlaw (by simp [endsText])
  -- The tokens that the text is cut into wherever it stands are those it has alone.
  have htokens : reader.tokensOf s = ts := by rw [tokensOf, hall, Option.getD_some]
  rw [htokens]
  exact ⟨hall, hts, hnone⟩

/-! ## Parts of a table -/

/-- A type is written as a closed text, where it is one by its name. -/
theorem closed_type (hlaw : reader.IsLawful) {type : ColumnType}
    (h : ∀ n, type = .enum n → reader.IsClosed n) :
    reader.CutsClosed type.sql.toList endsText := by
  cases type with
  | enum n => exact h n rfl
  | _ => exact (closed_words hlaw (by decide)).mono fun _ => endsWord_of_endsText

/-- A column of closed texts is written as a closed text. -/
theorem closed_column (hlaw : reader.IsLawful) {c : Column} (h : reader.IsClosedColumn c) :
    reader.CutsClosed c.definition.toList endsText := by
  have hblank : reader.CutsClosed " ".toList anyNext := closed_phrase hlaw (by decide)
  have hnothing : reader.CutsClosed "".toList endsText := closed_nil _
  -- The options start with a blank, so they end what stands in front of them.
  have hnull : reader.CutsClosed (if c.notNull then " NOT NULL" else "").toList endsText := by
    cases c.notNull with
    | false => exact hnothing
    | true => exact (closed_words hlaw (by decide)).mono fun _ => endsWord_of_endsText
  have hdefault : reader.CutsClosed (c.default.elim "" (" DEFAULT " ++ ·)).toList endsText := by
    cases hd : c.default with
    | none => exact hnothing
    | some literal =>
      have hphrase : reader.CutsClosed " DEFAULT ".toList anyNext :=
        closed_phrase hlaw (by decide)
      rw [Option.elim_some, String.toList_append]
      exact hphrase.append (h.default literal hd) fun _ _ => trivial
  have hname : reader.CutsClosed c.name.toList endsText := h.name
  have hparts : c.definition = c.name ++ " " ++ c.type.sql
      ++ (if c.notNull then " NOT NULL" else "") ++ c.default.elim "" (" DEFAULT " ++ ·) := by
    unfold Column.definition
    cases c.default <;> rfl
  rw [hparts, String.toList_append, String.toList_append, String.toList_append,
    String.toList_append]
  have htyped := (hname.append hblank fun _ _ => endsText_some (by decide)).append
    (closed_type hlaw h.type) fun _ _ => trivial
  refine (htyped.append hnull ?_).append hdefault ?_
  · intro o ho
    cases c.notNull with
    | false => exact ho
    | true => exact endsText_some (by decide)
  · intro o ho
    cases c.default with
    | none => exact ho
    | some literal =>
      rw [Option.elim_some, String.toList_append]
      exact endsText_some (by decide)

/-- Closed texts with commas between them. -/
theorem closed_nameList (hlaw : reader.IsLawful) {names : List String}
    (h : ∀ n ∈ names, reader.IsClosed n) :
    reader.IsClosed (nameList names) := by
  have hcomma : reader.CutsClosed ", ".toList anyNext := closed_phrase hlaw (by decide)
  rw [IsClosed, nameList, String.toList_intercalate]
  apply CutsClosed.intercalate hcomma fun _ => endsText_some (by decide)
  intro s hs
  obtain ⟨n, hn, rfl⟩ := List.mem_map.1 hs
  exact h n hn

/-- A list in parentheses ends the word in front of it. -/
theorem endsWord_columnList (names : List String) (o : Option Char) :
    endsWord ((" (" ++ nameList names ++ ")").toList.head?.or o) := by
  rw [String.toList_append, String.toList_append]
  exact endsWord_some (by decide)

/-- Closed texts in parentheses, behind a phrase. -/
theorem closed_keyLine (hlaw : reader.IsLawful) {words : String} {names : List String}
    (hwords : reader.CutsClosed words.toList endsWord) (hnames : ∀ n ∈ names, reader.IsClosed n) :
    reader.CutsClosed (words ++ (" (" ++ nameList names ++ ")")).toList anyNext := by
  have hopen : reader.CutsClosed " (".toList anyNext := closed_phrase hlaw (by decide)
  have hclose : reader.CutsClosed ")".toList anyNext := closed_phrase hlaw (by decide)
  have hlist : reader.CutsClosed (" (" ++ nameList names ++ ")").toList anyNext := by
    rw [String.toList_append, String.toList_append]
    exact (hopen.append (closed_nameList hlaw hnames) fun _ _ => trivial).append hclose
      fun _ _ => endsText_some (by decide)
  rw [String.toList_append]
  exact hwords.append hlist fun o _ => endsWord_columnList names o

/-- A reference of closed texts. -/
theorem closed_clause (hlaw : reader.IsLawful) {r : Reference} (htable : reader.IsClosed r.table)
    (hcolumns : ∀ n ∈ r.columns, reader.IsClosed n) :
    reader.CutsClosed r.clause.toList endsWord := by
  have hreferences : reader.CutsClosed "REFERENCES ".toList anyNext :=
    closed_phrase hlaw (by decide)
  have hopen : reader.CutsClosed " (".toList anyNext := closed_phrase hlaw (by decide)
  have hdelete : reader.CutsClosed ") ON DELETE ".toList anyNext := closed_phrase hlaw (by decide)
  have hupdate : reader.CutsClosed " ON UPDATE ".toList anyNext := closed_phrase hlaw (by decide)
  have haction : ∀ action : ReferentialAction, reader.CutsClosed action.sql.toList endsWord := by
    intro action
    cases action <;> exact closed_words hlaw (by decide)
  -- The clause is put together from the left; what follows a name starts with no part of a name.
  have htarget := ((hreferences.append htable fun _ _ => trivial).append hopen
    fun _ _ => endsText_some (by decide)).append (closed_nameList hlaw hcolumns) fun _ _ => trivial
  have honDelete := (htarget.append hdelete fun _ _ => endsText_some (by decide)).append
    (haction r.onDelete) fun _ _ => trivial
  have hactions := (honDelete.append hupdate fun _ _ => endsWord_some (by decide)).append
    (haction r.onUpdate) fun _ _ => trivial
  unfold Reference.clause
  simpa only [String.toList_append] using hactions

/-- A constraint of closed texts that has a line. -/
theorem closed_constraint (hlaw : reader.IsLawful) {table line : String} {c : Constraint}
    (hc : reader.IsClosedConstraint c) (hline : c.definition table = .ok line) :
    reader.CutsClosed line.toList endsWord := by
  have hblank : reader.CutsClosed " ".toList anyNext := closed_phrase hlaw (by decide)
  have hprimary : reader.CutsClosed "PRIMARY KEY".toList endsWord := closed_words hlaw (by decide)
  have hunique : reader.CutsClosed "UNIQUE".toList endsWord := closed_words hlaw (by decide)
  have hforeign : reader.CutsClosed "FOREIGN KEY".toList endsWord := closed_words hlaw (by decide)
  -- The three kinds of constraint, in the order in which they are written.
  obtain ⟨-, ⟨-, rfl⟩ | ⟨-, rfl⟩ | ⟨-, r, hr, -, rfl⟩⟩ := definition_eq_ok hline
  · exact (closed_keyLine hlaw hprimary hc.columns).mono fun _ _ => trivial
  · exact (closed_keyLine hlaw hunique hc.columns).mono fun _ _ => trivial
  · obtain ⟨htable, hcolumns⟩ := hc.reference r hr
    have hfront := closed_keyLine hlaw hforeign hc.columns
    rw [String.toList_append, String.toList_append]
    exact (hfront.append hblank fun _ _ => trivial).append (closed_clause hlaw htable hcolumns)
      fun _ _ => trivial

/-- Closed items on lines of their own. -/
theorem closed_itemLines (hlaw : reader.IsLawful) {texts : List String}
    (h : ∀ s ∈ texts, reader.CutsClosed s.toList endsItem) :
    reader.CutsClosed (itemLines texts).toList anyNext := by
  cases texts with
  | nil => exact closed_nil _
  | cons text texts =>
    have hindent : reader.CutsClosed "  ".toList anyNext := closed_phrase hlaw (by decide)
    have hbreak : reader.CutsClosed "\n".toList anyNext := closed_phrase hlaw (by decide)
    have hcomma : reader.CutsClosed ",\n".toList anyNext := closed_phrase hlaw (by decide)
    -- Each item stands behind an indent, and a comma or the closing line break ends it.
    have hlines : ∀ s ∈ ((text :: texts).map ("  " ++ ·)).map String.toList,
        reader.CutsClosed s endsItem := by
      intro s hs
      obtain ⟨_, hline, rfl⟩ := List.mem_map.1 hs
      obtain ⟨item, hitem, rfl⟩ := List.mem_map.1 hline
      rw [String.toList_append]
      exact hindent.append (h item hitem) fun _ _ => trivial
    have hall := (CutsClosed.intercalate hcomma (fun _ => .inl rfl) hlines).append hbreak
      fun _ _ => .inr rfl
    rw [← String.toList_intercalate, ← String.toList_append] at hall
    exact hall

/-! ## Definitions -/

/-- The tokens of a statement that creates the table `name`, up to its semicolon. -/
def tableSegment (reader : SqlReader ε) (name : String) (body : List Token) : List Token :=
  .word "CREATE" false :: .word "TABLE" false :: reader.tokensOf name ++ .symbol "(" :: body

/-- The tokens of a statement that creates an index of the table `table`, up to its semicolon. -/
def indexSegment (reader : SqlReader ε) (table : String) (i : Index) (body : List Token) :
    List Token :=
  createIndexWords i.unique ++ reader.tokensOf i.name ++ .word "ON" false :: reader.tokensOf table
    ++ .symbol "(" :: body

/-- The definition of a table of closed texts is one statement. -/
theorem cuts_closedTable (hlaw : reader.IsLawful) {t : Table} {text : String}
    (ht : reader.IsClosedTable t) (htext : t.definition = .ok text) :
    ∃ body, reader.Cuts text.toList (reader.tableSegment t.name body ++ [.symbol ";"]) anyNext
      ∧ .symbol ";" ∉ reader.tableSegment t.name body := by
  obtain ⟨lines, hlines, rfl⟩ := table_definition_eq_ok htext
  have hitems : reader.CutsClosed (itemLines (t.columns.map Column.definition ++ lines)).toList
      anyNext := by
    apply closed_itemLines hlaw
    intro s hs
    rcases List.mem_append.1 hs with hs | hs
    · obtain ⟨c, hc, rfl⟩ := List.mem_map.1 hs
      exact (closed_column hlaw (ht.columns c hc)).mono fun _ => endsText_of_endsItem
    -- Each line of a constraint is the text of a constraint that is closed.
    · have hboth := (List.forall₂_and_left _ _).2 ⟨ht.constraints, hlines⟩
      obtain ⟨c, hc, hline⟩ := exists_of_forall₂ hboth.flip s hs
      exact (closed_constraint hlaw hc hline).mono fun _ h =>
        endsWord_of_endsText (endsText_of_endsItem h)
  -- The body is closed: it cuts into whole tokens, none of them a semicolon.
  obtain ⟨body, hbody, hnone⟩ := hitems
  obtain ⟨-, hname, hnone'⟩ := ht.name.cuts hlaw
  have hcreate : reader.Cuts "CREATE TABLE ".toList [.word "CREATE" false, .word "TABLE" false]
      anyNext := cuts_phrase hlaw (by decide) (by decide) (by decide)
  have hopen : reader.Cuts " (\n".toList [.symbol "("] anyNext :=
    cuts_phrase hlaw (by decide) (by decide) (by decide)
  have hclose : reader.Cuts ");\n".toList [.symbol ")", .symbol ";"] anyNext :=
    cuts_phrase hlaw (by decide) (by decide) (by decide)
  -- The phrases around the name and the body are cut whatever stands between them.
  have hall := (((hcreate.append hname fun _ _ => trivial).append hopen
    fun _ _ => endsText_some (by decide)).append hbody fun _ _ => trivial).append hclose
    fun _ _ => trivial
  refine ⟨body ++ [.symbol ")"], ?_, by simp [tableSegment, hnone, hnone']⟩
  simp only [String.toList_append, tableSegment]
  simpa only [List.append_assoc, List.cons_append, List.nil_append] using hall

/-- The definition of an index of closed texts is one statement. -/
theorem cuts_closedIndex (hlaw : reader.IsLawful) {table text : String} {i : Index}
    (htable : reader.IsClosed table) (hname : reader.IsClosed i.name)
    (hcolumns : ∀ n ∈ i.columns, reader.IsClosed n) (htext : i.definition table = .ok text) :
    ∃ body, reader.Cuts text.toList (reader.indexSegment table i body ++ [.symbol ";"]) anyNext
      ∧ .symbol ";" ∉ reader.indexSegment table i body := by
  obtain ⟨-, rfl⟩ := index_definition_eq_ok htext
  obtain ⟨body, hbody, hnone⟩ := closed_nameList hlaw hcolumns
  obtain ⟨-, hname, hnone'⟩ := hname.cuts hlaw
  obtain ⟨-, htable, hnone''⟩ := htable.cuts hlaw
  have hcreate : reader.Cuts "CREATE ".toList [.word "CREATE" false] anyNext :=
    cuts_phrase hlaw (by decide) (by decide) (by decide)
  have hunique : reader.Cuts (if i.unique then "UNIQUE " else "").toList
      (if i.unique then [.word "UNIQUE" false] else []) anyNext := by
    cases i.unique with
    | false => exact cuts_nil _
    | true => exact cuts_phrase hlaw (by decide) (by decide) (by decide)
  have hindex : reader.Cuts "INDEX ".toList [.word "INDEX" false] anyNext :=
    cuts_phrase hlaw (by decide) (by decide) (by decide)
  have hon : reader.Cuts " ON ".toList [.word "ON" false] anyNext :=
    cuts_phrase hlaw (by decide) (by decide) (by decide)
  have hopen : reader.Cuts " (".toList [.symbol "("] anyNext :=
    cuts_phrase hlaw (by decide) (by decide) (by decide)
  have hclose : reader.Cuts ");\n".toList [.symbol ")", .symbol ";"] anyNext :=
    cuts_phrase hlaw (by decide) (by decide) (by decide)
  -- The statement is put together from the left: the words, the name, the table, the columns.
  have hfront := ((hcreate.append hunique fun _ _ => trivial).append hindex
    fun _ _ => trivial).append hname fun _ _ => trivial
  have htarget := (hfront.append hon fun _ _ => endsText_some (by decide)).append htable
    fun _ _ => trivial
  have hall := ((htarget.append hopen fun _ _ => endsText_some (by decide)).append hbody
    fun _ _ => trivial).append hclose fun _ _ => endsText_some (by decide)
  refine ⟨body ++ [.symbol ")"], ?_, ?_⟩
  · simp only [String.toList_append, indexSegment, createIndexWords]
    simpa only [List.append_assoc, List.cons_append, List.nil_append] using hall
  · cases i.unique <;> simp [indexSegment, createIndexWords, hnone, hnone', hnone'']

/-- Statements one behind the other are cut into their tokens one behind the other. -/
theorem cuts_join {items : List (List Token)} {texts : List String}
    (h : List.Forall₂ (fun ts s => reader.Cuts s.toList (ts ++ [.symbol ";"]) anyNext) items
      texts) :
    reader.Cuts (String.join texts).toList (scriptTokens items) anyNext := by
  rw [String.toList_join]
  induction h with
  | nil => exact cuts_nil _
  | cons hs _ ih => exact hs.append ih fun _ _ => trivial

/-- The tokens create the table `t`. -/
def IsTableSegment (reader : SqlReader ε) (t : Table) (segment : List Token) : Prop :=
  (∃ body, segment = reader.tableSegment t.name body) ∧ .symbol ";" ∉ segment

/-- The tokens create an index of a table. -/
def IsIndexSegment (reader : SqlReader ε) (i : String × Index) (segment : List Token) : Prop :=
  (∃ body, segment = reader.indexSegment i.1 i.2 body) ∧ .symbol ";" ∉ segment

/-- The definitions of a schema of closed texts are one statement each. -/
theorem cuts_closedSchema (hlaw : reader.IsLawful) {schema : Schema} {definitions : List String}
    (hclosed : ∀ t ∈ schema.tables, reader.IsClosedTable t)
    (h : schema.tableDefinitions = .ok definitions) :
    ∃ tables indexes,
      reader.Cuts (String.join definitions).toList (scriptTokens (tables ++ indexes)) anyNext
      ∧ List.Forall₂ reader.IsTableSegment schema.tables tables
      ∧ List.Forall₂ reader.IsIndexSegment (placedIndexes schema) indexes := by
  obtain ⟨tableTexts, indexTexts, htables, hindexes, rfl⟩ := tableDefinitions_eq_ok h
  have hplacedTables : List.Forall₂ (fun t text => ∃ segment,
      reader.Cuts text.toList (segment ++ [.symbol ";"]) anyNext
        ∧ reader.IsTableSegment t segment) schema.tables tableTexts := by
    refine ((List.forall₂_and_left _ _).2 ⟨hclosed, htables⟩).imp ?_
    rintro t text ⟨ht, htext⟩
    obtain ⟨body, hcuts, hnone⟩ := cuts_closedTable hlaw ht htext
    exact ⟨_, hcuts, ⟨body, rfl⟩, hnone⟩
  -- The texts of the indexes come table by table, so they are matched with the flattened list of
  -- the placed indexes.
  have hplacedIndexes : List.Forall₂ (fun (i : String × Index) text => ∃ segment,
      reader.Cuts text.toList (segment ++ [.symbol ";"]) anyNext
        ∧ reader.IsIndexSegment i segment) (placedIndexes schema) indexTexts.flatten := by
    refine List.rel_flatten ?_
    rw [List.forall₂_map_left_iff]
    refine ((List.forall₂_and_left _ _).2 ⟨hclosed, hindexes⟩).imp ?_
    rintro t texts ⟨ht, htexts⟩
    rw [List.forall₂_map_left_iff]
    refine ((List.forall₂_and_left _ _).2 ⟨ht.indexes, htexts⟩).imp ?_
    rintro i text ⟨⟨hname, hcolumns⟩, htext⟩
    obtain ⟨body, hcuts, hnone⟩ := cuts_closedIndex hlaw ht.name hname hcolumns htext
    exact ⟨_, hcuts, ⟨body, rfl⟩, hnone⟩
  -- Choose the segment of each text, to have them as two lists.
  obtain ⟨tables, htables, hcutsTables⟩ := exists_forall₂_comp hplacedTables
  obtain ⟨indexes, hindexes, hcutsIndexes⟩ := exists_forall₂_comp hplacedIndexes
  exact ⟨tables, indexes, cuts_join (List.rel_append hcutsTables hcutsIndexes), htables, hindexes⟩

/-! ## Plain texts -/

/-- A literal is closed, whatever it holds. -/
theorem isClosed_quote (hlaw : reader.IsLawful) (s : String) : reader.IsClosed (quote s) :=
  ⟨_, (hlaw.cuts_quote s).mono fun _ => endsWord_of_endsText, by simp⟩

/-- A word is closed. -/
theorem isClosed_word (hlaw : reader.IsLawful) {n : String} (h : isPlainWord n.toList = true) :
    reader.IsClosed n :=
  ⟨_, (hlaw.cuts_word _ h).mono fun _ => endsWord_of_endsText, by simp⟩

/-- A plain name is closed. -/
theorem isClosed_plainName (hlaw : reader.IsLawful) {n : String} (h : isPlainName n = true) :
    reader.IsClosed n :=
  isClosed_word hlaw (Bool.and_eq_true_iff.1 h).1

/-- A plain default is closed. -/
theorem isClosed_plainDefault (hlaw : reader.IsLawful) {literal : String}
    (h : IsPlainDefault literal) : reader.IsClosed literal := by
  rcases h with ⟨type, value, htype, rfl⟩ | ⟨hne, hdigits⟩ | rfl | rfl
  -- Such a type writes any text as a quoted literal.
  · have hquote : type.defaultLiteral value = quote value := by
      simp [ColumnType.defaultLiteral, htype]
    rw [hquote]
    exact isClosed_quote hlaw value
  · exact ⟨_, (hlaw.cuts_digits _ hne hdigits).mono fun _ => endsWord_of_endsText, by simp⟩
  · exact isClosed_word hlaw (by decide)
  · exact isClosed_word hlaw (by decide)

/-- A table in which all names and defaults are plain is a table of closed texts. -/
theorem isClosedTable_of_isPlainTable (hlaw : reader.IsLawful) {t : Table} (h : IsPlainTable t) :
    reader.IsClosedTable t where
  name := isClosed_plainName hlaw h.name
  columns c hc := {
    name := isClosed_plainName hlaw (h.columns c hc).name
    type := fun n hn => isClosed_plainName hlaw ((h.columns c hc).type n hn)
    default := fun literal hd => isClosed_plainDefault hlaw ((h.columns c hc).default literal hd) }
  constraints c hc := {
    columns := fun n hn => isClosed_plainName hlaw ((h.constraints c hc).columns n hn)
    reference := fun r hr =>
      ((h.constraints c hc).reference r hr).imp (isClosed_plainName hlaw) fun hcolumns n hn =>
        isClosed_plainName hlaw (hcolumns n hn) }
  indexes i hi :=
    (h.indexes i hi).imp (isClosed_plainName hlaw) fun hcolumns n hn =>
      isClosed_plainName hlaw (hcolumns n hn)

end SqlReader

end ProtoSchema.Sql
