import Mathlib.Data.List.Forall2
import ProtoSchema.Proofs.Sql.Reading
import ProtoSchema.Proofs.Sql.Scanning
import ProtoSchema.Relational.Definition
import ProtoSchema.Sql.Statement

/-!
# The tokens of definition statements

The statements that create tables and indexes are cut into the tokens that their parts say. This
asks for plain names, which no keyword and no mark is part of, and for plain defaults.

Key results:
* `scans_column`, `scans_constraint`, `scans_table`, `scans_index` — the tokens of each part
* `tokensOf_eq` — a plain default is one token
-/

namespace ProtoSchema.Sql

open Relational

/-! ## Plain names and defaults -/

/-- The words that have a meaning of their own in some statement. -/
def keywords : List String :=
  ["ACTION", "AND", "AS", "ASC", "BY", "CASCADE", "CHECK", "COLLATE", "CONCURRENTLY", "CONSTRAINT",
    "CREATE", "DEFAULT", "DELETE", "DESC", "DOUBLE", "DROP", "END", "ENUM", "EXISTS", "FALSE",
    "FIRST", "FOREIGN", "FROM", "IF", "INCREMENT", "INDEX", "INTERVAL", "KEY", "LAST", "MAXVALUE",
    "MINVALUE", "NO", "NOT", "NULL", "NULLS", "ON", "OR", "PRECISION", "PRIMARY", "REFERENCES",
    "RESTRICT", "SELECT", "SEQUENCE", "SET", "START", "TABLE", "TRIM", "TRUE", "TYPE", "UNIQUE",
    "UPDATE", "WHERE", "WITH"] ++ DataType.builtIn

/-- Whether a text is a letter or underscore followed by letters, digits and underscores, and no
keyword. -/
def isPlainName (s : String) : Bool :=
  (s.toList.head?.any fun c => c.isAlpha || c = '_')
    && s.toList.all (fun c => c.isAlphanum || c = '_')
    && keywords.all fun k => !(Token.word s false).isKeyword k

/-- A default as it is written for a type with quotes, or a number of digits, or a truth value. -/
def IsPlainDefault (literal : String) : Prop :=
  (∃ (type : ColumnType) (value : String), type.takesBareLiteral = false
      ∧ literal = type.defaultLiteral value)
    ∨ (literal.toList ≠ [] ∧ ∀ c ∈ literal.toList, c.isDigit = true)
    ∨ literal = "true" ∨ literal = "false"

/-- A plain name is not read as a keyword. -/
theorem noKeyword_of_isPlainName {n k : String} (hn : isPlainName n = true)
    (hk : k ∈ keywords) : (Token.word n false).isKeyword k = false := by
  simp only [isPlainName, Bool.and_eq_true, List.all_eq_true] at hn
  simpa using hn.2 k hk

/-- What a name ends with may stand inside a list, a statement or a line. -/
theorem endsName_some {c : Char} (h : isNamePart c = false) : endsName (some c) := by
  intro d hd
  cases hd
  exact h

/-- A plain name is one token. -/
theorem scans_plainName {n : String} (hn : isPlainName n = true) :
    Scans n.toList [.word n false] endsName := by
  simp only [isPlainName, Bool.and_eq_true, List.all_eq_true] at hn
  have hscan := scans_identifier hn.1.1 hn.1.2
  rwa [String.ofList_toList] at hscan

/-! ## Lists -/

/-- A blank by itself is no token. -/
theorem scans_space : Scans " ".toList [] anyNext :=
  scans_phrase (by decide) (by decide)

/-- An opening parenthesis behind a blank. -/
theorem scans_open : Scans " (".toList [.symbol "("] anyNext :=
  scans_phrase (by decide) (by decide)

/-- The tokens of texts with commas between them. -/
theorem scans_intercalate {sep : List Char} {next : Option Char → Prop} {items : List (List Token)}
    {texts : List (List Char)} (hsep : Scans sep [.symbol ","] anyNext)
    (hnext : ∀ o, next (sep.head?.or o)) (hne : texts ≠ [])
    (h : List.Forall₂ (fun ts s => Scans s ts next) items texts) :
    Scans (sep.intercalate texts) (commaTokens items) next := by
  induction h with
  | nil => exact absurd rfl hne
  | @cons ts s items texts hs hrest ih =>
    cases hrest with
    | nil => simpa [commaTokens] using hs
    | cons hs' hrest =>
      have htail := ih (by simp)
      rw [List.intercalate_cons_cons, commaTokens, List.intercalate_cons_cons]
      exact (hs.append hsep fun o _ => hnext o).append htail fun _ _ => trivial

/-- The tokens of names with commas between them. -/
def nameTokens (names : List String) : List Token :=
  commaTokens (names.map fun n => [.word n false])

/-- The tokens of names in parentheses. -/
def columnListTokens (names : List String) : List Token :=
  .symbol "(" :: nameTokens names ++ [.symbol ")"]

/-- Plain names with commas between them are cut into the names and the commas. -/
theorem scans_nameList {names : List String} (hne : names ≠ [])
    (hnames : ∀ n ∈ names, isPlainName n = true) :
    Scans (nameList names).toList (nameTokens names) endsName := by
  rw [nameList, String.toList_intercalate]
  refine scans_intercalate (scans_phrase (by decide) (by decide))
    (fun o => endsName_some rfl) (by simpa using hne) ?_
  rw [List.forall₂_map_left_iff, List.forall₂_map_right_iff, List.forall₂_same]
  exact fun n hn => scans_plainName (hnames n hn)

/-- Plain names in parentheses, behind a blank. -/
theorem scans_columnList {names : List String} (hne : names ≠ [])
    (hnames : ∀ n ∈ names, isPlainName n = true) :
    Scans (" (" ++ nameList names ++ ")").toList (columnListTokens names) anyNext := by
  have hclose : Scans ")".toList [.symbol ")"] anyNext := scans_phrase (by decide) (by decide)
  rw [String.toList_append, String.toList_append]
  exact (scans_open.append (scans_nameList hne hnames) fun _ _ => trivial).append hclose
    fun _ _ => endsName_some rfl

/-- A list in parentheses ends the word in front of it. -/
theorem endsName_columnList (names : List String) (o : Option Char) :
    endsName ((" (" ++ nameList names ++ ")").toList.head?.or o) := by
  rw [String.toList_append, String.toList_append]
  exact endsName_some rfl

/-! ## Columns -/

/-- What stands behind an item of a table body: a comma or the end of the line. -/
def endsItem : Option Char → Prop := fun o => o = some ',' ∨ o = some '\n'

/-- What ends an item ends a name. -/
theorem endsName_of_endsItem {o : Option Char} (h : endsItem o) : endsName o := by
  rcases h with rfl | rfl <;> exact endsName_some rfl

/-- The tokens of a text by itself, none if it cannot be cut. -/
def tokensOf (s : String) : List Token :=
  match tokens s.toList with
  | .ok located => located.map Located.token
  | .error _ => []

/-- The tokens of a text by itself are those it has inside a script. -/
theorem tokensOf_eq {s : String} {ts : List Token} {next : Option Char → Prop}
    (hs : Scans s.toList ts next) (hend : next none) : tokensOf s = ts := by
  obtain ⟨located, hlocated, hts⟩ := hs.tokens_eq hend
  rw [tokensOf, hlocated]
  exact hts

/-- A plain default is one token: a literal, a number, or a truth value. -/
theorem scans_plainDefault {literal : String} (h : IsPlainDefault literal) :
    Scans literal.toList (tokensOf literal) endsItem
      ∧ ((∃ s, tokensOf literal = [.literal s]) ∨ (∃ s, tokensOf literal = [.number s])
        ∨ tokensOf literal = [.word "true" false] ∨ tokensOf literal = [.word "false" false]) := by
  -- In each case the text is scanned by itself first, which says what its tokens are.
  rcases h with ⟨type, value, htype, rfl⟩ | ⟨hne, hdigits⟩ | rfl | rfl
  · have hquote : type.defaultLiteral value = quote value := by
      simp [ColumnType.defaultLiteral, htype]
    have hscan := scans_quote value
    have hts := tokensOf_eq hscan (by simp [endsLiteral])
    rw [hquote, hts]
    refine ⟨hscan.mono ?_, .inl ⟨value, rfl⟩⟩
    rintro o (rfl | rfl) <;> simp [endsLiteral]
  · have hscan := scans_digits hne hdigits
    have hts := tokensOf_eq hscan (by simp [endsNumber])
    rw [hts]
    refine ⟨hscan.mono ?_, .inr (.inl ⟨_, rfl⟩)⟩
    rintro o (rfl | rfl) c hc <;> cases hc <;> exact ⟨rfl, by decide⟩
  · have hscan : Scans "true".toList [.word "true" false] endsName :=
      scans_words (by decide) (by decide)
    have hts := tokensOf_eq hscan (by simp [endsName])
    rw [hts]
    exact ⟨hscan.mono fun o => endsName_of_endsItem, .inr (.inr (.inl rfl))⟩
  · have hscan : Scans "false".toList [.word "false" false] endsName :=
      scans_words (by decide) (by decide)
    have hts := tokensOf_eq hscan (by simp [endsName])
    rw [hts]
    exact ⟨hscan.mono fun o => endsName_of_endsItem, .inr (.inr (.inr rfl))⟩

/-- The tokens of a type. -/
def typeTokens : ColumnType → List Token
  | .textArray => [.word "TEXT" false, .symbol "[", .symbol "]"]
  | .varcharArray => [.word "VARCHAR" false, .symbol "[", .symbol "]"]
  | type => [.word type.sql false]

/-- The tokens of the option `NOT NULL`, where a column has it. -/
def nullTokens (c : Column) : List Token :=
  if c.notNull then [.word "NOT" false, .word "NULL" false] else []

/-- The tokens of the default of a column, where it has one. -/
def defaultTokens (c : Column) : List Token :=
  match c.default with
  | none => []
  | some literal => .word "DEFAULT" false :: tokensOf literal

/-- The tokens of a column. -/
def columnTokens (c : Column) : List Token :=
  .word c.name false :: typeTokens c.type ++ nullTokens c ++ defaultTokens c

/-- A column with a plain name, a type with a plain name, and a plain default. -/
structure IsPlainColumn (c : Column) : Prop where
  name : isPlainName c.name = true
  type : ∀ n, c.type = .enum n → isPlainName n = true
  default : ∀ literal, c.default = some literal → IsPlainDefault literal

/-- A type is cut into its words and brackets. -/
theorem scans_type {type : ColumnType} (h : ∀ n, type = .enum n → isPlainName n = true) :
    Scans type.sql.toList (typeTokens type) endsName := by
  cases type with
  | enum n => exact scans_plainName (h n rfl)
  | _ => exact scans_words (by decide) (by decide)

/-- A plain column is cut into its name, its type and its options. -/
theorem scans_column {c : Column} (h : IsPlainColumn c) :
    Scans c.definition.toList (columnTokens c) endsItem := by
  -- The options start with a blank, so they end what stands in front of them.
  have hdefault : Scans (match c.default with
        | none => ""
        | some literal => " DEFAULT " ++ literal).toList (defaultTokens c) endsItem := by
    rw [defaultTokens]
    cases hd : c.default with
    | none => exact scans_nil _
    | some literal =>
      have hphrase : Scans " DEFAULT ".toList [.word "DEFAULT" false] anyNext :=
        scans_phrase (by decide) (by decide)
      rw [String.toList_append]
      exact hphrase.append (scans_plainDefault (h.default literal hd)).1 fun _ _ => trivial
  have hnull : Scans (if c.notNull then " NOT NULL" else "").toList (nullTokens c) endsName := by
    rw [nullTokens]
    cases c.notNull with
    | false => exact scans_nil _
    | true => exact scans_words (by decide) (by decide)
  have hfront := ((scans_plainName h.name).append scans_space fun _ _ => endsName_some rfl).append
    (scans_type h.type) fun _ _ => trivial
  have hall := (hfront.append hnull ?_).append hdefault ?_
  · rw [List.append_nil, List.singleton_append] at hall
    rw [Column.definition, String.toList_append, String.toList_append, String.toList_append,
      String.toList_append]
    exact hall
  · intro o ho
    cases c.notNull with
    | false => exact ho
    | true => exact endsName_some rfl
  · intro o ho
    cases c.default with
    | none => exact endsName_of_endsItem ho
    | some literal =>
      rw [String.toList_append]
      exact endsName_some rfl

/-! ## Constraints -/

/-- The tokens of a referential action. -/
def actionTokens : ReferentialAction → List Token
  | .noAction => [.word "NO" false, .word "ACTION" false]
  | .restrict => [.word "RESTRICT" false]
  | .cascade => [.word "CASCADE" false]
  | .setNull => [.word "SET" false, .word "NULL" false]
  | .setDefault => [.word "SET" false, .word "DEFAULT" false]

/-- The tokens of a reference. -/
def referenceTokens (r : Reference) : List Token :=
  .word "REFERENCES" false :: .word r.table false :: columnListTokens r.columns
    ++ .word "ON" false :: .word "DELETE" false :: actionTokens r.onDelete
    ++ .word "ON" false :: .word "UPDATE" false :: actionTokens r.onUpdate

/-- The tokens of a constraint. -/
def constraintTokens (c : Constraint) : List Token :=
  match c.kind with
  | .primaryKey => .word "PRIMARY" false :: .word "KEY" false :: columnListTokens c.columns
  | .unique => .word "UNIQUE" false :: columnListTokens c.columns
  | .foreignKey =>
    .word "FOREIGN" false :: .word "KEY" false :: columnListTokens c.columns
      ++ (match c.reference with
        | none => []
        | some r => referenceTokens r)

/-- A constraint in which all names are plain. -/
structure IsPlainConstraint (c : Constraint) : Prop where
  columns : ∀ n ∈ c.columns, isPlainName n = true
  reference : ∀ r, c.reference = some r → isPlainName r.table = true
    ∧ ∀ n ∈ r.columns, isPlainName n = true

/-- What it takes for a constraint to have a line, and that line. -/
theorem definition_eq_ok {table : String} {c : Constraint} {line : String}
    (h : c.definition table = .ok line) :
    c.columns ≠ [] ∧
      ((c.kind = .primaryKey ∧ line = "PRIMARY KEY" ++ (" (" ++ nameList c.columns ++ ")"))
        ∨ (c.kind = .unique ∧ line = "UNIQUE" ++ (" (" ++ nameList c.columns ++ ")"))
        ∨ (c.kind = .foreignKey ∧ ∃ r, c.reference = some r ∧ r.columns ≠ []
          ∧ line = "FOREIGN KEY" ++ (" (" ++ nameList c.columns ++ ")") ++ " " ++ r.clause)) := by
  obtain ⟨kind, columns, reference⟩ := c
  by_cases hcolumns : columns = []
  · simp [Constraint.definition, hcolumns] at h
  · refine ⟨hcolumns, ?_⟩
    have hempty : columns.isEmpty = false := by simpa using hcolumns
    simp only [Constraint.definition, hempty, Bool.false_eq_true, if_false] at h
    cases kind with
    | primaryKey =>
      cases h
      exact .inl ⟨rfl, by simp only [ConstraintKind.sql, String.append_assoc]⟩
    | unique =>
      cases h
      exact .inr (.inl ⟨rfl, by simp only [ConstraintKind.sql, String.append_assoc]⟩)
    | foreignKey =>
      -- A reference without columns counts as none, and then there is no line.
      cases hr : reference.filter (!·.columns.isEmpty) with
      | none => simp [hr] at h
      | some r =>
        obtain ⟨rfl, hne⟩ := Option.filter_eq_some_iff.1 hr
        simp only [hr] at h
        cases h
        refine .inr (.inr ⟨rfl, r, rfl, by simpa using hne, ?_⟩)
        simp only [ConstraintKind.sql, String.append_assoc]

/-- An action is cut into its words. -/
theorem scans_action (action : ReferentialAction) :
    Scans action.sql.toList (actionTokens action) endsName := by
  cases action <;> exact scans_words (by decide) (by decide)

/-- The clause of a reference with plain names. -/
theorem scans_clause {r : Reference} (hne : r.columns ≠ []) (htable : isPlainName r.table = true)
    (hcolumns : ∀ n ∈ r.columns, isPlainName n = true) :
    Scans r.clause.toList (referenceTokens r) endsName := by
  have hreferences : Scans "REFERENCES ".toList [.word "REFERENCES" false] anyNext :=
    scans_phrase (by decide) (by decide)
  have hdelete : Scans ") ON DELETE ".toList
      [.symbol ")", .word "ON" false, .word "DELETE" false] anyNext :=
    scans_phrase (by decide) (by decide)
  have hupdate : Scans " ON UPDATE ".toList [.word "ON" false, .word "UPDATE" false] anyNext :=
    scans_phrase (by decide) (by decide)
  -- The clause is put together from the left, as it is written.
  have htarget := ((hreferences.append (scans_plainName htable) fun _ _ => trivial).append
    scans_open fun _ _ => endsName_some rfl).append (scans_nameList hne hcolumns) fun _ _ => trivial
  have honDelete := (htarget.append hdelete fun _ _ => endsName_some rfl).append
    (scans_action r.onDelete) fun _ _ => trivial
  have hactions := (honDelete.append hupdate fun _ _ => endsName_some rfl).append
    (scans_action r.onUpdate) fun _ _ => trivial
  unfold Reference.clause
  simp only [String.toList_append, referenceTokens, columnListTokens]
  simpa only [List.append_assoc, List.cons_append, List.nil_append] using hactions

/-- A list of plain names behind the words that say what it is for. -/
theorem scans_keyLine {words : String} {ts : List Token} {names : List String}
    (hwords : Scans words.toList ts endsName) (hne : names ≠ [])
    (hnames : ∀ n ∈ names, isPlainName n = true) :
    Scans (words ++ (" (" ++ nameList names ++ ")")).toList (ts ++ columnListTokens names)
      anyNext := by
  rw [String.toList_append]
  exact hwords.append (scans_columnList hne hnames) fun o _ => endsName_columnList names o

/-- A plain constraint that has a line is cut into its words and names. -/
theorem scans_constraint {table line : String} {c : Constraint} (hc : IsPlainConstraint c)
    (hline : c.definition table = .ok line) :
    Scans line.toList (constraintTokens c) endsName := by
  -- The three kinds of constraint, in the order in which they are written.
  obtain ⟨hne, ⟨hkind, rfl⟩ | ⟨hkind, rfl⟩ | ⟨hkind, r, hr, hrne, rfl⟩⟩ := definition_eq_ok hline
  · have hwords : Scans "PRIMARY KEY".toList [.word "PRIMARY" false, .word "KEY" false] endsName :=
      scans_words (by decide) (by decide)
    rw [constraintTokens, hkind]
    exact (scans_keyLine hwords hne hc.columns).mono fun _ _ => trivial
  · have hwords : Scans "UNIQUE".toList [.word "UNIQUE" false] endsName :=
      scans_words (by decide) (by decide)
    rw [constraintTokens, hkind]
    exact (scans_keyLine hwords hne hc.columns).mono fun _ _ => trivial
  · have hwords : Scans "FOREIGN KEY".toList [.word "FOREIGN" false, .word "KEY" false] endsName :=
      scans_words (by decide) (by decide)
    obtain ⟨htable, hcolumns⟩ := hc.reference r hr
    have hfront := (scans_keyLine hwords hne hc.columns).append scans_space fun _ _ => trivial
    have hall := hfront.append (scans_clause hrne htable hcolumns) fun _ _ => trivial
    rw [List.append_nil] at hall
    rw [String.toList_append, String.toList_append, constraintTokens, hkind, hr]
    exact hall

/-! ## Statements -/

/-- Where all of a list can be made, each result belongs to its element. -/
theorem forall₂_of_mapM_eq_ok {α β ε : Type} {f : α → Except ε β} {xs : List α} {ys : List β}
    (h : xs.mapM f = .ok ys) : List.Forall₂ (fun x y => f x = .ok y) xs ys := by
  induction xs generalizing ys with
  | nil =>
    cases h
    exact .nil
  | cons x xs ih =>
    rw [List.mapM_cons] at h
    cases hx : f x with
    | error e => simp [hx, bind, Except.bind] at h
    | ok y =>
      cases hxs : xs.mapM f with
      | error e => simp [hx, hxs, bind, Except.bind] at h
      | ok ys' =>
        simp only [hx, hxs, bind, Except.bind, pure, Except.pure, Except.ok.injEq] at h
        rw [← h]
        exact .cons hx (ih hxs)

/-- Where all of a list can be made, each element has its result. -/
theorem exists_of_forall₂ {α β : Type} {r : α → β → Prop} {xs : List α} {ys : List β}
    (h : List.Forall₂ r xs ys) : ∀ x ∈ xs, ∃ y, r x y := by
  induction h with
  | nil => simp
  | cons hxy _ ih => exact List.forall_mem_cons.2 ⟨⟨_, hxy⟩, ih⟩

/-- The tokens of the items of a table body. -/
def bodyTokens (t : Table) : List Token :=
  commaTokens (t.columns.map columnTokens ++ t.constraints.map constraintTokens)

/-- The tokens of the statement that creates a table, without its semicolon. -/
def tableTokens (t : Table) : List Token :=
  .word "CREATE" false :: .word "TABLE" false :: .word t.name false :: .symbol "(" :: bodyTokens t
    ++ [.symbol ")"]

/-- The tokens of the statement that creates an index of the table `table`, without its
semicolon. -/
def indexTokens (table : String) (i : Index) : List Token :=
  .word "CREATE" false :: (if i.unique then [.word "UNIQUE" false] else [])
    ++ .word "INDEX" false :: .word i.name false :: .word "ON" false :: .word table false
      :: columnListTokens i.columns

/-- A table in which all names and defaults are plain. -/
structure IsPlainTable (t : Table) : Prop where
  name : isPlainName t.name = true
  columns : ∀ c ∈ t.columns, IsPlainColumn c
  constraints : ∀ c ∈ t.constraints, IsPlainConstraint c
  indexes : ∀ i ∈ t.indexes, isPlainName i.name = true ∧ ∀ n ∈ i.columns, isPlainName n = true

/-- Items on lines of their own are cut into the items and commas between them. -/
theorem scans_itemLines {items : List (List Token)} {texts : List String}
    (h : List.Forall₂ (fun ts s => Scans s.toList ts endsItem) items texts) :
    Scans (itemLines texts).toList (commaTokens items) anyNext := by
  cases texts with
  | nil =>
    cases h
    exact scans_nil _
  | cons text texts =>
    have hindent : Scans "  ".toList [] anyNext := scans_phrase (by decide) (by decide)
    have hbreak : Scans "\n".toList [] anyNext := scans_phrase (by decide) (by decide)
    have hcomma : Scans ",\n".toList [.symbol ","] anyNext := scans_phrase (by decide) (by decide)
    -- The indent belongs to the item behind it.
    have hlines : List.Forall₂ (fun ts s => Scans s ts endsItem) items
        (((text :: texts).map ("  " ++ ·)).map String.toList) := by
      rw [List.map_map, List.forall₂_map_right_iff]
      refine h.imp fun ts s hs => ?_
      rw [Function.comp_apply, String.toList_append]
      exact hindent.append hs fun _ _ => trivial
    have hitems := scans_intercalate hcomma (fun _ => .inl rfl) (by simp) hlines
    have hall := hitems.append hbreak fun _ _ => .inr rfl
    rw [List.append_nil, ← String.toList_intercalate, ← String.toList_append] at hall
    exact hall

/-- What it takes for a table to have a statement, and that statement. -/
theorem table_definition_eq_ok {t : Table} {text : String} (h : t.definition = .ok text) :
    ∃ lines, List.Forall₂ (fun c line => c.definition t.name = .ok line) t.constraints lines
      ∧ text = "CREATE TABLE " ++ t.name ++ " (\n"
        ++ itemLines (t.columns.map Column.definition ++ lines) ++ ");\n" := by
  cases hlines : t.constraints.mapM (Constraint.definition t.name) with
  | error fault => simp [Table.definition, hlines, bind, Except.bind] at h
  | ok lines =>
    simp only [Table.definition, hlines, bind, Except.bind, pure, Except.pure,
      Except.ok.injEq] at h
    exact ⟨lines, forall₂_of_mapM_eq_ok hlines, h.symm⟩

/-- The statement of a plain table. -/
theorem scans_table {t : Table} {text : String} (ht : IsPlainTable t)
    (htext : t.definition = .ok text) :
    Scans text.toList (tableTokens t ++ [.symbol ";"]) anyNext := by
  obtain ⟨lines, hlines, rfl⟩ := table_definition_eq_ok htext
  have hcolumns : List.Forall₂ (fun ts s => Scans s.toList ts endsItem)
      (t.columns.map columnTokens) (t.columns.map Column.definition) := by
    rw [List.forall₂_map_left_iff, List.forall₂_map_right_iff, List.forall₂_same]
    exact fun c hc => scans_column (ht.columns c hc)
  have hconstraints : List.Forall₂ (fun ts s => Scans s.toList ts endsItem)
      (t.constraints.map constraintTokens) lines := by
    rw [List.forall₂_map_left_iff]
    refine ((List.forall₂_and_left _ _).2 ⟨ht.constraints, hlines⟩).imp ?_
    rintro c line ⟨hc, hline⟩
    exact (scans_constraint hc hline).mono fun _ => endsName_of_endsItem
  -- Columns and constraints are lines of one body.
  have hitems := scans_itemLines (List.rel_append hcolumns hconstraints)
  have hcreate : Scans "CREATE TABLE ".toList [.word "CREATE" false, .word "TABLE" false]
      anyNext := scans_phrase (by decide) (by decide)
  have hopen : Scans " (\n".toList [.symbol "("] anyNext := scans_phrase (by decide) (by decide)
  have hclose : Scans ");\n".toList [.symbol ")", .symbol ";"] anyNext :=
    scans_phrase (by decide) (by decide)
  have hall := (((hcreate.append (scans_plainName ht.name) fun _ _ => trivial).append hopen
    fun _ _ => endsName_some rfl).append hitems fun _ _ => trivial).append hclose
    fun _ _ => trivial
  simp only [String.toList_append, tableTokens, bodyTokens]
  simpa only [List.append_assoc, List.cons_append, List.nil_append] using hall

/-- What it takes for an index to have a statement, and that statement. -/
theorem index_definition_eq_ok {table text : String} {i : Index}
    (h : i.definition table = .ok text) :
    i.columns ≠ [] ∧ text = "CREATE " ++ (if i.unique then "UNIQUE " else "") ++ "INDEX " ++ i.name
      ++ " ON " ++ table ++ " (" ++ nameList i.columns ++ ");\n" := by
  by_cases hne : i.columns = []
  · simp [Index.definition, hne] at h
  · have hempty : i.columns.isEmpty = false := by simpa using hne
    simp only [Index.definition, hempty, Bool.false_eq_true, if_false, Except.ok.injEq] at h
    exact ⟨hne, h.symm⟩

/-- The statement of an index with plain names. -/
theorem scans_index {table text : String} {i : Index} (htable : isPlainName table = true)
    (hname : isPlainName i.name = true) (hcolumns : ∀ n ∈ i.columns, isPlainName n = true)
    (htext : i.definition table = .ok text) :
    Scans text.toList (indexTokens table i ++ [.symbol ";"]) anyNext := by
  obtain ⟨hne, rfl⟩ := index_definition_eq_ok htext
  have hcreate : Scans "CREATE ".toList [.word "CREATE" false] anyNext :=
    scans_phrase (by decide) (by decide)
  have hunique : Scans (if i.unique then "UNIQUE " else "").toList
      (if i.unique then [.word "UNIQUE" false] else []) anyNext := by
    cases i.unique with
    | false => exact scans_nil _
    | true => exact scans_phrase (by decide) (by decide)
  have hindex : Scans "INDEX ".toList [.word "INDEX" false] anyNext :=
    scans_phrase (by decide) (by decide)
  have hon : Scans " ON ".toList [.word "ON" false] anyNext :=
    scans_phrase (by decide) (by decide)
  have hclose : Scans ");\n".toList [.symbol ")", .symbol ";"] anyNext :=
    scans_phrase (by decide) (by decide)
  -- Names end where the blank of the next phrase stands.
  have hfront := ((hcreate.append hunique fun _ _ => trivial).append hindex
    fun _ _ => trivial).append (scans_plainName hname) fun _ _ => trivial
  have htarget := (hfront.append hon fun _ _ => endsName_some rfl).append
    (scans_plainName htable) fun _ _ => trivial
  have hall := ((htarget.append scans_open fun _ _ => endsName_some rfl).append
    (scans_nameList hne hcolumns) fun _ _ => trivial).append hclose fun _ _ => endsName_some rfl
  simp only [String.toList_append, indexTokens, columnListTokens]
  simpa only [List.append_assoc, List.cons_append, List.nil_append] using hall

/-- The tokens of a script: those of its statements, with a semicolon behind each. -/
def scriptTokens (items : List (List Token)) : List Token :=
  items.flatMap (· ++ [.symbol ";"])

/-- Statements one behind the other are cut into their tokens one behind the other. -/
theorem scans_join {items : List (List Token)} {texts : List String}
    (h : List.Forall₂ (fun ts s => Scans s.toList (ts ++ [.symbol ";"]) anyNext) items texts) :
    Scans (String.join texts).toList (scriptTokens items) anyNext := by
  rw [String.toList_join]
  induction h with
  | nil => exact scans_nil _
  | cons hs _ ih => exact hs.append ih fun _ _ => trivial

/-- The tokens of the statements of a schema: those of all tables, then those of all indexes. -/
def schemaTokens (schema : Schema) : List (List Token) :=
  schema.tables.map tableTokens
    ++ schema.tables.flatMap fun t => t.indexes.map (indexTokens t.name)

/-- What it takes for a schema to have statements, and these statements. -/
theorem tableDefinitions_eq_ok {schema : Schema} {definitions : List String}
    (h : schema.tableDefinitions = .ok definitions) :
    ∃ tables indexes, List.Forall₂ (fun t text => t.definition = .ok text) schema.tables tables
      ∧ List.Forall₂ (fun t texts => List.Forall₂ (fun i text => i.definition t.name = .ok text)
        t.indexes texts) schema.tables indexes
      ∧ definitions = tables ++ indexes.flatten := by
  cases htables : schema.tables.mapM Table.definition with
  | error fault => simp [Schema.tableDefinitions, htables, bind, Except.bind] at h
  | ok tables =>
    cases hindexes : schema.tables.mapM fun t => t.indexes.mapM (Index.definition t.name) with
    | error fault => simp [Schema.tableDefinitions, htables, hindexes, bind, Except.bind] at h
    | ok indexes =>
      simp only [Schema.tableDefinitions, htables, hindexes, bind, Except.bind, pure, Except.pure,
        Except.ok.injEq] at h
      exact ⟨tables, indexes, forall₂_of_mapM_eq_ok htables,
        (forall₂_of_mapM_eq_ok hindexes).imp fun _ _ => forall₂_of_mapM_eq_ok, h.symm⟩

/-- The statements of a schema with plain names and defaults. -/
theorem scans_schema {schema : Schema} {definitions : List String}
    (hplain : ∀ t ∈ schema.tables, IsPlainTable t)
    (h : schema.tableDefinitions = .ok definitions) :
    Scans (String.join definitions).toList (scriptTokens (schemaTokens schema)) anyNext := by
  obtain ⟨tables, indexes, htables, hindexes, rfl⟩ := tableDefinitions_eq_ok h
  refine scans_join (List.rel_append ?_ ?_)
  · rw [List.forall₂_map_left_iff]
    refine ((List.forall₂_and_left _ _).2 ⟨hplain, htables⟩).imp ?_
    rintro t text ⟨ht, htext⟩
    exact scans_table ht htext
  -- The texts of the indexes come table by table and are flattened like their tokens.
  · rw [List.flatMap]
    refine List.rel_flatten ?_
    rw [List.forall₂_map_left_iff]
    refine ((List.forall₂_and_left _ _).2 ⟨hplain, hindexes⟩).imp ?_
    rintro t texts ⟨ht, htexts⟩
    rw [List.forall₂_map_left_iff]
    refine ((List.forall₂_and_left _ _).2 ⟨ht.indexes, htexts⟩).imp ?_
    rintro i text ⟨⟨hname, hcolumns⟩, htext⟩
    exact scans_index ht.name hname hcolumns htext

end ProtoSchema.Sql
