import Mathlib.Data.List.Forall2
import Mathlib.Data.List.Induction
import ProtoSchema.Proofs.Sql.DottedNames
import ProtoSchema.Proofs.Sql.Scanning
import ProtoSchema.Sql.Statement

/-!
# Readers of SQL

PostgreSQL has many more expressions and statements than `Statement.read` knows. So what is said
about definitions that are read back is said of any reader of SQL that is lawful: it cuts a text
into tokens as the lexical rules of PostgreSQL do, it reads statements between semicolons, and it
reads statements that create a table or an index up to the places where their names stand. Nothing
is asked about expressions, types and options, nor about any other statement.

Key results:
* `SqlReader.IsLawful` — what is asked of a reader
* `SqlReader.cuts_phrase`, `SqlReader.cuts_words` — the tokens of the words of a definition
-/

namespace ProtoSchema.Sql

/-- A reader of SQL. Its lexemes are tokens with what else is known of their places in the text, as
the lines they stand on and the blanks in front of them. A statement says of an expression only how
it is written, for which `Expression.name` of an unquoted name can stand. -/
structure SqlReader (ε : Type) where
  Lexeme : Type
  token : Lexeme → Token
  /-- The lexemes of a text, if it can be cut into any. -/
  lex : List Char → Option (List Lexeme)
  /-- Reads one statement, if one stands in front, and gives what follows it. -/
  read : List Lexeme → Option (Statement × List Lexeme)
  /-- The statements of a script. -/
  parse : String → Except ε (List Statement)

/-! ## Lexical rules -/

/-- The blanks of definitions. -/
def blanks : List Char := [' ', '\n']

/-- The blanks of definitions are among those of all scripts. -/
theorem isSeparator_of_mem_blanks {c : Char} (h : c ∈ blanks) : isSeparator c = true := by
  have hall : blanks.all isSeparator = true := by decide
  exact List.all_eq_true.1 hall c h

/-- What ends a word: a blank, a mark, or the end of the text. -/
def endsWord : Option Char → Prop := fun o => ∀ c ∈ o, c ∈ blanks ∨ c ∈ marks

/-- Whether a text is a letter or underscore followed by letters, digits and underscores. -/
def isPlainWord (w : List Char) : Bool :=
  w.head?.any (fun c => c.isAlpha || c = '_') && w.all fun c => c.isAlphanum || c = '_'

/-- A token was read from the part of a text: a name or a dot is written with no more than it. -/
def IsWrittenIn (t : Token) (part : List Char) : Prop :=
  part ≠ [] ∧ (t.isName = true ∨ t = .symbol "." → t.written.Sublist part)

/-! ## Creating statements -/

/-- The tokens that a statement for an index starts with. -/
def createIndexWords (unique : Bool) : List Token :=
  .word "CREATE" false :: (if unique then [.word "UNIQUE" false] else []) ++ [.word "INDEX" false]

/-- The tokens are those that a statement for a table or an index starts with, and more. -/
def StartsCreation (ts : List Token) : Prop :=
  ∃ more, ts = .word "CREATE" false :: .word "TABLE" false :: more
    ∨ ∃ unique, ts = createIndexWords unique ++ more

/-- Unquoted words, as `IF NOT EXISTS`. -/
def AreWords (ts : List Token) : Prop :=
  ∀ t ∈ ts, ∃ text, t = .word text false

/-- Nothing, or the method of an index. -/
def IsMethod (ts : List Token) : Prop :=
  ts = [] ∨ ∃ using_ kind, ts = [using_, kind] ∧ using_.isKeyword "USING" = true
    ∧ kind.isName = true

/-- The statement creates a table, and its name stands at the front of the tokens, behind words. -/
def CreatesTable (ts : List Token) (statement : Statement) : Prop :=
  ∃ names columns constraints, statement = .createTable names columns constraints
    ∧ ∃ words taken behind, ts = words ++ taken ++ behind ∧ AreWords words ∧ IsDotted taken names

/-- The statement creates an index. If the index has a name, it stands at the front of the tokens,
behind words. Behind it stand the word `ON`, the name of the table, and the elements in
parentheses; a method may be named in front of the word or of the elements. -/
def CreatesIndex (unique : Bool) (ts : List Token) (statement : Statement) : Prop :=
  ∃ name table elements, statement = .createIndex name table elements unique
    ∧ ∀ names ∈ name, ∃ words taken method on target method' behind,
      ts = words ++ taken ++ method ++ on :: target ++ method' ++ .symbol "(" :: behind
        ∧ AreWords words ∧ IsDotted taken names ∧ IsMethod method ∧ on.isKeyword "ON" = true
        ∧ IsDotted target table ∧ IsMethod method'

/-! ## Laws -/

namespace SqlReader

variable {ε : Type} (reader : SqlReader ε)

/-- The tokens of a text. -/
def tokens (s : List Char) : Option (List Token) :=
  (reader.lex s).map fun lexemes => lexemes.map reader.token

/-- The text `s` is cut into the tokens `ts` in front of any text that can be cut into tokens and
starts with a character that `next` accepts, where `next none` stands for the end. -/
def Cuts (s : List Char) (ts : List Token) (next : Option Char → Prop) : Prop :=
  ∀ rest us, next rest.head? → reader.tokens rest = some us →
    reader.tokens (s ++ rest) = some (ts ++ us)

/-- The lexemes are read as these statements, with semicolons between them. The flag says whether a
statement may start without another semicolon; where none may, the word `END` ends the script. -/
inductive IsScript : Bool → List reader.Lexeme → List Statement → Prop where
  | nil {ended : Bool} : IsScript ended [] []
  | semicolon {ended : Bool} {l : reader.Lexeme} {input : List reader.Lexeme}
      {statements : List Statement} (hl : reader.token l = .symbol ";")
      (h : IsScript true input statements) : IsScript ended (l :: input) statements
  | statement {l : reader.Lexeme} {input rest : List reader.Lexeme} {statement : Statement}
      {statements : List Statement} (hread : reader.read (l :: input) = some (statement, rest))
      (h : IsScript false rest statements) : IsScript true (l :: input) (statement :: statements)
  | stop {l : reader.Lexeme} {input : List reader.Lexeme}
      (hl : (reader.token l).isKeyword "END" = true) : IsScript false (l :: input) []

/-- What is asked of a reader of SQL. -/
structure IsLawful : Prop where
  tokens_nil : reader.tokens [] = some []
  /-- A blank is no token. -/
  cuts_blank : ∀ c ∈ blanks, reader.Cuts [c] [] anyNext
  /-- A mark is a token of its own, whatever follows it. -/
  cuts_mark : ∀ c ∈ marks, reader.Cuts [c] [.symbol (String.ofList [c])] anyNext
  /-- A word is one token, unless it goes on. -/
  cuts_word : ∀ w, isPlainWord w = true → reader.Cuts w [.word (String.ofList w) false] endsWord
  /-- A number of digits is one token, unless it goes on. -/
  cuts_digits : ∀ s, s ≠ [] → (∀ c ∈ s, c.isDigit = true) →
    reader.Cuts s [.number (String.ofList s)] endsWord
  /-- A text between quotes, with the quotes inside it doubled, is one token. -/
  cuts_quote : ∀ s, reader.Cuts (quote s).toList [.literal s] endsWord
  /-- Each token is read from a part of the text of its own, in order. -/
  parts : ∀ s ts, reader.tokens s = some ts →
    ∃ parts : List (List Char), parts.flatten.Sublist s ∧ List.Forall₂ IsWrittenIn ts parts
  /-- A script is read statement by statement, from all lexemes of its text. -/
  script : ∀ text statements, reader.parse text = .ok statements →
    ∃ input, reader.lex text.toList = some input ∧ reader.IsScript true input statements
  /-- A statement for a table or an index takes no semicolon. -/
  spares : ∀ input statement rest, reader.read input = some (statement, rest) →
    StartsCreation (input.map reader.token) →
    ∃ taken, input = taken ++ rest ∧ .symbol ";" ∉ taken.map reader.token
  /-- What starts as a statement for a table is one, if it is read. -/
  table : ∀ input statement rest more, reader.read input = some (statement, rest) →
    input.map reader.token = .word "CREATE" false :: .word "TABLE" false :: more →
    CreatesTable more statement
  /-- What starts as a statement for an index is one, if it is read. -/
  index : ∀ input statement rest unique more, reader.read input = some (statement, rest) →
    input.map reader.token = createIndexWords unique ++ more → CreatesIndex unique more statement

end SqlReader

/-! ## Tokens of texts put together -/

namespace SqlReader

variable {ε : Type} {reader : SqlReader ε} {s u : List Char} {ts us : List Token}
  {next next' : Option Char → Prop}

/-- The empty text has no tokens. -/
theorem cuts_nil (next : Option Char → Prop) : reader.Cuts [] [] next :=
  fun _ _ _ h => h

/-- The tokens of two parts follow each other. -/
theorem Cuts.append (hs : reader.Cuts s ts next) (hu : reader.Cuts u us next')
    (hnext : ∀ o, next' o → next (u.head?.or o)) : reader.Cuts (s ++ u) (ts ++ us) next' := by
  intro rest vs hrest hvs
  have hhead : next (u ++ rest).head? := by
    rw [List.head?_append]
    exact hnext _ hrest
  rw [List.append_assoc, List.append_assoc]
  exact hs (u ++ rest) (us ++ vs) hhead (hu rest vs hrest hvs)

/-- A part may be followed by less than it tolerates. -/
theorem Cuts.mono (hs : reader.Cuts s ts next) (h : ∀ o, next' o → next o) :
    reader.Cuts s ts next' :=
  fun rest us hrest hus => hs rest us (h _ hrest) hus

/-- The tokens of a whole text. -/
theorem Cuts.tokens_eq (hs : reader.Cuts s ts next) (hlaw : reader.IsLawful) (hend : next none) :
    reader.tokens s = some ts := by
  have h := hs [] [] hend hlaw.tokens_nil
  rwa [List.append_nil, List.append_nil] at h

/-! ## Phrases -/

/-- A blank or a mark ends a word. -/
theorem endsWord_some {c : Char} (h : c ∈ blanks ∨ c ∈ marks) : endsWord (some c) := by
  intro d hd
  cases hd
  exact h

/-- Whether a text consists of capital letters, blanks and marks. -/
def isPhrase (s : List Char) : Bool :=
  s.all fun c => c.isUpper || blanks.contains c || marks.contains c

/-- The empty text, or a word of capital letters. -/
def IsCapital (word : List Char) : Prop :=
  ∀ c ∈ word, c.isUpper = true

/-- A word of capital letters grows with another one. -/
theorem IsCapital.concat {word : List Char} {c : Char} (hword : IsCapital word)
    (hc : c.isUpper = true) : IsCapital (word ++ [c]) := by
  intro d hd
  rcases List.mem_append.1 hd with hd | hd
  · exact hword d hd
  · rwa [List.mem_singleton.1 hd]

theorem isAlpha_of_isUpper {c : Char} (h : c.isUpper = true) : c.isAlpha = true :=
  Bool.or_eq_true_iff.2 (.inl h)

/-- Capital letters make a word. -/
theorem isPlainWord_of_isCapital {word : List Char} (h : IsCapital word) (hne : word ≠ []) :
    isPlainWord word = true := by
  cases word with
  | nil => exact absurd rfl hne
  | cons c r =>
    have halpha : ∀ d ∈ c :: r, d.isAlpha = true := fun d hd => isAlpha_of_isUpper (h d hd)
    simp only [isPlainWord, List.head?_cons, Option.any_some, Bool.and_eq_true, List.all_eq_true]
    refine ⟨by simp [halpha c], fun d hd => ?_⟩
    simp [Char.isAlphanum, halpha d hd]

/-- A word of capital letters is one token, and the empty text is none. -/
theorem cuts_wordTokens (hlaw : reader.IsLawful) {word : List Char} (h : IsCapital word) :
    reader.Cuts word (wordTokens word) endsWord := by
  cases word with
  | nil => exact cuts_nil _
  | cons c r => exact hlaw.cuts_word _ (isPlainWord_of_isCapital h (List.cons_ne_nil c r))

/-- A word does not go on with a blank or a mark. -/
theorem isNamePart_of_gap {c : Char} (h : c ∈ blanks ∨ c ∈ marks) : isNamePart c = false := by
  have hall : (blanks ++ marks).all (!isNamePart ·) = true := by decide
  have hc := List.all_eq_true.1 hall c (List.mem_append.2 h)
  simpa using hc

/-- A blank or a mark, of which only the mark is a token. -/
theorem cuts_blankOrMark (hlaw : reader.IsLawful) {c : Char} (h : c ∈ blanks ∨ c ∈ marks) :
    reader.Cuts [c] (if isSeparator c then [] else [.symbol (String.ofList [c])]) anyNext := by
  have hmarks : marks.all (!isSeparator ·) = true := by decide
  -- The two kinds are told apart by whether the character separates tokens.
  rcases h with h | h
  · rw [if_pos (isSeparator_of_mem_blanks h)]
    exact hlaw.cuts_blank c h
  · have hmark := List.all_eq_true.1 hmarks c h
    rw [if_neg (by simpa using hmark)]
    exact hlaw.cuts_mark c h

/-- The tokens of a phrase behind a word: a phrase that ends with a blank or a mark may be followed
by anything, one that ends with a word may not. -/
theorem cuts_plainTokens (hlaw : reader.IsLawful) (word : List Char) (hword : IsCapital word)
    (hs : isPhrase s = true) :
    reader.Cuts (word ++ s) (plainTokens word s) endsWord
      ∧ ((∀ c ∈ (word ++ s).getLast?, c.isUpper = false) →
        reader.Cuts (word ++ s) (plainTokens word s) anyNext) := by
  -- The word in front grows with each capital letter, and is cut off by any other character.
  induction s generalizing word with
  | nil =>
    rw [List.append_nil]
    refine ⟨cuts_wordTokens hlaw hword, fun hlast => ?_⟩
    cases word using List.reverseRecOn with
    | nil => exact cuts_nil _
    | append_singleton word c =>
      have hupper := hword c (by simp)
      simp [hupper] at hlast
  | cons c s ih =>
    have hc : c.isUpper = true ∨ c ∈ blanks ∨ c ∈ marks := by
      have h := (List.all_eq_true.1 hs) c List.mem_cons_self
      simpa [or_assoc] using h
    have hrest : isPhrase s = true :=
      List.all_eq_true.2 fun d hd => List.all_eq_true.1 hs d (List.mem_cons_of_mem c hd)
    by_cases hupper : c.isUpper = true
    · have hpart : isNamePart c = true := by
        simp [isNamePart, isNameStart, isAlpha_of_isUpper hupper]
      rw [plainTokens, if_pos hpart, List.append_cons]
      exact ih (word ++ [c]) (hword.concat hupper) hrest
    · have hgap := hc.resolve_left hupper
      obtain ⟨hends, hany⟩ := ih [] (by simp [IsCapital]) hrest
      have hfront := (cuts_wordTokens hlaw hword).append (cuts_blankOrMark hlaw hgap)
        fun _ _ => endsWord_some hgap
      rw [plainTokens, if_neg (by simp [isNamePart_of_gap hgap]), List.append_cons]
      refine ⟨hfront.append hends fun _ _ => trivial, fun hlast => ?_⟩
      refine hfront.append (hany fun d hd => hlast d ?_) fun _ _ => trivial
      rw [List.nil_append] at hd
      rw [List.getLast?_append, hd]
      rfl

/-- What a phrase that ends with a blank or a mark is cut into. -/
theorem cuts_phrase (hlaw : reader.IsLawful) {phrase : String} {ts : List Token}
    (hs : isPhrase phrase.toList = true)
    (hlast : phrase.toList.getLast?.all (!·.isUpper) = true)
    (hts : plainTokens [] phrase.toList = ts) : reader.Cuts phrase.toList ts anyNext := by
  rw [← hts]
  -- The phrase does not end with a letter, so anything may follow it.
  refine (cuts_plainTokens hlaw [] (by simp [IsCapital]) hs).2 fun c hc => ?_
  rw [List.nil_append] at hc
  rw [hc] at hlast
  simpa using hlast

/-- What a phrase that ends with a word is cut into. -/
theorem cuts_words (hlaw : reader.IsLawful) {phrase : String} {ts : List Token}
    (hs : isPhrase phrase.toList = true) (hts : plainTokens [] phrase.toList = ts) :
    reader.Cuts phrase.toList ts endsWord := by
  rw [← hts]
  exact (cuts_plainTokens hlaw [] (by simp [IsCapital]) hs).1

end SqlReader

end ProtoSchema.Sql
