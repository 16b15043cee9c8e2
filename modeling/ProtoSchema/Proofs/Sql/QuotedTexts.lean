import ProtoSchema.Proofs.Sql.DefinitionTokens

/-!
# Quoted texts are scanned back

A text that is quoted for a statement, as a default or as a value of an enum type, is one token with
that text in it, whatever the text holds: the closing quote is the first one that is not doubled.
What stands behind the literal is left as it is, unless it starts with a quote itself.

Key results:
* `tokensUpTo_quote` — one step of the scanner takes a literal, and nothing else
* `quote_injective` — different texts have different literals
* `scans_enumType` — the tokens of the statement that creates an enum type
* `scan_defaultLiteral` — all of this of the defaults of every type that has quoted ones
-/

namespace ProtoSchema.Sql

open Relational

/-! ## One literal -/

/-- A literal in front of a text is its first token. The tokens of that text follow, and start where
the literal ends. -/
theorem tokensUpTo_quote (v : String) {rest : List Char} (hrest : rest.head? ≠ some '\'')
    (fuel : Nat) (p : Position) :
    tokensUpTo (fuel + 1) p ((quote v).toList ++ rest)
      = (tokensUpTo fuel (p.after (quote v).toList) rest).map (⟨.literal v, p⟩ :: ·) := by
  have hscan := scan_quote v hrest
  rw [toList_quote, List.cons_append, tokensUpTo, hscan]
  -- What was taken is the input without what is left, and that is the literal.
  have htaken : ∀ lit : List Char,
      ('\'' :: (lit ++ rest)).take ((lit ++ rest).length + 1 - rest.length) = '\'' :: lit := by
    intro lit
    have hlength : (lit ++ rest).length + 1 - rest.length = ('\'' :: lit).length := by
      simp only [List.length_append, List.length_cons]
      omega
    rw [hlength, ← List.cons_append, List.take_left]
  simp only [htaken]

/-- A literal by itself is the only token of its text. -/
theorem tokens_quote (v : String) : tokens (quote v).toList = .ok [⟨.literal v, {}⟩] := by
  obtain ⟨n, hn⟩ : ∃ n, (quote v).toList.length = n + 1 :=
    ⟨(doubled v.toList ++ ['\'']).length, by rw [toList_quote, List.length_cons]⟩
  have hend : ([] : List Char).head? ≠ some '\'' := by simp
  have hscanned := tokensUpTo_quote v hend n {}
  -- Nothing is left behind the literal.
  have hnil : ∀ p, tokensUpTo n p [] = .ok [] := by
    intro p
    cases n <;> rfl
  rw [List.append_nil, hnil] at hscanned
  rw [tokens, hn, hscanned]
  rfl

/-- Different texts have different literals, since a literal is scanned back. -/
theorem quote_injective : Function.Injective quote := by
  intro v w h
  have hv := tokens_quote v
  rw [h, tokens_quote w] at hv
  simpa using hv.symm

/-! ## Enum types -/

/-- The tokens of the statement that creates an enum type: its name, and its values between
commas. -/
def enumTypeTokens (e : EnumType) : List Token :=
  [.word "CREATE" false, .word "TYPE" false, .word e.name false, .word "AS" false,
    .word "ENUM" false, .symbol "("]
    ++ commaTokens (e.values.map fun v => [.literal v]) ++ [.symbol ")", .symbol ";"]

/-- The statement of an enum type has a literal for each value, whatever the values are. -/
theorem scans_enumType {e : EnumType} (hname : isPlainName e.name = true) :
    Scans e.definition.toList (enumTypeTokens e) anyNext := by
  have hhead : Scans "CREATE TYPE ".toList [.word "CREATE" false, .word "TYPE" false] anyNext :=
    scans_phrase (by decide) (by decide)
  have hopen : Scans " AS ENUM (\n".toList [.word "AS" false, .word "ENUM" false, .symbol "("]
      anyNext := scans_phrase (by decide) (by decide)
  have hclose : Scans ");\n".toList [.symbol ")", .symbol ";"] anyNext :=
    scans_phrase (by decide) (by decide)
  have hvalues : List.Forall₂ (fun ts s => Scans s.toList ts endsItem)
      (e.values.map fun v => [Token.literal v]) (e.values.map quote) := by
    rw [List.forall₂_map_left_iff, List.forall₂_map_right_iff, List.forall₂_same]
    intro v _
    -- Behind a value stands a comma or the end of its line.
    refine (scans_quote v).mono ?_
    rintro o (rfl | rfl) <;> simp [endsLiteral]
  have hitems := scans_itemLines hvalues
  have hall := (((hhead.append (scans_plainName hname) fun _ _ => trivial).append hopen
    fun _ _ => endsName_some rfl).append hitems fun _ _ => trivial).append hclose
      fun _ _ => trivial
  have htext : e.definition = "CREATE TYPE " ++ e.name ++ " AS ENUM (\n"
      ++ itemLines (e.values.map quote) ++ ");\n" := rfl
  rw [htext]
  simpa only [String.toList_append, enumTypeTokens, List.append_assoc, List.cons_append,
    List.nil_append] using hall

/-! ## Defaults and values of enum types -/

/-- A default of a type that has quoted ones is one literal. -/
theorem defaultLiteral_eq_quote {type : ColumnType} (h : type.takesBareLiteral = false) :
    type.defaultLiteral = quote := by
  funext v
  simp [ColumnType.defaultLiteral, h]

/-- The default of a type that has quoted ones, in front of a text that does not start with a quote,
is scanned as one literal of the text it was made of. That text is left, and the scanner goes on in
it. The values of enum types are written as such defaults are, and each is one token of the
statement that creates the type. Literals of different texts are different. -/
theorem scan_defaultLiteral {type : ColumnType} (htype : type.takesBareLiteral = false) :
    (∀ (v : String) (rest : List Char), rest.head? ≠ some '\'' →
      (∃ body, (type.defaultLiteral v).toList = '\'' :: body
        ∧ scan '\'' (body ++ rest) = .ok (some (.literal v), rest))
      ∧ ∀ fuel p, tokensUpTo (fuel + 1) p ((type.defaultLiteral v).toList ++ rest)
        = (tokensUpTo fuel (p.after (type.defaultLiteral v).toList) rest).map
          (⟨.literal v, p⟩ :: ·))
    ∧ (∀ v, tokens (type.defaultLiteral v).toList = .ok [⟨.literal v, {}⟩])
    ∧ (∀ e : EnumType, e.definition = "CREATE TYPE " ++ e.name ++ " AS ENUM (\n"
      ++ itemLines (e.values.map type.defaultLiteral) ++ ");\n")
    ∧ (∀ e : EnumType, isPlainName e.name = true → ∃ located,
      tokens e.definition.toList = .ok located
        ∧ located.map Located.token = enumTypeTokens e)
    ∧ ∀ other : ColumnType, other.takesBareLiteral = false → ∀ v w,
      type.defaultLiteral v = other.defaultLiteral w ↔ v = w := by
  -- Such a type writes every text as a quoted one; the rest is about quoted texts.
  rw [defaultLiteral_eq_quote htype]
  refine ⟨fun v rest hrest => ⟨⟨_, toList_quote v, scan_quote v hrest⟩, tokensUpTo_quote v hrest⟩,
    tokens_quote, fun _ => rfl, fun e hname => (scans_enumType hname).tokens_eq trivial, ?_⟩
  intro other hother v w
  rw [defaultLiteral_eq_quote hother]
  exact quote_injective.eq_iff

/-- Quotes at both ends, in a row and behind a backslash, an empty value, and a line break. -/
theorem scan_defaultLiteral_awkward :
    (∃ body, (ColumnType.defaultLiteral .uuid "''\\'").toList = '\'' :: body
      ∧ scan '\'' (body ++ ",'".toList) = .ok (some (.literal "''\\'"), ",'".toList))
    ∧ (∃ located, tokens (EnumType.definition ⟨"mood", ["", "it's\n"]⟩).toList = .ok located
      ∧ located.map Located.token = [.word "CREATE" false, .word "TYPE" false, .word "mood" false,
        .word "AS" false, .word "ENUM" false, .symbol "(", .literal "", .symbol ",",
        .literal "it's\n", .symbol ")", .symbol ";"])
    ∧ ColumnType.defaultLiteral .uuid "'" ≠ ColumnType.defaultLiteral (.enum "mood") "''" := by
  have hquoted : ColumnType.uuid.takesBareLiteral = false := rfl
  obtain ⟨hscan, -, -, henum, hne⟩ := scan_defaultLiteral hquoted
  have hdifferent : "'" ≠ "''" := by decide
  exact ⟨(hscan _ _ (by decide)).1, henum ⟨"mood", ["", "it's\n"]⟩ (by decide),
    mt (hne (.enum "mood") rfl "'" "''").1 hdifferent⟩

end ProtoSchema.Sql
