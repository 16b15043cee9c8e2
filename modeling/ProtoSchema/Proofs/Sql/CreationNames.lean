import ProtoSchema.Proofs.Counting
import ProtoSchema.Proofs.Sql.ClosedTexts

/-!
# The names in creating statements

A statement that creates a table or an index is written with texts where its names belong. What is
read as a name there consists of tokens of these texts, and the texts may hold more than the name.
A name is written with no more than the text that it is read from.

Key results:
* `CreatesTable.createsTableFrom` — the name of a table
* `CreatesIndex.createsIndexFrom` — the name of an index and of its table
* `SqlReader.length_dotted_le`, `SqlReader.dotted_eq_of_length_eq` — names and the texts they are
  read from
-/

namespace ProtoSchema.Sql

/-! ## Tables -/

/-- The statement creates a table, with a name that is taken from the tokens `front`. -/
def CreatesTableFrom (front : List Token) (statement : Statement) : Prop :=
  ∃ names columns constraints taken, statement = .createTable names columns constraints
    ∧ IsDotted taken names ∧ taken.Sublist front

/-- No unquoted word is a symbol. -/
theorem AreWords.symbol_notMem {ts : List Token} (h : AreWords ts) (s : String) :
    .symbol s ∉ ts := by
  intro hs
  obtain ⟨text, htext⟩ := h _ hs
  cases htext

/-- The name of a table stands in front of the parenthesis, among the tokens that stand there. -/
theorem CreatesTable.createsTableFrom {front back : List Token} {statement : Statement}
    (h : CreatesTable (front ++ .symbol "(" :: back) statement) :
    CreatesTableFrom front statement := by
  obtain ⟨names, columns, constraints, rfl, words, taken, behind, hsplit, hwords, htaken⟩ := h
  -- Neither the words nor the name hold the parenthesis.
  have hnone : .symbol "(" ∉ words ++ taken := by
    rw [List.mem_append, not_or]
    exact ⟨hwords.symbol_notMem _, htaken.symbol_notMem (by decide)⟩
  obtain ⟨more, rfl⟩ := exists_append_of_notMem hsplit.symm hnone
  refine ⟨names, columns, constraints, taken, rfl, htaken, ?_⟩
  exact (List.sublist_append_right words taken).trans (List.sublist_append_left _ more)

/-! ## Indexes -/

/-- The statement creates an index. Where the index has a name and the tokens `table` are one, these
names are taken from where they belong, the tokens `front` and `table`, or both from `front`. -/
def CreatesIndexFrom (front table : List Token) (unique : Bool) (statement : Statement) : Prop :=
  ∃ name onTable elements, statement = .createIndex name onTable elements unique
    ∧ ∀ names ∈ name, ∀ tableNames, IsDotted table tableNames → ∃ taken, IsDotted taken names
      ∧ (taken.Sublist front ∧ IsDotted table onTable ∨ ∃ t, (taken ++ [t]).Sublist front)

/-- The method of an index holds no symbol. -/
theorem IsMethod.symbol_notMem {ts : List Token} (h : IsMethod ts) (s : String) :
    .symbol s ∉ ts := by
  rcases h with rfl | ⟨u, kind, rfl, hu, hkind⟩
  · simp
  · have hne := (Token.ne_symbol_of_isName (Token.isName_of_isKeyword hu) s).symm
    have hne' := (Token.ne_symbol_of_isName hkind s).symm
    simp [hne, hne']

/-- What stands behind the last word `ON`, in front of which the name of the index is taken, is the
name of the table: a method behind it would have to be that name. -/
theorem target_eq_of_append_eq {front target table method : List Token} {on on' : Token}
    {names tableNames : List Name} (htarget : IsDotted target names)
    (htable : IsDotted table tableNames) (hon : on.isKeyword "ON" = true)
    (hon' : on'.isKeyword "ON" = true) (hmethod : IsMethod method) {front' : List Token}
    (h : front ++ on :: target ++ method = front' ++ on' :: table) :
    front = front' ∧ target = table := by
  rcases hmethod with rfl | ⟨u, kind, rfl, hu, hkind⟩
  -- Without a method both sides end in a dotted name behind a word that is no name.
  · rw [List.append_nil] at h
    obtain ⟨hfront, -, htables⟩ := htarget.append_eq_append htable (Token.isName_of_isKeyword hon)
      (Token.isName_of_isKeyword hon') h
    exact ⟨hfront, htables⟩
  · -- The kind would be the table and the word `USING` the word `ON`.
    obtain ⟨n, hn⟩ := Option.isSome_iff_exists.1 hkind
    obtain ⟨-, rfl, -⟩ := (IsDotted.single hn).append_eq_append htable
      (Token.isName_of_isKeyword hu) (Token.isName_of_isKeyword hon') h
    exact absurd (Token.eq_of_isKeyword hu hon') (by decide)

/-- The name of an index stands in front of the parenthesis, with `ON` and a table behind it: where
they belong, or all where the name belongs. -/
theorem CreatesIndex.createsIndexFrom {front table back : List Token} {unique : Bool}
    {statement : Statement}
    (h : CreatesIndex unique (front ++ .word "ON" false :: table ++ .symbol "(" :: back)
      statement) :
    CreatesIndexFrom front table unique statement := by
  obtain ⟨name, onTable, elements, rfl, hnamed⟩ := h
  refine ⟨name, onTable, elements, rfl, fun names hname tableNames htable => ?_⟩
  obtain ⟨words, taken, method, on, target, method', behind, hsplit, hwords, htaken, hmethod, hon,
    htarget, hmethod'⟩ := hnamed names hname
  have hon' : (Token.word "ON" false).isKeyword "ON" = true := by decide
  have hopen : ∀ {t : Token}, t.isKeyword "ON" = true → .symbol "(" ≠ t := fun ht =>
    (Token.ne_symbol_of_isName (Token.isName_of_isKeyword ht) _).symm
  -- Up to the columns the reader took no parenthesis.
  have hnone : .symbol "(" ∉ words ++ taken ++ method ++ on :: target ++ method' := by
    simp only [List.mem_append, List.mem_cons, not_or]
    exact ⟨⟨⟨⟨hwords.symbol_notMem _, htaken.symbol_notMem (by decide)⟩, hmethod.symbol_notMem _⟩,
      hopen hon, htarget.symbol_notMem (by decide)⟩, hmethod'.symbol_notMem _⟩
  refine ⟨taken, htaken, ?_⟩
  have htaken' : taken.Sublist (words ++ taken ++ method) :=
    (List.sublist_append_right words taken).trans (List.sublist_append_left _ method)
  by_cases hfront : .symbol "(" ∈ front
  · -- The first parenthesis stands inside the name.
    right
    obtain ⟨before, after, rfl⟩ := List.append_of_mem hfront
    have hinside : words ++ taken ++ method ++ on :: target ++ method' ++ .symbol "(" :: behind
        = before ++ .symbol "(" :: (after ++ .word "ON" false :: table ++ .symbol "(" :: back) := by
      rw [← hsplit]
      simp only [List.append_assoc, List.cons_append]
    obtain ⟨more, rfl⟩ := exists_append_of_notMem hinside hnone
    have hon : (taken ++ [on]).Sublist (words ++ taken ++ method ++ on :: target ++ method') :=
      (htaken'.append ((List.nil_sublist target).cons_cons on)).trans
        (List.sublist_append_left _ method')
    exact ⟨on, hon.trans ((List.sublist_append_left _ more).trans (List.sublist_append_left _ _))⟩
  · left
    -- Neither front holds a parenthesis, so both end at the first one and agree.
    have hnone' : .symbol "(" ∉ front ++ .word "ON" false :: table := by
      simp only [List.mem_append, List.mem_cons, not_or]
      exact ⟨hfront, hopen hon', htable.symbol_notMem (by decide)⟩
    have heq := eq_of_append_cons_eq hsplit.symm hnone hnone'
    obtain ⟨rfl, rfl⟩ := target_eq_of_append_eq htarget htable hon hon' hmethod' heq
    exact ⟨htaken', htarget⟩

/-! ## Names and their sizes -/

/-- Names and dots are written with no more than the parts that they were read from. -/
theorem written_sublist {ts : List Token} {parts : List (List Char)}
    (h : List.Forall₂ IsWrittenIn ts parts)
    (hts : ∀ t ∈ ts, t.isName = true ∨ t = .symbol ".") :
    (ts.flatMap Token.written).Sublist parts.flatten := by
  induction h with
  | nil => exact List.Sublist.refl _
  | cons hpart _ ih =>
    obtain ⟨ht, hts⟩ := List.forall_mem_cons.1 hts
    rw [List.flatMap_cons, List.flatten_cons]
    exact (hpart.2 ht).append (ih hts)

namespace SqlReader

variable {ε : Type} {reader : SqlReader ε}

/-- The parts of a text that the tokens of a name were read from: the name is written with no more
than these, and where they are all parts of the text, the tokens are all tokens of it. -/
theorem exists_parts (hlaw : reader.IsLawful) {s : String} {taken : List Token}
    {names : List Name} (hs : reader.IsClosed s) (hnames : IsDotted taken names)
    (htaken : taken.Sublist (reader.tokensOf s)) :
    ∃ some all : List (List Char), (taken.flatMap Token.written).Sublist some.flatten
      ∧ some.Sublist all ∧ all.flatten.Sublist s.toList ∧ (∀ part ∈ all, part ≠ [])
      ∧ (some = all → taken = reader.tokensOf s) := by
  obtain ⟨htokens, -, -⟩ := hs.cuts hlaw
  -- The tokens that were taken are some of those of the text, and so are the parts they were cut
  -- from.
  obtain ⟨all, hall, hparts⟩ := hlaw.parts _ _ htokens
  obtain ⟨some, hsome, htakenParts⟩ := exists_sublist_of_forall₂ htaken hparts
  refine ⟨some, all, written_sublist htakenParts hnames.forall_mem, hsome, hall, ?_, ?_⟩
  · intro part hpart
    obtain ⟨t, hpart, -⟩ := exists_of_forall₂ hparts.flip part hpart
    exact hpart
  · rintro rfl
    exact htaken.eq_of_length (htakenParts.length_eq.trans hparts.length_eq.symm)

/-- A name that is taken from a closed text is written with no more than it. -/
theorem length_dotted_le (hlaw : reader.IsLawful) {s : String} {taken : List Token}
    {names : List Name} (hs : reader.IsClosed s) (hnames : IsDotted taken names)
    (htaken : taken.Sublist (reader.tokensOf s)) : (Name.dotted names).length ≤ s.length := by
  obtain ⟨some, all, hwritten, hsome, hall, -⟩ := exists_parts hlaw hs hnames htaken
  rw [← String.length_toList, ← String.length_toList, hnames.toList_dotted]
  exact (hwritten.trans ((hsome.flatten).trans hall)).length_le

/-- A name that is taken from a closed text and as long as it is the text, and takes all tokens. -/
theorem dotted_eq_of_length_eq (hlaw : reader.IsLawful) {s : String} {taken : List Token}
    {names : List Name} (hs : reader.IsClosed s) (hnames : IsDotted taken names)
    (htaken : taken.Sublist (reader.tokensOf s))
    (hlen : (Name.dotted names).length = s.length) :
    Name.dotted names = s ∧ taken = reader.tokensOf s := by
  obtain ⟨some, all, hwritten, hsome, hall, hne, heq⟩ := exists_parts hlaw hs hnames htaken
  rw [← String.length_toList, ← String.length_toList, hnames.toList_dotted] at hlen
  constructor
  · apply String.toList_injective
    rw [hnames.toList_dotted]
    exact (hwritten.trans (hsome.flatten.trans hall)).eq_of_length hlen
  · apply heq
    -- The parts of the name are as long as the text, so none is left out.
    apply eq_of_sublist_of_length_flatMap (f := id) hsome hne
    have hle := hall.length_le
    have hle' := hwritten.length_le
    rw [List.flatMap_id, List.flatMap_id]
    omega

end SqlReader

end ProtoSchema.Sql
