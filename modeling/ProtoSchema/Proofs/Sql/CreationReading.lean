import ProtoSchema.Proofs.Sql.Reading
import ProtoSchema.Proofs.Sql.SqlReader
import ProtoSchema.Proofs.Sql.StatementEnds

/-!
# Reading creating statements

All that `Statement.read` can do where a statement for a table or an index starts: it reads such a
statement, and its names where they belong.

Key results:
* `run_dotted_eq_ok` — all that reading a dotted name can do
* `run_createTable_eq_ok` — the name of a table
* `run_createIndex_eq_ok` — the name of an index and of its table
-/

namespace ProtoSchema.Sql

open TokenReader

/-! ## Dotted names -/

/-- What is discarded was read all the same. -/
theorem run_discard_eq_ok {α : Type} {r : TokenReader α} {input rest : List Located} {u : Unit}
    (h : (discard r).run input = .ok (u, rest)) : ∃ a, r.run input = .ok (a, rest) := by
  have hbind : (r >>= fun _ => pure ()).run input = .ok (u, rest) := h
  obtain ⟨a, mid, hr, hpure⟩ := Reader.run_bind_eq_ok hbind
  cases hpure
  exact ⟨a, hr⟩

/-- All that asking for a symbol can do. -/
theorem run_symbol?_eq_ok {s : String} {input rest : List Located} {b : Bool}
    (h : (symbol? s).run input = .ok (b, rest)) :
    (b = false ∧ rest = input) ∨ (b = true ∧ ∃ l, input = l :: rest ∧ l.token = .symbol s) := by
  obtain ⟨a, mid, hnext, hpure⟩ := Reader.run_bind_eq_ok h
  cases hpure
  rcases run_next?_eq_ok hnext with ⟨rfl, rfl⟩ | ⟨l, u, rfl, hl, rfl⟩
  · exact .inl ⟨rfl, rfl⟩
  · exact .inr ⟨rfl, l, rfl, by simpa using hl⟩

/-- All that asking for a keyword can do. -/
theorem run_keyword?_eq_ok {k : String} {input rest : List Located} {b : Bool}
    (h : (keyword? k).run input = .ok (b, rest)) :
    (b = false ∧ rest = input)
      ∨ (b = true ∧ ∃ l, input = l :: rest ∧ l.token.isKeyword k = true) := by
  obtain ⟨a, mid, hnext, hpure⟩ := Reader.run_bind_eq_ok h
  cases hpure
  rcases run_next?_eq_ok hnext with ⟨rfl, rfl⟩ | ⟨l, u, rfl, hl, rfl⟩
  · exact .inl ⟨rfl, rfl⟩
  · exact .inr ⟨rfl, l, rfl, by simpa using hl⟩

/-- Reading a name takes the token that it is. -/
theorem run_name_eq_ok {input rest : List Located} {n : Name}
    (h : Name.read.run input = .ok (n, rest)) :
    ∃ l, input = l :: rest ∧ Name.ofToken? l.token = some n := by
  obtain ⟨a, mid, hnext, hread⟩ := Reader.run_bind_eq_ok h
  rcases run_next?_eq_ok hnext with ⟨rfl, rfl⟩ | ⟨l, u, rfl, hl, rfl⟩
  · cases hread
  · cases hread
    exact ⟨l, rfl, hl⟩

/-- The names behind the first one are collected in reverse. -/
theorem run_moreNames_eq_ok {fuel : Nat} {names names' : List Name} {input rest : List Located}
    (h : (Reader.iterateUpTo (fun names => do
        if ← symbol? "." then
          let n ← Name.read
          pure (some (n :: names))
        else pure none) fuel names).run input = .ok (names', rest)) :
    ∃ taken more, input = taken ++ rest ∧ names' = more.reverse ++ names
      ∧ ∀ {t n}, Name.ofToken? t = some n →
        IsDotted (t :: taken.map Located.token) (n :: more) := by
  induction fuel generalizing names names' input rest with
  | zero =>
    cases h
    exact ⟨[], [], rfl, rfl, IsDotted.single⟩
  | succ fuel ih =>
    rw [Reader.iterateUpTo] at h
    obtain ⟨next, mid, hstep, hmore⟩ := Reader.run_bind_eq_ok h
    obtain ⟨dotted, behind, hdot, hnext⟩ := Reader.run_bind_eq_ok hstep
    rcases run_symbol?_eq_ok hdot with ⟨rfl, rfl⟩ | ⟨rfl, dot, rfl, hsymbol⟩
    · cases hnext
      cases hmore
      exact ⟨[], [], rfl, rfl, IsDotted.single⟩
    -- A point was read, so a name has to follow, and the loop goes on behind it.
    · obtain ⟨n, back, hname, hpure⟩ := Reader.run_bind_eq_ok hnext
      cases hpure
      obtain ⟨l, rfl, hl⟩ := run_name_eq_ok hname
      obtain ⟨taken, more, rfl, rfl, hdotted⟩ := ih hmore
      refine ⟨dot :: l :: taken, n :: more, rfl, by simp, ?_⟩
      intro t m ht
      rw [List.map_cons, List.map_cons, hsymbol]
      exact IsDotted.cons ht (hdotted hl)

/-- All that reading a dotted name can do. -/
theorem run_dotted_eq_ok {input rest : List Located} {names : List Name}
    (h : Name.readDotted.run input = .ok (names, rest)) :
    ∃ taken, input = taken ++ rest ∧ IsDotted (taken.map Located.token) names := by
  obtain ⟨first, mid, hname, hmore⟩ := Reader.run_bind_eq_ok h
  obtain ⟨names', mid', hiterate, hpure⟩ := Reader.run_bind_eq_ok hmore
  cases hpure
  obtain ⟨l, rfl, hl⟩ := run_name_eq_ok hname
  -- The first name was read, and the loop took the others with their points.
  obtain ⟨taken, more, rfl, rfl, hdotted⟩ := run_moreNames_eq_ok hiterate
  exact ⟨l :: taken, rfl, by simpa using hdotted hl⟩

/-! ## Tables -/

/-- A keyword is taken where it stands. -/
theorem run_keyword?_true {k : String} {l : Located} (h : l.token.isKeyword k = true)
    (input : List Located) : (keyword? k).run (l :: input) = .ok (true, input) :=
  reads_keyword?_true h [input.head?.map Located.token] [l] input rfl (List.mem_singleton.2 rfl)

/-- A keyword is not taken where another token stands. -/
theorem run_keyword?_false {k : String} {l : Located} (h : l.token.isKeyword k = false)
    (input : List Located) : (keyword? k).run (l :: input) = .ok (false, l :: input) :=
  reads_keyword?_false (noKeyword_heads h [] []) [] (l :: input) rfl (List.mem_singleton.2 rfl)

/-- Keywords are unquoted words. -/
theorem areWords_of_keywords {taken : List Located}
    (h : ∀ l ∈ taken, ∃ k, l.token.isKeyword k = true) : AreWords (taken.map Located.token) := by
  intro t ht
  obtain ⟨l, hl, rfl⟩ := List.mem_map.1 ht
  obtain ⟨k, hk⟩ := h l hl
  cases htoken : l.token with
  | word text quoted =>
    cases quoted with
    | false => exact ⟨text, rfl⟩
    | true => simp [htoken] at hk
  | number => simp [htoken, Token.isKeyword] at hk
  | literal => simp [htoken, Token.isKeyword] at hk
  | placeholder => simp [htoken, Token.isKeyword] at hk
  | symbol => simp [htoken, Token.isKeyword] at hk

/-- A statement that starts like one for a table, if it is read, is one. -/
theorem run_createTable_eq_ok {input rest : List Located} {statement : Statement}
    {more : List Token} (h : Statement.read.run input = .ok (statement, rest))
    (hinput : input.map Located.token = .word "CREATE" false :: .word "TABLE" false :: more) :
    CreatesTable more statement := by
  obtain ⟨create, tail, rfl, hcreate, htail⟩ := List.map_eq_cons_iff.1 hinput
  obtain ⟨table, input, rfl, htable, rfl⟩ := List.map_eq_cons_iff.1 htail
  have hcreate' : create.token.isKeyword "CREATE" = true := by
    rw [hcreate]
    decide
  have htable' : table.token.isKeyword "TABLE" = true := by
    rw [htable]
    decide
  rw [Statement.read, Reader.run_bind_of_ok (run_keyword?_true hcreate' _), if_pos rfl,
    readCreate, Reader.run_bind_of_ok (run_keyword?_true htable' _), if_pos rfl] at h
  -- Behind the two words stand those of a condition, the name, and a body.
  obtain ⟨_, mid, hwords, hname⟩ := Reader.run_bind_eq_ok h
  obtain ⟨exists?, hkeywords⟩ := run_discard_eq_ok hwords
  obtain ⟨words, rfl, hskipped⟩ := run_keywords?_eq_ok hkeywords
  obtain ⟨names, behind, hdotted, hbody⟩ := Reader.run_bind_eq_ok hname
  obtain ⟨taken, rfl, htaken⟩ := run_dotted_eq_ok hdotted
  obtain ⟨body, rest', -, hstatement⟩ := Reader.run_bind_eq_ok hbody
  cases hstatement
  refine ⟨names, body.columns, body.constraints, rfl, words.map Located.token,
    taken.map Located.token, behind.map Located.token, ?_, areWords_of_keywords hskipped, htaken⟩
  rw [List.map_append, List.map_append, List.append_assoc]

/-! ## Indexes -/

/-- Asking for a keyword takes it. -/
theorem run_keyword_eq_ok {k : String} {input rest : List Located} {u : Unit}
    (h : (keyword k).run input = .ok (u, rest)) :
    ∃ l, input = l :: rest ∧ l.token.isKeyword k = true := by
  obtain ⟨found, mid, hkeyword, hfound⟩ := Reader.run_bind_eq_ok h
  rcases run_keyword?_eq_ok hkeyword with ⟨rfl, rfl⟩ | ⟨rfl, l, rfl, hl⟩
  · cases hfound
  · cases hfound
    exact ⟨l, rfl, hl⟩

/-- The table behind `ON`, and a parenthesis behind it. -/
theorem run_indexTarget_eq_ok {input rest : List Located} {name : Option (List Name)}
    {unique : Bool} {statement : Statement} {depth : Nat}
    (h : (do
      let table ← Name.readDotted
      let elements ← columnList (readKeyElement depth)
      return Statement.createIndex name table elements unique).run input = .ok (statement, rest)) :
    ∃ table elements taken behind, statement = .createIndex name table elements unique
      ∧ IsDotted taken table ∧ input.map Located.token = taken ++ .symbol "(" :: behind := by
  obtain ⟨table, mid, hdotted, hlist⟩ := Reader.run_bind_eq_ok h
  obtain ⟨taken, rfl, htaken⟩ := run_dotted_eq_ok hdotted
  obtain ⟨elements, behind, hcolumns, hpure⟩ := Reader.run_bind_eq_ok hlist
  cases hpure
  obtain ⟨opened?, mid', hsymbol, helements⟩ := Reader.run_bind_eq_ok hcolumns
  -- The list of columns fails unless a parenthesis opens it.
  rcases run_symbol?_eq_ok hsymbol with ⟨rfl, rfl⟩ | ⟨rfl, opened, rfl, hopened⟩
  · cases helements
  · exact ⟨table, elements, _, mid'.map Located.token, rfl, htaken, by simp [hopened]⟩

/-- A statement for an index without a name. -/
theorem run_unnamedIndex_eq_ok {depth : Nat} {unique : Bool} {input rest : List Located}
    {statement : Statement} (ts : List Token)
    (h : (do
      let table ← Name.readDotted
      let elements ← columnList (readKeyElement depth)
      return Statement.createIndex none table elements unique).run input = .ok (statement, rest)) :
    CreatesIndex unique ts statement := by
  obtain ⟨table, elements, -, -, rfl, -⟩ := run_indexTarget_eq_ok h
  exact ⟨none, table, elements, rfl, by simp⟩

/-- A statement for an index with a name, behind words. -/
theorem run_namedIndex_eq_ok {depth : Nat} {unique : Bool} {words : List Token}
    {input rest : List Located} {statement : Statement} (hwords : AreWords words)
    (h : (do
      let name ← Name.readDotted
      keyword "ON"
      let table ← Name.readDotted
      let elements ← columnList (readKeyElement depth)
      return Statement.createIndex (some name) table elements unique).run input
        = .ok (statement, rest)) :
    CreatesIndex unique (words ++ input.map Located.token) statement := by
  obtain ⟨names, behind, hdotted, hon⟩ := Reader.run_bind_eq_ok h
  obtain ⟨taken, rfl, htaken⟩ := run_dotted_eq_ok hdotted
  obtain ⟨_, behind', hkeyword, htarget⟩ := Reader.run_bind_eq_ok hon
  obtain ⟨on, rfl, hfound⟩ := run_keyword_eq_ok hkeyword
  obtain ⟨table, elements, target, back, rfl, htable, hback⟩ := run_indexTarget_eq_ok htarget
  refine ⟨some names, table, elements, rfl, ?_⟩
  rintro _ ⟨⟩
  -- This reader knows no methods.
  refine ⟨words, taken.map Located.token, [], on.token, target, [], back, ?_, hwords, htaken,
    .inl rfl, hfound, htable, .inl rfl⟩
  simp [hback]

/-- A statement for an index, behind the words that say so. -/
theorem run_readCreateIndex_eq_ok {depth : Nat} {unique : Bool} {input rest : List Located}
    {statement : Statement} (h : (readCreateIndex depth unique).run input = .ok (statement, rest)) :
    CreatesIndex unique (input.map Located.token) statement := by
  obtain ⟨_, mid, hdiscard, hrest⟩ := Reader.run_bind_eq_ok h
  obtain ⟨concurrently, hconcurrently⟩ := run_discard_eq_ok hdiscard
  obtain ⟨conditional, mid', hconditional, hname⟩ := Reader.run_bind_eq_ok hrest
  obtain ⟨words, rfl, hkeywords⟩ : ∃ words, input = words ++ mid'
      ∧ ∀ l ∈ words, ∃ k, l.token.isKeyword k = true := by
    obtain ⟨words, rfl, hwords⟩ := run_keywords?_eq_ok hconditional
    rcases run_keyword?_eq_ok hconcurrently with ⟨-, rfl⟩ | ⟨-, l, rfl, hl⟩
    · exact ⟨words, rfl, hwords⟩
    · exact ⟨l :: words, rfl, List.forall_mem_cons.2 ⟨⟨_, hl⟩, hwords⟩⟩
  have hwords := areWords_of_keywords hkeywords
  rw [List.map_append]
  -- An index that is made on a condition has a name, any other one may lack it.
  by_cases hc : conditional = true
  · rw [if_pos hc] at hname
    exact run_namedIndex_eq_ok hwords hname
  · rw [if_neg hc] at hname
    obtain ⟨unnamed, behind, hkeyword, hrun⟩ := Reader.run_bind_eq_ok hname
    rcases run_keyword?_eq_ok hkeyword with ⟨rfl, rfl⟩ | ⟨rfl, l, rfl, -⟩
    · exact run_namedIndex_eq_ok hwords hrun
    · exact run_unnamedIndex_eq_ok _ hrun

/-- Behind `CREATE UNIQUE INDEX` an index is read. -/
theorem run_readCreate_uniqueIndex {depth : Nat} {word index : Located} {input : List Located}
    (hword : word.token = .word "UNIQUE" false) (hindex : index.token = .word "INDEX" false) :
    (readCreate depth).run (word :: index :: input) = (readCreateIndex depth true).run input := by
  have hnotTable : word.token.isKeyword "TABLE" = false := by
    rw [hword]
    decide
  have hunique : word.token.isKeyword "UNIQUE" = true := by
    rw [hword]
    decide
  have hindex' : index.token.isKeyword "INDEX" = true := by
    rw [hindex]
    decide
  have hboth : (keywords? ["UNIQUE", "INDEX"]).run (word :: index :: input) = .ok (true, input) :=
    reads_keywords?_true hunique hindex' [input.head?.map Located.token] [word, index] input rfl
      (List.mem_singleton.2 rfl)
  rw [readCreate, Reader.run_bind_of_ok (run_keyword?_false hnotTable _), if_neg (by decide),
    Reader.run_bind_of_ok hboth, if_pos rfl]

/-- Behind `CREATE INDEX` an index is read. -/
theorem run_readCreate_index {depth : Nat} {index : Located} {input : List Located}
    (hindex : index.token = .word "INDEX" false) :
    (readCreate depth).run (index :: input) = (readCreateIndex depth false).run input := by
  have hnotTable : index.token.isKeyword "TABLE" = false := by
    rw [hindex]
    decide
  have hnotUnique : index.token.isKeyword "UNIQUE" = false := by
    rw [hindex]
    decide
  have hindex' : index.token.isKeyword "INDEX" = true := by
    rw [hindex]
    decide
  have hneither : (keywords? ["UNIQUE", "INDEX"]).run (index :: input)
      = .ok (false, index :: input) :=
    reads_keywords?_false (noKeyword_heads hnotUnique [] []) [] (index :: input) rfl
      (List.mem_singleton.2 rfl)
  rw [readCreate, Reader.run_bind_of_ok (run_keyword?_false hnotTable _), if_neg (by decide),
    Reader.run_bind_of_ok hneither, if_neg (by decide),
    Reader.run_bind_of_ok (run_keyword?_true hindex' _), if_pos rfl]

/-- A statement that starts like one for an index, if it is read, is one. -/
theorem run_createIndex_eq_ok {input rest : List Located} {statement : Statement} {unique : Bool}
    {more : List Token} (h : Statement.read.run input = .ok (statement, rest))
    (hinput : input.map Located.token = createIndexWords unique ++ more) :
    CreatesIndex unique more statement := by
  obtain ⟨create, tail, rfl, hcreate, htail⟩ := List.map_eq_cons_iff.1 hinput
  have hcreate' : create.token.isKeyword "CREATE" = true := by
    rw [hcreate]
    decide
  rw [Statement.read, Reader.run_bind_of_ok (run_keyword?_true hcreate' _), if_pos rfl] at h
  cases unique with
  | true =>
    obtain ⟨word, tail, rfl, hword, htail⟩ := List.map_eq_cons_iff.1 htail
    obtain ⟨index, input, rfl, hindex, rfl⟩ := List.map_eq_cons_iff.1 htail
    rw [run_readCreate_uniqueIndex hword hindex] at h
    exact run_readCreateIndex_eq_ok h
  | false =>
    obtain ⟨index, input, rfl, hindex, rfl⟩ := List.map_eq_cons_iff.1 htail
    rw [run_readCreate_index hindex] at h
    exact run_readCreateIndex_eq_ok h

end ProtoSchema.Sql
