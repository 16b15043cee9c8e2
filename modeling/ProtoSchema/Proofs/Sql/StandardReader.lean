import ProtoSchema.Proofs.Sql.CreationReading
import ProtoSchema.Proofs.Sql.TokenTexts

/-!
# The standard reader

The reader that the program itself runs, `Statement.ofScript`, is a lawful reader of SQL.

Key results:
* `Scans.cuts` — what the scanner cuts a text into
* `isScript_of_run_script` — a script is read statement by statement
* `isLawful_standard` — the laws
-/

namespace ProtoSchema.Sql

open TokenReader

/-- The reader that `Statement.ofScript` is. -/
def SqlReader.standard : SqlReader ScriptError where
  Lexeme := Located
  token := Located.token
  lex s := (Sql.tokens s).toOption
  read input := (Statement.read.run input).toOption
  parse := Statement.ofScript

/-- A result that is there is no error. -/
theorem eq_ok_of_toOption_eq_some {ε α : Type} {x : Except ε α} {a : α}
    (h : x.toOption = some a) : x = .ok a := by
  cases x with
  | error e => cases h
  | ok b => exact congrArg Except.ok (Option.some.inj h)

/-- The statement reader of the standard reader. -/
theorem run_read_of_standard {input rest : List Located} {statement : Statement}
    (h : SqlReader.standard.read input = some (statement, rest)) :
    Statement.read.run input = .ok (statement, rest) :=
  eq_ok_of_toOption_eq_some h

/-! ## Tokens -/

/-- The tokens of a text are the one of its first scan, if it yields any, and those of the rest. -/
theorem toOption_tokensUpTo_cons (fuel : Nat) (p : Position) (c : Char) (r : List Char) :
    (tokensUpTo (fuel + 1) p (c :: r)).toOption.map (·.map Located.token)
      = (scan c r).toOption.bind fun result =>
        ((tokensUpTo fuel (p.after ((c :: r).take (r.length + 1 - result.2.length)))
          result.2).toOption.map (·.map Located.token)).map (result.1.toList ++ ·) := by
  rw [tokensUpTo]
  cases scan c r with
  | error part => rfl
  | ok result =>
    obtain ⟨t, rest⟩ := result
    show Option.map _ (Except.map _ (tokensUpTo fuel _ rest)).toOption
      = Option.map _ (Option.map _ (tokensUpTo fuel _ rest).toOption)
    cases tokensUpTo fuel (p.after ((c :: r).take (r.length + 1 - rest.length))) rest with
    | error e => rfl
    | ok more => cases t <;> rfl

/-- The tokens of a text are those that any scan of it yields, where it has steps enough. -/
theorem tokens_standard_eq {fuel fuel' : Nat} (p p' : Position) {s : List Char}
    (hfuel : s.length ≤ fuel) (hfuel' : s.length ≤ fuel') :
    (tokensUpTo fuel p s).toOption.map (·.map Located.token)
      = (tokensUpTo fuel' p' s).toOption.map (·.map Located.token) := by
  induction fuel generalizing fuel' p p' s with
  | zero =>
    obtain rfl : s = [] := List.length_eq_zero_iff.1 (by omega)
    cases fuel' <;> rfl
  | succ fuel ih =>
    cases s with
    | nil => cases fuel' <;> rfl
    | cons c r =>
      obtain ⟨fuel', rfl⟩ : ∃ n, fuel' = n + 1 := ⟨fuel' - 1, by simp at hfuel'; omega⟩
      rw [List.length_cons] at hfuel hfuel'
      rw [toOption_tokensUpTo_cons, toOption_tokensUpTo_cons]
      cases hscan : scan c r with
      | error part => rfl
      | ok result =>
        -- A token takes at least one character, so either amount of fuel covers the rest.
        have hlen := (isScanned_of_scan hscan).length_le
        exact congrArg (Option.map _) (ih _ _ (by omega) (by omega))

/-- A text that is scanned wherever `next` stands behind it is cut there. -/
theorem Scans.cuts {s : List Char} {ts : List Token} {next next' : Option Char → Prop}
    (hs : Scans s ts next) (hnext : ∀ o, next' o → next o) :
    SqlReader.standard.Cuts s ts next' := by
  intro rest us hrest hus
  obtain ⟨located, fuel, p, hfuel, hlocated, htokens⟩ :=
    hs rest (s ++ rest).length {} (hnext _ hrest) (Nat.le_refl _)
  -- The tokens of the rest do not depend on the position or the fuel that they are read with.
  have hbehind : (tokensUpTo fuel p rest).toOption.map (·.map Located.token) = some us :=
    (tokens_standard_eq p {} hfuel (Nat.le_refl _)).trans hus
  show (tokens (s ++ rest)).toOption.map (·.map Located.token) = some (ts ++ us)
  rw [tokens, htokens]
  cases h : tokensUpTo fuel p rest with
  | error e => simp [h, Except.toOption] at hbehind
  | ok more =>
    have hmore : more.map Located.token = us := by simpa [h, Except.toOption] using hbehind
    simp [Except.map, Except.toOption, hlocated, hmore]

/-- What ends a word ends a name. -/
theorem endsName_of_endsWord {o : Option Char} (h : endsWord o) : endsName o :=
  fun c hc => SqlReader.isNamePart_of_gap (h c hc)

/-- A word is one token. -/
theorem scans_plainWord {w : List Char} (h : isPlainWord w = true) :
    Scans w [.word (String.ofList w) false] endsName := by
  simp only [isPlainWord, Bool.and_eq_true, List.all_eq_true] at h
  exact scans_identifier h.1 h.2

/-- Each token of a text is written with characters of its own. -/
theorem exists_parts_of_tokens {s : List Char} {located : List Located}
    (h : tokens s = .ok located) :
    ∃ parts : List (List Char), parts.flatten.Sublist s
      ∧ List.Forall₂ IsWrittenIn (located.map Located.token) parts := by
  obtain ⟨hne, hsublist⟩ := tokensUpTo_written h
  rw [List.flatMap] at hsublist
  -- The part of a token is what it is written with.
  refine ⟨located.map fun l => l.token.written, hsublist, ?_⟩
  rw [List.forall₂_map_left_iff, List.forall₂_map_right_iff, List.forall₂_same]
  exact fun l hl => ⟨hne l hl, fun _ => List.Sublist.refl _⟩

/-! ## Scripts -/

/-- Semicolons in front of a script belong to it. -/
theorem isScript_append {semicolons input : List Located} {statements : List Statement}
    {ended : Bool} (hsemicolons : ∀ l ∈ semicolons, l.token = .symbol ";")
    (h : SqlReader.standard.IsScript (!semicolons.isEmpty || ended) input statements) :
    SqlReader.standard.IsScript ended (semicolons ++ input) statements := by
  induction semicolons generalizing ended with
  | nil => exact h
  | cons l semicolons ih =>
    obtain ⟨hl, hrest⟩ := List.forall_mem_cons.1 hsemicolons
    refine .semicolon hl (ih hrest ?_)
    simpa using h

/-- All semicolons at the front are taken. -/
theorem run_semicolons_eq_ok {input rest : List Located} {found : Bool}
    (h : readSemicolons.run input = .ok (found, rest)) :
    ∃ semicolons, input = semicolons ++ rest ∧ (∀ l ∈ semicolons, l.token = .symbol ";")
      ∧ found = !semicolons.isEmpty := by
  -- The induction is on the fuel of the loop, for any value of the flag it starts with.
  have hloop : ∀ fuel (found found' : Bool) (input : List Located),
      (Reader.iterateUpTo (fun _ => do
        if ← symbol? ";" then pure (some true) else pure none) fuel found).run input
          = .ok (found', rest) →
      ∃ semicolons, input = semicolons ++ rest ∧ (∀ l ∈ semicolons, l.token = .symbol ";")
        ∧ found' = (!semicolons.isEmpty || found) := by
    intro fuel
    induction fuel with
    | zero =>
      intro found found' input h
      cases h
      exact ⟨[], rfl, by simp, rfl⟩
    | succ fuel ih =>
      intro found found' input h
      rw [Reader.iterateUpTo] at h
      obtain ⟨next, mid, hstep, hmore⟩ := Reader.run_bind_eq_ok h
      obtain ⟨taken, behind, hsymbol, hnext⟩ := Reader.run_bind_eq_ok hstep
      rcases run_symbol?_eq_ok hsymbol with ⟨rfl, rfl⟩ | ⟨rfl, l, rfl, hl⟩
      · cases hnext
        cases hmore
        exact ⟨[], rfl, by simp, rfl⟩
      · cases hnext
        obtain ⟨semicolons, rfl, hall, rfl⟩ := ih true found' _ hmore
        exact ⟨l :: semicolons, rfl, List.forall_mem_cons.2 ⟨hl, hall⟩, by simp⟩
  obtain ⟨semicolons, hinput, hall, rfl⟩ := hloop _ _ _ _ h
  exact ⟨semicolons, hinput, hall, Bool.or_false _⟩

/-- All that one step of reading a script can do: behind semicolons the script ends, or a statement
is read. -/
theorem run_nextStatement_eq_ok {script : ScriptState} {next : Option ScriptState}
    {input rest : List Located} (h : (readNextStatement? script).run input = .ok (next, rest)) :
    ∃ semicolons mid, input = semicolons ++ mid ∧ (∀ l ∈ semicolons, l.token = .symbol ";")
      ∧ (next = none ∧ SqlReader.standard.IsScript (!semicolons.isEmpty || script.ended) mid []
        ∨ ∃ l more statement, next = some ⟨script.statements ++ [statement], false⟩
          ∧ (!semicolons.isEmpty || script.ended) = true ∧ mid = l :: more
          ∧ Statement.read.run (l :: more) = .ok (statement, rest)) := by
  obtain ⟨found, mid, hsemicolons, hstep⟩ := Reader.run_bind_eq_ok h
  obtain ⟨semicolons, rfl, hall, rfl⟩ := run_semicolons_eq_ok hsemicolons
  refine ⟨semicolons, mid, rfl, hall, ?_⟩
  cases mid with
  | nil =>
    cases hstep
    exact .inl ⟨rfl, .nil⟩
  | cons l more =>
    have hpeek : peek?.run (l :: more) = .ok (some l.token, l :: more) := rfl
    rw [Reader.run_bind_of_ok hpeek] at hstep
    dsimp only at hstep
    -- A statement is read only behind a semicolon or at the very start.
    by_cases hended : (!semicolons.isEmpty || script.ended) = true
    · rw [if_pos hended] at hstep
      obtain ⟨statement, behind, hread, hpure⟩ := Reader.run_bind_eq_ok hstep
      cases hpure
      exact .inr ⟨l, more, statement, rfl, hended, rfl, hread⟩
    · rw [if_neg hended] at hstep
      -- Without a semicolon, `END` stops the script and anything else is an error.
      by_cases hstop : l.token.isKeyword "END" = true
      · rw [if_pos hstop] at hstep
        cases hstep
        rw [Bool.not_eq_true] at hended
        rw [hended]
        exact .inl ⟨rfl, .stop hstop⟩
      · rw [if_neg hstop] at hstep
        cases hstep

/-- What a script goes on with is read statement by statement. Each statement but the first takes a
semicolon, so there are steps enough. -/
theorem isScript_of_run_script {fuel : Nat} {script script' : ScriptState}
    {input rest : List Located} (hfuel : input.length ≤ fuel)
    (hended : script.ended = true → input.length < fuel)
    (h : (Reader.iterateUpTo readNextStatement? fuel script).run input = .ok (script', rest)) :
    ∃ statements, script'.statements = script.statements ++ statements
      ∧ SqlReader.standard.IsScript script.ended input statements := by
  induction fuel generalizing script input with
  | zero =>
    obtain rfl : input = [] := List.length_eq_zero_iff.1 (by omega)
    cases h
    exact ⟨[], by simp, .nil⟩
  | succ fuel ih =>
    rw [Reader.iterateUpTo] at h
    obtain ⟨next, mid, hstep, hmore⟩ := Reader.run_bind_eq_ok h
    obtain ⟨semicolons, behind, rfl, hall, ⟨rfl, hnone⟩ |
      ⟨l, more, statement, rfl, hflag, rfl, hread⟩⟩ := run_nextStatement_eq_ok hstep
    · cases hmore
      exact ⟨[], by simp, isScript_append hall hnone⟩
    -- A statement may take no tokens at all. What makes the input shorter is the semicolon, which
    -- is there unless this is the first statement.
    · obtain ⟨taken, htaken, -⟩ := spares_statement _ _ _ trivial hread
      have hlen : mid.length ≤ (l :: more).length := by
        rw [htaken, List.length_append]
        omega
      have hmid : mid.length ≤ fuel := by
        rw [List.length_append] at hfuel hended
        cases semicolons with
        | nil =>
          have := hended (by simpa using hflag)
          rw [List.length_nil] at this
          omega
        | cons k semicolons =>
          rw [List.length_cons] at hfuel
          omega
      obtain ⟨statements, heq, hscript⟩ := ih hmid (by simp) hmore
      refine ⟨statement :: statements, by rw [heq]; simp, isScript_append hall ?_⟩
      rw [hflag]
      exact .statement (congrArg Except.toOption hread) hscript

/-- The statements of a script are read one by one from its tokens. -/
theorem isScript_of_ofScript {text : String} {statements : List Statement}
    (h : Statement.ofScript text = .ok statements) :
    ∃ input, SqlReader.standard.lex text.toList = some input
      ∧ SqlReader.standard.IsScript true input statements := by
  cases htokens : tokens text.toList with
  | error e => simp [Statement.ofScript, htokens, bind, Except.bind] at h
  | ok input =>
    cases hread : Statement.readAll.run input with
    | error e => simp [Statement.ofScript, htokens, hread, bind, Except.bind] at h
    | ok result =>
      obtain ⟨statements', rest⟩ := result
      simp only [Statement.ofScript, htokens, hread, bind, Except.bind, pure, Except.pure,
        Except.ok.injEq] at h
      -- The text was cut and the loop went to its end, with nothing behind the last statement.
      subst h
      obtain ⟨script, mid, hscript, hpure⟩ := Reader.run_bind_eq_ok hread
      cases hpure
      obtain ⟨statements, heq, hall⟩ := isScript_of_run_script (Nat.le_succ _) (by simp) hscript
      refine ⟨input, congrArg Except.toOption htokens, ?_⟩
      rw [heq]
      exact hall

/-! ## The laws -/

/-- The standard reader is lawful. -/
theorem isLawful_standard : SqlReader.standard.IsLawful where
  tokens_nil := rfl
  cuts_blank _ hc := (scans_separator (isSeparator_of_mem_blanks hc)).cuts fun _ h => h
  cuts_mark _ hc := (scans_mark hc).cuts fun _ h => h
  cuts_word _ h := (scans_plainWord h).cuts fun _ => endsName_of_endsWord
  cuts_digits _ hne hs := by
    refine (scans_digits hne hs).cuts fun o ho c hc => ⟨endsName_of_endsWord ho c hc, ?_⟩
    rintro rfl
    exact absurd (ho '.' hc) (by decide)
  cuts_quote s := by
    refine (scans_quote s).cuts fun o ho => ?_
    rintro rfl
    exact absurd (ho '\'' rfl) (by decide)
  parts s ts h := by
    obtain ⟨located, hlocated, rfl⟩ := Option.map_eq_some_iff.1 h
    exact exists_parts_of_tokens (eq_ok_of_toOption_eq_some hlocated)
  script _ _ h := isScript_of_ofScript h
  spares input statement rest h _ := by
    obtain ⟨taken, htaken, hspared⟩ := spares_statement _ _ _ trivial (run_read_of_standard h)
    refine ⟨taken, htaken, fun hmem => ?_⟩
    obtain ⟨l, hl, hsymbol⟩ := List.mem_map.1 hmem
    exact hspared l hl hsymbol
  table _ _ _ _ h hinput := run_createTable_eq_ok (run_read_of_standard h) hinput
  index _ _ _ _ _ h hinput := run_createIndex_eq_ok (run_read_of_standard h) hinput

end ProtoSchema.Sql
