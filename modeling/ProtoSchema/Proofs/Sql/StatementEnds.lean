import ProtoSchema.Sql.Statement

/-!
# Where statements end

No reader of a statement takes a semicolon. So a statement ends in front of the first semicolon
behind its start at the latest, whatever stands between.

Key results:
* `SparesFrom.bind`, `Spares.iterate` — readers put together from such readers
* `spares_expression` — expressions, by induction on the depth
* `spares_statement` — statements
-/

namespace ProtoSchema.Sql

open TokenReader

variable {α β σ : Type}

/-- Where the input starts with a token that `start` accepts, the reader `r` takes no semicolon;
`none` stands for the end of the input. -/
def SparesFrom (start : Option Token → Prop) (r : TokenReader α) : Prop :=
  ∀ input a rest, start (input.head?.map Located.token) → r.run input = .ok (a, rest) →
    ∃ taken, input = taken ++ rest ∧ ∀ l ∈ taken, l.token ≠ .symbol ";"

/-- The reader `r` takes no semicolon. -/
abbrev Spares (r : TokenReader α) : Prop :=
  SparesFrom (fun _ => True) r

/-! ## Readers put together -/

section

variable {start : Option Token → Prop}

/-- Whatever the input starts with, a reader that takes no semicolon takes none. -/
theorem Spares.from {r : TokenReader α} (hr : Spares r) : SparesFrom start r :=
  fun input a rest _ h => hr input a rest trivial h

/-- A reader that takes nothing. -/
theorem spares_pure (a : α) : SparesFrom start (pure a) := by
  intro input b rest _ h
  cases h
  exact ⟨[], rfl, by simp⟩

theorem spares_expected (what : Expectation) : SparesFrom start (expected (α := α) what) :=
  fun _ _ _ _ h => nomatch h

/-- A second reader goes on behind the first. -/
theorem SparesFrom.bind {r : TokenReader α} {f : α → TokenReader β} (hr : SparesFrom start r)
    (hf : ∀ a, Spares (f a)) : SparesFrom start (r >>= f) := by
  intro input b rest hstart h
  obtain ⟨a, mid, hfirst, hsecond⟩ := Reader.run_bind_eq_ok h
  obtain ⟨front, rfl, hfront⟩ := hr input a mid hstart hfirst
  obtain ⟨back, rfl, hback⟩ := hf a mid b rest trivial hsecond
  -- What both readers took, neither part with a semicolon in it.
  refine ⟨front ++ back, by rw [List.append_assoc], ?_⟩
  intro l hl
  exact (List.mem_append.1 hl).elim (hfront l) (hback l)

theorem SparesFrom.map {r : TokenReader α} (hr : SparesFrom start r) (f : α → β) :
    SparesFrom start (r >>= fun a => pure (f a)) :=
  hr.bind fun _ => spares_pure _

theorem SparesFrom.discard {r : TokenReader α} (hr : SparesFrom start r) :
    SparesFrom start (discard r) :=
  hr.map fun _ => ()

/-- A choice takes no semicolon when neither of its ways does. -/
theorem SparesFrom.ite {c : Prop} [Decidable c] {p q : TokenReader α} (hp : SparesFrom start p)
    (hq : SparesFrom start q) : SparesFrom start (if c then p else q) := by
  by_cases h : c
  · rwa [if_pos h]
  · rwa [if_neg h]

/-- What one way reads first does not matter for what both go on with. -/
theorem SparesFrom.when {c : Prop} [Decidable c] {p : TokenReader Unit} {f : Unit → TokenReader β}
    (hp : SparesFrom start p) (hf : ∀ u, Spares (f u)) :
    SparesFrom start (if c then p >>= f else f ()) :=
  (hp.bind hf).ite (hf ()).from

/-- A reader that reads in one way or another spares what both spare. -/
theorem SparesFrom.either {c : Prop} [Decidable c] {p q : TokenReader α} {f : α → TokenReader β}
    (hp : SparesFrom start p) (hq : SparesFrom start q) (hf : ∀ a, Spares (f a)) :
    SparesFrom start (if c then p >>= f else q >>= f) :=
  (hp.bind hf).ite (hq.bind hf)

/-- Where a reader fails, an attempt takes nothing. -/
theorem SparesFrom.attempt {r : TokenReader α} (hr : SparesFrom start r) :
    SparesFrom start (Reader.attempt r) := by
  intro input a rest hstart h
  replace h : Reader.attempt r input = .ok (a, rest) := h
  rw [Reader.attempt] at h
  -- An attempt that fails gives the input back, so nothing was taken.
  cases hrun : r input with
  | error e =>
    rw [hrun] at h
    cases h
    exact ⟨[], rfl, by simp⟩
  | ok p =>
    rw [hrun] at h
    cases h
    exact hr input p.1 p.2 hstart hrun

end

/-- A loop takes no semicolon when no step does. -/
theorem Spares.iterate {step : σ → TokenReader (Option σ)} (h : ∀ s, Spares (step s)) (s : σ) :
    Spares (Reader.iterate step s) := by
  -- Every step spares the semicolon, so the loop does for any amount of fuel.
  have hup : ∀ fuel s, Spares (Reader.iterateUpTo step fuel s) := by
    intro fuel
    induction fuel with
    | zero => exact fun s => spares_pure s
    | succ fuel ih =>
      intro s
      apply (h s).bind
      intro next
      cases next with
      | none => exact spares_pure s
      | some s' => exact ih s'
  exact fun input => hup (input.length + 1) s input

/-- Elements with a separator between them are spared with it. -/
theorem Spares.separated {item : TokenReader α} {more : TokenReader Bool} (hitem : Spares item)
    (hmore : Spares more) : Spares (Reader.separated item more) := by
  have hstep : ∀ items : List α, Spares (do
      if ← more then
        let a ← item
        pure (some (a :: items))
      else pure none) :=
    fun items => hmore.bind fun _ => (hitem.map fun a => some (a :: items)).ite (spares_pure none)
  exact hitem.bind fun first => (Spares.iterate hstep []).map fun rest => first :: rest.reverse

/-! ## Single tokens -/

/-- What is looked at may be used. -/
theorem spares_peek? {f : Option Token → TokenReader α} (h : ∀ o, SparesFrom (· = o) (f o)) :
    Spares (peek? >>= f) :=
  fun input a rest _ hrun => h _ input a rest rfl hrun

/-- A token that is no semicolon may be taken whatever it is. -/
theorem spares_skip {t : Token} (h : t ≠ .symbol ";") : SparesFrom (· = some t) skip := by
  intro input a rest hstart hrun
  cases input with
  | nil => cases hstart
  | cons l input =>
    have hl : l.token = t := Option.some.inj hstart
    cases hrun
    refine ⟨[l], rfl, ?_⟩
    intro k hk
    rw [List.mem_singleton.1 hk, hl]
    exact h

/-- All that asking for a token can do: it takes nothing, or one token that `p` accepts. -/
theorem run_next?_eq_ok {p : Token → Option α} {input rest : List Located} {a : Option α}
    (h : (next? p).run input = .ok (a, rest)) :
    (a = none ∧ rest = input) ∨ ∃ l b, input = l :: rest ∧ p l.token = some b ∧ a = some b := by
  cases input with
  | nil =>
    cases h
    exact .inl ⟨rfl, rfl⟩
  | cons l input =>
    simp only [next?, StateT.run] at h
    -- The next token is taken when the function gives a value for it, and left otherwise.
    cases hp : p l.token with
    | none =>
      rw [hp] at h
      cases h
      exact .inl ⟨rfl, rfl⟩
    | some b =>
      rw [hp] at h
      cases h
      exact .inr ⟨l, b, rfl, hp, rfl⟩

/-- Tokens that `p` accepts are taken. -/
theorem spares_next? {p : Token → Option α} (h : p (.symbol ";") = none) : Spares (next? p) := by
  intro input a rest _ hrun
  rcases run_next?_eq_ok hrun with ⟨-, rfl⟩ | ⟨l, b, rfl, hp, -⟩
  · exact ⟨[], rfl, by simp⟩
  · refine ⟨[l], rfl, ?_⟩
    intro k hk hsemicolon
    rw [← List.mem_singleton.1 hk, hsemicolon, h] at hp
    cases hp

theorem spares_symbol? {s : String} (h : s ≠ ";") : Spares (symbol? s) :=
  (spares_next? (if_neg fun he => h (Token.symbol.inj he).symm)).map Option.isSome

theorem spares_symbol {s : String} (h : s ≠ ";") : Spares (symbol s) :=
  (spares_symbol? h).bind fun _ => (spares_pure ()).ite (spares_expected _)

theorem spares_atSymbol (s : String) : Spares (atSymbol s) :=
  spares_peek? fun _ => spares_pure _

theorem spares_keyword? (k : String) : Spares (keyword? k) :=
  (spares_next? (if_neg (by simp [Token.isKeyword]))).map Option.isSome

theorem spares_keyword (k : String) : Spares (keyword k) :=
  (spares_keyword? k).bind fun _ => (spares_pure ()).ite (spares_expected _)

/-- Several keywords are taken, or nothing. -/
theorem run_keywords?_eq_ok {ks : List String} {input rest : List Located} {b : Bool}
    (h : (keywords? ks).run input = .ok (b, rest)) :
    ∃ taken, input = taken ++ rest ∧ ∀ l ∈ taken, ∃ k, l.token.isKeyword k = true := by
  replace h : keywords? ks input = .ok (b, rest) := h
  rw [keywords?] at h
  split at h
  · rename_i hfront
    cases h
    refine ⟨input.take ks.length, (List.take_append_drop _ _).symm, ?_⟩
    -- Each of these tokens is paired with the keyword that it is.
    intro l hl
    obtain ⟨hlength, hall⟩ := hfront
    rw [← List.map_fst_zip (Nat.le_of_eq hlength)] at hl
    obtain ⟨⟨t, k⟩, hzip, rfl⟩ := List.mem_map.1 hl
    exact ⟨k, List.all_eq_true.1 hall _ hzip⟩
  · cases h
    exact ⟨[], rfl, by simp⟩

theorem spares_keywords? (ks : List String) : Spares (keywords? ks) := by
  intro input a rest _ hrun
  obtain ⟨taken, htaken, hkeywords⟩ := run_keywords?_eq_ok hrun
  refine ⟨taken, htaken, ?_⟩
  intro l hl hsemicolon
  obtain ⟨k, hk⟩ := hkeywords l hl
  rw [hsemicolon] at hk
  cases hk

theorem spares_commaSeparated {item : TokenReader α} (h : Spares item) :
    Spares (commaSeparated item) :=
  h.separated (spares_symbol? (by decide))

/-! ## Names and lists -/

theorem spares_ofToken? : Spares (next? Name.ofToken?) :=
  spares_next? rfl

/-- Names are no semicolons, quoted or not. -/
theorem spares_name : Spares Name.read := by
  apply spares_ofToken?.bind
  intro n
  cases n with
  | none => exact spares_expected _
  | some n => exact spares_pure n

theorem spares_dotted : Spares Name.readDotted :=
  spares_name.separated (spares_symbol? (by decide))

theorem spares_columnList {item : TokenReader α} (h : Spares item) : Spares (columnList item) := by
  apply (spares_symbol? (by decide)).bind
  intro opened
  apply SparesFrom.ite
  · apply (spares_commaSeparated h).bind
    exact fun items => (spares_symbol (by decide)).bind fun _ => spares_pure items
  · exact spares_expected _

theorem spares_optionalList {item : TokenReader α} (h : Spares item) :
    Spares (optionalList item) :=
  (spares_atSymbol "(").bind fun _ => (spares_columnList h).ite (spares_pure [])

/-! ## Types -/

theorem spares_readLength : Spares DataType.readLength := by
  apply (spares_next? rfl).bind
  intro text
  cases text with
  | none => exact spares_expected _
  | some text => exact spares_pure text

/-- The modifiers of a type are words, numbers, literals and commas. -/
theorem spares_readModifiers : Spares DataType.readModifiers := by
  unfold DataType.readModifiers
  refine SparesFrom.bind (Spares.iterate (fun modifiers => ?_) []) fun modifiers => ?_
  · apply (spares_next? (by decide)).bind
    intro more
    cases more with
    | none => exact spares_pure none
    | some more => exact spares_pure _
  · exact (spares_symbol? (by decide)).bind fun _ => (spares_pure _).ite (spares_expected _)

theorem spares_readBase (first : Token) : Spares (DataType.readBase first) := by
  unfold DataType.readBase
  apply SparesFrom.ite
  · apply (spares_keyword? _).bind
    exact fun precision => (spares_optionalList spares_readLength).map _
  · split
    · exact (spares_optionalList spares_readLength).map _
    -- A type of one name and a type of dotted names go on with the same modifiers.
    · have hmodifiers : ∀ base : String, Spares (do
          if ← symbol? "(" then
            return DataType.withModifiers base ", " (← DataType.readModifiers)
          else return base) := by
        intro base
        apply (spares_symbol? (by decide)).bind
        exact fun _ => (spares_readModifiers.map _).ite (spares_pure base)
      apply (spares_symbol? (by decide)).bind
      intro dotted
      cases dotted with
      | true => exact spares_dotted.bind fun names => hmodifiers _
      | false => exact hmodifiers _

theorem spares_type : Spares DataType.read := by
  unfold DataType.read
  apply (spares_next? rfl).bind
  intro first
  cases first with
  | none => exact spares_expected _
  | some first =>
    -- Behind the base come the brackets of an array, any number of times.
    refine (spares_readBase first).bind (Spares.iterate fun type => ?_)
    apply (spares_symbol? (by decide)).bind
    intro opened
    apply SparesFrom.ite
    · apply (spares_next? rfl).bind
      exact fun size => (spares_symbol (by decide)).bind fun _ => spares_pure _
    · exact spares_pure none

/-! ## Expressions -/

section

variable {sub : Precedence → TokenReader Expression}

theorem spares_arguments (hsub : ∀ p, Spares (sub p)) : Spares (arguments sub) := by
  have hitem : Spares (do if ← symbol? "*" then pure Expression.all else sub 0) :=
    (spares_symbol? (by decide)).bind fun _ => (spares_pure _).ite (hsub 0)
  apply (spares_symbol? (by decide)).bind
  intro closed
  apply SparesFrom.ite
  · exact spares_pure []
  · apply (spares_commaSeparated hitem).bind
    exact fun items => (spares_symbol (by decide)).bind fun _ => spares_pure items

theorem spares_nameOrCall (hsub : ∀ p, Spares (sub p)) : Spares (nameOrCall sub) := by
  unfold nameOrCall
  apply spares_name.bind
  intro first
  -- The dotted names, and then the arguments when a parenthesis opens.
  refine SparesFrom.bind (Spares.iterate (fun more => ?_) []) fun more => ?_
  · apply (spares_symbol? (by decide)).bind
    intro dotted
    apply SparesFrom.ite
    · apply spares_ofToken?.bind
      intro n
      cases n with
      | none => exact spares_expected _
      | some n => exact spares_pure _
    · exact spares_pure none
  · apply (spares_symbol? (by decide)).bind
    exact fun called => ((spares_arguments hsub).map _).ite (spares_pure _)

/-- An expression that starts with a word takes no semicolon. -/
theorem spares_wordExpression (hsub : ∀ p, Spares (sub p)) {word : Token}
    (hword : word ≠ .symbol ";") : SparesFrom (· = some word) (wordExpression sub word) := by
  have hskip := spares_skip hword
  have hname : SparesFrom (· = some word) (nameOrCall sub) := (spares_nameOrCall hsub).from
  unfold wordExpression
  refine (hskip.bind fun _ => spares_pure _).ite ?_
  refine (hskip.bind fun _ => spares_pure _).ite ?_
  refine (hskip.bind fun _ => spares_pure _).ite ?_
  refine SparesFrom.ite ?_ ?_
  · -- `NOT` is tried as an operator first; where that fails, nothing has been taken.
    apply (hskip.bind fun _ => hsub 30).attempt.bind
    intro operand
    cases operand with
    | none => exact spares_nameOrCall hsub
    | some operand => exact spares_pure _
  refine (hskip.bind fun _ => (hsub 200).map _).ite ?_
  refine SparesFrom.ite ?_ ?_
  · exact hskip.bind fun _ => (spares_symbol (by decide)).bind fun _ => spares_expected _
  refine SparesFrom.ite ?_ hname
  apply hskip.bind
  intro _
  apply (spares_symbol (by decide)).bind
  intro _
  apply (hsub 0).bind
  exact fun operand => (spares_symbol (by decide)).bind fun _ => spares_pure _

/-- An operand takes no semicolon: the tokens that are taken unseen are known from looking at
them. -/
theorem spares_operand (hsub : ∀ p, Spares (sub p)) : Spares (operand sub) := by
  apply spares_peek?
  intro o
  -- One case for each way an operand starts; the token that decides is never a semicolon.
  split
  · exact spares_wordExpression hsub (by simp)
  · exact (spares_skip (by simp)).bind fun _ => spares_pure _
  · exact (spares_skip (by simp)).bind fun _ => spares_pure _
  · exact (spares_skip (by simp)).bind fun _ => spares_pure _
  · apply (spares_skip (by decide)).bind
    intro _
    apply (spares_commaSeparated (hsub 0)).bind
    exact fun items => (spares_symbol (by decide)).bind fun _ => spares_pure _
  · exact (spares_skip (by decide)).bind fun _ => (hsub 90).map _
  · exact (spares_skip (by decide)).bind fun _ => (hsub 90).map _
  · exact spares_expected _

/-- A semicolon is no operator. -/
theorem spares_operators (hsub : ∀ p, Spares (sub p)) (precedence : Precedence)
    (left : Expression) : Spares (operators sub precedence left) := by
  refine Spares.iterate (fun left => ?_) left
  -- A semicolon is no operator.
  have hsemicolon : operator? (.symbol ";") = none := by decide
  apply (spares_next? (by rw [hsemicolon]; rfl)).bind
  intro operator
  split
  · exact spares_pure none
  · exact spares_type.map _
  · exact (hsub _).map _

end

/-- An expression takes no semicolon, however deep it is nested. -/
theorem spares_expression (depth : Nat) (precedence : Precedence) :
    Spares (expression depth precedence) := by
  induction depth generalizing precedence with
  | zero => exact fun _ _ _ _ h => nomatch h
  | succ depth ih => exact (spares_operand ih).bind fun left => spares_operators ih precedence left

/-! ## Constraints -/

theorem spares_anyKeyword? (ks : List String) : Spares (anyKeyword? ks) :=
  (spares_next? (if_neg (by simp [Token.isKeyword]))).map Option.isSome

theorem spares_order : Spares readOrder := by
  have hdirection : Spares readDirection := by
    apply (spares_keyword? _).bind
    intro ascending
    apply (spares_pure _).ite
    exact (spares_keyword? _).bind fun _ => (spares_pure _).ite (spares_pure _)
  have hnulls : Spares readNulls := by
    apply (spares_keywords? _).bind
    intro first
    apply (spares_pure _).ite
    exact (spares_keywords? _).bind fun _ => (spares_pure _).ite (spares_pure _)
  exact hdirection.bind fun direction => hnulls.map _

theorem spares_keyElement (depth : Nat) : Spares (readKeyElement depth) := by
  apply (spares_expression depth 0).bind
  intro e
  apply spares_peek?
  intro o
  apply SparesFrom.ite
  · exact Spares.from (spares_order.map _)
  · exact Spares.from (spares_ofToken?.bind fun operatorClass => spares_order.map _)

theorem spares_action : Spares readAction := by
  apply (spares_keyword? _).bind
  refine fun _ => (spares_pure _).ite ((spares_keyword? _).bind ?_)
  refine fun _ => (spares_pure _).ite ((spares_keywords? _).bind ?_)
  refine fun _ => (spares_pure _).ite ((spares_keywords? _).bind ?_)
  refine fun _ => (spares_pure _).ite ((spares_keywords? _).bind ?_)
  exact fun _ => (spares_pure _).ite (spares_expected _)

theorem spares_references : Spares readReferences := by
  apply spares_dotted.bind
  intro table
  apply (spares_optionalList spares_name).bind
  intro columns
  refine Spares.iterate (fun r => ?_) _
  -- The two actions stand in either order; each turn of the loop reads one of them.
  have hupdate : Spares (do
      if r.onUpdate.isNone then
        if ← keywords? ["ON", "UPDATE"] then
          return some { r with onUpdate := some (← readAction) }
      return none) := by
    apply SparesFrom.ite
    · exact (spares_keywords? _).bind fun _ => (spares_action.map _).ite (spares_pure none)
    · exact spares_pure none
  apply SparesFrom.ite
  · exact (spares_keywords? _).bind fun _ => (spares_action.map _).ite hupdate
  · exact hupdate

theorem spares_condition (depth : Nat) : Spares (readCondition depth) := by
  apply (spares_symbol (by decide)).bind
  intro _
  apply (spares_expression depth 0).bind
  exact fun e => (spares_symbol (by decide)).bind fun _ => spares_pure e

theorem spares_key (depth : Nat) : Spares (readKey depth) :=
  spares_ofToken?.discard.bind fun _ => spares_columnList (spares_keyElement depth)

theorem spares_constraint? (depth : Nat) : Spares (readConstraint? depth) := by
  -- The kind follows, whether the constraint has a name or not.
  refine (spares_keyword? _).bind fun named => SparesFrom.when spares_name.discard fun _ => ?_
  refine (spares_keyword? _).bind fun _ => SparesFrom.ite ?_ ?_
  · refine (spares_anyKeyword? _).bind fun _ => (spares_expected _).ite ?_
    exact (spares_key depth).map _
  refine (spares_keyword? _).bind fun _ => SparesFrom.ite ?_ ?_
  · exact (spares_keyword _).bind fun _ => (spares_key depth).map _
  refine (spares_keyword? _).bind fun _ => SparesFrom.ite ?_ ?_
  · refine (spares_keyword _).bind fun _ => spares_ofToken?.discard.bind fun _ => ?_
    refine (spares_columnList spares_name).bind fun columns => ?_
    exact (spares_keyword _).bind fun _ => spares_references.map _
  refine (spares_keyword? _).bind fun _ => ((spares_condition depth).map _).ite ?_
  exact (spares_expected _).ite (spares_pure none)

/-! ## Tables -/

theorem spares_default (depth : Nat) : Spares (readDefault depth) :=
  (spares_atSymbol "(").bind fun _ =>
    (spares_operand (spares_expression depth)).ite (spares_expression depth 0)

theorem spares_option? (depth : Nat) : Spares (readOption? depth) := by
  refine (spares_keyword? _).bind fun _ => (spares_dotted.discard.map _).ite ?_
  refine (spares_keywords? _).bind fun _ => (spares_pure _).ite ?_
  refine (spares_keyword? _).bind fun _ => (spares_pure _).ite ?_
  refine (spares_keyword? _).bind fun _ => ((spares_default depth).discard.map _).ite ?_
  refine (spares_keywords? _).bind fun _ => (spares_pure _).ite ?_
  refine (spares_keyword? _).bind fun _ => (spares_pure _).ite ?_
  refine (spares_keyword? _).bind fun _ => (spares_references.discard.map _).ite ?_
  refine (spares_keyword? _).bind fun _ => ((spares_condition depth).discard.map _).ite ?_
  exact (spares_keyword? _).discard.map _

theorem spares_optionInto? (depth : Nat) (column : ColumnDefinition) :
    Spares (readOptionInto? depth column) := by
  refine (spares_keyword? _).bind fun named => SparesFrom.when spares_name.discard fun _ => ?_
  apply (spares_option? depth).bind
  intro option
  split
  · exact spares_pure _
  · exact spares_pure _
  · exact (spares_expected _).ite (spares_pure none)

theorem spares_column (depth : Nat) : Spares (readColumn depth) :=
  spares_name.bind fun _ => spares_type.discard.bind fun _ =>
    Spares.iterate (spares_optionInto? depth) _

theorem spares_item (depth : Nat) (body : TableBody) : Spares (readItem depth body) := by
  apply (spares_constraint? depth).bind
  intro constraint
  cases constraint with
  | some constraint => exact spares_pure _
  | none =>
    apply spares_peek?
    intro o
    split
    · exact Spares.from ((spares_column depth).map _)
    · exact spares_expected _

theorem spares_nextItem? (depth : Nat) (body : TableBody) : Spares (readNextItem? depth body) := by
  refine (spares_symbol? (by decide)).bind fun _ => ((spares_item depth body).map _).ite ?_
  exact (spares_atSymbol ")").bind fun _ => (spares_pure none).ite (spares_expected _)

theorem spares_body (depth : Nat) : Spares (readBody depth) := by
  refine (spares_symbol? (by decide)).bind fun _ => (spares_pure _).ite ?_
  refine (spares_symbol? (by decide)).bind fun _ => (spares_pure _).ite ?_
  refine (spares_item depth {}).bind fun body => ?_
  refine (Spares.iterate (spares_nextItem? depth) body).bind fun body => ?_
  exact (spares_symbol (by decide)).bind fun _ => spares_pure body

/-- A statement that creates a table takes no semicolon. -/
theorem spares_createTable (depth : Nat) : Spares (readCreateTable depth) :=
  (spares_keywords? _).discard.bind fun _ => spares_dotted.bind fun _ =>
    (spares_body depth).map _

/-! ## Statements -/

/-- A statement that creates an index takes no semicolon. -/
theorem spares_createIndex (depth : Nat) (unique : Bool) :
    Spares (readCreateIndex depth unique) := by
  -- An index with a name and one without go on with the same target.
  have htarget : ∀ name : Option (List Name), Spares (do
      let table ← Name.readDotted
      let elements ← columnList (readKeyElement depth)
      return Statement.createIndex name table elements unique) :=
    fun name => spares_dotted.bind fun table =>
      (spares_columnList (spares_keyElement depth)).map _
  refine (spares_keyword? _).discard.bind fun _ => (spares_keywords? _).bind fun conditional => ?_
  refine SparesFrom.either (spares_pure false) (spares_keyword? _) fun unnamed => ?_
  apply (htarget none).ite
  exact spares_dotted.bind fun name => (spares_keyword _).bind fun _ => htarget (some name)

theorem spares_signedNumber : Spares readSignedNumber := by
  refine (spares_symbol? (by decide)).bind fun plus =>
    SparesFrom.when (spares_symbol? (by decide)).discard fun _ => ?_
  apply spares_peek?
  intro o
  split
  · exact spares_skip (by simp)
  · exact spares_skip (by simp)
  · exact spares_expected _
  · exact spares_expected _
  · exact spares_expected _

theorem spares_sequenceOptions : Spares readSequenceOptions := by
  have hlimit : ∀ ks, Spares (discard (keywords? ks)) := fun ks => (spares_keywords? ks).discard
  -- The limits and the start follow, whether there is an increment or not.
  have hrest : Spares (do
      if ← keyword? "MINVALUE" then readSignedNumber else discard (keywords? ["NO", "MINVALUE"])
      if ← keyword? "MAXVALUE" then readSignedNumber else discard (keywords? ["NO", "MAXVALUE"])
      if ← keyword? "START" then
        discard (keyword? "WITH")
        readSignedNumber) := by
    refine (spares_keyword? _).bind fun _ =>
      SparesFrom.either spares_signedNumber (hlimit _) fun _ => ?_
    refine (spares_keyword? _).bind fun _ =>
      SparesFrom.either spares_signedNumber (hlimit _) fun _ => ?_
    refine (spares_keyword? _).bind fun _ => SparesFrom.ite ?_ (spares_pure ())
    exact (spares_keyword? _).discard.bind fun _ => spares_signedNumber
  refine (spares_keyword? _).bind fun _ => SparesFrom.ite ?_ hrest
  exact (spares_keyword? _).discard.bind fun _ => spares_signedNumber.bind fun _ => hrest

theorem spares_createType : Spares readCreateType := by
  apply spares_dotted.discard.bind
  intro _
  refine (spares_keyword? _).bind fun _ => SparesFrom.ite ?_ (spares_pure _)
  -- The parenthesis closes the values, of which there may be none.
  have hclose : Spares (symbol ")" >>= fun _ => pure Statement.other) :=
    (spares_symbol (by decide)).bind fun _ => spares_pure _
  refine (spares_keyword _).bind fun _ => (spares_symbol (by decide)).bind fun _ => ?_
  refine (spares_atSymbol ")").bind fun _ => SparesFrom.ite ?_ hclose
  exact (spares_commaSeparated spares_name).discard.bind fun _ => hclose

theorem spares_create (depth : Nat) : Spares (readCreate depth) := by
  refine (spares_keyword? _).bind fun _ => (spares_createTable depth).ite ?_
  refine (spares_keywords? _).bind fun _ => (spares_createIndex depth true).ite ?_
  refine (spares_keyword? _).bind fun _ => (spares_createIndex depth false).ite ?_
  refine (spares_keyword? _).bind fun _ => spares_createType.ite ?_
  refine (spares_keyword? _).bind fun _ => SparesFrom.ite ?_ (spares_expected _)
  refine (spares_keywords? _).discard.bind fun _ => spares_dotted.discard.bind fun _ => ?_
  exact spares_sequenceOptions.bind fun _ => spares_pure _

theorem spares_select (depth : Nat) : Spares (readSelect depth) := by
  have hitem : Spares (do if ← symbol? "*" then pure Expression.all else expression depth 0) :=
    (spares_symbol? (by decide)).bind fun _ => (spares_pure _).ite (spares_expression depth 0)
  have hwhere : Spares (do
      if ← keyword? "WHERE" then discard (expression depth 0)
      return Statement.other) :=
    (spares_keyword? _).bind fun _ =>
      ((spares_expression depth 0).discard.bind fun _ => spares_pure _).ite (spares_pure _)
  refine (spares_commaSeparated hitem).discard.bind fun _ => ?_
  refine (spares_keyword? _).bind fun _ => SparesFrom.ite ?_ hwhere
  exact (spares_commaSeparated spares_dotted).discard.bind fun _ => hwhere

theorem spares_drop : Spares readDrop := by
  refine (spares_anyKeyword? _).bind fun _ => SparesFrom.ite ?_ (spares_expected _)
  refine (spares_keywords? _).discard.bind fun _ => ?_
  refine (spares_commaSeparated spares_dotted).discard.bind fun _ => ?_
  refine (spares_keyword? _).bind fun _ => SparesFrom.ite ?_ (spares_pure _)
  exact (spares_keyword? _).discard.bind fun _ => spares_pure _

/-- A statement takes no semicolon. -/
theorem spares_statement : Spares Statement.read := by
  refine (spares_keyword? _).bind fun _ => (spares_create _).ite ?_
  refine (spares_keyword? _).bind fun _ => (spares_select _).ite ?_
  refine (spares_keyword? _).bind fun _ => spares_drop.ite ?_
  exact (spares_symbol? (by decide)).bind fun _ => (spares_expected _).ite (spares_expected _)

end ProtoSchema.Sql
