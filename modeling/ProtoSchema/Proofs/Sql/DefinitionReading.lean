import ProtoSchema.Proofs.Sql.DefinitionTokens

/-!
# Reading definition statements back

The tokens of a statement that creates a table or an index are read as the statement that they
stand for: the columns with their `NOT NULL`, the constraints, and nothing of types and defaults.

Key results:
* `reads_column`, `reads_constraint` — the items of a table body
* `reads_tableStatement`, `reads_indexStatement` — the statements
* `reads_script` — statements with semicolons behind them
* `ofScript_tableDefinitions` — the definitions of a schema hold its statements, in order
-/

namespace ProtoSchema.Sql

open Relational TokenReader

/-- What stands behind an item of a list. -/
def itemNext : List (Option Token) := [some (.symbol ","), some (.symbol ")")]

/-! ## Key lists -/

/-- A name as it is written in a definition. -/
def unquoted (n : String) : Name := ⟨n, none⟩

/-- A name as an element of a key list. -/
def keyElement (n : String) : KeyElement := { expression := .name [unquoted n] }

/-- No operator stands behind an operand. -/
theorem reads_operators_none {sub : Precedence → TokenReader Expression} {p : Precedence}
    {e : Expression} {next : List (Option Token)} (h : ∀ o ∈ next, o.bind operator? = none) :
    Reads (operators sub p e) [] next e := by
  refine (ReadsLoop.stop ?_).iterate
  refine Reads.bind_nil (a := none) (reads_next?_none ?_) (reads_pure none next)
  intro o ho
  cases o with
  | none => rfl
  | some t =>
    have ht : operator? t = none := h _ ho
    rw [Option.bind_some, ht]
    rfl

/-- The expression of a plain name inside a list. -/
theorem reads_nameExpression (depth : Nat) (p : Precedence) {n : String}
    (hn : isPlainName n = true) :
    Reads (expression (depth + 1) p) [.word n false] itemNext (.name [unquoted n]) := by
  have hk : ∀ k ∈ ["NULL", "TRUE", "FALSE", "NOT", "INTERVAL", "EXISTS", "TRIM"],
      (Token.word n false).isKeyword k = false :=
    fun k hk => noKeyword_of_isPlainName hn (by revert k; decide)
  have hname : Reads (nameOrCall (expression depth)) [.word n false] itemNext
      (.name [unquoted n]) := by
    refine (reads_name n _).bind_cons (Reads.bind_nil (a := []) ?_ ?_)
    · exact (ReadsLoop.stop (Reads.symbol?_else (by decide) (reads_pure none itemNext))).iterate
    · exact Reads.symbol?_else (by decide) (reads_pure _ itemNext)
  have hword : Reads (wordExpression (expression depth) (.word n false)) [.word n false] itemNext
      (.name [unquoted n]) := by
    simpa only [wordExpression, hk _ (by decide : "NULL" ∈ _), hk _ (by decide : "TRUE" ∈ _),
      hk _ (by decide : "FALSE" ∈ _), hk _ (by decide : "NOT" ∈ _),
      hk _ (by decide : "INTERVAL" ∈ _), hk _ (by decide : "EXISTS" ∈ _),
      hk _ (by decide : "TRIM" ∈ _), Bool.false_eq_true, if_false] using hname
  have hstop : ∀ o ∈ itemNext, o.bind operator? = none := by decide
  -- The operand is the name, and no operator stands behind it.
  refine Reads.bind_cons (a := .name [unquoted n]) ?_ (reads_operators_none hstop)
  exact Reads.bind_nil (reads_peek? (some (.word n false))) hword

/-- No order stands behind an element. -/
theorem reads_order_none : Reads readOrder [] itemNext "" := by
  have hdirection : Reads readDirection [] itemNext "" :=
    Reads.keyword?_else (by decide) (Reads.keyword?_else (by decide) (reads_pure "" itemNext))
  have hnulls : Reads readNulls [] itemNext "" :=
    Reads.keywords?_else (by decide) (Reads.keywords?_else (by decide) (reads_pure "" itemNext))
  exact Reads.bind_nil hdirection (hnulls.bind_last (reads_pure "" itemNext))

/-- A plain name is read as an element of a key list. -/
theorem reads_keyElement (depth : Nat) {n : String} (hn : isPlainName n = true) :
    Reads (readKeyElement (depth + 1)) [.word n false] itemNext (keyElement n) := by
  refine Reads.bind_cons (reads_nameExpression depth 0 hn) (reads_of_forall fun o ho => ?_)
  have hordered : (o.any fun t => ["ASC", "DESC", "NULLS", "WITH"].any (t.isKeyword ·))
      = false := by
    revert o
    decide
  have hclass : o.bind Name.ofToken? = none := by
    revert o
    decide
  -- Neither an order nor an operator class follows: a comma or a parenthesis does.
  refine Reads.bind_nil (reads_peek? o) ?_
  simp only [hordered, Bool.false_eq_true, if_false]
  refine Reads.bind_nil (reads_next?_none fun o' ho' => ?_) ?_
  · rw [List.mem_singleton.1 ho']
    exact hclass
  · refine Reads.bind_nil (reads_order_none.mono fun o' ho' => ?_) (reads_pure _ [o])
    rw [List.mem_singleton.1 ho']
    exact ho

/-- Plain names in parentheses are read one by one. -/
theorem reads_columnList {α : Type} {item : TokenReader α} {value : String → α}
    {names : List String} {next : List (Option Token)} (hne : names ≠ [])
    (hitem : ∀ n ∈ names, Reads item [.word n false] itemNext (value n)) :
    Reads (columnList item) (columnListTokens names) next (names.map value) := by
  have hclose : NoSymbol "," [some (.symbol ")")] := by decide
  refine Reads.symbol?_then (Reads.bind (reads_commaSeparated hclose hne hitem) ?_)
  exact (reads_symbol ")" _).bind_cons (reads_pure _ next)

/-! ## Constraints -/

/-- The key elements of plain names in parentheses, where a constraint needs them. -/
theorem reads_key (depth : Nat) {names : List String} {next : List (Option Token)}
    (hne : names ≠ []) (hnames : ∀ n ∈ names, isPlainName n = true) :
    Reads (readKey (depth + 1)) (columnListTokens names) next (names.map keyElement) := by
  have hunnamed : Reads (next? Name.ofToken?) [] (heads (columnListTokens names) next) none :=
    reads_next?_none (by simp [columnListTokens, heads, Name.ofToken?])
  exact hunnamed.discard.bind_nil
    (reads_columnList hne fun n hn => reads_keyElement depth (hnames n hn))

/-- An action is read from its words. -/
theorem reads_action (action : ReferentialAction) (next : List (Option Token)) :
    Reads readAction (actionTokens action) next action := by
  cases action with
  | restrict => exact Reads.keyword?_then (by decide) (reads_pure _ next)
  | cascade =>
    refine Reads.keyword?_other (by decide) ?_
    exact Reads.keyword?_then (by decide) (reads_pure _ next)
  | setNull =>
    refine Reads.keyword?_other (by decide) ?_
    refine Reads.keyword?_other (by decide) ?_
    exact Reads.keywords?_then (by decide) (by decide) (reads_pure _ next)
  | noAction =>
    refine Reads.keyword?_other (by decide) ?_
    refine Reads.keyword?_other (by decide) ?_
    refine Reads.keywords?_other (by decide) ?_
    exact Reads.keywords?_then (by decide) (by decide) (reads_pure _ next)
  | setDefault =>
    refine Reads.keyword?_other (by decide) ?_
    refine Reads.keyword?_other (by decide) ?_
    -- `SET NULL` is tried first and given up at its second word.
    refine Reads.keywords?_else_second (by decide) ?_
    refine Reads.keywords?_other (by decide) ?_
    exact Reads.keywords?_then (by decide) (by decide) (reads_pure _ next)

/-- A reference as it is read from its clause. -/
def referenceOf (r : Reference) : References where
  table := [unquoted r.table]
  columns := r.columns.map unquoted
  onDelete := some r.onDelete
  onUpdate := some r.onUpdate

/-- A reference is read from its clause, behind the word `REFERENCES`. -/
theorem reads_references {r : Reference} (hne : r.columns ≠ []) (next : List (Option Token)) :
    Reads readReferences (.word r.table false :: columnListTokens r.columns
      ++ .word "ON" false :: .word "DELETE" false :: actionTokens r.onDelete
      ++ .word "ON" false :: .word "UPDATE" false :: actionTokens r.onUpdate) next
      (referenceOf r) := by
  have hcolumns : ∀ next', Reads (optionalList Name.read) (columnListTokens r.columns) next'
      (r.columns.map unquoted) := by
    intro next'
    refine Reads.bind_nil (reads_atSymbol_true "(") ?_
    exact reads_columnList hne fun n _ => reads_name n _
  have hdot : NoSymbol "." [some (.symbol "(")] := by decide
  rw [List.append_assoc]
  refine Reads.bind_cons (reads_dotted r.table hdot) (Reads.bind (hcolumns _) ?_)
  rw [← List.append_nil (_ :: _ :: actionTokens r.onUpdate)]
  -- One step for each of the two events, in this order; then no event is left.
  refine (ReadsLoop.step (b := { referenceOf r with onUpdate := none }) ?_
    (ReadsLoop.step (b := referenceOf r) ?_ (ReadsLoop.stop ?_))).iterate
  · simp only [Option.isNone_none, if_true]
    refine Reads.keywords?_then (by decide) (by decide) ?_
    exact (reads_action r.onDelete _).map fun action => some _
  · simp only [referenceOf, Option.isNone_none, Option.isNone_some, Bool.false_eq_true, if_false,
      if_true]
    refine Reads.keywords?_then (by decide) (by decide) ?_
    exact (reads_action r.onUpdate _).map fun action => some _
  · exact reads_pure none next

/-- A constraint as it is read from its line; a foreign key has none without a reference. -/
def constraintOf? (c : Constraint) : Option TableConstraint :=
  match c.kind with
  | .primaryKey => some (.primaryKey (c.columns.map keyElement))
  | .unique => some (.unique (c.columns.map keyElement))
  | .foreignKey =>
    c.reference.map fun r => .foreignKey (c.columns.map unquoted) (referenceOf r)

/-- A plain constraint that has a line is read from it. -/
theorem reads_constraint (depth : Nat) {table line : String} {c : Constraint}
    (hc : IsPlainConstraint c) (hline : c.definition table = .ok line)
    (next : List (Option Token)) :
    Reads (readConstraint? (depth + 1)) (constraintTokens c) next (constraintOf? c) := by
  have hparen : ∀ k (us : List Token), NoKeyword k (heads (.symbol "(" :: us) next) :=
    fun k us => noKeyword_heads rfl us next
  -- The kinds are tried in a fixed order, after the word `CONSTRAINT`, which is not there.
  obtain ⟨hne, ⟨hkind, -⟩ | ⟨hkind, -⟩ | ⟨hkind, r, hr, hrne, -⟩⟩ := definition_eq_ok hline
  · rw [constraintTokens, constraintOf?, hkind]
    refine Reads.bind_nil (reads_keyword?_false (noKeyword_heads (by decide) _ _)) ?_
    refine Reads.keyword?_other (by decide) ?_
    refine Reads.keyword?_then (by decide) ?_
    refine (reads_keyword (by decide) _).bind_cons ?_
    exact (reads_key depth hne hc.columns).map fun es => some (TableConstraint.primaryKey es)
  · rw [constraintTokens, constraintOf?, hkind]
    refine Reads.bind_nil (reads_keyword?_false (noKeyword_heads (by decide) _ _)) ?_
    refine Reads.keyword?_then (by decide) ?_
    refine Reads.bind_nil (reads_anyKeyword?_false fun k _ => hparen k _) ?_
    exact (reads_key depth hne hc.columns).map fun es => some (TableConstraint.unique es)
  · rw [constraintTokens, constraintOf?, hkind, hr]
    refine Reads.bind_nil (reads_keyword?_false (noKeyword_heads (by decide) _ _)) ?_
    refine Reads.keyword?_other (by decide) ?_
    refine Reads.keyword?_other (by decide) ?_
    refine Reads.keyword?_then (by decide) ?_
    refine (reads_keyword (by decide) _).bind_cons ?_
    refine Reads.bind_nil (reads_next?_none ?_).discard ?_
    · simp [columnListTokens, heads, Name.ofToken?]
    · refine Reads.bind (reads_columnList hne fun n _ => reads_name n _) ?_
      refine (reads_keyword (by decide) _).bind_cons ?_
      exact (reads_references hrne next).map fun references =>
        some (TableConstraint.foreignKey (c.columns.map unquoted) references)

/-- A plain name does not start a constraint. -/
theorem reads_constraint_none (depth : Nat) {n : String} (hn : isPlainName n = true) :
    Reads (readConstraint? depth) [] [some (.word n false)] none := by
  have hk : ∀ k ∈ ["CONSTRAINT", "UNIQUE", "PRIMARY", "FOREIGN", "CHECK"],
      NoKeyword k [some (.word n false)] := by
    intro k hk
    exact noKeyword_heads (noKeyword_of_isPlainName hn (by revert k; decide)) [] []
  -- A plain name is none of the five words that start a constraint.
  refine Reads.bind_nil (reads_keyword?_false (hk _ (by decide))) ?_
  refine Reads.keyword?_else (hk _ (by decide)) ?_
  refine Reads.keyword?_else (hk _ (by decide)) ?_
  refine Reads.keyword?_else (hk _ (by decide)) ?_
  refine Reads.keyword?_else (hk _ (by decide)) ?_
  exact reads_pure none _

/-! ## Columns -/

/-- What stands behind the type of a column: an option, or what stands behind the column. -/
def typeNext : List (Option Token) :=
  [some (.word "NOT" false), some (.word "DEFAULT" false)] ++ itemNext

/-- A word is read as a type without its brackets. -/
theorem reads_typeBase {w : String} (hw : (Token.word w false).isKeyword "DOUBLE" = false) :
    ∃ text, Reads (DataType.readBase (.word w false)) [] (some (.symbol "[") :: typeNext) text := by
  simp only [DataType.readBase, hw, Bool.false_eq_true, if_false]
  -- A built-in type may have a length, a name of another type may have parts.
  cases DataType.builtIn.find? ((Token.word w false).isKeyword ·) with
  | some base =>
    refine ⟨_, Reads.bind_nil (a := []) ?_ (reads_pure _ _)⟩
    exact Reads.bind_nil (reads_atSymbol_false (by decide)) (reads_pure [] _)
  | none =>
    refine ⟨w, Reads.bind_nil (reads_symbol?_false (by decide)) ?_⟩
    exact Reads.symbol?_else (by decide) (reads_pure w _)

/-- A word, or a word and brackets, are read as a type. -/
theorem reads_typeWord {w : String} (hw : (Token.word w false).isKeyword "DOUBLE" = false)
    {brackets : List Token} (h : brackets = [] ∨ brackets = [.symbol "[", .symbol "]"]) :
    ∃ text, Reads DataType.read (.word w false :: brackets) typeNext text := by
  obtain ⟨base, hbase⟩ := reads_typeBase hw
  have hbase' : Reads (DataType.readBase (.word w false)) [] (heads brackets typeNext) base := by
    refine hbase.mono ?_
    rcases h with rfl | rfl <;> decide
  rcases h with rfl | rfl
  · refine ⟨base, Reads.bind_cons (reads_next?_some (by rfl) _) (Reads.bind_nil hbase' ?_)⟩
    exact (ReadsLoop.stop (Reads.symbol?_else (by decide) (reads_pure none _))).iterate
  -- One turn of the loop for the brackets, and one that finds no more.
  · refine ⟨base ++ "[" ++ "" ++ "]", ?_⟩
    refine Reads.bind_cons (reads_next?_some (by rfl) _) (Reads.bind_nil hbase' ?_)
    rw [← List.append_nil [Token.symbol "[", Token.symbol "]"]]
    refine (ReadsLoop.step (Reads.symbol?_then ?_) (ReadsLoop.stop
      (Reads.symbol?_else (by decide) (reads_pure none _)))).iterate
    refine Reads.bind_nil (reads_next?_none (by decide)) ?_
    exact (reads_symbol "]" _).bind_last (reads_pure _ _)

/-- A plain type is read. -/
theorem reads_type {type : ColumnType} (h : ∀ n, type = .enum n → isPlainName n = true) :
    ∃ text, Reads DataType.read (typeTokens type) typeNext text := by
  cases type with
  | enum n => exact reads_typeWord (noKeyword_of_isPlainName (h n rfl) (by decide)) (.inl rfl)
  | textArray => exact reads_typeWord (by decide) (.inr rfl)
  | varcharArray => exact reads_typeWord (by decide) (.inr rfl)
  | _ => exact reads_typeWord (by decide) (.inl rfl)

/-- A plain default is read. -/
theorem reads_default (depth : Nat) {literal : String} (h : IsPlainDefault literal) :
    ∃ e, Reads (readDefault (depth + 1)) (tokensOf literal) itemNext e := by
  have hstop : ∀ o ∈ itemNext, o.bind operator? = none := by decide
  -- One token that is an operand by itself is the whole default.
  have hone : ∀ (t : Token) (e : Expression), t ≠ .symbol "(" →
      (∀ next, Reads (operand (expression depth)) [t] next e) →
      Reads (readDefault (depth + 1)) [t] itemNext e := by
    intro t e ht hoperand
    refine Reads.bind_nil (reads_atSymbol_false (by simpa [heads, NoSymbol] using ht.symm)) ?_
    exact (hoperand _).bind_last (reads_operators_none hstop)
  have htaken : ∀ (t : Token) (e : Expression) (next : List (Option Token)),
      Reads (do skip; pure e) [t] next e :=
    fun t e next => (reads_skip t _).bind_last (reads_pure e next)
  obtain ⟨-, ⟨s, hs⟩ | ⟨s, hs⟩ | hs | hs⟩ := scans_plainDefault h
  · rw [hs]
    exact ⟨.literal s, hone _ _ (by simp) fun next =>
      Reads.bind_nil (reads_peek? (some (.literal s))) (htaken _ _ next)⟩
  · rw [hs]
    exact ⟨.number s, hone _ _ (by simp) fun next =>
      Reads.bind_nil (reads_peek? (some (.number s))) (htaken _ _ next)⟩
  · rw [hs]
    exact ⟨.truth true, hone _ _ (by simp) fun next =>
      Reads.bind_nil (reads_peek? (some (.word "true" false))) (htaken _ _ next)⟩
  · rw [hs]
    exact ⟨.truth false, hone _ _ (by simp) fun next =>
      Reads.bind_nil (reads_peek? (some (.word "false" false))) (htaken _ _ next)⟩

/-- A column as it is read from its line. -/
def columnOf (c : Column) : ColumnDefinition := ⟨unquoted c.name, c.notNull⟩

/-- No option stands behind the last one. -/
theorem reads_option_none (depth : Nat) : Reads (readOption? depth) [] itemNext none := by
  -- None of the words that start an option stands here.
  refine Reads.keyword?_else (by decide) ?_
  refine Reads.keywords?_else (by decide) ?_
  refine Reads.keyword?_else (by decide) ?_
  refine Reads.keyword?_else (by decide) ?_
  refine Reads.keywords?_else (by decide) ?_
  refine Reads.keyword?_else (by decide) ?_
  refine Reads.keyword?_else (by decide) ?_
  refine Reads.keyword?_else (by decide) ?_
  refine Reads.bind_nil (reads_keyword?_false (by decide)).discard ?_
  exact reads_pure none itemNext

/-- The option `NOT NULL` is read. -/
theorem reads_option_notNull (depth : Nat) (next : List (Option Token)) :
    Reads (readOption? depth) [.word "NOT" false, .word "NULL" false] next (some .notNull) := by
  refine Reads.keyword?_other (by decide) ?_
  exact Reads.keywords?_then (by decide) (by decide) (reads_pure _ next)

/-- A plain default is read as an option. -/
theorem reads_option_default (depth : Nat) {literal : String} (h : IsPlainDefault literal) :
    Reads (readOption? (depth + 1)) (.word "DEFAULT" false :: tokensOf literal) itemNext
      (some .other) := by
  obtain ⟨e, he⟩ := reads_default depth h
  refine Reads.keyword?_other (by decide) ?_
  refine Reads.keywords?_other (by decide) ?_
  refine Reads.keyword?_other (by decide) ?_
  -- The word `DEFAULT` comes fourth; the words asked for earlier are not there.
  refine Reads.keyword?_then (by decide) ?_
  exact he.discard.bind_last (reads_pure _ itemNext)

/-- What an option says is kept. -/
theorem reads_optionInto {depth : Nat} {ts : List Token} {next : List (Option Token)}
    {option : ColumnOption} (h : Reads (readOption? depth) ts next (some option))
    (hts : NoKeyword "CONSTRAINT" (heads ts next)) (column : ColumnDefinition) :
    Reads (readOptionInto? depth column) ts next
      (some ⟨column.name, option = .notNull || column.notNull⟩) := by
  refine Reads.bind_nil (reads_keyword?_false hts) (h.bind_last ?_)
  cases option <;> exact reads_pure _ next

/-- Behind the last option a column is complete. -/
theorem readsLoop_optionInto_stop (depth : Nat) (column : ColumnDefinition) :
    ReadsLoop (readOptionInto? depth) [] itemNext column column := by
  refine ReadsLoop.stop (Reads.bind_nil (reads_keyword?_false (by decide)) ?_)
  exact Reads.bind_nil (reads_option_none depth) (reads_pure none itemNext)

/-- Before its default a column is as it is behind it. -/
theorem readsLoop_default (depth : Nat) {c : Column} (h : IsPlainColumn c)
    (column : ColumnDefinition) :
    ReadsLoop (readOptionInto? (depth + 1)) (defaultTokens c) itemNext column column := by
  rw [defaultTokens]
  cases hd : c.default with
  | none => exact readsLoop_optionInto_stop _ column
  | some literal =>
    have hoption := reads_optionInto (reads_option_default depth (h.default literal hd))
      (noKeyword_heads (by decide) _ _) column
    simpa using ReadsLoop.step hoption (readsLoop_optionInto_stop _ column)

/-- The options of a plain column say whether it may be null. -/
theorem readsLoop_options (depth : Nat) {c : Column} (h : IsPlainColumn c) :
    ReadsLoop (readOptionInto? (depth + 1)) (nullTokens c ++ defaultTokens c) itemNext
      ⟨unquoted c.name, false⟩ (columnOf c) := by
  rw [nullTokens, columnOf]
  cases c.notNull with
  | false => exact readsLoop_default depth h _
  | true =>
    have hoption := reads_optionInto (reads_option_notNull (depth + 1)
      (heads (defaultTokens c) itemNext)) (noKeyword_heads (by decide) _ _) ⟨unquoted c.name, false⟩
    exact ReadsLoop.step hoption (readsLoop_default depth h _)

/-- An option or the end of a column stands behind the type of a column. -/
theorem heads_options (c : Column) :
    ∀ o ∈ heads (nullTokens c ++ defaultTokens c) itemNext, o ∈ typeNext := by
  rw [nullTokens, defaultTokens]
  cases c.notNull with
  | true => simp [heads, typeNext]
  | false =>
    cases c.default with
    | none => exact fun o ho => List.mem_append_right _ ho
    | some literal => simp [heads, typeNext]

/-- A plain column is read from its line: its name, and whether it may be null. -/
theorem reads_column (depth : Nat) {c : Column} (h : IsPlainColumn c) :
    Reads (readColumn (depth + 1)) (columnTokens c) itemNext (columnOf c) := by
  obtain ⟨text, htype⟩ := reads_type h.type
  rw [columnTokens, List.append_assoc]
  refine (reads_name c.name _).bind_cons ?_
  exact Reads.bind (htype.mono (heads_options c)).discard (readsLoop_options depth h).iterate

/-! ## Tables -/

/-- An item of a table body. -/
inductive BodyItem where
  | column (c : Column)
  | constraint (c : Constraint)

namespace BodyItem

/-- The tokens of an item. -/
def tokens : BodyItem → List Token
  | column c => columnTokens c
  | constraint c => constraintTokens c

/-- A table body with one item more. -/
def add (body : TableBody) : BodyItem → TableBody
  | column c => { body with columns := body.columns ++ [columnOf c] }
  | constraint c => { body with constraints := body.constraints ++ (constraintOf? c).toList }

/-- The items of a table in the order of its statement. -/
def ofTable (t : Table) : List BodyItem :=
  t.columns.map column ++ t.constraints.map constraint

/-- The items of a table make its body. -/
theorem foldl_add_ofTable (t : Table) :
    (ofTable t).foldl add {} = ⟨t.columns.map columnOf, t.constraints.filterMap constraintOf?⟩ := by
  have hcolumns : ∀ (cs : List Column) (body : TableBody), (cs.map column).foldl add body
      = { body with columns := body.columns ++ cs.map columnOf } := by
    intro cs
    induction cs with
    | nil => simp
    | cons c cs ih => simp [ih, add]
  -- A constraint without a key adds nothing; the others are added behind those already there.
  have hconstraints : ∀ (cs : List Constraint) (body : TableBody),
      (cs.map constraint).foldl add body
        = { body with constraints := body.constraints ++ cs.filterMap constraintOf? } := by
    intro cs
    induction cs with
    | nil => simp
    | cons c cs ih =>
      intro body
      rw [List.map_cons, List.foldl_cons, ih]
      cases hc : constraintOf? c <;> simp [add, hc]
  rw [ofTable, List.foldl_append, hcolumns, hconstraints]
  simp

/-- An item starts with a word. -/
theorem tokens_eq_cons (item : BodyItem) : ∃ w us, item.tokens = .word w false :: us := by
  cases item with
  | column c => exact ⟨_, _, rfl⟩
  | constraint c =>
    rw [tokens, constraintTokens]
    cases c.kind <;> exact ⟨_, _, rfl⟩

end BodyItem

/-- A plain column is read into a table body. -/
theorem reads_item_column (depth : Nat) {c : Column} (h : IsPlainColumn c) (body : TableBody) :
    Reads (readItem (depth + 1) body) (columnTokens c) itemNext
      (BodyItem.add body (.column c)) := by
  have hname : heads (columnTokens c) itemNext = [some (.word c.name false)] := rfl
  refine Reads.bind_nil (hname ▸ reads_constraint_none (depth + 1) h.name) ?_
  refine Reads.bind_nil (hname ▸ reads_peek? (some (.word c.name false))) ?_
  exact (reads_column depth h).map fun column => { body with columns := body.columns ++ [column] }

/-- A plain constraint is read into a table body. -/
theorem reads_item_constraint (depth : Nat) {table line : String} {c : Constraint}
    (hc : IsPlainConstraint c) (hline : c.definition table = .ok line) (body : TableBody) :
    Reads (readItem (depth + 1) body) (constraintTokens c) itemNext
      (BodyItem.add body (.constraint c)) := by
  obtain ⟨constraint, hconstraint⟩ : ∃ constraint, constraintOf? c = some constraint := by
    rw [constraintOf?]
    obtain ⟨-, ⟨hkind, -⟩ | ⟨hkind, -⟩ | ⟨hkind, r, hr, -⟩⟩ := definition_eq_ok hline
    · exact ⟨_, by rw [hkind]⟩
    · exact ⟨_, by rw [hkind]⟩
    · exact ⟨_, by rw [hkind, hr]; rfl⟩
  have hread := reads_constraint depth hc hline itemNext
  -- What has a line is read as a constraint, so the item is not tried as a column.
  rw [hconstraint] at hread
  rw [BodyItem.add, hconstraint]
  exact hread.bind_last (reads_pure _ itemNext)

/-- The items behind the first one are added to the body one after the other. -/
theorem readsLoop_items {depth : Nat} {items : List BodyItem}
    (h : ∀ item ∈ items, ∀ body,
      Reads (readItem depth body) item.tokens itemNext (BodyItem.add body item))
    (body : TableBody) :
    ReadsLoop (readNextItem? depth) (items.flatMap fun item => .symbol "," :: item.tokens)
      [some (.symbol ")")] body (items.foldl BodyItem.add body) := by
  induction items generalizing body with
  | nil =>
    refine ReadsLoop.stop (Reads.symbol?_else (by decide) ?_)
    exact Reads.bind_nil (reads_atSymbol_true ")") (reads_pure none _)
  | cons item items ih =>
    have hitem := (h item List.mem_cons_self body).mono
      (heads_flatMap_comma items BodyItem.tokens _)
    -- A comma is followed by an item; what is read where there is no comma does not matter here.
    have hstep := Reads.symbol?_then (s := ",")
      (q := (do if ← atSymbol ")" then pure none else expected .columnEnd)) (hitem.map some)
    exact ReadsLoop.step hstep (ih (fun item' h' => h item' (List.mem_cons_of_mem item h')) _)

/-- Items in parentheses are read one by one. -/
theorem reads_body {depth : Nat} {items : List BodyItem} (next : List (Option Token))
    (h : ∀ item ∈ items, ∀ body,
      Reads (readItem depth body) item.tokens itemNext (BodyItem.add body item)) :
    Reads (readBody depth)
      (.symbol "(" :: commaTokens (items.map BodyItem.tokens) ++ [.symbol ")"]) next
      (items.foldl BodyItem.add {}) := by
  cases items with
  | nil =>
    refine (reads_symbol?_true "(" _).bind_cons ?_
    exact Reads.symbol?_then (s := ")") (reads_pure (⟨[], []⟩ : TableBody) next)
  | cons item items =>
    have hfirst := (h item List.mem_cons_self {}).mono
      (heads_flatMap_comma items BodyItem.tokens [some (.symbol ")")])
    have hrest := readsLoop_items (fun item' h' => h item' (List.mem_cons_of_mem item h'))
      (BodyItem.add {} item)
    have hend : Reads (do symbol ")"; pure ((item :: items).foldl BodyItem.add {}))
        [.symbol ")"] next ((item :: items).foldl BodyItem.add {}) :=
      (reads_symbol ")" _).bind_cons (reads_pure _ next)
    -- An item starts with a word, so the body is not empty.
    have hopen : NoSymbol ")" (heads (item.tokens ++
        (items.flatMap (fun item => .symbol "," :: item.tokens) ++ [.symbol ")"])) next) := by
      obtain ⟨w, us, hw⟩ := item.tokens_eq_cons
      rw [hw]
      simp [heads, NoSymbol]
    rw [List.map_cons, commaTokens_cons, List.flatMap_map, List.cons_append, List.append_assoc]
    refine (reads_symbol?_true "(" _).bind_cons (Reads.symbol?_else hopen (Reads.bind ?_
      (Reads.bind hrest.iterate hend)))
    rw [heads_append]
    exact hfirst

/-! ## Statements -/

/-- The statement of a table. -/
def tableStatement (t : Table) : Statement :=
  .createTable [unquoted t.name] (t.columns.map columnOf) (t.constraints.filterMap constraintOf?)

/-- The statement of an index of the table `table`. -/
def indexStatement (table : String) (i : Index) : Statement :=
  .createIndex (some [unquoted i.name]) [unquoted table] (i.columns.map keyElement) i.unique

/-- There is room for an expression in a definition. -/
theorem exists_expressionDepth : ∃ depth, expressionDepth = depth + 1 :=
  ⟨_, rfl⟩

/-- The statement of a plain table is read. -/
theorem reads_tableStatement {t : Table} {text : String} (ht : IsPlainTable t)
    (htext : t.definition = .ok text) (next : List (Option Token)) :
    Reads Statement.read (tableTokens t) next (tableStatement t) := by
  obtain ⟨lines, hlines, -⟩ := table_definition_eq_ok htext
  obtain ⟨depth, hdepth⟩ := exists_expressionDepth
  have hitem : ∀ item ∈ BodyItem.ofTable t, ∀ body,
      Reads (readItem expressionDepth body) item.tokens itemNext (BodyItem.add body item) := by
    intro item hitem body
    rw [hdepth]
    rcases List.mem_append.1 hitem with hmem | hmem
    · obtain ⟨c, hc, rfl⟩ := List.mem_map.1 hmem
      exact reads_item_column depth (ht.columns c hc) body
    · obtain ⟨c, hc, rfl⟩ := List.mem_map.1 hmem
      obtain ⟨line, hline⟩ := exists_of_forall₂ hlines c hc
      exact reads_item_constraint depth (ht.constraints c hc) hline body
  -- The body is that of the table, its items in order.
  have hbody := reads_body next hitem
  rw [BodyItem.foldl_add_ofTable, BodyItem.ofTable, List.map_append, List.map_map,
    List.map_map] at hbody
  have hname := noKeyword_of_isPlainName ht.name (k := "IF") (by decide)
  have hopen : NoSymbol "." [some (.symbol "(")] := by decide
  refine Reads.keyword?_then (by decide) (Reads.keyword?_then (by decide) ?_)
  refine Reads.bind_nil (reads_keywords?_false (noKeyword_heads hname _ _)).discard ?_
  refine (reads_dotted t.name hopen).bind_cons ?_
  exact hbody.map fun body => Statement.createTable [unquoted t.name] body.columns body.constraints

/-- What stands behind `CREATE INDEX` or `CREATE UNIQUE INDEX` is read. -/
theorem reads_createIndex {table text : String} {i : Index}
    (hname : isPlainName i.name = true) (hcolumns : ∀ n ∈ i.columns, isPlainName n = true)
    (htext : i.definition table = .ok text) (next : List (Option Token)) :
    Reads (readCreateIndex expressionDepth i.unique) (.word i.name false :: .word "ON" false
      :: .word table false :: columnListTokens i.columns) next (indexStatement table i) := by
  obtain ⟨hne, -⟩ := index_definition_eq_ok htext
  have hk : ∀ k ∈ ["CONCURRENTLY", "IF", "ON"], ∀ us,
      NoKeyword k (heads (.word i.name false :: us) next) := by
    intro k hk us
    exact noKeyword_heads (noKeyword_of_isPlainName hname (by revert k; decide)) us next
  have hon : NoSymbol "." [some (.word "ON" false)] := by decide
  have hopen : NoSymbol "." [some (.symbol "(")] := by decide
  have hkey : ∀ n ∈ i.columns, Reads (readKeyElement expressionDepth) [.word n false] itemNext
      (keyElement n) := by
    obtain ⟨depth, hdepth⟩ := exists_expressionDepth
    rw [hdepth]
    exact fun n hn => reads_keyElement depth (hcolumns n hn)
  -- None of the words that may stand in front of the name is there.
  refine Reads.bind_nil (reads_keyword?_false (hk _ (by decide) _)).discard ?_
  refine Reads.bind_nil (reads_keywords?_false (hk _ (by decide) _)) ?_
  refine Reads.bind_nil (reads_keyword?_false (hk _ (by decide) _)) ?_
  refine (reads_dotted i.name hon).bind_cons ?_
  refine (reads_keyword (by decide) _).bind_cons ?_
  refine Reads.bind_nil (reads_pure _ _) ((reads_dotted table hopen).bind_cons ?_)
  exact (reads_columnList hne hkey).map fun elements =>
    Statement.createIndex (some [unquoted i.name]) [unquoted table] elements i.unique

/-- The statement of a plain index is read. -/
theorem reads_indexStatement {table text : String} {i : Index}
    (hname : isPlainName i.name = true) (hcolumns : ∀ n ∈ i.columns, isPlainName n = true)
    (htext : i.definition table = .ok text) (next : List (Option Token)) :
    Reads Statement.read (indexTokens table i) next (indexStatement table i) := by
  have hrest := reads_createIndex hname hcolumns htext next
  rw [indexTokens]
  refine Reads.keyword?_then (by decide) ?_
  cases hu : i.unique with
  | true =>
    rw [hu] at hrest
    refine Reads.keyword?_other (by decide) ?_
    exact Reads.keywords?_then (by decide) (by decide) hrest
  | false =>
    rw [hu] at hrest
    refine Reads.keyword?_other (by decide) ?_
    refine Reads.keywords?_other (by decide) ?_
    exact Reads.keyword?_then (by decide) hrest

/-! ## Scripts -/

/-- A semicolon between two statements is taken. -/
theorem reads_semicolons_true {next : List (Option Token)} (h : NoSymbol ";" next) :
    Reads readSemicolons [.symbol ";"] next true := by
  refine (ReadsLoop.step (l := []) (m := []) (b := true) ?_ (ReadsLoop.stop ?_)).iterate
  · exact Reads.symbol?_then (reads_pure _ next)
  · exact Reads.symbol?_else h (reads_pure none next)

/-- No semicolons are taken where none stands. -/
theorem reads_semicolons_false {next : List (Option Token)} (h : NoSymbol ";" next) :
    Reads readSemicolons [] next false := by
  refine (ReadsLoop.stop ?_).iterate
  exact Reads.symbol?_else h (reads_pure none next)

/-- A statement is read where a semicolon stands in front of it or is not needed. -/
theorem reads_nextStatement {s : ScriptState} {front us : List Token} {ended : Bool}
    {next : List (Option Token)} {statement : Statement}
    (hfront : ∀ next', NoSymbol ";" next' → Reads readSemicolons front next' ended)
    (hended : (ended || s.ended) = true)
    (hread : Reads Statement.read (.word "CREATE" false :: us) next statement) :
    Reads (readNextStatement? s) (front ++ .word "CREATE" false :: us) next
      (some ⟨s.statements ++ [statement], false⟩) := by
  refine Reads.bind (hfront _ (by simp [heads, NoSymbol])) ?_
  refine Reads.bind_nil (reads_peek? (some (.word "CREATE" false))) ?_
  -- A statement may stand here, so it is read and put behind the others.
  simp only [hended, if_true]
  exact hread.map fun statement => some (ScriptState.mk (s.statements ++ [statement]) false)

/-- The tokens `ts` start with `CREATE` and are read as a statement. -/
def IsStatement (ts : List Token) (statement : Statement) : Prop :=
  (∃ us, ts = .word "CREATE" false :: us) ∧ ∀ next, Reads Statement.read ts next statement

/-- Behind its last statement and semicolon a script ends. -/
theorem reads_nextStatement_none {s : ScriptState} {front : List Token} {ended : Bool}
    (hfront : Reads readSemicolons front [none] ended) :
    Reads (readNextStatement? s) front [none] none :=
  hfront.bind_last (Reads.bind_nil (reads_peek? none) (reads_pure none _))

/-- Behind a statement its semicolon is left, and a statement or the end follows that. -/
theorem readsLoop_script {items : List (List Token)} {statements : List Statement}
    (h : List.Forall₂ IsStatement items statements) (done : List Statement) :
    ReadsLoop readNextStatement? (.symbol ";" :: scriptTokens items) [none] ⟨done, false⟩
      ⟨done ++ statements, false⟩ := by
  induction h generalizing done with
  | nil =>
    -- At the end of the input the loop stops behind the last semicolon.
    have hend : NoSymbol ";" [none] := by decide
    rw [List.append_nil]
    exact ReadsLoop.stop (reads_nextStatement_none (reads_semicolons_true hend))
  | @cons ts statement items statements hts _ ih =>
    obtain ⟨⟨us, rfl⟩, hread⟩ := hts
    have hstep := reads_nextStatement (s := ⟨done, false⟩)
      (fun _ => reads_semicolons_true) rfl (hread [some (.symbol ";")])
    simpa [scriptTokens] using ReadsLoop.step hstep (ih (done ++ [statement]))

/-- Statements with semicolons behind them are read one by one. -/
theorem reads_script {items : List (List Token)} {statements : List Statement}
    (h : List.Forall₂ IsStatement items statements) :
    Reads Statement.readAll (scriptTokens items) [none] statements := by
  have hloop : ReadsLoop readNextStatement? (scriptTokens items) [none] {}
      ⟨statements, statements.isEmpty⟩ := by
    -- No semicolon is needed in front of the first statement.
    cases h with
    | nil =>
      have hend : NoSymbol ";" [none] := by decide
      exact ReadsLoop.stop (reads_nextStatement_none (reads_semicolons_false hend))
    | @cons ts statement items statements hts hrest =>
      obtain ⟨⟨us, rfl⟩, hread⟩ := hts
      have hstep := reads_nextStatement (s := {}) (fun _ => reads_semicolons_false) rfl
        (hread [some (.symbol ";")])
      simpa [scriptTokens] using ReadsLoop.step hstep (readsLoop_script hrest [statement])
  exact hloop.iterate.bind_last (reads_pure statements [none])

/-- The statements of a schema: those of all tables, then those of all indexes. -/
def schemaStatements (schema : Schema) : List Statement :=
  schema.tables.map tableStatement
    ++ schema.tables.flatMap fun t => t.indexes.map (indexStatement t.name)

/-- The script of a schema with plain names and defaults holds its statements. -/
theorem ofScript_tableDefinitions {schema : Schema} {definitions : List String}
    (hplain : ∀ t ∈ schema.tables, IsPlainTable t)
    (h : schema.tableDefinitions = .ok definitions) :
    Statement.ofScript (String.join definitions) = .ok (schemaStatements schema) := by
  obtain ⟨tables, indexes, htables, hindexes, -⟩ := tableDefinitions_eq_ok h
  have hstatements : List.Forall₂ IsStatement (schemaTokens schema) (schemaStatements schema) := by
    refine List.rel_append ?_ ?_
    · rw [List.forall₂_map_left_iff, List.forall₂_map_right_iff, List.forall₂_same]
      intro t ht
      obtain ⟨text, htext⟩ := exists_of_forall₂ htables t ht
      exact ⟨⟨_, rfl⟩, reads_tableStatement (hplain t ht) htext⟩
    · refine List.rel_flatten ?_
      rw [List.forall₂_map_left_iff, List.forall₂_map_right_iff, List.forall₂_same]
      intro t ht
      obtain ⟨texts, htexts⟩ := exists_of_forall₂ hindexes t ht
      rw [List.forall₂_map_left_iff, List.forall₂_map_right_iff, List.forall₂_same]
      intro i hi
      obtain ⟨text, htext⟩ := exists_of_forall₂ htexts i hi
      obtain ⟨hname, hcolumns⟩ := (hplain t ht).indexes i hi
      exact ⟨⟨_, rfl⟩, reads_indexStatement hname hcolumns htext⟩
  -- The script is cut into these tokens, and the whole of it is read.
  obtain ⟨located, hlocated, htokens⟩ := (scans_schema hplain h).tokens_eq trivial
  have hread := reads_script hstatements located [] htokens (by simp)
  rw [List.append_nil] at hread
  simp only [Statement.ofScript, hlocated, hread, bind, Except.bind, pure, Except.pure]

end ProtoSchema.Sql
