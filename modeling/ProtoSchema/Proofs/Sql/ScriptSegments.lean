import ProtoSchema.Proofs.Counting
import ProtoSchema.Proofs.Sql.DefinitionTokens
import ProtoSchema.Proofs.Sql.SqlReader

/-!
# The statements of a script, segment by segment

A script that creates tables and indexes, with a semicolon behind each statement, is read so: a
statement is read from the front of each segment. A word `END` behind a statement ends the script
early, and what else is left over between a statement and its semicolon is an error.

Key results:
* `SqlReader.IsLawful.read_segment` — one statement takes no more than its segment
* `SqlReader.IsScript.segments` — a whole script
-/

namespace ProtoSchema.Sql

/-- The tokens start as a statement for a table or an index does, and hold no semicolon. -/
def IsSegment (segment : List Token) : Prop :=
  StartsCreation segment ∧ .symbol ";" ∉ segment

/-- How tokens start does not depend on those behind. -/
theorem StartsCreation.append {ts : List Token} (h : StartsCreation ts) (us : List Token) :
    StartsCreation (ts ++ us) := by
  obtain ⟨more, rfl | ⟨unique, rfl⟩⟩ := h
  · exact ⟨more ++ us, .inl rfl⟩
  · exact ⟨more ++ us, .inr ⟨unique, List.append_assoc _ _ _⟩⟩

/-- What creates starts with no semicolon. -/
theorem StartsCreation.head?_ne {ts : List Token} (h : StartsCreation ts) :
    ts.head? ≠ some (.symbol ";") := by
  obtain ⟨more, rfl | ⟨unique, rfl⟩⟩ := h <;> simp [createIndexWords]

namespace SqlReader

variable {ε : Type} {reader : SqlReader ε}

/-- The statement is read from the front of the tokens `segment`, behind which a semicolon
stands. -/
def ReadFrom (reader : SqlReader ε) (segment : List Token) (statement : Statement) : Prop :=
  ∃ input rest later, input.map reader.token = segment ++ .symbol ";" :: later
    ∧ reader.read input = some (statement, rest)

/-- A statement that is read where a segment stands takes no more than the segment. -/
theorem IsLawful.read_segment (hlaw : reader.IsLawful) {input rest : List reader.Lexeme}
    {statement : Statement} {segment later : List Token}
    (hread : reader.read input = some (statement, rest)) (hsegment : IsSegment segment)
    (hinput : input.map reader.token = segment ++ .symbol ";" :: later) :
    ∃ left, .symbol ";" ∉ left ∧ rest.map reader.token = left ++ .symbol ";" :: later := by
  obtain ⟨hstarts, hnone⟩ := hsegment
  obtain ⟨taken, rfl, hspared⟩ :=
    hlaw.spares input statement rest hread (hinput ▸ hstarts.append _)
  -- The semicolon of the segment is not taken, nor is anything behind it.
  rw [List.map_append] at hinput
  obtain ⟨left, rfl⟩ := exists_append_of_notMem hinput hspared
  rw [List.append_assoc, List.append_cancel_left_eq] at hinput
  exact ⟨left, fun h => hnone (List.mem_append_right _ h), hinput⟩

/-- Behind a statement that left something in front of its semicolon, a script ends. -/
theorem IsScript.eq_nil {input : List reader.Lexeme} {statements : List Statement} {t : Token}
    {left : List Token} (h : reader.IsScript false input statements)
    (hinput : input.map reader.token = t :: left) (ht : t ≠ .symbol ";") : statements = [] := by
  cases h with
  | nil => rfl
  -- Another statement would need a semicolon in front.
  | semicolon hl _ =>
    rw [List.map_cons] at hinput
    exact absurd ((List.cons.inj hinput).1.symm.trans hl) ht
  | stop => rfl

/-- Behind a statement that left nothing in front of its semicolon, a script goes on behind the
semicolon. -/
theorem IsScript.exists_cons {input : List reader.Lexeme} {statements : List Statement}
    {ts : List Token} (h : reader.IsScript false input statements)
    (hinput : input.map reader.token = .symbol ";" :: ts) :
    ∃ rest, rest.map reader.token = ts ∧ reader.IsScript true rest statements := by
  cases h with
  | nil => cases hinput
  | semicolon _ h => exact ⟨_, (List.cons.inj hinput).2, h⟩
  | stop hl =>
    rw [(List.cons.inj hinput).1] at hl
    cases hl

/-- A script of segments is read as one statement for each segment of a front of it. -/
theorem IsScript.segments (hlaw : reader.IsLawful) {segments : List (List Token)}
    {input : List reader.Lexeme} {statements : List Statement}
    (h : reader.IsScript true input statements)
    (hsegments : ∀ s ∈ segments, IsSegment s)
    (hinput : input.map reader.token = scriptTokens segments) :
    ∃ front, front <+: segments ∧ List.Forall₂ reader.ReadFrom front statements := by
  induction segments generalizing input statements with
  | nil =>
    obtain rfl : input = [] := List.map_eq_nil_iff.1 hinput
    cases h
    exact ⟨[], List.nil_prefix, .nil⟩
  | cons segment segments ih =>
    obtain ⟨hsegment, hrest⟩ := List.forall_mem_cons.1 hsegments
    -- The first segment stands in front of its semicolon.
    have hsplit : input.map reader.token = segment ++ .symbol ";" :: scriptTokens segments := by
      rw [hinput]
      simp [scriptTokens]
    cases h with
    | nil => simp at hsplit
    | semicolon hl _ =>
      -- A segment does not start with a semicolon.
      have hhead := (hsegment.1.append (.symbol ";" :: scriptTokens segments)).head?_ne
      rw [← hsplit, List.map_cons, hl] at hhead
      exact absurd rfl hhead
    | statement hread h =>
      have hfrom : reader.ReadFrom segment _ := ⟨_, _, _, hsplit, hread⟩
      -- The reader does not pass the semicolon, so it leaves some part of the segment in front of
      -- it.
      obtain ⟨left, hnone, hleft⟩ := hlaw.read_segment hread hsegment hsplit
      cases left with
      | nil =>
        -- It took the whole segment, and the script goes on behind the semicolon.
        obtain ⟨rest, htokens, hscript⟩ := h.exists_cons hleft
        obtain ⟨front, hfront, hstatements⟩ := ih hscript hrest htokens
        exact ⟨segment :: front, (List.prefix_cons_inj segment).2 hfront, .cons hfrom hstatements⟩
      | cons t left =>
        -- It stopped inside the segment: statements stand behind semicolons, so the script ends
        -- there.
        have ht : t ≠ .symbol ";" := fun ht => hnone (ht ▸ List.mem_cons_self)
        obtain rfl := h.eq_nil hleft ht
        exact ⟨[segment], by simp, .cons hfrom .nil⟩

end SqlReader

end ProtoSchema.Sql
