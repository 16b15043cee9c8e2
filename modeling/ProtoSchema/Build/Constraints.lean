import ProtoSchema.Build.Column
import ProtoSchema.Log

/-!
# Constraints from fields

The relational annotation of a field may make its column unique, the primary key, and a foreign
key. The column that a foreign key refers to is written `table.column`.

Key results:
* `Reference.parse_eq_some_iff` — exactly two parts without dots, none of them empty, are a
  reference
-/

namespace ProtoSchema

open Plugin Relational

/-- Reads a reference `table.column`. -/
def Relational.Reference.parse (text : String) : Option Reference :=
  match text.toList.splitOn '.' with
  | [table, column] =>
    if table.isEmpty || column.isEmpty then none
    else some { table := String.ofList table, columns := [String.ofList column] }
  | _ => none

namespace FieldNode

/-- The relational annotation of a field, if it can be decoded. -/
def relational? (field : FieldNode) : Option FieldConstraints :=
  field.options.bind (·.relational?)

/-- The text of the reference of a field, if there is one. -/
def referenceText? (field : FieldNode) : Option String :=
  (field.relational?.bind (·.references)).filter (!·.isEmpty)

/-- The constraints of a field, each on its own column. -/
def constraints (field : FieldNode) : List Constraint :=
  (if field.relational?.bind (·.unique) = some true then [.unique field.name] else [])
  ++ (if field.relational?.bind (·.primary) = some true then [.primaryKey field.name] else [])
  ++ ((field.referenceText?.bind Reference.parse).map (.foreignKey field.name)).toList

/-- The problem with the reference of a field, if there is one. -/
def referenceProblem? (field : FieldNode) : Option Diagnostic :=
  field.referenceText?.bind fun text =>
    if (Reference.parse text).isSome then none
    else some ⟨field.name, .malformedReference text⟩

/-- The event of a relational annotation that cannot be decoded. -/
def undecodedEvent? (field : FieldNode) : Option Event :=
  match field.options.bind (·.decodeRelational) with
  | some (.error source) => some (.noConstraints field.name source)
  | _ => none

end FieldNode

/-- The constraints of a message, field by field. References that are not well formed are dropped
and reported. -/
def MessageNode.constraints (message : MessageNode) : Outcome (List Constraint) where
  value := message.fields.flatMap FieldNode.constraints
  diagnostics := message.fields.filterMap FieldNode.referenceProblem?

/-- The events of the relational annotations of a message that cannot be decoded. -/
def MessageNode.undecodedEvents (message : MessageNode) : List Event :=
  message.fields.filterMap FieldNode.undecodedEvent?

/-- Exactly two parts without dots, none of them empty, are a reference. -/
theorem Relational.Reference.parse_eq_some_iff {text : String} {r : Reference} :
    Reference.parse text = some r ↔
      ∃ table column, text.toList.splitOn '.' = [table, column] ∧ table ≠ [] ∧ column ≠ []
        ∧ r = { table := String.ofList table, columns := [String.ofList column] } := by
  unfold parse
  split
  · rename_i table column h
    constructor
    · intro hr
      -- Two parts were found, and neither may be empty.
      split at hr
      · simp at hr
      · rename_i hne
        simp only [Bool.or_eq_true, List.isEmpty_iff, not_or] at hne
        exact ⟨table, column, h, hne.1, hne.2, (Option.some.inj hr).symm⟩
    · rintro ⟨t, c, htc, ht, hc, rfl⟩
      rw [h] at htc
      cases htc
      simp [ht, hc]
  · rename_i h
    simp only [reduceCtorEq, false_iff]
    rintro ⟨table, column, htc, -⟩
    exact h table column htc

end ProtoSchema
