import ProtoSchema.Plugin.Codec

/-!
# Field annotations

A field may carry two annotations, each an encoded message of its own: the relational one and the
validation rules. Each payload is decoded by itself.

Key results:
* `relational?_eq_some_iff` — what it takes for a relational annotation to be understood
-/

namespace ProtoSchema.Plugin

open ProtoSchema.Wire (DecodeError Message)

/-- The annotations that are understood. -/
inductive CustomOption where
  | relational
  | validation
deriving DecidableEq, Repr, Inhabited

/-- The full name of the extension field of an annotation. -/
def CustomOption.label : CustomOption → String
  | relational => "sqlc.v1.field"
  | validation => "buf.validate.field"

namespace FieldOptions

/-- The relational annotation, if there is a payload for it. -/
def decodeRelational (o : FieldOptions) : Option (Except DecodeError FieldConstraints) :=
  o.relational.map (Message.decode FieldConstraints)

/-- The validation rules, if there is a payload for them. -/
def decodeValidation (o : FieldOptions) : Option (Except DecodeError FieldRules) :=
  o.validation.map (Message.decode FieldRules)

/-- The relational annotation, if there is one and it can be decoded. -/
def relational? (o : FieldOptions) : Option FieldConstraints :=
  o.decodeRelational.bind Except.toOption

/-- The validation rules, if there are some and they can be decoded. -/
def validation? (o : FieldOptions) : Option FieldRules :=
  o.decodeValidation.bind Except.toOption

/-- The payloads that cannot be decoded, the relational one first. -/
def undecodable (o : FieldOptions) : List (CustomOption × DecodeError) :=
  (match o.decodeRelational with
    | some (.error e) => [(.relational, e)]
    | _ => [])
  ++ (match o.decodeValidation with
    | some (.error e) => [(.validation, e)]
    | _ => [])

/-- A relational annotation is understood when its payload decodes. -/
theorem relational?_eq_some_iff {o : FieldOptions} {c : FieldConstraints} :
    o.relational? = some c ↔
      ∃ payload, o.relational = some payload ∧ Message.decode FieldConstraints payload = .ok c := by
  cases h : o.relational with
  | none => simp [relational?, decodeRelational, h]
  | some payload =>
    cases hd : Message.decode FieldConstraints payload <;>
      simp [relational?, decodeRelational, h, hd, Except.toOption]

end FieldOptions

end ProtoSchema.Plugin
