import ProtoSchema.Plugin.CustomOption
import ProtoSchema.Relational.Definition
import ProtoSchema.Verification

/-!
# Errors

Everything that can go wrong between a request and its response, by cause. The wording of all
errors is in `Error.message` and the functions it calls. What is wrong with an input, an option, a
document or its verification is told by a fault. Who answers requests may report faults that are not
known here; these are in other words.

Key results:
* `Error.exists_message_eq_iff` — which texts the errors with a fault have
-/

namespace ProtoSchema

open Plugin (CustomOption)
open Wire (DecodeError)
open Relational (RenderFault)
open Sql (ScriptError)

/-- What a request lacks. -/
inductive InputFault where
  /-- A file is asked for that the request does not describe. -/
  | unknownFile
  | unnamedEnum
  | unnamedMessage
  /-- A field of an enum or message kind does not say of which type. -/
  | untypedField (field : String)
  /-- A fault in other words. -/
  | described (text : String)
deriving DecidableEq, Repr, Inhabited

/-- The text of a fault. -/
def InputFault.message : InputFault → String
  | unknownFile => "file is not part of the request"
  | unnamedEnum => "enum has no name"
  | unnamedMessage => "message has no name"
  | untypedField field => "field " ++ field ++ " has no type reference"
  | described text => text

/-- What is wrong with an option. -/
inductive OptionFault where
  | notKeyValue (segment : String)
  | emptySchemaFile
  | notTruthValue (value : String)
  /-- A fault in other words. -/
  | described (text : String)
deriving DecidableEq, Repr, Inhabited

/-- The text of a fault. -/
def OptionFault.message : OptionFault → String
  | notKeyValue segment => Text.quoted segment ++ " is not key=value"
  | emptySchemaFile => "schema_file must not be empty"
  | notTruthValue value => "verify expects true or false, got " ++ Text.quoted value
  | described text => text

/-- A kind of definition that has a name of its own in a schema. -/
inductive DefinitionKind where
  | enum
  | table
deriving DecidableEq, Repr, Inhabited

/-- The word for a kind of definition. -/
def DefinitionKind.label : DefinitionKind → String
  | enum => "enum"
  | table => "table"

/-- What went wrong. -/
inductive Error where
  | invalidInput (fault : InputFault)
  | undecodableOption (option : CustomOption) (source : DecodeError)
  | malformedReference (text : String)
  | tableNotFound (message : String)
  | duplicate (kind : DefinitionKind) (name : String)
  | undefinedEnum (name : String)
  | render (fault : RenderFault)
  | verify (fault : VerifyFault)
  | invalidOption (fault : OptionFault)
  | decode (source : DecodeError)
  /-- An output buffer is too small for an encoded message. -/
  | encode (required capacity : Nat)
  /-- Reading or writing failed, in the words of the system. -/
  | io (text : String)
  | script (source : ScriptError)
deriving DecidableEq, Repr, Inhabited

/-- The text of an error. -/
def Error.message : Error → String
  | invalidInput fault => "invalid input: " ++ fault.message
  | undecodableOption option source =>
    "failed to decode " ++ option.label ++ " annotation: " ++ source.message
  | malformedReference text =>
    "invalid references format " ++ Text.quoted text ++ ", expected \"table.column\""
  | tableNotFound message => "table not found for message " ++ message
  | duplicate kind name => "duplicate " ++ kind.label ++ " " ++ name
  | undefinedEnum name => "enum type " ++ name ++ " is not part of the generated schema"
  | render fault => "render error: " ++ fault.message
  | verify fault => "generated SQL failed verification: " ++ fault.message
  | invalidOption fault => "invalid plugin option: " ++ fault.message
  | decode source => "decode error: " ++ source.message
  | encode required capacity =>
    "encode error: failed to encode Protobuf message; insufficient buffer capacity (required: "
      ++ toString required ++ ", remaining: " ++ toString capacity ++ ")"
  | io text => "io error: " ++ text
  | script source => "sql parser error: " ++ source.message

/-- Errors with a fault are worded freely: each text behind the words for the cause is the text of
one. -/
theorem Error.exists_message_eq_iff (text : String) :
    ((∃ fault, (invalidInput fault).message = text) ↔ ∃ cause, text = "invalid input: " ++ cause)
      ∧ ((∃ fault, (invalidOption fault).message = text) ↔
        ∃ cause, text = "invalid plugin option: " ++ cause)
      ∧ ((∃ fault, (render fault).message = text) ↔ ∃ cause, text = "render error: " ++ cause)
      ∧ ((∃ fault, (verify fault).message = text) ↔
        ∃ cause, text = "generated SQL failed verification: " ++ cause) := by
  refine ⟨⟨?_, ?_⟩, ⟨?_, ?_⟩, ⟨?_, ?_⟩, ?_, ?_⟩
  case refine_1 | refine_3 | refine_5 | refine_7 =>
    rintro ⟨fault, rfl⟩
    exact ⟨_, rfl⟩
  case refine_2 | refine_4 | refine_6 | refine_8 =>
    rintro ⟨cause, rfl⟩
    exact ⟨.described cause, rfl⟩

/-- A problem that spoils one definition, with the name of that definition. -/
structure Diagnostic where
  subject : String
  error : Error
deriving DecidableEq, Repr, Inhabited

/-- The text of a diagnostic. -/
def Diagnostic.message (d : Diagnostic) : String :=
  d.subject ++ ": " ++ d.error.message

/-- A value and the problems met on the way to it. -/
structure Outcome (α : Type) where
  value : α
  diagnostics : List Diagnostic := []
deriving DecidableEq, Repr, Inhabited

namespace Outcome

variable {α : Type}

/-- Adds a problem at the end. -/
def report (o : Outcome α) (subject : String) (error : Error) : Outcome α :=
  { o with diagnostics := o.diagnostics ++ [⟨subject, error⟩] }

/-- Whether there was no problem. -/
def isClean (o : Outcome α) : Bool :=
  o.diagnostics.isEmpty

/-- An outcome with a problem is not clean. -/
@[simp] theorem isClean_report (o : Outcome α) (subject : String) (error : Error) :
    (o.report subject error).isClean = false := by
  simp [isClean, report]

end Outcome

end ProtoSchema
