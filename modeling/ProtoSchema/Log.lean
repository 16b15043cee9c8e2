import ProtoSchema.Error
import ProtoSchema.Relational.Query

/-!
# Log events

What is worth noting while a request is answered. Events are data; how they are shown is up to the
program around the library.

Key results:
* `Logged.events_bind` — the events of a second step follow those of the first
-/

namespace ProtoSchema

open Plugin (CustomOption)
open Wire (DecodeError)
open Relational (QueryGap)

/-- How severe an event is, from the most to the least severe. -/
inductive Level where
  | error
  | warn
  | info
  | debug
  | trace
deriving DecidableEq, Repr, Inhabited

namespace Level

/-- The place of a level; a smaller one is more severe. -/
def rank : Level → Nat
  | error => 1
  | warn => 2
  | info => 3
  | debug => 4
  | trace => 5

/-- The name of a level. -/
def label : Level → String
  | error => "ERROR"
  | warn => "WARN"
  | info => "INFO"
  | debug => "DEBUG"
  | trace => "TRACE"

/-- All levels. -/
def all : List Level :=
  [error, warn, info, debug, trace]

/-- The number that a text of digits stands for; a plus sign may stand in front. -/
def number? (text : String) : Option Nat :=
  let digits := if text.toList.head? = some '+' then text.toList.tail else text.toList
  if digits.isEmpty || !digits.all Char.isDigit then none
  else some (digits.foldl (fun n c => 10 * n + (c.toNat - '0'.toNat)) 0)

/-- The level of a name, in capitals or not, or of a number. -/
def ofText? (text : String) : Option Level :=
  all.find? fun level => text.toUpper = level.label ∨ number? text = some level.rank

end Level

/-- Something that happened. -/
inductive Event where
  | ignoredOption (key : String)
  | invoked (major minor patch : Int32)
  | fileWithoutMessages (file : String)
  | processingFile (file : String)
  | skippedMapEntry (fullName : String)
  | noConstraints (field : String) (source : DecodeError)
  | problem (diagnostic : Diagnostic)
  | nothingToGenerate
  | generatingSchema (document : String)
  | schemaFailed (document : String) (error : Error)
  | generatingQueries (source document : String)
  | queriesSkipped (source : String) (error : Error)
  | queryGap (gap : QueryGap)
  | generationFailed (error : Error)
deriving DecidableEq, Repr, Inhabited

namespace Event

/-- How severe an event is. -/
def level : Event → Level
  | generationFailed .. => .error
  | ignoredOption .. | problem .. | schemaFailed .. | queriesSkipped .. | queryGap .. => .warn
  | generatingSchema .. | generatingQueries .. => .info
  | invoked .. | fileWithoutMessages .. | processingFile .. | skippedMapEntry ..
  | noConstraints .. | nothingToGenerate => .debug

/-- The text of an event. -/
def message : Event → String
  | ignoredOption .. => "ignoring unknown option"
  | invoked .. => "invoked by protoc"
  | fileWithoutMessages .. => "skip generating file because it has no messages"
  | processingFile .. => "processing file"
  | skippedMapEntry .. => "skip map entry message"
  | noConstraints .. => "no constraints from undecodable annotation"
  | problem .. => "problem in definition"
  | nothingToGenerate => "no file declares messages, nothing to generate"
  | generatingSchema .. => "generating schema"
  | schemaFailed .. => "failed to render schema"
  | generatingQueries .. => "generating queries"
  | queriesSkipped .. => "skipping queries"
  | queryGap (.noColumns ..) => "skip queries for table without columns"
  | queryGap (.noUpdate ..) => "skip update query for table without non-key columns"
  | generationFailed .. => "generation failed"

/-- What an event is about: named values. -/
def fields : Event → List (String × String)
  | ignoredOption key => [("option", key)]
  | invoked major minor patch =>
    [("major", toString major), ("minor", toString minor), ("patch", toString patch)]
  | fileWithoutMessages file | processingFile file => [("name", file)]
  | skippedMapEntry fullName => [("name", fullName)]
  | noConstraints field source =>
    [("field", field), ("annotation", CustomOption.label .relational), ("error", source.message)]
  | problem d => [("subject", d.subject), ("error", d.error.message)]
  | nothingToGenerate => []
  | generatingSchema document => [("name", document)]
  | schemaFailed document error => [("name", document), ("error", error.message)]
  | generatingQueries source document => [("source", source), ("name", document)]
  | queriesSkipped source error => [("source", source), ("error", error.message)]
  | queryGap (.noColumns table) => [("table", table)]
  | queryGap (.noUpdate table key) => [("table", table), ("primary_key", key)]
  | generationFailed error => [("error", error.message)]

/-- Whether an event is shown where `limit` is the least severe level shown. -/
def isShownAt (limit : Level) (e : Event) : Bool :=
  e.level.rank ≤ limit.rank

end Event

/-- A value and the events on the way to it. -/
structure Logged (α : Type) where
  value : α
  events : List Event := []
deriving Repr, Inhabited

namespace Logged

variable {α β : Type}

instance : Monad Logged where
  pure a := ⟨a, []⟩
  bind x f := ⟨(f x.value).value, x.events ++ (f x.value).events⟩

/-- Notes one event. -/
def note (e : Event) : Logged Unit :=
  ⟨(), [e]⟩

/-- Notes several events. -/
def noteAll (es : List Event) : Logged Unit :=
  ⟨(), es⟩

instance : LawfulMonad Logged :=
  .mk' Logged
    (fun _ => by simp [Functor.map])
    (fun _ _ => by simp [pure, bind])
    (fun _ _ _ => by simp [bind, List.append_assoc])

@[simp] theorem value_pure (a : α) : (pure a : Logged α).value = a := rfl

@[simp] theorem events_pure (a : α) : (pure a : Logged α).events = [] := rfl

@[simp] theorem value_map (f : α → β) (x : Logged α) : (f <$> x).value = f x.value := rfl

@[simp] theorem events_map (f : α → β) (x : Logged α) : (f <$> x).events = x.events := by
  simp [Functor.map]

@[simp] theorem value_bind (x : Logged α) (f : α → Logged β) :
    (x >>= f).value = (f x.value).value := rfl

/-- The events of a second step follow those of the first. -/
@[simp] theorem events_bind (x : Logged α) (f : α → Logged β) :
    (x >>= f).events = x.events ++ (f x.value).events := rfl

end Logged

end ProtoSchema
