import ProtoSchema.Log

/-!
# Options

The parameter of a request is a list of settings `key=value` between commas, with blanks around any
part. The last setting of a key counts, settings of other keys are noted and ignored, and the first
setting that is wrong is reported.

Key results:
* `Options.ofSegments_append` — settings are applied from left to right
* `Options.parse_none` — without a parameter the defaults hold
-/

namespace ProtoSchema

/-- How documents are to be generated. -/
structure Options where
  /-- The name of the schema document. -/
  schemaFile : String := "schema.sql"
  /-- Whether the schema document is read back and compared. -/
  verify : Bool := false
deriving DecidableEq, Repr, Inhabited

/-- One setting of a parameter. -/
inductive Setting where
  | schemaFile (name : String)
  | verify (value : Bool)
  | unknown (key : String)
deriving DecidableEq, Repr, Inhabited

namespace Setting

/-- The key of a segment, which ends before the first equals sign. -/
def key (segment : List Char) : List Char :=
  Text.trim (segment.takeWhile (· ≠ '='))

/-- The value of a segment, behind the first equals sign. -/
def value (segment : List Char) : List Char :=
  (segment.dropWhile (· ≠ '=')).tail

/-- The truth value that a text stands for. -/
def truthValue? (text : List Char) : Option Bool :=
  if text = "true".toList then some true
  else if text = "false".toList then some false
  else none

/-- The setting of a segment. -/
def ofSegment (segment : List Char) : Except OptionFault Setting :=
  if !segment.contains '=' then .error (.notKeyValue (String.ofList segment))
  else if key segment = "schema_file".toList then
    -- Blanks around a name do not belong to it, and blanks alone are no name.
    let name := Text.trim (value segment)
    if name.isEmpty then .error .emptySchemaFile else .ok (.schemaFile (String.ofList name))
  else if key segment = "verify".toList then
    match truthValue? (Text.trim (value segment)) with
    | some b => .ok (.verify b)
    | none => .error (.notTruthValue (String.ofList (value segment)))
  else .ok (.unknown (String.ofList (key segment)))

/-- The event that a setting gives rise to. -/
def events : Setting → List Event
  | unknown key => [.ignoredOption key]
  | _ => []

end Setting

namespace Options

/-- The options with a setting applied. -/
def apply (o : Options) : Setting → Options
  | .schemaFile name => { o with schemaFile := name }
  | .verify value => { o with verify := value }
  | .unknown _ => o

/-- The segments of a parameter: what stands between commas, trimmed, without blank ones. -/
def segments (parameter : List Char) : List (List Char) :=
  ((parameter.splitOn ',').map Text.trim).filter (!·.isEmpty)

/-- Applies settings from left to right, up to the first that is wrong. -/
def ofSegments : Options → List (List Char) → Logged (Except OptionFault Options)
  | o, [] => pure (.ok o)
  | o, segment :: rest =>
    match Setting.ofSegment segment with
    | .error fault => pure (.error fault)
    | .ok setting => do
      Logged.noteAll setting.events
      ofSegments (o.apply setting) rest

/-- The options of a request with a parameter or none. -/
def parse (parameter : Option String) : Logged (Except OptionFault Options) :=
  ofSegments {} (segments (parameter.getD "").toList)

/-- Settings are applied from left to right. -/
theorem ofSegments_append (o : Options) (ss ts : List (List Char)) :
    (ofSegments o (ss ++ ts)).value
      = match (ofSegments o ss).value with
        | .error fault => .error fault
        | .ok o' => (ofSegments o' ts).value := by
  induction ss generalizing o with
  | nil => rfl
  | cons s ss ih =>
    simp only [List.cons_append, ofSegments]
    -- The first wrong segment ends the reading, on either side of the join.
    cases Setting.ofSegment s with
    | error fault => rfl
    | ok setting => simpa using ih (o.apply setting)

/-- Without a parameter the defaults hold. -/
theorem parse_none : (parse none).value = .ok {} := rfl

end Options

end ProtoSchema
