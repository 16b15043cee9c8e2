import Mathlib.Data.List.Forall2
import ProtoSchema.Proofs.Build.Clean

/-!
# Constraints follow from fields

The constraints of a table are those of its fields, one field after the other, and each field says
in its relational annotation which ones they are: that its column is unique, that it is the primary
key, and which column it refers to. A reference that is not a table and a column is a problem
instead. A field whose annotation cannot be decoded says nothing, and the validation rules have no
part in it.

Key results:
* `IsReference.unique` — a text refers to one column
* `contributes_iff` — what a field says is what its constraints and its problem are
* `primaryKey_table` — the first field that is marked gives the key of a table
* `constraints_of_fields` — the constraints, the problems and the key of a message
-/

namespace ProtoSchema

open Plugin Relational Wire

/-! ## What fields say -/

/-- The text is a table and a column, neither of them empty or with a dot, with a dot between
them. -/
def IsReference (text table column : String) : Prop :=
  text = table ++ "." ++ column ∧ table ≠ "" ∧ column ≠ ""
    ∧ '.' ∉ table.toList ∧ '.' ∉ column.toList

/-- What follows from the reference of the column `column`, if there is one: the constraints and the
problems. -/
inductive RefersTo (column : String) :
    Option String → List Constraint → List Diagnostic → Prop
  | absent : RefersTo column none [] []
  | empty : RefersTo column (some "") [] []
  | foreignKey {text table target : String} (h : IsReference text table target) :
    RefersTo column (some text)
      [{ kind := .foreignKey, columns := [column]
         reference := some
          { table, columns := [target], onDelete := .noAction, onUpdate := .noAction } }] []
  | malformed {text : String} (hne : text ≠ "")
      (h : ∀ table target, ¬IsReference text table target) :
    RefersTo column (some text) [] [⟨column, .malformedReference text⟩]

/-- What follows from a field: the constraints and the problems. -/
inductive FieldNode.Contributes (field : FieldNode) : List Constraint → List Diagnostic → Prop
  | unannotated (h : ∀ c, ¬Relates field.options c) : Contributes field [] []
  | annotated {c : FieldConstraints} {keys : List Constraint} {problems : List Diagnostic}
      (h : Relates field.options c) (hrefers : RefersTo field.name c.references keys problems) :
    Contributes field
      ((if c.unique = some true then [{ kind := .unique, columns := [field.name] }] else [])
        ++ (if c.primary = some true then [{ kind := .primaryKey, columns := [field.name] }]
          else [])
        ++ keys)
      problems

/-- The relational annotation of a field marks it as the primary key. -/
def FieldNode.IsKey (field : FieldNode) : Prop :=
  ∃ c, Relates field.options c ∧ c.primary = some true

/-- Two fields have one name and the same relational annotation. -/
def FieldNode.RelatesAs (f g : FieldNode) : Prop :=
  f.name = g.name ∧ f.options.bind (·.relational) = g.options.bind (·.relational)

/-! ## References -/

/-- A relational annotation is a payload that can be decoded. -/
theorem relates_iff_exists_payload {options : Option FieldOptions} {c : FieldConstraints} :
    Relates options c ↔ ∃ payload, options.bind (·.relational) = some payload
      ∧ Message.decode FieldConstraints payload = .ok c := by
  cases options <;> simp [Relates]

/-- A text is read as the reference that it is. -/
theorem parse_eq_some_iff_isReference {text : String} {r : Reference} :
    Reference.parse text = some r ↔
      ∃ table column, IsReference text table column ∧ r = { table, columns := [column] } := by
  simp only [parse_eq_some_iff_append, IsReference, and_assoc]

/-- A text that is no reference is not read as one. -/
theorem parse_eq_none_iff {text : String} :
    Reference.parse text = none ↔ ∀ table column, ¬IsReference text table column := by
  rw [Option.eq_none_iff_forall_ne_some]
  simp only [ne_eq, parse_eq_some_iff_isReference]
  constructor
  · intro h table column hreference
    exact h _ ⟨table, column, hreference, rfl⟩
  · rintro h r ⟨table, column, hreference, -⟩
    exact h table column hreference

/-- A text refers to no more than one column. -/
theorem IsReference.unique {text table column table' column' : String}
    (h : IsReference text table column) (h' : IsReference text table' column') :
    table = table' ∧ column = column' := by
  have hparse := parse_eq_some_iff_isReference.2 ⟨table, column, h, rfl⟩
  have hparse' := parse_eq_some_iff_isReference.2 ⟨table', column', h', rfl⟩
  simpa using hparse.symm.trans hparse'

/-- A reference has a dot at least. -/
theorem IsReference.ne_empty {text table column : String} (h : IsReference text table column) :
    text ≠ "" := by
  obtain ⟨rfl, htable, -⟩ := h
  simp [htable]

/-- What follows from a reference is a foreign key or a problem. -/
theorem refersTo_iff {column : String} {references : Option String} {keys : List Constraint}
    {problems : List Diagnostic} : RefersTo column references keys problems ↔
      let text? := references.filter (!·.isEmpty)
      keys = ((text?.bind Reference.parse).map (.foreignKey column)).toList
        ∧ problems = (text?.bind fun text =>
          if (Reference.parse text).isSome then none
          else some ⟨column, .malformedReference text⟩).toList := by
  -- There is one rule for each way in which the text is read.
  constructor
  · rintro (_ | _ | hreference | ⟨hne, hmalformed⟩)
    · exact ⟨rfl, rfl⟩
    · exact ⟨rfl, rfl⟩
    · have hparse := parse_eq_some_iff_isReference.2 ⟨_, _, hreference, rfl⟩
      simp [Option.filter, hreference.ne_empty, hparse, Constraint.foreignKey]
    · simp [Option.filter, hne, parse_eq_none_iff.2 hmalformed]
  · rintro ⟨rfl, rfl⟩
    cases references with
    | none => exact .absent
    | some text =>
      by_cases hne : text = ""
      · subst hne
        exact .empty
      · cases hparse : Reference.parse text with
        | none =>
          have hmalformed : RefersTo column (some text) [] [⟨column, .malformedReference text⟩] :=
            .malformed hne (parse_eq_none_iff.1 hparse)
          simpa [Option.filter, hne, hparse] using hmalformed
        | some r =>
          obtain ⟨table, target, hreference, rfl⟩ := parse_eq_some_iff_isReference.1 hparse
          have hkey : RefersTo column (some text)
              [.foreignKey column { table, columns := [target] }] [] :=
            .foreignKey hreference
          simpa [Option.filter, hne, hparse, Constraint.foreignKey] using hkey

/-! ## Fields -/

namespace FieldNode

variable {field : FieldNode}

theorem relational?_eq_some_iff {c : FieldConstraints} :
    field.relational? = some c ↔ Relates field.options c :=
  relates_iff.symm

theorem relational?_eq_none_iff :
    field.relational? = none ↔ ∀ c, ¬Relates field.options c := by
  simp only [Option.eq_none_iff_forall_ne_some, ne_eq, relational?_eq_some_iff]

/-- What follows from a field is its constraints and the problem with its reference. -/
theorem contributes_iff {cs : List Constraint} {ds : List Diagnostic} :
    field.Contributes cs ds ↔ cs = field.constraints ∧ ds = field.referenceProblem?.toList := by
  cases h : field.relational? with
  | none =>
    have hnone := relational?_eq_none_iff.1 h
    -- Without an annotation there is neither a constraint nor a reference.
    have htext : field.referenceText? = none := by rw [referenceText?, h]; rfl
    simp only [constraints, referenceProblem?, htext, h]
    constructor
    · rintro (- | ⟨hrelates, -⟩)
      · exact ⟨rfl, rfl⟩
      · exact absurd hrelates (hnone _)
    · rintro ⟨rfl, rfl⟩
      exact .unannotated hnone
  | some c =>
    have hrelates := relational?_eq_some_iff.1 h
    simp only [constraints, referenceProblem?, referenceText?, h, Option.bind_some]
    constructor
    · rintro (hnone | ⟨hrelates', hrefers⟩)
      · exact absurd hrelates (hnone c)
      · -- The payload decodes to one value, so both annotations are the same.
        obtain rfl := Option.some.inj ((relational?_eq_some_iff.2 hrelates').symm.trans h)
        obtain ⟨rfl, rfl⟩ := refersTo_iff.1 hrefers
        exact ⟨rfl, rfl⟩
    · rintro ⟨rfl, rfl⟩
      exact .annotated hrelates (refersTo_iff.2 ⟨rfl, rfl⟩)

/-- A field is a key when its annotation marks it as primary. -/
theorem isKey_iff : field.IsKey ↔ field.relational?.bind (·.primary) = some true := by
  simp only [IsKey, Option.bind_eq_some_iff, relational?_eq_some_iff]

instance : DecidablePred IsKey :=
  fun _ => decidable_of_iff _ isKey_iff.symm

/-- Fields with one relational annotation have the same constraints and problems. -/
theorem RelatesAs.constraints_eq {f g : FieldNode} (h : f.RelatesAs g) :
    f.constraints = g.constraints ∧ f.referenceProblem? = g.referenceProblem? := by
  obtain ⟨hname, hpayload⟩ := h
  have hrelates : ∀ c, Relates f.options c ↔ Relates g.options c := by
    intro c
    simp only [relates_iff_exists_payload, hpayload]
  -- The annotations are the same value, which is all that the constraints are made from.
  have hrelational : f.relational? = g.relational? :=
    Option.ext fun c => by rw [relational?_eq_some_iff, relational?_eq_some_iff, hrelates]
  simp only [constraints, referenceProblem?, referenceText?, hname, hrelational, and_self]

end FieldNode

/-! ## Messages -/

/-- What follows from the fields, one after the other, is the constraints of the fields and the
problems with their references. -/
theorem forall₂_contributes_iff {fields : List FieldNode}
    {parts : List (List Constraint × List Diagnostic)} :
    List.Forall₂ (fun field part => field.Contributes part.1 part.2) fields parts ↔
      parts = fields.map fun field => (field.constraints, field.referenceProblem?.toList) := by
  induction fields generalizing parts with
  | nil => simp
  | cons field fields ih =>
    -- What follows from the first field is determined, so the first part is.
    have hpart : ∀ part : List Constraint × List Diagnostic, field.Contributes part.1 part.2 ↔
        part = (field.constraints, field.referenceProblem?.toList) := by
      intro part
      rw [FieldNode.contributes_iff, Prod.ext_iff]
    rw [List.forall₂_cons_left_iff, List.map_cons]
    simp only [hpart, ih]
    constructor
    · rintro ⟨part, rest, rfl, rfl, rfl⟩
      rfl
    · rintro rfl
      exact ⟨_, _, rfl, rfl, rfl⟩

/-- Fields with the same relational annotations have the same constraints and problems. -/
theorem constraints_eq_of_forall₂ {fs gs : List FieldNode}
    (h : List.Forall₂ FieldNode.RelatesAs fs gs) :
    fs.flatMap FieldNode.constraints = gs.flatMap FieldNode.constraints
      ∧ fs.filterMap FieldNode.referenceProblem? = gs.filterMap FieldNode.referenceProblem? := by
  induction h with
  | nil => exact ⟨rfl, rfl⟩
  | cons hfield _ ih =>
    obtain ⟨hconstraints, hproblem⟩ := hfield.constraints_eq
    obtain ⟨hrest, hproblems⟩ := ih
    rw [List.flatMap_cons, List.flatMap_cons, hconstraints, hrest, List.filterMap_cons,
      List.filterMap_cons, hproblem, hproblems]
    exact ⟨rfl, rfl⟩

/-- The key of a table is the column of the first field that is marked. -/
theorem primaryKey_table (pool : Pool) (message : MessageNode) :
    (pool.table message).value.primaryKey
      = ((message.fields.find? (·.IsKey)).map (·.name)).getD "id" := by
  have hkeys : (fun field : FieldNode => decide field.IsKey)
      = fun field => decide (field.relational?.bind (·.primary) = some true) :=
    funext fun _ => decide_eq_decide.2 FieldNode.isKey_iff
  -- There is a primary key for each field that is marked, so the first is that of the first field.
  obtain ⟨-, hprimary, -⟩ := filter_kind_constraints message.fields
  have hcolumns : (pool.table message).value.columnsOf .primaryKey
      = (message.fields.filter (·.IsKey)).map ([·.name]) := by
    rw [Table.columnsOf, hkeys]
    exact (congrArg _ hprimary).trans (by simp [Constraint.primaryKey])
  rw [Table.primaryKey, hcolumns, List.findSome?_map, ← List.head?_filter]
  cases message.fields.filter (·.IsKey) <;> rfl

/-- Constraints and problems follow from the fields. They are those of the fields, one field after
the other, where a field whose relational annotation is understood has a constraint for each mark,
then a foreign key for the column that its reference is, and a problem when its reference is no
column; and no text is a reference to two columns. Nothing but the names and the relational
annotations of the fields matters. The key of the table is the column of the first field that is
marked, and `id` without one. -/
theorem constraints_of_fields (message : MessageNode) :
    (∀ constraints diagnostics, message.constraints = ⟨constraints, diagnostics⟩ ↔
      ∃ parts : List (List Constraint × List Diagnostic),
        List.Forall₂ (fun field part => field.Contributes part.1 part.2) message.fields parts
          ∧ constraints = parts.flatMap Prod.fst ∧ diagnostics = parts.flatMap Prod.snd)
      ∧ (∀ text table column table' column', IsReference text table column →
        IsReference text table' column' → table = table' ∧ column = column')
      ∧ (∀ other : MessageNode, List.Forall₂ FieldNode.RelatesAs message.fields other.fields →
        other.constraints = message.constraints)
      ∧ ∀ pool : Pool,
        let table := (pool.table message).value
        table.constraints = message.constraints.value
          ∧ (∀ before field after, message.fields = before ++ field :: after →
            (∀ f ∈ before, ¬f.IsKey) → field.IsKey → table.primaryKey = field.name)
          ∧ ((∀ field ∈ message.fields, ¬field.IsKey) → table.primaryKey = "id") := by
  refine ⟨?_, fun _ _ _ _ _ h h' => h.unique h', ?_, fun pool => ⟨rfl, ?_, ?_⟩⟩
  · intro constraints diagnostics
    -- A field has at most one problem, so flattening them filters the fields.
    have hproblems : message.fields.flatMap (·.referenceProblem?.toList)
        = message.fields.filterMap (·.referenceProblem?) :=
      flatMap_toList _ _
    simp only [forall₂_contributes_iff, exists_eq_left, List.flatMap_map, hproblems,
      MessageNode.constraints, Outcome.mk.injEq]
    exact and_congr eq_comm eq_comm
  · intro other h
    obtain ⟨hconstraints, hproblems⟩ := constraints_eq_of_forall₂ h
    rw [MessageNode.constraints, MessageNode.constraints, hconstraints, hproblems]
  · intro before field after hfields hbefore hkey
    -- The first key field is the primary key of the table.
    have hfind : message.fields.find? (·.IsKey) = some field :=
      List.find?_eq_some_iff_append.2
        ⟨decide_eq_true hkey, before, after, hfields, fun f hf => by simpa using hbefore f hf⟩
    rw [primaryKey_table, hfind]
    rfl
  · intro hfields
    have hfind : message.fields.find? (·.IsKey) = none := by
      simpa [List.find?_eq_none] using hfields
    rw [primaryKey_table, hfind]
    rfl

/-- The key has two marks, one reference is read and one is not, and a payload is not decoded. -/
example :
    let field (name : String) (relational : List UInt8) : FieldNode :=
      { name, kind := some .int64, repeated := false, typeName := none
        options := some { relational } }
    let annotated (name : String) (c : FieldConstraints) := field name (Message.encode c)
    let message : MessageNode := {
      name := "Loan", fullName := ".Loan", file := ⟨0⟩, nestedMessages := [], nestedEnums := []
      mapEntry := false
      fields := [annotated "book" { references := some "Book.id" }, field "note" [255],
        annotated "id" { unique := some true, primary := some true },
        annotated "reader" { references := some "Reader..id" }] }
    message.constraints = {
      value := [.foreignKey "book" { table := "Book", columns := ["id"] }, .unique "id",
        .primaryKey "id"]
      diagnostics := [⟨"reader", .malformedReference "Reader..id"⟩] } := by
  decide +kernel

end ProtoSchema
