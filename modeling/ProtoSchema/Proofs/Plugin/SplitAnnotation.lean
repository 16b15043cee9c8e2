import ProtoSchema.Proofs.Build.Fields
import ProtoSchema.Proofs.Wire.Merging

/-!
# Annotations in several entries

An annotation is a message, so its settings may come in several entries of a field's options, of
which the later ones are to be merged into the earlier ones. Since a payload is kept as bytes, the
last entry replaces the others: settings of an earlier entry are lost unless a later one has them.

Key results:
* `merged_fieldConstraints`, `merged_fieldRules` — decoding merges an annotation into another one
* `decode_entries` — of the entries of an annotation the last one stays
* `coveredBy_of_actsAs`, `actsAs_of_coveredBy` — what is lost shows, and nothing else does
* `actsAs_iff_of_relational`, `actsAs_iff_of_validation` — when an annotation acts like a merged one
* `split_annotation_actsAs_iff` — when an annotation may be given in two entries
-/

namespace ProtoSchema.Plugin

open Wire Relational

/-! ## Merging annotations -/

/-- The annotation with the settings of `b` in place of its own; other settings remain. -/
def FieldConstraints.mergedWith (a b : FieldConstraints) : FieldConstraints where
  defaultValue := b.defaultValue.or a.defaultValue
  primary := b.primary.or a.primary
  unique := b.unique.or a.unique
  references := b.references.or a.references

/-- The rules with those of `b` in place of their own; other rules remain. -/
def StringRules.mergedWith (a b : StringRules) : StringRules where
  uuid := b.uuid.or a.uuid

/-- The rules with those of `b` in place of their own; other rules remain, also among the rules of
text fields. -/
def FieldRules.mergedWith (a b : FieldRules) : FieldRules where
  string := b.string.elim a.string fun rules => some ((a.string.getD {}).mergedWith rules)
  required := b.required.or a.required

/-- A payload is not longer than the records that it is one of. -/
theorem length_payload_le {rs : List Record} {number : Nat} {payload : List UInt8}
    (h : .bytes number payload ∈ rs) : payload.length ≤ (Record.encodeAll rs).length := by
  induction rs with
  | nil => cases h
  | cons r rs ih =>
    rw [Record.encodeAll, List.length_append]
    -- The record of the payload holds it with a key and a length.
    rcases List.mem_cons.1 h with rfl | h
    · simp only [Record.encode, List.length_append]
      omega
    · have hrest := ih h
      omega

/-- A text of an annotation is read back where the annotation is not too long. -/
theorem isReadBack_of_mem_records {m : FieldConstraints} {number : Nat} {s : String}
    (hsize : (Message.encode m).length < UInt64.size)
    (h : Scalar.text.record number s ∈ Message.records m) : Scalar.text.IsReadBack s :=
  isReadBack_text (Nat.lt_of_le_of_lt (length_payload_le h) hsize)

/-- The bytes of a relational annotation are merged into another one. -/
theorem merged_fieldConstraints (depth : Nat) (s m : FieldConstraints)
    (hsize : (Message.encode m).length < UInt64.size) :
    MergedAt depth s (Message.encode m) (s.mergedWith m) := by
  -- The texts are shorter than the annotation, so that they are read back.
  have hdefault : ∀ v ∈ m.defaultValue, Scalar.text.IsReadBack v := by
    intro v hv
    have hmem : Scalar.text.record 1 v ∈ Message.records m := by
      simp_all [Message.records, Scalar.records]
    exact isReadBack_of_mem_records hsize hmem
  have hreferences : ∀ v ∈ m.references, Scalar.text.IsReadBack v := by
    intro v hv
    have hmem : Scalar.text.record 4 v ∈ Message.records m := by
      simp_all [Message.records, Scalar.records]
    exact isReadBack_of_mem_records hsize hmem
  have hencode : Message.encode m = Record.encodeAll (Scalar.text.records 1 m.defaultValue)
      ++ Record.encodeAll (Scalar.bool.records 2 m.primary)
      ++ Record.encodeAll (Scalar.bool.records 3 m.unique)
      ++ Record.encodeAll (Scalar.text.records 4 m.references) := by
    simp [Message.encode, Message.records]
  -- The four fields are merged one after the other.
  have h₁ := merged_records depth s 1 .text m.defaultValue (by decide) (by decide) rfl hdefault
  have h₂ := h₁.append_records 2 .bool m.primary (by decide) (by decide) rfl
    fun v _ => isReadBack_bool v
  have h₃ := h₂.append_records 3 .bool m.unique (by decide) (by decide) rfl
    fun v _ => isReadBack_bool v
  have h₄ := h₃.append_records 4 .text m.references (by decide) (by decide) rfl hreferences
  rw [hencode]
  refine h₄.of_eq ?_
  obtain ⟨defaultValue, primary, unique, references⟩ := m
  cases defaultValue <;> cases primary <;> cases unique <;> cases references <;> rfl

/-- The bytes of rules for text fields are merged into others. -/
theorem merged_stringRules (depth : Nat) (s m : StringRules) :
    MergedAt depth s (Message.encode m) (s.mergedWith m) := by
  have h := merged_records depth s 22 .bool m.uuid (by decide) (by decide) rfl
    fun v _ => isReadBack_bool v
  refine h.of_eq ?_
  obtain ⟨uuid⟩ := m
  cases uuid <;> rfl

/-- Rules for text fields have a few bytes. -/
theorem length_encode_stringRules (m : StringRules) :
    (Message.encode m).length < UInt64.size := by
  obtain ⟨uuid⟩ := m
  rcases uuid with _ | _ | _ <;> decide

/-- The bytes of validation rules are merged into others. -/
theorem merged_fieldRules (depth : Nat) (s m : FieldRules) :
    MergedAt (depth + 1) s (Message.encode m) (s.mergedWith m) := by
  -- The rules for text fields are a message of their own, which is merged.
  have hstring : MergedAt (depth + 1) s (Record.encodeAll (embeddedRecords 14 m.string))
      { s with
        string := m.string.elim s.string fun r => some ((s.string.getD {}).mergedWith r) } := by
    cases hm : m.string with
    | none => exact .nil s
    | some r =>
      have hrules := merged_stringRules depth (s.string.getD {}) r
      have h : MergedAt (depth + 1) s (Record.message 14 (Message.records r)).encode _ :=
        merged_embedded (by decide) (by decide) rfl (length_encode_stringRules r) hrules
      have hencode : Record.encodeAll (embeddedRecords 14 (some r))
          = (Record.message 14 (Message.records r)).encode := by
        simp [embeddedRecords, Record.encodeAll]
      rw [hencode]
      exact h
  -- The mark follows in a record of its own.
  have hrequired := hstring.append_records 25 .bool m.required (by decide) (by decide) rfl
    fun v _ => isReadBack_bool v
  have hencode : Message.encode m = Record.encodeAll (embeddedRecords 14 m.string)
      ++ Record.encodeAll (Scalar.bool.records 25 m.required) := by
    simp [Message.encode, Message.records]
  rw [hencode]
  refine hrequired.of_eq ?_
  obtain ⟨string, required⟩ := m
  cases required <;> rfl

/-- Merging into an annotation without settings changes nothing. -/
theorem empty_mergedWith_fieldConstraints (m : FieldConstraints) :
    ({} : FieldConstraints).mergedWith m = m := by
  obtain ⟨defaultValue, primary, unique, references⟩ := m
  simp [FieldConstraints.mergedWith]

/-- Merging into rules that say nothing changes nothing. -/
theorem empty_mergedWith_fieldRules (m : FieldRules) : ({} : FieldRules).mergedWith m = m := by
  obtain ⟨string, required⟩ := m
  cases string <;> simp [FieldRules.mergedWith, StringRules.mergedWith]

/-- An annotation and what another one adds to it are decoded as the merged annotation. -/
theorem decode_append_fieldConstraints {a b : FieldConstraints}
    (ha : (Message.encode a).length < UInt64.size) (hb : (Message.encode b).length < UInt64.size) :
    Message.decode FieldConstraints (Message.encode a ++ Message.encode b)
      = .ok (a.mergedWith b) := by
  -- The first payload is merged into nothing, the second one into the result.
  have hfirst := merged_fieldConstraints Message.depthLimit {} a ha
  rw [empty_mergedWith_fieldConstraints] at hfirst
  exact decode_of_merged (hfirst.append (merged_fieldConstraints _ a b hb))

/-- Rules and what others add to them are decoded as the merged rules. -/
theorem decode_append_fieldRules (a b : FieldRules) :
    Message.decode FieldRules (Message.encode a ++ Message.encode b) = .ok (a.mergedWith b) := by
  have hfirst := merged_fieldRules 99 {} a
  rw [empty_mergedWith_fieldRules] at hfirst
  exact decode_of_merged (hfirst.append (merged_fieldRules 99 a b))

/-! ## Entries of field options -/

namespace CustomOption

/-- The number of the extension field of an annotation. -/
def number : CustomOption → Nat
  | relational => 50001
  | validation => 1159

/-- An entry of field options with a payload of an annotation. -/
def entry (option : CustomOption) (payload : List UInt8) : List UInt8 :=
  (Record.bytes option.number payload).encode

/-- The options with another payload of an annotation. -/
def put (option : CustomOption) (payload : List UInt8) (o : FieldOptions) : FieldOptions :=
  match option with
  | relational => { o with relational := some payload }
  | validation => { o with validation := some payload }

/-- An entry replaces the payload that was there before. -/
theorem merged_entry (option : CustomOption) (depth : Nat) (o : FieldOptions)
    {payload : List UInt8} (hsize : payload.length < UInt64.size) :
    MergedAt depth o (option.entry payload) (option.put payload o) := by
  have hvalue : ∀ v ∈ some payload, Scalar.bytes.IsReadBack v := by
    rintro v ⟨⟩
    exact isReadBack_bytes hsize
  have hentry : Record.encodeAll (Scalar.bytes.records option.number (some payload))
      = option.entry payload := List.append_nil _
  rw [← hentry]
  cases option with
  | relational =>
    exact merged_records depth o 50001 .bytes (some payload) (by decide) (by decide) rfl hvalue
  | validation =>
    exact merged_records depth o 1159 .bytes (some payload) (by decide) (by decide) rfl hvalue

end CustomOption

/-- Entries are put into the options one after the other, so that of each annotation the payload of
the last entry stays. -/
theorem decode_entries (entries : List (CustomOption × List UInt8))
    (hsize : ∀ e ∈ entries, e.2.length < UInt64.size) :
    Message.decode FieldOptions (entries.flatMap fun e => e.1.entry e.2)
      = .ok (entries.foldl (fun o e => e.1.put e.2 o) {}) := by
  -- The options that entries are put into may be any, for the induction.
  have hmerged : ∀ o : FieldOptions, MergedAt Message.depthLimit o
      (entries.flatMap fun e => e.1.entry e.2) (entries.foldl (fun o e => e.1.put e.2 o) o) := by
    induction entries with
    | nil => exact .nil
    | cons e entries ih =>
      intro o
      have hfirst := e.1.merged_entry Message.depthLimit o (hsize e List.mem_cons_self)
      exact hfirst.append (ih (fun e' he' => hsize e' (List.mem_cons_of_mem e he')) _)
  exact decode_of_merged (hmerged {})

/-! ## What an annotation does -/

/-- A field with given options. -/
def FieldOptions.onField (o : FieldOptions) (field : FieldNode) : FieldNode :=
  { field with options := some o }

/-- Two options act alike: on every column, and on the constraints of every message that has a
field with them. -/
def FieldOptions.ActsAs (o o' : FieldOptions) : Prop :=
  (∀ column : Column, o.annotate column = o'.annotate column)
    ∧ ∀ (message : MessageNode) (before after : List FieldNode) (field : FieldNode),
      { message with fields := before ++ o.onField field :: after }.constraints
        = { message with fields := before ++ o'.onField field :: after }.constraints

/-- Every setting of `a` that does something is set by `b` too, to whatever value. A default or a
reference that is empty does nothing, nor does a mark that is not true. -/
structure FieldConstraints.CoveredBy (a b : FieldConstraints) : Prop where
  defaultValue : ∀ v ∈ a.defaultValue, v ≠ "" → b.defaultValue.isSome
  primary : a.primary = some true → b.primary.isSome
  unique : a.unique = some true → b.unique.isSome
  references : ∀ v ∈ a.references, v ≠ "" → b.references.isSome

/-- The rule that a text is a UUID. -/
def FieldRules.uuid (rules : FieldRules) : Option Bool :=
  rules.string.bind (·.uuid)

/-- Every rule of `a` that does something is set by `b` too, to whatever value. -/
structure FieldRules.CoveredBy (a b : FieldRules) : Prop where
  uuid : a.uuid = some true → b.uuid.isSome
  required : a.required = some true → b.required.isSome

/-- A text that is put in front of another one does the same, exactly when it covers it: an empty
text does nothing. -/
theorem filter_or_eq_iff_covered {x y : Option String} :
    (y.or x).filter (!·.isEmpty) = y.filter (!·.isEmpty) ↔ ∀ v ∈ x, v ≠ "" → y.isSome := by
  cases y with
  | some v => simp
  | none => cases x <;> simp

/-- A text is lost unless it is covered, so it is enough to see whether there is one. -/
theorem filter_or_eq_none_iff_covered {x y : Option String}
    (h : (y.or x).filter (!·.isEmpty) = none ↔ y.filter (!·.isEmpty) = none) :
    ∀ v ∈ x, v ≠ "" → y.isSome := by
  cases y with
  | some v => simp
  | none => simpa using h

/-- A mark that is put in front of another one does the same, exactly when it covers it. -/
theorem or_eq_true_iff_covered {x y : Option Bool} :
    (y.or x = some true ↔ y = some true) ↔ (x = some true → y.isSome) := by
  cases y <;> simp

namespace FieldOptions

variable {o o' : FieldOptions}

/-- What options do to constraints is seen on a single field. -/
theorem actsAs_iff : o.ActsAs o' ↔ (∀ column : Column, o.annotate column = o'.annotate column)
    ∧ ∀ field : FieldNode, (o.onField field).constraints = (o'.onField field).constraints
      ∧ (o.onField field).referenceProblem? = (o'.onField field).referenceProblem? := by
  apply and_congr_right
  intro _
  constructor
  · -- A message with this field alone has the constraints of the field.
    intro h field
    have hmessage := h default [] [] field
    simp only [MessageNode.constraints, List.nil_append, Outcome.mk.injEq] at hmessage
    obtain ⟨hvalue, hdiagnostics⟩ := hmessage
    refine ⟨by simpa using hvalue, ?_⟩
    have hhead := congrArg List.head? hdiagnostics
    simpa [List.head?_filterMap] using hhead
  · intro h message before after field
    obtain ⟨hvalue, hproblem⟩ := h field
    simp [MessageNode.constraints, hvalue, hproblem, List.filterMap_cons]

/-- Fields of one name with the same constraints have the same marks. With the same problem, too,
both refer to something or neither does. -/
theorem marks_of_constraints_eq {f f' : FieldNode} (hname : f.name = f'.name)
    (hvalue : f.constraints = f'.constraints)
    (hproblem : f.referenceProblem? = f'.referenceProblem?) :
    (f.relational?.bind (·.primary) = some true ↔ f'.relational?.bind (·.primary) = some true)
      ∧ (f.relational?.bind (·.unique) = some true ↔ f'.relational?.bind (·.unique) = some true)
      ∧ (f.referenceText? = none ↔ f'.referenceText? = none) := by
  -- Marks are told by the constraints of the field, a reference by its problem as well.
  refine ⟨?_, ?_, ?_⟩
  · rw [← FieldNode.primaryKey_mem_constraints_iff, ← FieldNode.primaryKey_mem_constraints_iff,
      hname, hvalue]
  · rw [← FieldNode.unique_mem_constraints_iff, ← FieldNode.unique_mem_constraints_iff, hname,
      hvalue]
  · rw [FieldNode.referenceText?_eq_none_iff, FieldNode.referenceText?_eq_none_iff, hname, hvalue,
      hproblem]

section

variable {a b : FieldConstraints} (hb : o.relational? = some b)
  (hmerged : o'.relational? = some (a.mergedWith b))
include hb hmerged

/-- A setting that is lost shows on a column, or on any field. -/
theorem coveredBy_of_actsAs (h : o.ActsAs o') : a.CoveredBy b := by
  obtain ⟨hcolumn, hfield⟩ := actsAs_iff.1 h
  -- Any field and any column show it.
  obtain ⟨hvalue, hproblem⟩ := hfield default
  have hname : (o.onField default).name = (o'.onField default).name := rfl
  obtain ⟨hprimary, hunique, htext⟩ := marks_of_constraints_eq hname hvalue hproblem
  have hfirst : (o.onField default).relational? = some b := hb
  have hsecond : (o'.onField default).relational? = some (a.mergedWith b) := hmerged
  rw [hfirst, hsecond] at hprimary hunique
  rw [FieldNode.referenceText?, FieldNode.referenceText?, hfirst, hsecond] at htext
  have hdefault := congrArg (·.value.default) (hcolumn default)
  simp only [annotate, Column.annotated, hb, hmerged] at hdefault
  exact {
    defaultValue := filter_or_eq_iff_covered.1 hdefault.symm
    primary := or_eq_true_iff_covered.1 hprimary.symm
    unique := or_eq_true_iff_covered.1 hunique.symm
    references := filter_or_eq_none_iff_covered htext.symm }

/-- Where nothing is lost, columns and fields are the same. -/
theorem actsAs_of_coveredBy (hrules : o.validation? = o'.validation?)
    (hundecodable : o.undecodable = o'.undecodable) (h : a.CoveredBy b) : o.ActsAs o' := by
  -- Each setting does the same with and without what it is merged into.
  have hdefault := filter_or_eq_iff_covered.2 h.defaultValue
  have hreferences := filter_or_eq_iff_covered.2 h.references
  have hprimary := or_eq_true_iff_covered.2 h.primary
  have hunique := or_eq_true_iff_covered.2 h.unique
  rw [actsAs_iff]
  constructor
  · intro column
    simp only [annotate, Column.annotated, hb, hmerged, hrules, hundecodable, Option.bind_some,
      FieldConstraints.mergedWith, hdefault, hprimary]
  · intro field
    have hfirst : (o.onField field).relational? = some b := hb
    have hsecond : (o'.onField field).relational? = some (a.mergedWith b) := hmerged
    have hname : (o'.onField field).name = (o.onField field).name := rfl
    have htext : (o'.onField field).referenceText? = (o.onField field).referenceText? := by
      simp only [FieldNode.referenceText?, hfirst, hsecond, Option.bind_some,
        FieldConstraints.mergedWith, hreferences]
    constructor
    · simp only [FieldNode.constraints, htext, hfirst, hsecond, hname, Option.bind_some,
        FieldConstraints.mergedWith, hprimary, hunique]
    · simp only [FieldNode.referenceProblem?, htext, hname]

/-- A relational annotation acts like the one it is merged into another as, exactly when it covers
the other one. -/
theorem actsAs_iff_of_relational (hrules : o.validation? = o'.validation?)
    (hundecodable : o.undecodable = o'.undecodable) : o.ActsAs o' ↔ a.CoveredBy b :=
  ⟨coveredBy_of_actsAs hb hmerged, actsAs_of_coveredBy hb hmerged hrules hundecodable⟩

end

/-- The rule that a text is a UUID stays unless another one replaces it. -/
theorem uuid_mergedWith (a b : FieldRules) : (a.mergedWith b).uuid = b.uuid.or a.uuid := by
  obtain ⟨string, required⟩ := a
  obtain ⟨string', required'⟩ := b
  cases string' with
  | none => rfl
  | some rules => cases string <;> rfl

/-- Validation rules act like those they are merged into others as, exactly when they cover the
others. -/
theorem actsAs_iff_of_validation {a b : FieldRules} (hb : o.validation? = some b)
    (hmerged : o'.validation? = some (a.mergedWith b)) (hrelational : o.relational? = none)
    (hrelational' : o'.relational? = none) (hundecodable : o.undecodable = o'.undecodable) :
    o.ActsAs o' ↔ a.CoveredBy b := by
  -- What a column depends on, before and after merging.
  have huuid : b.string.bind (·.uuid) = b.uuid := rfl
  have huuidMerged : (a.mergedWith b).string.bind (·.uuid) = b.uuid.or a.uuid :=
    uuid_mergedWith a b
  have hrequiredMerged : (a.mergedWith b).required = b.required.or a.required := rfl
  rw [actsAs_iff]
  constructor
  · rintro ⟨hcolumn, -⟩
    -- A column that is no UUID and may be null shows both rules.
    have hbytes := hcolumn { name := "", type := .bytes }
    simp only [annotate, Column.annotated, hb, hmerged, hrelational, hrelational', hundecodable,
      Option.bind_some, huuid, huuidMerged, hrequiredMerged, Outcome.mk.injEq,
      Column.mk.injEq] at hbytes
    obtain ⟨⟨-, htype, hnull, -⟩, -⟩ := hbytes
    -- The column has neither the type `UUID` nor `NOT NULL` of its own.
    constructor
    · intro ha
      cases hset : b.uuid with
      | some w => rfl
      | none => simp [hset, ha] at htype
    · intro ha
      cases hset : b.required with
      | some w => rfl
      | none => simp [hset, ha] at hnull
  · intro h
    have huuidTrue := or_eq_true_iff_covered.2 h.uuid
    have hrequiredTrue := or_eq_true_iff_covered.2 h.required
    constructor
    · intro column
      simp only [annotate, Column.annotated, hb, hmerged, hrelational, hrelational', hundecodable,
        Option.bind_some, huuid, huuidMerged, hrequiredMerged, huuidTrue, hrequiredTrue]
    · -- Constraints do not depend on validation rules.
      intro field
      have hfield : (o.onField field).relational? = (o'.onField field).relational? :=
        hrelational.trans hrelational'.symm
      have htext : (o.onField field).referenceText? = (o'.onField field).referenceText? := by
        simp only [FieldNode.referenceText?, hfield]
      have hname : (o'.onField field).name = (o.onField field).name := rfl
      simp only [FieldNode.constraints, FieldNode.referenceProblem?, hfield, htext, hname, and_self]

end FieldOptions

/-! ## An annotation in two entries -/

namespace CustomOption

/-- The options that are decoded from entries of one annotation. -/
def decodeEntries (option : CustomOption) (payloads : List (List UInt8)) :
    Except DecodeError FieldOptions :=
  Message.decode FieldOptions (payloads.flatMap option.entry)

/-- A payload replaces all payloads of its annotation. -/
theorem put_foldl_put (option : CustomOption) (last : List UInt8) (payloads : List (List UInt8))
    (o : FieldOptions) :
    option.put last (payloads.foldl (fun o p => option.put p o) o) = option.put last o := by
  induction payloads generalizing o with
  | nil => rfl
  | cons p payloads ih =>
    rw [List.foldl_cons, ih]
    cases option <;> rfl

/-- Of the entries of an annotation the last one stays. -/
theorem decodeEntries_concat (option : CustomOption) {payloads : List (List UInt8)}
    {last : List UInt8} (hsize : ∀ p ∈ payloads ++ [last], p.length < UInt64.size) :
    option.decodeEntries (payloads ++ [last]) = .ok (option.put last {}) := by
  have hentries : ∀ e ∈ (payloads ++ [last]).map (option, ·), e.2.length < UInt64.size := by
    intro e he
    obtain ⟨p, hp, rfl⟩ := List.mem_map.1 he
    exact hsize p hp
  -- All entries are for one annotation, so only the last put counts.
  have h := decode_entries _ hentries
  rw [List.flatMap_map, List.foldl_map, List.foldl_append] at h
  rw [decodeEntries, h, ← put_foldl_put option last payloads]
  rfl

end CustomOption

/-- What is decoded from a relational annotation in two entries, and from one entry with both
payloads. -/
theorem split_fieldConstraints {a b : FieldConstraints}
    (hboth : (Message.encode a ++ Message.encode b).length < UInt64.size) :
    ∃ split whole : FieldOptions,
      CustomOption.relational.decodeEntries [Message.encode a, Message.encode b] = .ok split
        ∧ CustomOption.relational.decodeEntries [Message.encode a ++ Message.encode b] = .ok whole
        ∧ split.relational? = some b ∧ whole.relational? = some (a.mergedWith b)
        ∧ (split.ActsAs whole ↔ a.CoveredBy b) := by
  have hparts := hboth
  rw [List.length_append] at hparts
  have ha : (Message.encode a).length < UInt64.size := by omega
  have hb : (Message.encode b).length < UInt64.size := by omega
  have hsplit : CustomOption.relational.decodeEntries ([Message.encode a] ++ [Message.encode b])
      = _ := CustomOption.relational.decodeEntries_concat (by simp [ha, hb])
  have hwhole : CustomOption.relational.decodeEntries ([] ++ [Message.encode a ++ Message.encode b])
      = _ := CustomOption.relational.decodeEntries_concat (by simpa using hboth)
  -- The second payload is `b`, and both together are the merged annotation.
  have hdecode : Message.decode FieldConstraints (Message.encode b) = .ok b := by
    have h := merged_fieldConstraints Message.depthLimit {} b hb
    rw [empty_mergedWith_fieldConstraints] at h
    exact decode_of_merged h
  have hmerged := decode_append_fieldConstraints ha hb
  -- Two entries leave the second payload, one entry has both.
  have hfirst : (CustomOption.relational.put (Message.encode b) {}).relational? = some b :=
    FieldOptions.relational?_eq_some_iff.2 ⟨_, rfl, hdecode⟩
  have hsecond : (CustomOption.relational.put (Message.encode a ++ Message.encode b) {}).relational?
      = some (a.mergedWith b) := FieldOptions.relational?_eq_some_iff.2 ⟨_, rfl, hmerged⟩
  refine ⟨_, _, hsplit, hwhole, hfirst, hsecond, ?_⟩
  apply FieldOptions.actsAs_iff_of_relational hfirst hsecond rfl
  simp [FieldOptions.undecodable, FieldOptions.decodeRelational, FieldOptions.decodeValidation,
    CustomOption.put, hdecode, hmerged]

/-- Validation rules have a few bytes. -/
theorem length_encode_fieldRules (m : FieldRules) : (Message.encode m).length ≤ 8 := by
  obtain ⟨string, required⟩ := m
  rcases string with _ | ⟨_ | _ | _⟩ <;> rcases required with _ | _ | _ <;> decide

/-- What is decoded from validation rules in two entries, and from one entry with both payloads. -/
theorem split_fieldRules (a b : FieldRules) :
    ∃ split whole : FieldOptions,
      CustomOption.validation.decodeEntries [Message.encode a, Message.encode b] = .ok split
        ∧ CustomOption.validation.decodeEntries [Message.encode a ++ Message.encode b] = .ok whole
        ∧ split.validation? = some b ∧ whole.validation? = some (a.mergedWith b)
        ∧ (split.ActsAs whole ↔ a.CoveredBy b) := by
  -- Rules are so short that two of them fit in any entry.
  have hsmall : ∀ n ≤ 16, n < UInt64.size := fun n hn => Nat.lt_of_le_of_lt hn (by decide)
  have ha := length_encode_fieldRules a
  have hb := length_encode_fieldRules b
  have hparts : ∀ p ∈ [Message.encode a] ++ [Message.encode b], p.length < UInt64.size := by
    intro p hp
    apply hsmall
    rcases List.mem_cons.1 hp with rfl | hp
    · omega
    · rw [List.mem_singleton.1 hp]
      omega
  have hboth : ∀ p ∈ [] ++ [Message.encode a ++ Message.encode b], p.length < UInt64.size := by
    intro p hp
    apply hsmall
    rw [List.mem_singleton.1 hp, List.length_append]
    omega
  have hsplit := CustomOption.validation.decodeEntries_concat hparts
  have hwhole := CustomOption.validation.decodeEntries_concat hboth
  have hdecode : Message.decode FieldRules (Message.encode b) = .ok b := by
    have h := merged_fieldRules 99 {} b
    rw [empty_mergedWith_fieldRules] at h
    exact decode_of_merged h
  have hmerged := decode_append_fieldRules a b
  -- Two entries leave the second payload, one entry has both.
  have hfirst : (CustomOption.validation.put (Message.encode b) {}).validation? = some b := by
    simp [FieldOptions.validation?, FieldOptions.decodeValidation, CustomOption.put, hdecode,
      Except.toOption]
  have hsecond : (CustomOption.validation.put (Message.encode a ++ Message.encode b) {}).validation?
      = some (a.mergedWith b) := by
    simp [FieldOptions.validation?, FieldOptions.decodeValidation, CustomOption.put, hmerged,
      Except.toOption]
  refine ⟨_, _, hsplit, hwhole, hfirst, hsecond, ?_⟩
  apply FieldOptions.actsAs_iff_of_validation hfirst hsecond rfl rfl
  simp [FieldOptions.undecodable, FieldOptions.decodeRelational, FieldOptions.decodeValidation,
    CustomOption.put, hdecode, hmerged]

/-- An annotation may be given in two entries exactly when the second one sets all that does
something in the first one. Decoded from one entry with the payloads of `a` and `b`, an annotation
has the settings of `b` in place of those of `a`, and the other settings of `a`; decoded from two
entries it is `b` alone. The same holds of the validation rules `p` and `q`. -/
theorem split_annotation_actsAs_iff (a b : FieldConstraints) (p q : FieldRules)
    (hsize : (Message.encode a ++ Message.encode b).length < UInt64.size) :
    (∃ split whole : FieldOptions,
      CustomOption.relational.decodeEntries [Message.encode a, Message.encode b] = .ok split
        ∧ CustomOption.relational.decodeEntries [Message.encode a ++ Message.encode b] = .ok whole
        ∧ split.relational? = some b ∧ whole.relational? = some (a.mergedWith b)
        ∧ (split.ActsAs whole ↔ a.CoveredBy b))
      ∧ ∃ split whole : FieldOptions,
        CustomOption.validation.decodeEntries [Message.encode p, Message.encode q] = .ok split
          ∧ CustomOption.validation.decodeEntries [Message.encode p ++ Message.encode q] = .ok whole
          ∧ split.validation? = some q ∧ whole.validation? = some (p.mergedWith q)
          ∧ (split.ActsAs whole ↔ p.CoveredBy q) :=
  ⟨split_fieldConstraints hsize, split_fieldRules p q⟩

/-- A default and a reference may be followed by an entry that sets both again. -/
theorem split_annotation_actsAs_of_covered :
    let a : FieldConstraints := { defaultValue := some "x", references := some "Book.id" }
    let b : FieldConstraints :=
      { defaultValue := some "", unique := some true, references := some "Author.id" }
    (Message.encode a ++ Message.encode b).length < UInt64.size
      ∧ ∃ split whole : FieldOptions,
        CustomOption.relational.decodeEntries [Message.encode a, Message.encode b] = .ok split
          ∧ CustomOption.relational.decodeEntries [Message.encode a ++ Message.encode b] = .ok whole
          ∧ split.ActsAs whole := by
  intro a b
  have hsize : (Message.encode a ++ Message.encode b).length < UInt64.size := by decide +kernel
  obtain ⟨⟨split, whole, hsplit, hwhole, -, -, hacts⟩, -⟩ :=
    split_annotation_actsAs_iff a b {} {} hsize
  -- Of the first entry the default and the reference are set again, even if to nothing.
  have hcovered : a.CoveredBy b := ⟨fun _ _ _ => rfl, nofun, nofun, fun _ _ _ => rfl⟩
  exact ⟨hsize, split, whole, hsplit, hwhole, hacts.2 hcovered⟩

/-- A primary key that is set in the first of two entries is lost, and so is a field that is
required. -/
theorem split_annotation_not_actsAs :
    (let a : FieldConstraints := { primary := some true }
      let b : FieldConstraints := { unique := some true }
      ∃ split whole : FieldOptions,
        CustomOption.relational.decodeEntries [Message.encode a, Message.encode b] = .ok split
          ∧ CustomOption.relational.decodeEntries [Message.encode a ++ Message.encode b] = .ok whole
          ∧ ¬split.ActsAs whole)
      ∧ let a : FieldRules := { required := some true }
        let b : FieldRules := { string := some { uuid := some true } }
        ∃ split whole : FieldOptions,
          CustomOption.validation.decodeEntries [Message.encode a, Message.encode b] = .ok split
            ∧ CustomOption.validation.decodeEntries [Message.encode a ++ Message.encode b]
              = .ok whole
            ∧ ¬split.ActsAs whole := by
  constructor
  · intro a b
    have hsize : (Message.encode a ++ Message.encode b).length < UInt64.size := by decide +kernel
    obtain ⟨split, whole, hsplit, hwhole, -, -, hacts⟩ := split_fieldConstraints hsize
    refine ⟨split, whole, hsplit, hwhole, fun h => ?_⟩
    -- The second entry says nothing about a primary key.
    have hset := (hacts.1 h).primary rfl
    cases hset
  · intro a b
    obtain ⟨split, whole, hsplit, hwhole, -, -, hacts⟩ := split_fieldRules a b
    refine ⟨split, whole, hsplit, hwhole, fun h => ?_⟩
    -- The second entry does not say that the field is required.
    have hset := (hacts.1 h).required rfl
    cases hset

end ProtoSchema.Plugin
