import ProtoSchema.Plugin.Codec
import ProtoSchema.Proofs.Wire.ReadBack

/-!
# Messages of the protocol are read back

A message is written part by part in the order of its field numbers, and each part, read into the
message that the parts before it have made, adds one field.

Key results:
* `readsBack_embeddedRecords`, `readsBack_listRecords` — parts that hold embedded messages
* `isReadBack_messageDescriptor` — message descriptors of any nesting
* `MessageType.isReadBack` — every message of the protocol
-/

namespace ProtoSchema.Plugin

open Wire Wire.Scalar

section Embedded

variable {σ τ : Type} [Message σ] [Message τ] {label : String} {start : σ → τ} {put : τ → σ → σ}

/-- An embedded message that may be absent is read back into the field of its number. -/
theorem readsBack_embeddedRecords (depth number : Nat) (state : Option τ → σ) (value : Option τ)
    (hvalue : ∀ m ∈ value, Message.IsReadBack m) (hpos : 0 < number)
    (hlt : number < Key.numberBound)
    (hfind : (Message.fields (σ := σ) depth).find? (·.number == number)
      = some (.message number label (Message.embedded τ depth) start put))
    (hstart : start (state none) = Message.empty)
    (hput : ∀ m, put m (state none) = state (some m)) :
    ReadsBack depth (state none) (embeddedRecords number value) (state value) :=
  readsBack_option fun m hm =>
    (readsBack_message hpos hlt hfind hstart (hvalue m hm)).of_eq (hput m)

/-- Embedded messages of a list are read back one after the other. -/
theorem readsBack_listRecords (depth number : Nat) (state : List τ → σ) (values : List τ)
    (hvalues : ∀ m ∈ values, Message.IsReadBack m) (hpos : 0 < number)
    (hlt : number < Key.numberBound)
    (hfind : (Message.fields (σ := σ) depth).find? (·.number == number)
      = some (.message number label (Message.embedded τ depth) start put))
    (hstart : ∀ done, start (state done) = Message.empty)
    (hput : ∀ done m, put m (state done) = state (done ++ [m])) :
    ReadsBack depth (state []) (listRecords number values) (state values) :=
  readsBack_map fun done m hm =>
    (readsBack_message hpos hlt hfind (hstart done) (hvalues m hm)).of_eq (hput done m)

end Embedded

/-! ## Message types -/

/-- The three numbers of a version are read back, and the text behind them. -/
theorem isReadBack_version : (m : Version) → Message.IsReadBack m := by
  rintro ⟨major, minor, patch, suffix⟩ depth
  -- Field by field, each one is put beside those before it.
  have h₁ := readsBack_records depth 1 isFaithful_int32 (Version.mk · none none none) major
    (by decide) (by decide) rfl fun _ => rfl
  have h₂ := readsBack_records depth 2 isFaithful_int32 (Version.mk major · none none) minor
    (by decide) (by decide) rfl fun _ => rfl
  have h₃ := readsBack_records depth 3 isFaithful_int32 (Version.mk major minor · none) patch
    (by decide) (by decide) rfl fun _ => rfl
  have h₄ := readsBack_records depth 4 isFaithful_text (Version.mk major minor patch ·) suffix
    (by decide) (by decide) rfl fun _ => rfl
  exact ((h₁.append h₂).append h₃).append h₄

theorem isReadBack_enumValue : (m : EnumValue) → Message.IsReadBack m := by
  rintro ⟨name, number⟩ depth
  have h₁ := readsBack_records depth 1 isFaithful_text (EnumValue.mk · none) name
    (by decide) (by decide) rfl fun _ => rfl
  have h₂ := readsBack_records depth 2 isFaithful_int32 (EnumValue.mk name ·) number
    (by decide) (by decide) rfl fun _ => rfl
  exact h₁.append h₂

theorem isReadBack_enumDescriptor : (m : EnumDescriptor) → Message.IsReadBack m := by
  rintro ⟨name, values⟩ depth
  have h₁ := readsBack_records depth 1 isFaithful_text (EnumDescriptor.mk · []) name
    (by decide) (by decide) rfl fun _ => rfl
  have h₂ := readsBack_listRecords depth 2 (EnumDescriptor.mk name ·) values
    (fun v _ => isReadBack_enumValue v) (by decide) (by decide) rfl (fun _ => rfl) fun _ _ => rfl
  exact h₁.append h₂

theorem isReadBack_messageOptions : (m : MessageOptions) → Message.IsReadBack m := by
  rintro ⟨mapEntry⟩ depth
  exact readsBack_records depth 7 isFaithful_bool MessageOptions.mk mapEntry
    (by decide) (by decide) rfl fun _ => rfl

theorem isReadBack_fieldOptions : (m : FieldOptions) → Message.IsReadBack m := by
  rintro ⟨validation, relational⟩ depth
  have h₁ := readsBack_records depth 1159 isFaithful_bytes (FieldOptions.mk · none) validation
    (by decide) (by decide) rfl fun _ => rfl
  have h₂ := readsBack_records depth 50001 isFaithful_bytes (FieldOptions.mk validation ·)
    relational (by decide) (by decide) rfl fun _ => rfl
  exact h₁.append h₂

/-- A field is read back, whatever its number of a kind or label stands for. -/
theorem isReadBack_fieldDescriptor : (m : FieldDescriptor) → Message.IsReadBack m := by
  rintro ⟨name, number, label, kind, typeName, options, proto3Optional⟩ depth
  -- Field by field, in the order of their numbers.
  have h₁ := readsBack_records depth 1 isFaithful_text
    (FieldDescriptor.mk · none none none none none none) name
    (by decide) (by decide) rfl fun _ => rfl
  have h₂ := readsBack_records depth 3 isFaithful_int32
    (FieldDescriptor.mk name · none none none none none) number
    (by decide) (by decide) rfl fun _ => rfl
  have h₃ := readsBack_records depth 4 isFaithful_int32
    (FieldDescriptor.mk name number · none none none none) label
    (by decide) (by decide) rfl fun _ => rfl
  have h₄ := readsBack_records depth 5 isFaithful_int32
    (FieldDescriptor.mk name number label · none none none) kind
    (by decide) (by decide) rfl fun _ => rfl
  have h₅ := readsBack_records depth 6 isFaithful_text
    (FieldDescriptor.mk name number label kind · none none) typeName
    (by decide) (by decide) rfl fun _ => rfl
  -- The options are a message of their own.
  have h₆ := readsBack_embeddedRecords depth 8
    (FieldDescriptor.mk name number label kind typeName · none) options
    (fun o _ => isReadBack_fieldOptions o) (by decide) (by decide) rfl rfl fun _ => rfl
  have h₇ := readsBack_records depth 17 isFaithful_bool
    (FieldDescriptor.mk name number label kind typeName options ·) proto3Optional
    (by decide) (by decide) rfl fun _ => rfl
  exact (((((h₁.append h₂).append h₃).append h₄).append h₅).append h₆).append h₇

/-- The fields of a message descriptor are known by their numbers at every depth. -/
theorem find?_fields_messageDescriptor (depth number : Nat) :
    (Message.fields (σ := MessageDescriptor) depth).find? (·.number == number)
      = (MessageDescriptor.fieldsWith depth (Message.embedded MessageDescriptor depth)).find?
        (·.number == number) :=
  congrArg (List.find? (·.number == number)) (MessageDescriptor.knownFields_eq depth)

mutual

/-- A message descriptor is read back since those inside it are. -/
theorem isReadBack_messageDescriptor : (m : MessageDescriptor) → Message.IsReadBack m
  | ⟨name, fields, messages, enums, options⟩ => by
    intro depth
    -- The fields are looked up through the equation, since the type is recursive.
    have hfind := find?_fields_messageDescriptor depth
    have h₁ := readsBack_records depth 1 isFaithful_text (MessageDescriptor.mk · [] [] [] none) name
      (by decide) (by decide) ((hfind 1).trans rfl) fun _ => rfl
    have h₂ := readsBack_listRecords depth 2 (MessageDescriptor.mk name · [] [] none) fields
      (fun f _ => isReadBack_fieldDescriptor f) (by decide) (by decide) ((hfind 2).trans rfl)
      (fun _ => rfl) fun _ _ => rfl
    -- Nested messages are read back by the mutual induction.
    have h₃ := readsBack_listRecords depth 3 (MessageDescriptor.mk name fields · [] none) messages
      (isReadBack_nested messages) (by decide) (by decide) ((hfind 3).trans rfl)
      (fun _ => rfl) fun _ _ => rfl
    have h₄ := readsBack_listRecords depth 4 (MessageDescriptor.mk name fields messages · none)
      enums (fun e _ => isReadBack_enumDescriptor e) (by decide) (by decide) ((hfind 4).trans rfl)
      (fun _ => rfl) fun _ _ => rfl
    have h₅ := readsBack_embeddedRecords depth 7 (MessageDescriptor.mk name fields messages enums ·)
      options (fun o _ => isReadBack_messageOptions o) (by decide) (by decide)
      ((hfind 7).trans rfl) rfl fun _ => rfl
    -- Their records are collected by a function of its own, for termination.
    rw [← MessageDescriptor.nestedRecords_eq] at h₃
    exact (((h₁.append h₂).append h₃).append h₄).append h₅

/-- Several message descriptors are read back, each by itself. -/
theorem isReadBack_nested : (ms : List MessageDescriptor) → ∀ m ∈ ms, Message.IsReadBack m
  | [] => List.forall_mem_nil _
  | m :: ms => List.forall_mem_cons.2 ⟨isReadBack_messageDescriptor m, isReadBack_nested ms⟩

end

/-- A file is read back with the messages and enums in it. -/
theorem isReadBack_fileDescriptor : (m : FileDescriptor) → Message.IsReadBack m := by
  rintro ⟨name, package, messages, enums, level⟩ depth
  have h₁ := readsBack_records depth 1 isFaithful_text (FileDescriptor.mk · none [] [] none) name
    (by decide) (by decide) rfl fun _ => rfl
  have h₂ := readsBack_records depth 2 isFaithful_text (FileDescriptor.mk name · [] [] none) package
    (by decide) (by decide) rfl fun _ => rfl
  -- Messages and enums are lists of messages of their own.
  have h₃ := readsBack_listRecords depth 4 (FileDescriptor.mk name package · [] none) messages
    (isReadBack_nested messages) (by decide) (by decide) rfl (fun _ => rfl) fun _ _ => rfl
  have h₄ := readsBack_listRecords depth 5 (FileDescriptor.mk name package messages · none) enums
    (fun e _ => isReadBack_enumDescriptor e) (by decide) (by decide) rfl (fun _ => rfl)
    fun _ _ => rfl
  have h₅ := readsBack_records depth 12 isFaithful_text
    (FileDescriptor.mk name package messages enums ·) level (by decide) (by decide) rfl fun _ => rfl
  exact (((h₁.append h₂).append h₃).append h₄).append h₅

/-- A request is read back with all its files. -/
theorem isReadBack_request : (m : Request) → Message.IsReadBack m := by
  -- Field by field, the files last but one.
  rintro ⟨filesToGenerate, parameter, compilerVersion, files⟩ depth
  have h₁ := readsBack_map_record depth 1 isFaithful_text (Request.mk · none none [])
    filesToGenerate (by decide) (by decide) rfl fun _ _ => rfl
  have h₂ := readsBack_records depth 2 isFaithful_text (Request.mk filesToGenerate · none [])
    parameter (by decide) (by decide) rfl fun _ => rfl
  have h₃ := readsBack_embeddedRecords depth 3 (Request.mk filesToGenerate parameter · [])
    compilerVersion (fun v _ => isReadBack_version v) (by decide) (by decide) rfl rfl fun _ => rfl
  have h₄ := readsBack_listRecords depth 15 (Request.mk filesToGenerate parameter compilerVersion ·)
    files (fun f _ => isReadBack_fileDescriptor f) (by decide) (by decide) rfl (fun _ => rfl)
    fun _ _ => rfl
  exact ((h₁.append h₂).append h₃).append h₄

theorem isReadBack_outputFile : (m : OutputFile) → Message.IsReadBack m := by
  rintro ⟨name, insertionPoint, content⟩ depth
  have h₁ := readsBack_records depth 1 isFaithful_text (OutputFile.mk · none none) name
    (by decide) (by decide) rfl fun _ => rfl
  have h₂ := readsBack_records depth 2 isFaithful_text (OutputFile.mk name · none) insertionPoint
    (by decide) (by decide) rfl fun _ => rfl
  have h₃ := readsBack_records depth 15 isFaithful_text (OutputFile.mk name insertionPoint ·)
    content (by decide) (by decide) rfl fun _ => rfl
  exact (h₁.append h₂).append h₃

theorem isReadBack_response : (m : Response) → Message.IsReadBack m := by
  rintro ⟨error, supportedFeatures, files⟩ depth
  have h₁ := readsBack_records depth 1 isFaithful_text (Response.mk · none []) error
    (by decide) (by decide) rfl fun _ => rfl
  have h₂ := readsBack_records depth 2 isFaithful_uint64 (Response.mk error · []) supportedFeatures
    (by decide) (by decide) rfl fun _ => rfl
  have h₃ := readsBack_listRecords depth 15 (Response.mk error supportedFeatures ·) files
    (fun f _ => isReadBack_outputFile f) (by decide) (by decide) rfl (fun _ => rfl) fun _ _ => rfl
  exact (h₁.append h₂).append h₃

theorem isReadBack_fieldConstraints : (m : FieldConstraints) → Message.IsReadBack m := by
  rintro ⟨defaultValue, primary, unique, references⟩ depth
  have h₁ := readsBack_records depth 1 isFaithful_text (FieldConstraints.mk · none none none)
    defaultValue (by decide) (by decide) rfl fun _ => rfl
  have h₂ := readsBack_records depth 2 isFaithful_bool
    (FieldConstraints.mk defaultValue · none none) primary (by decide) (by decide) rfl fun _ => rfl
  have h₃ := readsBack_records depth 3 isFaithful_bool
    (FieldConstraints.mk defaultValue primary · none) unique (by decide) (by decide) rfl
    fun _ => rfl
  have h₄ := readsBack_records depth 4 isFaithful_text
    (FieldConstraints.mk defaultValue primary unique ·) references (by decide) (by decide) rfl
    fun _ => rfl
  exact ((h₁.append h₂).append h₃).append h₄

theorem isReadBack_stringRules : (m : StringRules) → Message.IsReadBack m := by
  rintro ⟨uuid⟩ depth
  exact readsBack_records depth 22 isFaithful_bool StringRules.mk uuid
    (by decide) (by decide) rfl fun _ => rfl

theorem isReadBack_fieldRules : (m : FieldRules) → Message.IsReadBack m := by
  rintro ⟨string, required⟩ depth
  have h₁ := readsBack_embeddedRecords depth 14 (FieldRules.mk · none) string
    (fun r _ => isReadBack_stringRules r) (by decide) (by decide) rfl rfl fun _ => rfl
  have h₂ := readsBack_records depth 25 isFaithful_bool (FieldRules.mk string ·) required
    (by decide) (by decide) rfl fun _ => rfl
  exact h₁.append h₂

/-- Every message of the protocol is read back. -/
theorem MessageType.isReadBack : (type : MessageType) → (m : type.Carrier) → Message.IsReadBack m
  | version, m => isReadBack_version m
  | request, m => isReadBack_request m
  | response, m => isReadBack_response m
  | outputFile, m => isReadBack_outputFile m
  | file, m => isReadBack_fileDescriptor m
  | message, m => isReadBack_messageDescriptor m
  | messageOptions, m => isReadBack_messageOptions m
  | field, m => isReadBack_fieldDescriptor m
  | fieldOptions, m => isReadBack_fieldOptions m
  | enum, m => isReadBack_enumDescriptor m
  | enumValue, m => isReadBack_enumValue m
  | fieldConstraints, m => isReadBack_fieldConstraints m
  | fieldRules, m => isReadBack_fieldRules m
  | stringRules, m => isReadBack_stringRules m

end ProtoSchema.Plugin
