import ProtoSchema.Proofs.Plugin.ReadBack
import ProtoSchema.Proofs.Wire.DecodedSize

/-!
# Round trips

Every message of the protocol is decoded from its encoding, presence, order and all, unless a chain
of embedded messages is longer than the limit. A message that was decoded has no such chain, and its
encoding is not too long for the lengths in front of its parts, so it is decoded again.

Key results:
* `MessageType.isBounded` — what each field of each message type adds to a message
* `decode_encode` — the round trip from messages and the one from bytes
-/

namespace ProtoSchema.Plugin

open Wire Wire.Scalar

/-! ## Fields of the message types -/

section Embedded

variable {σ : Type} [Message σ]

/-- An embedded message takes the place of the one before it. -/
theorem exchanged_embeddedRecords (number : Nat) (old : Option σ) (m : σ) :
    Exchanged (embeddedRecords number old) (embeddedRecords number (some m))
      (old.map fun m => Record.message number (Message.records m)).toList
      [.message number (Message.records m)] :=
  exchanged_self _ _

/-- An embedded message is added to a list. -/
theorem exchanged_listRecords (number : Nat) (ms : List σ) (m : σ) :
    Exchanged (listRecords number ms) (listRecords number (ms ++ [m])) []
      [.message number (Message.records m)] := by
  rw [listRecords, listRecords, List.map_append]
  exact exchanged_append _ _

end Embedded

/-- A version grows by at most twice the bytes that each of its fields takes. -/
theorem isBounded_version (depth : Nat) : Message.IsBounded Version depth := by
  simp only [Message.IsBounded, Message.fields, List.forall_mem_cons]
  -- Each field sets a record of its own, with those of the other fields around it.
  refine ⟨?_, ?_, ?_, ?_, List.forall_mem_nil _⟩
  · exact isBounded_scalar depth isBounded_int32 isFaithful_int32 fun _ _ =>
      (((exchanged_nil _ _).before _).before _).before _
  · exact isBounded_scalar depth isBounded_int32 isFaithful_int32 fun _ _ =>
      (((exchanged_nil _ _).behind _).before _).before _
  · exact isBounded_scalar depth isBounded_int32 isFaithful_int32 fun _ _ =>
      ((exchanged_nil _ _).behind _).before _
  · exact isBounded_scalar depth isBounded_text isFaithful_text fun _ _ =>
      (exchanged_nil _ _).behind _

theorem isBounded_enumValue (depth : Nat) : Message.IsBounded EnumValue depth := by
  simp only [Message.IsBounded, Message.fields, List.forall_mem_cons]
  refine ⟨?_, ?_, List.forall_mem_nil _⟩
  · exact isBounded_scalar depth isBounded_text isFaithful_text fun _ _ =>
      (exchanged_nil _ _).before _
  · exact isBounded_scalar depth isBounded_int32 isFaithful_int32 fun _ _ =>
      (exchanged_nil _ _).behind _

theorem isBounded_enumDescriptor (depth : Nat) : Message.IsBounded EnumDescriptor depth := by
  simp only [Message.IsBounded, Message.fields, List.forall_mem_cons]
  refine ⟨?_, ?_, List.forall_mem_nil _⟩
  · exact isBounded_scalar depth isBounded_text isFaithful_text fun _ _ =>
      (exchanged_nil _ _).before _
  · exact isBounded_message (fun inner _ => isBounded_enumValue inner) rfl fun v s =>
      ⟨none, rfl, (exchanged_listRecords 2 s.values v).behind _⟩

theorem isBounded_messageOptions (depth : Nat) : Message.IsBounded MessageOptions depth := by
  simp only [Message.IsBounded, Message.fields, List.forall_mem_cons]
  exact ⟨isBounded_scalar depth isBounded_bool isFaithful_bool fun _ _ => exchanged_nil _ _,
    List.forall_mem_nil _⟩

theorem isBounded_fieldOptions (depth : Nat) : Message.IsBounded FieldOptions depth := by
  simp only [Message.IsBounded, Message.fields, List.forall_mem_cons]
  refine ⟨?_, ?_, List.forall_mem_nil _⟩
  · exact isBounded_scalar depth isBounded_bytes isFaithful_bytes fun _ _ =>
      (exchanged_nil _ _).before _
  · exact isBounded_scalar depth isBounded_bytes isFaithful_bytes fun _ _ =>
      (exchanged_nil _ _).behind _

theorem isBounded_fieldDescriptor (depth : Nat) : Message.IsBounded FieldDescriptor depth := by
  simp only [Message.IsBounded, Message.fields, List.forall_mem_cons]
  -- Only the options are a message; the records of the other fields hold single values.
  refine ⟨?_, ?_, ?_, ?_, ?_, ?_, ?_, List.forall_mem_nil _⟩
  · exact isBounded_scalar depth isBounded_text isFaithful_text fun _ _ =>
      ((((((exchanged_nil _ _).before _).before _).before _).before _).before _).before _
  · exact isBounded_scalar depth isBounded_int32 isFaithful_int32 fun _ _ =>
      ((((((exchanged_nil _ _).behind _).before _).before _).before _).before _).before _
  · exact isBounded_scalar depth isBounded_int32 isFaithful_int32 fun _ _ =>
      (((((exchanged_nil _ _).behind _).before _).before _).before _).before _
  · exact isBounded_scalar depth isBounded_int32 isFaithful_int32 fun _ _ =>
      ((((exchanged_nil _ _).behind _).before _).before _).before _
  · exact isBounded_scalar depth isBounded_text isFaithful_text fun _ _ =>
      (((exchanged_nil _ _).behind _).before _).before _
  · exact isBounded_message (fun inner _ => isBounded_fieldOptions inner) rfl fun v s =>
      ⟨s.options, rfl, ((exchanged_embeddedRecords 8 s.options v).behind _).before _⟩
  · exact isBounded_scalar depth isBounded_bool isFaithful_bool fun _ _ =>
      (exchanged_nil _ _).behind _

/-- The records of a message descriptor, those of the messages inside it as a list like others. -/
theorem records_messageDescriptor (m : MessageDescriptor) :
    Message.records m = text.records 1 m.name ++ listRecords 2 m.fields ++ listRecords 3 m.messages
      ++ listRecords 4 m.enums ++ embeddedRecords 7 m.options := by
  obtain ⟨name, fields, messages, enums, options⟩ := m
  rw [← MessageDescriptor.nestedRecords_eq]
  rfl

/-- By induction on the depth: the messages inside a message descriptor are one level deeper. -/
theorem isBounded_messageDescriptor (depth : Nat) : Message.IsBounded MessageDescriptor depth := by
  -- Nested messages are decoded with less depth, so the induction is on the depth.
  induction depth using Nat.strongRecOn with
  | ind depth ih =>
    have hfields : Message.fields (σ := MessageDescriptor) depth
        = MessageDescriptor.fieldsWith depth (Message.embedded MessageDescriptor depth) :=
      MessageDescriptor.knownFields_eq depth
    simp only [Message.IsBounded, hfields, MessageDescriptor.fieldsWith, List.forall_mem_cons]
    refine ⟨?_, ?_, ?_, ?_, ?_, List.forall_mem_nil _⟩
    · refine isBounded_scalar depth isBounded_text isFaithful_text fun v s => ?_
      rw [records_messageDescriptor, records_messageDescriptor]
      exact ((((exchanged_nil _ _).before _).before _).before _).before _
    · refine isBounded_message (fun inner _ => isBounded_fieldDescriptor inner) rfl fun v s =>
        ⟨none, rfl, ?_⟩
      rw [records_messageDescriptor, records_messageDescriptor]
      exact ((((exchanged_listRecords 2 s.fields v).behind _).before _).before _).before _
    -- A nested message is one more in their list.
    · refine isBounded_message ih rfl fun v s => ⟨none, rfl, ?_⟩
      rw [records_messageDescriptor s, records_messageDescriptor { s with messages := _ }]
      exact (((exchanged_listRecords 3 s.messages v).behind _).before _).before _
    · refine isBounded_message (fun inner _ => isBounded_enumDescriptor inner) rfl fun v s =>
        ⟨none, rfl, ?_⟩
      rw [records_messageDescriptor, records_messageDescriptor]
      exact ((exchanged_listRecords 4 s.enums v).behind _).before _
    · refine isBounded_message (fun inner _ => isBounded_messageOptions inner) rfl fun v s =>
        ⟨s.options, rfl, ?_⟩
      rw [records_messageDescriptor, records_messageDescriptor]
      exact (exchanged_embeddedRecords 7 s.options v).behind _

/-- A file grows by at most twice the bytes that each field takes, those of nested messages
included. -/
theorem isBounded_fileDescriptor (depth : Nat) : Message.IsBounded FileDescriptor depth := by
  simp only [Message.IsBounded, Message.fields, List.forall_mem_cons]
  -- Messages and enums are added behind those that were read before.
  refine ⟨?_, ?_, ?_, ?_, ?_, List.forall_mem_nil _⟩
  · exact isBounded_scalar depth isBounded_text isFaithful_text fun _ _ =>
      ((((exchanged_nil _ _).before _).before _).before _).before _
  · exact isBounded_scalar depth isBounded_text isFaithful_text fun _ _ =>
      ((((exchanged_nil _ _).behind _).before _).before _).before _
  · exact isBounded_message (fun inner _ => isBounded_messageDescriptor inner) rfl fun v s =>
      ⟨none, rfl, (((exchanged_listRecords 4 s.messages v).behind _).before _).before _⟩
  · exact isBounded_message (fun inner _ => isBounded_enumDescriptor inner) rfl fun v s =>
      ⟨none, rfl, ((exchanged_listRecords 5 s.enums v).behind _).before _⟩
  · exact isBounded_scalar depth isBounded_text isFaithful_text fun _ _ =>
      (exchanged_nil _ _).behind _

/-- A request grows by at most twice the bytes that each field takes, those of its files
included. -/
theorem isBounded_request (depth : Nat) : Message.IsBounded Request depth := by
  simp only [Message.IsBounded, Message.fields, List.forall_mem_cons]
  refine ⟨?_, ?_, ?_, ?_, List.forall_mem_nil _⟩
  · refine isBounded_scalar depth isBounded_text isFaithful_text fun v s => ?_
    -- A file to generate is one more record of its list.
    have hadded : Exchanged (s.filesToGenerate.map (text.record 1))
        ((s.filesToGenerate ++ [v]).map (text.record 1)) [] [text.record 1 v] := by
      rw [List.map_append]
      exact exchanged_append _ _
    exact ((hadded.before _).before _).before _
  · exact isBounded_scalar depth isBounded_text isFaithful_text fun _ _ =>
      (((exchanged_nil _ _).behind _).before _).before _
  · exact isBounded_message (fun inner _ => isBounded_version inner) rfl fun v s =>
      ⟨s.compilerVersion, rfl,
        ((exchanged_embeddedRecords 3 s.compilerVersion v).behind _).before _⟩
  · exact isBounded_message (fun inner _ => isBounded_fileDescriptor inner) rfl fun v s =>
      ⟨none, rfl, (exchanged_listRecords 15 s.files v).behind _⟩

theorem isBounded_outputFile (depth : Nat) : Message.IsBounded OutputFile depth := by
  simp only [Message.IsBounded, Message.fields, List.forall_mem_cons]
  refine ⟨?_, ?_, ?_, List.forall_mem_nil _⟩
  · exact isBounded_scalar depth isBounded_text isFaithful_text fun _ _ =>
      ((exchanged_nil _ _).before _).before _
  · exact isBounded_scalar depth isBounded_text isFaithful_text fun _ _ =>
      ((exchanged_nil _ _).behind _).before _
  · exact isBounded_scalar depth isBounded_text isFaithful_text fun _ _ =>
      (exchanged_nil _ _).behind _

theorem isBounded_response (depth : Nat) : Message.IsBounded Response depth := by
  simp only [Message.IsBounded, Message.fields, List.forall_mem_cons]
  -- Files are added behind those that were read before.
  refine ⟨?_, ?_, ?_, List.forall_mem_nil _⟩
  · exact isBounded_scalar depth isBounded_text isFaithful_text fun _ _ =>
      ((exchanged_nil _ _).before _).before _
  · exact isBounded_scalar depth isBounded_uint64 isFaithful_uint64 fun _ _ =>
      ((exchanged_nil _ _).behind _).before _
  · exact isBounded_message (fun inner _ => isBounded_outputFile inner) rfl fun v s =>
      ⟨none, rfl, (exchanged_listRecords 15 s.files v).behind _⟩

theorem isBounded_fieldConstraints (depth : Nat) : Message.IsBounded FieldConstraints depth := by
  simp only [Message.IsBounded, Message.fields, List.forall_mem_cons]
  refine ⟨?_, ?_, ?_, ?_, List.forall_mem_nil _⟩
  · exact isBounded_scalar depth isBounded_text isFaithful_text fun _ _ =>
      (((exchanged_nil _ _).before _).before _).before _
  · exact isBounded_scalar depth isBounded_bool isFaithful_bool fun _ _ =>
      (((exchanged_nil _ _).behind _).before _).before _
  · exact isBounded_scalar depth isBounded_bool isFaithful_bool fun _ _ =>
      ((exchanged_nil _ _).behind _).before _
  · exact isBounded_scalar depth isBounded_text isFaithful_text fun _ _ =>
      (exchanged_nil _ _).behind _

theorem isBounded_stringRules (depth : Nat) : Message.IsBounded StringRules depth := by
  simp only [Message.IsBounded, Message.fields, List.forall_mem_cons]
  exact ⟨isBounded_scalar depth isBounded_bool isFaithful_bool fun _ _ => exchanged_nil _ _,
    List.forall_mem_nil _⟩

theorem isBounded_fieldRules (depth : Nat) : Message.IsBounded FieldRules depth := by
  simp only [Message.IsBounded, Message.fields, List.forall_mem_cons]
  refine ⟨?_, ?_, List.forall_mem_nil _⟩
  · exact isBounded_message (fun inner _ => isBounded_stringRules inner) rfl fun v s =>
      ⟨s.string, rfl, (exchanged_embeddedRecords 14 s.string v).before _⟩
  · exact isBounded_scalar depth isBounded_bool isFaithful_bool fun _ _ =>
      (exchanged_nil _ _).behind _

namespace MessageType

/-- Every field of every message type is bounded. -/
theorem isBounded : (type : MessageType) → (depth : Nat) → Message.IsBounded type.Carrier depth
  | version, depth => isBounded_version depth
  | request, depth => isBounded_request depth
  | response, depth => isBounded_response depth
  | outputFile, depth => isBounded_outputFile depth
  | file, depth => isBounded_fileDescriptor depth
  | message, depth => isBounded_messageDescriptor depth
  | messageOptions, depth => isBounded_messageOptions depth
  | field, depth => isBounded_fieldDescriptor depth
  | fieldOptions, depth => isBounded_fieldOptions depth
  | enum, depth => isBounded_enumDescriptor depth
  | enumValue, depth => isBounded_enumValue depth
  | fieldConstraints, depth => isBounded_fieldConstraints depth
  | fieldRules, depth => isBounded_fieldRules depth
  | stringRules, depth => isBounded_stringRules depth

/-- An empty message has no records. -/
theorem records_empty (type : MessageType) :
    Message.records (Message.empty : type.Carrier) = [] := by
  cases type <;> rfl

end MessageType

/-! ## Round trips -/

/-- The encoding of a message has the length that is computed for it. It is decoded to the message,
or it is refused since a chain of embedded messages is longer than 100. Messages that come from
bytes are encoded to bytes that they come from too; they have at most twice the bytes of the input,
so that lengths of 64 bits are enough for an input of any size that fits in memory. -/
theorem decode_encode (type : MessageType) :
    (∀ m : type.Carrier,
      Message.encodedLength m = (Message.encode m).length
      ∧ (Message.encodedLength m < 2 ^ 64 →
        (Message.height m ≤ 100 → Message.decode type.Carrier (Message.encode m) = .ok m)
        ∧ (100 < Message.height m → ∃ e, Message.decode type.Carrier (Message.encode m) = .error e
          ∧ e.fault = .depthReached)))
    ∧ ∀ input : List UInt8, ∀ m : type.Carrier, input.length < 2 ^ 63 →
      Message.decode type.Carrier input = .ok m →
        Message.decode type.Carrier (Message.encode m) = .ok m := by
  -- A message is read back, or is nested too deeply for it.
  refine ⟨fun m => ⟨(Message.length_encode m).symm, fun hsize =>
    ⟨decode_encode_of_height_le (type.isReadBack m) hsize,
      decode_encode_of_lt_height (type.isReadBack m) hsize⟩⟩, fun input m hinput hm => ?_⟩
  -- What was decoded is no deeper than the limit, and at most twice as long as the input.
  obtain ⟨hlength, hheight⟩ :=
    bounds_of_decode (type.isBounded Message.depthLimit) type.records_empty hm
  have hsize : Message.encodedLength m < 2 ^ 64 := by omega
  exact decode_encode_of_height_le (type.isReadBack m) hsize hheight

/-- A message descriptor with a chain of `n` messages inside it. -/
def nest : (n : Nat) → MessageDescriptor
  | 0 => {}
  | n + 1 => { messages := [nest n] }

/-- Each message around another one adds a level. -/
theorem height_nest (n : Nat) : Message.height (nest n) = n := by
  induction n with
  | zero => rfl
  | succ n ih =>
    have hchain : Message.height (nest (n + 1)) = max (Message.height (nest n) + 1) 0 := rfl
    omega

/-- Each message of a chain adds a key and a length to what is inside it. -/
theorem encodedLength_nest_le {n : Nat} (h : n ≤ 1000) :
    Message.encodedLength (nest n) ≤ 11 * n := by
  induction n with
  | zero => exact Nat.le_refl 0
  | succ n ih =>
    have hinner := ih (by omega)
    -- A key, a length of ten bytes at most, and the message inside.
    have hten : Varint.size (Message.encodedLength (nest n)) ≤ 10 := by
      refine Varint.size_le_ten (Nat.lt_of_le_of_lt hinner ?_)
      show _ < 2 ^ 64
      omega
    have hchain : Message.encodedLength (nest (n + 1))
        = 1 + (Varint.size (Message.encodedLength (nest n)) + Message.encodedLength (nest n)) := rfl
    omega

/-- A version with a negative number, which is written with ten bytes. -/
def negativeVersion : Version := { major := some (-1), suffix := some "" }

/-- A chain of 100 messages is read back and one of 101 is refused. A negative number of five bytes
and an unknown field are read, and the version is written and read again. -/
theorem decode_encode_nest :
    Message.decode MessageDescriptor (Message.encode (nest 100)) = .ok (nest 100)
    ∧ (∃ e, Message.decode MessageDescriptor (Message.encode (nest 101)) = .error e
      ∧ e.fault = .depthReached)
    ∧ Message.decode Version [8, 255, 255, 255, 255, 15, 40, 1, 34, 0] = .ok negativeVersion
    ∧ Message.decode Version (Message.encode negativeVersion) = .ok negativeVersion := by
  have hsize : ∀ n ≤ 1000, Message.encodedLength (nest n) < 2 ^ 64 := by
    intro n hn
    have := encodedLength_nest_le hn
    omega
  -- The limit of the depth is met, and then passed by one.
  have hnested := (decode_encode .message).1 (nest 100)
  have hrefused := (decode_encode .message).1 (nest 101)
  have hdecode : Message.decode Version [8, 255, 255, 255, 255, 15, 40, 1, 34, 0]
      = .ok negativeVersion := rfl
  exact ⟨(hnested.2 (hsize 100 (by decide))).1 (Nat.le_of_eq (height_nest 100)),
    (hrefused.2 (hsize 101 (by decide))).2 (Nat.le_of_eq (height_nest 101).symm), hdecode,
    (decode_encode .version).2 _ negativeVersion (by decide) hdecode⟩

end ProtoSchema.Plugin
