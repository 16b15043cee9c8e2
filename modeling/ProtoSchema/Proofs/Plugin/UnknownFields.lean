import ProtoSchema.Plugin.Codec
import ProtoSchema.Proofs.Wire.UnknownFields

/-!
# Unknown fields in messages of the protocol

A compiler sends more than this generator knows: every descriptor has further fields and options.
They are skipped, whatever they hold, so that only the known fields of a message count.

Key results:
* `MessageType.isFramed` — the fields of every message type end where their own bytes say so
* `decode_unknown_fields` — unknown fields may be put in or left out
-/

namespace ProtoSchema.Plugin

open ProtoSchema.Wire ProtoSchema.Wire.Scalar

/-! ## The fields of every message type -/

/-- The fields of a version are framed: three numbers and a text. -/
theorem isFramed_version (depth : Nat) : Message.IsFramed Version depth := by
  simp only [Message.IsFramed, Message.fields, List.forall_mem_cons]
  exact ⟨isFramed_scalar isFramed_int32, isFramed_scalar isFramed_int32,
    isFramed_scalar isFramed_int32, isFramed_scalar isFramed_text, List.forall_mem_nil _⟩

theorem isFramed_enumValue (depth : Nat) : Message.IsFramed EnumValue depth := by
  simp only [Message.IsFramed, Message.fields, List.forall_mem_cons]
  exact ⟨isFramed_scalar isFramed_text, isFramed_scalar isFramed_int32, List.forall_mem_nil _⟩

theorem isFramed_enumDescriptor (depth : Nat) : Message.IsFramed EnumDescriptor depth := by
  simp only [Message.IsFramed, Message.fields, List.forall_mem_cons]
  exact ⟨isFramed_scalar isFramed_text, isFramed_message fun inner _ => isFramed_enumValue inner,
    List.forall_mem_nil _⟩

theorem isFramed_messageOptions (depth : Nat) : Message.IsFramed MessageOptions depth := by
  simp only [Message.IsFramed, Message.fields, List.forall_mem_cons]
  exact ⟨isFramed_scalar isFramed_bool, List.forall_mem_nil _⟩

theorem isFramed_fieldOptions (depth : Nat) : Message.IsFramed FieldOptions depth := by
  simp only [Message.IsFramed, Message.fields, List.forall_mem_cons]
  exact ⟨isFramed_scalar isFramed_bytes, isFramed_scalar isFramed_bytes, List.forall_mem_nil _⟩

/-- The fields of a field are framed, down to those of its options. -/
theorem isFramed_fieldDescriptor (depth : Nat) : Message.IsFramed FieldDescriptor depth := by
  simp only [Message.IsFramed, Message.fields, List.forall_mem_cons]
  exact ⟨isFramed_scalar isFramed_text, isFramed_scalar isFramed_int32,
    isFramed_scalar isFramed_int32, isFramed_scalar isFramed_int32, isFramed_scalar isFramed_text,
    isFramed_message fun inner _ => isFramed_fieldOptions inner, isFramed_scalar isFramed_bool,
    List.forall_mem_nil _⟩

/-- By induction on the depth: the messages inside a message descriptor are one level deeper. -/
theorem isFramed_messageDescriptor (depth : Nat) : Message.IsFramed MessageDescriptor depth := by
  induction depth using Nat.strongRecOn with
  | ind depth ih =>
    have hfields : Message.fields (σ := MessageDescriptor) depth
        = MessageDescriptor.fieldsWith depth (Message.embedded MessageDescriptor depth) :=
      MessageDescriptor.knownFields_eq depth
    -- The nested messages are read with less depth, by the induction hypothesis.
    simp only [Message.IsFramed, hfields, MessageDescriptor.fieldsWith, List.forall_mem_cons]
    exact ⟨isFramed_scalar isFramed_text,
      isFramed_message fun inner _ => isFramed_fieldDescriptor inner, isFramed_message ih,
      isFramed_message fun inner _ => isFramed_enumDescriptor inner,
      isFramed_message fun inner _ => isFramed_messageOptions inner, List.forall_mem_nil _⟩

/-- The fields of a file are framed, down to those of nested messages. -/
theorem isFramed_fileDescriptor (depth : Nat) : Message.IsFramed FileDescriptor depth := by
  simp only [Message.IsFramed, Message.fields, List.forall_mem_cons]
  exact ⟨isFramed_scalar isFramed_text, isFramed_scalar isFramed_text,
    isFramed_message fun inner _ => isFramed_messageDescriptor inner,
    isFramed_message fun inner _ => isFramed_enumDescriptor inner, isFramed_scalar isFramed_text,
    List.forall_mem_nil _⟩

/-- The fields of a request are framed, down to those of its files. -/
theorem isFramed_request (depth : Nat) : Message.IsFramed Request depth := by
  simp only [Message.IsFramed, Message.fields, List.forall_mem_cons]
  exact ⟨isFramed_scalar isFramed_text, isFramed_scalar isFramed_text,
    isFramed_message fun inner _ => isFramed_version inner,
    isFramed_message fun inner _ => isFramed_fileDescriptor inner, List.forall_mem_nil _⟩

theorem isFramed_outputFile (depth : Nat) : Message.IsFramed OutputFile depth := by
  simp only [Message.IsFramed, Message.fields, List.forall_mem_cons]
  exact ⟨isFramed_scalar isFramed_text, isFramed_scalar isFramed_text,
    isFramed_scalar isFramed_text, List.forall_mem_nil _⟩

theorem isFramed_response (depth : Nat) : Message.IsFramed Response depth := by
  simp only [Message.IsFramed, Message.fields, List.forall_mem_cons]
  exact ⟨isFramed_scalar isFramed_text, isFramed_scalar isFramed_uint64,
    isFramed_message fun inner _ => isFramed_outputFile inner, List.forall_mem_nil _⟩

theorem isFramed_fieldConstraints (depth : Nat) : Message.IsFramed FieldConstraints depth := by
  simp only [Message.IsFramed, Message.fields, List.forall_mem_cons]
  exact ⟨isFramed_scalar isFramed_text, isFramed_scalar isFramed_bool,
    isFramed_scalar isFramed_bool, isFramed_scalar isFramed_text, List.forall_mem_nil _⟩

theorem isFramed_stringRules (depth : Nat) : Message.IsFramed StringRules depth := by
  simp only [Message.IsFramed, Message.fields, List.forall_mem_cons]
  exact ⟨isFramed_scalar isFramed_bool, List.forall_mem_nil _⟩

theorem isFramed_fieldRules (depth : Nat) : Message.IsFramed FieldRules depth := by
  simp only [Message.IsFramed, Message.fields, List.forall_mem_cons]
  exact ⟨isFramed_message fun inner _ => isFramed_stringRules inner, isFramed_scalar isFramed_bool,
    List.forall_mem_nil _⟩

/-- The fields of every message type end where their own bytes say so. -/
theorem MessageType.isFramed : (type : MessageType) → (depth : Nat) →
    Message.IsFramed type.Carrier depth
  | version, depth => isFramed_version depth
  | request, depth => isFramed_request depth
  | response, depth => isFramed_response depth
  | outputFile, depth => isFramed_outputFile depth
  | file, depth => isFramed_fileDescriptor depth
  | message, depth => isFramed_messageDescriptor depth
  | messageOptions, depth => isFramed_messageOptions depth
  | field, depth => isFramed_fieldDescriptor depth
  | fieldOptions, depth => isFramed_fieldOptions depth
  | enum, depth => isFramed_enumDescriptor depth
  | enumValue, depth => isFramed_enumValue depth
  | fieldConstraints, depth => isFramed_fieldConstraints depth
  | fieldRules, depth => isFramed_fieldRules depth
  | stringRules, depth => isFramed_stringRules depth

/-! ## Decoding with and without unknown fields -/

/-- A message of no bytes is empty. A well-formed field with an unknown number and at most 100
levels may stand behind anything that is decoded: what follows is decoded to the same message, or
refused with the same error, as without it. With more levels it is refused. So a list of fields is
decoded as its known fields are, and every input that is decoded is such a list. -/
theorem decode_unknown_fields (type : MessageType) :
    Message.decode type.Carrier [] = .ok Message.empty
    ∧ (∀ (x y : List UInt8) (u : WireField), (∃ m, Message.decode type.Carrier x = .ok m) →
      u.key.number ∉ Message.numbers type.Carrier →
        (u.levels ≤ 100 → Message.decode type.Carrier (x ++ u.bytes ++ y)
          = Message.decode type.Carrier (x ++ y))
        ∧ (100 < u.levels → ∃ e, Message.decode type.Carrier (x ++ u.bytes ++ y) = .error e
          ∧ e.fault = .depthReached))
    ∧ (∀ (fs : List WireField) (m : type.Carrier),
      Message.decode type.Carrier (WireField.join fs) = .ok m
        ↔ (∀ f ∈ fs, f.key.number ∉ Message.numbers type.Carrier → f.levels ≤ 100)
          ∧ Message.decode type.Carrier (WireField.join (WireField.known type.Carrier fs)) = .ok m)
    ∧ ∀ (x : List UInt8) (m : type.Carrier), Message.decode type.Carrier x = .ok m →
      ∃ fs : List WireField, x = WireField.join fs := by
  have hframed := type.isFramed Message.depthLimit
  refine ⟨decode_of_merged (.nil Message.empty), fun x y u hx hunknown => ?_,
    fun fs m => decode_join_iff hframed fs, fun x m h => exists_join_of_decode hframed h⟩
  -- What stands in front was decoded, so it ends where a field may start.
  obtain ⟨m, hm⟩ := hx
  exact ⟨decode_append_unknown hframed hm u.isField hunknown,
    decode_append_deep hframed hm u.isField hunknown⟩

/-- The field of the compiler's version in a request, with one number in it. -/
def versionField (number value : UInt8) : WireField :=
  .delimited 3 (by decide) (by decide) [number, value] (show 2 < UInt64.size by decide)

/-- Groups of the number 5 inside each other, with a field inside that a request would know. -/
def nestedGroups : (n : Nat) → WireField
  | 0 => versionField 8 9
  | n + 1 => (nestedGroups n).inGroup 5 (by decide) (by decide)

/-- Each group around another one adds a level. -/
theorem levels_nestedGroups (n : Nat) : (nestedGroups n).levels = n + 1 := by
  induction n with
  | zero => rfl
  | succ n ih => exact congrArg Nat.succ ih

/-- Between the two parts of a version, 99 groups inside each other are skipped and 100 are refused.
What is in them is not taken for a field of the request. -/
theorem decode_unknown_fields_groups :
    Message.decode Request ([26, 2, 8, 3] ++ (nestedGroups 99).bytes ++ [26, 2, 16, 1])
        = .ok { compilerVersion := some { major := some 3, minor := some 1 } }
      ∧ Message.decode Request ([26, 2, 8, 3] ++ (nestedGroups 99).bytes ++ [255])
        = .error ⟨.invalidVarint, []⟩
      ∧ (∃ e, Message.decode Request ([26, 2, 8, 3] ++ (nestedGroups 100).bytes ++ [26, 2, 16, 1])
        = .error e ∧ e.fault = .depthReached)
      ∧ Message.decode Request
          (WireField.join [nestedGroups 99, versionField 8 3, nestedGroups 1, versionField 16 1])
        = .ok { compilerVersion := some { major := some 3, minor := some 1 } } := by
  obtain ⟨-, hskip, hjoin, -⟩ := decode_unknown_fields .request
  have hx : ∃ m, Message.decode Request [26, 2, 8, 3] = .ok m := ⟨_, rfl⟩
  -- With 100 levels a group is skipped, with one more it is refused.
  have hlevels : (nestedGroups 99).levels ≤ 100 := Nat.le_of_eq (levels_nestedGroups 99)
  have hdeep : 100 < (nestedGroups 100).levels := Nat.le_of_eq (levels_nestedGroups 100).symm
  refine ⟨?_, ?_, ?_, ?_⟩
  · exact ((hskip _ _ (nestedGroups 99) hx (by decide)).1 hlevels).trans rfl
  · exact ((hskip _ _ (nestedGroups 99) hx (by decide)).1 hlevels).trans rfl
  · exact (hskip _ _ (nestedGroups 100) hx (by decide)).2 hdeep
  · refine (hjoin _ _).2 ⟨?_, rfl⟩
    simp only [List.forall_mem_cons]
    exact ⟨fun _ => hlevels, fun _ => by decide, fun _ => by decide, fun _ => by decide,
      List.forall_mem_nil _⟩

end ProtoSchema.Plugin
