import ProtoSchema.Proofs.Wire.WellFormedFields

/-!
# Unknown fields

A well-formed field whose number a message does not know leaves the message as it is, wherever it
stands between the other fields. For this the known fields have to end where they end whatever
follows them, which `Field.IsFramed` says; what is decoded is then a sequence of well-formed fields,
read one by one.

Key results:
* `isFramed_scalar`, `isFramed_message` — fields of single values and of embedded messages
* `decode_eq_ok_iff` — what is decoded, field by field
* `decode_append_unknown`, `decode_append_deep` — an unknown field between other bytes
* `decode_join_iff`, `exists_join_of_decode` — an input as a list of fields, of which the known ones
  count
-/

namespace ProtoSchema.Wire

variable {α σ τ : Type} {bs cs : List UInt8} {key : Key} {levels : Nat}

/-! ## Known fields -/

/-- What stands behind the key of a known field is well-formed. -/
def Field.IsFramed (field : Field σ) : Prop :=
  ∀ s, Consumes (field.merge s) fun _ bs => IsContent 1 ⟨field.number, field.wireType⟩ bs

/-- The bytes of a single value are well-formed behind every key of the kind. -/
def Scalar.IsFramed (kind : Scalar α) : Prop :=
  Consumes kind.read fun _ bs => ∀ number, IsContent 1 ⟨number, kind.wireType⟩ bs

namespace Scalar

/-- Integers are numbers on the wire. -/
theorem isFramed_int32 : int32.IsFramed :=
  Varint.consumes_read.map fun _ _ h _ => .varint h

theorem isFramed_uint64 : uint64.IsFramed :=
  Varint.consumes_read.map fun _ _ h _ => .varint h

/-- Truth values are numbers on the wire. -/
theorem isFramed_bool : bool.IsFramed :=
  Varint.consumes_read.map fun _ _ h _ => .varint h

/-- A run of bytes is a length and as many bytes. -/
theorem isFramed_bytes : bytes.IsFramed := by
  refine Varint.consumes_read.bind fun length bs hlength => ?_
  refine (consumes_take length _).mono fun payload cs h number => ?_
  rw [← h.2] at hlength
  exact .lengthDelimited hlength

/-- Texts are bytes on the wire, of which not all are texts. -/
theorem isFramed_text : text.IsFramed := by
  refine Consumes.bind isFramed_bytes fun payload bs h => ?_
  cases textOfBytes? payload with
  | none => exact consumes_fault _ _
  | some s =>
    refine consumes_pure ?_
    rw [List.append_nil]
    exact h

end Scalar

/-- A field of single values ends where its value ends. -/
theorem isFramed_scalar {kind : Scalar α} {number : Nat} {label : String} {put : α → σ → σ}
    (h : kind.IsFramed) : (Field.scalar number label kind put).IsFramed :=
  fun _ => Consumes.map h fun _ _ hcontent => hcontent number

section Loop

variable {name : String} {fields : List (Field σ)} {depth length : Nat} {s s' : σ}

/-- A field that is read is well-formed, whether it is known or not. -/
theorem consumes_mergeField (h : ∀ field ∈ fields, field.IsFramed) (name : String) (depth : Nat)
    (s : σ) :
    Consumes (mergeField name fields depth s) fun _ bs => ∃ levels key, IsField levels key bs := by
  refine Key.consumes_read.bind fun key bs hkey => ?_
  cases hfind : fields.find? (·.number == key.number) with
  -- An unknown field is skipped, and what is skipped is the content of a field.
  | none =>
    refine (consumes_skip depth key).map fun _ cs hcontent => ?_
    obtain ⟨levels, -, hcontent⟩ := hcontent
    exact ⟨levels, key, bs, cs, rfl, hkey, hcontent⟩
  | some field =>
    -- A known field is read only when its wire type is the declared one.
    have hnumber : field.number = key.number := by simpa using List.find?_some hfind
    refine Consumes.mapError ?_ _
    split
    · next hwire =>
      refine (h field (List.mem_of_find?_eq_some hfind) s).mono fun _ cs hcontent => ?_
      rw [hnumber, ← hwire] at hcontent
      exact ⟨1, key, bs, cs, rfl, hkey, hcontent⟩
    · exact consumes_fault _ _

/-- A step of reading a message stops at its end, or takes a field. -/
theorem consumes_mergeStep (h : ∀ field ∈ fields, field.IsFramed) (p : Nat × σ) :
    Consumes (mergeStep name fields depth p) fun o bs =>
      match o with
      | none => p.1 = 0 ∧ bs = []
      | some q =>
        p.1 = bs.length + q.1 ∧ bs ≠ [] ∧ Takes (mergeField name fields depth p.2) bs q.2 := by
  rw [mergeStep]
  split
  · next hzero => exact consumes_pure ⟨hzero, rfl⟩
  · refine (consumes_mergeField h name depth p.2).counted.bind fun q bs hq => ?_
    -- The step refuses a field that runs past the length it is given.
    obtain ⟨hcount, htakes, levels, key, hfield⟩ := hq
    split
    · exact consumes_fault _ _
    · refine consumes_pure ?_
      rw [List.append_nil]
      exact ⟨by omega, hfield.ne_nil, htakes⟩

/-- A step of reading a message that goes on takes a field. -/
theorem advances_mergeStep (h : ∀ field ∈ fields, field.IsFramed) (name : String) (depth : Nat) :
    Reader.Advances (mergeStep name fields depth) := by
  refine advances_of_consumes fun p => (consumes_mergeStep h p).mono fun o bs ho hsome => ?_
  obtain ⟨q, rfl⟩ := Option.isSome_iff_exists.1 hsome
  exact ho.2.1

/-- A message takes as many bytes as its length says, and they are fields that are merged one by
one. -/
theorem consumes_mergeWithin (h : ∀ field ∈ fields, field.IsFramed) (length : Nat) (s : σ) :
    Consumes (mergeWithin name fields depth length s) fun s' bs =>
      bs.length = length ∧ Merged (mergeField name fields depth) s bs s' := by
  have hloop : Consumes (Reader.iterate (mergeStep name fields depth) (length, s)) fun q bs =>
      bs.length = length ∧ Merged (mergeField name fields depth) s bs q.2 := by
    refine consumes_iterate
      (P := fun p bs q => bs.length = p.1 ∧ Merged (mergeField name fields depth) p.2 bs q.2)
      (advances_mergeStep h name depth) (fun p => (consumes_mergeStep h p).mono fun o bs ho => ?_)
      (length, s)
    cases o with
    | none =>
      obtain ⟨hzero, rfl⟩ := ho
      exact ⟨hzero.symm, .nil p.2⟩
    | some p' =>
      obtain ⟨hlength, hne, htakes⟩ := ho
      -- The rest of the loop merged `cs`; the step in front of it adds the bytes of one field.
      rintro cs q ⟨hlength', hmerged⟩
      refine ⟨?_, .cons hne htakes hmerged⟩
      rw [List.length_append]
      omega
  exact hloop.map fun _ _ hq => hq

/-- A message with its length in front is a length and as many bytes. -/
theorem consumes_mergeDelimited (h : ∀ field ∈ fields, field.IsFramed) (number : Nat) (s : σ) :
    Consumes (mergeDelimited name fields depth s) fun _ bs =>
      IsContent 1 ⟨number, .lengthDelimited⟩ bs := by
  intro input s' rest h'
  obtain ⟨length, mid, hlength, hrun⟩ := Reader.run_bind_eq_ok h'
  obtain ⟨start, rfl, htakes, hvarint⟩ := Varint.consumes_read input length mid hlength
  have hget : (get : ByteReader (List UInt8)).run mid = .ok (mid, mid) := rfl
  -- The reader looks at what remains only to refuse a length that is too large.
  rw [Reader.run_bind_of_ok hget] at hrun
  split at hrun
  · cases hrun
  · obtain ⟨bs, rfl, hmerge, hbs, -⟩ := consumes_mergeWithin h length s mid s' rest hrun
    subst hbs
    exact ⟨start ++ bs, by rw [List.append_assoc], htakes.mergeDelimited hmerge,
      .lengthDelimited hvarint⟩

/-- Behind merged fields, reading a message goes on with what they have made of it. -/
theorem Merged.run_mergeWithin (hadvances : Reader.Advances (mergeStep name fields depth))
    (h : Merged (mergeField name fields depth) s bs s') (rest : List UInt8) :
    (mergeWithin name fields depth (bs ++ rest).length s).run (bs ++ rest)
      = (mergeWithin name fields depth rest.length s').run rest := by
  -- The loop passes over the merged bytes field by field; the length it is given shrinks with them.
  have hloop : (Reader.iterate (mergeStep name fields depth) ((bs ++ rest).length, s)).run
      (bs ++ rest)
      = (Reader.iterate (mergeStep name fields depth) (rest.length, s')).run rest := by
    induction h with
    | nil s => rfl
    | @cons s s₁ s₂ bs cs hne hfirst hrest ih =>
      have hstep : Takes (mergeStep name fields depth ((bs ++ (cs ++ rest)).length, s)) bs
          (some ((cs ++ rest).length, s₁)) := takes_mergeStep hne hfirst
      rw [List.append_assoc, Reader.run_iterate_of_some hadvances (hstep (cs ++ rest)), ih]
  show (Reader.iterate (mergeStep name fields depth) _ >>= fun p => pure p.2).run _
    = (Reader.iterate (mergeStep name fields depth) _ >>= fun p => pure p.2).run _
  rw [StateT.run_bind, StateT.run_bind, hloop]

/-- A field that is not known is skipped. -/
theorem IsField.takes_mergeField (h : IsField levels key bs)
    (hfind : fields.find? (·.number == key.number) = none) (hle : levels ≤ depth) (name : String)
    (s : σ) : Takes (mergeField name fields depth s) bs s := by
  obtain ⟨start, content, rfl, hstart, hcontent⟩ := h
  refine (Key.takes_read hstart).bind ?_
  rw [hfind]
  exact (takes_skip hcontent hle).map fun _ => s

/-- A field that is not known is refused when it has too many levels. -/
theorem IsField.exhausts_mergeField (h : IsField levels key bs)
    (hfind : fields.find? (·.number == key.number) = none) (hlt : depth < levels) (name : String)
    (s : σ) : Exhausts (mergeField name fields depth s) bs := by
  obtain ⟨start, content, rfl, hstart, hcontent⟩ := h
  refine (Key.takes_read hstart).bind_exhausts ?_
  rw [hfind]
  exact (exhausts_skip hcontent hlt).bind _

end Loop

/-! ## Messages -/

/-- At a remaining depth all fields of a message are framed. -/
def Message.IsFramed (σ : Type) [Message σ] (depth : Nat) : Prop :=
  ∀ field ∈ Message.fields (σ := σ) depth, field.IsFramed

/-- A field of embedded messages is framed where their fields are, one level deeper. -/
theorem isFramed_message [Message τ] {number : Nat} {label : String} {start : σ → τ}
    {put : τ → σ → σ} {depth : Nat} (hinner : ∀ inner < depth, Message.IsFramed τ inner) :
    (Field.message number label (Message.embedded τ depth) start put).IsFramed := by
  intro s
  cases depth with
  | zero => exact (consumes_fault .depthReached fun _ _ => False).bind fun _ _ h => h.elim
  | succ inner =>
    exact (consumes_mergeDelimited (hinner inner (Nat.lt_succ_self inner)) number (start s)).map
      fun _ _ hcontent => hcontent

section Message

variable [Message σ]

/-- The numbers of the fields that a message knows. -/
def Message.numbers (σ : Type) [Message σ] : List Nat :=
  (Message.fields (σ := σ) Message.depthLimit).map (·.number)

/-- A number that is not known belongs to no field. -/
theorem find?_eq_none_of_notMem {number : Nat} (h : number ∉ Message.numbers σ) :
    (Message.fields (σ := σ) Message.depthLimit).find? (·.number == number) = none := by
  refine List.find?_eq_none.2 fun field hmem hnumber => h ?_
  exact List.mem_map.2 ⟨field, hmem, by simpa using hnumber⟩

variable (hframed : Message.IsFramed σ Message.depthLimit) {m s : σ} {x y u : List UInt8}

include hframed

/-- A whole input is decoded to what its fields make of an empty message. -/
theorem decode_eq_ok_iff :
    Message.decode σ x = .ok m ↔ MergedAt Message.depthLimit Message.empty x m := by
  refine ⟨fun h => ?_, decode_of_merged⟩
  obtain ⟨rest, hrun⟩ := exists_run_of_decode h
  obtain ⟨bs, hx, -, hlength, hmerged⟩ := consumes_mergeWithin hframed _ _ x m rest hrun
  -- As many bytes are taken as there are.
  have hrest : rest = [] := by
    have hsum := congrArg List.length hx
    rw [List.length_append] at hsum
    exact List.length_eq_zero_iff.1 (by omega)
  rw [hrest, List.append_nil] at hx
  rwa [hx]

/-- What decoding makes of an input behind fields depends on what the fields have made. -/
theorem decode_append_of_merged (h : MergedAt Message.depthLimit Message.empty x s) :
    Message.decode σ (x ++ y)
      = ((mergeWithin (Message.name σ) (Message.fields Message.depthLimit) Message.depthLimit
          y.length s).run y).map Prod.fst :=
  congrArg (Except.map Prod.fst)
    (h.run_mergeWithin (advances_mergeStep hframed _ _) y)

/-- A field that is not known, behind what is decoded, changes nothing: what follows is decoded as
it would have been without it, or is refused with the same error. -/
theorem decode_append_unknown (hx : Message.decode σ x = .ok m) (hu : IsField levels key u)
    (hunknown : key.number ∉ Message.numbers σ) (hle : levels ≤ Message.depthLimit) :
    Message.decode σ (x ++ u ++ y) = Message.decode σ (x ++ y) := by
  have hmerged := (decode_eq_ok_iff hframed).1 hx
  have hskipped : MergedAt Message.depthLimit m u m :=
    .single hu.ne_nil (hu.takes_mergeField (find?_eq_none_of_notMem hunknown) hle _ m)
  rw [decode_append_of_merged hframed (hmerged.append hskipped),
    decode_append_of_merged hframed hmerged]

/-- With too many levels it is refused. -/
theorem decode_append_deep (hx : Message.decode σ x = .ok m) (hu : IsField levels key u)
    (hunknown : key.number ∉ Message.numbers σ) (hlt : Message.depthLimit < levels) :
    ∃ e, Message.decode σ (x ++ u ++ y) = .error e ∧ e.fault = .depthReached := by
  have hmerged := (decode_eq_ok_iff hframed).1 hx
  have hdeep : Overflows (mergeField (Message.name σ) (Message.fields Message.depthLimit)
      Message.depthLimit) m u :=
    .here hu.ne_nil (hu.exhausts_mergeField (find?_eq_none_of_notMem hunknown) hlt _ m)
  exact decode_of_overflows ((hmerged.append_overflows hdeep).append y)

end Message

/-! ## Inputs as lists of fields -/

/-- A well-formed field with its bytes. -/
structure WireField where
  key : Key
  levels : Nat
  bytes : List UInt8
  isField : IsField levels key bytes

namespace WireField

/-- The bytes of fields one after the other. -/
def join (fs : List WireField) : List UInt8 :=
  fs.flatMap bytes

/-- A field with a payload behind its length. -/
def delimited (number : Nat) (hpos : 0 < number) (hlt : number < Key.numberBound)
    (payload : List UInt8) (h : payload.length < UInt64.size) : WireField where
  key := ⟨number, .lengthDelimited⟩
  levels := 1
  bytes := Key.encode ⟨number, .lengthDelimited⟩ ++ (Varint.encode payload.length ++ payload)
  isField := ⟨_, _, rfl, isKey_encode hpos hlt, .lengthDelimited (Varint.isVarint_encode h)⟩

/-- A group with one field in it. -/
def inGroup (number : Nat) (hpos : 0 < number) (hlt : number < Key.numberBound) (f : WireField) :
    WireField where
  key := ⟨number, .startGroup⟩
  levels := f.levels + 1
  bytes := Key.encode ⟨number, .startGroup⟩ ++ (f.bytes ++ Key.encode ⟨number, .endGroup⟩)
  isField := ⟨_, _, rfl, isKey_encode hpos hlt, .group f.isField.isFields (isKey_encode hpos hlt)⟩

/-- The fields that a message knows. -/
def known (σ : Type) [Message σ] (fs : List WireField) : List WireField :=
  fs.filter fun f => f.key.number ∈ Message.numbers σ

end WireField

section Message

variable [Message σ] (hframed : Message.IsFramed σ Message.depthLimit) {m : σ} {x : List UInt8}

include hframed

/-- The first field is merged first, and it is merged alone. -/
theorem mergedAt_append_iff (hfield : IsField levels key bs) (s : σ) :
    MergedAt Message.depthLimit s (bs ++ cs) m
      ↔ ∃ t, Takes (mergeField (Message.name σ) (Message.fields Message.depthLimit)
          Message.depthLimit s) bs t ∧ MergedAt Message.depthLimit t cs m := by
  constructor
  · intro hmerged
    generalize hinput : bs ++ cs = input at hmerged
    cases hmerged with
    | nil => exact absurd (List.append_eq_nil_iff.1 hinput).1 hfield.ne_nil
    | @cons _ t _ ds es hne hfirst hrest =>
      -- The bytes that were taken first are a field too, so they are the same field.
      obtain ⟨levels', key', hfield'⟩ := (consumes_mergeField hframed _ _ s).of_takes hfirst
      obtain rfl : bs = ds := hfield.append_inj hfield' hinput
      obtain rfl : cs = es := List.append_cancel_left hinput
      exact ⟨t, hfirst, hrest⟩
  · rintro ⟨t, hfirst, hrest⟩
    exact .cons hfield.ne_nil hfirst hrest

/-- A first field that is not known leaves the message as it is, or is refused. -/
theorem mergedAt_append_iff_of_unknown (hfield : IsField levels key bs)
    (hunknown : key.number ∉ Message.numbers σ) (s : σ) :
    MergedAt Message.depthLimit s (bs ++ cs) m
      ↔ levels ≤ Message.depthLimit ∧ MergedAt Message.depthLimit s cs m := by
  have hfind := find?_eq_none_of_notMem hunknown
  constructor
  · intro h
    obtain ⟨t, htakes, hmerged⟩ := (mergedAt_append_iff hframed hfield s).1 h
    have hrun := htakes []
    -- A field nested too deeply would have failed to be skipped.
    have hle : levels ≤ Message.depthLimit := by
      refine Nat.le_of_not_lt fun hlt => ?_
      obtain ⟨e, he, -⟩ := hfield.exhausts_mergeField hfind hlt (Message.name σ) s []
      rw [he] at hrun
      cases hrun
    -- Skipping leaves the message as it was, so `t` is `s`.
    rw [hfield.takes_mergeField hfind hle (Message.name σ) s []] at hrun
    cases hrun
    exact ⟨hle, hmerged⟩
  · rintro ⟨hle, hmerged⟩
    exact .cons hfield.ne_nil (hfield.takes_mergeField hfind hle _ s) hmerged

/-- Fields are merged as the known ones among them are, when no other one has too many levels. -/
theorem mergedAt_join_iff (fs : List WireField) (s : σ) :
    MergedAt Message.depthLimit s (WireField.join fs) m
      ↔ (∀ f ∈ fs, f.key.number ∉ Message.numbers σ → f.levels ≤ Message.depthLimit)
        ∧ MergedAt Message.depthLimit s (WireField.join (WireField.known σ fs)) m := by
  induction fs generalizing s with
  | nil => simp [WireField.known]
  | cons f fs ih =>
    have hjoin : ∀ fs, WireField.join (f :: fs) = f.bytes ++ WireField.join fs := fun _ => rfl
    rw [hjoin, List.forall_mem_cons]
    by_cases hknown : f.key.number ∈ Message.numbers σ
    -- A known field stays in the list: both sides merge it first and go on from the same message.
    · have hfilter : WireField.known σ (f :: fs) = f :: WireField.known σ fs :=
        List.filter_cons_of_pos (by simpa using hknown)
      rw [hfilter, hjoin, mergedAt_append_iff hframed f.isField,
        mergedAt_append_iff hframed f.isField]
      constructor
      · rintro ⟨t, htakes, hmerged⟩
        obtain ⟨hlevels, hrest⟩ := (ih t).1 hmerged
        exact ⟨⟨fun hunknown => absurd hknown hunknown, hlevels⟩, t, htakes, hrest⟩
      · rintro ⟨⟨-, hlevels⟩, t, htakes, hmerged⟩
        exact ⟨t, htakes, (ih t).2 ⟨hlevels, hmerged⟩⟩
    -- An unknown field is dropped from the right-hand list; the left-hand side only asks for its
    -- depth.
    · have hfilter : WireField.known σ (f :: fs) = WireField.known σ fs :=
        List.filter_cons_of_neg (by simpa using hknown)
      rw [hfilter, mergedAt_append_iff_of_unknown hframed f.isField hknown, ih]
      constructor
      · rintro ⟨hle, hlevels, hmerged⟩
        exact ⟨⟨fun _ => hle, hlevels⟩, hmerged⟩
      · rintro ⟨⟨hle, hlevels⟩, hmerged⟩
        exact ⟨hle hknown, hlevels, hmerged⟩

/-- Fields are decoded as the known ones among them are, when no other one has too many levels. -/
theorem decode_join_iff (fs : List WireField) :
    Message.decode σ (WireField.join fs) = .ok m
      ↔ (∀ f ∈ fs, f.key.number ∉ Message.numbers σ → f.levels ≤ Message.depthLimit)
        ∧ Message.decode σ (WireField.join (WireField.known σ fs)) = .ok m := by
  rw [decode_eq_ok_iff hframed, decode_eq_ok_iff hframed, mergedAt_join_iff hframed]

/-- Whatever is decoded is a list of well-formed fields. -/
theorem exists_join_of_decode (h : Message.decode σ x = .ok m) :
    ∃ fs : List WireField, x = WireField.join fs := by
  -- Each of the merged parts is a field.
  have hfields : ∀ {s t : σ} {bs : List UInt8}, MergedAt Message.depthLimit s bs t →
      ∃ fs : List WireField, bs = WireField.join fs := by
    intro s t bs hmerged
    induction hmerged with
    | nil s => exact ⟨[], rfl⟩
    | cons hne hfirst hrest ih =>
      obtain ⟨levels, key, hfield⟩ := (consumes_mergeField hframed _ _ _).of_takes hfirst
      obtain ⟨fs, rfl⟩ := ih
      exact ⟨⟨key, levels, _, hfield⟩ :: fs, rfl⟩
  exact hfields ((decode_eq_ok_iff hframed).1 h)

end Message

end ProtoSchema.Wire
