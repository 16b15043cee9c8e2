import ProtoSchema.Wire.Message

/-!
# Merging bytes put together from parts

What a reader takes from the front of the input depends on those bytes only. `Takes r bs a` says
that `r` takes the bytes `bs` and gives `a`, whatever follows; `Merged m s bs s'` says that the
bytes `bs` are fields, which `m` merges one by one into `s` until it has become `s'`.

Key results:
* `run_mergeField`, `run_mergeDelimited` — what is run behind a key or a length
* `takes_mergeField` — a known field is merged as its kind says
* `takes_mergeWithin`, `decode_of_merged` — a message is merged field by field
* `merged_records` — the record of a single value is merged into the field of its number
* `merged_embedded` — an embedded message is merged into the one that was there before
-/

namespace ProtoSchema.Wire

variable {α β σ τ : Type}

/-- The reader `r` takes the bytes `bs` and gives `a`, whatever follows. -/
def Takes (r : ByteReader α) (bs : List UInt8) (a : α) : Prop :=
  ∀ rest, r.run (bs ++ rest) = .ok (a, rest)

/-! ## One reader behind another -/

/-- A reader that takes nothing. -/
theorem takes_pure (a : α) : Takes (pure a) [] a :=
  fun _ => rfl

/-- A second reader goes on behind the first. -/
theorem Takes.bind {r : ByteReader α} {f : α → ByteReader β} {bs cs : List UInt8} {a : α} {b : β}
    (hr : Takes r bs a) (hf : Takes (f a) cs b) : Takes (r >>= f) (bs ++ cs) b := by
  intro rest
  rw [List.append_assoc, Reader.run_bind_of_ok (hr (cs ++ rest))]
  exact hf rest

/-- A second reader takes nothing behind the first. -/
theorem Takes.bind_last {r : ByteReader α} {f : α → ByteReader β} {bs : List UInt8} {a : α} {b : β}
    (hr : Takes r bs a) (hf : Takes (f a) [] b) : Takes (r >>= f) bs b := by
  have h := hr.bind hf
  rwa [List.append_nil] at h

/-- A value is made of what is read. -/
theorem Takes.map {r : ByteReader α} {bs : List UInt8} {a : α} (hr : Takes r bs a) (f : α → β) :
    Takes (r >>= fun x => pure (f x)) bs (f a) :=
  hr.bind_last (takes_pure (f a))

/-- Counting gives the number of bytes that are taken. -/
theorem Takes.counted {r : ByteReader α} {bs : List UInt8} {a : α} (hr : Takes r bs a) :
    Takes (Reader.counted r) bs (a, bs.length) := by
  intro rest
  rw [Reader.run_counted (hr rest)]
  simp

/-- An error that does not arise may be changed. -/
theorem Takes.mapError {r : ByteReader α} {bs : List UInt8} {a : α} (hr : Takes r bs a)
    (f : DecodeError → DecodeError) : Takes (Reader.mapError f r) bs a := by
  intro rest
  have h : r (bs ++ rest) = .ok (a, rest) := hr rest
  show (r (bs ++ rest)).mapError f = .ok (a, rest)
  rw [h]
  rfl

/-- Bytes are taken by their number. -/
theorem takes_take (bs : List UInt8) (e : DecodeError) : Takes (Reader.take bs.length e) bs bs := by
  intro rest
  simp [Reader.take, StateT.run]

/-! ## Single values -/

/-- A value of a kind is read back from the record it is written as. -/
def Scalar.IsReadBack (kind : Scalar α) (value : α) : Prop :=
  ∃ bs, (∀ number, (kind.record number value).encode = Key.encode ⟨number, kind.wireType⟩ ++ bs)
    ∧ Takes kind.read bs value

/-- A length and that many bytes. -/
theorem takes_readBytes {bs : List UInt8} (h : bs.length < UInt64.size) :
    Takes Scalar.readBytes (Varint.encode bs.length ++ bs) bs :=
  Takes.bind (Varint.read_encode h) (takes_take bs _)

/-- Bytes are read back when they can be counted with 64 bits. -/
theorem isReadBack_bytes {bs : List UInt8} (h : bs.length < UInt64.size) :
    Scalar.bytes.IsReadBack bs :=
  ⟨Varint.encode bs.length ++ bs, fun _ => rfl, takes_readBytes h⟩

/-- Text is read back from its bytes in UTF-8. -/
theorem isReadBack_text {s : String} (h : (Scalar.bytesOfText s).length < UInt64.size) :
    Scalar.text.IsReadBack s := by
  refine ⟨Varint.encode (Scalar.bytesOfText s).length ++ Scalar.bytesOfText s, fun _ => rfl, ?_⟩
  refine (takes_readBytes h).bind_last ?_
  rw [Scalar.textOfBytes?_bytesOfText]
  exact takes_pure s

/-- A truth value is read back. -/
theorem isReadBack_bool (b : Bool) : Scalar.bool.IsReadBack b := by
  refine ⟨Varint.encode b.toNat, fun _ => rfl, ?_⟩
  have hb : b.toNat < UInt64.size := Nat.lt_of_lt_of_le b.toNat_lt (by decide)
  have hread := Takes.map (Varint.read_encode hb) (· != 0)
  have hvalue : (b.toNat != 0) = b := by
    cases b <;> rfl
  rw [hvalue] at hread
  exact hread

/-! ## Fields -/

/-- Behind the key of a known field, its value is read as its kind says. -/
theorem run_mergeField {fields : List (Field σ)} {field : Field σ} {number : Nat}
    (hpos : 0 < number) (hlt : number < Key.numberBound)
    (hfind : fields.find? (·.number == number) = some field) (name : String) (depth : Nat) (s : σ)
    (input : List UInt8) :
    (mergeField name fields depth s).run (Key.encode ⟨number, field.wireType⟩ ++ input)
      = (Reader.mapError (DecodeError.within ⟨name, field.name⟩) (field.merge s)).run input := by
  have hkey : Key.read.run (Key.encode ⟨number, field.wireType⟩ ++ input)
      = .ok (⟨number, field.wireType⟩, input) := Key.read_encode hpos hlt input
  rw [mergeField, Reader.run_bind_of_ok hkey]
  simp only [hfind, ↓reduceIte]

/-- A known field is merged as its kind says, behind its key. -/
theorem takes_mergeField {fields : List (Field σ)} {field : Field σ} {number : Nat}
    (hpos : 0 < number) (hlt : number < Key.numberBound)
    (hfind : fields.find? (·.number == number) = some field) (name : String) (depth : Nat)
    {s s' : σ} {bs : List UInt8} (h : Takes (field.merge s) bs s') :
    Takes (mergeField name fields depth s) (Key.encode ⟨number, field.wireType⟩ ++ bs) s' := by
  intro rest
  rw [List.append_assoc, run_mergeField hpos hlt hfind]
  exact h.mapError _ rest

/-- The bytes are fields, which `m` merges one by one into `s` until it has become `s'`. -/
inductive Merged (m : Merge σ) : σ → List UInt8 → σ → Prop
  | nil (s : σ) : Merged m s [] s
  | cons {s s' s'' : σ} {bs cs : List UInt8} (hne : bs ≠ []) (hfirst : Takes (m s) bs s')
      (hrest : Merged m s' cs s'') : Merged m s (bs ++ cs) s''

namespace Merged

variable {m : Merge σ} {s s' s'' : σ} {bs cs : List UInt8}

/-- A single field. -/
theorem single (hne : bs ≠ []) (h : Takes (m s) bs s') : Merged m s bs s' := by
  simpa using cons hne h (nil s')

/-- What it has become may be said in other words. -/
theorem of_eq (h : Merged m s bs s') (heq : s' = s'') : Merged m s bs s'' :=
  heq ▸ h

/-- More fields are merged into what the first have made. -/
theorem append (h : Merged m s bs s') (h' : Merged m s' cs s'') : Merged m s (bs ++ cs) s'' := by
  induction h with
  | nil s => exact h'
  | cons hne hfirst hrest ih =>
    rw [List.append_assoc]
    exact cons hne hfirst (ih h')

end Merged

/-- A key is not empty. -/
theorem key_encode_append_ne_nil (key : Key) (bs : List UInt8) : Key.encode key ++ bs ≠ [] := by
  intro h
  have hlen := congrArg List.length h
  rw [List.length_append, Key.encode, Varint.length_encode, Varint.size, List.length_nil] at hlen
  omega

section Loop

/-- One step of reading a message: the next field, of which the bytes that are left have to hold
the end. -/
def mergeStep (name : String) (fields : List (Field σ)) (depth : Nat) (p : Nat × σ) :
    ByteReader (Option (Nat × σ)) :=
  if p.1 = 0 then pure none
  else do
    let q ← Reader.counted (mergeField name fields depth p.2)
    if p.1 < q.2 then fault .lengthExceeded else pure (some (p.1 - q.2, q.1))

variable {name : String} {fields : List (Field σ)} {depth : Nat} {s s' : σ} {bs cs : List UInt8}

/-- A field with bytes behind it is merged in one step. -/
theorem takes_mergeStep (hne : bs ≠ []) (h : Takes (mergeField name fields depth s) bs s') :
    Takes (mergeStep name fields depth ((bs ++ cs).length, s)) bs (some (cs.length, s')) := by
  have hpos : 0 < bs.length := List.length_pos_iff.2 hne
  have hlength : (bs ++ cs).length = bs.length + cs.length := List.length_append
  rw [mergeStep, if_neg (by omega)]
  -- The field takes no more than is left, so the step goes on with the rest of the length.
  apply h.counted.bind_last
  simp only [hlength, if_neg (show ¬bs.length + cs.length < bs.length by omega),
    Nat.add_sub_cancel_left]
  exact takes_pure _

/-- A message is merged field by field, up to its length. -/
theorem takes_mergeWithin (h : Merged (mergeField name fields depth) s bs s') :
    Takes (mergeWithin name fields depth bs.length s) bs s' := by
  -- As many steps as there are bytes are enough, and one for the end.
  have hloop : ∀ (fuel : Nat) (rest : List UInt8), bs.length < fuel →
      (Reader.iterateUpTo (mergeStep name fields depth) fuel (bs.length, s)).run (bs ++ rest)
        = .ok ((0, s'), rest) := by
    induction h with
    | nil s =>
      intro fuel rest hfuel
      obtain ⟨fuel, rfl⟩ : ∃ n, fuel = n + 1 := ⟨fuel - 1, by omega⟩
      rfl
    | @cons s s₁ s₂ bs cs hne hfirst hrest ih =>
      intro fuel rest hfuel
      obtain ⟨fuel, rfl⟩ : ∃ n, fuel = n + 1 := ⟨fuel - 1, by omega⟩
      have hpos : 0 < bs.length := List.length_pos_iff.2 hne
      rw [List.length_append] at hfuel
      rw [List.append_assoc, Reader.iterateUpTo,
        Reader.run_bind_of_ok (takes_mergeStep hne hfirst (cs ++ rest))]
      exact ih fuel rest (by omega)
  intro rest
  have hrun := hloop ((bs ++ rest).length + 1) rest (by rw [List.length_append]; omega)
  exact Reader.run_bind_of_ok (f := fun p : Nat × σ => pure p.2) hrun

/-- Behind the length of a message, its fields are read. -/
theorem run_mergeDelimited {start : List UInt8} (hstart : Takes Varint.read start bs.length)
    (rest : List UInt8) :
    (mergeDelimited name fields depth s).run (start ++ (bs ++ rest))
      = (mergeWithin name fields depth bs.length s).run (bs ++ rest) := by
  have hget : (get : ByteReader (List UInt8)).run (bs ++ rest) = .ok (bs ++ rest, bs ++ rest) := rfl
  -- At least the announced bytes are there, so the length is not refused.
  have hnot : ¬(bs ++ rest).length < bs.length := by
    rw [List.length_append]
    omega
  rw [mergeDelimited, Reader.run_bind_of_ok (hstart (bs ++ rest)), Reader.run_bind_of_ok hget,
    if_neg hnot]

/-- A message of a length in front is merged as its fields are. -/
theorem Takes.mergeDelimited {start : List UInt8} (hstart : Takes Varint.read start bs.length)
    (h : Takes (mergeWithin name fields depth bs.length s) bs s') :
    Takes (mergeDelimited name fields depth s) (start ++ bs) s' := by
  intro rest
  rw [List.append_assoc, run_mergeDelimited hstart]
  exact h rest

end Loop

/-! ## Messages -/

section Message

variable [Message σ] {depth : Nat} {s s' : σ} {bs : List UInt8}

/-- The bytes are fields of a message at a remaining depth, merged into `s`. -/
abbrev MergedAt (depth : Nat) (s : σ) (bs : List UInt8) (s' : σ) : Prop :=
  Merged (mergeField (Message.name σ) (Message.fields depth) depth) s bs s'

/-- A whole input is decoded field by field. -/
theorem decode_of_merged (h : MergedAt Message.depthLimit Message.empty bs s') :
    Message.decode σ bs = .ok s' := by
  have hrun := takes_mergeWithin h []
  rw [List.append_nil] at hrun
  have h' : mergeWithin (Message.name σ) (Message.fields Message.depthLimit) Message.depthLimit
      bs.length Message.empty bs = .ok (s', []) := hrun
  rw [Message.decode, h']
  rfl

/-- What is decoded was read as one message of the length of the input. -/
theorem exists_run_of_decode (h : Message.decode σ bs = .ok s') :
    ∃ rest, (mergeWithin (Message.name σ) (Message.fields Message.depthLimit) Message.depthLimit
      bs.length Message.empty).run bs = .ok (s', rest) := by
  rw [Message.decode] at h
  cases hrun : mergeWithin (Message.name σ) (Message.fields Message.depthLimit) Message.depthLimit
      bs.length (Message.empty : σ) bs with
  | error e =>
    rw [hrun] at h
    cases h
  | ok p =>
    obtain ⟨m, rest⟩ := p
    rw [hrun] at h
    obtain rfl : m = s' := Except.ok.inj h
    exact ⟨rest, hrun⟩

/-- The record of a single value is merged into the field of its number. -/
theorem merged_records {label : String} {put : α → σ → σ} (depth : Nat) (s : σ) (number : Nat)
    (kind : Scalar α) (value : Option α) (hpos : 0 < number) (hlt : number < Key.numberBound)
    (hfind : (Message.fields (σ := σ) depth).find? (·.number == number)
      = some (.scalar number label kind put))
    (hvalue : ∀ v ∈ value, kind.IsReadBack v) :
    MergedAt depth s (Record.encodeAll (kind.records number value)) (value.elim s (put · s)) := by
  cases value with
  | none => exact .nil s
  | some v =>
    obtain ⟨bs, hrecord, hread⟩ := hvalue v rfl
    -- A field that is set writes one record: its key and then the content of the value.
    have hencode : Record.encodeAll (kind.records number (some v))
        = Key.encode ⟨number, kind.wireType⟩ ++ bs := by
      simp [Scalar.records, Record.encodeAll, hrecord]
    rw [hencode]
    exact .single (key_encode_append_ne_nil _ bs)
      (takes_mergeField hpos hlt hfind _ depth (hread.map (put · s)))

/-- The record of a single value is merged behind other fields. -/
theorem Merged.append_records {label : String} {put : α → σ → σ} (h : MergedAt depth s bs s')
    (number : Nat) (kind : Scalar α) (value : Option α) (hpos : 0 < number)
    (hlt : number < Key.numberBound)
    (hfind : (Message.fields (σ := σ) depth).find? (·.number == number)
      = some (.scalar number label kind put))
    (hvalue : ∀ v ∈ value, kind.IsReadBack v) :
    MergedAt depth s (bs ++ Record.encodeAll (kind.records number value))
      (value.elim s' (put · s')) :=
  h.append (merged_records depth s' number kind value hpos hlt hfind hvalue)

/-- The record of an embedded message is merged into the message that was there before. -/
theorem merged_embedded [Message τ] {number : Nat} {label : String} {start : σ → τ}
    {put : τ → σ → σ} {inner : Nat} (hpos : 0 < number) (hlt : number < Key.numberBound)
    (hfind : (Message.fields (σ := σ) depth).find? (·.number == number)
      = some (.message number label (Message.embedded τ (inner + 1)) start put))
    {m t : τ} (hsize : (Message.encode m).length < UInt64.size)
    (h : MergedAt inner (start s) (Message.encode m) t) :
    MergedAt depth s (Record.message number (Message.records m)).encode (put t s) := by
  have hencode : (Record.message number (Message.records m)).encode
      = Key.encode ⟨number, .lengthDelimited⟩
        ++ (Varint.encode (Message.encode m).length ++ Message.encode m) := by
    rw [Record.encode, Message.encode, Record.length_encodeAll]
  -- The length in front is read back, and the message then fills exactly that many bytes.
  have hembedded : Takes (Message.embedded τ (inner + 1) (start s))
      (Varint.encode (Message.encode m).length ++ Message.encode m) t :=
    Takes.mergeDelimited (Varint.read_encode hsize) (takes_mergeWithin h)
  rw [hencode]
  exact .single (key_encode_append_ne_nil _ _)
    (takes_mergeField hpos hlt hfind _ depth (hembedded.map (put · s)))

end Message

end ProtoSchema.Wire
