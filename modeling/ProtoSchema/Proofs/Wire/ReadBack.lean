import ProtoSchema.Proofs.Wire.Merging

/-!
# Reading back what is written

The records of a message, read from its bytes, make it again, as long as its messages are not
nested deeper than the depth that remains; otherwise reading stops at the first message that is too
deep. `Exhausts r bs` says that `r` fails so on the bytes `bs`, whatever follows; `ReadsBack` says
both of the records of a part of a message, and part is put behind part by `ReadsBack.append`.

Key results:
* `isFaithful_int32`, `isFaithful_uint64`, `isFaithful_bool`, `isFaithful_bytes`,
  `isFaithful_text` — single values of every kind are read back
* `readsBack_scalar`, `readsBack_message` — the record of a value or of an embedded message
* `decode_encode_of_height_le`, `decode_encode_of_lt_height` — a whole message
-/

namespace ProtoSchema.Wire

variable {α β σ τ : Type}

/-! ## Records -/

/-- Of several records the highest counts. -/
@[simp] theorem Record.heightAll_append (rs ss : List Record) :
    heightAll (rs ++ ss) = max (heightAll rs) (heightAll ss) := by
  induction rs with
  | nil => simp [heightAll]
  | cons r rs ih => simp [heightAll, ih, Nat.max_assoc]

/-- A single record is as high as it is. -/
@[simp] theorem Record.heightAll_singleton (r : Record) : heightAll [r] = r.height := by
  simp [heightAll]

/-- A single record is as long as it is. -/
@[simp] theorem Record.sizeAll_singleton (r : Record) : sizeAll [r] = r.size := rfl

/-- A single record is written alone. -/
@[simp] theorem Record.encodeAll_singleton (r : Record) : encodeAll [r] = r.encode :=
  List.append_nil _

/-! ## Kinds of values -/

/-- Every value of a kind is read back, unless its record is too long. -/
structure Scalar.IsFaithful (kind : Scalar α) : Prop where
  height_record : ∀ number value, (kind.record number value).height = 0
  isReadBack : ∀ number value, (kind.record number value).size < UInt64.size →
    kind.IsReadBack value

namespace Scalar

/-- A number that is written as a varint and converted back is read back. -/
theorem isReadBack_of_varint {kind : Scalar α} {ofNat : Nat → α} {n : Nat} {value : α}
    (hwire : kind.wireType = .varint) (hread : kind.read = Varint.read >>= fun x => pure (ofNat x))
    (hrecord : ∀ number, kind.record number value = .varint number n) (hn : n < UInt64.size)
    (hvalue : ofNat n = value) : kind.IsReadBack value := by
  refine ⟨Varint.encode n, fun number => by rw [hrecord, hwire, Record.encode], ?_⟩
  rw [hread, ← hvalue]
  exact Takes.map (Varint.read_encode hn) ofNat

/-- Of the 64 bits of a signed number the low 32 are the number. -/
theorem ofNat_toInt64 (value : Int32) : Int32.ofNat value.toInt64.toUInt64.toNat = value := by
  apply Int32.toBitVec_inj.1
  have hlow : (Int32.ofNat value.toInt64.toUInt64.toNat).toBitVec
      = value.toInt64.toBitVec.setWidth 32 := BitVec.ofNat_toNat 32 value.toInt64.toBitVec
  have hback := congrArg Int32.toBitVec (Int32.toInt32_toInt64 value)
  rw [Int64.toBitVec_toInt32, BitVec.signExtend_eq_setWidth_of_le _ (by decide)] at hback
  exact hlow.trans hback

/-- An integer is read back, whatever its sign. -/
theorem isFaithful_int32 : int32.IsFaithful where
  height_record _ _ := rfl
  isReadBack _ value _ := isReadBack_of_varint rfl rfl (fun _ => rfl)
    value.toInt64.toUInt64.toNat_lt_size (ofNat_toInt64 value)

theorem isFaithful_uint64 : uint64.IsFaithful where
  height_record _ _ := rfl
  isReadBack _ value _ := isReadBack_of_varint rfl rfl (fun _ => rfl) value.toNat_lt_size
    UInt64.ofNat_toNat

theorem isFaithful_bool : bool.IsFaithful where
  height_record _ _ := rfl
  isReadBack _ value _ := isReadBack_bool value

/-- A payload is not longer than its record. -/
theorem length_le_size_bytes (number : Nat) (payload : List UInt8) :
    payload.length ≤ (Record.bytes number payload).size := by
  rw [Record.size]
  omega

theorem isFaithful_bytes : bytes.IsFaithful where
  height_record _ _ := rfl
  isReadBack number value h :=
    isReadBack_bytes (Nat.lt_of_le_of_lt (length_le_size_bytes number value) h)

theorem isFaithful_text : text.IsFaithful where
  height_record _ _ := rfl
  isReadBack number value h :=
    isReadBack_text (Nat.lt_of_le_of_lt (length_le_size_bytes number (bytesOfText value)) h)

end Scalar

/-! ## Nesting that is too deep -/

/-- The reader fails on the bytes, whatever follows, since messages are nested too deeply. -/
def Exhausts (r : ByteReader α) (bs : List UInt8) : Prop :=
  ∀ rest, ∃ e, r.run (bs ++ rest) = .error e ∧ e.fault = .depthReached

variable {r : ByteReader α} {bs cs : List UInt8}

/-- What follows may be said in part. -/
theorem Exhausts.append (h : Exhausts r bs) (cs : List UInt8) : Exhausts r (bs ++ cs) := by
  intro rest
  rw [List.append_assoc]
  exact h (cs ++ rest)

/-- A second reader is not reached. -/
theorem Exhausts.bind (h : Exhausts r bs) (f : α → ByteReader β) : Exhausts (r >>= f) bs := by
  intro rest
  obtain ⟨e, he, hfault⟩ := h rest
  refine ⟨e, ?_, hfault⟩
  rw [StateT.run_bind, he]
  rfl

/-- A second reader fails behind the first. -/
theorem Takes.bind_exhausts {f : α → ByteReader β} {a : α} (hr : Takes r bs a)
    (hf : Exhausts (f a) cs) : Exhausts (r >>= f) (bs ++ cs) := by
  intro rest
  rw [List.append_assoc, Reader.run_bind_of_ok (hr (cs ++ rest))]
  exact hf rest

/-- Counting does not keep a reader from failing. -/
theorem Exhausts.counted (h : Exhausts r bs) : Exhausts (Reader.counted r) bs := by
  intro rest
  obtain ⟨e, he, hfault⟩ := h rest
  refine ⟨e, ?_, hfault⟩
  have he' : r (bs ++ rest) = .error e := he
  show (r (bs ++ rest)).map _ = _
  rw [he']
  rfl

/-- The place of a fault may be added. -/
theorem Exhausts.within (h : Exhausts r bs) (place : Place) :
    Exhausts (Reader.mapError (DecodeError.within place) r) bs := by
  intro rest
  obtain ⟨e, he, hfault⟩ := h rest
  refine ⟨e.within place, ?_, hfault⟩
  have he' : r (bs ++ rest) = .error e := he
  show (r (bs ++ rest)).mapError _ = _
  rw [he']
  rfl

/-- The bytes are fields, which `m` merges one by one into `s` up to one that holds messages nested
too deeply. -/
inductive Overflows (m : Merge σ) : σ → List UInt8 → Prop
  | here {s : σ} {bs : List UInt8} (hne : bs ≠ []) (h : Exhausts (m s) bs) : Overflows m s bs
  | later {s s' : σ} {bs cs : List UInt8} (hne : bs ≠ []) (hfirst : Takes (m s) bs s')
      (hrest : Overflows m s' cs) : Overflows m s (bs ++ cs)

/-- More fields change nothing behind the one that is too deep. -/
theorem Overflows.append {m : Merge σ} {s : σ} (h : Overflows m s bs) (cs : List UInt8) :
    Overflows m s (bs ++ cs) := by
  induction h with
  | here hne h => exact .here (List.append_ne_nil_of_left_ne_nil hne cs) (h.append cs)
  | later hne hfirst hrest ih =>
    rw [List.append_assoc]
    exact .later hne hfirst ih

/-- A field that is too deep may come behind others. -/
theorem Merged.append_overflows {m : Merge σ} {s s' : σ} (h : Merged m s bs s')
    (h' : Overflows m s' cs) : Overflows m s (bs ++ cs) := by
  induction h with
  | nil s => exact h'
  | cons hne hfirst hrest ih =>
    rw [List.append_assoc]
    exact .later hne hfirst (ih h')

section Loop

variable {name : String} {fields : List (Field σ)} {depth : Nat} {s : σ}

/-- The step at a field that is too deep fails. -/
theorem exhausts_mergeStep (hne : bs ≠ []) (h : Exhausts (mergeField name fields depth s) bs) :
    Exhausts (mergeStep name fields depth (bs.length, s)) bs := by
  have hpos : bs.length ≠ 0 := Nat.ne_of_gt (List.length_pos_iff.2 hne)
  rw [mergeStep, if_neg hpos]
  exact h.counted.bind _

/-- A message that holds a field that is too deep fails at it. -/
theorem exhausts_mergeWithin (h : Overflows (mergeField name fields depth) s bs) :
    Exhausts (mergeWithin name fields depth bs.length s) bs := by
  -- Every field takes a byte at least, so the loop does not run out of steps before the one that
  -- is too deep.
  have hloop : ∀ fuel, bs.length < fuel →
      Exhausts (Reader.iterateUpTo (mergeStep name fields depth) fuel (bs.length, s)) bs := by
    induction h with
    | @here s bs hne h =>
      intro fuel hfuel
      obtain ⟨fuel, rfl⟩ : ∃ n, fuel = n + 1 := ⟨fuel - 1, by omega⟩
      exact (exhausts_mergeStep hne h).bind _
    | @later s s' bs cs hne hfirst hrest ih =>
      intro fuel hfuel
      obtain ⟨fuel, rfl⟩ : ∃ n, fuel = n + 1 := ⟨fuel - 1, by omega⟩
      have hpos : 0 < bs.length := List.length_pos_iff.2 hne
      rw [List.length_append] at hfuel
      exact (takes_mergeStep hne hfirst).bind_exhausts (ih fuel (by omega))
  intro rest
  have hrun := hloop ((bs ++ rest).length + 1) (by rw [List.length_append]; omega)
  exact hrun.bind (fun p : Nat × σ => pure p.2) rest

/-- The same holds behind its length. -/
theorem exhausts_mergeDelimited (hsize : bs.length < UInt64.size)
    (h : Overflows (mergeField name fields depth) s bs) :
    Exhausts (mergeDelimited name fields depth s) (Varint.encode bs.length ++ bs) := by
  intro rest
  rw [List.append_assoc, run_mergeDelimited (Varint.read_encode hsize)]
  exact exhausts_mergeWithin h rest

/-- A known field is too deep when its value is. -/
theorem exhausts_mergeField {field : Field σ} {number : Nat} (hpos : 0 < number)
    (hlt : number < Key.numberBound) (hfind : fields.find? (·.number == number) = some field)
    (name : String) (depth : Nat) (h : Exhausts (field.merge s) bs) :
    Exhausts (mergeField name fields depth s) (Key.encode ⟨number, field.wireType⟩ ++ bs) := by
  intro rest
  rw [List.append_assoc, run_mergeField hpos hlt hfind]
  exact h.within _ rest

end Loop

/-! ## Messages -/

section Message

variable [Message σ] {depth : Nat} {s s' s'' : σ} {rs ss : List Record}

/-- The records `rs`, read into `s` at a remaining depth, make it `s'`. Where they hold messages
nested deeper than that, reading stops there. -/
def ReadsBack (depth : Nat) (s : σ) (rs : List Record) (s' : σ) : Prop :=
  Record.sizeAll rs < UInt64.size →
    if Record.heightAll rs ≤ depth then MergedAt depth s (Record.encodeAll rs) s'
    else Overflows (mergeField (Message.name σ) (Message.fields depth) depth) s
      (Record.encodeAll rs)

/-- Where nothing is written, nothing is read. -/
theorem readsBack_nil (depth : Nat) (s : σ) : ReadsBack depth s [] s := by
  intro _
  rw [Record.heightAll, if_pos (Nat.zero_le depth)]
  exact .nil s

/-- A second part of a message is read into what the first has made. -/
theorem ReadsBack.append (h : ReadsBack depth s rs s') (h' : ReadsBack depth s' ss s'') :
    ReadsBack depth s (rs ++ ss) s'' := by
  intro hsize
  rw [Record.sizeAll_append] at hsize
  have hfirst := h (by omega)
  have hsecond := h' (by omega)
  rw [Record.heightAll_append, Record.encodeAll_append]
  -- The joined records fit when both parts do. A part that is too deep is where the reading stops:
  -- the second after the first was merged, the first whatever follows it.
  by_cases hrs : Record.heightAll rs ≤ depth
  · rw [if_pos hrs] at hfirst
    by_cases hss : Record.heightAll ss ≤ depth
    · rw [if_pos hss] at hsecond
      rw [if_pos (Nat.max_le.2 ⟨hrs, hss⟩)]
      exact hfirst.append hsecond
    · rw [if_neg hss] at hsecond
      rw [if_neg fun hmax => hss (Nat.max_le.1 hmax).2]
      exact hfirst.append_overflows hsecond
  · rw [if_neg hrs] at hfirst
    rw [if_neg fun hmax => hrs (Nat.max_le.1 hmax).1]
    exact hfirst.append _

/-- What it makes of a message may be said in other words. -/
theorem ReadsBack.of_eq (h : ReadsBack depth s rs s') (heq : s' = s'') : ReadsBack depth s rs s'' :=
  heq ▸ h

/-- A list is read back element by element. -/
theorem readsBack_map {state : List α → σ} {record : α → Record} {values : List α}
    (h : ∀ done, ∀ v ∈ values, ReadsBack depth (state done) [record v] (state (done ++ [v]))) :
    ReadsBack depth (state []) (values.map record) (state values) := by
  -- The induction is on what is still to be read, for any values already read.
  have hall : ∀ done,
      ReadsBack depth (state done) (values.map record) (state (done ++ values)) := by
    induction values with
    | nil =>
      intro done
      rw [List.append_nil]
      exact readsBack_nil depth _
    | cons v values ih =>
      intro done
      have hrest := ih (fun done w hw => h done w (List.mem_cons_of_mem v hw)) (done ++ [v])
      rw [List.append_assoc] at hrest
      exact (h done v List.mem_cons_self).append hrest
  exact hall []

/-- A value that may be absent is read back where it is present. -/
theorem readsBack_option {state : Option α → σ} {record : α → Record} {value : Option α}
    (h : ∀ v ∈ value, ReadsBack depth (state none) [record v] (state (some v))) :
    ReadsBack depth (state none) (value.map record).toList (state value) := by
  cases value with
  | none => exact readsBack_nil depth _
  | some v => exact h v rfl

/-- A value is read back from its record into the field of its number. -/
theorem readsBack_scalar {kind : Scalar α} {number : Nat} {label : String} {put : α → σ → σ}
    (hkind : kind.IsFaithful) (hpos : 0 < number) (hlt : number < Key.numberBound)
    (hfind : (Message.fields (σ := σ) depth).find? (·.number == number)
      = some (.scalar number label kind put)) (value : α) :
    ReadsBack depth s [kind.record number value] (put value s) := by
  intro hsize
  rw [Record.sizeAll_singleton] at hsize
  obtain ⟨bs, hencode, htakes⟩ := hkind.isReadBack number value hsize
  -- A scalar has height zero, so the limit never matters for it.
  rw [Record.heightAll_singleton, hkind.height_record, if_pos (Nat.zero_le depth),
    Record.encodeAll_singleton, hencode]
  exact .single (key_encode_append_ne_nil _ bs)
    (takes_mergeField hpos hlt hfind _ depth (htakes.map (put · s)))

/-- A value that may be absent is read back into the field of its number. -/
theorem readsBack_records {kind : Scalar α} {label : String} {put : α → σ → σ} (depth number : Nat)
    (hkind : kind.IsFaithful) (state : Option α → σ) (value : Option α) (hpos : 0 < number)
    (hlt : number < Key.numberBound)
    (hfind : (Message.fields (σ := σ) depth).find? (·.number == number)
      = some (.scalar number label kind put))
    (hput : ∀ v, put v (state none) = state (some v)) :
    ReadsBack depth (state none) (kind.records number value) (state value) :=
  readsBack_option fun v _ => (readsBack_scalar hkind hpos hlt hfind v).of_eq (hput v)

/-- The values of a list are read back one after the other. -/
theorem readsBack_map_record {kind : Scalar α} {label : String} {put : α → σ → σ}
    (depth number : Nat) (hkind : kind.IsFaithful) (state : List α → σ) (values : List α)
    (hpos : 0 < number) (hlt : number < Key.numberBound)
    (hfind : (Message.fields (σ := σ) depth).find? (·.number == number)
      = some (.scalar number label kind put))
    (hput : ∀ done v, put v (state done) = state (done ++ [v])) :
    ReadsBack depth (state []) (values.map (kind.record number)) (state values) :=
  readsBack_map fun done v _ => (readsBack_scalar hkind hpos hlt hfind v).of_eq (hput done v)

/-- A message is read back from its records at every depth. -/
def Message.IsReadBack (m : σ) : Prop :=
  ∀ depth, ReadsBack depth Message.empty (Message.records m) m

/-- An embedded message is read back from its record where it starts out empty. One level less is
left for what is inside it, and where no level is left it is not entered. -/
theorem readsBack_message [Message τ] {number : Nat} {label : String} {start : σ → τ}
    {put : τ → σ → σ} (hpos : 0 < number) (hlt : number < Key.numberBound)
    (hfind : (Message.fields (σ := σ) depth).find? (·.number == number)
      = some (.message number label (Message.embedded τ depth) start put))
    (hstart : start s = Message.empty) {m : τ} (hm : Message.IsReadBack m) :
    ReadsBack depth s [.message number (Message.records m)] (put m s) := by
  intro hsize
  rw [Record.sizeAll_singleton, Record.size] at hsize
  have hlength : (Message.encode m).length < UInt64.size := by
    rw [Message.length_encode, Message.encodedLength]
    omega
  have hencode : (Record.message number (Message.records m)).encode
      = Key.encode ⟨number, .lengthDelimited⟩
        ++ (Varint.encode (Message.encode m).length ++ Message.encode m) := by
    rw [Record.encode, Message.encode, Record.length_encodeAll]
  have htooDeep : Exhausts (Message.embedded τ depth (start s))
      (Varint.encode (Message.encode m).length ++ Message.encode m) →
      Overflows (mergeField (Message.name σ) (Message.fields depth) depth) s
        (Record.message number (Message.records m)).encode := by
    intro h
    have hfield := exhausts_mergeField hpos hlt hfind (Message.name σ) depth
      (h.bind fun v => pure (put v s))
    rw [hencode]
    exact .here (key_encode_append_ne_nil _ _) hfield
  rw [Record.heightAll_singleton, Record.height, Record.encodeAll_singleton]
  cases depth with
  | zero =>
    rw [if_neg (Nat.not_succ_le_zero _)]
    exact htooDeep fun rest => ⟨_, rfl, rfl⟩
  | succ inner =>
    have hinner := hm inner (by omega)
    rw [← hstart] at hinner
    by_cases hheight : Record.heightAll (Message.records m) ≤ inner
    · rw [if_pos hheight] at hinner
      rw [if_pos (Nat.succ_le_succ hheight)]
      exact merged_embedded hpos hlt hfind hlength hinner
    · rw [if_neg hheight] at hinner
      rw [if_neg fun h => hheight (Nat.le_of_succ_le_succ h)]
      exact htooDeep (exhausts_mergeDelimited hlength hinner)

/-- A whole message is decoded from its bytes. -/
theorem decode_encode_of_height_le {m : σ} (hm : Message.IsReadBack m)
    (hsize : Message.encodedLength m < UInt64.size)
    (hheight : Message.height m ≤ Message.depthLimit) :
    Message.decode σ (Message.encode m) = .ok m := by
  have h := hm Message.depthLimit hsize
  have hheight' : Record.heightAll (Message.records m) ≤ Message.depthLimit := hheight
  rw [if_pos hheight'] at h
  exact decode_of_merged h

/-- A whole input is refused at a field that is too deep. -/
theorem decode_of_overflows {bs : List UInt8}
    (h : Overflows (mergeField (Message.name σ) (Message.fields (σ := σ) Message.depthLimit)
      Message.depthLimit) Message.empty bs) :
    ∃ e, Message.decode σ bs = .error e ∧ e.fault = .depthReached := by
  -- The fields are read up to the one that is too deep.
  obtain ⟨e, he, hfault⟩ := exhausts_mergeWithin h []
  rw [List.append_nil] at he
  have he' : mergeWithin (Message.name σ) (Message.fields Message.depthLimit) Message.depthLimit
      bs.length Message.empty bs = .error e := he
  refine ⟨e, ?_, hfault⟩
  rw [Message.decode, he']
  rfl

/-- A whole message that holds messages nested too deeply is refused. -/
theorem decode_encode_of_lt_height {m : σ} (hm : Message.IsReadBack m)
    (hsize : Message.encodedLength m < UInt64.size)
    (hheight : Message.depthLimit < Message.height m) :
    ∃ e, Message.decode σ (Message.encode m) = .error e ∧ e.fault = .depthReached := by
  have h := hm Message.depthLimit hsize
  have hheight' : ¬Record.heightAll (Message.records m) ≤ Message.depthLimit :=
    Nat.not_le.2 hheight
  rw [if_neg hheight'] at h
  exact decode_of_overflows h

end Message

end ProtoSchema.Wire
