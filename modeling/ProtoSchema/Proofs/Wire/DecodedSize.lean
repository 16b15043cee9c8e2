import Mathlib.Algebra.Group.Nat.Defs
import ProtoSchema.Proofs.Wire.WellFormedFields

/-!
# The size of what is decoded

A decoded message, written again, can be longer than the input it came from: a negative number may
be read from five bytes and takes ten, and the lengths in front of the messages around it grow with
it. It has at most twice the bytes. `Gives r P` says that `P` holds of what `r` reads and of the
number of bytes it takes; it follows the reader, step by step, and where `Consumes` says which bytes
these are, they are counted. A field that is set again, or an embedded message that is read into
again, takes the place of its old records (`Exchanged`).

Key results:
* `Varint.size_le_iff`, `Varint.size_add_le` — how many bytes a number has
* `Varint.gives_read` — a number is read from no fewer bytes than its shortest encoding has
* `isBounded_scalar`, `isBounded_message` — what one field adds to a message
* `bounds_of_decode` — the length and the nesting of a decoded message
-/

namespace ProtoSchema.Wire

variable {α β σ τ : Type}

/-! ## Values and the bytes they take -/

/-- Where `r` succeeds, `P` holds of its value and of the number of bytes it takes. -/
def Gives (r : ByteReader α) (P : α → Nat → Prop) : Prop :=
  ∀ input a rest, r.run input = .ok (a, rest) → ∃ n, input.length = n + rest.length ∧ P a n

section Gives

variable {r : ByteReader α} {P P' : α → Nat → Prop} {Q : β → Nat → Prop}

/-- A reader that reads nothing gives its value for no bytes. -/
theorem gives_pure {a : α} (h : P a 0) : Gives (pure a) P := by
  rintro input _ _ ⟨⟩
  exact ⟨0, by omega, h⟩

/-- A reader that fails gives nothing. -/
theorem gives_fault (f : DecodeFault) (P : α → Nat → Prop) : Gives (fault f) P := by
  rintro input a rest ⟨⟩

/-- Where the bytes that are taken are known, they are counted. -/
theorem Consumes.gives {R : α → List UInt8 → Prop} (h : Consumes r R)
    (hR : ∀ a bs, R a bs → P a bs.length) : Gives r P := by
  intro input a rest hr
  obtain ⟨bs, rfl, -, ha⟩ := h input a rest hr
  exact ⟨bs.length, List.length_append, hR a bs ha⟩

/-- Less may be said. -/
theorem Gives.mono (h : Gives r P) (hP : ∀ a n, P a n → P' a n) : Gives r P' := by
  intro input a rest hr
  obtain ⟨n, hn, ha⟩ := h input a rest hr
  exact ⟨n, hn, hP a n ha⟩

/-- A second reader takes more bytes. -/
theorem Gives.bind {f : α → ByteReader β} (hr : Gives r P)
    (hf : ∀ a n, P a n → Gives (f a) fun b k => Q b (n + k)) : Gives (r >>= f) Q := by
  intro input b rest h
  obtain ⟨a, mid, hfirst, hsecond⟩ := Reader.run_bind_eq_ok h
  obtain ⟨n, hn, ha⟩ := hr input a mid hfirst
  obtain ⟨k, hk, hb⟩ := hf a n ha mid b rest hsecond
  exact ⟨n + k, by omega, hb⟩

/-- A value is made of what is read. -/
theorem Gives.map (hr : Gives r P) {f : α → β} (hf : ∀ a n, P a n → Q (f a) n) :
    Gives (r >>= fun a => pure (f a)) Q :=
  hr.bind fun a n ha => gives_pure (hf a n ha)

/-- Other words for an error leave what is given as it is. -/
theorem Gives.mapError (h : Gives r P) (f : DecodeError → DecodeError) :
    Gives (Reader.mapError f r) P := by
  intro input a rest hr
  apply h input a rest
  have hr' : (r input).mapError f = .ok (a, rest) := hr
  -- An error does not become a success under the translation, so the reader itself succeeded.
  show r input = _
  cases hi : r input with
  | error e =>
    rw [hi] at hr'
    cases hr'
  | ok p =>
    rw [hi] at hr'
    exact congrArg _ (Except.ok.inj hr')

/-- Counting gives the number of bytes that are taken. -/
theorem Gives.counted (h : Gives r P) :
    Gives (Reader.counted r) fun p n => p.2 = n ∧ P p.1 n := by
  intro input p rest hr
  have hr' : (r input).map (fun q => ((q.1, input.length - q.2.length), q.2)) = .ok (p, rest) := hr
  cases hi : r input with
  | error e =>
    rw [hi] at hr'
    cases hr'
  | ok q =>
    rw [hi] at hr'
    obtain ⟨rfl, rfl⟩ := Prod.mk.inj (Except.ok.inj hr')
    obtain ⟨n, hn, ha⟩ := h input q.1 q.2 hi
    exact ⟨n, hn, by omega, ha⟩

/-- What every step of a loop keeps, the bytes taken so far included, holds at its end. -/
theorem gives_iterate {step : σ → ByteReader (Option σ)} {I : σ → Nat → Prop}
    (hstep : ∀ s n, I s n → Gives (step s) fun o k => I (o.getD s) (n + k)) {s : σ} (hs : I s 0) :
    Gives (Reader.iterate step s) I := by
  -- `n` counts the bytes that earlier steps took.
  have hloop : ∀ fuel s n, I s n →
      Gives (Reader.iterateUpTo step fuel s) fun s' k => I s' (n + k) := by
    intro fuel
    induction fuel with
    | zero => exact fun s n h => gives_pure h
    | succ fuel ih =>
      intro s n h
      refine (hstep s n h).bind fun o k ho => ?_
      cases o with
      | none => exact gives_pure ho
      | some s' => exact (ih s' (n + k) ho).mono fun s'' j hj => by rwa [Nat.add_assoc] at hj
  intro input s' rest h
  simpa using hloop (input.length + 1) s 0 hs input s' rest h

end Gives

/-! ## Variable-length numbers -/

namespace Varint

/-- A byte holds seven bits of a number. -/
theorem size_le_iff {n k : Nat} (hk : 0 < k) : size n ≤ k ↔ n < 2 ^ (7 * k) := by
  rcases Nat.eq_zero_or_pos n with rfl | hpos
  · have hsize : size 0 = 1 := by decide
    rw [hsize]
    exact iff_of_true hk (Nat.two_pow_pos _)
  · rw [← Nat.log2_lt (Nat.ne_of_gt hpos), size]
    omega

theorem size_pos (n : Nat) : 0 < size n :=
  Nat.succ_pos _

/-- A number has seven bits in each byte of its encoding. -/
theorem lt_two_pow_size (n : Nat) : n < 2 ^ (7 * size n) :=
  (size_le_iff (size_pos n)).1 (Nat.le_refl _)

/-- A greater number has no fewer bytes. -/
theorem size_mono {m n : Nat} (h : m ≤ n) : size m ≤ size n :=
  (size_le_iff (size_pos n)).2 (Nat.lt_of_le_of_lt h (lt_two_pow_size n))

/-- A sum has no more bytes than its parts. -/
theorem size_add_le (m n : Nat) : size (m + n) ≤ size m + size n := by
  rw [size_le_iff (Nat.add_pos_left (size_pos m) _), Nat.mul_add, Nat.pow_add]
  have hm := lt_two_pow_size m
  have hn := lt_two_pow_size n
  have hmpos : 2 ≤ 2 ^ (7 * size m) := Nat.le_self_pow (by have := size_pos m; omega) 2
  have hnpos : 2 ≤ 2 ^ (7 * size n) := Nat.le_self_pow (by have := size_pos n; omega) 2
  have hsum := Nat.add_le_mul hmpos hnpos
  omega

/-- Doubling a number does not more than double its bytes. -/
theorem size_le_of_le_two_mul {m p : Nat} (h : m ≤ 2 * p) : size m ≤ 2 * size p := by
  have hsum := size_add_le p p
  rw [← Nat.two_mul] at hsum
  exact Nat.le_trans (size_mono h) (Nat.le_trans hsum (Nat.le_of_eq (Nat.two_mul _).symm))

/-- The same behind another number. -/
theorem size_le_of_le_add_two_mul {m a p : Nat} (h : m ≤ a + 2 * p) :
    size m ≤ size a + 2 * size p :=
  Nat.le_trans (size_mono h) (Nat.le_trans (size_add_le a (2 * p))
    (Nat.add_le_add_left (size_le_of_le_two_mul (Nat.le_refl _)) _))

/-- A number of 64 bits has at most ten bytes. -/
theorem size_le_ten {n : Nat} (h : n < UInt64.size) : size n ≤ 10 :=
  (size_le_iff (by decide)).2 (Nat.lt_of_lt_of_le h (by decide))

/-- Digits of a number are no fewer than the shortest encoding has. -/
theorem Spells.size_le {bs : List UInt8} {n : Nat} (h : Spells bs n) : size n ≤ bs.length := by
  induction h with
  | last hb => exact (size_le_iff Nat.one_pos).2 (UInt8.lt_iff_toNat_lt.1 hb)
  | @more b bs high hb h ih =>
    -- Seven bits in front of a number of `7 * bs.length` bits.
    have hpos : 0 < bs.length := List.length_pos_iff.2 h.ne_nil
    have hhigh := (size_le_iff hpos).1 ih
    have hbyte := b.toNat_lt
    rw [List.length_cons, size_le_iff (by omega), Nat.mul_succ, Nat.pow_add]
    omega

/-- A number that is read takes no fewer bytes than its shortest encoding. -/
theorem gives_read : Gives read fun n k => size n ≤ k :=
  consumes_read.gives fun _ _ h => h.spells.size_le

end Varint

/-! ## Keys and unknown fields -/

/-- A key that is read takes no fewer bytes than its shortest encoding. -/
theorem Key.gives_read : Gives Key.read fun key k => Varint.size key.value ≤ k :=
  Key.consumes_read.gives fun _ _ h => h.isVarint.spells.size_le

/-- An unknown field is skipped by taking bytes from the front. -/
theorem gives_skip (depth : Nat) (key : Key) : Gives (skip depth key) fun _ _ => True :=
  (consumes_skip depth key).gives fun _ _ _ => trivial

/-! ## Kinds of values -/

/-- The record of a value that is read has, besides its key, at most twice the bytes that were
taken. -/
def Scalar.IsBounded (kind : Scalar α) : Prop :=
  Gives kind.read fun v n => ∀ number,
    (kind.record number v).size ≤ Varint.size (Key.value ⟨number, kind.wireType⟩) + 2 * n

namespace Scalar

/-- Values that are read from a number are bounded, if encoding them takes at most twice the bytes
of a number. -/
theorem isBounded_of_varint {kind : Scalar α} {ofNat : Nat → α} (toNat : α → Nat)
    (hwire : kind.wireType = .varint) (hread : kind.read = Varint.read >>= fun x => pure (ofNat x))
    (hrecord : ∀ number v, kind.record number v = .varint number (toNat v))
    (h : ∀ n, Varint.size (toNat (ofNat n)) ≤ 2 * Varint.size n) : kind.IsBounded := by
  rw [IsBounded, hread]
  refine Varint.gives_read.map fun n k hk number => ?_
  -- A number is read from a varint and written as one again.
  have hn := h n
  rw [hrecord, hwire, Record.size]
  omega

/-- A number without a sign bit stays as it is. -/
theorem toNat_toInt64_ofNat_le {n : Nat} (h : n < 2 ^ 31) :
    (Int32.ofNat n).toInt64.toUInt64.toNat ≤ n := by
  have hvalue : (Int32.ofNat n).toInt64.toUInt64.toNat
      = ((BitVec.ofNat 32 n).signExtend 64).toNat := rfl
  -- Below 2 ^ 31 the sign bit is not set, so nothing is extended.
  have hsign : (BitVec.ofNat 32 n).msb = false := by
    rw [BitVec.msb_eq_decide, BitVec.toNat_ofNat, decide_eq_false_iff_not]
    omega
  rw [hvalue, BitVec.toNat_signExtend, hsign, BitVec.toNat_setWidth, BitVec.toNat_ofNat]
  simp only [Bool.false_eq_true, ↓reduceIte]
  omega

/-- A negative number is written with ten bytes, and was read from five at least. -/
theorem isBounded_int32 : int32.IsBounded := by
  refine isBounded_of_varint (fun v => v.toInt64.toUInt64.toNat) rfl rfl (fun _ _ => rfl)
    fun n => ?_
  -- Without the sign bit the number is written as it was read, or shorter.
  by_cases hsign : n < 2 ^ 31
  · have h := Varint.size_mono (toNat_toInt64_ofNat_le hsign)
    omega
  · have hwritten := Varint.size_le_ten (Int32.ofNat n).toInt64.toUInt64.toNat_lt_size
    have hread : ¬Varint.size n ≤ 4 := by
      rw [Varint.size_le_iff (by decide)]
      omega
    omega

theorem isBounded_uint64 : uint64.IsBounded := by
  refine isBounded_of_varint UInt64.toNat rfl rfl (fun _ _ => rfl) fun n => ?_
  have h := Varint.size_mono (Nat.mod_le n (2 ^ 64))
  rw [UInt64.toNat_ofNat']
  omega

theorem isBounded_bool : bool.IsBounded := by
  refine isBounded_of_varint Bool.toNat rfl rfl (fun _ _ => rfl) fun n => ?_
  have hpos := Varint.size_pos n
  have hone : Varint.size (n != 0).toNat ≤ 1 := (Varint.size_le_iff Nat.one_pos).2
    (Nat.lt_of_le_of_lt (Bool.toNat_le _) (by decide))
  omega

/-- A run of bytes is taken with its length in front. -/
theorem gives_readBytes : Gives readBytes fun bs n => Varint.size bs.length + bs.length ≤ n := by
  refine Varint.gives_read.bind fun length n hn => (consumes_take length _).gives fun bs cs h => ?_
  obtain ⟨rfl, hlength⟩ := h
  rw [hlength]
  omega

theorem isBounded_bytes : bytes.IsBounded := by
  refine gives_readBytes.mono fun bs n hn number => ?_
  show Varint.size _ + _ ≤ Varint.size (Key.value ⟨number, .lengthDelimited⟩) + _
  omega

/-- A text has the bytes that it is read from. -/
theorem bytesOfText_of_textOfBytes? {payload : List UInt8} {s : String}
    (h : textOfBytes? payload = some s) : bytesOfText s = payload := by
  rw [textOfBytes?, String.fromUTF8?] at h
  split at h
  · cases h
    rfl
  · cases h

/-- A text is written with as many bytes as it was read from, so its length is no longer either. -/
theorem isBounded_text : text.IsBounded := by
  refine gives_readBytes.bind fun bs n hn => ?_
  cases htext : textOfBytes? bs with
  | none => exact gives_fault _ _
  | some s =>
    refine gives_pure fun number => ?_
    show Varint.size _ + (Varint.size (bytesOfText s).length + (bytesOfText s).length)
      ≤ Varint.size (Key.value ⟨number, .lengthDelimited⟩) + _
    -- The text is written with the very bytes that it was read from.
    rw [bytesOfText_of_textOfBytes? htext]
    omega

end Scalar

/-! ## Records that change -/

/-- The records `rs` have become `ss`, with `new` in place of `old`, as far as their size and their
height go. -/
structure Exchanged (rs ss old new : List Record) : Prop where
  size : Record.sizeAll ss + Record.sizeAll old ≤ Record.sizeAll rs + Record.sizeAll new
  height : Record.heightAll ss ≤ max (Record.heightAll rs) (Record.heightAll new)
  height_old : Record.heightAll old ≤ Record.heightAll rs

section Exchanged

variable {rs ss old new : List Record}

/-- Records in front stay as they are. -/
theorem Exchanged.behind (h : Exchanged rs ss old new) (front : List Record) :
    Exchanged (front ++ rs) (front ++ ss) old new := by
  obtain ⟨hsize, hheight, hold⟩ := h
  constructor <;> simp only [Record.sizeAll_append, Record.heightAll_append] <;> omega

/-- Records behind stay as they are. -/
theorem Exchanged.before (h : Exchanged rs ss old new) (back : List Record) :
    Exchanged (rs ++ back) (ss ++ back) old new := by
  obtain ⟨hsize, hheight, hold⟩ := h
  constructor <;> simp only [Record.sizeAll_append, Record.heightAll_append] <;> omega

/-- All records may be exchanged. -/
theorem exchanged_self (old new : List Record) : Exchanged old new old new where
  size := by omega
  height := by omega
  height_old := Nat.le_refl _

/-- Records may be forgotten. -/
theorem exchanged_nil (rs new : List Record) : Exchanged rs new [] new where
  size := by
    rw [Record.sizeAll]
    omega
  height := by omega
  height_old := Nat.zero_le _

/-- A record may be added. -/
theorem exchanged_append (rs new : List Record) : Exchanged rs (rs ++ new) [] new where
  size := by
    rw [Record.sizeAll_append, Record.sizeAll]
    omega
  height := Nat.le_of_eq (Record.heightAll_append rs new)
  height_old := Nat.zero_le _

end Exchanged

/-! ## Fields -/

section Message

variable [Message σ] [Message τ]

/-- The message `s` has become `s'`, longer by `extra` bytes at most, and its messages are nested
no deeper than `depth` if they were not before. -/
structure Grows (depth : Nat) (s s' : σ) (extra : Nat) : Prop where
  length : Message.encodedLength s' ≤ Message.encodedLength s + extra
  height : Message.height s ≤ depth → Message.height s' ≤ depth

theorem Grows.refl (depth : Nat) (s : σ) : Grows depth s s 0 :=
  ⟨Nat.le_refl _, id⟩

/-- What one step and the next one add is added in all. -/
theorem Grows.trans {depth extra extra' : Nat} {s s' s'' : σ} (h : Grows depth s s' extra)
    (h' : Grows depth s' s'' extra') : Grows depth s s'' (extra + extra') where
  length := by
    have := h.length
    have := h'.length
    omega
  height := h'.height ∘ h.height

/-- More bytes may be allowed than are added. -/
theorem Grows.mono {depth extra extra' : Nat} {s s' : σ} (h : Grows depth s s' extra)
    (hle : extra ≤ extra') : Grows depth s s' extra' :=
  ⟨Nat.le_trans h.length (Nat.add_le_add_left hle _), h.height⟩

/-- The value of a field adds to a message at most twice the bytes that it takes, its key apart. -/
def Field.IsBounded (depth : Nat) (field : Field σ) : Prop :=
  ∀ s, Gives (field.merge s) fun s' n =>
    Grows depth s s' (Varint.size (Key.value ⟨field.number, field.wireType⟩) + 2 * n)

/-- A field with single values adds a record of bounded size. -/
theorem isBounded_scalar {kind : Scalar α} {number : Nat} {label : String} {put : α → σ → σ}
    (depth : Nat) (hbounded : kind.IsBounded) (hfaithful : kind.IsFaithful)
    (hput : ∀ v s, Exchanged (Message.records s) (Message.records (put v s)) []
      [kind.record number v]) :
    (Field.scalar number label kind put).IsBounded depth := by
  intro s
  refine Gives.map hbounded fun v n hn => ?_
  obtain ⟨hsize, hheight, -⟩ := hput v s
  rw [Record.sizeAll_singleton, Record.sizeAll] at hsize
  rw [Record.heightAll_singleton, hfaithful.height_record, Nat.max_zero] at hheight
  have hrecord := hn number
  -- The key of the record is as long as the key that was read, and its height is at most one.
  constructor
  · show Record.sizeAll _ ≤ Record.sizeAll _ + (Varint.size (Key.value ⟨number, kind.wireType⟩) + _)
    omega
  · exact Nat.le_trans hheight

/-- At a remaining depth all fields of a message are bounded. -/
def Message.IsBounded (σ : Type) [Message σ] (depth : Nat) : Prop :=
  ∀ field ∈ Message.fields (σ := σ) depth, field.IsBounded depth

/-- A field that is read makes a message longer by at most twice the bytes that it takes. -/
theorem gives_mergeField {name : String} {fields : List (Field σ)} {depth : Nat}
    (h : ∀ field ∈ fields, field.IsBounded depth) (s : σ) :
    Gives (mergeField name fields depth s) fun s' n => Grows depth s s' (2 * n) := by
  refine Key.gives_read.bind fun key n hkey => ?_
  cases hfind : fields.find? (·.number == key.number) with
  -- An unknown field is skipped: the message does not grow at all.
  | none =>
    exact (gives_skip depth key).bind fun _ k _ => gives_pure ((Grows.refl depth s).mono (by omega))
  | some field =>
    have hnumber : field.number = key.number := by simpa using List.find?_some hfind
    refine Gives.mapError ?_ _
    split
    · next hwire =>
      -- The key may have been spelled with more bytes than needed, never with fewer.
      have hsize : Varint.size (Key.value ⟨field.number, field.wireType⟩) ≤ n := by
        rw [hnumber, ← hwire]
        exact hkey
      refine (h field (List.mem_of_find?_eq_some hfind) s).mono fun s' k hs => hs.mono ?_
      omega
    · exact gives_fault _ _

/-- A message of a length takes at most that many bytes. -/
theorem gives_mergeWithin {name : String} {fields : List (Field σ)} {depth : Nat}
    (h : ∀ field ∈ fields, field.IsBounded depth) (length : Nat) (s : σ) :
    Gives (mergeWithin name fields depth length s) fun s' n =>
      n ≤ length ∧ Grows depth s s' (2 * n) := by
  -- What is left of the length and what was taken make up the length.
  have hloop : Gives (Reader.iterate (mergeStep name fields depth) (length, s))
      fun p n => p.1 + n = length ∧ Grows depth s p.2 (2 * n) := by
    refine gives_iterate (fun p n hp => ?_) ⟨rfl, Grows.refl depth s⟩
    obtain ⟨hlength, hgrows⟩ := hp
    rw [mergeStep]
    split
    · exact gives_pure ⟨hlength, hgrows⟩
    · refine (gives_mergeField h p.2).counted.bind fun q k hq => ?_
      obtain ⟨htaken, hstep⟩ := hq
      split
      · exact gives_fault _ _
      · refine gives_pure ⟨?_, (hgrows.trans hstep).mono (by omega)⟩
        show p.1 - q.2 + _ = length
        omega
  exact hloop.map fun p n hp => ⟨by omega, hp.2⟩

/-- A message with its length in front. -/
theorem gives_mergeDelimited {name : String} {fields : List (Field σ)} {depth : Nat}
    (h : ∀ field ∈ fields, field.IsBounded depth) (s : σ) :
    Gives (mergeDelimited name fields depth s) fun s' n =>
      ∃ p, p + Varint.size p ≤ n ∧ Grows depth s s' (2 * p) := by
  refine Varint.gives_read.bind fun length n hn => ?_
  have hget : Gives (get : ByteReader (List UInt8)) fun _ k => k = 0 := by
    rintro input _ _ ⟨⟩
    exact ⟨0, by omega, rfl⟩
  -- Reading the remaining input takes no bytes of it.
  refine hget.bind fun input k hk => ?_
  split
  · exact gives_fault _ _
  · refine (gives_mergeWithin h length s).mono fun s' p hp => ⟨p, ?_, hp.2⟩
    -- The length that was announced may be shorter than the one that would be written.
    have hsize := Varint.size_mono hp.1
    omega

/-- A message grows when an embedded message grows that takes the place of an old one, or of none.
The length in front of it grows with it. -/
theorem Exchanged.grows {number inner p n : Nat} {s s' : σ} {old : Option τ} {v : τ}
    (h : Exchanged (Message.records s) (Message.records s')
      (old.map fun m => Record.message number (Message.records m)).toList
      [.message number (Message.records v)])
    (hempty : Message.records (Message.empty : τ) = [])
    (hv : Grows inner (old.getD Message.empty) v (2 * p)) (hp : p + Varint.size p ≤ n) :
    Grows (inner + 1) s s' (Varint.size (Key.value ⟨number, .lengthDelimited⟩) + 2 * n) := by
  obtain ⟨hsize, hheight, hold⟩ := h
  obtain ⟨hlength, hinner⟩ := hv
  rw [Record.sizeAll_singleton, Record.size] at hsize
  rw [Record.heightAll_singleton, Record.height] at hheight
  unfold Message.encodedLength at hlength
  unfold Message.height at hinner
  cases old with
  | none =>
    rw [Option.getD_none, hempty, Record.sizeAll, Nat.zero_add] at hlength
    rw [Option.getD_none, hempty] at hinner
    rw [Option.map_none, Option.toList_none, Record.sizeAll] at hsize
    have hfront := Varint.size_le_of_le_two_mul hlength
    have hdeep := hinner (Nat.zero_le inner)
    constructor
    · show Record.sizeAll _ ≤ Record.sizeAll _ + _
      omega
    · show Record.heightAll _ ≤ inner + 1 → Record.heightAll _ ≤ inner + 1
      omega
  | some t =>
    rw [Option.getD_some] at hlength hinner
    rw [Option.map_some, Option.toList_some, Record.sizeAll_singleton, Record.size] at hsize
    rw [Option.map_some, Option.toList_some, Record.heightAll_singleton, Record.height] at hold
    have hfront := Varint.size_le_of_le_add_two_mul hlength
    constructor
    · show Record.sizeAll _ ≤ Record.sizeAll _ + _
      omega
    · show Record.heightAll _ ≤ inner + 1 → Record.heightAll _ ≤ inner + 1
      intro hs
      -- The old message is one of the records of `s`, so it is not too deep either.
      have hdeep := hinner (by omega)
      omega

/-- A field with embedded messages is bounded where their fields are one level deeper. What was
there before is read into, and is written no more. -/
theorem isBounded_message {number : Nat} {label : String} {start : σ → τ} {put : τ → σ → σ}
    {depth : Nat} (hinner : ∀ inner < depth, Message.IsBounded τ inner)
    (hempty : Message.records (Message.empty : τ) = [])
    (hput : ∀ v s, ∃ old : Option τ, start s = old.getD Message.empty
      ∧ Exchanged (Message.records s) (Message.records (put v s))
        (old.map fun m => Record.message number (Message.records m)).toList
        [.message number (Message.records v)]) :
    (Field.message number label (Message.embedded τ depth) start put).IsBounded depth := by
  intro s
  cases depth with
  -- Without a level left the reader fails, so there is nothing to bound.
  | zero => exact (gives_fault .depthReached fun _ _ => False).bind fun _ _ h => h.elim
  | succ inner =>
    refine Gives.map (gives_mergeDelimited (hinner inner (Nat.lt_succ_self inner)) (start s))
      fun v n hv => ?_
    obtain ⟨p, hp, hgrows⟩ := hv
    -- What is merged starts from the message already there, or from the empty one.
    obtain ⟨old, hstart, hexchanged⟩ := hput v s
    rw [hstart] at hgrows
    exact hexchanged.grows hempty hgrows hp

/-- What is decoded has at most twice the bytes of the input when it is written, and its messages
are nested no deeper than the limit. -/
theorem bounds_of_decode (hfields : Message.IsBounded σ Message.depthLimit)
    (hempty : Message.records (Message.empty : σ) = []) {input : List UInt8} {m : σ}
    (h : Message.decode σ input = .ok m) :
    Message.encodedLength m ≤ 2 * input.length ∧ Message.height m ≤ Message.depthLimit := by
  obtain ⟨rest, hrun⟩ := exists_run_of_decode h
  obtain ⟨n, -, hn, hlength, hheight⟩ :=
    gives_mergeWithin hfields input.length Message.empty input m rest hrun
  -- Decoding starts from the empty message, whose encoding has no bytes.
  have hzero : Message.encodedLength (Message.empty : σ) = 0 := by
    rw [Message.encodedLength, hempty, Record.sizeAll]
  refine ⟨by omega, hheight ?_⟩
  rw [Message.height, hempty]
  exact Nat.zero_le _

end Message

end ProtoSchema.Wire
