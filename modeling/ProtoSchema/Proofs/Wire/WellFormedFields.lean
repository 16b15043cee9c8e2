import Mathlib.Algebra.Group.Nat.Defs
import ProtoSchema.Proofs.Wire.Consuming

/-!
# Well-formed fields

Which bytes are a field, whatever its number means: a key, and behind it a number, eight or four
bytes, a length with as many bytes, or the fields of a group up to the end of that group. Numbers
need not be written in the shortest way. A group nests its fields one level deeper, so a field has a
number of `levels`, itself being the first.

Key results:
* `Varint.takes_read`, `Varint.consumes_read` — the bytes that are read as a number
* `takes_skip`, `exhausts_skip`, `consumes_skip` — a field is skipped iff it is well-formed and has
  no more levels than the remaining depth
* `IsField.append_inj` — where a field ends is seen from its own bytes
-/

namespace ProtoSchema.Wire

variable {levels levels' depth number : Nat} {key key' : Key} {bs cs xs ys : List UInt8}

/-! ## Numbers and keys -/

namespace Varint

/-- The bytes are the digits of a number in base 128, the least significant one first. All but the
last have their high bit set. -/
inductive Spells : List UInt8 → Nat → Prop
  | last {b : UInt8} (hb : b < 128) : Spells [b] b.toNat
  | more {b : UInt8} {bs : List UInt8} {n : Nat} (hb : ¬b < 128) (h : Spells bs n) :
    Spells (b :: bs) (b.toNat - 128 + 128 * n)

/-- A number has a digit. -/
theorem Spells.ne_nil {n : Nat} (h : Spells bs n) : bs ≠ [] := by
  cases h <;> exact List.cons_ne_nil _ _

/-- Digits are read that are not too many, of a number that fits into them when the last one that
is allowed holds a single bit. -/
theorem readDigits_of_spells {n limit : Nat} (h : Spells bs n) (hlength : bs.length ≤ limit + 1)
    (hn : n < 2 * 128 ^ limit) (rest : List UInt8) :
    readDigits (limit + 1) (bs ++ rest) = some (n, rest) := by
  induction h generalizing limit with
  | @last b hb =>
    -- The tenth byte holds one bit only; the bound on the number rules out a larger one.
    have hbit : ¬(limit = 0 ∧ 1 < b) := by
      rintro ⟨rfl, h⟩
      rw [UInt8.lt_iff_toNat_lt] at h
      have h1 : 1 < b.toNat := h
      omega
    simp [readDigits, hb, hbit]
  | @more b bs high hb h ih =>
    have hpos : 0 < bs.length := List.length_pos_iff.2 h.ne_nil
    obtain ⟨limit, rfl⟩ : ∃ m, limit = m + 1 := ⟨limit - 1, by
      rw [List.length_cons] at hlength
      omega⟩
    have hhigh : high < 2 * 128 ^ limit := by
      rw [Nat.pow_succ] at hn
      omega
    -- The higher digits spell a number that is smaller by a factor of 128.
    have htail := ih (by rw [List.length_cons] at hlength; omega) hhigh
    simp [readDigits, hb, htail]

/-- Digits that are read are the digits of a number. -/
theorem spells_of_readDigits {n limit : Nat} {input rest : List UInt8}
    (h : readDigits (limit + 1) input = some (n, rest)) :
    ∃ bs, input = bs ++ rest ∧ Spells bs n ∧ bs.length ≤ limit + 1 ∧ n < 2 * 128 ^ limit := by
  induction limit generalizing input n with
  | zero =>
    cases input with
    | nil => cases h
    | cons b tail =>
      rw [readDigits] at h
      split at h
      · next hb =>
        split at h
        · cases h
        · next hbit =>
          obtain ⟨rfl, rfl⟩ := Prod.mk.inj (Option.some.inj h)
          -- At the last allowed byte the reader checks that no bit is lost.
          have hle : b.toNat ≤ 1 := by
            have hb1 : ¬1 < b := fun h => hbit ⟨rfl, h⟩
            exact UInt8.le_iff_toNat_le.1 (UInt8.not_lt.1 hb1)
          exact ⟨[b], rfl, .last hb, Nat.le_refl _, by omega⟩
      · cases h
  | succ limit ih =>
    cases input with
    | nil => cases h
    | cons b tail =>
      have hbyte := b.toNat_lt
      rw [readDigits] at h
      split at h
      · next hb =>
        rw [if_neg (by omega)] at h
        obtain ⟨rfl, rfl⟩ := Prod.mk.inj (Option.some.inj h)
        have hlt : b.toNat < 128 := UInt8.lt_iff_toNat_lt.1 hb
        have hpos := Nat.pow_pos (n := limit) (show 0 < 128 by decide)
        refine ⟨[b], rfl, .last hb, by simp, ?_⟩
        rw [Nat.pow_succ]
        omega
      · next hb =>
        -- A byte with the high bit set: the rest of the digits are read recursively.
        obtain ⟨⟨high, rest'⟩, htail, heq⟩ := Option.map_eq_some_iff.1 h
        obtain ⟨rfl, rfl⟩ := Prod.mk.inj heq
        obtain ⟨bs, rfl, hspells, hlength, hhigh⟩ := ih htail
        refine ⟨b :: bs, rfl, .more hb hspells, by rw [List.length_cons]; omega, ?_⟩
        rw [Nat.pow_succ]
        omega

end Varint

/-- The bytes are an encoding of a number of 64 bits, in ten bytes at most. -/
structure IsVarint (bs : List UInt8) (n : Nat) : Prop where
  spells : Varint.Spells bs n
  length_le : bs.length ≤ 10
  lt : n < UInt64.size

namespace Varint

/-- Every encoding of a number is read, whatever follows. -/
theorem takes_read {n : Nat} (h : IsVarint bs n) : Takes read bs n := by
  intro rest
  have hdigits : readDigits 10 (bs ++ rest) = some (n, rest) :=
    readDigits_of_spells h.spells h.length_le h.lt rest
  simp [read, StateT.run, hdigits]

/-- A number is read from one of its encodings. -/
theorem consumes_read : Consumes read fun n bs => IsVarint bs n := by
  intro input n rest h
  have h' : read input = .ok (n, rest) := h
  rw [read] at h'
  split at h'
  · next hdigits =>
    cases h'
    obtain ⟨bs, hinput, hspells, hlength, hlt⟩ := spells_of_readDigits hdigits
    have hvarint : IsVarint bs n := ⟨hspells, hlength, hlt⟩
    exact ⟨bs, hinput, takes_read hvarint, hvarint⟩
  · cases h'

/-- The shortest encoding is one of them. -/
theorem isVarint_encode {n : Nat} (h : n < UInt64.size) : IsVarint (encode n) n :=
  consumes_read.of_takes (read_encode h)

end Varint

/-- A wire type has the code that it is read from. -/
theorem WireType.code_of_ofCode? {code : Nat} {w : WireType} (h : ofCode? code = some w) :
    w.code = code := by
  unfold ofCode? at h
  split at h <;> cases h <;> rfl

/-- The value of a key is the number that it is read from. -/
theorem Key.value_of_ofValue {value : Nat} {key : Key} (h : ofValue value = .ok key) :
    key.value = value := by
  rw [ofValue] at h
  split at h
  · cases h
  · split at h
    · cases h
    · next w hw =>
      -- The number is the quotient by 8 and the wire type the remainder.
      have hcode := WireType.code_of_ofCode? hw
      split at h
      · cases h
      · cases h
        show value / 8 * 8 + w.code = value
        omega

/-- The bytes are an encoding of a key with a valid field number. -/
structure IsKey (key : Key) (bs : List UInt8) : Prop where
  isVarint : IsVarint bs key.value
  pos : 0 < key.number
  lt : key.number < Key.numberBound

namespace Key

/-- Every encoding of a key is read, whatever follows. -/
theorem takes_read (h : IsKey key bs) : Takes Key.read bs key := by
  refine (Varint.takes_read h.isVarint).bind_last ?_
  rw [ofValue_value h.pos h.lt]
  exact takes_pure key

/-- The number of a key that is read is valid. -/
theorem valid_of_ofValue {value : Nat} (h : ofValue value = .ok key) :
    0 < key.number ∧ key.number < numberBound := by
  rw [ofValue] at h
  split at h
  · cases h
  · next hvalue =>
    split at h
    · cases h
    · split at h
      · cases h
      · cases h
        simp only [numberBound, UInt32.size] at hvalue ⊢
        omega

/-- A key is read from one of its encodings. -/
theorem consumes_read : Consumes Key.read fun key bs => IsKey key bs := by
  refine Varint.consumes_read.bind fun value bs hvarint => ?_
  cases hkey : ofValue value with
  | error f => exact consumes_fault f _
  | ok key =>
    refine consumes_pure ?_
    obtain ⟨hpos, hlt⟩ := valid_of_ofValue hkey
    rw [List.append_nil]
    rw [← value_of_ofValue hkey] at hvarint
    exact ⟨hvarint, hpos, hlt⟩

end Key

/-- The shortest encoding of a key is one of its encodings. -/
theorem isKey_encode (hpos : 0 < key.number) (hlt : key.number < Key.numberBound) :
    IsKey key key.encode :=
  Key.consumes_read.of_takes (Key.read_encode hpos hlt)

/-! ## Fields -/

mutual

/-- The bytes are what stands behind the key of a field with so many levels. -/
inductive IsContent : (levels : Nat) → Key → List UInt8 → Prop
  | varint {number n : Nat} {bs : List UInt8} (h : IsVarint bs n) :
    IsContent 1 ⟨number, .varint⟩ bs
  | sixtyFourBit {number : Nat} {bs : List UInt8} (h : bs.length = 8) :
    IsContent 1 ⟨number, .sixtyFourBit⟩ bs
  | thirtyTwoBit {number : Nat} {bs : List UInt8} (h : bs.length = 4) :
    IsContent 1 ⟨number, .thirtyTwoBit⟩ bs
  | lengthDelimited {number : Nat} {length payload : List UInt8}
    (h : IsVarint length payload.length) :
    IsContent 1 ⟨number, .lengthDelimited⟩ (length ++ payload)
  | group {levels number : Nat} {fields stop : List UInt8} (hfields : IsFields levels fields)
    (hstop : IsKey ⟨number, .endGroup⟩ stop) :
    IsContent (levels + 1) ⟨number, .startGroup⟩ (fields ++ stop)

/-- The bytes are fields one after the other, with so many levels at most. -/
inductive IsFields : (levels : Nat) → List UInt8 → Prop
  | nil : IsFields 0 []
  | cons {levels levels' : Nat} {key : Key} {start content fields : List UInt8}
    (hstart : IsKey key start) (hcontent : IsContent levels key content)
    (hfields : IsFields levels' fields) :
    IsFields (max levels levels') (start ++ content ++ fields)

end

/-- The bytes are a field with so many levels: a key and what stands behind it. -/
def IsField (levels : Nat) (key : Key) (bs : List UInt8) : Prop :=
  ∃ start content, bs = start ++ content ∧ IsKey key start ∧ IsContent levels key content

/-- A key has a byte. -/
theorem IsKey.ne_nil (h : IsKey key bs) : bs ≠ [] :=
  h.isVarint.spells.ne_nil

/-- A field has a byte. -/
theorem IsField.ne_nil (h : IsField levels key bs) : bs ≠ [] := by
  obtain ⟨start, content, rfl, hstart, -⟩ := h
  exact List.append_ne_nil_of_left_ne_nil hstart.ne_nil content

/-- A single field is a sequence of fields. -/
theorem IsField.isFields (h : IsField levels key bs) : IsFields levels bs := by
  obtain ⟨start, content, rfl, hstart, hcontent⟩ := h
  have hfields := IsFields.cons hstart hcontent .nil
  rwa [Nat.max_zero, List.append_nil] at hfields

/-- What stands behind a key is not the end of a group. -/
theorem IsContent.wireType_ne_endGroup (h : IsContent levels key bs) :
    key.wireType ≠ .endGroup := by
  cases h <;> exact nofun

/-- A field is its own first level. -/
theorem IsContent.levels_pos (h : IsContent levels key bs) : 0 < levels := by
  cases h <;> omega

/-! ## Skipping -/

/-- The bytes are the fields of a group and its end, with at most `depth` levels. -/
def EndsGroup (number depth : Nat) (bs : List UInt8) : Prop :=
  ∃ levels ≤ depth, ∃ fields stop, bs = fields ++ stop ∧ IsFields levels fields
    ∧ IsKey ⟨number, .endGroup⟩ stop

/-- One step of skipping a group: the end of the group, or a field in it. -/
def skipStep (number depth : Nat) : Unit → ByteReader (Option Unit) := fun _ => do
  let key ← Key.read
  if key.wireType = .endGroup then
    if key.number = number then pure none else fault .unexpectedEndGroup
  else
    skip depth key
    pure (some ())

/-- A group is skipped step by step. -/
theorem skipGroup_eq (number depth : Nat) :
    skipGroup number (skip depth) = Reader.iterate (skipStep number depth) () := rfl

/-- The end of a group is seen where its key is. -/
theorem takes_skipStep_none (depth : Nat) (h : IsKey ⟨number, .endGroup⟩ bs) :
    Takes (skipStep number depth ()) bs none := by
  refine (Key.takes_read h).bind_last ?_
  rw [if_pos rfl, if_pos rfl]
  exact takes_pure none

/-- Behind the key of a field in a group, the field is skipped. -/
theorem takes_skipStep_some (number : Nat) (hkey : IsKey key bs) (hwire : key.wireType ≠ .endGroup)
    (h : Takes (skip depth key) cs ()) : Takes (skipStep number depth ()) (bs ++ cs) (some ()) := by
  refine (Key.takes_read hkey).bind ?_
  rw [if_neg hwire]
  exact h.map fun _ => some ()

/-- A field in a group may be too deep. -/
theorem exhausts_skipStep (number : Nat) (hkey : IsKey key bs) (hwire : key.wireType ≠ .endGroup)
    (h : Exhausts (skip depth key) cs) : Exhausts (skipStep number depth ()) (bs ++ cs) := by
  refine (Key.takes_read hkey).bind_exhausts ?_
  rw [if_neg hwire]
  exact h.bind _

section Step

variable (number : Nat)
  (h : ∀ key, Consumes (skip depth key) fun _ bs => ∃ levels ≤ depth, IsContent levels key bs)

include h

/-- A step of skipping a group takes a field, or the key that ends the group. -/
theorem consumes_skipStep (u : Unit) :
    Consumes (skipStep number depth u) fun o bs =>
      match o with
      | none => IsKey ⟨number, .endGroup⟩ bs
      | some _ => ∃ levels ≤ depth, ∃ key, IsField levels key bs := by
  refine Key.consumes_read.bind fun key bs hkey => ?_
  obtain ⟨number', wireType⟩ := key
  dsimp only
  split
  · next hwire =>
    -- An end of group stops the loop when its number is that of the group, and is an error
    -- otherwise.
    subst hwire
    split
    · next hnumber =>
      subst hnumber
      refine consumes_pure ?_
      rw [List.append_nil]
      exact hkey
    · exact consumes_fault _ _
  · refine (h ⟨number', wireType⟩).map fun _ cs hcontent => ?_
    obtain ⟨levels, hle, hcontent⟩ := hcontent
    exact ⟨levels, hle, ⟨number', wireType⟩, bs, cs, rfl, hkey, hcontent⟩

/-- A step of skipping a group that goes on takes a field. -/
theorem advances_skipStep : Reader.Advances (skipStep number depth) := by
  refine advances_of_consumes fun u => (consumes_skipStep number h u).mono fun o bs ho hsome => ?_
  obtain ⟨_, rfl⟩ := Option.isSome_iff_exists.1 hsome
  obtain ⟨levels, -, key, hfield⟩ := ho
  exact hfield.ne_nil

/-- Skipping a group takes its fields and its end. -/
theorem consumes_skipGroup :
    Consumes (skipGroup number (skip depth)) fun _ bs => EndsGroup number depth bs := by
  rw [skipGroup_eq]
  refine consumes_iterate (P := fun _ bs _ => EndsGroup number depth bs)
    (advances_skipStep number h) (fun u => (consumes_skipStep number h u).mono fun o bs ho => ?_) ()
  cases o with
  | none => exact ⟨0, Nat.zero_le _, [], bs, rfl, .nil, ho⟩
  | some _ =>
    -- A field in front of what the later steps take.
    obtain ⟨levels, hle, key, start, content, rfl, hstart, hcontent⟩ := ho
    rintro _ - ⟨levels', hle', fields, stop, rfl, hfields, hstop⟩
    exact ⟨max levels levels', Nat.max_le.2 ⟨hle, hle'⟩, start ++ content ++ fields, stop,
      by simp only [List.append_assoc], .cons hstart hcontent hfields, hstop⟩

end Step

/-- What is skipped behind a key is well-formed and not too deep. By induction on the depth: the
fields of a group are skipped one level deeper. -/
theorem consumes_skip (depth : Nat) (key : Key) :
    Consumes (skip depth key) fun _ bs => ∃ levels ≤ depth, IsContent levels key bs := by
  induction depth generalizing key with
  | zero => exact consumes_fault _ _
  | succ depth ih =>
    obtain ⟨number, wireType⟩ := key
    rw [skip]
    cases wireType with
    -- Each wire type has its own content; only a group needs the induction hypothesis.
    | varint =>
      refine Varint.consumes_read.discard.mono fun _ bs h => ?_
      obtain ⟨n, hvarint⟩ := h
      exact ⟨1, by omega, .varint hvarint⟩
    | sixtyFourBit =>
      refine (consumes_take 8 _).discard.mono fun _ bs h => ?_
      obtain ⟨-, -, hlength⟩ := h
      exact ⟨1, by omega, .sixtyFourBit hlength⟩
    | thirtyTwoBit =>
      refine (consumes_take 4 _).discard.mono fun _ bs h => ?_
      obtain ⟨-, -, hlength⟩ := h
      exact ⟨1, by omega, .thirtyTwoBit hlength⟩
    | lengthDelimited =>
      refine Varint.consumes_read.bind fun length bs hvarint => ?_
      refine (consumes_take length _).discard.mono fun _ cs h => ?_
      obtain ⟨-, -, hlength⟩ := h
      rw [← hlength] at hvarint
      exact ⟨1, by omega, .lengthDelimited hvarint⟩
    | startGroup =>
      refine (consumes_skipGroup number ih).mono fun _ bs h => ?_
      obtain ⟨levels, hle, fields, stop, rfl, hfields, hstop⟩ := h
      -- A group is one level deeper than the deepest field inside it.
      exact ⟨levels + 1, by omega, .group hfields hstop⟩
    | endGroup => exact consumes_fault _ _

mutual

/-- What stands behind a key is skipped when it has no more levels than the remaining depth. -/
theorem takes_skip {levels : Nat} {key : Key} {bs : List UInt8} :
    {depth : Nat} → IsContent levels key bs → levels ≤ depth → Takes (skip depth key) bs ()
  | 0, h, hle => absurd hle (Nat.not_le.2 h.levels_pos)
  | depth + 1, .varint h, _ => (Varint.takes_read h).map fun _ => ()
  | depth + 1, .sixtyFourBit h, _ => by
    have htakes := takes_take bs ⟨.bufferUnderflow, []⟩
    rw [h] at htakes
    exact htakes.map fun _ => ()
  | depth + 1, .thirtyTwoBit h, _ => by
    have htakes := takes_take bs ⟨.bufferUnderflow, []⟩
    rw [h] at htakes
    exact htakes.map fun _ => ()
  | depth + 1, @IsContent.lengthDelimited _ _ payload h, _ =>
    (Varint.takes_read h).bind ((takes_take payload ⟨.bufferUnderflow, []⟩).map fun _ => ())
  | depth + 1, .group hfields hstop, hle =>
    takes_skipGroup hfields (Nat.le_of_succ_le_succ hle) hstop

/-- The fields of a group are skipped up to its end. -/
theorem takes_skipGroup {levels depth number : Nat} {bs stop : List UInt8} :
    IsFields levels bs → levels ≤ depth → IsKey ⟨number, .endGroup⟩ stop →
      Takes (skipGroup number (skip depth)) (bs ++ stop) ()
  | .nil, _, hstop => (takes_skipStep_none depth hstop).iterate_none
  | .cons hstart hcontent hfields, hle, hstop => by
    have hfirst := takes_skipStep_some number hstart hcontent.wireType_ne_endGroup
      (takes_skip hcontent (Nat.le_trans (Nat.le_max_left _ _) hle))
    -- The fields that follow are no deeper than the whole group.
    have hrest := takes_skipGroup hfields (Nat.le_trans (Nat.le_max_right _ _) hle) hstop
    rw [List.append_assoc, skipGroup_eq]
    exact hfirst.iterate_some (advances_skipStep number (consumes_skip depth)) hrest

end

mutual

/-- What stands behind a key is refused when it has more levels than the remaining depth. -/
theorem exhausts_skip {levels : Nat} {key : Key} {bs : List UInt8} :
    {depth : Nat} → IsContent levels key bs → depth < levels → Exhausts (skip depth key) bs
  | 0, _, _ => fun _ => ⟨_, rfl, rfl⟩
  | depth + 1, .varint _, hlt => by omega
  | depth + 1, .sixtyFourBit _, hlt => by omega
  | depth + 1, .thirtyTwoBit _, hlt => by omega
  | depth + 1, .lengthDelimited _, hlt => by omega
  | depth + 1, .group hfields _, hlt =>
    (exhausts_skipGroup hfields (Nat.lt_of_succ_lt_succ hlt)).append _

/-- A group is refused at its first field that is too deep. -/
theorem exhausts_skipGroup {levels depth number : Nat} {bs : List UInt8} :
    IsFields levels bs → depth < levels → Exhausts (skipGroup number (skip depth)) bs
  | .nil, hlt => by omega
  | @IsFields.cons levels levels' key start content fields hstart hcontent hfields, hlt => by
    rw [skipGroup_eq]
    by_cases hle : levels ≤ depth
    -- The first field fits into the depth: a later one is the one that does not.
    · have hfirst := takes_skipStep_some number hstart hcontent.wireType_ne_endGroup
        (takes_skip hcontent hle)
      exact hfirst.iterate_exhausts (advances_skipStep number (consumes_skip depth))
        (exhausts_skipGroup hfields (by omega))
    -- The first field is already too deep, and the loop stops there.
    · have hfirst := exhausts_skipStep number hstart hcontent.wireType_ne_endGroup
        (exhausts_skip hcontent (Nat.lt_of_not_le hle))
      exact hfirst.iterate.append fields

end

/-- A field is taken by reading its key and skipping what stands behind it. -/
theorem IsField.takes (h : IsField levels key bs) (hle : levels ≤ depth) :
    Takes (Key.read >>= skip depth) bs () := by
  obtain ⟨start, content, rfl, hstart, hcontent⟩ := h
  exact (Key.takes_read hstart).bind (takes_skip hcontent hle)

/-- Where a field ends is seen from its own bytes, whatever follows. -/
theorem IsField.append_inj (h : IsField levels key bs) (h' : IsField levels' key' cs)
    (heq : bs ++ xs = cs ++ ys) : bs = cs :=
  (h.takes (Nat.le_max_left levels levels')).append_inj (h'.takes (Nat.le_max_right levels levels'))
    heq

end ProtoSchema.Wire
