import ProtoSchema.Reader
import ProtoSchema.Wire.DecodeError

/-!
# Variable-length numbers

A number is written in base 128, the least significant digit first; every byte but the last has
its high bit set. A reader takes ten bytes at most, and of the tenth only the values that still fit
into 64 bits.

Key results:
* `length_encode` — the number of bytes is `size`
* `read_encode` — what was written is read back, whatever follows
-/

namespace ProtoSchema.Wire

/-- A reader of encoded bytes. -/
abbrev ByteReader := Reader UInt8 DecodeError

/-- Fails with a fault at this place. -/
def fault {α : Type} (f : DecodeFault) : ByteReader α :=
  Reader.fail ⟨f, []⟩

namespace Varint

/-- The digits of `n`, with `more` bytes before the last one. -/
def digits : Nat → Nat → List UInt8
  | 0, n => [UInt8.ofNat n]
  | more + 1, n => UInt8.ofNat (n % 128 + 128) :: digits more (n / 128)

/-- The shortest encoding of `n`. -/
def encode (n : Nat) : List UInt8 :=
  digits (n.log2 / 7) n

/-- The number of bytes in the encoding of `n`. -/
def size (n : Nat) : Nat :=
  n.log2 / 7 + 1

/-- Reads digits from at most `limit` bytes. The last byte that is allowed is the tenth of a
64-bit number and holds its highest bit alone. -/
def readDigits : (limit : Nat) → List UInt8 → Option (Nat × List UInt8)
  | 0, _ => none
  | _ + 1, [] => none
  | limit + 1, b :: rest =>
    if b < 128 then
      if limit = 0 ∧ 1 < b then none else some (b.toNat, rest)
    else
      (readDigits limit rest).map fun (high, rest) => (b.toNat - 128 + 128 * high, rest)

/-- Reads one number. -/
def read : ByteReader Nat :=
  fun input =>
    match readDigits 10 input with
    | some (n, rest) => .ok (n, rest)
    | none => .error ⟨.invalidVarint, []⟩

/-- The digits before the last one and the last one. -/
@[simp] theorem length_digits (more n : Nat) : (digits more n).length = more + 1 := by
  induction more generalizing n with
  | zero => rfl
  | succ more ih => simp [digits, ih]

/-- An encoding has as many bytes as `size` says. -/
theorem length_encode (n : Nat) : (encode n).length = size n := by
  simp [encode, size]

/-- Digits that fit are read back, whatever follows: nothing of `n` is left after the last one,
and where no further byte is allowed the last one holds a single bit. -/
theorem readDigits_digits {limit more n : Nat} {rest : List UInt8} (hl : more < limit)
    (hn : n >>> (7 * more) < 128) (hlast : limit = more + 1 → n >>> (7 * more) < 2) :
    readDigits limit (digits more n ++ rest) = some (n, rest) := by
  induction more generalizing limit n with
  | zero =>
    obtain ⟨limit, rfl⟩ := Nat.exists_eq_succ_of_ne_zero (Nat.ne_of_gt hl)
    have hn : n < 128 := hn
    have hb : (UInt8.ofNat n).toNat = n := by
      simp only [UInt8.toNat_ofNat']
      omega
    have hlt : UInt8.ofNat n < 128 := by
      rw [UInt8.lt_iff_toNat_lt, hb]
      exact hn
    -- The tenth byte holds one bit only, and the last digit is smaller than 2 there.
    have hbig : ¬(limit = 0 ∧ 1 < UInt8.ofNat n) := by
      rintro ⟨rfl, h⟩
      rw [UInt8.lt_iff_toNat_lt, hb] at h
      have h2 : n < 2 := hlast rfl
      have h1 : 1 < n := h
      omega
    simp [digits, readDigits, hlt, hbig, hb]
  | succ more ih =>
    obtain ⟨limit, rfl⟩ := Nat.exists_eq_succ_of_ne_zero (Nat.ne_of_gt (Nat.lt_of_le_of_lt
      (Nat.zero_le _) hl))
    have hb : (UInt8.ofNat (n % 128 + 128)).toNat = n % 128 + 128 := by
      simp only [UInt8.toNat_ofNat']
      omega
    have hlt : ¬UInt8.ofNat (n % 128 + 128) < 128 := by
      rw [UInt8.lt_iff_toNat_lt, hb]
      simp
    have hshift : (n / 128) >>> (7 * more) = n >>> (7 * (more + 1)) := by
      rw [show n / 128 = n >>> 7 from (Nat.shiftRight_eq_div_pow n 7).symm, ← Nat.shiftRight_add,
        Nat.mul_succ, Nat.add_comm]
    -- What is left after the lowest digit is the number divided by 128.
    have hrec : readDigits limit (digits more (n / 128) ++ rest) = some (n / 128, rest) := by
      apply ih (by omega)
      · rw [hshift]
        exact hn
      · intro h
        rw [hshift]
        exact hlast (by omega)
    simp only [digits, List.cons_append, readDigits, hlt, ↓reduceIte, hrec, Option.map_some, hb]
    congr 2
    omega

/-- A number of 64 bits is read back, whatever follows. -/
theorem read_encode {n : Nat} (h : n < UInt64.size) (rest : List UInt8) :
    read.run (encode n ++ rest) = .ok (n, rest) := by
  have hlog : n.log2 < 64 := by
    rcases Nat.eq_zero_or_pos n with rfl | hpos
    · decide
    · exact (Nat.log2_lt (Nat.ne_of_gt hpos)).2 h
  have hlt : n < 2 ^ (n.log2 + 1) := Nat.lt_log2_self
  have hd : readDigits 10 (encode n ++ rest) = some (n, rest) := by
    apply readDigits_digits (by omega)
    · rw [Nat.shiftRight_eq_div_pow, Nat.div_lt_iff_lt_mul (Nat.two_pow_pos _)]
      refine Nat.lt_of_lt_of_le hlt ?_
      rw [show (128 : Nat) = 2 ^ 7 from rfl, ← Nat.pow_add]
      exact Nat.pow_le_pow_right (by decide) (by omega)
    · intro h10
      -- Ten digits are written only for 64 bits, whose tenth digit is one bit.
      have h9 : n.log2 / 7 = 9 := by omega
      rw [h9, Nat.shiftRight_eq_div_pow, Nat.div_lt_iff_lt_mul (by decide)]
      exact h
  simp [read, StateT.run, hd]

end Varint

end ProtoSchema.Wire
