import GasNow.Codes.BigEndian
import GasNow.Firestore.OrderedCode
import Mathlib.Data.Nat.ModEq
import Mathlib.Tactic.IntervalCases

/-!
# `OrderedCode`: signed numbers

A signed number is written with as many bytes as it needs. The first bits say how many there
are: as many bits equal to the sign bit, then one that is not. What follows is the number itself,
in two's complement.
-/

namespace GasNow

namespace OrderedCode

open BigEndian Codes

def kMaxSigned64Length : Nat := 10

/-- Maps encoding length to header bits in the first two bytes. -/
def kLengthToHeaderBits : List (Byte × Byte) :=
  [(0, 0), (0x80, 0), (0xc0, 0), (0xe0, 0), (0xf0, 0), (0xf8, 0), (0xfc, 0), (0xfe, 0), (0xff, 0),
    (0xff, 0x80), (0xff, 0xc0)]

/-- Maps encoding lengths to the header bits that overlap with the payload. -/
def kLengthToMask : List (BitVec 64) :=
  [0, 0x80, 0xc000, 0xe00000, 0xf0000000, 0xf800000000, 0xfc0000000000, 0xfe000000000000,
    0xff00000000000000, 0x8000000000000000, 0]

/-- Maps the number of bits in a number to the encoding length. -/
def kBitsToLength : List Nat :=
  [1, 1, 1, 1, 1, 1, 1, 2, 2, 2, 2, 2, 2, 2, 3, 3, 3, 3, 3, 3, 3, 4,
    4, 4, 4, 4, 4, 4, 5, 5, 5, 5, 5, 5, 5, 6, 6, 6, 6, 6, 6, 6, 7, 7,
    7, 7, 7, 7, 7, 8, 8, 8, 8, 8, 8, 8, 9, 9, 9, 9, 9, 9, 9, 10]

/-- `Bits::Log2Floor64`, which is -1 at 0. -/
def log2Floor64 (n : Nat) : Int := if n = 0 then -1 else n.log2

/-- `n < 0 ? ~n : n` -/
def magnitude (n : Int64) : Nat := (if n < 0 then ~~~n else n).toInt.toNat

def signedEncodingLength (n : Int64) : Except Trap Nat :=
  subscript kBitsToLength (log2Floor64 (magnitude n) + 1).toNat

/-- `SignedEncodingLengthPositive`, for `n > 0`. -/
def signedEncodingLengthPositive (n : Nat) : Except Trap Nat := subscript kBitsToLength (n.log2 + 1)

/-- `UNALIGNED_STORE64` of `absl::ghtonll(v)` -/
def storeBigEndian (v : BitVec 64) : List Byte :=
  (List.range 8).map fun i => byte (v >>> (8 * (7 - i))).toNat

def writeSignedNumIncreasing (dest : List Byte) (val : Int64) : Except Trap (List Byte) := do
  let x := magnitude val
  if x < 64 then -- fast path for encoding length == 1
    return dest ++ [0x80 ^^^ byte val.toBitVec.toNat]
  -- buf = val in network byte order, sign extended to 10 bytes
  let sign_byte : Byte := if val < 0 then 0xff else 0
  let buf := [sign_byte, sign_byte] ++ storeBigEndian val.toBitVec
  hardAssert (buf.length = kMaxSigned64Length)
  let len ← signedEncodingLengthPositive x
  hardAssert (2 ≤ len)
  let header ← subscript kLengthToHeaderBits len
  match buf.drop (buf.length - len) with
  | b0 :: b1 :: rest => return dest ++ (b0 ^^^ header.1) :: (b1 ^^^ header.2) :: rest
  | _ => .error .indexOutOfRange

/-- The length of the encoding and its last eight bytes, sign extended, with the header bits still
in them; nothing if there are too few bytes or too many header bits. -/
def readRaw (src : List Byte) (xor_mask : BitVec 64) : Option (Nat × BitVec 64) :=
  let mask : Byte := byte xor_mask.toNat
  let first_byte := src.getD 0 0 ^^^ mask
  if first_byte ≠ 0xff then
    let len := 7 - (first_byte ^^^ 0xff).val.log2
    if src.length < len then none
    else
      let x := (src.take len).foldl
        (fun (x : BitVec 64) (b : Byte) => (x <<< 8) ||| BitVec.ofNat 64 b) xor_mask
      some (len, x)
  else if src.length < 8 then none
  else
    let second_byte := src.getD 1 0 ^^^ mask
    let third_byte := src.getD 2 0 ^^^ mask
    let len? :=
      if second_byte < 0x80 then some 8
      else if second_byte < 0xc0 then some 9
      else if second_byte = 0xc0 ∧ third_byte < 0x80 then some 10
      else none -- either len > 10 or len == 10 and #bits > 63
    match len? with
    | none => none
    | some len =>
      if src.length < len then none
      else some (len, BitVec.ofNat 64 (number ((src.drop (len - 8)).take 8)))

def readSignedNumIncreasing (src : List Byte) : Except Trap (Option (Int64 × List Byte)) := do
  if src.isEmpty then return none
  let xor_mask : BitVec 64 := if src.getD 0 0 &&& 0x80 = 0 then BitVec.allOnes 64 else 0
  match readRaw src xor_mask with
  | none => return none
  | some (len, raw) =>
    let mask ← subscript kLengthToMask len
    let x := Int64.ofBitVec (raw ^^^ mask) -- remove spurious header bits
    let expected ← signedEncodingLength x
    hardAssert (len = expected)
    return some (x, src.drop len)

section Words

/-- `n` ones in front of the bits of a number that is written with `n` bytes. -/
def header (n : Nat) : Nat := 256 ^ n - 2 ^ (7 * n)

/-- The number of bytes that a number is written with. -/
def codeLength (v : Int64) : Nat := (log2Floor64 (magnitude v) + 1).toNat / 7 + 1

/-- The number, sign extended to ten bytes. -/
def extended (v : Int64) : Nat := (v.toInt % 2 ^ 80).toNat

/-- The number with its header bits, of which the last `codeLength` bytes are written. -/
def word (v : Int64) : Nat := extended v ^^^ header (codeLength v)

def numberCode (v : Int64) : List Byte := bytes (codeLength v) (word v)

variable {v w : Int64}

theorem magnitude_of_nonneg (h : 0 ≤ v.toInt) : (magnitude v : Int) = v.toInt := by
  have hneg : ¬v < 0 := by
    rw [Int64.lt_iff_toInt_lt]
    exact not_lt.mpr h
  rw [magnitude, if_neg hneg, Int.toNat_of_nonneg h]

theorem magnitude_of_neg (h : v.toInt < 0) : (magnitude v : Int) = -v.toInt - 1 := by
  have hlo : -2 ^ 63 ≤ v.toInt := Int64.le_toInt v
  have hneg : v < 0 := Int64.lt_iff_toInt_lt.mpr h
  have hnot : (~~~v).toInt = -v.toInt - 1 := by
    rw [Int64.toInt_not, Int.bmod_eq_of_le]
    · omega
    · omega
  rw [magnitude, if_pos hneg, hnot, Int.toNat_of_nonneg (by omega)]

theorem magnitude_lt (v : Int64) : magnitude v < 2 ^ 63 := by
  have hlo : -2 ^ 63 ≤ v.toInt := Int64.le_toInt v
  have hhi : v.toInt < 2 ^ 63 := Int64.toInt_lt v
  rcases lt_or_ge v.toInt 0 with h | h
  · have hmagnitude := magnitude_of_neg h
    omega
  · have hmagnitude := magnitude_of_nonneg h
    omega

/-- The number of bits of a number. -/
theorem bits_le_iff (x k : Nat) : (log2Floor64 x + 1).toNat ≤ k ↔ x < 2 ^ k := by
  unfold log2Floor64
  by_cases hx : x = 0
  · rw [if_pos hx, hx]
    exact iff_of_true (Nat.zero_le k) (Nat.two_pow_pos k)
  · rw [if_neg hx, ← Nat.log2_lt hx]
    omega

/-- A number is written with the fewest bytes that leave room for its bits and its sign. -/
theorem codeLength_le_iff {n : Nat} (hn : 1 ≤ n) :
    codeLength v ≤ n ↔ magnitude v < 2 ^ (7 * n - 1) := by
  rw [← bits_le_iff]
  unfold codeLength
  omega

theorem codeLength_pos (v : Int64) : 1 ≤ codeLength v := Nat.succ_pos _

theorem codeLength_le (v : Int64) : codeLength v ≤ 10 := by
  apply (codeLength_le_iff (by decide)).mpr
  exact (magnitude_lt v).trans (by decide)

theorem magnitude_lt_codeLength (v : Int64) : magnitude v < 2 ^ (7 * codeLength v - 1) :=
  (codeLength_le_iff (codeLength_pos v)).mp le_rfl

theorem codeLength_mono (h : magnitude v ≤ magnitude w) : codeLength v ≤ codeLength w :=
  (codeLength_le_iff (codeLength_pos w)).mpr (h.trans_lt (magnitude_lt_codeLength w))

/-- The table of lengths. -/
theorem signedEncodingLength_eq (v : Int64) : signedEncodingLength v = .ok (codeLength v) := by
  have htable : ∀ b < 64, kBitsToLength[b]? = some (b / 7 + 1) := by decide
  have hbits : (log2Floor64 (magnitude v) + 1).toNat < 64 := by
    have hle := (bits_le_iff (magnitude v) 63).mpr (magnitude_lt v)
    omega
  exact subscript_eq_ok.mpr (htable _ hbits)

theorem signedEncodingLengthPositive_eq (h : magnitude v ≠ 0) :
    signedEncodingLengthPositive (magnitude v) = .ok (codeLength v) := by
  rw [← signedEncodingLength_eq, signedEncodingLength, log2Floor64, if_neg h]
  rfl

theorem pow_256 (n : Nat) : 256 ^ n = 2 ^ (8 * n) := by rw [Nat.pow_mul]

theorem header_eq (n : Nat) : header n = 2 ^ (7 * n) * (2 ^ n - 1) := by
  have hsplit : 256 ^ n = 2 ^ (7 * n) * 2 ^ n := by
    rw [pow_256, ← pow_add]
    congr 1
    omega
  rw [header, hsplit, Nat.mul_sub, Nat.mul_one]

/-- The header takes the upper half of the values or more. -/
theorem two_mul_pow_le {n : Nat} (hn : 1 ≤ n) : 2 * 2 ^ (7 * n) ≤ 256 ^ n := by
  rw [pow_256, ← pow_succ']
  exact Nat.pow_le_pow_right (by decide) (by omega)

theorem two_mul_pow_pred {n : Nat} (hn : 1 ≤ n) : 2 ^ (7 * n) = 2 * 2 ^ (7 * n - 1) := by
  rw [← pow_succ']
  congr 1
  omega

theorem word_of_nonneg (h : 0 ≤ v.toInt) : word v = header (codeLength v) + magnitude v := by
  have hlt := magnitude_lt_codeLength v
  have hpow := two_mul_pow_pred (codeLength_pos v)
  have hmagnitude := magnitude_of_nonneg h
  have hbound := magnitude_lt v
  have hextended : extended v = 2 ^ (7 * codeLength v) * 0 + magnitude v := by
    unfold extended
    omega
  rw [word, hextended, header_eq, xor_high (by omega), Nat.zero_xor]

theorem word_of_neg (h : v.toInt < 0) :
    word v = 256 ^ codeLength v * (256 ^ (10 - codeLength v) - 1) +
      (2 ^ (7 * codeLength v) - (magnitude v + 1)) := by
  have hlt := magnitude_lt_codeLength v
  have hle := codeLength_le v
  have hpow := two_mul_pow_pred (codeLength_pos v)
  have hmagnitude := magnitude_of_neg h
  have hbound := magnitude_lt v
  have hsplit : 2 ^ 80 = 2 ^ (7 * codeLength v) * 2 ^ (80 - 7 * codeLength v) := by
    rw [← pow_add]
    congr 1
    omega
  have hones : 1 ≤ 2 ^ (80 - 7 * codeLength v) := Nat.one_le_two_pow
  have hextended : extended v = 2 ^ (7 * codeLength v) * (2 ^ (80 - 7 * codeLength v) - 1) +
      (2 ^ (7 * codeLength v) - (magnitude v + 1)) := by
    rw [Nat.mul_sub, ← hsplit, Nat.mul_one]
    unfold extended
    have hle' : 2 ^ (7 * codeLength v) ≤ 2 ^ 80 := Nat.pow_le_pow_right (by decide) (by omega)
    omega
  have hsmall : 2 ^ codeLength v - 1 < 2 ^ (80 - 7 * codeLength v) := by
    have hle' : 2 ^ codeLength v ≤ 2 ^ (80 - 7 * codeLength v) :=
      Nat.pow_le_pow_right (by decide) (by omega)
    have hpos := Nat.two_pow_pos (codeLength v)
    omega
  have hhigh : 2 ^ (80 - 7 * codeLength v) - 1 - (2 ^ codeLength v - 1) =
      2 ^ codeLength v * (256 ^ (10 - codeLength v) - 1) := by
    have hsplit' : 2 ^ (80 - 7 * codeLength v) =
        2 ^ codeLength v * 256 ^ (10 - codeLength v) := by
      rw [pow_256, ← pow_add]
      congr 1
      omega
    rw [Nat.mul_sub, ← hsplit', Nat.mul_one]
    have hpos := Nat.two_pow_pos (codeLength v)
    omega
  have h256 : 256 ^ codeLength v = 2 ^ (7 * codeLength v) * 2 ^ codeLength v := by
    rw [pow_256, ← pow_add]
    congr 1
    omega
  rw [word, hextended, header_eq, xor_high (by omega), ones_xor hsmall, hhigh, h256]
  ring

/-- The number that the written bytes of a number stand for. -/
theorem word_mod_of_nonneg (h : 0 ≤ v.toInt) :
    word v % 256 ^ codeLength v = header (codeLength v) + magnitude v := by
  have hlt := magnitude_lt_codeLength v
  have hpow := two_mul_pow_pred (codeLength_pos v)
  have hle := two_mul_pow_le (codeLength_pos v)
  rw [word_of_nonneg h, Nat.mod_eq_of_lt]
  unfold header
  omega

theorem word_mod_of_neg (h : v.toInt < 0) :
    word v % 256 ^ codeLength v = 2 ^ (7 * codeLength v) - (magnitude v + 1) := by
  have hpos := Nat.two_pow_pos (7 * codeLength v)
  have hle := two_mul_pow_le (codeLength_pos v)
  rw [word_of_neg h, Nat.mul_add_mod, Nat.mod_eq_of_lt]
  omega

end Words

section Order

open Codes

variable {v w : Int64}

/-- What is written for the numbers of one length is ordered as the numbers are. -/
theorem word_mod_lt (h : v < w) (hlength : codeLength v = codeLength w) :
    word v % 256 ^ codeLength v < word w % 256 ^ codeLength v := by
  have hlt := Int64.lt_iff_toInt_lt.mp h
  have hle := two_mul_pow_le (codeLength_pos v)
  have hv := magnitude_lt_codeLength v
  have hpow := two_mul_pow_pred (codeLength_pos v)
  rcases lt_or_ge v.toInt 0 with hneg | hnonneg
  · have hmv := magnitude_of_neg hneg
    rw [word_mod_of_neg hneg]
    rcases lt_or_ge w.toInt 0 with hneg' | hnonneg'
    · have hmw := magnitude_of_neg hneg'
      rw [hlength, word_mod_of_neg hneg', ← hlength]
      omega
    · rw [hlength, word_mod_of_nonneg hnonneg', ← hlength]
      unfold header
      omega
  · have hnonneg' : 0 ≤ w.toInt := by omega
    have hmv := magnitude_of_nonneg hnonneg
    have hmw := magnitude_of_nonneg hnonneg'
    rw [word_mod_of_nonneg hnonneg, hlength, word_mod_of_nonneg hnonneg']
    omega

/-- The first `n` of `n + k` bytes. -/
theorem word_div_mod (v : Int64) (n k : Nat) :
    word v / 256 ^ k % 256 ^ n = word v % 256 ^ (n + k) / 256 ^ k := by
  rw [Nat.add_comm, pow_add, Nat.mod_mul_right_div_self]

/-- The header of a longer number alone is larger than a shorter number. -/
theorem header_margin (n k : Nat) (hn : 1 ≤ n) (hk : 1 ≤ k) :
    (256 ^ n - 2 ^ (7 * n - 1)) * 256 ^ k ≤ header (n + k) := by
  have hexponent : 2 ^ (7 * (n + k)) ≤ 2 ^ (7 * n - 1) * 256 ^ k := by
    rw [pow_256, ← pow_add]
    exact Nat.pow_le_pow_right (by decide) (by omega)
  rw [header, Nat.sub_mul, ← pow_add]
  omega

theorem word_mod_lt_of_shorter {n k : Nat} (h : v < w) (hv : codeLength v = n)
    (hw : codeLength w = n + k) (hk : 1 ≤ k) :
    word v % 256 ^ n < word w / 256 ^ k % 256 ^ n := by
  have hlt := Int64.lt_iff_toInt_lt.mp h
  have hn : 1 ≤ n := hv ▸ codeLength_pos v
  have hnonneg : 0 ≤ w.toInt := by
    by_contra hneg
    have hmv : (magnitude v : Int) = -v.toInt - 1 := magnitude_of_neg (by omega)
    have hmw := magnitude_of_neg (not_le.mp hneg)
    have hmono : codeLength w ≤ codeLength v := codeLength_mono (by omega)
    omega
  have hle := two_mul_pow_le hn
  have hpow := two_mul_pow_pred hn
  have hsmall : word v % 256 ^ n + 1 ≤ 256 ^ n - 2 ^ (7 * n - 1) := by
    have hmagnitude := magnitude_lt_codeLength v
    subst hv
    rcases lt_or_ge v.toInt 0 with hneg' | hnonneg'
    · rw [word_mod_of_neg hneg']
      omega
    · rw [word_mod_of_nonneg hnonneg']
      unfold header
      omega
  rw [word_div_mod, ← hw, word_mod_of_nonneg hnonneg, hw]
  apply (Nat.le_div_iff_mul_le (by positivity)).mpr
  calc (word v % 256 ^ n + 1) * 256 ^ k
      ≤ (256 ^ n - 2 ^ (7 * n - 1)) * 256 ^ k := Nat.mul_le_mul_right _ hsmall
    _ ≤ header (n + k) := header_margin n k hn hk
    _ ≤ header (n + k) + magnitude w := Nat.le_add_right _ _

theorem word_mod_lt_of_longer {n k : Nat} (h : v < w) (hv : codeLength v = n + k)
    (hw : codeLength w = n) (hk : 1 ≤ k) :
    word v / 256 ^ k % 256 ^ n < word w % 256 ^ n := by
  have hlt := Int64.lt_iff_toInt_lt.mp h
  have hn : 1 ≤ n := hw ▸ codeLength_pos w
  have hneg : v.toInt < 0 := by
    by_contra hnonneg
    have hmv := magnitude_of_nonneg (not_lt.mp hnonneg)
    have hmw : (magnitude w : Int) = w.toInt := magnitude_of_nonneg (by omega)
    have hmono : codeLength v ≤ codeLength w := codeLength_mono (by omega)
    omega
  have hle := two_mul_pow_le hn
  have hpow := two_mul_pow_pred hn
  have hlarge : 2 ^ (7 * n - 1) ≤ word w % 256 ^ n := by
    have hmagnitude := magnitude_lt_codeLength w
    subst hw
    rcases lt_or_ge w.toInt 0 with hneg' | hnonneg'
    · rw [word_mod_of_neg hneg']
      omega
    · rw [word_mod_of_nonneg hnonneg']
      unfold header
      omega
  have hexponent : 2 ^ (7 * (n + k)) ≤ 2 ^ (7 * n - 1) * 256 ^ k := by
    rw [pow_256, ← pow_add]
    exact Nat.pow_le_pow_right (by decide) (by omega)
  rw [word_div_mod, ← hv, word_mod_of_neg hneg, hv]
  apply (Nat.div_lt_iff_lt_mul (by positivity)).mpr
  have hpos := Nat.two_pow_pos (7 * (n + k))
  calc 2 ^ (7 * (n + k)) - (magnitude v + 1) < 2 ^ (7 * (n + k)) := by omega
    _ ≤ 2 ^ (7 * n - 1) * 256 ^ k := hexponent
    _ ≤ word w % 256 ^ n * 256 ^ k := Nat.mul_le_mul_right _ hlarge

/-- What is written for numbers is ordered as the numbers are. -/
theorem ordered_numberCode : Ordered (fun v w : Int64 => v < w) numberCode := by
  intro v w h
  unfold numberCode
  rcases lt_trichotomy (codeLength v) (codeLength w) with hlt | heq | hgt
  · obtain ⟨k, hk⟩ := Nat.exists_eq_add_of_lt hlt
    have hw : codeLength w = codeLength v + (k + 1) := by omega
    rw [hw]
    exact precedes_bytes_add (word_mod_lt_of_shorter h rfl hw (by omega))
  · rw [← heq]
    exact precedes_bytes (word_mod_lt h heq)
  · obtain ⟨k, hk⟩ := Nat.exists_eq_add_of_lt hgt
    have hv : codeLength v = codeLength w + (k + 1) := by omega
    rw [hv]
    exact precedes_add_bytes (word_mod_lt_of_longer h hv rfl (by omega))

end Order

section Write

variable {v : Int64}

/-- The header bits, which are all in the first two bytes. -/
theorem header_bytes {n : Nat} (hn : 2 ≤ n) (hle : n ≤ 10) :
    ∃ h, kLengthToHeaderBits[n]? = some h ∧
      bytes n (header n) = h.1 :: h.2 :: List.replicate (n - 2) 0 := by
  interval_cases n <;> exact ⟨_, rfl, rfl⟩

theorem zipWith_xor_zero (l : List Byte) :
    List.zipWith (· ^^^ ·) l (List.replicate l.length 0) = l := by
  induction l with
  | nil => rfl
  | cons b l ih =>
    have hzero : b ^^^ 0 = b := by
      apply Fin.ext
      show (b.val ^^^ 0) % 256 = b.val
      rw [Nat.xor_zero, Nat.mod_eq_of_lt b.isLt]
    rw [List.length_cons, List.replicate_succ, List.zipWith_cons_cons, ih, hzero]

theorem byte_xor_comm (b c : Byte) : b ^^^ c = c ^^^ b :=
  Fin.ext (congrArg (· % 256) (Nat.xor_comm b c))

/-- The two's complement of a number. -/
theorem toNat_toBitVec (v : Int64) : v.toBitVec.toNat = (v.toInt % 2 ^ 64).toNat := by
  have hlt := v.toBitVec.isLt
  have htoInt : v.toInt = v.toBitVec.toInt := rfl
  rw [htoInt, BitVec.toInt_eq_toNat_cond]
  split <;> omega

theorem storeBigEndian_eq (x : BitVec 64) : storeBigEndian x = bytes 8 x.toNat := by
  simp [storeBigEndian, bytes, List.range_succ, Nat.shiftRight_eq_div_pow]

/-- The ten bytes of the buffer. -/
theorem buffer_eq (v : Int64) :
    [if v < 0 then 0xff else 0, if v < 0 then 0xff else 0] ++ storeBigEndian v.toBitVec =
      bytes 10 (extended v) := by
  have hlo : -2 ^ 63 ≤ v.toInt := Int64.le_toInt v
  have hhi : v.toInt < 2 ^ 63 := Int64.toInt_lt v
  have hlow : bytes 8 v.toBitVec.toNat = bytes 8 (extended v) := by
    apply bytes_congr
    rw [toNat_toBitVec, extended]
    omega
  rw [storeBigEndian_eq, hlow, bytes_add 2 8]
  congr 1
  rcases lt_or_ge v.toInt 0 with h | h
  · have hneg : v < 0 := Int64.lt_iff_toInt_lt.mpr h
    have hhigh : extended v / 256 ^ 8 = 65535 := by
      unfold extended
      omega
    rw [if_pos hneg, hhigh]
    rfl
  · have hneg : ¬v < 0 := fun hneg => not_lt.mpr h (Int64.lt_iff_toInt_lt.mp hneg)
    have hhigh : extended v / 256 ^ 8 = 0 := by
      unfold extended
      omega
    rw [if_neg hneg, hhigh]
    rfl

/-- Of the bytes of a number, the first two are marked with the header. -/
theorem exists_numberCode_eq {h : Byte × Byte} (hlength : 2 ≤ codeLength v)
    (hheader : bytes (codeLength v) (header (codeLength v)) =
      h.1 :: h.2 :: List.replicate (codeLength v - 2) 0) :
    ∃ b0 b1 rest, bytes (codeLength v) (extended v) = b0 :: b1 :: rest ∧
      numberCode v = (b0 ^^^ h.1) :: (b1 ^^^ h.2) :: rest := by
  obtain ⟨n, hn⟩ := Nat.exists_eq_add_of_le' hlength
  have hbytes : bytes (codeLength v) (extended v) =
      byte (extended v / 256 ^ (n + 1)) :: byte (extended v / 256 ^ n) :: bytes n (extended v) := by
    rw [hn]
    rfl
  have hzero := zipWith_xor_zero (bytes n (extended v))
  have htail : codeLength v - 2 = n := by omega
  rw [length_bytes] at hzero
  refine ⟨_, _, _, hbytes, ?_⟩
  rw [numberCode, word, bytes_xor, hheader, hbytes, htail, List.zipWith_cons_cons,
    List.zipWith_cons_cons, hzero]

/-- A number is written as its code. -/
theorem writeSignedNumIncreasing_eq (dest : List Byte) (v : Int64) :
    writeSignedNumIncreasing dest v = .ok (dest ++ numberCode v) := by
  unfold writeSignedNumIncreasing
  by_cases hsmall : magnitude v < 64
  · have hlength : codeLength v = 1 := by
      have hle := (codeLength_le_iff (v := v) le_rfl).mpr hsmall
      have hpos := codeLength_pos v
      omega
    have hlow : byte (extended v) = byte v.toBitVec.toNat := by
      apply byte_congr
      rw [toNat_toBitVec, extended]
      omega
    have hcode : numberCode v = [0x80 ^^^ byte v.toBitVec.toNat] := by
      have hheader : byte (header 1) = 0x80 := by decide
      rw [numberCode, hlength, bytes, bytes, pow_zero, Nat.div_one, word, byte_xor, hlength, hlow,
        hheader, byte_xor_comm]
    rw [if_pos hsmall, hcode]
    rfl
  · have hlength : 2 ≤ codeLength v := by
      by_contra hlength
      exact hsmall ((codeLength_le_iff (v := v) le_rfl).mp (by omega))
    have hle := codeLength_le v
    obtain ⟨h, hh, hheader⟩ := header_bytes hlength hle
    have hbuffer : (bytes 10 (extended v)).drop (10 - codeLength v) =
        bytes (codeLength v) (extended v) := by
      have hten : 10 = 10 - codeLength v + codeLength v := by omega
      conv_lhs => rw [hten, bytes_add]
      rw [List.drop_left']
      simp
    obtain ⟨b0, b1, rest, hbytes, hcode⟩ := exists_numberCode_eq hlength hheader
    have hpositive : signedEncodingLengthPositive (magnitude v) = .ok (codeLength v) :=
      signedEncodingLengthPositive_eq (by omega)
    rw [if_neg hsmall, hcode, hpositive]
    dsimp only [bind, Except.bind]
    rw [hardAssert, if_pos (decide_eq_true (by rw [buffer_eq, length_bytes]; rfl))]
    dsimp only
    rw [hardAssert, if_pos (by simpa using hlength), subscript_eq_ok.mpr hh]
    dsimp only
    rw [buffer_eq, length_bytes, hbuffer, hbytes]
    rfl

end Write

section Read

variable {v : Int64}

/-- The sign, repeated. -/
def signMask (v : Int64) : BitVec 64 := if v < 0 then BitVec.allOnes 64 else 0

theorem and_sign_eq_zero_iff (b : Byte) : b &&& 0x80 = 0 ↔ b.val < 128 := by
  have hand := Nat.and_two_pow b.val 7
  have hbit : b.val.testBit 7 = decide (128 ≤ b.val) := by
    rw [Nat.testBit_eq_decide_div_mod_eq]
    apply decide_eq_decide.mpr
    omega
  rw [Fin.ext_iff]
  show (b.val &&& 2 ^ 7) % 256 = 0 ↔ b.val < 128
  rw [hand, hbit]
  by_cases h : 128 ≤ b.val
  · simp [h]
  · simp [h]
    omega

/-- `x << 8` with the next byte. -/
theorem shift_or_byte (x : Nat) (b : Byte) :
    (BitVec.ofNat 64 x <<< 8) ||| BitVec.ofNat 64 b = BitVec.ofNat 64 (x * 256 + b) := by
  have hdisjoint : BitVec.ofNat 64 x <<< 8 &&& BitVec.ofNat 64 b = 0#64 := by
    apply BitVec.eq_of_getLsbD_eq
    intro i hi
    rw [BitVec.getLsbD_and, BitVec.getLsbD_shiftLeft, BitVec.getLsbD_zero, BitVec.getLsbD_ofNat,
      BitVec.getLsbD_ofNat]
    by_cases h8 : i < 8
    · simp [h8]
    · have hbit : (b : Nat).testBit i = false := by
        apply Nat.testBit_lt_two_pow
        exact b.isLt.trans_le (Nat.pow_le_pow_right (n := 2) (by decide) (not_lt.mp h8))
      simp [hbit]
  have hshift : BitVec.ofNat 64 x <<< 8 = BitVec.ofNat 64 (x * 256) := by
    apply BitVec.eq_of_toNat_eq
    rw [BitVec.toNat_shiftLeft, BitVec.toNat_ofNat, BitVec.toNat_ofNat, Nat.shiftLeft_eq]
    omega
  rw [← BitVec.add_eq_or_of_and_eq_zero _ _ hdisjoint, hshift, ← BitVec.ofNat_add]

/-- The loop that shifts the bytes in. -/
theorem foldl_shift_or (l : List Byte) (x : Nat) :
    l.foldl (fun (x : BitVec 64) (b : Byte) => (x <<< 8) ||| BitVec.ofNat 64 b)
        (BitVec.ofNat 64 x) =
      BitVec.ofNat 64 (x * 256 ^ l.length + number l) := by
  induction l generalizing x with
  | nil => simp [number]
  | cons b l ih =>
    rw [List.foldl_cons, shift_or_byte, ih, number_cons, List.length_cons, pow_succ]
    congr 1
    ring

theorem getD_bytes {n i : Nat} (h : i < n) (x : Nat) :
    (bytes n x).getD i 0 = byte (x / 256 ^ (n - 1 - i)) := by
  induction n generalizing i with
  | zero => omega
  | succ n ih =>
    cases i with
    | zero => rfl
    | succ i =>
      have hindex : n + 1 - 1 - (i + 1) = n - 1 - i := by omega
      rw [bytes, List.getD_cons_succ, ih (by omega), hindex]

/-- The written number, if it is not negative, else its complement. -/
def plainCode (v : Int64) : Nat := header (codeLength v) + magnitude v

theorem signMask_of_neg (h : v.toInt < 0) : signMask v = BitVec.allOnes 64 :=
  if_pos (Int64.lt_iff_toInt_lt.mpr h)

theorem signMask_of_nonneg (h : 0 ≤ v.toInt) : signMask v = 0 :=
  if_neg fun hneg => not_lt.mpr h (Int64.lt_iff_toInt_lt.mp hneg)

/-- The complement of a negative number's word. -/
theorem word_xor_ones (h : v.toInt < 0) : word v ^^^ (2 ^ 80 - 1) = plainCode v := by
  have hlt := magnitude_lt_codeLength v
  have hpow := two_mul_pow_pred (codeLength_pos v)
  have hle := two_mul_pow_le (codeLength_pos v)
  have hlength := codeLength_le v
  have hsplit : 256 ^ codeLength v * (256 ^ (10 - codeLength v) - 1) =
      2 ^ 80 - 256 ^ codeLength v := by
    have hmul : 256 ^ codeLength v * 256 ^ (10 - codeLength v) = 2 ^ 80 := by
      rw [← pow_add, Nat.add_sub_cancel' hlength]
      rfl
    rw [Nat.mul_sub, hmul, Nat.mul_one]
  have hbig : 256 ^ codeLength v ≤ 2 ^ 80 := by
    rw [pow_256]
    exact Nat.pow_le_pow_right (by decide) (by omega)
  have hword := word_of_neg h
  rw [hsplit] at hword
  rw [Nat.xor_comm, ones_xor (by omega), hword, plainCode, header]
  omega

/-- Without its sign, a number's code is that of its magnitude. -/
theorem byte_xor_signMask (v : Int64) {n : Nat} (hn : n < 10) :
    byte (word v / 256 ^ n) ^^^ byte (signMask v).toNat = byte (plainCode v / 256 ^ n) := by
  rcases lt_or_ge v.toInt 0 with h | h
  · have hones : byte (signMask v).toNat = byte ((2 ^ 80 - 1) / 256 ^ n) := by
      rw [signMask_of_neg h]
      interval_cases n <;> rfl
    rw [hones, ← byte_xor, pow_256, ← Nat.xor_div_two_pow, word_xor_ones h]
  · rw [signMask_of_nonneg h, word_of_nonneg h, plainCode]
    apply Fin.ext
    show ((_ % 256) ^^^ 0) % 256 = _
    rw [Nat.xor_zero, Nat.mod_mod]
    rfl

theorem pow_256_pred (v : Int64) : 256 ^ codeLength v = 256 * 256 ^ (codeLength v - 1) := by
  have hpos := codeLength_pos v
  have hsucc : codeLength v = codeLength v - 1 + 1 := by omega
  conv_lhs => rw [hsucc, pow_succ']

/-- The first byte of a code, in which the sign is the highest bit. -/
theorem firstByte_sign_iff (v : Int64) :
    byte (word v / 256 ^ (codeLength v - 1)) &&& 0x80 = 0 ↔ v < 0 := by
  have hle := two_mul_pow_le (codeLength_pos v)
  have hpos := Nat.two_pow_pos (7 * codeLength v)
  have hpred := pow_256_pred v
  have hfirst : word v / 256 ^ (codeLength v - 1) % 256 =
      word v % 256 ^ codeLength v / 256 ^ (codeLength v - 1) := by
    rw [hpred, Nat.mul_comm 256, Nat.mod_mul_right_div_self]
  rw [and_sign_eq_zero_iff, val_byte, hfirst, Int64.lt_iff_toInt_lt]
  rcases lt_or_ge v.toInt 0 with h | h
  · apply iff_of_true _ h
    rw [word_mod_of_neg h]
    apply (Nat.div_lt_iff_lt_mul (by positivity)).mpr
    omega
  · apply iff_of_false _ (not_lt.mpr h)
    rw [word_mod_of_nonneg h, not_lt]
    apply (Nat.le_div_iff_mul_le (by positivity)).mpr
    unfold header
    omega

theorem plainCode_lt (v : Int64) :
    plainCode v < 256 ^ codeLength v - 2 ^ (7 * codeLength v - 1) := by
  have hlt := magnitude_lt_codeLength v
  have hpow := two_mul_pow_pred (codeLength_pos v)
  have hle := two_mul_pow_le (codeLength_pos v)
  unfold plainCode header
  omega

/-- A header of seven bits or fewer ends in the first byte. -/
theorem firstByte_short (h : codeLength v ≤ 7) :
    256 - 2 ^ (8 - codeLength v) ≤ plainCode v / 256 ^ (codeLength v - 1) ∧
      plainCode v / 256 ^ (codeLength v - 1) < 256 - 2 ^ (7 - codeLength v) := by
  have hpos := codeLength_pos v
  have hpred := pow_256_pred v
  have hlt := plainCode_lt v
  have hlow : 2 ^ (8 - codeLength v) * 256 ^ (codeLength v - 1) = 2 ^ (7 * codeLength v) := by
    rw [pow_256, ← pow_add]
    congr 1
    omega
  have hhigh : 2 ^ (7 - codeLength v) * 256 ^ (codeLength v - 1) = 2 ^ (7 * codeLength v - 1) := by
    rw [pow_256, ← pow_add]
    congr 1
    omega
  constructor
  · apply (Nat.le_div_iff_mul_le (by positivity)).mpr
    rw [Nat.sub_mul, hlow, ← hpred]
    exact Nat.le_add_right _ _
  · apply (Nat.div_lt_iff_lt_mul (by positivity)).mpr
    rw [Nat.sub_mul, hhigh, ← hpred]
    exact hlt

theorem xor_zero_byte (b : Byte) : b ^^^ 0 = b := by
  apply Fin.ext
  show (b.val ^^^ 0) % 256 = b.val
  rw [Nat.xor_zero, Nat.mod_eq_of_lt b.isLt]

theorem val_xor_ones (b : Byte) : (b ^^^ 0xff).val = 255 - b.val := by
  have hones : 255 ^^^ b.val = 255 - b.val := ones_xor (k := 8) b.isLt
  show (b.val ^^^ 255) % 256 = 255 - b.val
  rw [Nat.xor_comm, hones]
  omega

/-- The number of leading ones of a byte, found as the source does. -/
theorem leadingOnes {n : Nat} {b : Byte} (hn : 1 ≤ n) (hle : n ≤ 7)
    (hlow : 256 - 2 ^ (8 - n) ≤ b.val) (hhigh : b.val < 256 - 2 ^ (7 - n)) :
    b ≠ 0xff ∧ 7 - (b ^^^ 0xff).val.log2 = n := by
  have hxor := val_xor_ones b
  have hpos := Nat.two_pow_pos (7 - n)
  have hpow : 2 ^ (8 - n) = 2 * 2 ^ (7 - n) := by
    rw [← pow_succ']
    congr 1
    omega
  have hlog : (255 - b.val).log2 = 7 - n := by
    apply (Nat.log2_eq_iff (by omega)).mpr
    rw [pow_succ]
    omega
  refine ⟨?_, by rw [hxor, hlog]; omega⟩
  rintro rfl
  have hmax : ((0xff : Byte) : Nat) = 255 := rfl
  omega

/-- The sign and the written bytes make the word, as far as 64 bits go. -/
theorem signMask_mul_add (v : Int64) :
    BitVec.ofNat 64 ((signMask v).toNat * 256 ^ codeLength v + word v % 256 ^ codeLength v) =
      BitVec.ofNat 64 (word v) := by
  apply BitVec.eq_of_toNat_eq
  rw [BitVec.toNat_ofNat, BitVec.toNat_ofNat]
  rcases lt_or_ge v.toInt 0 with h | h
  · have hle := codeLength_le v
    have hmul : 256 ^ codeLength v * 256 ^ (10 - codeLength v) = 2 ^ 64 * 2 ^ 16 := by
      rw [← pow_add, Nat.add_sub_cancel' hle]
      rfl
    have hone : 1 ≤ 256 ^ (10 - codeLength v) := Nat.one_le_pow _ _ (by decide)
    have hmask : (signMask v).toNat = 2 ^ 64 - 1 := by
      rw [signMask_of_neg h]
      rfl
    rw [hmask, word_mod_of_neg h, word_of_neg h]
    generalize 2 ^ (7 * codeLength v) - (magnitude v + 1) = r
    generalize 256 ^ codeLength v = K at hmul ⊢
    -- both are `r - K` as far as 64 bits go
    refine Nat.ModEq.add_right_cancel' K ?_
    have hleft : (2 ^ 64 - 1) * K + r + K = 2 ^ 64 * K + r := by
      rw [Nat.sub_mul]
      omega
    have hright : K * (256 ^ (10 - codeLength v) - 1) + r + K = 2 ^ 64 * 2 ^ 16 + r := by
      rw [Nat.mul_sub, hmul]
      have hK : K * 1 ≤ K * 256 ^ (10 - codeLength v) := Nat.mul_le_mul_left K hone
      omega
    rw [hleft, hright, Nat.ModEq, Nat.mul_add_mod, Nat.mul_add_mod]
  · have hword := word_mod_of_nonneg h
    rw [signMask_of_nonneg h, hword, word_of_nonneg h]
    simp

/-- The last eight bytes of a longer code. -/
theorem number_last_eight (rest : List Byte) (h : 8 ≤ codeLength v) :
    number (((numberCode v ++ rest).drop (codeLength v - 8)).take 8) = word v % 256 ^ 8 := by
  have hsplit : numberCode v = bytes (codeLength v - 8) (word v / 256 ^ 8) ++ bytes 8 (word v) := by
    rw [← bytes_add, Nat.sub_add_cancel h]
    rfl
  rw [hsplit, List.append_assoc, List.drop_left' (length_bytes _ _),
    List.take_left' (length_bytes _ _), number_bytes]

theorem readRaw_short {src : List Byte} {xor_mask : BitVec 64} {n : Nat} {b : Byte}
    (hfirst : src.getD 0 0 ^^^ byte xor_mask.toNat = b)
    (hones : b ≠ 0xff ∧ 7 - (b ^^^ 0xff).val.log2 = n) (hlength : n ≤ src.length) :
    readRaw src xor_mask = some (n, (src.take n).foldl
      (fun (x : BitVec 64) (b : Byte) => (x <<< 8) ||| BitVec.ofNat 64 b) xor_mask) := by
  unfold readRaw
  dsimp only
  rw [hfirst, if_pos hones.1, hones.2, if_neg (not_lt.mpr hlength)]

/-- How the second and third byte end a header of more than seven bits. -/
def longLength (second_byte third_byte : Byte) : Option Nat :=
  if second_byte < 0x80 then some 8
  else if second_byte < 0xc0 then some 9
  else if second_byte = 0xc0 ∧ third_byte < 0x80 then some 10
  else none

theorem longLength_eq_some {b1 b2 : Byte} {n : Nat} (h : longLength b1 b2 = some n) :
    n = 8 ∨ (n = 9 ∧ ¬b1 < 0x80) ∨ (n = 10 ∧ b1 = 0xc0 ∧ b2 < 0x80) := by
  unfold longLength at h
  split at h
  · cases h
    exact .inl rfl
  · next h1 =>
    split at h
    · cases h
      exact .inr (.inl ⟨rfl, h1⟩)
    · split at h
      · next h2 =>
        cases h
        exact .inr (.inr ⟨rfl, h2⟩)
      · cases h

theorem readRaw_long {src : List Byte} {xor_mask : BitVec 64} {n : Nat} {b1 b2 : Byte}
    (hfirst : src.getD 0 0 ^^^ byte xor_mask.toNat = 0xff)
    (hsecond : src.getD 1 0 ^^^ byte xor_mask.toNat = b1)
    (hthird : src.getD 2 0 ^^^ byte xor_mask.toNat = b2)
    (hlong : longLength b1 b2 = some n) (h8 : 8 ≤ n) (hlength : n ≤ src.length) :
    readRaw src xor_mask =
      some (n, BitVec.ofNat 64 (number ((src.drop (n - 8)).take 8))) := by
  rw [longLength] at hlong
  unfold readRaw
  dsimp only
  rw [hfirst, if_neg (not_not.mpr rfl), if_neg (not_lt.mpr (h8.trans hlength)), hsecond, hthird,
    hlong]
  exact if_neg (not_lt.mpr hlength)

/-- A header of eight bits or more fills the first byte and ends in the second or the third. -/
theorem longBytes (h : 8 ≤ codeLength v) :
    byte (plainCode v / 256 ^ (codeLength v - 1 - 0)) = 0xff ∧
      longLength (byte (plainCode v / 256 ^ (codeLength v - 1 - 1)))
        (byte (plainCode v / 256 ^ (codeLength v - 1 - 2))) = some (codeLength v) := by
  have hle := codeLength_le v
  have hlt := magnitude_lt_codeLength v
  have hbound := magnitude_lt v
  have hbyte : ∀ {x : Nat} {b : Byte}, byte x = b ↔ x % 256 = b.val := fun {x b} => Fin.ext_iff
  have hless : ∀ {x : Nat} {b : Byte}, byte x < b ↔ x % 256 < b.val := fun {x b} => Fin.lt_def
  have h80 : ((0x80 : Byte) : Nat) = 128 := rfl
  have hc0 : ((0xc0 : Byte) : Nat) = 192 := rfl
  have hff : ((0xff : Byte) : Nat) = 255 := rfl
  unfold longLength plainCode header
  generalize codeLength v = n at *
  simp only [hbyte, hless, h80, hc0, hff]
  generalize magnitude v = m at *
  have hcases : n = 8 ∨ n = 9 ∨ n = 10 := by omega
  rcases hcases with rfl | rfl | rfl
  · rw [if_pos (by omega)]
    exact ⟨by omega, rfl⟩
  · rw [if_neg (by omega), if_pos (by omega)]
    exact ⟨by omega, rfl⟩
  · rw [if_neg (by omega), if_neg (by omega), if_pos (by omega)]
    exact ⟨by omega, rfl⟩

/-- The raw number is the word as it was written. -/
theorem readRaw_numberCode (v : Int64) (rest : List Byte) :
    readRaw (numberCode v ++ rest) (signMask v) =
      some (codeLength v, BitVec.ofNat 64 (word v)) := by
  have hpos := codeLength_pos v
  have hle := codeLength_le v
  have hlength : (numberCode v ++ rest).length = codeLength v + rest.length := by
    rw [List.length_append, numberCode, length_bytes]
  have hbyte : ∀ i < codeLength v,
      (numberCode v ++ rest).getD i 0 ^^^ byte (signMask v).toNat =
        byte (plainCode v / 256 ^ (codeLength v - 1 - i)) := by
    intro i hi
    have hget : (numberCode v ++ rest).getD i 0 = (numberCode v).getD i 0 := by
      rw [List.getD_append]
      rw [numberCode, length_bytes]
      exact hi
    rw [hget, numberCode, getD_bytes hi, byte_xor_signMask v (by omega)]
  by_cases hshort : codeLength v ≤ 7
  · obtain ⟨hlow, hhigh⟩ := firstByte_short hshort
    have hpow := Nat.two_pow_pos (7 - codeLength v)
    have hval : (byte (plainCode v / 256 ^ (codeLength v - 1)) : Nat) =
        plainCode v / 256 ^ (codeLength v - 1) := Nat.mod_eq_of_lt (by omega)
    have hones := leadingOnes (b := byte (plainCode v / 256 ^ (codeLength v - 1))) hpos hshort
      (by rw [hval]; exact hlow) (by rw [hval]; exact hhigh)
    have htake : (numberCode v ++ rest).take (codeLength v) = numberCode v :=
      List.take_left' (length_bytes _ _)
    have hmask : signMask v = BitVec.ofNat 64 (signMask v).toNat := by simp
    rw [readRaw_short (hbyte 0 hpos) hones (by omega), htake]
    conv_lhs => rw [hmask]
    rw [foldl_shift_or, numberCode, length_bytes, number_bytes, signMask_mul_add]
  · have h8 : 8 ≤ codeLength v := by omega
    obtain ⟨hfirst, hlong⟩ := longBytes h8
    have h0 := hbyte 0 (by omega)
    have h1 := hbyte 1 (by omega)
    have h2 := hbyte 2 (by omega)
    rw [readRaw_long (h0.trans hfirst) h1 h2 hlong h8 (by omega), number_last_eight rest h8]
    congr 2
    apply BitVec.eq_of_toNat_eq
    rw [BitVec.toNat_ofNat, BitVec.toNat_ofNat]
    omega

/-- The mask that removes the header bits. -/
theorem mask_eq (v : Int64) :
    subscript kLengthToMask (codeLength v) = .ok (BitVec.ofNat 64 (header (codeLength v))) := by
  have hle := codeLength_le v
  apply subscript_eq_ok.mpr
  generalize codeLength v = n at hle ⊢
  interval_cases n <;> rfl

/-- What is left is the number. -/
theorem ofBitVec_extended (v : Int64) :
    Int64.ofBitVec (BitVec.ofNat 64 (word v) ^^^ BitVec.ofNat 64 (header (codeLength v))) = v := by
  have hxor : word v ^^^ header (codeLength v) = extended v := by
    rw [word, Nat.xor_assoc, Nat.xor_self, Nat.xor_zero]
  have hbits : BitVec.ofNat 64 (extended v) = v.toBitVec := by
    apply BitVec.eq_of_toNat_eq
    rw [BitVec.toNat_ofNat, toNat_toBitVec, extended]
    omega
  rw [← BitVec.ofNat_xor, hxor, hbits]
  rfl

/-- What is written is read back, whatever stands around it. -/
theorem readSignedNumIncreasing_numberCode (v : Int64) (rest : List Byte) :
    readSignedNumIncreasing (numberCode v ++ rest) = .ok (some (v, rest)) := by
  have hpos := codeLength_pos v
  have hlength : (numberCode v).length = codeLength v := length_bytes _ _
  have hne : (numberCode v ++ rest).isEmpty = false := by
    rw [List.isEmpty_eq_false_iff_exists_mem]
    have hcode : numberCode v ≠ [] := List.ne_nil_of_length_pos (by omega)
    exact ⟨_, List.mem_append_left _ (List.head_mem hcode)⟩
  have hfirst : (numberCode v ++ rest).getD 0 0 = byte (word v / 256 ^ (codeLength v - 1)) := by
    rw [List.getD_append _ _ _ _ (by omega), numberCode, getD_bytes hpos]
    rfl
  have hmask : (if (numberCode v ++ rest).getD 0 0 &&& 0x80 = 0 then BitVec.allOnes 64 else 0) =
      signMask v := by
    rw [hfirst, signMask]
    exact if_congr (firstByte_sign_iff v) rfl rfl
  have hdrop : (numberCode v ++ rest).drop (codeLength v) = rest := List.drop_left' hlength
  unfold readSignedNumIncreasing
  rw [hne, if_neg Bool.false_ne_true]
  dsimp only [bind, Except.bind, pure, Except.pure]
  rw [hmask, readRaw_numberCode]
  dsimp only
  rw [mask_eq]
  dsimp only
  rw [ofBitVec_extended, signedEncodingLength_eq]
  dsimp only
  rw [hardAssert, if_pos (decide_eq_true rfl), hdrop]

/-- The bytes of a code, up to the last eight of them. -/
theorem bytes_of_take {l : List Byte} {n : Nat} (h : n ≤ l.length) :
    bytes n (number (l.take n)) = l.take n := by
  have hbytes := bytes_number (l.take n)
  rw [List.length_take_of_le h] at hbytes
  exact hbytes

/-- The word of the number that is read, of which the raw number is the lower part. -/
theorem word_mod {raw : BitVec 64} {n : Nat} (hv : v.toBitVec = raw ^^^ BitVec.ofNat 64 (header n))
    (hn : codeLength v = n) : word v % 2 ^ 64 = raw.toNat := by
  have hself := congrArg Int64.toBitVec (ofBitVec_extended v)
  have hraw : BitVec.ofNat 64 (word v) = raw := by
    have hcancel : BitVec.ofNat 64 (word v) ^^^ BitVec.ofNat 64 (header n) =
        raw ^^^ BitVec.ofNat 64 (header n) := by
      rw [← hv, ← hn]
      exact hself
    exact (BitVec.xor_left_inj _).mp hcancel
  rw [← hraw, BitVec.toNat_ofNat]

theorem readRaw_eq_some {src : List Byte} {xor_mask raw : BitVec 64} {n : Nat}
    (h : readRaw src xor_mask = some (n, raw)) :
    n ≤ src.length ∧ (n ≤ 7 ∧ raw = (src.take n).foldl
        (fun (x : BitVec 64) (b : Byte) => (x <<< 8) ||| BitVec.ofNat 64 b) xor_mask ∨
      8 ≤ n ∧ src.getD 0 0 ^^^ byte xor_mask.toNat = 0xff ∧
        longLength (src.getD 1 0 ^^^ byte xor_mask.toNat) (src.getD 2 0 ^^^ byte xor_mask.toNat) =
          some n ∧
        raw = BitVec.ofNat 64 (number ((src.drop (n - 8)).take 8))) := by
  unfold readRaw at h
  dsimp only at h
  split at h
  · split at h
    · cases h
    · next hlength =>
      cases h
      exact ⟨not_lt.mp hlength, .inl ⟨Nat.sub_le _ _, rfl⟩⟩
  · next hfirst =>
    split at h
    · cases h
    · next hlength =>
      split at h
      · cases h
      · next len hlong =>
        split at h
        · cases h
        · next hlen =>
          cases h
          have h8 : 8 ≤ n := by
            rcases longLength_eq_some hlong with rfl | ⟨rfl, -⟩ | ⟨rfl, -⟩ <;> decide
          exact ⟨not_lt.mp hlen, .inr ⟨h8, not_not.mp hfirst, hlong, rfl⟩⟩

/-- A mask is known by the highest bit of a byte under it. -/
theorem mask_unique {b m m' : Byte} (hm : m = 0 ∨ m = 0xff) (hm' : m' = 0 ∨ m' = 0xff)
    (h : b ^^^ m < 0x80 ↔ b ^^^ m' < 0x80) : m = m' := by
  have hbits : b ^^^ 0 < 0x80 ↔ ¬b ^^^ 0xff < 0x80 := by
    have h80 : ((0x80 : Byte) : Nat) = 128 := rfl
    rw [xor_zero_byte, Fin.lt_def, Fin.lt_def, val_xor_ones, h80]
    omega
  rcases hm with rfl | rfl <;> rcases hm' with rfl | rfl
  · rfl
  · tauto
  · tauto
  · rfl

theorem xor_mask_cancel {a b m : Byte} (hm : m = 0 ∨ m = 0xff) (h : a ^^^ m = b ^^^ m) : a = b := by
  have hcancel : ∀ b : Byte, b ^^^ m ^^^ m = b := by
    intro b
    rcases hm with rfl | rfl
    · rw [xor_zero_byte, xor_zero_byte]
    · apply Fin.ext
      rw [val_xor_ones, val_xor_ones]
      omega
  rw [← hcancel a, h, hcancel b]

theorem byte_signMask (v : Int64) :
    byte (signMask v).toNat = 0 ∨ byte (signMask v).toNat = 0xff := by
  unfold signMask
  split
  · exact .inr rfl
  · exact .inl rfl

/-- The bytes in front of the last eight are those of the number's code. -/
theorem take_header {src : List Byte} {n : Nat} {m : Byte} (hm : m = 0 ∨ m = 0xff)
    (h8 : 8 ≤ codeLength v) (hn : codeLength v = n) (hlength : n ≤ src.length)
    (hfirst : src.getD 0 0 ^^^ m = 0xff)
    (hlong : longLength (src.getD 1 0 ^^^ m) (src.getD 2 0 ^^^ m) = some n)
    (hlow : src.getD (n - 8) 0 = byte (word v / 256 ^ 7)) :
    src.take (n - 8) = bytes (n - 8) (word v / 256 ^ 8) := by
  obtain ⟨hfirst', hlong'⟩ := longBytes h8
  have hsign := byte_xor_signMask v (n := 7) (by decide)
  rw [hn] at hfirst' hlong'
  rcases longLength_eq_some hlong with rfl | ⟨rfl, h1⟩ | ⟨rfl, h1, h2⟩
  · rfl
  · obtain ⟨b0, l, rfl⟩ := List.exists_cons_of_length_pos (l := src) (by omega)
    have h1' : ¬byte (plainCode v / 256 ^ 7) < 0x80 := by
      simpa using longLength_eq_some hlong'
    have hmask : m = byte (signMask v).toNat := by
      apply mask_unique (b := byte (word v / 256 ^ 7)) hm (byte_signMask v)
      rw [hsign, ← hlow]
      exact iff_of_false h1 h1'
    have hhead : b0 = byte (word v / 256 ^ 8) := by
      apply xor_mask_cancel hm
      rw [hmask, byte_xor_signMask v (by decide), hfirst', ← hmask]
      exact hfirst
    rw [hhead]
    simp [bytes]
  · obtain ⟨b0, t, rfl⟩ := List.exists_cons_of_length_pos (l := src) (by omega)
    rw [List.length_cons] at hlength
    obtain ⟨b1, l, rfl⟩ := List.exists_cons_of_length_pos (l := t) (by omega)
    have hten : byte (plainCode v / 256 ^ 8) = 0xc0 ∧ byte (plainCode v / 256 ^ 7) < 0x80 := by
      simpa using longLength_eq_some hlong'
    have hmask : m = byte (signMask v).toNat := by
      apply mask_unique (b := byte (word v / 256 ^ 7)) hm (byte_signMask v)
      rw [hsign, ← hlow]
      exact iff_of_true h2 hten.2
    have hhead : b0 = byte (word v / 256 ^ 9) := by
      apply xor_mask_cancel hm
      rw [hmask, byte_xor_signMask v (by decide), hfirst', ← hmask]
      exact hfirst
    have hnext : b1 = byte (word v / 256 ^ 8) := by
      apply xor_mask_cancel hm
      rw [hmask, byte_xor_signMask v (by decide), hten.1, ← hmask]
      exact h1
    rw [hhead, hnext]
    simp [bytes, Nat.div_div_eq_div_mul]

/-- Only the code of a number is read as the number. -/
theorem take_of_readRaw {src : List Byte} {xor_mask raw : BitVec 64} {n : Nat}
    (hmask : byte xor_mask.toNat = 0 ∨ byte xor_mask.toNat = 0xff)
    (h : readRaw src xor_mask = some (n, raw))
    (hv : v.toBitVec = raw ^^^ BitVec.ofNat 64 (header n)) (hn : codeLength v = n) :
    src.take n = numberCode v := by
  have hword := word_mod hv hn
  obtain ⟨hlength, ⟨hshort, hraw⟩ | ⟨h8, hfirst, hlong, hraw⟩⟩ := readRaw_eq_some h
  · have hxor : xor_mask = BitVec.ofNat 64 xor_mask.toNat := by simp
    rw [hraw, hxor, foldl_shift_or, BitVec.toNat_ofNat, List.length_take_of_le hlength] at hword
    have hdvd : 256 ^ n ∣ 2 ^ 64 := by
      rw [pow_256]
      exact Nat.pow_dvd_pow 2 (by omega)
    have hmod : word v % 256 ^ n = number (src.take n) % 256 ^ n := by
      rw [← Nat.mod_mod_of_dvd (word v) hdvd, hword, Nat.mod_mod_of_dvd _ hdvd, Nat.mul_comm,
        Nat.mul_add_mod]
    rw [numberCode, hn, bytes_congr hmod, bytes_of_take hlength]
  · have htail : ((src.drop (n - 8)).take 8).length = 8 := by
      rw [List.length_take_of_le]
      rw [List.length_drop]
      omega
    have hlt := number_lt ((src.drop (n - 8)).take 8)
    have hlow : bytes 8 (word v) = (src.drop (n - 8)).take 8 := by
      rw [hraw, BitVec.toNat_ofNat] at hword
      have hbytes := bytes_number ((src.drop (n - 8)).take 8)
      rw [htail] at hbytes
      rw [← hbytes]
      exact bytes_congr hword
    have hget : src.getD (n - 8) 0 = byte (word v / 256 ^ 7) := by
      have hhead := getD_bytes (n := 8) (i := 0) (by decide) (word v)
      rw [hlow] at hhead
      simpa using hhead
    have hhigh := take_header hmask (by omega) hn hlength hfirst hlong hget
    have hsplit : n = n - 8 + 8 := by omega
    conv_lhs => rw [hsplit]
    rw [List.take_add, hhigh, ← hlow, ← bytes_add, ← hsplit, numberCode, hn]

theorem hardAssert_eq_ok {m n : Nat} {u : Unit} (h : hardAssert (m = n) = .ok u) : m = n := by
  unfold hardAssert at h
  split at h
  · next hmn => exact of_decide_eq_true hmn
  · cases h

theorem readSignedNumIncreasing_eq_some {src rest : List Byte} :
    readSignedNumIncreasing src = .ok (some (v, rest)) ↔ src = numberCode v ++ rest := by
  constructor
  · intro h
    unfold readSignedNumIncreasing at h
    split at h
    · cases h
    · have hmask : byte (if src.getD 0 0 &&& 0x80 = 0 then BitVec.allOnes 64 else 0).toNat = 0 ∨
          byte (if src.getD 0 0 &&& 0x80 = 0 then BitVec.allOnes 64 else 0).toNat = 0xff := by
        split
        · exact .inr rfl
        · exact .inl rfl
      dsimp only [bind, Except.bind, pure, Except.pure] at h
      split at h
      · cases h
      · next n raw hraw =>
        split at h
        · cases h
        · next mask hlength =>
          rw [signedEncodingLength_eq] at h
          dsimp only at h
          split at h
          · cases h
          · next hassert =>
            have hread : Int64.ofBitVec (raw ^^^ mask) = v ∧ src.drop n = rest := by
              simpa using h
            obtain ⟨hv, rfl⟩ := hread
            rw [hv] at hassert
            have hn : codeLength v = n := (hardAssert_eq_ok hassert).symm
            have hheader := (mask_eq v).symm.trans ((congrArg _ hn).trans hlength)
            have hbits : v.toBitVec = raw ^^^ BitVec.ofNat 64 (header n) := by
              rw [← hv, ← hn, Except.ok.inj hheader]
              rfl
            rw [← take_of_readRaw hmask hraw hbits hn]
            exact (List.take_append_drop n src).symm
  · rintro rfl
    exact readSignedNumIncreasing_numberCode v rest

/-- **Numbers are read as they were written**: a number is read from a source exactly when the
source starts with what is written for the number. -/
theorem readSignedNumIncreasing_iff (src rest : List Byte) (v : Int64) :
    readSignedNumIncreasing src = .ok (some (v, rest)) ↔
      ∃ code, writeSignedNumIncreasing [] v = .ok code ∧ src = code ++ rest := by
  rw [readSignedNumIncreasing_eq_some, writeSignedNumIncreasing_eq, List.nil_append]
  constructor
  · intro h
    exact ⟨_, rfl, h⟩
  · rintro ⟨code, hcode, rfl⟩
    obtain rfl := Except.ok.inj hcode
    rfl

end Read

section Order

instance trichotomous_int64_lt : Std.Trichotomous fun v w : Int64 => v < w where
  trichotomous v w hvw hwv := by
    rw [Int64.lt_iff_toInt_lt] at hvw hwv
    apply Int64.toInt_inj.mp
    omega

/-- **Written numbers are ordered as the numbers**, whatever is written behind them. -/
theorem writeSignedNumIncreasing_lt_iff (v w : Int64) :
    ∃ codeV codeW, writeSignedNumIncreasing [] v = .ok codeV ∧
      writeSignedNumIncreasing [] w = .ok codeW ∧
      ∀ s t, codeV ++ s < codeW ++ t ↔ v < w ∨ v = w ∧ s < t :=
  ⟨numberCode v, numberCode w, writeSignedNumIncreasing_eq [] v, writeSignedNumIncreasing_eq [] w,
    fun _ _ => Ordered.append_lt_append_iff (β := Byte) ordered_numberCode⟩

end Order

end OrderedCode

end GasNow
