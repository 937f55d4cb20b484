import GasNow.Codes.BigEndian
import GasNow.Codes.WordScan
import GasNow.Trap
import Mathlib.Order.Fin.Basic

/-!
# `OrderedCode`: strings

The Firestore client keeps its documents and writes in a table that is sorted by byte strings.
`OrderedCode` writes a string with its bytes 0 and 255 escaped and a separator behind it.
-/

namespace GasNow

abbrev Byte := Fin 256

namespace OrderedCode

open WordScan

def kEscape1 : Byte := 0
/-- Combined with `kEscape1`. -/
def kNullCharacter : Byte := 255
/-- Combined with `kEscape1`. -/
def kSeparator : Byte := 1
def kEscape2 : Byte := 255
/-- Combined with `kEscape2`. -/
def kFFCharacter : Byte := 0

def kEscape1_Separator : List Byte := [kEscape1, kSeparator]

/-- `((unsigned char)(c + 1)) < 2` -/
def isSpecialByte (c : Byte) : Bool := decide (c + 1 < 2)

/-- `UNALIGNED_LOAD32` and `UNALIGNED_LOAD64` on a little-endian machine. -/
def load (w : Nat) (bytes : List Byte) : BitVec w := BitVec.ofNat w (value bytes)

/-- `HARD_ASSERT` -/
def hardAssert (condition : Bool) : Except Trap Unit :=
  if condition then .ok () else .error .hardAssert

/-- Whether to skip the next four bytes, which the caller has loaded as `v_32`. The assertions
check that it has, and that the test is right. -/
def advanceIfNoSpecialBytes (v_32 : BitVec 32) (p : List Byte) : Except Trap Nat := do
  hardAssert (load 32 p = v_32)
  if (v_32 - 0x01010101#32) &&& ~~~(v_32 + 0x01010101#32) &&& 0x80808080#32 ≠ 0 then
    hardAssert (p.any isSpecialByte)
    return 0
  else
    hardAssert (p.all fun c => !isSpecialByte c)
    return 4

/-- The special byte is one of the next four. -/
def firstOfFour (p : List Byte) : Except Trap Nat := do
  if (p[0]?.map isSpecialByte).getD false then return 0
  if (p[1]?.map isSpecialByte).getD false then return 1
  if (p[2]?.map isSpecialByte).getD false then return 2
  -- Last byte must be the special one
  hardAssert ((p[3]?.map isSpecialByte).getD false)
  return 3

/-- The last loop of `SkipToNextSpecialByte`. -/
def skipBytes : List Byte → Nat
  | [] => 0
  | c :: l => if isSpecialByte c then 0 else skipBytes l + 1

/-- How far the first byte 0 or 255 of `[start..limit)` is from `start`. -/
def skipToNextSpecialByte : List Byte → Except Trap Nat
  | b0 :: b1 :: b2 :: b3 :: b4 :: b5 :: b6 :: b7 :: l => do
    let v := load 64 [b0, b1, b2, b3, b4, b5, b6, b7]
    if (v - 0x0101010101010101#64) &&& ~~~(v + 0x0101010101010101#64) &&& 0x8080808080808080#64
        = 0 then
      -- No special values in the next 8 bytes
      let n ← skipToNextSpecialByte l
      return 8 + n
    else
      -- Test the low 32 bits of `v` at once
      let n ← advanceIfNoSpecialBytes (v.setWidth 32) [b0, b1, b2, b3]
      let m ← firstOfFour ([b0, b1, b2, b3, b4, b5, b6, b7].drop n)
      return n + m
  | l => do
    let n ← if 4 ≤ l.length then advanceIfNoSpecialBytes (load 32 (l.take 4)) (l.take 4) else pure 0
    return n + skipBytes (l.drop n)

theorem length_lt_of_drop {s rest : List Byte} {c : Byte} {p : Nat} (h : s.drop p = c :: rest) :
    rest.length < s.length := by
  have hlength := congrArg List.length h
  rw [List.length_drop, List.length_cons] at hlength
  omega

theorem length_lt_of_drop_cons {s rest : List Byte} {c next : Byte} {p : Nat}
    (h : s.drop p = c :: next :: rest) : rest.length < s.length := by
  have hlength := length_lt_of_drop h
  rw [List.length_cons] at hlength
  omega

/-- `EncodeStringFragment`, with `s` what is left to encode. -/
def encodeStringFragment (dest s : List Byte) : Except Trap (List Byte) := do
  let p ← skipToNextSpecialByte s
  match _ : s.drop p with
  | [] => return dest ++ s -- No more special characters that need escaping
  | c :: rest =>
    hardAssert (isSpecialByte c)
    if c = kEscape1 then
      encodeStringFragment (dest ++ s.take p ++ [kEscape1, kNullCharacter]) rest
    else do
      hardAssert (c = kEscape2)
      encodeStringFragment (dest ++ s.take p ++ [kEscape2, kFFCharacter]) rest
termination_by s.length
decreasing_by all_goals exact length_lt_of_drop ‹_›

def writeString (dest s : List Byte) : Except Trap (List Byte) := do
  let dest ← encodeStringFragment dest s
  return dest ++ kEscape1_Separator

section Scan

theorem isSpecialByte_iff (c : Byte) : isSpecialByte c = true ↔ IsSpecial c := by
  unfold isSpecialByte IsSpecial
  rw [decide_eq_true_iff, Fin.lt_def, Fin.val_add]
  show ((c : Nat) + 1) % 256 < 2 ↔ (c : Nat) = 0 ∨ (c : Nat) = 255
  omega

theorem any_isSpecialByte_iff (l : List Byte) :
    l.any isSpecialByte = true ↔ ∃ b ∈ l, IsSpecial b := by
  rw [List.any_eq_true]
  simp only [isSpecialByte_iff]

/-- The test of eight bytes at once. -/
theorem test64_iff {l : List Byte} (h : l.length = 8) :
    (load 64 l - 0x0101010101010101#64) &&& ~~~(load 64 l + 0x0101010101010101#64) &&&
      0x8080808080808080#64 ≠ 0 ↔ l.any isSpecialByte = true := by
  rw [any_isSpecialByte_iff, ← marks_ne_zero_iff h]
  rfl

/-- The test of four bytes at once. -/
theorem test32_iff {l : List Byte} (h : l.length = 4) :
    (load 32 l - 0x01010101#32) &&& ~~~(load 32 l + 0x01010101#32) &&& 0x80808080#32 ≠ 0 ↔
      l.any isSpecialByte = true := by
  rw [any_isSpecialByte_iff, ← marks_ne_zero_iff h]
  rfl

/-- The low half of an 8-byte load is the load of the first four bytes. -/
theorem setWidth_load (b0 b1 b2 b3 b4 b5 b6 b7 : Byte) :
    (load 64 [b0, b1, b2, b3, b4, b5, b6, b7]).setWidth 32 = load 32 [b0, b1, b2, b3] := by
  have hvalue : value [b0, b1, b2, b3, b4, b5, b6, b7] =
      value [b0, b1, b2, b3] + 2 ^ 32 * value [b4, b5, b6, b7] := by
    simp only [value]
    ring
  unfold load
  rw [BitVec.setWidth_ofNat_of_le (by decide), hvalue]
  apply BitVec.eq_of_toNat_eq
  rw [BitVec.toNat_ofNat, BitVec.toNat_ofNat, Nat.add_mul_mod_self_left]

theorem advanceIfNoSpecialBytes_eq {p : List Byte} (h : p.length = 4) :
    advanceIfNoSpecialBytes (load 32 p) p = .ok (if p.any isSpecialByte then 0 else 4) := by
  have hload : hardAssert (load 32 p = load 32 p) = .ok () := by simp [hardAssert]
  unfold advanceIfNoSpecialBytes
  rw [hload]
  show (if _ then _ else _) = _
  by_cases hany : p.any isSpecialByte = true
  · rw [if_pos ((test32_iff h).mpr hany), if_pos hany, hardAssert, if_pos hany]
    rfl
  · have hall : (p.all fun c => !isSpecialByte c) = true := by
      rw [← List.not_any_eq_all_not]
      simpa using hany
    rw [if_neg (fun htest => hany ((test32_iff h).mp htest)), if_neg hany, hardAssert, if_pos hall]
    rfl

theorem skipBytes_eq (l : List Byte) : skipBytes l = l.findIdx isSpecialByte := by
  induction l with
  | nil => rfl
  | cons c l ih =>
    rw [skipBytes, List.findIdx_cons, ih]
    cases isSpecialByte c <;> rfl

/-- Of four bytes with a special one among them, the position of the first special one. -/
theorem firstOfFour_eq {b0 b1 b2 b3 : Byte} (l : List Byte)
    (h : [b0, b1, b2, b3].any isSpecialByte = true) :
    firstOfFour (b0 :: b1 :: b2 :: b3 :: l) =
      .ok ((b0 :: b1 :: b2 :: b3 :: l).findIdx isSpecialByte) := by
  unfold firstOfFour
  simp only [List.findIdx_cons]
  cases h0 : isSpecialByte b0 with
  | true => simp [h0, pure, Except.pure]
  | false =>
    cases h1 : isSpecialByte b1 with
    | true => simp [h0, h1, pure, Except.pure]
    | false =>
      cases h2 : isSpecialByte b2 with
      | true => simp [h0, h1, h2, pure, Except.pure]
      | false =>
        have h3 : isSpecialByte b3 = true := by simpa [h0, h1, h2] using h
        simp [h0, h1, h2, h3, hardAssert, pure, Except.pure, bind, Except.bind]

theorem findIdx_of_not_any {l m : List Byte} (h : l.any isSpecialByte = false) :
    (l ++ m).findIdx isSpecialByte = l.length + m.findIdx isSpecialByte := by
  have hnone : ∀ c ∈ l, isSpecialByte c = false := by simpa using h
  rw [List.findIdx_append, if_neg]
  · rw [Nat.add_comm]
  · rw [List.findIdx_lt_length]
    rintro ⟨c, hc, hspecial⟩
    exact Bool.false_ne_true ((hnone c hc).symm.trans hspecial)

/-- Skipping four or no bytes at once leaves the first special byte where it is. -/
theorem advance_add_findIdx {l m : List Byte} (h : l.length = 4) :
    (if l.any isSpecialByte then 0 else 4) +
        ((l ++ m).drop (if l.any isSpecialByte then 0 else 4)).findIdx isSpecialByte =
      (l ++ m).findIdx isSpecialByte := by
  by_cases hany : l.any isSpecialByte = true
  · rw [if_pos hany, Nat.zero_add, List.drop_zero]
  · rw [if_neg hany, findIdx_of_not_any (Bool.not_eq_true _ ▸ hany), h, List.drop_left' h]

theorem skipToNextSpecialByte_eq (l : List Byte) :
    skipToNextSpecialByte l = .ok (l.findIdx isSpecialByte) := by
  induction l using skipToNextSpecialByte.induct with
  | case1 b0 b1 b2 b3 b4 b5 b6 b7 l v hword ih =>
    have hnone : [b0, b1, b2, b3, b4, b5, b6, b7].any isSpecialByte = false :=
      Bool.eq_false_iff.mpr fun hany => (test64_iff (by rfl)).mpr hany hword
    have hindex := findIdx_of_not_any (m := l) hnone
    rw [skipToNextSpecialByte, if_pos hword, ih]
    exact congrArg Except.ok hindex.symm
  | case2 b0 b1 b2 b3 b4 b5 b6 b7 l v hword =>
    have hany : [b0, b1, b2, b3, b4, b5, b6, b7].any isSpecialByte = true :=
      (test64_iff (by rfl)).mp hword
    have hindex := advance_add_findIdx (l := [b0, b1, b2, b3]) (m := [b4, b5, b6, b7]) rfl
    have hfirst : (b0 :: b1 :: b2 :: b3 :: b4 :: b5 :: b6 :: b7 :: l).findIdx isSpecialByte =
        [b0, b1, b2, b3, b4, b5, b6, b7].findIdx isSpecialByte := by
      show ([b0, b1, b2, b3, b4, b5, b6, b7] ++ l).findIdx isSpecialByte = _
      rw [List.findIdx_append, if_pos]
      exact List.findIdx_lt_length.mpr (List.any_eq_true.mp hany)
    rw [skipToNextSpecialByte, if_neg hword, setWidth_load, advanceIfNoSpecialBytes_eq (by rfl),
      hfirst]
    by_cases hlow : [b0, b1, b2, b3].any isSpecialByte = true
    · rw [if_pos hlow] at hindex ⊢
      show (do let m ← firstOfFour (b0 :: b1 :: b2 :: b3 :: [b4, b5, b6, b7]); return 0 + m) = _
      rw [firstOfFour_eq _ hlow]
      exact congrArg Except.ok hindex
    · rw [if_neg hlow] at hindex ⊢
      have hhigh : [b4, b5, b6, b7].any isSpecialByte = true := by
        rw [Bool.not_eq_true] at hlow
        have hsplit : [b0, b1, b2, b3, b4, b5, b6, b7] = [b0, b1, b2, b3] ++ [b4, b5, b6, b7] := rfl
        rw [hsplit, List.any_append, hlow, Bool.false_or] at hany
        exact hany
      show (do let m ← firstOfFour (b4 :: b5 :: b6 :: b7 :: []); return 4 + m) = _
      rw [firstOfFour_eq _ hhigh]
      exact congrArg Except.ok hindex
  | case3 l hshort hlength =>
    have htake : (l.take 4).length = 4 := by
      rw [List.length_take]
      omega
    have hindex := advance_add_findIdx (m := l.drop 4) htake
    rw [List.take_append_drop] at hindex
    rw [skipToNextSpecialByte.eq_2 l hshort, if_pos hlength, advanceIfNoSpecialBytes_eq htake]
    show Except.ok (_ + skipBytes _) = _
    rw [skipBytes_eq, hindex]
  | case4 l hshort hlength =>
    rw [skipToNextSpecialByte.eq_2 l hshort, if_neg hlength]
    show Except.ok (0 + skipBytes l) = _
    rw [skipBytes_eq, Nat.zero_add]

end Scan

/-- `ReadStringInternal` from `start` on: the bytes that are left of the source, and the result so
far. Returns the rest of the source and the result, or nothing for `false`. -/
def readStringInternal (start result : List Byte) :
    Except Trap (Option (List Byte × List Byte)) := do
  -- scan only up to the last byte, since a valid string ends with two
  let p ← skipToNextSpecialByte start.dropLast
  match _ : start.drop p with
  | c :: next :: rest =>
    hardAssert (isSpecialByte c)
    if c = kEscape1 then
      if next = kSeparator then
        return some (rest, result ++ start.take p)
      else if next = kNullCharacter then
        readStringInternal rest (result ++ start.take p ++ [0])
      else return none
    else do
      hardAssert (c = kEscape2)
      if next = kFFCharacter then readStringInternal rest (result ++ start.take p ++ [255])
      else return none
  | _ => return none -- No terminator sequence found
termination_by start.length
decreasing_by all_goals exact length_lt_of_drop_cons ‹_›

/-- `ReadString`, with what is left of the source and what is appended to the result. -/
def readString (src : List Byte) : Except Trap (Option (List Byte × List Byte)) :=
  readStringInternal src []

section Strings

/-- What is written for one byte. -/
def escaped (c : Byte) : List Byte :=
  if c = kEscape1 then [kEscape1, kNullCharacter]
  else if c = kEscape2 then [kEscape2, kFFCharacter]
  else [c]

/-- What is written for a string. -/
def stringCode (s : List Byte) : List Byte := s.flatMap escaped ++ kEscape1_Separator

theorem isSpecialByte_cases {c : Byte} (h : isSpecialByte c = true) :
    c = kEscape1 ∨ c = kEscape2 :=
  ((isSpecialByte_iff c).mp h).imp (fun h0 => Fin.ext h0) fun h255 => Fin.ext h255

theorem escaped_of_not_special {c : Byte} (h : isSpecialByte c = false) : escaped c = [c] := by
  have h1 : c ≠ kEscape1 := by
    rintro rfl
    exact absurd h (by decide)
  have h2 : c ≠ kEscape2 := by
    rintro rfl
    exact absurd h (by decide)
  rw [escaped, if_neg h1, if_neg h2]

/-- Ordinary bytes are written as they are. -/
theorem flatMap_escaped_of_ordinary {s : List Byte} (h : s.any isSpecialByte = false) :
    s.flatMap escaped = s := by
  induction s with
  | nil => rfl
  | cons c s ih =>
    obtain ⟨hc, hs⟩ := Bool.or_eq_false_iff.mp h
    rw [List.flatMap_cons, escaped_of_not_special hc, ih hs]
    rfl

theorem any_take_findIdx (s : List Byte) :
    (s.take (s.findIdx isSpecialByte)).any isSpecialByte = false := by
  rw [List.any_eq_false]
  intro c hc
  obtain ⟨i, hi, rfl⟩ := List.getElem_of_mem hc
  have hlt : i < s.findIdx isSpecialByte := by
    rw [List.length_take] at hi
    omega
  rw [List.getElem_take]
  exact Bool.not_eq_true _ ▸ List.not_of_lt_findIdx hlt

/-- The byte where the scan stops is special. -/
theorem isSpecialByte_of_drop {s rest : List Byte} {c : Byte}
    (h : s.drop (s.findIdx isSpecialByte) = c :: rest) : isSpecialByte c = true := by
  have hlt : s.findIdx isSpecialByte < s.length := by
    by_contra hle
    rw [List.drop_eq_nil_of_le (not_lt.mp hle)] at h
    cases h
  have hget := List.findIdx_getElem (w := hlt)
  rw [List.drop_eq_getElem_cons hlt] at h
  rw [← (List.cons.inj h).1]
  exact hget

/-- **Words at a time**: the scan, which tests eight or four bytes at once, stops at the first byte
0 or 255, and none of its assertions fails. -/
theorem skipToNextSpecialByte_finds (s : List Byte) :
    ∃ n ≤ s.length, skipToNextSpecialByte s = .ok n ∧ (∀ b ∈ s.take n, b ≠ 0 ∧ b ≠ 255) ∧
      ∀ b rest, s.drop n = b :: rest → b = 0 ∨ b = 255 := by
  refine ⟨s.findIdx isSpecialByte, List.findIdx_le_length, skipToNextSpecialByte_eq s, ?_, ?_⟩
  · intro b hb
    have hnot := List.any_eq_false.mp (any_take_findIdx s) b hb
    rw [isSpecialByte_iff] at hnot
    constructor
    · rintro rfl
      exact hnot (.inl rfl)
    · rintro rfl
      exact hnot (.inr rfl)
  · intro b rest hdrop
    exact isSpecialByte_cases (isSpecialByte_of_drop hdrop)

/-- A string up to its first special byte, that byte, and the rest. -/
theorem flatMap_escaped_of_drop {s rest : List Byte} {c : Byte}
    (h : s.drop (s.findIdx isSpecialByte) = c :: rest) :
    s.flatMap escaped =
      s.take (s.findIdx isSpecialByte) ++ escaped c ++ rest.flatMap escaped := by
  conv_lhs => rw [← List.take_append_drop (s.findIdx isSpecialByte) s, h]
  rw [List.flatMap_append, flatMap_escaped_of_ordinary (any_take_findIdx s), List.flatMap_cons,
    List.append_assoc]

/-- A string without special bytes is written as it is. -/
theorem flatMap_escaped_of_drop_nil {s : List Byte}
    (h : s.drop (s.findIdx isSpecialByte) = []) : s.flatMap escaped = s := by
  have htake : s.take (s.findIdx isSpecialByte) = s :=
    List.take_of_length_le (List.drop_eq_nil_iff.mp h)
  have hsame := flatMap_escaped_of_ordinary (any_take_findIdx s)
  rw [htake] at hsame
  exact hsame

/-- The fragment is written byte by byte. -/
theorem encodeStringFragment_eq (dest s : List Byte) :
    encodeStringFragment dest s = .ok (dest ++ s.flatMap escaped) := by
  induction hn : s.length using Nat.strong_induction_on generalizing dest s with
  | _ n ih =>
    subst hn
    unfold encodeStringFragment
    rw [skipToNextSpecialByte_eq]
    simp only [bind, Except.bind]
    split
    · next h => rw [flatMap_escaped_of_drop_nil h]; rfl
    · next c rest h =>
      have hrest := fun dest => ih _ (length_lt_of_drop h) dest _ rfl
      rw [hardAssert, if_pos (isSpecialByte_of_drop h), flatMap_escaped_of_drop h]
      rcases isSpecialByte_cases (isSpecialByte_of_drop h) with rfl | rfl
      · simp [hrest, escaped]
      · have hne : kEscape2 ≠ kEscape1 := by decide
        simp [hrest, escaped, hardAssert, hne]

theorem writeString_eq (dest s : List Byte) : writeString dest s = .ok (dest ++ stringCode s) := by
  unfold writeString
  rw [encodeStringFragment_eq]
  simp [stringCode, bind, Except.bind, pure, Except.pure]

/-- The scan of a source stops at its first special byte, if another byte follows. -/
theorem findIdx_dropLast {l rest : List Byte} {c next : Byte} (hl : l.any isSpecialByte = false)
    (hc : isSpecialByte c = true) :
    (l ++ c :: next :: rest).dropLast.findIdx isSpecialByte = l.length := by
  rw [List.dropLast_append_of_ne_nil (List.cons_ne_nil _ _), List.dropLast_cons_cons,
    findIdx_of_not_any hl, List.findIdx_cons, hc]
  rfl

/-- One turn of the loop in `ReadStringInternal`. -/
theorem readStringInternal_append {l rest : List Byte} {c next : Byte} (result : List Byte)
    (hl : l.any isSpecialByte = false) (hc : isSpecialByte c = true) :
    readStringInternal (l ++ c :: next :: rest) result =
      if c = kEscape1 then
        if next = kSeparator then .ok (some (rest, result ++ l))
        else if next = kNullCharacter then readStringInternal rest (result ++ l ++ [0])
        else .ok none
      else if next = kFFCharacter then readStringInternal rest (result ++ l ++ [255])
      else .ok none := by
  conv_lhs => unfold readStringInternal
  rw [skipToNextSpecialByte_eq, findIdx_dropLast hl hc]
  simp only [bind, Except.bind]
  split
  · next c' next' rest' h =>
    rw [List.drop_left] at h
    obtain ⟨rfl, rfl, rfl⟩ : c = c' ∧ next = next' ∧ rest = rest' := by simpa using h
    rw [List.take_left, hardAssert, if_pos hc]
    rcases isSpecialByte_cases hc with rfl | rfl
    · rfl
    · rfl
  · next h =>
    rw [List.drop_left] at h
    exact absurd rfl (h c next rest)

/-- What is written for a string is read again, whatever follows. -/
theorem readStringInternal_stringCode (s rest result : List Byte) :
    readStringInternal (stringCode s ++ rest) result = .ok (some (rest, result ++ s)) := by
  induction hn : s.length using Nat.strong_induction_on generalizing s result with
  | _ n ih =>
    subst hn
    have hordinary := any_take_findIdx s
    cases h : s.drop (s.findIdx isSpecialByte) with
    | nil =>
      rw [List.take_of_length_le (List.drop_eq_nil_iff.mp h)] at hordinary
      rw [stringCode, flatMap_escaped_of_drop_nil h, List.append_assoc]
      exact readStringInternal_append result hordinary (by decide)
    | cons c tail =>
      have htail := ih _ (length_lt_of_drop h) tail
        (result ++ s.take (s.findIdx isSpecialByte) ++ [c]) rfl
      have hs : s = s.take (s.findIdx isSpecialByte) ++ c :: tail := by
        conv_lhs => rw [← List.take_append_drop (s.findIdx isSpecialByte) s, h]
      have hcode : stringCode s ++ rest =
          s.take (s.findIdx isSpecialByte) ++ (escaped c ++ (stringCode tail ++ rest)) := by
        rw [stringCode, flatMap_escaped_of_drop h, stringCode]
        simp
      have hresult : result ++ s.take (s.findIdx isSpecialByte) ++ [c] ++ tail = result ++ s := by
        conv_rhs => rw [hs]
        simp
      rw [hresult] at htail
      rw [hcode, ← htail]
      rcases isSpecialByte_cases (isSpecialByte_of_drop h) with rfl | rfl
      · exact readStringInternal_append result hordinary (by decide)
      · exact readStringInternal_append result hordinary (by decide)

/-- A source that is split where the scan of all but its last byte stops. -/
theorem eq_append_of_drop {start rest : List Byte} {c next : Byte}
    (h : start.drop (start.dropLast.findIdx isSpecialByte) = c :: next :: rest) :
    ∃ l, start = l ++ c :: next :: rest ∧ l.any isSpecialByte = false ∧
      isSpecialByte c = true := by
  rcases List.eq_nil_or_concat' start with rfl | ⟨l, x, rfl⟩
  · simp at h
  · rw [List.dropLast_concat, List.drop_append_of_le_length List.findIdx_le_length] at h
    cases htail : l.drop (l.findIdx isSpecialByte) with
    | nil =>
      rw [htail] at h
      simp at h
    | cons c' tail =>
      rw [htail] at h
      obtain ⟨rfl, hrest⟩ := List.cons.inj h
      refine ⟨l.take (l.findIdx isSpecialByte), ?_, any_take_findIdx l, isSpecialByte_of_drop htail⟩
      conv_lhs => rw [← List.take_append_drop (l.findIdx isSpecialByte) l, htail]
      rw [← hrest]
      simp

/-- A read never aborts, and what it reads is what is written for a string. -/
theorem exists_readStringInternal (start result : List Byte) :
    ∃ o, readStringInternal start result = .ok o ∧ ∀ rest r, o = some (rest, r) →
      ∃ s, r = result ++ s ∧ start = stringCode s ++ rest := by
  induction hn : start.length using Nat.strong_induction_on generalizing start result with
  | _ n ih =>
    subst hn
    by_cases h : ∃ c next rest,
        start.drop (start.dropLast.findIdx isSpecialByte) = c :: next :: rest
    · obtain ⟨c, next, rest, hdrop⟩ := h
      have hlength := length_lt_of_drop_cons hdrop
      obtain ⟨l, hstart, hl, hc⟩ := eq_append_of_drop hdrop
      have hordinary := flatMap_escaped_of_ordinary hl
      -- a special byte that the rest of the source is read after
      have hnext : ∀ b, escaped b = [c, next] → ∃ o,
          readStringInternal rest (result ++ l ++ [b]) = .ok o ∧ ∀ rest' r, o = some (rest', r) →
            ∃ s, r = result ++ s ∧ start = stringCode s ++ rest' := by
        intro b hb
        obtain ⟨o, ho, hread⟩ := ih _ hlength rest (result ++ l ++ [b]) rfl
        refine ⟨o, ho, fun rest' r hr => ?_⟩
        obtain ⟨s, rfl, hrest⟩ := hread rest' r hr
        refine ⟨l ++ b :: s, by simp, ?_⟩
        rw [hstart, hrest, stringCode, stringCode, List.flatMap_append, List.flatMap_cons,
          hordinary, hb]
        simp
      rw [hstart, readStringInternal_append result hl hc, ← hstart]
      rcases isSpecialByte_cases hc with rfl | rfl
      · rw [if_pos rfl]
        by_cases hseparator : next = kSeparator
        · subst hseparator
          refine ⟨_, if_pos rfl, fun rest' r hr => ?_⟩
          obtain ⟨rfl, rfl⟩ := Prod.mk.inj (Option.some.inj hr)
          refine ⟨l, rfl, ?_⟩
          rw [hstart, stringCode, hordinary]
          simp [kEscape1_Separator]
        · rw [if_neg hseparator]
          by_cases hnull : next = kNullCharacter
          · subst hnull
            rw [if_pos rfl]
            exact hnext 0 rfl
          · rw [if_neg hnull]
            exact ⟨none, rfl, nofun⟩
      · rw [if_neg (by decide)]
        by_cases hff : next = kFFCharacter
        · subst hff
          rw [if_pos rfl]
          exact hnext 255 rfl
        · rw [if_neg hff]
          exact ⟨none, rfl, nofun⟩
    · refine ⟨none, ?_, nofun⟩
      unfold readStringInternal
      rw [skipToNextSpecialByte_eq]
      simp only [bind, Except.bind]
      split
      · next c next rest hdrop => exact absurd ⟨c, next, rest, hdrop⟩ h
      · rfl

theorem readString_eq_some {src rest s : List Byte} :
    readString src = .ok (some (rest, s)) ↔ src = stringCode s ++ rest := by
  obtain ⟨o, ho, hread⟩ := exists_readStringInternal src []
  constructor
  · intro h
    obtain ⟨s', hs, hsrc⟩ := hread rest s (Except.ok.inj (ho.symm.trans h))
    rw [List.nil_append] at hs
    rw [hs]
    exact hsrc
  · rintro rfl
    exact readStringInternal_stringCode s rest []

/-- **Strings are read as they were written**: a string is read from a source exactly when the
source starts with what is written for the string, and no source makes the reader abort. -/
theorem readString_iff (src : List Byte) :
    (∃ o, readString src = .ok o) ∧ ∀ s rest,
      readString src = .ok (some (rest, s)) ↔ ∃ code, writeString [] s = .ok code ∧
        src = code ++ rest := by
  obtain ⟨o, ho, -⟩ := exists_readStringInternal src []
  refine ⟨⟨o, ho⟩, fun s rest => ?_⟩
  rw [readString_eq_some, writeString_eq, List.nil_append]
  constructor
  · intro h
    exact ⟨_, rfl, h⟩
  · rintro ⟨code, hcode, rfl⟩
    obtain rfl := Except.ok.inj hcode
    rfl

end Strings

section Order

open Codes

/-- What is written for a byte starts with the byte. -/
theorem exists_escaped_eq (c : Byte) : ∃ l, escaped c = c :: l := by
  unfold escaped
  by_cases h1 : c = kEscape1
  · exact ⟨[kNullCharacter], by rw [if_pos h1, h1]⟩
  · by_cases h2 : c = kEscape2
    · exact ⟨[kFFCharacter], by rw [if_neg h1, if_pos h2, h2]⟩
    · exact ⟨[], by rw [if_neg h1, if_neg h2]⟩

theorem ordered_escaped : Ordered (· < ·) escaped := by
  intro c d hcd
  obtain ⟨l, hl⟩ := exists_escaped_eq c
  obtain ⟨m, hm⟩ := exists_escaped_eq d
  rw [hl, hm]
  exact precedes_cons hcd l m

/-- The separator is before what is written for any byte. -/
theorem precedes_separator (c : Byte) : Precedes kEscape1_Separator (escaped c) := by
  by_cases hc : c = kEscape1
  · subst hc
    have hlast : Precedes [kSeparator] [kNullCharacter] := precedes_cons (by decide) [] []
    exact hlast.prepend [kEscape1]
  · obtain ⟨l, hl⟩ := exists_escaped_eq c
    rw [hl]
    exact precedes_cons (Fin.pos_of_ne_zero hc) [kSeparator] l

theorem ordered_stringCode : Ordered (List.Lex (· < ·)) stringCode :=
  ordered_escaped.list precedes_separator

/-- **Strings are ordered as they were**: whatever is written behind them, what is written for two
strings is ordered as the strings are, and by what is behind them if the strings are equal. -/
theorem writeString_lt_iff (s t : List Byte) :
    ∃ codeS codeT, writeString [] s = .ok codeS ∧ writeString [] t = .ok codeT ∧
      ∀ u v, codeS ++ u < codeT ++ v ↔ s < t ∨ s = t ∧ u < v :=
  ⟨stringCode s, stringCode t, writeString_eq [] s, writeString_eq [] t, fun _ _ =>
    Ordered.append_lt_append_iff (β := Byte) ordered_stringCode⟩

end Order

end OrderedCode

end GasNow
