import GasNow.Text.Unicode
import GasNow.Trap

/-!
# Capitalised text

`String.firstLetterUppercased` takes an index of the text and slices the uppercase form of the
text with it. The slice is the uppercase form of the first character as long as both have the
same encoded length, and hardly otherwise.
-/

namespace GasNow.FirstLetter

variable (u : Unicode)

/-- `substring(to:)`, with an index that is an offset into the encoded text. -/
def substringTo (text : List Char) (index : Nat) : Except Trap (List Char) :=
  if index ≤ Utf8.size text then .ok (Utf8.upTo index text) else .error .indexOutOfRange

/-- `index(after: startIndex)` -/
def indexAfterStart (text : List Char) : Nat := Utf8.size (u.first text)

def firstLetterUppercased (s : String) : Except Trap String :=
  if s.toList.isEmpty then return s
  else do
    let first ← substringTo (u.uppercased s.toList) (indexAfterStart u s.toList)
    let rest := u.dropFirst s.toList
    return String.ofList (first ++ rest)

/-- The uppercase form of the first character, followed by the text without it. -/
def capitalized (s : String) : String :=
  String.ofList (u.uppercased (u.first s.toList) ++ u.dropFirst s.toList)

/-- The uppercase form of the first character ends where the character does in the encoded
text, or so little before it that the next scalar of the uppercase form ends after it. -/
def EndsTogether (s : String) : Prop :=
  let first := Utf8.size (u.first s.toList)
  let upper := Utf8.size (u.uppercased (u.first s.toList))
  upper = first ∨
    upper < first ∧
      ∃ c ∈ (u.uppercased (u.dropFirst s.toList)).head?, first < upper + c.utf8Size

theorem substringTo_eq_ok_iff {text : List Char} {index : Nat} {part : List Char} :
    substringTo text index = .ok part ↔ index ≤ Utf8.size text ∧ Utf8.upTo index text = part := by
  unfold substringTo
  by_cases h : index ≤ Utf8.size text
  · simp [h]
  · simp [h]

/-- The slice is a given prefix exactly when the prefix ends at the index, or the index falls
inside the next scalar. -/
theorem substringTo_append_eq_ok_iff {upper rest : List Char} {index : Nat} :
    substringTo (upper ++ rest) index = .ok upper ↔
      Utf8.size upper = index ∨
        Utf8.size upper < index ∧ ∃ c ∈ rest.head?, index < Utf8.size upper + c.utf8Size := by
  rw [substringTo_eq_ok_iff, Utf8.upTo_append_eq_iff, Utf8.size_append]
  cases rest with
  | nil =>
    simp only [Utf8.size_nil, List.head?_nil]
    constructor
    · rintro ⟨hle, hge, -⟩
      exact .inl (by omega)
    · rintro (heq | ⟨-, c, hc, -⟩)
      · exact ⟨by omega, by omega, nofun⟩
      · cases hc
  | cons c rest =>
    have hpos : 0 < c.utf8Size := Char.utf8Size_pos c
    simp only [Utf8.size_cons, List.head?_cons, Option.mem_some_iff, forall_eq', exists_eq_left']
    omega

theorem firstLetterUppercased_of_empty {s : String} (hs : s.toList = []) :
    firstLetterUppercased u s = .ok s := by
  have hempty : s.toList.isEmpty = true := by simpa using hs
  rw [firstLetterUppercased, hempty]
  rfl

theorem capitalized_of_empty {s : String} (hs : s.toList = []) : capitalized u s = s := by
  rw [← String.toList_inj]
  simp [capitalized, hs, Unicode.first, Unicode.uppercased, Unicode.dropFirst]

theorem firstLetterUppercased_of_ne {s : String} (hs : s.toList ≠ []) :
    firstLetterUppercased u s = do
      let first ← substringTo (u.uppercased (u.first s.toList) ++
        u.uppercased (u.dropFirst s.toList)) (indexAfterStart u s.toList)
      return String.ofList (first ++ u.dropFirst s.toList) := by
  have hempty : s.toList.isEmpty = false := by simpa using hs
  rw [firstLetterUppercased, hempty, ← u.uppercased_eq]
  rfl

/-- It traps exactly when the whole uppercase form ends before the first character does. -/
theorem firstLetterUppercased_traps_iff (s : String) :
    (∃ t, firstLetterUppercased u s = .error t) ↔
      Utf8.size (u.uppercased s.toList) < indexAfterStart u s.toList := by
  by_cases hs : s.toList = []
  · rw [firstLetterUppercased_of_empty u hs, indexAfterStart, hs]
    refine iff_of_false (fun ⟨t, ht⟩ => nomatch ht) ?_
    simp [Unicode.first]
  · rw [firstLetterUppercased_of_ne u hs, ← u.uppercased_eq, substringTo]
    by_cases h : indexAfterStart u s.toList ≤ Utf8.size (u.uppercased s.toList)
    · rw [if_pos h]
      exact iff_of_false (fun ⟨t, ht⟩ => nomatch ht) (by omega)
    · rw [if_neg h]
      exact iff_of_true ⟨_, rfl⟩ (by omega)

/-- It returns the uppercase form of the first character followed by the rest, and does not
trap, exactly when the two end together. -/
theorem firstLetterUppercased_iff_endsTogether (s : String) :
    firstLetterUppercased u s = .ok (capitalized u s) ↔ EndsTogether u s := by
  by_cases hs : s.toList = []
  · have hfirst : u.first s.toList = [] := by simp [hs, Unicode.first]
    rw [firstLetterUppercased_of_empty u hs, capitalized_of_empty u hs]
    exact iff_of_true rfl (.inl (by simp [hfirst, Unicode.uppercased]))
  · have hcancel : ∀ part : List Char,
        String.ofList (part ++ u.dropFirst s.toList) = capitalized u s ↔
          part = u.uppercased (u.first s.toList) := by
      intro part
      rw [capitalized, String.ofList_inj, List.append_cancel_right_eq]
    rw [firstLetterUppercased_of_ne u hs]
    refine Iff.trans ?_ substringTo_append_eq_ok_iff
    constructor
    · intro h
      obtain ⟨part, hpart, heq⟩ := bind_eq_ok.mp h
      have hupper := (hcancel part).mp (Except.ok.inj heq)
      exact hupper ▸ hpart
    · intro h
      exact bind_eq_ok.mpr ⟨_, h, congrArg Except.ok ((hcancel _).mpr rfl)⟩

/-- Latin letters and the dotless i, whose uppercase form is the letter I, each of them a
character. -/
def latin : Unicode where
  uppercaseMapping c := if c = 'ı' then ['I'] else [c.toUpper]
  firstCharacter text := min 1 text.length
  firstCharacter_pos text h := by
    have hpos : 0 < text.length := List.length_pos_iff.mpr h
    omega
  firstCharacter_le text := Nat.min_le_right 1 text.length

/-- The dotless i takes two bytes and its uppercase form one, so a letter is repeated. -/
theorem dotless_repeats :
    ¬∀ (u : Unicode) (s : String), firstLetterUppercased u s = .ok (capitalized u s) := by
  intro h
  have hword := h latin "ızgara"
  revert hword
  decide

end GasNow.FirstLetter
