import GasNow.Text.CharacterSet

/-!
# Phone numbers

`String.formatPhoneNumber` keeps the decimal digits of a text, of any script, and groups them.
Each of them is a character of its own, so a text of digits is indexed by scalars.
-/

namespace GasNow.PhoneNumber

open CharacterSet

/-- `substring(start:offsetBy:)`, where an index beyond `endIndex` makes it `nil`. -/
def substring (text : List Char) (start offsetBy : Nat) : Option (List Char) :=
  if start ≤ text.length then
    if start + offsetBy ≤ text.length then some ((text.drop start).take offsetBy) else none
  else none

def formatPhoneNumber (s : String) : Option String :=
  -- Remove any character that is not a number
  let numbersOnly := (components (fun c => !decimalDigits c) s.toList).flatten
  let length := numbersOnly.length
  let hasLeadingOne := numbersOnly.head? == some '1'
  -- Check for supported phone number length
  if length = 7 ∨ length = 10 ∨ (length = 11 ∧ hasLeadingOne) then do
    let hasAreaCode : Bool := length ≥ 10
    -- Leading 1
    let leadingOne := if hasLeadingOne then "1.".toList else []
    let sourceIndex := if hasLeadingOne then 1 else 0
    -- Area code
    let (areaCode, sourceIndex) ← if hasAreaCode then do
        let areaCodeSubstring ← substring numbersOnly sourceIndex 3
        some (areaCodeSubstring ++ ['.'], sourceIndex + 3)
      else some ([], sourceIndex)
    -- Prefix, 3 characters
    let prefixSubstring ← substring numbersOnly sourceIndex 3
    let sourceIndex := sourceIndex + 3
    -- Suffix, 4 characters
    let suffix ← substring numbersOnly sourceIndex 4
    return String.ofList (leadingOne ++ areaCode ++ prefixSubstring ++ ['.'] ++ suffix)
  else none

/-- The decimal digits of a text, in order. -/
def digits (s : String) : List Char := s.toList.filter decimalDigits

/-- The lengths that are to be accepted. -/
def Advertised (d : List Char) : Prop :=
  d.length = 7 ∨ d.length = 10 ∨ (d.length = 11 ∧ d.head? = some '1')

/-- The groups of `ddd.dddd`, `ddd.ddd.dddd` and `1.ddd.ddd.dddd`. -/
def groups (d : List Char) : List (List Char) :=
  if d.length = 7 then [d.take 3, d.drop 3]
  else if d.length = 10 then [d.take 3, (d.drop 3).take 3, d.drop 6]
  else [d.take 1, (d.drop 1).take 3, (d.drop 4).take 3, d.drop 7]

def grouping (d : List Char) : List Char := ['.'].intercalate (groups d)

/-- A value is returned just for the advertised lengths; it is their grouping, has the same
digits, and is formatted to itself. -/
structure FormatsAdvertised (s : String) : Prop where
  accepts : (∃ v, formatPhoneNumber s = some v) ↔ Advertised (digits s)
  groups : ∀ v, formatPhoneNumber s = some v → v = String.ofList (grouping (digits s))
  keeps : ∀ v, formatPhoneNumber s = some v → digits v = digits s
  stable : ∀ v, formatPhoneNumber s = some v → formatPhoneNumber v = some v

/-- The digits are seven or ten, and the first is a `1`. -/
def ShortLeadingOne (d : List Char) : Prop :=
  d.head? = some '1' ∧ (d.length = 7 ∨ d.length = 10)

instance (d : List Char) : Decidable (ShortLeadingOne d) := inferInstanceAs (Decidable (_ ∧ _))

instance (d : List Char) : Decidable (Advertised d) :=
  inferInstanceAs (Decidable (_ ∨ _ ∨ _ ∧ _))

theorem components_eq_digits (s : String) :
    (components (fun c => !decimalDigits c) s.toList).flatten = digits s := by
  rw [flatten_components]
  simp [digits]

theorem decimalDigits_dot : decimalDigits '.' = false := by decide

/-- A digit group. -/
theorem substring_eq {text : List Char} {start offsetBy : Nat} :
    substring text start offsetBy =
      if start + offsetBy ≤ text.length then some ((text.drop start).take offsetBy) else none := by
  unfold substring
  by_cases h : start + offsetBy ≤ text.length
  · rw [if_pos (by omega)]
  · simp [h]

theorem flatten_groups (d : List Char) : (groups d).flatten = d := by
  have hcut : ∀ m, (d.drop m).take 3 ++ d.drop (m + 3) = d.drop m := by
    intro m
    rw [← List.drop_drop, List.take_append_drop]
  unfold groups
  split
  · simp
  · split
    · show d.take 3 ++ ((d.drop 3).take 3 ++ (d.drop (3 + 3) ++ [])) = d
      rw [List.append_nil, hcut, List.take_append_drop]
    · show d.take 1 ++ ((d.drop 1).take 3 ++ ((d.drop 4).take 3 ++ (d.drop (4 + 3) ++ []))) = d
      rw [List.append_nil, hcut, hcut, List.take_append_drop]

theorem mem_digits {s : String} {c : Char} (h : c ∈ digits s) : decimalDigits c = true :=
  (List.mem_filter.mp h).2

/-- Grouping adds dots only. -/
theorem digits_grouping (s : String) :
    digits (String.ofList (grouping (digits s))) = digits s := by
  have hgroups : ∀ group ∈ groups (digits s), ∀ c ∈ group, decimalDigits c = true := by
    intro group hgroup c hc
    have hmem : c ∈ (groups (digits s)).flatten := List.mem_flatten.mpr ⟨group, hgroup, hc⟩
    rw [flatten_groups] at hmem
    exact mem_digits hmem
  rw [digits, String.toList_ofList, grouping, filter_intercalate decimalDigits_dot hgroups,
    flatten_groups]

theorem take_one_of_head? {d : List Char} {c : Char} (h : d.head? = some c) : d.take 1 = [c] := by
  cases d with
  | nil => simp at h
  | cons a d => simpa using h

/-- On an advertised length the groups are complete, except that a leading `1` shifts them out
of a number of seven or ten digits. -/
theorem formatPhoneNumber_of_advertised (s : String) (h : Advertised (digits s)) :
    formatPhoneNumber s =
      if ShortLeadingOne (digits s) then none else some (String.ofList (grouping (digits s))) := by
  unfold formatPhoneNumber ShortLeadingOne
  rw [components_eq_digits]
  simp only [substring_eq]
  generalize digits s = d at h ⊢
  have hsuffix : ∀ m, d.length ≤ m + 4 → (d.drop m).take 4 = d.drop m := by
    intro m hm
    apply List.take_of_length_le
    rw [List.length_drop]
    omega
  by_cases hone : d.head? = some '1'
  · rcases h with h7 | h10 | ⟨h11, -⟩
    · simp [h7, hone]
    · simp [h10, hone]
    · simp [h11, hone, grouping, groups, hsuffix 7 (by omega), take_one_of_head? hone,
        String.append_assoc]
  · rcases h with h7 | h10 | ⟨-, h1⟩
    · simp [h7, hone, grouping, groups, hsuffix 3 (by omega)]
    · simp [h10, hone, grouping, groups, hsuffix 6 (by omega), String.append_assoc]
    · exact absurd h1 hone

theorem formatPhoneNumber_of_not_advertised (s : String) (h : ¬Advertised (digits s)) :
    formatPhoneNumber s = none := by
  unfold formatPhoneNumber
  rw [components_eq_digits]
  refine if_neg fun hlength => h ?_
  simpa [Advertised] using hlength

/-- The digits decide what is returned. -/
theorem formatPhoneNumber_congr {s t : String} (h : digits s = digits t) :
    formatPhoneNumber s = formatPhoneNumber t := by
  unfold formatPhoneNumber
  rw [components_eq_digits, components_eq_digits, h]

/-- What is returned is the grouping of the digits. -/
theorem formatPhoneNumber_eq_some {s v : String} (h : formatPhoneNumber s = some v) :
    v = String.ofList (grouping (digits s)) := by
  by_cases ha : Advertised (digits s)
  · rw [formatPhoneNumber_of_advertised s ha] at h
    split at h
    · cases h
    · exact (Option.some.inj h).symm
  · rw [formatPhoneNumber_of_not_advertised s ha] at h
    cases h

/-- A text is formatted as advertised exactly when it does not have seven or ten digits that
start with a `1`. -/
theorem formatsAdvertised_iff_not_shortLeadingOne (s : String) :
    FormatsAdvertised s ↔ ¬ShortLeadingOne (digits s) := by
  constructor
  · intro h hshort
    -- seven or ten digits are advertised, and nothing is returned for them
    have ha : Advertised (digits s) := hshort.2.imp id .inl
    obtain ⟨v, hv⟩ := h.accepts.mpr ha
    rw [formatPhoneNumber_of_advertised s ha, if_pos hshort] at hv
    cases hv
  · intro hshort
    have hkeeps : ∀ v, formatPhoneNumber s = some v → digits v = digits s := by
      intro v hv
      rw [formatPhoneNumber_eq_some hv, digits_grouping]
    refine ⟨?_, fun v hv => formatPhoneNumber_eq_some hv, hkeeps, fun v hv => ?_⟩
    · by_cases ha : Advertised (digits s)
      · rw [formatPhoneNumber_of_advertised s ha, if_neg hshort]
        exact iff_of_true ⟨_, rfl⟩ ha
      · rw [formatPhoneNumber_of_not_advertised s ha]
        exact iff_of_false nofun ha
    · rw [formatPhoneNumber_congr (hkeeps v hv), hv]

/-- Seven digits that start with a `1` are refused. -/
theorem leadingOne_refused : ¬∀ s : String, FormatsAdvertised s := by
  intro h
  obtain ⟨v, hv⟩ := (h "123-4567").accepts.mpr (by decide)
  have hnone : formatPhoneNumber "123-4567" = none := by decide
  rw [hnone] at hv
  cases hv

end GasNow.PhoneNumber
