import GasNow.Text.Numerals

/-!
# Dates in text

A formatter that reads and prints dates by a pattern: a run of one pattern letter is a numeral
for that letter's field, any other character stands for itself. Reading takes a numeral of any
length for a field and the whole text for the pattern; of a field that occurs twice the later
numeral counts, and a field that does not occur has its default. Printing pads each numeral
with zeros to the length of its run.

## Main definitions

- `DateTime`, a calendar date with a time of day
- `Letter`, `Token`, `tokens`, the patterns
- `date`, `string`, reading and printing by a pattern
-/

namespace DateFormatter

/-- The days of a month in the Gregorian calendar. -/
def daysInMonth (year month : Nat) : Nat :=
  if month = 2 then
    if year % 4 = 0 ∧ (year % 100 ≠ 0 ∨ year % 400 = 0) then 29 else 28
  else if month ∈ [4, 6, 9, 11] then 30
  else 31

/-- A date with a time of day, as a calendar and a clock show it. -/
structure DateTime where
  year : Nat
  month : Nat
  day : Nat
  hour : Nat
  minute : Nat
  second : Nat
  valid : 1 ≤ year ∧ 1 ≤ month ∧ month ≤ 12 ∧ 1 ≤ day ∧ day ≤ daysInMonth year month ∧
    hour < 24 ∧ minute < 60 ∧ second < 60
  deriving DecidableEq

/-- The pattern letters `d`, `M`, `m`, `y`, `h` and `s`. -/
inductive Letter where
  | day
  | month
  | minute
  | year
  /-- The hour on a 12-hour clock, from 1 to 12. -/
  | hour12
  | second
  deriving DecidableEq

/-- The field that a character of a pattern stands for. -/
def Letter.ofChar : Char → Option Letter
  | 'd' => some .day
  | 'M' => some .month
  | 'm' => some .minute
  | 'y' => some .year
  | 'h' => some .hour12
  | 's' => some .second
  | _ => none

inductive Token where
  /-- A run of a pattern letter. -/
  | field (l : Letter) (width : Nat)
  | literal (c : Char)
  deriving DecidableEq

/-- The runs and the literal characters of a pattern. -/
def tokens : List Char → List Token
  | [] => []
  | c :: cs =>
    match Letter.ofChar c with
    | none => .literal c :: tokens cs
    | some l =>
      match tokens cs with
      | .field l' width :: rest =>
        if l = l' then .field l (width + 1) :: rest else .field l 1 :: .field l' width :: rest
      | rest => .field l 1 :: rest

def DateTime.get (d : DateTime) : Letter → Nat
  | .day => d.day
  | .month => d.month
  | .minute => d.minute
  | .year => d.year
  | .hour12 => if d.hour % 12 = 0 then 12 else d.hour % 12
  | .second => d.second

def print (d : DateTime) : Token → List Char
  | .field l width => Numerals.padded width (d.get l)
  | .literal c => [c]

/-- `string(from: d)` -/
def string (dateFormat : String) (d : DateTime) : String :=
  String.ofList ((tokens dateFormat.toList).flatMap (print d))

end DateFormatter
