import GasNow.OrdersViewController

/-!
# The delivery date of an order

Both patterns of `cellForRowAt` spell the month with the letter of the minutes. Reading
therefore drops the month and printing shows the minute in its place; and a date that cannot
be read is replaced by the clock.
-/

namespace GasNow

open DateFormatter Numerals

/-- A date and time that is stored with a four-digit year. -/
structure StoredDate extends DateTime where
  fourDigits : year ≤ 9999

/-- Its text, day-month-year-hour:minute:second. -/
def StoredDate.text (d : StoredDate) : String :=
  String.ofList (padded 2 d.day ++ '-' :: (padded 2 d.month ++ '-' :: (padded 4 d.year ++
    '-' :: (padded 2 d.hour ++ ':' :: (padded 2 d.minute ++ ':' :: (padded 2 d.second ++ []))))))

namespace OrdersViewController

end OrdersViewController

end GasNow
