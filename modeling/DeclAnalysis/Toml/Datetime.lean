/-!
# Dates and times

A date, a time of day, or both; a date with a time may also say how far local
time lies from universal time. Seconds have at most nine decimal places, and
only dates of the Gregorian calendar exist.
-/

namespace DeclAnalysis

namespace Toml

/-- A day of the calendar. -/
structure Date where
  year : Nat
  month : Nat
  day : Nat
deriving DecidableEq, Repr, Inhabited

/-- A time of day. -/
structure Time where
  hour : Nat
  minute : Nat
  second : Nat
  nanosecond : Nat
deriving DecidableEq, Repr, Inhabited

/-- The distance of local time from universal time. -/
inductive Offset where
  /-- Local time is universal time. -/
  | zulu
  | minutes (behind : Bool) (count : Nat)
deriving DecidableEq, Repr, Inhabited

/-- A date, a time of day, or both. -/
structure Datetime where
  date : Option Date
  time : Option Time
  offset : Option Offset
deriving DecidableEq, Repr, Inhabited

/-- How far times and offsets may go. -/
inductive ClockRule where
  /-- As in a document. -/
  | strict
  /-- As in a text that stands for a date. -/
  | lenient
deriving DecidableEq, Repr, Inhabited

namespace ClockRule

/-- The last hour of a day. -/
def lastHour : ClockRule → Nat
  | strict => 23
  | lenient => 24

/-- The offset of so many hours and minutes exists. -/
def allowsOffset (hour minute : Nat) : ClockRule → Bool
  | strict => hour ≤ 23 && minute ≤ 59
  | lenient => 60 * hour + minute ≤ 24 * 60

end ClockRule

/-- A number with leading zeros up to a width. -/
def padded (width n : Nat) : String :=
  let text := Nat.toDigits 10 n
  String.ofList (List.replicate (width - text.length) '0' ++ text)

namespace Date

/-- The days of a month. -/
def daysIn (year month : Nat) : Nat :=
  let leap := year % 4 = 0 ∧ (year % 100 ≠ 0 ∨ year % 400 = 0)
  if month = 2 then (if leap then 29 else 28)
  else if month = 4 ∨ month = 6 ∨ month = 9 ∨ month = 11 then 30
  else 31

/-- The day exists. -/
def isValid (d : Date) : Bool :=
  1 ≤ d.month && d.month ≤ 12 && 1 ≤ d.day && d.day ≤ daysIn d.year d.month

/-- The date as text. -/
def text (d : Date) : String :=
  padded 4 d.year ++ "-" ++ padded 2 d.month ++ "-" ++ padded 2 d.day

end Date

namespace Time

/-- The time exists; a minute may end with a leap second. -/
def isValid (rule : ClockRule) (t : Time) : Bool :=
  t.hour ≤ rule.lastHour && t.minute ≤ 59 && t.second ≤ 60

/-- The decimal places of the seconds without trailing zeros. -/
def places (t : Time) : List Char :=
  ((padded 9 t.nanosecond).toList.reverse.dropWhile (· == '0')).reverse

/-- The time as text. -/
def text (t : Time) : String :=
  let whole := padded 2 t.hour ++ ":" ++ padded 2 t.minute ++ ":" ++ padded 2 t.second
  if t.nanosecond = 0 then whole else whole ++ "." ++ String.ofList t.places

end Time

namespace Offset

/-- The offset as text; one of no minutes is never behind. -/
def text : Offset → String
  | zulu => "Z"
  | minutes behind count =>
    (if behind && count ≠ 0 then "-" else "+")
      ++ padded 2 (count / 60) ++ ":" ++ padded 2 (count % 60)

end Offset

namespace Datetime

/-- The date and time as text. -/
def text (d : Datetime) : String :=
  let date := (d.date.map Date.text).getD ""
  let time := (d.time.map Time.text).getD ""
  let between := if d.date.isSome && d.time.isSome then "T" else ""
  date ++ between ++ time ++ (d.offset.map Offset.text).getD ""

end Datetime

/-! ### Reading -/

/-- The number that a list of decimal digits writes, if it is one of at least
one digit. -/
def natural? (digits : List Char) : Option Nat :=
  if digits.isEmpty || !digits.all Char.isDigit then none
  else some (digits.foldl (fun n c => 10 * n + (c.toNat - '0'.toNat)) 0)

namespace Date

/-- The date that a text writes. -/
def ofText? : List Char → Option Date
  | [y₁, y₂, y₃, y₄, '-', m₁, m₂, '-', d₁, d₂] => do
    let date : Date :=
      ⟨← natural? [y₁, y₂, y₃, y₄], ← natural? [m₁, m₂], ← natural? [d₁, d₂]⟩
    if date.isValid then return date else none
  | _ => none

end Date

namespace Time

/-- The nanoseconds that decimal places write; places beyond the ninth are
dropped. -/
def nanoseconds? (places : List Char) : Option Nat := do
  let _ ← natural? places
  let taken := places.take 9
  natural? (taken ++ List.replicate (9 - taken.length) '0')

/-- The time that a text writes. -/
def ofText? (rule : ClockRule) : List Char → Option Time
  | h₁ :: h₂ :: ':' :: m₁ :: m₂ :: ':' :: s₁ :: s₂ :: rest => do
    let nanosecond ←
      match rest with
      | [] => some 0
      | '.' :: places => nanoseconds? places
      | _ => none
    let time : Time :=
      ⟨← natural? [h₁, h₂], ← natural? [m₁, m₂], ← natural? [s₁, s₂], nanosecond⟩
    if time.isValid rule then return time else none
  | _ => none

end Time

namespace Offset

/-- The offset that a text writes. -/
def ofText? (rule : ClockRule) : List Char → Option Offset
  | ['Z'] | ['z'] => some zulu
  | [sign, h₁, h₂, ':', m₁, m₂] => do
    let behind ← if sign = '-' then some true else if sign = '+' then some false else none
    let hour ← natural? [h₁, h₂]
    let minute ← natural? [m₁, m₂]
    if rule.allowsOffset hour minute then return minutes behind (60 * hour + minute) else none
  | _ => none

/-- Whether an offset begins with the character. -/
def begins (c : Char) : Bool := c == 'Z' || c == 'z' || c == '+' || c == '-'

end Offset

namespace Datetime

/-- The character may stand between a date and a time. -/
def isSeparator (c : Char) : Bool := c == 'T' || c == 't' || c == ' '

/-- The time, with an offset if there is one, that a text writes after a date. -/
def ofClock? (rule : ClockRule) (date : Date) (text : List Char) : Option Datetime := do
  let (clock, rest) := text.span fun c => !Offset.begins c
  let time ← Time.ofText? rule clock
  let offset ← if rest.isEmpty then some none else (Offset.ofText? rule rest).map some
  return { date := some date, time := some time, offset }

/-- The date or time that a text writes. -/
def ofText? (rule : ClockRule) (text : List Char) : Option Datetime :=
  match Time.ofText? rule text with
  | some time => some { date := none, time := some time, offset := none }
  | none => do
    let date ← Date.ofText? (text.take 10)
    match text.drop 10 with
    | [] => return { date := some date, time := none, offset := none }
    | c :: clock => if isSeparator c then ofClock? rule date clock else none

end Datetime

end Toml

end DeclAnalysis
