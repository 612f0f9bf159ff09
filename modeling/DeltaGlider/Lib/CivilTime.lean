import DeltaGlider.Lib.RustStd

/-!
# Civil time: instants, the Gregorian calendar, `strftime` and RFC 3339

What the `chrono` crate computes for UTC date-times, on instants counted in
nanoseconds from 1970-01-01T00:00:00Z as an `Int`, so that the dates before
1970 are instants too.

* `daysFromCivil` and `civilFromDays` turn a proleptic Gregorian date into
  its day number and back, with the year counted from March so that the
  leap day ends it.
* `brokenDown t` holds the fields `DateTime<Utc>` formats.
* `Parsed` holds the fields a parse has read, and `Parsed.toInstant` makes
  them an instant.  These are `chrono`'s `Parsed::set_*`, with the range of
  each field, then `to_naive_datetime_with_offset`.  A second of 60 is a
  leap second, which `timestamp_nanos` reads as the first instant of the
  next second.
* `Item`, `strftimeItems`, `format` and `naiveParseFromStr` cover the
  `strftime` specifiers `%Y %m %d %H %M %S %.f %.6f %%`, literals and
  whitespace.
* `parseFromRfc3339` is `DateTime::parse_from_rfc3339`, converted to UTC.

Nothing here names the proxy: its header codec takes `chrono` as a
parameter, and these definitions are the instance its witnesses run.
-/

namespace CivilTime

open RustStd

/-! ## The calendar -/

def nanosPerSec : Int := 1000000000

def secsPerDay : Int := 86400

/-- The years of `NaiveDate` (`MIN_YEAR`, `MAX_YEAR`). -/
def minYear : Int := -262143

def maxYear : Int := 262142

def isLeapYear (y : Int) : Bool := y % 4 == 0 && (y % 100 != 0 || y % 400 == 0)

/-- The days of month `m` (of `1..=12`) in year `y`. -/
def daysInMonth (y m : Int) : Int :=
  if m = 2 then (if isLeapYear y then 29 else 28)
  else if m = 4 ∨ m = 6 ∨ m = 9 ∨ m = 11 then 30
  else 31

/-- The day number of a date, day 0 being 1970-01-01.  The year is counted
from March, in 400-year eras of 146097 days. -/
def daysFromCivil (y m d : Int) : Int :=
  let y := if m ≤ 2 then y - 1 else y
  let era := y / 400
  let yoe := y - era * 400
  let doy := (153 * ((m + 9) % 12) + 2) / 5 + d - 1
  let doe := yoe * 365 + yoe / 4 - yoe / 100 + doy
  era * 146097 + doe - 719468

/-- The date of a day number: year, month and day. -/
def civilFromDays (z : Int) : Int × Int × Int :=
  let z := z + 719468
  let era := z / 146097
  let doe := z - era * 146097
  let yoe := (doe - doe / 1460 + doe / 36524 - doe / 146096) / 365
  let doy := doe - (365 * yoe + yoe / 4 - yoe / 100)
  let mp := (5 * doy + 2) / 153
  let d := doy - (153 * mp + 2) / 5 + 1
  let m := if mp < 10 then mp + 3 else mp - 9
  (if m ≤ 2 then yoe + era * 400 + 1 else yoe + era * 400, m, d)

/-! ## Fields -/

/-- The fields of a date-time, as `chrono`'s `Parsed` names them. -/
inductive Field where
  | year | month | day | hour | minute | second | nanosecond
  deriving DecidableEq, Repr

namespace Field

/-- The values `Parsed::set_*` accepts (`set_year`: an `i32`). -/
def inRange : Field → Int → Bool
  | .year, v => -2 ^ 31 ≤ v && v < 2 ^ 31
  | .month, v => 1 ≤ v && v ≤ 12
  | .day, v => 1 ≤ v && v ≤ 31
  | .hour, v => 0 ≤ v && v ≤ 23
  | .minute, v => 0 ≤ v && v ≤ 59
  | .second, v => 0 ≤ v && v ≤ 60
  | .nanosecond, v => 0 ≤ v && v ≤ 999999999

/-- The digits a numeric item writes, zero-padded, and reads at most
without a sign. -/
def width : Field → Nat
  | .year => 4
  | .nanosecond => 9
  | _ => 2

end Field

/-- The UTC fields of an instant, as `DateTime<Utc>` formats them. -/
def brokenDown (t : Int) : Field → Int :=
  let secs := t / nanosPerSec
  let sod := secs % secsPerDay
  let date := civilFromDays (secs / secsPerDay)
  fun
  | .year => date.1
  | .month => date.2.1
  | .day => date.2.2
  | .hour => sod / 3600
  | .minute => sod % 3600 / 60
  | .second => sod % 60
  | .nanosecond => t % nanosPerSec

/-- `Parsed`: the fields read so far. -/
abbrev Parsed := Field → Option Int

/-- `Parsed::set_*` through `set_if_consistent`: a value in the field's
range, set once or again to the same value. -/
def Parsed.set (p : Parsed) (f : Field) (v : Int) : Option Parsed :=
  if !f.inRange v then none
  else match p f with
    | none => some fun g => if g = f then some v else p g
    | some w => if w = v then some p else none

/-- `to_naive_datetime_with_offset` as an instant, minus the offset.  The
date needs a year, month and day that make a real date of `NaiveDate`'s
years; the time needs an hour and a minute, and a fraction only beside a
second.  A leap second `:60` with fraction `n` is second 59 with `n + 10⁹`,
the same instant. -/
def Parsed.toInstant (p : Parsed) (offset : Int) : Option Int := do
  let year ← p .year
  let month ← p .month
  let day ← p .day
  let hour ← p .hour
  let minute ← p .minute
  let nano ← match p .nanosecond, p .second with
    | some v, some _ => some v
    | some _, none => none
    | none, _ => some 0
  guard (minYear ≤ year ∧ year ≤ maxYear ∧ day ≤ daysInMonth year month)
  let secs := daysFromCivil year month day * secsPerDay + hour * 3600 + minute * 60 +
    (p .second).getD 0
  pure (secs * nanosPerSec + nano - offset * nanosPerSec)

/-! ## `strftime` -/

/-- The `strftime` items (`chrono::format::Item`) of the specifiers
covered here. -/
inductive Item where
  | literal (c : Char)
  | space (c : Char)
  | numeric (f : Field)
  /-- `%.f`: the fraction as short as it can be written. -/
  | nanosecond
  /-- `%.6f`: six digits of the fraction. -/
  | nanosecond6
  deriving DecidableEq, Repr

/-- `StrftimeItems`: `none` at a specifier not covered here. -/
def strftimeItems : List Char → Option (List Item)
  | [] => some []
  | '%' :: 'Y' :: rest => (.numeric .year :: ·) <$> strftimeItems rest
  | '%' :: 'm' :: rest => (.numeric .month :: ·) <$> strftimeItems rest
  | '%' :: 'd' :: rest => (.numeric .day :: ·) <$> strftimeItems rest
  | '%' :: 'H' :: rest => (.numeric .hour :: ·) <$> strftimeItems rest
  | '%' :: 'M' :: rest => (.numeric .minute :: ·) <$> strftimeItems rest
  | '%' :: 'S' :: rest => (.numeric .second :: ·) <$> strftimeItems rest
  | '%' :: '.' :: 'f' :: rest => (.nanosecond :: ·) <$> strftimeItems rest
  | '%' :: '.' :: '6' :: 'f' :: rest => (.nanosecond6 :: ·) <$> strftimeItems rest
  | '%' :: '%' :: rest => (.literal '%' :: ·) <$> strftimeItems rest
  | '%' :: _ => none
  | c :: rest => ((if isWhitespace c then .space c else .literal c) :: ·) <$> strftimeItems rest

/-- `n` in decimal, zero-padded to `width` digits. -/
def zeroPad (width n : Nat) : List Char :=
  let ds := Nat.toDigits 10 n
  List.replicate (width - ds.length) '0' ++ ds

/-- The fraction of `%.f`: nothing on a whole second, else three, six or
nine digits. -/
def shortFraction (nano : Nat) : List Char :=
  if nano = 0 then []
  else if nano % 1000000 = 0 then '.' :: zeroPad 3 (nano / 1000000)
  else if nano % 1000 = 0 then '.' :: zeroPad 6 (nano / 1000)
  else '.' :: zeroPad 9 nano

/-- One item of `DateTime::format`; a year outside `0..=9999` is written
with its sign. -/
def formatItem (fields : Field → Int) : Item → List Char
  | .literal c | .space c => [c]
  | .numeric .year =>
    let y := fields .year
    if 0 ≤ y ∧ y < 10000 then zeroPad 4 y.toNat
    else (if y < 0 then '-' else '+') :: zeroPad 4 y.natAbs
  | .numeric f => zeroPad f.width (fields f).toNat
  | .nanosecond => shortFraction (fields .nanosecond).toNat
  | .nanosecond6 => '.' :: zeroPad 6 ((fields .nanosecond).toNat / 1000)

/-- `DateTime::<Utc>::format(fmt).to_string()`; the empty text where a
specifier is not covered (`chrono` panics there). -/
def format (t : Int) (fmt : String) : String :=
  match strftimeItems fmt.toList with
  | some items => String.ofList (items.flatMap (formatItem (brokenDown t)))
  | none => ""

/-! ## Parsing -/

/-- The value of a run of ASCII digits. -/
def digitsVal (ds : List Char) : Nat :=
  ds.foldl (fun acc c => acc * 10 + (c.toNat - '0'.toNat)) 0

/-- `scan::number`: between `min` and `max` ASCII digits, read greedily,
the value an `i64`. -/
def scanNumber (min max : Nat) (s : List Char) : Option (Nat × List Char) :=
  let ds := (s.take max).takeWhile Char.isDigit
  if ds.length < min ∨ i64Max < digitsVal ds then none else some (digitsVal ds, s.drop ds.length)

/-- `scan::nanosecond`: one to nine digits scaled to nanoseconds; the
digits after the ninth are skipped. -/
def scanNanosecond (s : List Char) : Option (Nat × List Char) := do
  let (v, rest) ← scanNumber 1 9 s
  pure (v * 10 ^ (9 - (s.length - rest.length)), rest.dropWhile Char.isDigit)

/-- `scan::char`. -/
def scanChar (c : Char) : List Char → Option (List Char)
  | c' :: rest => if c' = c then some rest else none
  | [] => none

/-- One item of `format::parse`: a number after leading whitespace (a year
with an explicit sign of any length), and the fraction after an optional
dot. -/
def parseItem (p : Parsed) : Item → List Char → Option (Parsed × List Char)
  | .literal c, s => (p, ·) <$> scanChar c s
  | .space _, s => some (p, s.dropWhile isWhitespace)
  | .numeric f, s =>
    match f, s.dropWhile isWhitespace with
    | .year, '-' :: r => do
      let (v, r) ← scanNumber 1 usizeMax r
      pure (← p.set .year (-(v : Int)), r)
    | .year, '+' :: r => do
      let (v, r) ← scanNumber 1 usizeMax r
      pure (← p.set .year v, r)
    | f, s => do
      let (v, r) ← scanNumber 1 f.width s
      pure (← p.set f v, r)
  | .nanosecond, s | .nanosecond6, s =>
    match s with
    | '.' :: r => do
      let (v, r) ← scanNanosecond r
      pure (← p.set .nanosecond v, r)
    | _ => some (p, s)

def parseItems (p : Parsed) : List Item → List Char → Option (Parsed × List Char)
  | [], s => some (p, s)
  | item :: items, s => do
    let (p, s) ← parseItem p item s
    parseItems p items s

/-- `NaiveDateTime::parse_from_str(s, fmt)` then `and_utc()`: every item
read and nothing left over. -/
def naiveParseFromStr (s fmt : String) : Option Int := do
  let items ← strftimeItems fmt.toList
  let (p, rest) ← parseItems (fun _ => none) items s.toList
  guard rest.isEmpty
  p.toInstant 0

/-- `scan::timezone_offset` as RFC 3339 calls it, in seconds: `Z` or `z`,
or a sign (`+`, `-`, U+2212) and `hh:mm` with minutes below 60. -/
def timezoneOffset : List Char → Option (Int × List Char)
  | 'Z' :: rest | 'z' :: rest => some (0, rest)
  | sign :: h1 :: h2 :: ':' :: m1 :: m2 :: rest =>
    if (sign = '+' ∨ sign = '-' ∨ sign = '−') ∧ h1.isDigit ∧ h2.isDigit ∧ '0' ≤ m1 ∧ m1 ≤ '5' ∧
        m2.isDigit then
      let secs : Int := digitsVal [h1, h2] * 3600 + digitsVal [m1, m2] * 60
      some (if sign = '+' then secs else -secs, rest)
    else none
  | _ => none

/-- `DateTime::parse_from_rfc3339`, then `with_timezone(&Utc)`: four-digit
year, `T`, `t` or a space between date and time, an optional fraction, an
offset within ±23:59, and nothing after it. -/
def parseFromRfc3339 (s : String) : Option Int := do
  let (year, s) ← scanNumber 4 4 s.toList
  let s ← scanChar '-' s
  let (month, s) ← scanNumber 2 2 s
  let s ← scanChar '-' s
  let (day, s) ← scanNumber 2 2 s
  let s ← match s with
    | c :: rest => if c = 'T' ∨ c = 't' ∨ c = ' ' then some rest else none
    | [] => none
  let (hour, s) ← scanNumber 2 2 s
  let s ← scanChar ':' s
  let (minute, s) ← scanNumber 2 2 s
  let s ← scanChar ':' s
  let (second, s) ← scanNumber 2 2 s
  let (nano, s) ← match s with
    | '.' :: rest => (fun r => (some r.1, r.2)) <$> scanNanosecond rest
    | _ => some (none, s)
  let (offset, s) ← timezoneOffset s
  guard (offset.natAbs ≤ 86340 ∧ s.isEmpty)
  let p ← Parsed.set (fun _ => none) .year year
  let p ← p.set .month month
  let p ← p.set .day day
  let p ← p.set .hour hour
  let p ← p.set .minute minute
  let p ← p.set .second second
  let p ← match nano with
    | some v => p.set .nanosecond v
    | none => some p
  p.toInstant offset

end CivilTime
