import OpenCompute.Calendar.Civil
import OpenCompute.Platform

/-!
# Cron expressions and their slots

A five-field expression is checked against the accepted syntax, normalized and
handed to the parser library.  The library is a parameter: of a parsed pattern
only the answers of its field matchers are used.  Slots are found by trying one
UTC minute after the other, within a search budget of twelve years.
-/

namespace OpenCompute
namespace Cron

open Transaction

def invalid : PlatformError :=
  ⟨.cronExpressionInvalid, "Cron expression is invalid"⟩

def unsupported : PlatformError :=
  ⟨.cronExpressionUnsupported, "Cron expression uses unsupported syntax"⟩

def unbounded : PlatformError :=
  ⟨.cronExpressionInvalid, "Cron expression has no bounded future UTC slot"⟩

/-- The parser library: its parser, and the field matchers of a parsed pattern. -/
structure Croner (Pattern : Type) where
  parse : List Char -> Option Pattern
  minuteMatch : Pattern -> Nat -> Bool
  hourMatch : Pattern -> Nat -> Bool
  monthMatch : Pattern -> Nat -> Bool
  dayMatch : Pattern -> Calendar.Date -> Nat -> Bool

structure CronSchedule (Pattern : Type) where
  normalized : List (List Char)
  cron : Pattern
deriving DecidableEq

/-! ## Accepted syntax -/

/-- The characters of the Unicode property `White_Space`. -/
def isWhitespace (c : Char) : Bool :=
  (9 ≤ c.toNat && c.toNat ≤ 13) || c.toNat == 0x20 || c.toNat == 0x85 ||
    c.toNat == 0xa0 || c.toNat == 0x1680 ||
    (0x2000 ≤ c.toNat && c.toNat ≤ 0x200a) || c.toNat == 0x2028 ||
    c.toNat == 0x2029 || c.toNat == 0x202f || c.toNat == 0x205f ||
    c.toNat == 0x3000

def isAsciiWhitespace (c : Char) : Bool :=
  c == ' ' || c == '\t' || c == '\n' || c.toNat == 12 || c == '\r'

/-- `split_ascii_whitespace`. -/
def splitFields (expression : List Char) : List (List Char) :=
  (expression.splitOnP isAsciiWhitespace).filter fun field => !field.isEmpty

def trimmed (expression : List Char) : Bool :=
  !(expression.head?.any isWhitespace) && !(expression.getLast?.any isWhitespace)

def isDigit (c : Char) : Bool := '0' ≤ c && c ≤ '9'

def isNumber (value : List Char) : Bool := !value.isEmpty && value.all isDigit

def months : List String :=
  ["JAN", "FEB", "MAR", "APR", "MAY", "JUN", "JUL", "AUG", "SEP", "OCT", "NOV", "DEC"]

def weekdays : List String := ["SUN", "MON", "TUE", "WED", "THU", "FRI", "SAT"]

def isMonth (value : List Char) : Bool :=
  isNumber value || months.any fun name => name.toList == value

def isWeekday (value : List Char) : Bool :=
  isNumber value || weekdays.any fun name => name.toList == value

/-- A wildcard, a value or a range, with an optional step. -/
def ordinary (value : List Char -> Bool) (item : List Char) : Bool :=
  let range := fun (base : List Char) =>
    base == ['*'] || match base.splitOn '-' with
      | [single] => value single
      | [first, last] => value first && value last
      | _ => false
  match item.splitOn '/' with
  | [base] => range base
  | [base, step] => range base && isNumber step
  | _ => false

def dayOfMonthItem (item : List Char) : Bool :=
  ordinary isNumber item || item == ['L'] || item == ['L', 'W'] ||
    (item.getLast? == some 'W' && isNumber item.dropLast)

def dayOfWeekItem (item : List Char) : Bool :=
  ordinary isWeekday item || (item.getLast? == some 'L' && isWeekday item.dropLast) ||
    match item.splitOn '#' with
    | [day, occurrence] =>
      isWeekday day && match occurrence.dropWhile (fun c => c == '0') with
        | [digit] => '1' ≤ digit && digit ≤ '5'
        | _ => false
    | _ => false

def fieldItem (index : Nat) (item : List Char) : Bool :=
  match index with
  | 0 | 1 => ordinary isNumber item
  | 2 => dayOfMonthItem item
  | 3 => ordinary isMonth item
  | _ => dayOfWeekItem item

def cloudflareSyntax (fields : List (List Char)) : Bool :=
  fields.zipIdx.all fun field => (field.1.splitOn ',').all (fieldItem field.2)

def stepFits (item : List Char) : Bool :=
  match item.dropWhile (fun c => c != '/') with
  | [] => true
  | _ :: step => isNumber step && step.foldl (fun n c => 10 * n + (c.toNat - '0'.toNat)) 0 ≤ 255

/-! ## Parsing -/

def toAsciiUppercase (c : Char) : Char :=
  if 'a' ≤ c ∧ c ≤ 'z' then Char.ofNat (c.toNat - 32) else c

def fieldRange (index : Nat) : List Char :=
  match index with
  | 0 => "0-59".toList
  | 1 => "0-23".toList
  | 2 => "1-31".toList
  | 3 => "1-12".toList
  | _ => "1-7".toList

/-- The library needs an explicit range for wildcard steps and list items. -/
def parserItem (index : Nat) (field item : List Char) : List Char :=
  if item = ['*'] ∧ field ≠ ['*'] then
    fieldRange index
  else if index = 4 ∧ item.take 2 = ['*', '/'] then
    "1-7/".toList ++ item.drop 2
  else
    item

def parserExpression (fields : List (List Char)) : List Char :=
  List.intercalate [' '] (fields.zipIdx.map fun field =>
    List.intercalate [','] ((field.1.splitOn ',').map (parserItem field.2 field.1)))

variable {Pattern : Type} (croner : Croner Pattern)

def CronSchedule.parse (text : String) : Result (CronSchedule Pattern) := do
  let expression := text.toList
  ensure (text ≠ "" ∧ text.utf8ByteSize ≤ 256 ∧ trimmed expression) invalid
  let fields := splitFields expression
  ensure (¬ (fields.length = 6 ∨ fields.length = 7)) unsupported
  ensure (fields.length = 5) invalid
  ensure (fields.all fun field => !field.contains '?') unsupported
  let normalized := fields.map (List.map toAsciiUppercase)
  ensure (cloudflareSyntax normalized ∧
    fields.all fun field => (field.splitOn ',').all stepFits) invalid
  let cron ← okOr (croner.parse (parserExpression normalized)) invalid
  return ⟨normalized, cron⟩

/-! ## Searching for slots -/

def minuteMs : Int := 60000

/-- The budget of a search: twelve years of 366 days, in minutes. -/
def searchMinutes : Nat := 12 * 366 * 24 * 60

def checkedMul (a b : Int) : Option Int :=
  if i64Min ≤ a * b ∧ a * b ≤ i64Max then some (a * b) else none

/-- Milliseconds in 400 years, after which dates and weekdays repeat. -/
def calendarPeriodMs : Int := 146097 * 24 * 60 * minuteMs

def CronSchedule.includesLastDay (c : CronSchedule Pattern) : Bool :=
  ((c.normalized.getD 2 []).splitOn ',').contains ['L']

def CronSchedule.matchesAt (c : CronSchedule Pattern) (timestamp : Int) : Bool :=
  let minutes := (timestamp.tmod calendarPeriodMs / minuteMs).toNat
  let day := minutes / 1440
  let date := Calendar.dateOfDay day
  croner.minuteMatch c.cron (minutes % 60) && croner.hourMatch c.cron (minutes / 60 % 24) &&
    croner.monthMatch c.cron date.month &&
    (croner.dayMatch c.cron date (Calendar.weekdayOfDay day) || (c.includesLastDay &&
        date.day == Calendar.daysInMonth date.year date.month))

/-- Tries `fuel` candidate minutes. -/
def CronSchedule.searchFrom (c : CronSchedule Pattern) :
    Nat -> Int -> Result Int
  | 0, _ => .error unbounded
  | fuel + 1, candidate => do
    let timestamp ← okOr (checkedMul candidate minuteMs) invalid
    if c.matchesAt croner timestamp then
      return timestamp
    else
      let candidate ← okOr (checkedAdd candidate 1) invalid
      c.searchFrom fuel candidate

def CronSchedule.nextFromMinute (c : CronSchedule Pattern) (candidate : Int) : Result Int := do
  let _ ← okOr (checkedAdd candidate searchMinutes) invalid
  c.searchFrom croner (searchMinutes + 1) candidate

def CronSchedule.nextAfterMs (c : CronSchedule Pattern) (afterMs : Int) : Result Int := do
  ensure (0 ≤ afterMs) invalid
  c.nextFromMinute croner (afterMs / minuteMs + 1)

/--
The loop that walks the slots up to `atOrBefore`.  Slots are a minute apart, so
that the loop ends before its fuel does.
-/
def CronSchedule.latestLoop (c : CronSchedule Pattern)
    (notBefore atOrBefore : Int) :
    Nat -> Int -> Option Int -> Result (Option Int)
  | 0, _, latest => .ok latest
  | fuel + 1, next, latest =>
    if next ≤ atOrBefore then do
      let after ← c.nextAfterMs croner next
      c.latestLoop notBefore atOrBefore fuel after
        (if notBefore ≤ next then some next else latest)
    else
      .ok latest

def CronSchedule.latestAtOrBeforeMs (c : CronSchedule Pattern)
    (notBefore atOrBefore : Int) : Result (Option Int) := do
  ensure (0 ≤ notBefore ∧ notBefore ≤ atOrBefore) invalid
  let next ← c.nextFromMinute croner (notBefore / minuteMs)
  c.latestLoop croner notBefore atOrBefore
    ((atOrBefore - next) / minuteMs + 1).toNat next none

end Cron
end OpenCompute
