import PluginLint.Text.Basic

/-!
# TOML dates and times

A date, a time of day, or a date and a time with the distance from the reference time or without.
A date is one of the calendar; seconds may be missing, and sixty of them allow for a leap second.
No setting is a moment, so only the form matters.
-/
namespace PluginLint.Toml

/-- A run of just so many digits at the front of a text, as a number. -/
def field? (width : Nat) (s : Text) : Option (Nat × Text) :=
  let run := s.takeWhile Char.isDigit
  if run.length = width then
    some (run.foldl (fun n c => n * 10 + (c.toNat - '0'.toNat)) 0, s.drop width)
  else none

/-- The text after a character that has to stand here. -/
def after? (expected : Char) : Text → Option Text
  | c :: rest => if c = expected then some rest else none
  | [] => none

def isLeapYear (year : Nat) : Bool := year % 4 == 0 && (year % 100 != 0 || year % 400 == 0)

def daysIn (year month : Nat) : Nat :=
  if month = 2 then if isLeapYear year then 29 else 28
  else if [4, 6, 9, 11].contains month then 30
  else 31

/-- The text after a date. -/
def afterDate? (s : Text) : Option Text := do
  let (year, s) ← field? 4 s
  let (month, s) ← field? 2 (← after? '-' s)
  let (day, s) ← field? 2 (← after? '-' s)
  if 1 ≤ month ∧ month ≤ 12 ∧ 1 ≤ day ∧ day ≤ daysIn year month then some s else none

/-- The text after an hour and a minute. -/
def afterMinute? (s : Text) : Option Text := do
  let (hour, s) ← field? 2 s
  let (minute, s) ← field? 2 (← after? ':' s)
  if hour ≤ 23 ∧ minute ≤ 59 then some s else none

/-- The text after a fraction of a second, if one starts here. -/
def afterSecondFraction? : Text → Option Text
  | '.' :: rest =>
    if rest.head?.any Char.isDigit then some (rest.dropWhile Char.isDigit) else none
  | s => some s

/-- The text after a time of day. -/
def afterTime? (s : Text) : Option Text := do
  match ← afterMinute? s with
  | ':' :: rest =>
    let (second, rest) ← field? 2 rest
    if second ≤ 60 then afterSecondFraction? rest else none
  | rest => some rest

/-- Whether a text is a distance from the reference time, or empty. -/
def isOffset : Text → Bool
  | [] | ['Z'] | ['z'] => true
  | '+' :: rest | '-' :: rest => afterMinute? rest == some []
  | _ => false

/-- Whether a text is a date, a time or both. -/
def isMoment (s : Text) : Bool :=
  match afterDate? s with
  | some [] => true
  | some (c :: rest) => (c == 'T' || c == 't' || c == ' ') && (afterTime? rest).any isOffset
  | none => afterTime? s == some []

example : isMoment "2024-02-29".toList = true := by decide
example : isMoment "2023-02-29".toList = false := by decide
example : isMoment "07:32".toList = true := by decide
example : isMoment "2024-01-01 23:59:60.5-23:59".toList = true := by decide

end PluginLint.Toml
