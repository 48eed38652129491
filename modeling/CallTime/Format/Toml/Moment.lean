import CallTime.Text.Digit

/-!
Dates and times as TOML writes them, and their ISO 8601 texts.
-/

namespace CallTime.TomlText

/-- Two digits that spell a number from `low` to `high`. -/
def twoDigits? (low high : Nat) : List Char → Option (List Char × List Char)
  | a :: b :: rest =>
    if isDigit a && isDigit b && low ≤ decimal [a, b] && decimal [a, b] ≤ high then
      some ([a, b], rest)
    else none
  | _ => none

def char? (c : Char) : List Char → Option (List Char)
  | d :: rest => if d = c then some rest else none
  | [] => none

/-- The places after the seconds, cut to six. Zeros alone are not written. -/
def secondPlaces (cs : List Char) : List Char × List Char :=
  match cs with
  | '.' :: rest =>
    let ds := rest.takeWhile isDigit
    let six := (ds ++ List.replicate 6 '0').take 6
    if ds.isEmpty then ([], cs)
    else (if six.all (· = '0') then [] else '.' :: six, rest.dropWhile isDigit)
  | _ => ([], cs)

def time? (cs : List Char) : Option (List Char × List Char) := do
  let (hour, cs) ← twoDigits? 0 23 cs
  let (minute, cs) ← twoDigits? 0 59 (← char? ':' cs)
  let (second, cs) ← twoDigits? 0 59 (← char? ':' cs)
  let (places, cs) := secondPlaces cs
  return (hour ++ ':' :: minute ++ ':' :: second ++ places, cs)

def noOffset : List Char := "+00:00".toList

/-- The distance from universal time; none at all for a local time. -/
def offset (cs : List Char) : List Char × List Char :=
  match cs with
  | [] => ([], [])
  | sign :: rest =>
    if sign = 'Z' || sign = 'z' then (noOffset, rest)
    else if sign = '+' || sign = '-' then
      let parts : Option (List Char × List Char) := do
        let (hour, rest) ← twoDigits? 0 23 rest
        let (minute, rest) ← twoDigits? 0 59 (← char? ':' rest)
        let text := hour ++ ':' :: minute
        return (if text = "00:00".toList then noOffset else sign :: text, rest)
      parts.getD ([], cs)
    else ([], cs)

def isLeapYear (year : Nat) : Bool := year % 4 = 0 && (year % 100 ≠ 0 || year % 400 = 0)

def daysIn (year month : Nat) : Nat :=
  if month = 2 then if isLeapYear year then 29 else 28
  else if month ∈ [4, 6, 9, 11] then 30 else 31

def date? (cs : List Char) : Option (Bool × List Char × List Char) := do
  let (century, cs) ← twoDigits? 0 99 cs
  let (year, cs) ← twoDigits? 0 99 cs
  let (month, cs) ← twoDigits? 1 12 (← char? '-' cs)
  let (day, cs) ← twoDigits? 1 31 (← char? '-' cs)
  let number := decimal (century ++ year)
  return (0 < number && decimal day ≤ daysIn number (decimal month),
    century ++ year ++ '-' :: month ++ '-' :: day, cs)

def moment? (cs : List Char) : Option (Bool × List Char × List Char) :=
  match date? cs with
  | none => (time? cs).map fun (time, rest) => (true, time, rest)
  | some (valid, date, rest) =>
    let time : Option (List Char × List Char) := match rest with
      | c :: rest => if c ∈ ['T', 't', ' '] then time? rest else none
      | [] => none
    match time with
    | none => some (valid, date, rest)
    | some (time, rest) =>
      let (zone, rest) := offset rest
      some (valid, date ++ 'T' :: time ++ zone, rest)

end CallTime.TomlText
