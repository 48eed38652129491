import CallTime.Value.Arithmetic

/-!
Logical clocks. A clock counts the ticks an analysis spends; a metered one stops it at a limit.
-/

namespace CallTime

inductive Clock where
  | unbounded (mark : Int)
  /-- An unbounded clock that was not started at a whole number. -/
  | loose (mark : Value)
  | metered (limit mark : Int)

namespace Clock

def mark : Clock → Value
  | .unbounded m => .int m
  | .loose m => m
  | .metered _ m => .int m

def start : Value → Clock
  | .int n => .unbounded n
  | v => .loose v

/-- A meter needs a positive limit and starts at a mark that is not negative. -/
def meter (limit current : Value) : Except Fault Clock := do
  let l ← limit.toInt
  if l ≤ 0 then throw (.never "invalid gas meter limit" [("limit", limit.shown)])
  let c ← current.toInt
  if c < 0 then throw (.never "invalid gas meter current" [("current", (Value.int c).shown)])
  return .metered l c

def forLimit : Value → Except Fault Clock
  | .null => .ok (.unbounded 0)
  | limit => meter limit (.int 0)

theorem forLimit_int (n : Int) : forLimit (.int n) =
    if n ≤ 0 then .error (.never "invalid gas meter limit" [("limit", (Value.int n).shown)])
    else .ok (.metered n 0) := by
  change (if n ≤ 0 then _ else _) = _
  split <;> rfl

/-- What a meter says that is past its limit; it fails to if the numbers have too many digits. -/
def overrun (limit mark : Int) : Fault :=
  if isLong mark || isLong limit then .wrongValue else .exhausted mark limit

theorem overrun_eq {limit mark : Int} (hl : isLong limit = false) (hm : isLong mark = false) :
    overrun limit mark = .exhausted mark limit := by
  rw [overrun, hl, hm]
  rfl

/-- Spends ticks. A meter that is run past its limit has advanced all the same. -/
def spend (ticks : Value) (c : Clock) : Except Fault Unit × Clock :=
  match ticks.toInt with
  | .error e => (.error e, c)
  | .ok n => match c with
    | .unbounded m => (.ok (), .unbounded (m + n))
    | .loose v => match v.add (.int n) with
      | .ok v => (.ok (), start v)
      | .error e => (.error e, c)
    | .metered limit m =>
      if n ≤ 0 then (.error (.never "invalid gas meter ticks" [("ticks", ticks.shown)]), c)
      else if limit < m + n then (.error (overrun limit (m + n)), .metered limit (m + n))
      else (.ok (), .metered limit (m + n))

end Clock

/-- A computation that spends ticks and may fail. The clock keeps what was spent. -/
abbrev Timed := ExceptT Fault (StateM Clock)

def Timed.tick (n : Nat) : Timed Unit := fun c => c.spend (.int n)

end CallTime
