/-!
Dates and times: scanned, checked against the calendar, and written in one standard form.
-/

namespace Bindery.Toml

structure Date where
  year : Nat
  month : Nat
  day : Nat
  deriving DecidableEq, Repr

structure Time where
  hour : Nat
  minute : Nat
  second : Nat
  nanosecond : Nat
  deriving DecidableEq, Repr

/-- How far a clock is from universal time, in minutes; `none` is written `Z`. -/
abbrev Offset := Option Int

inductive Moment where
  | full (date : Date) (time : Time) (offset : Option Offset)
  | date (date : Date)
  | time (time : Time)
  deriving DecidableEq, Repr

/-- A number of exactly `n` digits. -/
def scanPlaces (n : Nat) (cs : List Char) : Option (Nat × List Char) :=
  let ds := cs.take n
  if ds.length = n && ds.all Char.isDigit then
    some (ds.foldl (fun k c => k * 10 + (c.toNat - '0'.toNat)) 0, cs.drop n)
  else none

def scanPlacesUpTo (n bound : Nat) (cs : List Char) : Option (Nat × List Char) := do
  let (k, cs) ← scanPlaces n cs
  if k ≤ bound then some (k, cs) else none

def scanChar (c : Char) : List Char → Option (List Char)
  | d :: cs => if c = d then some cs else none
  | [] => none

def isLeapYear (year : Nat) : Bool :=
  year % 4 == 0 && (year % 100 != 0 || year % 400 == 0)

def daysInMonth (year month : Nat) : Nat :=
  if month = 2 then (if isLeapYear year then 29 else 28)
  else if month = 4 || month = 6 || month = 9 || month = 11 then 30
  else 31

def scanDate (cs : List Char) : Option (Date × List Char) := do
  let (year, cs) ← scanPlaces 4 cs
  let cs ← scanChar '-' cs
  let (month, cs) ← scanPlacesUpTo 2 12 cs
  let cs ← scanChar '-' cs
  let (day, cs) ← scanPlacesUpTo 2 31 cs
  if 1 ≤ month && 1 ≤ day && day ≤ daysInMonth year month then some (⟨year, month, day⟩, cs)
  else none

/-- Digits after the ninth are dropped. -/
def scanFraction : List Char → Option (Nat × List Char)
  | '.' :: cs =>
    match cs.takeWhile Char.isDigit with
    | [] => none
    | ds =>
      let kept := ds.take 9
      let n := kept.foldl (fun k c => k * 10 + (c.toNat - '0'.toNat)) 0
      some (n * Nat.pow 10 (9 - kept.length), cs.drop ds.length)
  | cs => some (0, cs)

def scanTime (cs : List Char) : Option (Time × List Char) := do
  let (hour, cs) ← scanPlacesUpTo 2 23 cs
  let cs ← scanChar ':' cs
  let (minute, cs) ← scanPlacesUpTo 2 59 cs
  let cs ← scanChar ':' cs
  let (second, cs) ← scanPlacesUpTo 2 60 cs
  let (nanosecond, cs) ← scanFraction cs
  pure (⟨hour, minute, second, nanosecond⟩, cs)

def scanOffset : List Char → Option (Offset × List Char)
  | [] => none
  | c :: cs =>
    if c = 'Z' || c = 'z' then some (none, cs)
    else if c = '+' || c = '-' then do
      let (hour, cs) ← scanPlacesUpTo 2 23 cs
      let cs ← scanChar ':' cs
      let (minute, cs) ← scanPlacesUpTo 2 59 cs
      let minutes : Int := hour * 60 + minute
      pure (some (if c = '-' then -minutes else minutes), cs)
    else none

/-- A date, a time, or both with `T` or a blank between them. Only both may have an offset. -/
def scanMoment (cs : List Char) : Option (Moment × List Char) :=
  match scanDate cs with
  | none => (scanTime cs).map fun (t, cs) => (.time t, cs)
  | some (d, cs) =>
    match cs with
    | c :: after =>
      if c = 'T' || c = 't' || c = ' ' then
        match scanTime after with
        | none => some (.date d, cs)
        | some (t, cs) =>
          match scanOffset cs with
          | none => some (.full d t none, cs)
          | some (o, cs) => some (.full d t (some o), cs)
      else some (.date d, cs)
    | [] => some (.date d, [])

def padded (places n : Nat) : String :=
  let s := toString n
  String.ofList (List.replicate (places - s.length) '0') ++ s

def Date.text (d : Date) : String :=
  padded 4 d.year ++ "-" ++ padded 2 d.month ++ "-" ++ padded 2 d.day

def Time.text (t : Time) : String :=
  let fraction :=
    if t.nanosecond = 0 then ""
    else "." ++ String.ofList (((padded 9 t.nanosecond).toList.reverse.dropWhile (· = '0')).reverse)
  padded 2 t.hour ++ ":" ++ padded 2 t.minute ++ ":" ++ padded 2 t.second ++ fraction

def offsetText : Offset → String
  | none => "Z"
  | some minutes =>
    (if minutes < 0 then "-" else "+") ++ padded 2 (minutes.natAbs / 60) ++ ":" ++
      padded 2 (minutes.natAbs % 60)

def Moment.text : Moment → String
  | .full d t o => d.text ++ "T" ++ t.text ++ (o.map offsetText).getD ""
  | .date d => d.text
  | .time t => t.text

end Bindery.Toml
