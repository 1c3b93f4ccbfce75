/-!
# Clock readings

A reading of the clock in milliseconds, and its stamp: the date and the time of day in the
names of autosaves.
-/

namespace ParticleScene

/-- Milliseconds since the start of 1970. The clock itself counts nanoseconds; a stamp shows no more
of them than the whole milliseconds kept here. -/
structure Moment where
  millis : Int
  deriving Repr, DecidableEq

namespace Moment

/-- Whole seconds from one moment to a later one, cut toward zero. They are counted between whole
milliseconds. The difference of the readings in nanoseconds may be up to a millisecond less, and
then have one whole second less in it. -/
def secondsSince (now before : Moment) : Int :=
  (now.millis - before.millis).tdiv 1000

/-- A date. -/
structure Date where
  year : Int
  month : Nat
  day : Nat
  deriving Repr, DecidableEq

/-- The date of a day, counted from the start of 1970. Years are counted from March, so that
the leap day is the last of its year, in cycles of 400 years. -/
def Date.ofDays (days : Int) : Date :=
  let shifted := days + 719468
  let cycle := shifted.fdiv 146097
  let dayOfCycle := (shifted.fmod 146097).toNat
  let yearOfCycle :=
    (dayOfCycle - dayOfCycle / 1460 + dayOfCycle / 36524 - dayOfCycle / 146096) / 365
  let dayOfYear := dayOfCycle - (365 * yearOfCycle + yearOfCycle / 4 - yearOfCycle / 100)
  let monthFromMarch := (5 * dayOfYear + 2) / 153
  let month := if monthFromMarch < 10 then monthFromMarch + 3 else monthFromMarch - 9
  { year := yearOfCycle + cycle * 400 + (if month ≤ 2 then 1 else 0)
    month
    day := dayOfYear - (153 * monthFromMarch + 2) / 5 + 1 }

def padded (width n : Nat) : String :=
  let ds := toString n
  "".pushn '0' (width - ds.length) ++ ds

/-- A year with at least four digits; beyond that range it has a sign. -/
def yearText (year : Int) : String :=
  (if year < 0 then "-" else if 9999 < year then "+" else "") ++ padded 4 year.natAbs

/-- The stamp of a moment: date, time of day and milliseconds, with underscores between. -/
def stamp (m : Moment) : String :=
  let date := Date.ofDays (m.millis.fdiv 86400000)
  let millis := (m.millis.fmod 86400000).toNat
  let seconds := millis / 1000
  yearText date.year ++ padded 2 date.month ++ padded 2 date.day ++ "_" ++
    padded 2 (seconds / 3600) ++ padded 2 (seconds / 60 % 60) ++ padded 2 (seconds % 60) ++ "_" ++
    padded 3 (millis % 1000)

end Moment

end ParticleScene
