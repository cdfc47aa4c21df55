/-!
# Time stamps

The date and time of day at which something was recorded, as the wall clock showed it.
-/

namespace EditorFormat

/-- A date and a time of day. -/
structure Stamp where
  year : Int
  month : Nat
  day : Nat
  hour : Nat
  minute : Nat
  second : Nat
deriving DecidableEq, Repr, Inhabited

namespace Stamp

/-- A number with zeros in front up to the given width. -/
def padded (width n : Nat) : String :=
  let digits := Nat.toDigits 10 n
  String.ofList (List.replicate (width - digits.length) '0' ++ digits)

/-- A year of four digits at least. Years outside of `0` to `9999` have a sign. -/
def displayYear (year : Int) : String :=
  let sign := if year < 0 then "-" else if 9999 < year then "+" else ""
  sign ++ padded 4 year.natAbs

/-- A stamp reads `year-month-day hour:minute:second`. -/
def display (stamp : Stamp) : String :=
  displayYear stamp.year ++ "-" ++ padded 2 stamp.month ++ "-" ++ padded 2 stamp.day ++ " "
    ++ padded 2 stamp.hour ++ ":" ++ padded 2 stamp.minute ++ ":" ++ padded 2 stamp.second

end Stamp

end EditorFormat
