import Scaffold.Decimal.Text

/-!
# Durations

A duration in seconds is shown with one decimal below a minute, and in whole minutes and seconds from a
minute on.
-/

namespace Scaffold.Duration

open Scaffold.Decimal

/-- Minutes and the seconds that remain. -/
def minutesText (minutes seconds : Int) : String := intText minutes ++ "m " ++ intText seconds ++ "s"

/-- The shown form of a number of whole seconds. -/
def ofInt (seconds : Int) : String :=
  if seconds < 0 then "0.0s"
  else if 60 ≤ seconds then minutesText (seconds / 60) (seconds % 60)
  else intText seconds ++ ".0s"

/-- The shown form of a number of seconds; none for a number without a whole part. -/
def ofFloat? (seconds : Binary64) : Option String :=
  let zero := Binary64.ofInt 0
  let minute := Binary64.ofInt 60
  if seconds.lt zero then some "0.0s"
  else
    let rest := seconds.mod minute
    match (seconds.floorDiv minute).floor?, rest.floor? with
    | some minutes, some whole =>
      if 0 < minutes then some (minutesText minutes whole) else some (tenthsText rest ++ "s")
    | _, _ => none

end Scaffold.Duration
