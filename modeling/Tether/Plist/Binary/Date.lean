import Tether.Text.Double
import Tether.Time.Calendar

/-!
# Dates as seconds

The binary form of a property list gives a date as a floating point number of seconds
since the start of 2001. Read back, it is rounded to whole nanoseconds.
-/

namespace Tether.Plist.Binary

/-- The start of 2001, in nanoseconds since the start of 1970. -/
def epoch : Int := 978307200 * Time.nanosPerSecond

/-- The sum of two fractions, rounded. -/
def roundedSum (negative : Bool) (a b : Double) : Double :=
  match a.fraction?, b.fraction? with
  | some (_, n, d), some (_, m, e) => .nearest negative (n * e + m * d) (d * e)
  | _, _ => .notANumber false

/-- The seconds from 2001 to a point in time: whole seconds and fraction are rounded each
on its own before they are added. -/
def secondsOfDate (nanoseconds : Int) : Double :=
  let distance := nanoseconds - epoch
  let negative := distance < 0
  let whole := distance.natAbs / Time.nanosPerSecond
  let rest := distance.natAbs % Time.nanosPerSecond
  roundedSum negative (.nearest false whole 1) (.nearest false rest Time.nanosPerSecond)

/-- The point in time a number of seconds from 2001, to the nearest nanosecond and of two to
the even one, if it is in range. -/
def dateOfSeconds? (seconds : Double) : Option Int :=
  seconds.fraction?.bind fun (negative, num, den) =>
    let distance : Int := Double.roundDiv (num * Time.nanosPerSecond) den
    let point := if negative then epoch - distance else epoch + distance
    if Time.isPointInTime point then some point else none

end Tether.Plist.Binary
