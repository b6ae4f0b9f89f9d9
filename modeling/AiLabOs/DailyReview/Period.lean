import AiLabOs.Base.Zone
import AiLabOs.DailyReview.Models

/-!
# Daily Review: the period

The local day of an instant, or the day before it.

## Main definitions

* `period`: the instants of the day
-/

namespace DailyReviews

/-- The midnight of the day that is reviewed, from that of today. -/
def reviewedDay (today : DateTime) : DailyReviewDate → Option DateTime
  | .today => some today
  | .yesterday => today.plus (-oneDay)

/-- The period of a review: from the first midnight of the day to that of the next one. A sum that
leaves the calendar raises. -/
def period (zone : Zone) (now : DateTime) (reviewDate : DailyReviewDate) :
    Option (DateTime × DateTime) := do
  let localNow ← zone.fromUtc now
  let today ← localNow.1.atMinute 0 0
  let target ← reviewedDay today reviewDate
  let next ← target.plus oneDay
  let periodStart ← zone.toUtc target false
  let periodEnd ← zone.toUtc next false
  return (periodStart, periodEnd)

end DailyReviews
