import AiLabOs.Assistant.Identifiers
import AiLabOs.Base.Failure
import AiLabOs.Base.OffsetTime
import AiLabOs.Base.Pattern
import AiLabOs.Base.Zone

/-!
# CEO Assistant: times of tasks and reminders

A day, an hour and perhaps a part of the day and minutes are read from a text, and taken for a local
time of the day on which the clock is read. What comes after the expression is looked at only for
some forms of minutes and seconds.

## Main definitions

* `timeExpression`: the expression of a time
* `TaskReminderIntentParser.parse`: the task or reminder of a text
* `IsoText`, `fromisoformat`: an instant with its offset
* `TaskReminderIntentParser.parseWaitingForTime`: the time of an item that is waited for
-/

namespace Assistants

/-- `上午`, `下午` and `晚上`. -/
inductive Period where
  | morning
  | afternoon
  | evening
deriving DecidableEq

/-- The groups of a time expression. -/
structure TimeExpression where
  tomorrow : Bool
  period : Option Period
  hour : ℕ
  /-- The hour is a Chinese numeral. -/
  chinese : Bool
  minute : ℕ
deriving DecidableEq

/-- `ParsedTaskIntent.kind`. -/
inductive ParsedKind where
  | task
  | reminder
deriving DecidableEq, Repr

/-- `ParsedTaskIntent`. -/
structure ParsedTaskIntent where
  kind : ParsedKind
  title : String
  dueAt : Option DateTime
  timezone : String
  timeUnparsed : Bool := false
deriving DecidableEq

/-- A parser, with the zone of its name. -/
structure TaskReminderIntentParser where
  timezoneName : String
  zone : Zone

/-! ## The expressions -/

/-- `_REMINDER_MARKERS`. -/
def reminderMarkers : List String := ["提醒我", "记得", "别忘了"]

/-- `_CHINESE_HOURS`, the longer numerals first. -/
def chineseHours : List (String × ℕ) :=
  [("十一", 11), ("十二", 12), ("十", 10), ("一", 1), ("二", 2), ("三", 3), ("四", 4), ("五", 5),
    ("六", 6), ("七", 7), ("八", 8), ("九", 9)]

/-- `\s*`. -/
def spaces : Pattern (List Char) := .run Text.isSpace

/-- `[:：]`. -/
def colon : Pattern Char := .one (· ∈ [':', '：'])

section Expressions

variable (decimals : Decimals)

/-- `\d{1,2}`, as its number. -/
def twoDigits : Pattern ℕ :=
  decimals.number <$> Pattern.orElse (.exactly decimals.isDecimal 2) (.exactly decimals.isDecimal 1)

/-- The hour, and whether it is a Chinese numeral. -/
def hourToken : Pattern (ℕ × Bool) :=
  .orElse ((·, false) <$> twoDigits decimals) ((·, true) <$> .words chineseHours)

/-- `\s*[:：]\s*(?P<colon_minute>\d{1,2})`. -/
def colonMinute : Pattern ℕ := do
  let _ ← spaces
  let _ ← colon
  let _ ← spaces
  twoDigits decimals

/-- `\s*点(?:(?P<half>半)|(?P<quarter>一刻)|(?P<point_minute>\d{1,2})分?)?`, as the minute. -/
def pointMinute : Pattern ℕ := do
  let _ ← spaces
  let _ ← Pattern.one (· = '点')
  let minute ← Pattern.optional (.orElse (.words [("半", 30), ("一刻", 15)]) do
    let minute ← twoDigits decimals
    let _ ← Pattern.optional (.one (· = '分'))
    return minute)
  return minute.getD 0

/-- `_TIME_EXPRESSION`. -/
def timeExpression : Pattern TimeExpression := do
  let tomorrow ← Pattern.words [("今天", false), ("明天", true)]
  let _ ← spaces
  let period ← Pattern.optional do
    let period ← Pattern.words [("上午", Period.morning), ("下午", .afternoon), ("晚上", .evening)]
    let _ ← spaces
    return period
  let (hour, chinese) ← hourToken decimals
  let minute ← Pattern.orElse (colonMinute decimals) (pointMinute decimals)
  return ⟨tomorrow, period, hour, chinese, minute⟩

/-- `分|秒`. -/
def minuteUnit : Pattern Unit := .words [("分", ()), ("秒", ())]

/-- What `_has_unsupported_time_suffix` looks for. -/
def unsupportedTimeSuffix : Pattern Unit := do
  let _ ← spaces
  .orElse (.words [("二刻", ()), ("三刻", ()), ("四刻", ())]) <|
    .orElse (do
      let _ ← Pattern.one (· ∈ "零〇一二两三四五六七八九十".toList)
      let _ ← Pattern.run (· ∈ "零〇一二两三四五六七八九十".toList)
      minuteUnit) <|
    .orElse (do
      let _ ← twoDigits decimals
      minuteUnit) <|
    .words [("刻", ()), ("分", ()), ("秒", ()), ("左右", ())]

/-- `_has_unsupported_time_suffix`, of the text after the expression. -/
def hasUnsupportedTimeSuffix (after : List Char) : Bool :=
  ((unsupportedTimeSuffix decimals).matchStart after).isSome

/-- What `_contains_time_hint` looks for. -/
def timeHint : Pattern Unit :=
  .orElse (.words [("今天", ()), ("明天", ()), ("后天", ()), ("下周", ()), ("周一", ()), ("周二", ()),
    ("周三", ()), ("周四", ()), ("周五", ()), ("周六", ()), ("周日", ()), ("周天", ()), ("月底", ()),
    ("过几天", ()), ("有空", ()), ("早上", ()), ("上午", ()), ("下午", ()), ("晚上", ())]) do
    let _ ← twoDigits decimals
    let _ ← spaces
    let _ ← Pattern.one (· ∈ [':', '：', '点'])
    return

/-- `_contains_time_hint`. -/
def containsTimeHint (text : List Char) : Bool := ((timeHint decimals).search text).isSome

end Expressions

/-- `_TASK_PREFIX`, after the start of the text. -/
def taskPrefix : Pattern Unit := do
  let _ ← Pattern.optional (.words [("添加", ()), ("创建", ())])
  let _ ← Pattern.words [("任务", ()), ("待办", ())]
  let _ ← spaces
  let _ ← Pattern.optional colon
  let _ ← spaces
  return

/-- `_TASK_PREFIX.sub("", text).strip(" ，。:：")`. -/
def taskTitle (text : List Char) : String :=
  let rest := match taskPrefix.matchStart text with
    | some (_, rest) => rest
    | none => text
  Text.dropTrailing (· ∈ titleEnds) (Text.dropLeading titleEnds (String.ofList rest))

/-! ## The time -/

namespace TimeExpression

variable (e : TimeExpression)

/-- The numbers of the expression are not rejected. -/
def supported : Bool :=
  !(59 < e.minute || e.chinese && e.period.isNone ||
    e.period.isSome && !(1 ≤ e.hour && e.hour ≤ 12) || e.period.isNone && 23 < e.hour)

/-- The hour on a 24-hour clock. -/
def clockHour : ℕ :=
  if (e.period = some .afternoon ∨ e.period = some .evening) ∧ e.hour < 12 then e.hour + 12
  else if e.period = some .morning ∧ e.hour = 12 then 0
  else e.hour

/-- The midnight of the day that is named, from that of today. -/
def namedDay (today : DateTime) : Option DateTime :=
  if e.tomorrow then today.plus oneDay else some today

/-- `local_due`, from the local time of the clock. A sum that leaves the calendar raises. -/
def localDue (localNow : DateTime) : Option DateTime := do
  let today ← localNow.atMinute 0 0
  let day ← e.namedDay today
  day.atMinute e.clockHour e.minute

end TimeExpression

/-- `_fail`. -/
def intentFailure (code message : String) : Raised :=
  .failure ⟨code, .validation, message, "reminder.intent", "parse_time", false, "", []⟩

/-- `OverflowError`. -/
def outOfRange : Raised := .other "date value out of range"

/-- The text is that of a reminder. -/
def isReminder (raw : List Char) : Bool :=
  reminderMarkers.any fun marker => decide (marker.toList <:+: raw)

namespace TaskReminderIntentParser

variable (parser : TaskReminderIntentParser) (decimals : Decimals)

/-- What is done without a time: a reminder fails, a task has none. -/
def withoutTime (raw : List Char) (timeUnparsed : Bool) : Except Raised ParsedTaskIntent :=
  if isReminder raw then
    .error (intentFailure "reminder.time_unsupported" "Reminder time is not supported")
  else .ok ⟨.task, taskTitle raw, none, parser.timezoneName, timeUnparsed⟩

/-- `due_at`, from the first reading of the clock. -/
def dueAt (first : DateTime) (e : TimeExpression) : Option DateTime := do
  let (localNow, _) ← parser.zone.fromUtc first
  let localDue ← e.localDue localNow
  parser.zone.toUtc localDue false

/-- The title: the text without the expression, the markers and what tasks begin with. -/
def title (before after : List Char) : String :=
  taskTitle (reminderMarkers.foldl (fun title marker => Text.replace marker "" title)
    (String.ofList (before ++ after))).toList

/-- `parse`, for the two readings of the clock; only reminders need the second one. -/
@[irreducible] def parse (first second : DateTime) (text : String) :
    Except Raised ParsedTaskIntent :=
  let raw := (Text.strip text).toList
  match (timeExpression decimals).search raw with
  | none => parser.withoutTime raw (containsTimeHint decimals raw)
  | some (before, e, after) =>
    if hasUnsupportedTimeSuffix decimals after then
      parser.withoutTime raw (containsTimeHint decimals raw)
    else if !e.supported then parser.withoutTime raw true
    else
      match parser.dueAt first e with
      | none => .error outOfRange
      | some dueAt =>
        if isReminder raw && dueAt ≤ second then
          .error (intentFailure "reminder.time_in_past" "Reminder time must be in the future")
        else if title before after = "" then
          .error (if isReminder raw then
            intentFailure "reminder.title_missing" "Reminder title is required"
          else intentFailure "user_tasks.title_missing" "Task title is required")
        else .ok ⟨if isReminder raw then .reminder else .task, title before after, some dueAt,
          parser.timezoneName, false⟩

end TaskReminderIntentParser

/-! ## An instant with its offset -/

/-- The groups of digits of an instant: the fraction is empty where it is left out, and so is the
offset, with its sign, where the text has a `Z`. -/
structure IsoText where
  year : List Char
  month : List Char
  day : List Char
  hour : List Char
  minute : List Char
  second : List Char
  fraction : List Char
  offset : Option (Char × List Char × List Char)

/-- `_ISO_DATETIME`. -/
def isoDatetime (decimals : Decimals) : Pattern IsoText := do
  let digits := Pattern.exactly decimals.isDecimal
  let year ← digits 4
  let _ ← Pattern.one (· = '-')
  let month ← digits 2
  let _ ← Pattern.one (· = '-')
  let day ← digits 2
  let _ ← Pattern.one (· = 'T')
  let hour ← digits 2
  let _ ← Pattern.one (· = ':')
  let minute ← digits 2
  let seconds ← Pattern.optional do
    let _ ← Pattern.one (· = ':')
    let second ← digits 2
    let fraction ← Pattern.optional do
      let _ ← Pattern.one (· = '.')
      let first ← Pattern.one decimals.isDecimal
      let rest ← Pattern.run decimals.isDecimal
      return first :: rest
    return (second, fraction.getD [])
  let offset ← Pattern.orElse ((fun _ => none) <$> Pattern.one (· = 'Z')) do
    let sign ← Pattern.one (· ∈ ['+', '-'])
    let hours ← digits 2
    let _ ← Pattern.one (· = ':')
    let minutes ← digits 2
    return some (sign, hours, minutes)
  let (second, fraction) := seconds.getD ([], [])
  return ⟨year, month, day, hour, minute, second, fraction, offset⟩

namespace IsoText

variable (decimals : Decimals) (iso : IsoText)

/-- The digits of the text. -/
def digits : List Char :=
  iso.year ++ iso.month ++ iso.day ++ iso.hour ++ iso.minute ++ iso.second ++ iso.fraction ++
    iso.offset.elim [] fun (_, hours, minutes) => hours ++ minutes

/-- The offset in microseconds. -/
def offsetMicroseconds : Int :=
  iso.offset.elim 0 fun (sign, hours, minutes) =>
    let minutes : Int := (decimals.number hours * 60 + decimals.number minutes : ℕ)
    (if sign = '-' then -minutes else minutes) * 60000000

/-- The microseconds of the fraction, whose further digits are cut off. -/
def microsecond : ℕ := decimals.number ((iso.fraction ++ List.replicate 6 '0').take 6)

/-- `fromisoformat`, which knows the digits of ASCII only; `ValueError` where there is no value. -/
def fromisoformat : Option OffsetTime :=
  if iso.digits.all Char.isDigit then
    if h : DateTime.Valid (decimals.number iso.year) (decimals.number iso.month)
        (decimals.number iso.day) (decimals.number iso.hour) (decimals.number iso.minute)
        (decimals.number iso.second) (iso.microsecond decimals) then
      if hoffset : (iso.offsetMicroseconds decimals).natAbs < 86400000000 then
        some ⟨⟨_, _, _, _, _, _, _, h⟩, iso.offsetMicroseconds decimals, hoffset⟩
      else none
    else none
  else none

end IsoText

namespace TaskReminderIntentParser

variable (parser : TaskReminderIntentParser) (decimals : Decimals)

/-- `parse_waiting_for_time`. An instant always has an offset, so that its value is aware. -/
def parseWaitingForTime (first second : DateTime) (text : String) : Except Raised DateTime :=
  match (isoDatetime decimals).search text.toList with
  | some (_, iso, _) =>
    match iso.fromisoformat decimals with
    | none => .error (.valueError "Invalid isoformat string")
    | some value =>
      match value.utc with
      | none => .error outOfRange
      | some instant => .ok instant
  | none =>
    match parser.parse decimals first second text with
    | .error raised => .error raised
    | .ok parsed =>
      match parsed.dueAt with
      | some dueAt => .ok dueAt
      | none => .error (.failure ⟨"waiting_for.time_unsupported", .validation,
          "Waiting-For time is not supported", "waiting_for.intent", "parse_time", false, "", []⟩)

end TaskReminderIntentParser

end Assistants
