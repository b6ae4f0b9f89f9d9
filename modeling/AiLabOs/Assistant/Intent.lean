import AiLabOs.Base.Regex
import AiLabOs.Base.Unicode
import Mathlib.Algebra.Order.Ring.Rat

/-!
# CEO Assistant: intents

A text is given an intent by the first of some twenty rules it meets. Each rule looks for words in
the text in lower case.

## Main definitions

* `Intent`, `IntentEffect`, `IntentDecision`: what a text is taken for
* `intentRules`, `decideIntent`: the rules, in order, and the decision
* `allowedEffects`: the effects an intent may have

## Main results

* `decideIntent_allowed`: a decision keeps the effect contract
* `decideIntent_task_read`: what a text has that is taken for a question about tasks
-/

namespace Assistants

variable (uni : Unicode)

inductive IntentEffect where
  | read
  | write
  | chat
deriving DecidableEq, Repr

/-- The intents, by their names. -/
inductive Intent where
  | reminderList
  | reminderDetail
  | dailyAgenda
  | inboxCapture
  | inboxList
  | waitingForList
  | waitingForDetail
  | waitingForHistory
  | waitingForCapture
  | waitingForConfirm
  | waitingForFollowUp
  | waitingForSnooze
  | waitingForResolve
  | waitingForCancel
  | waitingForReopen
  | reminderCancel
  | reminderReschedule
  | workLog
  | workLogQuery
  | decision
  | brief
  | knowledge
  | task
  | chat
deriving DecidableEq, Repr

structure IntentDecision where
  intent : Intent
  confidence : ℚ
  effect : IntentEffect
deriving DecidableEq

/-! ## Words -/

/-- `_TODAY_REMINDER_QUERIES | _PENDING_REMINDER_QUERIES | _ALL_REMINDER_QUERIES`. -/
def reminderQueries : List String :=
  ["今天都有什么事", "今天有什么事", "今天都有哪些提醒", "今天有什么提醒", "今天的提醒", "查看今天的提醒",
    "我今天有什么要做的", "接下来有什么提醒", "还有什么提醒", "待处理提醒有哪些", "查看待触发提醒",
    "查看我的提醒", "查看全部提醒", "有哪些提醒"]

/-- `_WORK_LOG_PREFIXES`. -/
def workLogPrefixes : List String :=
  ["记录:", "记录：", "记录 ", "记录一下", "记一条工作记录", "写一条工作记录", "工作日志", "log:", "log "]

/-- `_WORK_LOG_ACTIONS`. -/
def workLogActions : List String :=
  ["完成了", "处理了", "确认了", "联系了", "收到了", "见了", "开了会", "参加了会议"]

/-- `_DAILY_REVIEW_GENERIC_PHRASES`, `_DAILY_REVIEW_TODAY_PHRASES` and
`_DAILY_REVIEW_YESTERDAY_PHRASES`. -/
def briefKeywords : List String :=
  ["简报", "每日简报", "daily brief", "工作概览",
    "今日简报", "今天简报", "今日总结", "今天做了什么", "今天做了哪些事", "今天已经完成了什么",
    "查看今天的完成记录", "今天的工作", "今日概览",
    "昨日简报", "昨天简报", "昨日总结", "昨天总结", "昨天做了什么", "昨天做了哪些事", "昨天的工作"]

/-- `daily_agenda_markers`. -/
def dailyAgendaMarkers : List String :=
  ["今天有什么安排", "今天的日程", "查看今天安排", "查看今日日程", "接下来三个小时有什么安排",
    "未来三小时有什么要做的", "未来三小时有什么", "接下来有什么事", "有哪些需要注意的事项",
    "有哪些失败的提醒", "有没有逾期任务"]

/-- `_INBOX_LIST_QUERIES`. -/
def inboxListQueries : List String := ["看看我的收件箱", "还有哪些没整理", "列出待处理记录"]

/-- `_INBOX_CAPTURE_PREFIXES`. -/
def inboxCapturePrefixes : List String := ["记一下", "先记下来", "把这个放到收件箱", "这个想法先存着"]

/-- `decision_keywords`. -/
def decisionKeywords : List String := ["决定", "决策", "选择", "采用", "确认使用", "不先做", "放弃"]

/-- `task_keywords`. -/
def taskKeywords : List String :=
  ["任务", "待办", "todo", "task", "截止", "完成任务", "取消任务", "暂停"]

/-- The words that ask for a list of tasks. -/
def listMarkers : List String := ["查看", "有什么", "列表", "查询", "当前任务", "待办列表"]

/-- `knowledge_keywords`. -/
def knowledgeKeywords : List String :=
  ["什么是", "解释", "法规", "标准", "规定", "文档", "查询", "查找", "怎么"]

/-! ## Parts of rules -/

/-- `_normalized_query`. -/
def normalizedQuery (text : String) : String :=
  Text.dropTrailing (fun c => Text.isSpace c || c ∈ ['?', '？', '!', '！', '。'])
    (uni.lower (Text.strip text))

/-- `_is_reminder_list_query`. -/
def isReminderListQuery (text : String) : Bool :=
  let normalized := normalizedQuery uni text
  reminderQueries.contains normalized ||
    Text.contains normalized "提醒" && Text.containsAny normalized
      ["查看今天", "查看我的", "查看全部", "待触发", "待处理", "接下来", "还有什么", "有哪些", "有什么提醒",
        "已触发", "失败提醒"]

/-- `_is_explicit_work_log`. -/
def isExplicitWorkLog (text : String) : Bool :=
  let normalized := Text.strip (uni.lower text)
  Text.startsWithAny normalized workLogPrefixes ||
    !((Text.endsWith normalized "?" || Text.endsWith normalized "？") &&
        Text.containsAny normalized
          ["什么", "哪些", "怎么", "如何", "是否", "有没有", "什么时候", "吗"]) &&
      Text.containsAny normalized workLogActions

/-- `extract_inbox_capture_content`. -/
def extractInboxCaptureContent (text : String) : Option String :=
  let stripped := Text.strip text
  (inboxCapturePrefixes.find? (Text.startsWith stripped)).bind fun lead =>
    let content := Text.dropLeading ['，', ',', ':', '：', '。', ' ']
      (Text.dropFirst lead.length stripped)
    if content = "" then none else some content

/-- The letters of an identifier. -/
def isIdLetter (c : Char) : Bool := c.isAlphanum || c == '_'

/-- `\b<lead>[A-Za-z0-9_]+\b`. -/
def idPattern (lead : String) : Regex :=
  .seq (.boundary uni.isWord) (.seq (.lit lead) (.seq (.plus (.set isIdLetter))
    (.boundary uni.isWord)))

/-- `extract_waiting_for_id`. -/
def extractWaitingForId (text : String) : Option String := (idPattern uni "wf_").search text

/-- `extract_waiting_for_capture_content`. -/
def extractWaitingForCaptureContent (text : String) : Option String :=
  let stripped := Text.strip text
  if Text.containsAny stripped ["查看", "哪些", "谁回复", "催办的事项"] then none
  else if Text.startsWithAny stripped ["等", "等待"] && Text.contains stripped "回复" then
    some stripped
  else if Text.contains stripped "还没回复" then some stripped
  else if Text.startsWith stripped "先记下来" && Text.contains stripped "等" then some stripped
  else none

/-- `is_work_log_query`. -/
def isWorkLogQuery (text : String) : Bool :=
  let normalized := uni.lower (Text.strip text)
  Text.containsAny normalized ["工作记录", "工作日志"] &&
    Text.containsAny normalized ["查看", "查询", "哪些", "列表", "相关", "标签", "状态"]

/-- The signals of `extract_daily_review_temporal_signals` that intents depend on: the request names
today or yesterday. -/
def namesRecentDay (text : String) : Bool :=
  Text.containsAny (normalizedQuery uni text) ["今天", "今日", "昨天", "昨日"]

/-! ## The rules -/

/-- The rules of `decide_intent`, each with the decision it makes. -/
def intentRules (text : String) : List (Bool × IntentDecision) :=
  let waitingForId := (extractWaitingForId uni text).isSome
  [ (Text.contains text "inbox_" && Text.contains text "整理成等待事项",
      ⟨.waitingForConfirm, 1, .write⟩),
    (Text.contains text "催办历史" && Text.contains text "wf_", ⟨.waitingForHistory, 1, .read⟩),
    (Text.containsAny text ["查看等待事项", "我在等谁回复", "有哪些需要催办的事项"] &&
        Text.contains text "wf_",
      ⟨.waitingForDetail, 1, .read⟩),
    (Text.containsAny text ["查看等待事项", "我在等谁回复", "有哪些需要催办的事项"],
      ⟨.waitingForList, 1, .read⟩),
    (Text.startsWith text "查看" && Text.contains text "wf_", ⟨.waitingForDetail, 1, .read⟩),
    (waitingForId && Text.startsWith text "催办", ⟨.waitingForFollowUp, 1, .write⟩),
    (waitingForId && Text.contains text "延后到" && !Text.contains text "提醒",
      ⟨.waitingForSnooze, 1, .write⟩),
    (waitingForId && Text.startsWith text "解决", ⟨.waitingForResolve, 1, .write⟩),
    (waitingForId && Text.startsWith text "重新打开", ⟨.waitingForReopen, 1, .write⟩),
    (Text.contains text "提醒" && Text.startsWith text "取消", ⟨.reminderCancel, 1, .write⟩),
    (Text.containsAny text ["提醒我", "记得", "别忘了"], ⟨.task, 1, .write⟩),
    (Text.contains text "提醒" && Text.containsAny text ["改到", "延后到", "改期"],
      ⟨.reminderReschedule, 1, .write⟩),
    (waitingForId && Text.startsWith text "取消" && !Text.contains text "提醒",
      ⟨.waitingForCancel, 1, .write⟩),
    (isReminderListQuery uni text, ⟨.reminderList, 1, .read⟩),
    (isWorkLogQuery uni text, ⟨.workLogQuery, 1, .read⟩),
    (Text.containsAny text briefKeywords ||
        namesRecentDay uni text && Text.contains text "总结",
      ⟨.brief, 1, .read⟩),
    (Text.containsAny text dailyAgendaMarkers, ⟨.dailyAgenda, 1, .read⟩),
    (inboxListQueries.contains (normalizedQuery uni text), ⟨.inboxList, 1, .read⟩),
    (Text.startsWithAny text ["查看提醒", "查看这条提醒"], ⟨.reminderDetail, 1, .read⟩),
    (Text.startsWithAny text workLogPrefixes, ⟨.workLog, 1, .write⟩),
    ((extractWaitingForCaptureContent text).isSome, ⟨.waitingForCapture, 1, .write⟩),
    ((extractInboxCaptureContent text).isSome, ⟨.inboxCapture, 1, .write⟩),
    (Text.containsAny text decisionKeywords, ⟨.decision, 7 / 10, .write⟩),
    (Text.containsAny text taskKeywords && Text.containsAny text listMarkers,
      ⟨.task, 8 / 10, .read⟩),
    (Text.containsAny text taskKeywords, ⟨.task, 8 / 10, .write⟩),
    (Text.containsAny text knowledgeKeywords, ⟨.knowledge, 7 / 10, .read⟩),
    (isExplicitWorkLog uni text, ⟨.workLog, 9 / 10, .write⟩) ]

/-- `decide_intent`. -/
def decideIntent (userInput : String) : IntentDecision :=
  match (intentRules uni (Text.strip (uni.lower userInput))).find? Prod.fst with
  | some rule => rule.2
  | none => ⟨.chat, 5 / 10, .chat⟩

/-- `_assert_effect_contract`: the effects an intent may have. -/
def allowedEffects : Intent → List IntentEffect
  | .reminderList | .reminderDetail | .dailyAgenda | .inboxList | .waitingForList
  | .waitingForDetail | .waitingForHistory | .workLogQuery | .brief | .knowledge => [.read]
  | .inboxCapture | .waitingForCapture | .waitingForConfirm | .waitingForFollowUp
  | .waitingForSnooze | .waitingForResolve | .waitingForCancel | .waitingForReopen
  | .reminderCancel | .reminderReschedule | .workLog | .decision => [.write]
  | .task => [.read, .write]
  | .chat => [.chat]

/-- A decision is that of a rule the text meets, or the last one. -/
theorem decideIntent_cases (userInput : String) :
    decideIntent uni userInput = ⟨.chat, 5 / 10, .chat⟩ ∨
    ∃ rule ∈ intentRules uni (Text.strip (uni.lower userInput)),
      rule.1 = true ∧ decideIntent uni userInput = rule.2 := by
  unfold decideIntent
  split
  · rename_i rule hrule
    exact .inr ⟨rule, List.mem_of_find?_eq_some hrule, List.find?_some hrule, rfl⟩
  · exact .inl rfl

/-- **A decision keeps the effect contract.** -/
theorem decideIntent_allowed (userInput : String) :
    (decideIntent uni userInput).effect ∈ allowedEffects (decideIntent uni userInput).intent := by
  have hrules : ∀ text, ∀ rule ∈ intentRules uni text,
      rule.2.effect ∈ allowedEffects rule.2.intent := by
    intro text
    simp [intentRules, allowedEffects]
  rcases decideIntent_cases uni userInput with h | ⟨rule, hrule, -, h⟩
  · rw [h]
    decide
  · rw [h]
    exact hrules _ rule hrule

/-- **A question about tasks** asks for a list, in lower case. -/
theorem decideIntent_task_read {uni : Unicode} {userInput : String}
    (hintent : (decideIntent uni userInput).intent = .task)
    (heffect : (decideIntent uni userInput).effect = .read) :
    Text.containsAny (Text.strip (uni.lower userInput)) listMarkers = true := by
  have hrules : ∀ text, ∀ rule ∈ intentRules uni text, rule.1 = true → rule.2.intent = .task →
      rule.2.effect = .read → Text.containsAny text listMarkers = true := by
    intro text
    simp +contextual [intentRules]
  rcases decideIntent_cases uni userInput with h | ⟨rule, hrule, hmet, h⟩
  · rw [h] at hintent
    cases hintent
  · rw [h] at hintent heffect
    exact hrules _ rule hrule hmet hintent heffect

end Assistants
