import AiLabOs.Base.DateTime
import AiLabOs.Base.Json
import AiLabOs.Base.TextParts
import AiLabOs.Base.Workspace

/-!
# Work logs: models

## Main definitions

* `Environment`: the functions of other libraries the work log calls
* `isCanonicalId`, `isLegacyId`, `isInboxAlias`: the three kinds of identifiers
* `WorkLogRecord`, `WorkLogRecord.validate`: a record, and what its validators make of one
* `WorkLogCreateCommand`, `WorkLogQuery`, `WorkLogPage`: what the operations take and answer
-/

namespace WorkLogs

/-- What the work log takes from other libraries. -/
structure Environment where
  /-- The hexadecimal digest of a text. -/
  sha256 : String → String
  casefold : String → String
  /-- The zone database knows the name. -/
  zoneKnown : String → Bool
  /-- The aware instant a model field reads from a JSON value. -/
  datetimeOf : Json → Option DateTime
  /-- The integer a model field reads from a JSON value. -/
  intOf : Json → Option ℤ
  /-- `str` of a JSON value. -/
  str : Json → String
  /-- `date.fromisoformat` and `datetime.fromisoformat`, a naive time taken in the zone. It fails
  where the zone has no such time, or two. -/
  localInstant : String → String → Except Unit (Option DateTime)

/-! ## Identifiers -/

def isHex (c : Char) : Bool := ('0' ≤ c && c ≤ '9') || ('a' ≤ c && c ≤ 'f')

/-- `^prefix[0-9a-f]{n}$`. -/
def hexAfter (lead : String) (n : ℕ) (s : String) : Bool :=
  Text.startsWith s lead && (s.toList.drop lead.length).length == n &&
    (s.toList.drop lead.length).all isHex

/-- `CANONICAL_ID_PATTERN`. -/
def isCanonicalId : String → Bool := hexAfter "wl_" 32

/-- `LEGACY_ID_PATTERN`. -/
def isLegacyId : String → Bool := hexAfter "wl_legacy_" 64

/-- `INBOX_ALIAS_PATTERN`. -/
def isInboxAlias : String → Bool := hexAfter "inbox_wl_" 24

/-! ## Enumerations -/

inductive WorkLogStatus where
  | completed
  | inProgress
  | blocked
  | informational
deriving DecidableEq, Repr

def WorkLogStatus.value : WorkLogStatus → String
  | .completed => "completed"
  | .inProgress => "in_progress"
  | .blocked => "blocked"
  | .informational => "informational"

def WorkLogStatus.all : List WorkLogStatus := [.completed, .inProgress, .blocked, .informational]

inductive WorkLogSource where
  | ceoAssistant
  | api
  | cli
  | inbox
  | legacy
deriving DecidableEq, Repr

def WorkLogSource.value : WorkLogSource → String
  | .ceoAssistant => "ceo_assistant"
  | .api => "api"
  | .cli => "cli"
  | .inbox => "inbox"
  | .legacy => "legacy"

def WorkLogSource.all : List WorkLogSource := [.ceoAssistant, .api, .cli, .inbox, .legacy]

inductive WorkLogContextKind where
  | userTask
  | reminder
  | waitingFor
  | inbox
deriving DecidableEq, Repr

def WorkLogContextKind.value : WorkLogContextKind → String
  | .userTask => "user_task"
  | .reminder => "reminder"
  | .waitingFor => "waiting_for"
  | .inbox => "inbox"

def WorkLogContextKind.all : List WorkLogContextKind := [.userTask, .reminder, .waitingFor, .inbox]

inductive WorkLogContextResolution where
  | resolved
  | unresolved
  | notChecked
deriving DecidableEq, Repr

def WorkLogContextResolution.value : WorkLogContextResolution → String
  | .resolved => "resolved"
  | .unresolved => "unresolved"
  | .notChecked => "not_checked"

def WorkLogContextResolution.all : List WorkLogContextResolution :=
  [.resolved, .unresolved, .notChecked]

/-! ## Context references -/

structure WorkLogContextRef where
  kind : WorkLogContextKind
  targetId : String
  relation : Option String := none
  resolution : WorkLogContextResolution := .notChecked
deriving DecidableEq, Repr

def isIdChar (c : Char) : Bool := c.isAlphanum || c == '_' || c == '-'

/-- `^lead[A-Za-z0-9][A-Za-z0-9_-]{0,n}$`. -/
def idAfter (lead : String) (n : ℕ) (s : String) : Bool :=
  Text.startsWith s lead &&
    match s.toList.drop lead.length with
    | [] => false
    | first :: rest => first.isAlphanum && rest.length ≤ n && rest.all isIdChar

/-- `_CONTEXT_ID_PATTERNS`. -/
def WorkLogContextKind.accepts : WorkLogContextKind → String → Bool
  | .userTask => idAfter "ut_" 155
  | .reminder => idAfter "rem_" 155
  | .waitingFor => idAfter "wf_" 155
  | .inbox => idAfter "inbox_" 153

/-- The validators of `WorkLogContextRef`. -/
def WorkLogContextRef.validate (ref : WorkLogContextRef) : Option WorkLogContextRef := do
  guard (ref.relation.all fun relation => relation.length ≤ 64)
  let targetId := Text.strip ref.targetId
  guard (targetId ≠ "" ∧ ref.kind.accepts targetId ∧ ¬Text.startsWith targetId "inbox_wl_")
  return { ref with targetId, relation := ref.relation.bind Text.stripOrNone }

/-- `normalize_tags`, after the tags in `normalized`. -/
def normalizeTagsFrom (env : Environment) (normalized : List String) :
    List String → Option (List String)
  | [] => if normalized.length ≤ 20 then some normalized else none
  | value :: values =>
    let item := Text.strip value
    if item = "" then normalizeTagsFrom env normalized values
    else if 64 < item.length then none
    else if env.casefold item ∈ normalized.map env.casefold then
      normalizeTagsFrom env normalized values
    else normalizeTagsFrom env (normalized ++ [item]) values

/-- `normalize_tags`. -/
def normalizeTags (env : Environment) (values : List String) : Option (List String) :=
  normalizeTagsFrom env [] values

/-! ## Records -/

structure WorkLogRecord where
  id : String
  workspaceKey : Workspace
  occurredAt : DateTime
  timezone : String
  subject : String
  rawText : String
  target : Option String := none
  status : WorkLogStatus := .completed
  tags : List String := []
  source : WorkLogSource
  contextRefs : List WorkLogContextRef := []
  createdAt : DateTime
  legacyMemoryId : Option String := none
  legacyRawStatus : Option String := none
  legacyRawSource : Option String := none
  legacyProjectionNotes : List String := []
  schemaVersion : ℤ
  inboxItemId : Option String := none
deriving DecidableEq

/-- `canonical_workspace`, of a workspace. -/
def orDefaults (workspace : Workspace) : Workspace :=
  ⟨orDefault workspace.tenantId, orDefault workspace.workspaceId, orDefault workspace.nameSpace⟩

/-- `_required_text`, with the bounds of the field. -/
def requiredText (limit : ℕ) (value : String) : Option String := do
  guard (1 ≤ value.length ∧ value.length ≤ limit ∧ ¬Text.blank value)
  return Text.strip value

/-- The validators of `WorkLogRecord`. -/
def WorkLogRecord.validate (env : Environment) (record : WorkLogRecord) :
    Option WorkLogRecord := do
  guard (isCanonicalId record.id ∨ isLegacyId record.id)
  guard (env.zoneKnown (Text.strip record.timezone))
  let subject ← requiredText 500 record.subject
  let rawText ← requiredText 4000 record.rawText
  guard (record.target.all fun target => target.length ≤ 200)
  let tags ← normalizeTags env record.tags
  guard (record.contextRefs.length ≤ 20)
  guard (record.contextRefs.map fun ref => (ref.kind, ref.targetId)).Nodup
  guard (0 ≤ record.schemaVersion ∧ record.schemaVersion ≤ 1)
  guard (Text.startsWith record.id "wl_legacy_" → record.schemaVersion = 0)
  guard (isCanonicalId record.id → record.schemaVersion = 1)
  return { record with
    workspaceKey := orDefaults record.workspaceKey
    timezone := Text.strip record.timezone
    subject, rawText, tags
    target := record.target.bind Text.stripOrNone }

/-- `WorkLogCreateCommand`, after its validators. -/
structure WorkLogCreateCommand where
  subject : String
  rawText : String
  occurredAt : Option DateTime := none
  timezone : Option String := none
  target : Option String := none
  status : WorkLogStatus := .completed
  tags : List String := []
  source : WorkLogSource
  contextRefs : List WorkLogContextRef := []

structure WorkLogQuery where
  dateFrom : Option DateTime := none
  dateTo : Option DateTime := none
  target : Option String := none
  tags : List String := []
  status : Option WorkLogStatus := none
  text : Option String := none
  contextRef : Option String := none
  limit : ℕ := 50
  offset : ℕ := 0

structure WorkLogPage where
  items : List WorkLogRecord
  count : ℕ
  limit : ℕ
  offset : ℕ
  hasMore : Bool
  totalCount : ℕ
deriving DecidableEq

end WorkLogs
