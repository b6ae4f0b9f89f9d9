import AiLabOs.Base.Query
import AiLabOs.Base.Table
import AiLabOs.WorkLog.Models

/-!
# Work logs: repository

Work logs are rows of the episodic table, among those of the memory store. A row is owned by the
workspace its content names, when all three components of it are texts that SQL does not take for
blank; a row that names none is one of the default workspace.

## Main definitions

* `Row`, `Database`: the episodic table, by what the repository reads of it
* `completeWorkspace`, `Row.visibleTo`: the owner of a row, and the rows a workspace sees
* `Environment.projectRow`: the record a row stands for
* `Database.create`, `createFromInbox`, `get`, `list`: the operations
-/

namespace WorkLogs

/-- What the repository raises. -/
inductive RepositoryError where
  | conflict (message : String)
  | notFound (message : String)
  | workspaceMismatch (message : String)
  | repository (message : String)
  | projection (rowDigest field : String)
deriving DecidableEq, Repr

/-- A row of `episodic_memories`; content and metadata that are not JSON are `none`. -/
structure Row where
  id : String
  memoryType : String
  content : Option Json
  timestamp : String
  metadata : Option Json

/-- The table, whose primary key is the identifier. -/
structure Database where
  rows : List Row
  unique : Table.Unique Row.id rows

namespace Database

/-- The row of an identifier. -/
def find (db : Database) (id : String) : Option Row := db.rows.find? fun row => row.id = id

/-- `INSERT`, which a row of the same identifier forbids. -/
def insert (db : Database) (row : Row) : Option Database :=
  if h : ∀ other ∈ db.rows, other.id ≠ row.id then some ⟨db.rows ++ [row], db.unique.insert h⟩
  else none

end Database

/-! ## The rows a workspace sees -/

/-- `trim`, which removes blanks and no other white space. -/
def sqlTrim (s : String) : String :=
  String.ofList (((s.toList.dropWhile (· == ' ')).reverse.dropWhile (· == ' ')).reverse)

/-- The components the content of a row names, when they are texts. -/
def namedWorkspace (content : Json) : Option Workspace := do
  let tenantId ← content.textAt ["metadata", "tenant_id"]
  let workspaceId ← content.textAt ["metadata", "workspace_id"]
  let nameSpace ← content.textAt ["metadata", "namespace"]
  return ⟨tenantId, workspaceId, nameSpace⟩

/-- None of the components is blank to SQL. -/
def completeInSql (workspace : Workspace) : Bool :=
  sqlTrim workspace.tenantId != "" && sqlTrim workspace.workspaceId != "" &&
    sqlTrim workspace.nameSpace != ""

/-- The workspace of a row whose content is completely scoped. -/
def completeWorkspace (content : Json) : Option Workspace :=
  (namedWorkspace content).filter completeInSql

/-- Content of the type of work logs. -/
def Row.typedContent (row : Row) : Option Json :=
  row.content.filter fun content => content.textAt ["type"] = some "work_log"

/-- The content of a row that is a work log. -/
def Row.workLog (row : Row) : Option Json :=
  if row.memoryType = "episodic" then row.typedContent else none

/-- `_visible_rows_sql`. -/
def Row.visibleTo (workspace : Workspace) (requireCompleteWorkspace : Bool) (row : Row) : Bool :=
  match row.workLog with
  | none => false
  | some content =>
    match completeWorkspace content with
    | some owner => owner = workspace
    | none => !requireCompleteWorkspace && workspace = .default

/-- The condition of `_scoped_identity_exists`. -/
def Row.scoped (row : Row) : Bool :=
  match row.workLog with
  | none => false
  | some content => (completeWorkspace content).isSome

/-! ## Records of rows -/

/-- `_string`. -/
def stringOf (value : Option Json) : Option String :=
  value.bind Json.text? >>= Text.stripOrNone

/-- A field that is a text or null. -/
def optionalText : Option Json → Option (Option String)
  | none | some .null => some none
  | some (.text s) => some (some s)
  | some _ => none

/-- `next(item for item in items if item.value == value)`. -/
def ofValue {α : Type} (items : List α) (value : α → String) (s : String) : Option α :=
  items.find? fun item => value item = s

/-- The resolution of a context reference, which has a default. -/
def resolutionOf : Option Json → Option WorkLogContextResolution
  | none => some .notChecked
  | some value =>
    value.text? >>= ofValue WorkLogContextResolution.all WorkLogContextResolution.value

/-- `WorkLogContextRef.model_validate`. -/
def contextRefOf : Json → Option WorkLogContextRef
  | .object fields => do
    let value : Json := .object fields
    guard (fields.all fun field => field.1 ∈ ["kind", "target_id", "relation", "resolution"])
    let kind ← (← value.field? "kind").text? >>=
      ofValue WorkLogContextKind.all WorkLogContextKind.value
    let targetId ← (← value.field? "target_id").text?
    let relation ← optionalText (value.field? "relation")
    let resolution ← resolutionOf (value.field? "resolution")
    WorkLogContextRef.validate ⟨kind, targetId, relation, resolution⟩
  | _ => none

/-- The context references of a canonical row. -/
def contextRefsOf : Option Json → Option (List WorkLogContextRef)
  | none => some []
  | some (.array items) => items.mapM contextRefOf
  | some _ => none

namespace Environment

variable (env : Environment)

/-- The texts a tags field is given: what iterating the value gives, as texts. -/
def tagTexts (value : Json) : Option (List String) :=
  if value.truthy then
    match value with
    | .text s => some (s.toList.map String.singleton)
    | .array items => some (items.map env.str)
    | .object fields => some (fields.map Prod.fst)
    | _ => none
  else some []

/-- The fields `_decode_canonical` reads. -/
def canonicalFields (row : Row) (content : Json) : Option WorkLogRecord := do
  let workspace ← content.field? "metadata"
  let tenantId ← (← workspace.field? "tenant_id").text?
  let workspaceId ← (← workspace.field? "workspace_id").text?
  let nameSpace ← (← workspace.field? "namespace").text?
  let occurredAt ← env.datetimeOf (← content.field? "occurred_at")
  let timezone ← (← content.field? "timezone").text?
  let subject ← (← content.field? "subject").text?
  let rawText ← (← content.field? "raw_text").text?
  let target ← optionalText (content.field? "target")
  let status ← (← content.field? "status").text? >>= ofValue WorkLogStatus.all WorkLogStatus.value
  let tags ← env.tagTexts ((content.field? "tags").getD (.array []))
  let source ← (← content.field? "source").text? >>= ofValue WorkLogSource.all WorkLogSource.value
  let contextRefs ← contextRefsOf (content.field? "context_refs")
  let createdAt ← env.datetimeOf (.text row.timestamp)
  let schemaVersion ← env.intOf (← content.field? "schema_version")
  let inboxItemId ← optionalText (content.field? "inbox_item_id")
  return {
    id := row.id, workspaceKey := ⟨tenantId, workspaceId, nameSpace⟩, occurredAt, timezone, subject,
    rawText, target, status, tags, source, contextRefs, createdAt, schemaVersion, inboxItemId }

/-- `_row_digest`. -/
def rowDigest (row : Row) : String := env.sha256 row.id

/-- `_decode_canonical`. -/
def decodeCanonical (row : Row) (content : Json) : Except RepositoryError WorkLogRecord :=
  match env.canonicalFields row content >>= WorkLogRecord.validate env with
  | some record => .ok record
  | none => .error (.projection (env.rowDigest row) "canonical_row")

/-! ### Legacy rows -/

/-- `_legacy_workspace`. -/
def legacyWorkspace (content : Json) : Workspace :=
  let component key := stringOf (content.field? "metadata" >>= Json.field? key)
  match component "tenant_id", component "workspace_id", component "namespace" with
  | some tenantId, some workspaceId, some nameSpace => ⟨tenantId, workspaceId, nameSpace⟩
  | _, _, _ => .default

/-- `_legacy_zone`, with the notes it takes. -/
def legacyZone (timezoneName : String) (content : Json) : String × List String :=
  match stringOf (content.field? "timezone") with
  | none => (timezoneName, [])
  | some raw =>
    if env.zoneKnown raw then (raw, []) else (timezoneName, ["invalid_timezone_fallback"])

/-- `_parse_legacy_datetime`. -/
def parseLegacyDatetime (zone : String) (value : Option Json) :
    Except Unit (Option DateTime) :=
  match stringOf value with
  | none => .ok none
  | some raw => env.localInstant raw zone

/-- `_legacy_occurred_at`, over the fields still to be tried, with the notes it takes. -/
def legacyOccurredAt (row : Row) (zone : String) : List (String × String × Option Json) →
    Except RepositoryError (DateTime × List String)
  | [] => .error (.projection (env.rowDigest row) "occurred_at")
  | (field, note, value) :: rest =>
    match env.parseLegacyDatetime zone value with
    | .error () => .error (.projection (env.rowDigest row) field)
    | .ok none => legacyOccurredAt row zone rest
    | .ok (some parsed) =>
      .ok (parsed, if field = "content.occurred_at" then [] else ["occurred_at_from_" ++ note])

/-- `_legacy_created_at`. -/
def legacyCreatedAt (row : Row) (zone : String) : Except RepositoryError DateTime :=
  match env.parseLegacyDatetime zone (some (.text row.timestamp)) with
  | .ok (some parsed) => .ok parsed
  | _ => .error (.projection (env.rowDigest row) "created_at")

/-- The first of these fields that is a text and not blank. -/
def firstText (content : Json) (keys : List String) : Option String :=
  keys.findSome? fun key => stringOf (content.field? key)

/-- `_legacy_subject`. -/
def legacySubject (row : Row) (content : Json) : Except RepositoryError String :=
  match firstText content ["subject", "raw_text", "description", "title"] with
  | some value => .ok (Text.truncate 500 value)
  | none => .error (.projection (env.rowDigest row) "subject")

/-- `_legacy_raw_text`. -/
def legacyRawText (content : Json) (subject : String) : String :=
  match firstText content ["raw_text", "subject", "description"] with
  | some value => Text.truncate 4000 value
  | none => subject

/-- The statuses legacy rows name. -/
def legacyStatuses : List (String × WorkLogStatus) :=
  [("completed", .completed), ("已完成", .completed), ("完成", .completed), ("done", .completed),
    ("in_progress", .inProgress), ("进行中", .inProgress), ("正在进行", .inProgress),
    ("blocked", .blocked), ("阻塞", .blocked), ("卡住", .blocked), ("等待", .blocked)]

/-- `_legacy_status`. -/
def legacyStatus (value : Option Json) : WorkLogStatus × Option String :=
  match stringOf value with
  | none => (.informational, none)
  | some raw =>
    match legacyStatuses.lookup (env.casefold raw) with
    | some status => (status, none)
    | none => (.informational, some raw)

/-- The loop of `_legacy_tags`, after the tags in `result`. -/
def legacyTagsFrom (result : List String) : List String → List String
  | [] => result
  | candidate :: rest =>
    let item := Text.truncate 64 (Text.strip candidate)
    if item = "" ∨ env.casefold item ∈ result.map env.casefold then legacyTagsFrom result rest
    else if (result ++ [item]).length = 20 then result ++ [item]
    else legacyTagsFrom (result ++ [item]) rest

/-- `_legacy_tags`, with the notes it takes. -/
def legacyTags : Option Json → List String × List String
  | some (.text value) => (env.legacyTagsFrom [] [value], [])
  | some (.array values) => (env.legacyTagsFrom [] (values.map env.str), [])
  | none | some .null => ([], [])
  | some _ => ([], ["invalid_tags_ignored"])

/-- `_legacy_target`. -/
def legacyTarget : Option Json → Option String
  | some (.text value) => some (Text.truncate 200 (Text.strip value)) |>.filter (· ≠ "")
  | _ => none

/-- `_legacy_source`, with the notes it takes. -/
def legacySource (row : Row) (content outer : Json) :
    WorkLogSource × Option String × List String :=
  match stringOf (content.field? "source") <|> stringOf (outer.field? "source") with
  | some raw =>
    match ofValue WorkLogSource.all WorkLogSource.value (env.casefold raw) with
    | some source => (source, none, [])
    | none => (.legacy, some raw, ["unknown_source_mapped_to_legacy"])
  | none =>
    if isInboxAlias row.id ∧
        (stringOf (content.field? "inbox_item_id") <|>
          stringOf (outer.field? "inbox_item_id")).isSome then (.inbox, none, [])
    else (.legacy, none, [])

/-- The loop of `_legacy_refs`, after the references in `result`, with the notes it takes. -/
def legacyRefsFrom (result : List WorkLogContextRef) :
    List Json → List WorkLogContextRef × List String
  | [] => (result, [])
  | candidate :: rest =>
    match contextRefOf candidate with
    | none =>
      let later := legacyRefsFrom result rest
      (later.1, "invalid_context_ref_ignored" :: later.2)
    | some ref =>
      if (ref.kind, ref.targetId) ∈ result.map fun ref => (ref.kind, ref.targetId) then
        let later := legacyRefsFrom result rest
        (later.1, "duplicate_context_ref_ignored" :: later.2)
      else if (result ++ [ref]).length = 20 then (result ++ [ref], [])
      else legacyRefsFrom (result ++ [ref]) rest

/-- `_legacy_refs`, with the notes it takes. -/
def legacyRefs : Option Json → List WorkLogContextRef × List String
  | none | some .null => ([], [])
  | some (.array items) => legacyRefsFrom [] items
  | some _ => ([], ["invalid_context_refs_ignored"])

/-- `_legacy_id`. -/
def legacyId (rowId : String) : String := "wl_legacy_" ++ env.sha256 rowId

/-- The record `_project_legacy` makes of a row. -/
def legacyRecord (timezoneName : String) (row : Row) (content outer : Json) :
    Except RepositoryError WorkLogRecord := do
  let zone := env.legacyZone timezoneName content
  let occurredAt ← env.legacyOccurredAt row zone.1 [
    ("content.occurred_at", "content_occurred_at", content.field? "occurred_at"),
    ("content.date", "content_date", content.field? "date"),
    ("timestamp", "timestamp", some (.text row.timestamp))]
  let createdAt ← env.legacyCreatedAt row zone.1
  let subject ← env.legacySubject row content
  let status := env.legacyStatus (content.field? "status")
  let tags := env.legacyTags (content.field? "tags")
  let source := env.legacySource row content outer
  let contextRefs := legacyRefs (content.field? "context_refs")
  return {
    id := env.legacyId row.id
    workspaceKey := legacyWorkspace content
    occurredAt := occurredAt.1
    timezone := zone.1
    subject
    rawText := legacyRawText content subject
    target := legacyTarget (content.field? "target")
    status := status.1
    tags := tags.1
    source := source.1
    contextRefs := contextRefs.1
    createdAt
    legacyMemoryId := some row.id
    legacyRawStatus := status.2
    legacyRawSource := source.2.1
    legacyProjectionNotes := zone.2 ++ occurredAt.2 ++ tags.2 ++ source.2.2 ++ contextRefs.2
    schemaVersion := 0
    inboxItemId := stringOf (content.field? "inbox_item_id") <|>
      stringOf (outer.field? "inbox_item_id") }

/-- `_project_legacy`. -/
def projectLegacy (timezoneName : String) (row : Row) (content outer : Json) :
    Except RepositoryError WorkLogRecord :=
  if row.id = "" then .error (.projection (env.rowDigest row) "id")
  else
    match env.legacyRecord timezoneName row content outer with
    | .error error => .error error
    | .ok record =>
      match WorkLogRecord.validate env record with
      | some record => .ok record
      | none => .error (.projection (env.rowDigest row) "record")

/-- `_metadata`. -/
def outerMetadata (row : Row) : Json := row.metadata.getD (.object [])

/-- `_project_row`. -/
def projectRow (timezoneName : String) (row : Row) : Except RepositoryError WorkLogRecord :=
  match row.typedContent with
  | none => .error (.notFound "row is not a Work Log")
  | some content =>
    if isCanonicalId row.id then env.decodeCanonical row content
    else env.projectLegacy timezoneName row content (outerMetadata row)

/-- The alias of an Inbox item. -/
def inboxAlias (inboxItemId : String) : String :=
  "inbox_wl_" ++ Text.truncate 24 (env.sha256 ("inbox_wl|" ++ inboxItemId))

/-- `_project_inbox_alias`, of a row that is there. -/
def projectInboxAlias (timezoneName : String) (row : Row) (aliasId : String) :
    Except RepositoryError WorkLogRecord :=
  match row.typedContent with
  | none => .error (.notFound "Inbox alias is not a Work Log")
  | some content =>
    let outer := outerMetadata row
    match stringOf (content.field? "source") <|> stringOf (outer.field? "source"),
      stringOf (content.field? "inbox_item_id") <|> stringOf (outer.field? "inbox_item_id") with
    | some "inbox", some inboxItemId =>
      if env.inboxAlias inboxItemId = aliasId then
        env.projectLegacy timezoneName row content outer
      else .error (.notFound "Inbox alias source evidence does not match")
    | _, _ => .error (.notFound "Inbox alias has no consistent Inbox source")

end Environment

/-! ## Operations -/

/-- `model_dump` of a context reference. -/
def WorkLogContextRef.dump (ref : WorkLogContextRef) : Json :=
  .object [("kind", .text ref.kind.value), ("target_id", .text ref.targetId),
    ("relation", .ofOption .text ref.relation), ("resolution", .text ref.resolution.value)]

/-- `_canonical_content`. -/
def canonicalContent (record : WorkLogRecord) : Json :=
  .object ([
    ("type", .text "work_log"),
    ("schema_version", .number "1"),
    ("metadata", .object [
      ("tenant_id", .text record.workspaceKey.tenantId),
      ("workspace_id", .text record.workspaceKey.workspaceId),
      ("namespace", .text record.workspaceKey.nameSpace)]),
    ("occurred_at", .text record.occurredAt.isoformat),
    ("timezone", .text record.timezone),
    ("subject", .text record.subject),
    ("raw_text", .text record.rawText),
    ("target", .ofOption .text record.target),
    ("status", .text record.status.value),
    ("tags", .array (record.tags.map .text)),
    ("source", .text record.source.value),
    ("context_refs", .array (record.contextRefs.map WorkLogContextRef.dump))] ++
    inboxField record)
where
  /-- The Inbox item, when there is one. -/
  inboxField (record : WorkLogRecord) : List (String × Json) :=
    match record.inboxItemId with
    | none | some "" => []
    | some inboxItemId => [("inbox_item_id", .text inboxItemId)]

/-- The row `_insert` writes. -/
def insertedRow (record : WorkLogRecord) (storageId : String) : Row where
  id := storageId
  memoryType := "episodic"
  content := some (canonicalContent record)
  timestamp := record.createdAt.isoformat
  metadata := some (.object ([("source", .text record.source.value),
    ("workspace_id", .text record.workspaceKey.workspaceId)] ++
    canonicalContent.inboxField record))

namespace Database

variable (env : Environment) (timezoneName : String)

/-- `create`. A row that is inserted stays, even when it cannot be read back. -/
def create (db : Database) (record : WorkLogRecord) :
    Except RepositoryError WorkLogRecord × Database :=
  if record.schemaVersion ≠ 1 ∨ ¬isCanonicalId record.id then
    (.error (.conflict "only canonical Work Logs can be created"), db)
  else
    match db.insert (insertedRow record record.id) with
    | none => (.error (.conflict "Work Log id already exists"), db)
    | some db => (env.projectRow timezoneName (insertedRow record record.id), db)

/-- The record of a row under the identifier it is stored by. -/
def projectStored (row : Row) (storageId : String) : Except RepositoryError WorkLogRecord :=
  if isInboxAlias storageId then env.projectInboxAlias timezoneName row storageId
  else env.projectRow timezoneName row

/-- `create_from_inbox`. -/
def createFromInbox (db : Database) (record : WorkLogRecord) (reservedId : String) :
    Except RepositoryError WorkLogRecord × Database :=
  if record.source ≠ .inbox ∨ record.inboxItemId.getD "" = "" then
    (.error (.conflict "Inbox source evidence is required"), db)
  else if ¬(isCanonicalId reservedId ∨ isInboxAlias reservedId) then
    (.error (.conflict "reserved Inbox Work Log id is invalid"), db)
  else
    match db.insert (insertedRow record reservedId) with
    | none => (.error (.conflict "Work Log id already exists"), db)
    | some db => (projectStored env timezoneName (insertedRow record reservedId) reservedId, db)

/-- `_visible_identity_row`. -/
def visibleIdentityRow (db : Database) (workspace : Workspace) (storageId : String) : Option Row :=
  db.rows.find? fun row => row.visibleTo workspace true && row.id = storageId

/-- `get`. -/
def get (db : Database) (workspaceKey : WorkspaceKey) (workLogId : String) :
    Except RepositoryError WorkLogRecord :=
  let workspace := canonicalWorkspace workspaceKey
  if isCanonicalId workLogId ∨ isInboxAlias workLogId then
    match db.visibleIdentityRow workspace workLogId with
    | some row => projectStored env timezoneName row workLogId
    | none =>
      if db.rows.any fun row => row.id = workLogId && row.scoped then
        .error (.workspaceMismatch "Work Log belongs to another workspace")
      else .error (.notFound "Work Log was not found")
  else if isLegacyId workLogId then
    match db.rows.find? fun row =>
        row.visibleTo workspace false && env.legacyId row.id = workLogId with
    | some row => env.projectRow timezoneName row
    | none => .error (.notFound "Work Log was not found")
  else .error (.notFound "Work Log was not found")

end Database

/-- `_matches`. -/
def WorkLogQuery.accepts (env : Environment) (query : WorkLogQuery) (record : WorkLogRecord) :
    Bool :=
  query.dateFrom.all (fun dateFrom => dateFrom ≤ record.occurredAt) &&
  query.dateTo.all (fun dateTo => record.occurredAt < dateTo) &&
  query.target.all (fun target => env.casefold (record.target.getD "") = env.casefold target) &&
  query.tags.all (fun tag => env.casefold tag ∈ record.tags.map env.casefold) &&
  query.status.all (fun status => record.status = status) &&
  query.text.all (fun text => Text.contains
    (env.casefold (record.subject ++ "\n" ++ record.rawText ++ "\n" ++ record.target.getD ""))
    (env.casefold text)) &&
  query.contextRef.all fun target => record.contextRefs.any fun ref => ref.targetId = target

/-- `(occurred_at, id)`, the later first. -/
def laterFirst (a b : WorkLogRecord) : Prop :=
  toLex (b.occurredAt, b.id) ≤ toLex (a.occurredAt, a.id)

instance : DecidableRel laterFirst := fun _ _ => inferInstanceAs (Decidable (_ ≤ _))

/-- The page of a result that a query asks for. -/
def WorkLogQuery.pageOf (query : WorkLogQuery) (found : List WorkLogRecord) : WorkLogPage :=
  let items := Query.page query.limit query.offset found
  { items
    count := items.length
    limit := query.limit
    offset := query.offset
    hasMore := query.offset + items.length < found.length
    totalCount := found.length }

/-- `list`. -/
def Database.list (env : Environment) (timezoneName : String) (db : Database)
    (workspaceKey : WorkspaceKey) (query : WorkLogQuery) : Except RepositoryError WorkLogPage := do
  let rows := db.rows.filter (Row.visibleTo (canonicalWorkspace workspaceKey) false)
  let records ← rows.mapM (env.projectRow timezoneName)
  return query.pageOf ((records.filter (query.accepts env)).insertionSort laterFirst)

end WorkLogs
