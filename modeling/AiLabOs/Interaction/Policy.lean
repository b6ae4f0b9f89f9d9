import AiLabOs.Base.JsonText
import AiLabOs.Base.Unicode
import AiLabOs.Base.Validation
import AiLabOs.Interaction.World
import AiLabOs.UserTask.Models

/-!
# Trusted interactions: the operation policy of the pilot

The resolver accepts the raw fields of one new task and returns them in their canonical form, with
the source they are recorded under. That source is no field it accepts, so it refuses its own
output.

## Main definitions

* `PolicyEnvironment`: the libraries the resolver calls
* `canonicalTask`: the validated task
* `resolveOperation`: the resolver
* `Resolved`: the parameters some plan has

## Main results

* `resolveOperation_normalized`: the parameters of a plan are refused
-/

namespace Interactions

open UserTasks (UserTaskPriority)

/-- What `ZoneInfo` makes of a key: a zone, `ValueError` or `ZoneInfoNotFoundError`, or another
exception. -/
inductive ZoneLookup where
  | found
  | rejected
  | raised (message : String)
deriving DecidableEq, Repr

/-- The libraries the resolver calls: the zone database, `datetime.fromisoformat` and the Unicode
tables. -/
structure PolicyEnvironment where
  zoneInfo : String → ZoneLookup
  fromIsoformat : String → Option DateTimeArg
  unicode : Unicode

def allowedOperation : String := "user_task.create"

def policyReference : String := "pilot-001/user-task-create/v1"

def fixedSource : String := "wecom_owner_pilot"

def parameterFields : List String := ["title", "description", "priority", "due_at", "timezone"]

/-- A failure of the resolver, `_fail`. -/
def policyFailure (code message traceId : String)
    (category : ErrorCategory := .permissionDenied) : FailureInfo :=
  { code, category, message, component := "pilot_001_authority", operation := "operation_policy"
    traceId }

def operationDenied (traceId : String) : FailureInfo :=
  policyFailure "pilot_001.operation_denied"
    "Requested operation is outside the PILOT-001 allowlist" traceId

def authorityFieldDenied (traceId : String) : FailureInfo :=
  policyFailure "pilot_001.authority_field_denied"
    "Pilot parameters contain an unauthorized field" traceId

def parametersIncomplete (traceId : String) : FailureInfo :=
  policyFailure "pilot_001.parameters_incomplete"
    "Pilot preview requires all strict UserTask fields" traceId .validation

def fieldsNotText (traceId : String) : FailureInfo :=
  policyFailure "pilot_001.parameters_invalid"
    "Pilot preview fields must use their canonical string forms" traceId .validation

def parametersInvalid (traceId : String) : FailureInfo :=
  policyFailure "pilot_001.parameters_invalid"
    "Pilot preview parameters violate canonical UserTask validation" traceId .validation

/-! ## Validation -/

/-- The five fields, as texts. -/
structure TaskFields where
  title : String
  description : String
  priority : String
  dueAt : String
  timezone : String
deriving DecidableEq, Repr

/-- The fields the resolver reads of the `UserTask` it builds. -/
structure CanonicalTask where
  title : String
  description : String
  priority : UserTaskPriority
  dueAt : DateTime
  timezone : String
deriving DecidableEq

/-- `ZoneInfo(key)`. -/
def zoneInfo (env : PolicyEnvironment) (key : String) : Except Raised Unit :=
  match env.zoneInfo key with
  | .found => .ok ()
  | .rejected => .error (.valueError "No time zone found")
  | .raised message => .error (.other message)

/-- `UserTaskPriority(value)`. -/
def priorityOf (value : String) : Except Raised UserTaskPriority :=
  match [UserTaskPriority.low, .medium, .high, .urgent].find? fun p => p.value = value with
  | some priority => .ok priority
  | none => .error (.valueError "is not a valid UserTaskPriority")

/-- The instant of a due text that names its time zone, in UTC. An instant that UTC cannot express
is an `OverflowError`. -/
def awareInstant (env : PolicyEnvironment) (dueAt : String) : Except Raised (Option DateTime) :=
  match env.fromIsoformat dueAt with
  | none => .error (.valueError "Invalid isoformat string")
  | some .naive => .error (.valueError "due_at must include timezone information")
  | some (.aware utc) => .ok utc

/-- The validators of `UserTask`. That of `due_at` raises what the others only report. -/
def validatedTask (env : PolicyEnvironment) (fields : TaskFields) (priority : UserTaskPriority)
    (due : Option DateTime) : Except Raised CanonicalTask :=
  let title := Text.strip fields.title
  let timezone := Text.strip fields.timezone
  match due with
  | none => .error (.other "date value out of range")
  | some dueAt =>
    if title = "" then .error (.valueError "task title must not be blank")
    else if timezone = "" then .error (.valueError "timezone must not be blank")
    else do
      zoneInfo env timezone
      return { title, description := fields.description, priority, dueAt, timezone }

/-- The task the fields describe, or the exception its construction raises. -/
def canonicalTask (env : PolicyEnvironment) (fields : TaskFields) :
    Except Raised CanonicalTask := do
  zoneInfo env (Text.strip fields.timezone)
  let due ← awareInstant env (Text.strip fields.dueAt)
  let priority ← priorityOf (env.unicode.lower (Text.strip fields.priority))
  validatedTask env fields priority due

/-! ## Resolution -/

/-- The five fields of the parameters, where all are texts. -/
def textFields (parameters : List (String × Json)) : Option TaskFields := do
  let title ← parameters.lookup "title" >>= Json.text?
  let description ← parameters.lookup "description" >>= Json.text?
  let priority ← parameters.lookup "priority" >>= Json.text?
  let dueAt ← parameters.lookup "due_at" >>= Json.text?
  let timezone ← parameters.lookup "timezone" >>= Json.text?
  return { title, description, priority, dueAt, timezone }

/-- The canonical parameters. -/
def CanonicalTask.parameters (task : CanonicalTask) : List (String × String) :=
  [("title", task.title), ("description", task.description), ("priority", task.priority.value),
    ("due_at", task.dueAt.isoformat), ("timezone", task.timezone), ("source", fixedSource)]

/-- The plan for a task. -/
def planOf (task : CanonicalTask) : ResolvedOperationPlan :=
  { canonicalOperation := allowedOperation, policyReference, riskLevel := "medium"
    normalizedParameters := JsonText.ofTexts task.parameters
    mutationSummary := "创建 UserTask：" ++ task.title
    safeSummary := "PILOT-001 任务预览：" ++ task.title
    expectedExternalEffects := [], requiresConfirmation := true, requiresApproval := false
    canonicalCommitRequired := true, previewTtlSeconds := 900 }

/-- The plan for the fields. Values that are rejected are a failure, other exceptions pass. -/
def resolveFields (env : PolicyEnvironment) (parameters : List (String × Json))
    (traceId : String) : Except Raised ResolvedOperationPlan :=
  match textFields parameters with
  | none => .error (.failure (fieldsNotText traceId))
  | some fields =>
    match canonicalTask env fields with
    | .ok task => .ok (planOf task)
    | .error (.valueError _) => .error (.failure (parametersInvalid traceId))
    | .error x => .error x

/-- `Pilot001OperationPolicyResolver.resolve`. The context is not looked at. -/
def resolveOperation (env : PolicyEnvironment) (_context : ResolvedShellContext)
    (requestedOperation : String) (parameters : List (String × Json)) (traceId : String) :
    Except Raised ResolvedOperationPlan :=
  if Text.strip requestedOperation ≠ allowedOperation then
    .error (.failure (operationDenied traceId))
  else if ∃ name ∈ parameters.map Prod.fst, name ∉ parameterFields then
    .error (.failure (authorityFieldDenied traceId))
  else if ∃ name ∈ parameterFields, name ∉ parameters.map Prod.fst then
    .error (.failure (parametersIncomplete traceId))
  else resolveFields env parameters traceId

/-- The document holds the parameters of some plan. -/
def Resolved (env : PolicyEnvironment) (doc : JsonDoc) : Prop :=
  ∃ context operation parameters traceId plan,
    resolveOperation env context operation parameters traceId = .ok plan ∧
      doc = plan.normalizedParameters

section Resolution

variable {env : PolicyEnvironment} {context : ResolvedShellContext} {operation traceId : String}
variable {parameters : List (String × Json)} {plan : ResolvedOperationPlan}

/-- A field the resolver does not know is denied. -/
theorem resolveOperation_unknown {name : String} (hop : Text.strip operation = allowedOperation)
    (hmem : name ∈ parameters.map Prod.fst) (hunknown : name ∉ parameterFields) :
    resolveOperation env context operation parameters traceId =
      .error (.failure (authorityFieldDenied traceId)) := by
  unfold resolveOperation
  rw [if_neg (not_not.mpr hop), if_pos ⟨name, hmem, hunknown⟩]

/-- Another operation is denied. -/
theorem resolveOperation_other (hop : Text.strip operation ≠ allowedOperation) :
    resolveOperation env context operation parameters traceId =
      .error (.failure (operationDenied traceId)) := if_pos hop

/-- What is accepted is the plan of a task. -/
theorem resolveOperation_ok
    (h : resolveOperation env context operation parameters traceId = .ok plan) :
    ∃ task, plan = planOf task := by
  unfold resolveOperation at h
  split at h
  · cases h
  · split at h
    · cases h
    · split at h
      · cases h
      · unfold resolveFields at h
        split at h
        · cases h
        · split at h
          · exact ⟨_, (Except.ok.inj h).symm⟩
          · cases h
          · cases h

/-- The canonical parameters have a field the resolver does not know. -/
theorem source_supplied (task : CanonicalTask) :
    "source" ∈ (JsonText.fieldsOf (planOf task).normalizedParameters).map Prod.fst := by
  have hmem : ("source", fixedSource) ∈ task.parameters := by simp [CanonicalTask.parameters]
  exact List.mem_map_of_mem (JsonText.mem_fieldsOf_ofTexts hmem)

/-- **The parameters of a plan are refused**, for the operation of the plan. -/
theorem resolveOperation_normalized (task : CanonicalTask) :
    resolveOperation env context (planOf task).canonicalOperation
        (JsonText.fieldsOf (planOf task).normalizedParameters) traceId =
      .error (.failure (authorityFieldDenied traceId)) := by
  have hop : Text.strip allowedOperation = allowedOperation := by decide +kernel
  have hunknown : "source" ∉ parameterFields := by decide
  exact resolveOperation_unknown hop (source_supplied task) hunknown

/-- **For every operation** they are refused. -/
theorem Resolved.refused {doc : JsonDoc} (h : Resolved env doc) (context : ResolvedShellContext)
    (operation traceId : String) :
    resolveOperation env context operation (JsonText.fieldsOf doc) traceId =
        .error (.failure (authorityFieldDenied traceId)) ∨
      resolveOperation env context operation (JsonText.fieldsOf doc) traceId =
        .error (.failure (operationDenied traceId)) := by
  obtain ⟨_, _, _, _, plan, hok, rfl⟩ := h
  obtain ⟨task, rfl⟩ := resolveOperation_ok hok
  by_cases hop : Text.strip operation = allowedOperation
  · have hunknown : "source" ∉ parameterFields := by decide
    exact .inl (resolveOperation_unknown hop (source_supplied task) hunknown)
  · exact .inr (resolveOperation_other hop)

end Resolution

end Interactions
