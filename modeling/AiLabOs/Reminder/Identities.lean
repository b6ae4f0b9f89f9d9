import AiLabOs.Base.Assoc
import AiLabOs.Base.Joined
import AiLabOs.Base.OffsetTime
import AiLabOs.Reminder.System

/-!
# Reminders: the identities of intents

The identifier of a task and the hash of an intent are taken of texts that are joined with bars,
and a bar may stand in a tenant, a workspace, a namespace or a title. The key's hash, the due time
and the time zone hold none.

## Main definitions

* `ReminderIntent.Accepted`: the intents whose task is valid
* `Apart`, `Distinct`: what is assumed of the hash, and what is asked of the identities
* `Ambiguous`: a component that can be cut at a bar

## Main results

* `distinct_iff`: the intents that no other one collides with
-/

namespace Reminders

open Joined

namespace ReminderIntent

/-- **The models accept** the intent: its title is not blank, its time zone is known, and its due
time is an instant. -/
structure Accepted (env : Environment) (intent : ReminderIntent) : Prop where
  title : Text.blank intent.title = false
  timezone : env.zones (Text.strip intent.timezone)
  due : ∃ d : OffsetTime, d.utc.isSome ∧ intent.dueAt = .aware d.utc ∧ intent.dueText = d.isoformat

/-- The text that the identifier of the task is taken of. -/
def taskText (env : Environment) (intent : ReminderIntent) : String :=
  intent.workspaceScope ++ "|" ++ intent.keyHash env

/-- The text that the hash of the intent is taken of. -/
def intentText (intent : ReminderIntent) : String :=
  intent.workspaceScope ++ "|" ++ intent.title ++ "|" ++ intent.dueText ++ "|" ++ intent.timezone

end ReminderIntent

/-- The part of a hash that an identifier has. -/
def shortHash (env : Environment) (text : String) : List Char := (env.sha256 text).toList.take 24

/-- **The hash does not collide** on two texts. -/
def Apart {β : Type} (hash : String → β) (a b : String) : Prop := hash a = hash b → a = b

/-- **The identities are those of one intent**, as far as the hash does not collide: the task's, of
a workspace and a key, and the intent's, of a workspace, a title, a due time and a time zone. -/
structure Distinct (env : Environment) (intent other : ReminderIntent) : Prop where
  task : Apart env.sha256 intent.idempotencyKey other.idempotencyKey →
    Apart (shortHash env) (intent.taskText env) (other.taskText env) →
    intent.taskId env = other.taskId env →
    workspaceIdentity intent.workspaceKey = workspaceIdentity other.workspaceKey ∧
      intent.idempotencyKey = other.idempotencyKey
  intent : Apart env.sha256 intent.intentText other.intentText →
    intent.intentHash env = other.intentHash env →
    workspaceIdentity intent.workspaceKey = workspaceIdentity other.workspaceKey ∧
      intent.title = other.title ∧ intent.dueAt = other.dueAt ∧ intent.timezone = other.timezone

/-- **A component can be cut at a bar**, so that its pieces go with its neighbours. -/
def Ambiguous (workspace : Workspace) (title : String) : Prop :=
  Cuts Text.isSpace '|' workspace.tenantId.toList workspace.workspaceId.toList
      workspace.nameSpace.toList ∨
    LastCuts Text.isSpace '|' workspace.nameSpace.toList ∨
    RestCuts Text.isSpace '|' title.toList

theorem of_not_ambiguous {workspace : Workspace} {title : String}
    (h : ¬Ambiguous workspace title) :
    ¬Cuts Text.isSpace '|' workspace.tenantId.toList workspace.workspaceId.toList
        workspace.nameSpace.toList ∧
      ¬LastCuts Text.isSpace '|' workspace.nameSpace.toList ∧
      ¬RestCuts Text.isSpace '|' title.toList := by
  unfold Ambiguous at h
  rwa [not_or, not_or] at h

/-! ## The components -/

theorem bar_firm : Text.isSpace '|' = false := by decide

/-- What is stripped has no white space at its ends. -/
theorem startsFirm_strip (s : String) : StartsFirm Text.isSpace (Text.strip s).toList := by
  intro c hc
  have hdrop := Text.dropWhile_strip s
  cases hl : (Text.strip s).toList with
  | nil => simp [hl] at hc
  | cons x l =>
    obtain rfl : x = c := by simpa [hl] using hc
    rw [hl, List.dropWhile_cons] at hdrop
    split at hdrop
    · have hlength := congrArg List.length hdrop
      have hle := (List.dropWhile_suffix (l := l) Text.isSpace).length_le
      rw [List.length_cons] at hlength
      omega
    · rename_i hx
      simpa using hx

theorem endsFirm_strip (s : String) : EndsFirm Text.isSpace (Text.strip s).toList := by
  intro c hc
  rw [Text.toList_strip] at hc
  have hne : (s.toList.dropWhile Text.isSpace).rdropWhile Text.isSpace ≠ [] := by
    rintro hnil
    simp [hnil] at hc
  have hlast := List.rdropWhile_last_not Text.isSpace _ hne
  rw [List.getLast?_eq_some_getLast hne, Option.mem_some_iff] at hc
  rw [← hc]
  simpa using hlast

/-- A component of a workspace is a part. -/
theorem isPart_component (value : String) :
    IsPart Text.isSpace (orDefault (Text.strip value)).toList := by
  unfold orDefault
  split
  · refine ⟨by decide, ?_, ?_⟩
    · intro c hc
      obtain rfl := Option.some.inj hc
      rfl
    · intro c hc
      obtain rfl := Option.some.inj hc
      rfl
  · rename_i hne
    refine ⟨?_, startsFirm_strip value, endsFirm_strip value⟩
    intro hnil
    exact hne (String.toList_inj.mp (by rw [hnil]; rfl))

theorem isPart_workspace (key : WorkspaceKey) :
    IsPart Text.isSpace (workspaceIdentity key).tenantId.toList ∧
      IsPart Text.isSpace (workspaceIdentity key).workspaceId.toList ∧
      IsPart Text.isSpace (workspaceIdentity key).nameSpace.toList := by
  unfold workspaceIdentity
  dsimp only
  exact ⟨isPart_component key.tenantId, isPart_component key.workspaceId,
    isPart_component key.nameSpace⟩

/-- A text without white space at its ends is stripped. -/
theorem strip_ofList {l : List Char} (hstarts : StartsFirm Text.isSpace l)
    (hends : EndsFirm Text.isSpace l) : Text.strip (String.ofList l) = String.ofList l := by
  have hleft : l.dropWhile Text.isSpace = l := by
    cases l with
    | nil => rfl
    | cons c l => rw [List.dropWhile_cons, if_neg (by simp [hstarts c rfl])]
  have hright : l.rdropWhile Text.isSpace = l := by
    rw [List.rdropWhile_eq_self_iff]
    intro hne h
    have hlast := hends _ (List.getLast?_eq_some_getLast hne)
    simp [hlast] at h
  rw [← String.toList_inj, Text.toList_strip, String.toList_ofList, hleft, hright]

/-- A part is the component of the workspace that it names. -/
theorem component_of_isPart {l : List Char} (h : IsPart Text.isSpace l) :
    orDefault (Text.strip (String.ofList l)) = String.ofList l := by
  rw [strip_ofList h.starts h.ends, orDefault, if_neg]
  intro hempty
  apply h.ne
  rw [← String.toList_ofList (l := l), hempty]
  rfl

/-- Stripping keeps what is no white space. -/
theorem mem_strip {s : String} {c : Char} (h : c ∈ s.toList) (hfirm : Text.isSpace c = false) :
    c ∈ (Text.strip s).toList := by
  have hdrop : ∀ l : List Char, c ∈ l → c ∈ l.dropWhile Text.isSpace := by
    intro l hl
    rw [← List.takeWhile_append_dropWhile (p := Text.isSpace) (l := l)] at hl
    refine (List.mem_append.mp hl).resolve_left ?_
    intro hmem
    rw [List.mem_takeWhile_imp hmem] at hfirm
    cases hfirm
  rw [Text.strip, String.toList_ofList, List.mem_reverse]
  exact hdrop _ (List.mem_reverse.mpr (hdrop _ h))

/-- A title is not blank if some character of it is no white space. -/
theorem blank_eq_false {s : String} :
    Text.blank s = false ↔ ∃ c ∈ s.toList, Text.isSpace c = false := by
  unfold Text.blank
  rw [beq_eq_false_iff_ne]
  constructor
  · exact Text.exists_of_strip
  · rintro ⟨c, hc, hfirm⟩ hempty
    have hmem := mem_strip hc hfirm
    rw [hempty] at hmem
    exact absurd hmem List.not_mem_nil

/-! ## The texts -/

section Texts

variable {env : Environment} {intent other : ReminderIntent}

/-- The workspace of an intent, joined. -/
theorem toList_workspaceScope : intent.workspaceScope.toList =
    join '|' (workspaceIdentity intent.workspaceKey).tenantId.toList
      (workspaceIdentity intent.workspaceKey).workspaceId.toList
      (workspaceIdentity intent.workspaceKey).nameSpace.toList := by
  simp [ReminderIntent.workspaceScope, join]

/-- What follows the last bar is what is joined last. -/
theorem last_unique {a b x y : List Char} (hx : '|' ∉ x) (hy : '|' ∉ y)
    (h : a ++ '|' :: x = b ++ '|' :: y) : a = b ∧ x = y := by
  rcases cases_of_eq h with h | ⟨d, -, rfl⟩ | ⟨d, -, rfl⟩
  · exact h
  · exact absurd (List.mem_append_right d List.mem_cons_self) hy
  · exact absurd (List.mem_append_right d List.mem_cons_self) hx

theorem toList_taskText : (intent.taskText env).toList =
    intent.workspaceScope.toList ++ '|' :: (env.sha256 intent.idempotencyKey).toList := by
  simp [ReminderIntent.taskText, ReminderIntent.keyHash]

/-- What is hashed for a task is that of its scope and its key. -/
theorem taskText_congr (env : Environment) (hscope : intent.workspaceScope = other.workspaceScope)
    (hkey : intent.idempotencyKey = other.idempotencyKey) :
    intent.taskText env = other.taskText env := by
  rw [ReminderIntent.taskText, ReminderIntent.taskText, ReminderIntent.keyHash,
    ReminderIntent.keyHash, hscope, hkey]

theorem taskId_congr (env : Environment) (h : intent.taskText env = other.taskText env) :
    intent.taskId env = other.taskId env :=
  congrArg (fun text => "ut_nlr_" ++ String.ofList (shortHash env text)) h

theorem toList_intentText : intent.intentText.toList =
    ((intent.workspaceScope.toList ++ '|' :: intent.title.toList) ++
      '|' :: intent.dueText.toList) ++ '|' :: intent.timezone.toList := by
  simp [ReminderIntent.intentText]

/-- The components of two workspaces are the same. -/
theorem workspaceIdentity_eq
    (h : (workspaceIdentity intent.workspaceKey).tenantId.toList =
        (workspaceIdentity other.workspaceKey).tenantId.toList ∧
      (workspaceIdentity intent.workspaceKey).workspaceId.toList =
        (workspaceIdentity other.workspaceKey).workspaceId.toList ∧
      (workspaceIdentity intent.workspaceKey).nameSpace.toList =
        (workspaceIdentity other.workspaceKey).nameSpace.toList) :
    workspaceIdentity intent.workspaceKey = workspaceIdentity other.workspaceKey :=
  Workspace.ext (String.toList_inj.mp h.1) (String.toList_inj.mp h.2.1)
    (String.toList_inj.mp h.2.2)

/-- **The identifier of a task** is that of a workspace that cannot be cut, and a key. -/
theorem task_distinct (hhex : ∀ text, '|' ∉ (env.sha256 text).toList)
    (hno : ¬Ambiguous (workspaceIdentity intent.workspaceKey) intent.title)
    (hkey : Apart env.sha256 intent.idempotencyKey other.idempotencyKey)
    (htext : Apart (shortHash env) (intent.taskText env) (other.taskText env))
    (h : intent.taskId env = other.taskId env) :
    workspaceIdentity intent.workspaceKey = workspaceIdentity other.workspaceKey ∧
      intent.idempotencyKey = other.idempotencyKey := by
  have hshort : shortHash env (intent.taskText env) = shortHash env (other.taskText env) := by
    have hlist := congrArg String.toList h
    simp only [ReminderIntent.taskId, String.toList_append, String.toList_ofList,
      List.append_cancel_left_eq] at hlist
    exact hlist
  have hlist := congrArg String.toList (htext hshort)
  rw [toList_taskText, toList_taskText] at hlist
  obtain ⟨hscope, hhash⟩ := last_unique (hhex _) (hhex _) hlist
  rw [toList_workspaceScope, toList_workspaceScope] at hscope
  obtain ⟨-, hw, hn⟩ := isPart_workspace intent.workspaceKey
  obtain ⟨ht', hw', hn'⟩ := isPart_workspace other.workspaceKey
  exact ⟨workspaceIdentity_eq (parts_unique (of_not_ambiguous hno).1 hw hn ht' hw' hn' hscope),
    hkey (String.toList_inj.mp hhash)⟩

variable (hzones : ∀ zone, env.zones zone → '|' ∉ zone.toList)

include hzones

/-- A time zone that is accepted has no bar. -/
theorem bar_not_mem_timezone (h : intent.Accepted env) : '|' ∉ intent.timezone.toList := by
  intro hmem
  exact hzones _ h.timezone (mem_strip hmem bar_firm)

/-- **The hash of an intent** is that of a workspace and a title that cannot be cut, a due time and
a time zone. -/
theorem intent_distinct (hintent : intent.Accepted env) (hother : other.Accepted env)
    (hno : ¬Ambiguous (workspaceIdentity intent.workspaceKey) intent.title)
    (htext : Apart env.sha256 intent.intentText other.intentText)
    (h : intent.intentHash env = other.intentHash env) :
    workspaceIdentity intent.workspaceKey = workspaceIdentity other.workspaceKey ∧
      intent.title = other.title ∧ intent.dueAt = other.dueAt ∧
        intent.timezone = other.timezone := by
  have hlist := congrArg String.toList (htext h)
  rw [toList_intentText, toList_intentText] at hlist
  obtain ⟨hlist, htimezone⟩ := last_unique (bar_not_mem_timezone hzones hintent)
    (bar_not_mem_timezone hzones hother) hlist
  obtain ⟨d, -, hdue, hdueText⟩ := hintent.due
  obtain ⟨d', -, hdue', hdueText'⟩ := hother.due
  have hbar : ∀ d : OffsetTime, '|' ∉ d.isoformat.toList := fun d =>
    OffsetTime.not_mem_isoformat (by decide) (by decide)
  rw [hdueText, hdueText'] at hlist
  obtain ⟨hlist, htime⟩ := last_unique (hbar d) (hbar d') hlist
  rw [toList_workspaceScope, toList_workspaceScope] at hlist
  obtain ⟨hcuts, hlast, hrest⟩ := of_not_ambiguous hno
  obtain ⟨-, hw, hn⟩ := isPart_workspace intent.workspaceKey
  obtain ⟨ht', hw', hn'⟩ := isPart_workspace other.workspaceKey
  obtain ⟨hworkspace, htitle⟩ := rest_unique hcuts hlast hrest hw hn ht' hw' hn'
    (blank_eq_false.mp hother.title) hlist
  obtain rfl := OffsetTime.isoformat_injective (String.toList_inj.mp htime)
  exact ⟨workspaceIdentity_eq hworkspace, String.toList_inj.mp htitle, hdue.trans hdue'.symm,
    String.toList_inj.mp htimezone⟩

omit hzones in
/-- **Another intent** has the same text, if a component can be cut. -/
theorem exists_other (hintent : intent.Accepted env)
    (hcuts : Ambiguous (workspaceIdentity intent.workspaceKey) intent.title) :
    ∃ other : ReminderIntent, other.Accepted env ∧ other.intentText = intent.intentText ∧
      ¬(workspaceIdentity intent.workspaceKey = workspaceIdentity other.workspaceKey ∧
        intent.title = other.title) := by
  obtain ⟨ht, hw, hn⟩ := isPart_workspace intent.workspaceKey
  obtain ⟨t', w', n', x', ht', hw', hn', hx', hjoin, hne⟩ := exists_rest bar_firm ht hw hn
    (blank_eq_false.mp hintent.title) hcuts
  have hidentity : workspaceIdentity ⟨String.ofList t', String.ofList w', String.ofList n',
      intent.workspaceKey.traceId⟩ = ⟨String.ofList t', String.ofList w', String.ofList n'⟩ := by
    unfold workspaceIdentity
    rw [component_of_isPart ht', component_of_isPart hw', component_of_isPart hn']
  refine ⟨{ intent with
    workspaceKey := ⟨String.ofList t', String.ofList w', String.ofList n',
      intent.workspaceKey.traceId⟩
    title := String.ofList x' }, ⟨?_, hintent.timezone, hintent.due⟩, ?_, ?_⟩
  · rw [blank_eq_false, String.toList_ofList]
    exact hx'
  · rw [← String.toList_inj, toList_intentText, toList_intentText, toList_workspaceScope,
      toList_workspaceScope, hidentity]
    simp only [String.toList_ofList]
    rw [hjoin]
  · rw [hidentity]
    rintro ⟨hworkspace, htitle⟩
    apply hne
    rw [hworkspace, htitle]
    simp only [String.toList_ofList, and_self]

end Texts

/-- **When no other intent has its identities**: just when no component of its workspace, and not
its title, can be cut at a bar. -/
theorem distinct_iff (env : Environment) (intent : ReminderIntent)
    (hhex : ∀ text, '|' ∉ (env.sha256 text).toList)
    (hzones : ∀ zone, env.zones zone → '|' ∉ zone.toList) (hintent : intent.Accepted env) :
    (∀ other : ReminderIntent, other.Accepted env → Distinct env intent other) ↔
      ¬Ambiguous (workspaceIdentity intent.workspaceKey) intent.title := by
  constructor
  · intro h hcuts
    obtain ⟨other, hother, htext, hne⟩ := exists_other hintent hcuts
    have hhash : intent.intentHash env = other.intentHash env := congrArg env.sha256 htext.symm
    obtain ⟨hworkspace, htitle, -⟩ := (h other hother).intent (fun _ => htext.symm) hhash
    exact hne ⟨hworkspace, htitle⟩
  · intro hno other hother
    exact ⟨task_distinct hhex hno, intent_distinct hzones hintent hother hno⟩

/-- A due time in Shanghai. -/
def sampleDue : OffsetTime := ⟨⟨2025, 6, 2, 9, 0, 0, 0, by decide⟩, 28800000000, by decide⟩

/-- A report in a workspace. -/
def sampleIntent (tenantId workspaceId : String) : ReminderIntent where
  title := "Write report"
  dueAt := .aware sampleDue.utc
  dueText := sampleDue.isoformat
  timezone := "Asia/Shanghai"
  workspaceKey := { tenantId, workspaceId }
  idempotencyKey := "weekly-report"

/-- An environment with one zone, eight hours ahead of UTC, and the digests of some texts. -/
def sampleEnvironment (digests : List (String × String)) : Environment where
  zone name := if name = "Asia/Shanghai" then some (.fixed 28800000000) else none
  clean _ := true
  cleanTask _ := true
  sha256 text := (Assoc.get digests text).getD ""

/-- The digests of what is hashed of two of the intents. -/
def sampleDigests : List (String × String) :=
  [("weekly-report",
      "94cc4e792f0afb79ca0b1fb67ae656e581efd449bd9ea339a8627606904d1535"),
    ("acme|ops|default|94cc4e792f0afb79ca0b1fb67ae656e581efd449bd9ea339a8627606904d1535",
      "117a93ce6d903600763c1030b5976aad5a855c29bc9c88af4c6b2ac5b0963d60"),
    ("acme|ops|default|Write report|2025-06-02T09:00:00+08:00|Asia/Shanghai",
      "fb6fb2af30ad88290f32eecf32bea1f2fbf9d2f5f8429df9bdc876aa759ebf78"),
    ("acme|eu|ops|default|94cc4e792f0afb79ca0b1fb67ae656e581efd449bd9ea339a8627606904d1535",
      "52217e5f5e5e0a244836e2b0f77e09a50c042ed516cd1610ca827266e682c216"),
    ("acme|eu|ops|default|Write report|2025-06-02T09:00:00+08:00|Asia/Shanghai",
      "dfc2dcf9153e540cb8e1918c71e72f6eafb415d6449f643ab26b29a445f8e22a")]

theorem bar_not_mem_sample (text : String) :
    '|' ∉ ((sampleEnvironment sampleDigests).sha256 text).toList := by
  have hall : (sampleDigests.all fun entry => !entry.2.toList.contains '|') = true := by
    decide +kernel
  show '|' ∉ ((Assoc.get sampleDigests text).getD "").toList
  cases h : Assoc.get sampleDigests text with
  | none => decide
  | some digest => simpa using List.all_eq_true.mp hall _ (Assoc.mem_of_get h)

theorem bar_not_mem_zone (digests : List (String × String)) (zone : String)
    (h : (sampleEnvironment digests).zones zone) : '|' ∉ zone.toList := by
  obtain rfl : zone = "Asia/Shanghai" := by
    by_contra hne
    simp [Environment.zones, sampleEnvironment, hne] at h
  decide

theorem accepted_sample (digests : List (String × String)) (tenantId workspaceId : String) :
    (sampleIntent tenantId workspaceId).Accepted (sampleEnvironment digests) where
  title := by
    show Text.blank "Write report" = false
    decide
  timezone := by
    have hstrip : Text.strip (sampleIntent tenantId workspaceId).timezone = "Asia/Shanghai" := by
      show Text.strip "Asia/Shanghai" = "Asia/Shanghai"
      decide
    rw [hstrip]
    rfl
  due := ⟨sampleDue, by decide, rfl, rfl⟩

/-- Two tenants share the identities of a task and of an intent. -/
theorem not_distinct : ¬∀ (env : Environment) (intent other : ReminderIntent),
    (∀ text, '|' ∉ (env.sha256 text).toList) → (∀ zone, env.zones zone → '|' ∉ zone.toList) →
    intent.Accepted env → other.Accepted env → Distinct env intent other := by
  intro h
  have hdistinct := h (sampleEnvironment sampleDigests) (sampleIntent "acme|eu" "ops")
    (sampleIntent "acme" "eu|ops") bar_not_mem_sample (bar_not_mem_zone _)
    (accepted_sample _ _ _) (accepted_sample _ _ _)
  have hscope : (sampleIntent "acme|eu" "ops").workspaceScope =
      (sampleIntent "acme" "eu|ops").workspaceScope := by decide
  have htext := taskText_congr (sampleEnvironment sampleDigests) hscope rfl
  have hsame := hdistinct.task (fun _ => rfl) (fun _ => htext) (taskId_congr _ htext)
  exact absurd hsame.1 (by decide)

/-- An intent whose workspace has no bar. -/
theorem distinct_sample :
    (∀ text, '|' ∉ ((sampleEnvironment sampleDigests).sha256 text).toList) ∧
      ((∀ other : ReminderIntent, other.Accepted (sampleEnvironment sampleDigests) →
        Distinct (sampleEnvironment sampleDigests) (sampleIntent "acme" "ops") other) ↔
        ¬Ambiguous (workspaceIdentity (sampleIntent "acme" "ops").workspaceKey)
          (sampleIntent "acme" "ops").title) :=
  ⟨bar_not_mem_sample, distinct_iff (sampleEnvironment sampleDigests) (sampleIntent "acme" "ops")
    bar_not_mem_sample (bar_not_mem_zone _) (accepted_sample _ _ _)⟩

end Reminders
