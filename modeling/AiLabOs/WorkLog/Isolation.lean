import AiLabOs.Base.Validation
import AiLabOs.WorkLog.Service

/-!
# Work logs: isolation of workspaces

A record is written with the components of the workspace key, the empty ones replaced by the
default. SQL takes a component of blanks for no component: a record whose key has one is of no
workspace of that name, and is shown to the default one.

## Main definitions

* `Marked`: no component of a workspace consists of blanks
* `Stored`: the record is that of a row, which names its workspace
* `Isolated`: a record is there for the workspace, and is not there for any other

## Main results

* `Call.stored`: a call that answers a record has stored it
* `record_isolation`: when records are isolated
-/

namespace WorkLogs

/-! ## Workspaces in SQL -/

/-- The text has a character that `trim` keeps. -/
def marked (s : String) : Bool := s.toList.any (· != ' ')

/-- No component consists of blanks. -/
def Marked (workspace : Workspace) : Prop :=
  marked workspace.tenantId = true ∧ marked workspace.workspaceId = true ∧
    marked workspace.nameSpace = true

instance (workspace : Workspace) : Decidable (Marked workspace) := by
  unfold Marked
  infer_instance

theorem sqlTrim_ne_empty (s : String) : (sqlTrim s != "") = marked s := by
  unfold sqlTrim marked
  rw [Bool.eq_iff_iff, bne_iff_ne, Ne, ← String.toList_eq_nil_iff, String.toList_ofList,
    List.reverse_eq_nil_iff, List.dropWhile_eq_nil_iff, List.any_eq_true]
  simp only [List.mem_reverse]
  constructor
  · intro h
    by_contra hnone
    apply h
    intro c hc
    have hmem : c ∈ s.toList := (List.dropWhile_suffix _).mem hc
    by_contra hne
    exact hnone ⟨c, hmem, by simpa using hne⟩
  · rintro ⟨c, hc, hne⟩ h
    -- What `dropWhile` leaves of a list with a character to keep begins with one.
    have hdrop : s.toList.dropWhile (· == ' ') ≠ [] := by
      rw [Ne, List.dropWhile_eq_nil_iff]
      intro hall
      exact (bne_iff_ne.mp hne) (beq_iff_eq.mp (hall c hc))
    have hkept := List.head_dropWhile_not (· == ' ') hdrop
    have hblank := h _ (List.head_mem hdrop)
    exact Bool.false_ne_true (hkept.symm.trans hblank)

theorem completeInSql_iff (workspace : Workspace) :
    completeInSql workspace = true ↔ Marked workspace := by
  unfold completeInSql Marked
  rw [sqlTrim_ne_empty, sqlTrim_ne_empty, sqlTrim_ne_empty, Bool.and_eq_true, Bool.and_eq_true,
    and_assoc]

/-! ## Canonical keys -/

@[simp] theorem orDefault_orDefault (s : String) : orDefault (orDefault s) = orDefault s := by
  unfold orDefault
  by_cases h : s = ""
  · rw [if_pos h]
    decide
  · rw [if_neg h, if_neg h]

@[simp] theorem canonicalWorkspace_canonicalKey (workspaceKey : WorkspaceKey) :
    canonicalWorkspace (canonicalKey workspaceKey) = canonicalWorkspace workspaceKey := by
  simp [canonicalWorkspace, canonicalKey]

@[simp] theorem orDefaults_canonicalWorkspace (workspaceKey : WorkspaceKey) :
    orDefaults (canonicalWorkspace workspaceKey) = canonicalWorkspace workspaceKey := by
  simp [canonicalWorkspace, orDefaults]

/-! ## Identifiers -/

theorem hexAfter_spec {lead : String} {n : ℕ} {s : String} (h : hexAfter lead n s = true) :
    ∃ digits : List Char, s.toList = lead.toList ++ digits ∧ ∀ c ∈ digits, isHex c = true := by
  unfold hexAfter Text.startsWith at h
  rw [Bool.and_eq_true, Bool.and_eq_true, List.isPrefixOf_iff_prefix] at h
  obtain ⟨⟨⟨digits, hdigits⟩, -⟩, hall⟩ := h
  refine ⟨digits, hdigits.symm, ?_⟩
  rw [← hdigits, ← String.length_toList, List.drop_left] at hall
  exact List.all_eq_true.mp hall

theorem isHex_not_space {c : Char} (h : isHex c = true) : Text.isSpace c = false := by
  unfold isHex at h
  simp only [Bool.or_eq_true, Bool.and_eq_true, decide_eq_true_eq, Char.le_def,
    UInt32.le_iff_toNat_le] at h
  have hbound : (48 ≤ c.toNat ∧ c.toNat ≤ 57) ∨ (97 ≤ c.toNat ∧ c.toNat ≤ 102) := h
  unfold Text.isSpace
  simp only [Bool.or_eq_false_iff, Bool.and_eq_false_iff, decide_eq_false_iff_not,
    beq_eq_false_iff_ne]
  omega

/-- A text without white space is stripped already. -/
theorem strip_of_no_space {s : String} (h : ∀ c ∈ s.toList, Text.isSpace c = false) :
    Text.strip s = s := by
  have hdrop : ∀ l : List Char, (∀ c ∈ l, Text.isSpace c = false) →
      l.dropWhile Text.isSpace = l := by
    intro l hl
    cases l with
    | nil => rfl
    | cons c l => rw [List.dropWhile_cons, hl c (List.mem_cons_self ..), if_neg Bool.false_ne_true]
  unfold Text.strip
  rw [hdrop _ h, hdrop _ fun c hc => h c (List.mem_reverse.mp hc), List.reverse_reverse,
    String.ofList_toList]

theorem strip_hexAfter {lead : String} {n : ℕ} {s : String} (h : hexAfter lead n s = true)
    (hlead : lead.toList.any Text.isSpace = false) : Text.strip s = s := by
  obtain ⟨digits, hs, hdigits⟩ := hexAfter_spec h
  refine strip_of_no_space fun c hc => ?_
  rw [hs] at hc
  rcases List.mem_append.mp hc with hc | hc
  · exact Bool.eq_false_iff.mpr (List.any_eq_false.mp hlead c hc)
  · exact isHex_not_space (hdigits c hc)

theorem not_isCanonicalId_of_isInboxAlias {s : String} (h : isInboxAlias s = true) :
    isCanonicalId s = false := by
  obtain ⟨digits, hs, -⟩ := hexAfter_spec h
  rw [Bool.eq_false_iff]
  intro hc
  obtain ⟨digits', hs', -⟩ := hexAfter_spec hc
  rw [hs] at hs'
  simp at hs'

/-! ## Records of rows -/

section Records

variable {env : Environment} {timezoneName : String} {row : Row} {record : WorkLogRecord}

/-- The row a record was read from. -/
def WorkLogRecord.origin (record : WorkLogRecord) : String := record.legacyMemoryId.getD record.id

/-- The validators keep identifiers, and replace empty components of the workspace. -/
theorem WorkLogRecord.validate_spec {record' : WorkLogRecord}
    (h : record.validate env = some record') :
    record'.id = record.id ∧ record'.legacyMemoryId = record.legacyMemoryId ∧
      record'.workspaceKey = orDefaults record.workspaceKey := by
  unfold WorkLogRecord.validate at h
  simp only [Option.bind_eq_bind, Option.bind_eq_some_iff, Option.pure_def, Option.some.injEq] at h
  obtain ⟨_, -, _, -, _, -, _, -, _, -, _, -, _, -, _, -, _, -, _, -, _, -, rfl⟩ := h
  exact ⟨rfl, rfl, rfl⟩

theorem Environment.origin_decodeCanonical {content : Json}
    (h : env.decodeCanonical row content = .ok record) :
    record.id = row.id ∧ record.origin = row.id := by
  unfold Environment.decodeCanonical at h
  split at h
  · rename_i decoded hdecoded
    cases h
    obtain ⟨fields, hfields, hvalid⟩ := Option.bind_eq_some_iff.mp hdecoded
    obtain ⟨hid, hlegacy, -⟩ := WorkLogRecord.validate_spec hvalid
    have hrow : fields.id = row.id ∧ fields.legacyMemoryId = none := by
      unfold Environment.canonicalFields at hfields
      iterate 26 obtain ⟨_, -, hfields⟩ := Option.bind_eq_some_iff.mp hfields
      cases hfields
      exact ⟨rfl, rfl⟩
    refine ⟨hid.trans hrow.1, ?_⟩
    rw [WorkLogRecord.origin, hlegacy, hrow.2, hid, hrow.1]
    rfl
  · cases h

theorem Environment.origin_projectLegacy {content outer : Json}
    (h : env.projectLegacy timezoneName row content outer = .ok record) :
    record.origin = row.id := by
  unfold Environment.projectLegacy at h
  split at h
  · cases h
  · split at h
    · cases h
    · rename_i made hmade
      have hrow : made.legacyMemoryId = some row.id := by
        unfold Environment.legacyRecord at hmade
        iterate 3 obtain ⟨_, -, hmade⟩ := Except.of_bind_ok hmade
        cases hmade
        rfl
      split at h
      · rename_i valid hvalid
        cases h
        obtain ⟨-, hlegacy, -⟩ := WorkLogRecord.validate_spec hvalid
        rw [WorkLogRecord.origin, hlegacy, hrow]
        rfl
      · cases h

/-- A record names the row it was read from. -/
theorem Environment.origin_projectRow (h : env.projectRow timezoneName row = .ok record) :
    record.origin = row.id := by
  unfold Environment.projectRow at h
  split at h
  · cases h
  · split at h
    · exact (origin_decodeCanonical h).2
    · exact origin_projectLegacy h

/-- A record read under an alias is read without it too. -/
theorem Environment.projectRow_of_projectInboxAlias {aliasId : String}
    (hcanonical : isCanonicalId row.id = false)
    (h : env.projectInboxAlias timezoneName row aliasId = .ok record) :
    env.projectRow timezoneName row = .ok record := by
  unfold Environment.projectInboxAlias at h
  unfold Environment.projectRow
  split at h
  · cases h
  · simp only [hcanonical, Bool.false_eq_true, if_false]
    dsimp only at h
    split at h
    · split at h
      · exact h
      · cases h
    · cases h

theorem projectRow_of_projectStored (h : Database.projectStored env timezoneName row row.id =
    .ok record) : env.projectRow timezoneName row = .ok record := by
  unfold Database.projectStored at h
  split at h
  · exact Environment.projectRow_of_projectInboxAlias
      (not_isCanonicalId_of_isInboxAlias ‹_›) h
  · exact h

/-- Under its own kind of identifier a canonical record has that of its row. -/
theorem id_of_projectRow (hid : isCanonicalId row.id = true)
    (h : env.projectRow timezoneName row = .ok record) : record.id = row.id := by
  unfold Environment.projectRow at h
  split at h
  · cases h
  · rw [if_pos hid] at h
    exact (Environment.origin_decodeCanonical h).1

end Records

/-! ## Visible rows -/

section Rows

variable {row : Row} {workspace owner : Workspace} {content : Json}

/-- A completely scoped row is visible to its owner alone. -/
theorem Row.visibleTo_complete {require : Bool} (hlog : row.workLog = some content)
    (howner : completeWorkspace content = some owner) :
    row.visibleTo workspace require = true ↔ owner = workspace := by
  unfold Row.visibleTo
  rw [hlog]
  simp only [howner, decide_eq_true_eq]

theorem Row.visibleTo_weaken (h : row.visibleTo workspace true = true) :
    row.visibleTo workspace false = true := by
  unfold Row.visibleTo at h ⊢
  split at h
  · cases h
  · split at h
    · exact h
    · cases h

/-- What a row that is looked up by its scope names. -/
theorem Row.visibleTo_spec (h : row.visibleTo workspace true = true) :
    ∃ content, row.workLog = some content ∧ completeWorkspace content = some workspace := by
  unfold Row.visibleTo at h
  split at h
  · cases h
  · rename_i content hlog
    refine ⟨content, hlog, ?_⟩
    split at h
    · rename_i owner howner
      rw [howner, of_decide_eq_true h]
    · cases h

/-- The components a row names own it when SQL takes none of them for blank. -/
theorem completeWorkspace_eq (hnamed : namedWorkspace content = some owner) :
    completeWorkspace content = some owner ↔ Marked owner := by
  unfold completeWorkspace
  rw [hnamed, ← completeInSql_iff, Option.filter_some]
  split <;> simp_all

end Rows

/-! ## The table -/

/-- A list is mapped without an error when each of its elements is. -/
theorem mapM_ok_iff {ε α β : Type} {f : α → Except ε β} {items : List α} {results : List β} :
    items.mapM f = .ok results ↔ items.map f = results.map .ok := by
  induction items generalizing results with
  | nil =>
    rw [List.mapM_nil, List.map_nil, eq_comm (a := []), List.map_eq_nil_iff]
    constructor
    · intro h
      cases h
      rfl
    · rintro rfl
      rfl
  | cons a items ih =>
    rw [List.mapM_cons, Except.bind_ok_iff]
    constructor
    · rintro ⟨b, hb, h⟩
      obtain ⟨rest, hrest, h⟩ := Except.of_bind_ok h
      cases h
      rw [List.map_cons, List.map_cons, hb, ih.mp hrest]
    · intro h
      cases results with
      | nil => cases h
      | cons b rest =>
        rw [List.map_cons, List.map_cons, List.cons.injEq] at h
        refine ⟨b, h.1, ?_⟩
        rw [ih.mpr h.2]
        rfl

namespace Database

variable {db db' : Database} {row : Row}

theorem insert_spec (h : db.insert row = some db') : db'.rows = db.rows ++ [row] := by
  unfold insert at h
  split at h
  · cases h
    rfl
  · cases h

theorem subset_insert (h : db.insert row = some db') : db.rows ⊆ db'.rows := by
  rw [insert_spec h]
  exact List.subset_append_left ..

theorem mem_insert (h : db.insert row = some db') : row ∈ db'.rows := by
  rw [insert_spec h]
  exact List.mem_append_right _ (List.mem_singleton_self _)

theorem eq_of_id {other : Row} (hrow : row ∈ db.rows) (hother : other ∈ db.rows)
    (h : row.id = other.id) : row = other :=
  db.unique.eq hrow hother h

section Operations

variable {env : Environment} {timezoneName : String} {record : WorkLogRecord}

/-- An operation that writes keeps the rows there are. -/
theorem subset_create (db : Database) (env : Environment) (timezoneName : String)
    (record : WorkLogRecord) : db.rows ⊆ (db.create env timezoneName record).2.rows := by
  unfold create
  split
  · exact List.Subset.refl _
  · split
    · exact List.Subset.refl _
    · exact subset_insert ‹_›

theorem subset_createFromInbox (db : Database) (env : Environment) (timezoneName : String)
    (record : WorkLogRecord) (reservedId : String) :
    db.rows ⊆ (db.createFromInbox env timezoneName record reservedId).2.rows := by
  unfold createFromInbox
  split
  · exact List.Subset.refl _
  · split
    · exact List.Subset.refl _
    · split
      · exact List.Subset.refl _
      · exact subset_insert ‹_›

/-- What `get` answers was read from a row that is visible. -/
theorem get_ok {workspaceKey : WorkspaceKey} {id : String}
    (h : db.get env timezoneName workspaceKey id = .ok record) :
    ∃ row ∈ db.rows, row.visibleTo (canonicalWorkspace workspaceKey) false = true ∧
      env.projectRow timezoneName row = .ok record ∧
      (isCanonicalId id ∨ isInboxAlias id →
        row.visibleTo (canonicalWorkspace workspaceKey) true = true ∧ row.id = id ∧
        projectStored env timezoneName row id = .ok record) := by
  unfold get at h
  dsimp only at h
  split at h
  · split at h
    · rename_i row hrow
      have hmem := List.mem_of_find?_eq_some hrow
      have hfound := List.find?_some hrow
      rw [Bool.and_eq_true, decide_eq_true_eq] at hfound
      obtain ⟨hvisible, rfl⟩ := hfound
      exact ⟨row, hmem, Row.visibleTo_weaken hvisible, projectRow_of_projectStored h,
        fun _ => ⟨hvisible, rfl, h⟩⟩
    · split at h <;> cases h
  · rename_i hkind
    split at h
    · split at h
      · rename_i row hrow
        have hmem := List.mem_of_find?_eq_some hrow
        have hfound := List.find?_some hrow
        rw [Bool.and_eq_true] at hfound
        exact ⟨row, hmem, hfound.1, h, fun hkind' => absurd hkind' hkind⟩
      · cases h
    · cases h

/-- A scoped row is found by its identifier. -/
theorem get_of_visible {workspaceKey : WorkspaceKey} (hrow : row ∈ db.rows)
    (hkind : isCanonicalId row.id ∨ isInboxAlias row.id)
    (hvisible : row.visibleTo (canonicalWorkspace workspaceKey) true = true) :
    db.get env timezoneName workspaceKey row.id = projectStored env timezoneName row row.id := by
  have hfind : db.visibleIdentityRow (canonicalWorkspace workspaceKey) row.id = some row := by
    unfold visibleIdentityRow
    cases hfound : db.rows.find? _ with
    | none =>
      have hnone := List.find?_eq_none.mp hfound row hrow
      simp [hvisible] at hnone
    | some other =>
      have hother := List.find?_some hfound
      rw [Bool.and_eq_true, decide_eq_true_eq] at hother
      rw [eq_of_id hrow (List.mem_of_find?_eq_some hfound) hother.2.symm]
  unfold get
  dsimp only
  rw [if_pos hkind, hfind]

/-- A list is the page of the records of the visible rows that the query accepts. -/
theorem list_ok_iff {workspaceKey : WorkspaceKey} {query : WorkLogQuery} {page : WorkLogPage} :
    db.list env timezoneName workspaceKey query = .ok page ↔
      ∃ records : List WorkLogRecord,
        (db.rows.filter (Row.visibleTo (canonicalWorkspace workspaceKey) false)).map
          (env.projectRow timezoneName) = records.map .ok ∧
        query.pageOf ((records.filter (query.accepts env)).insertionSort laterFirst) = page := by
  unfold list
  dsimp only
  rw [Except.bind_ok_iff]
  constructor
  · rintro ⟨records, hrecords, h⟩
    cases h
    exact ⟨records, mapM_ok_iff.mp hrecords, rfl⟩
  · rintro ⟨records, hrecords, rfl⟩
    exact ⟨records, mapM_ok_iff.mpr hrecords, rfl⟩

end Operations

end Database

/-! ## Calls -/

section Calls

variable {svc : WorkLogService} {db db' : Database} {record : WorkLogRecord}

/-- The record is that of the row, which was stored for the workspace. -/
structure Stored (svc : WorkLogService) (owner : Workspace) (row : Row) (record : WorkLogRecord) :
    Prop where
  kind : isCanonicalId row.id = true ∨ isInboxAlias row.id = true
  names : ∃ content, row.workLog = some content ∧ namedWorkspace content = some owner
  read : Database.projectStored svc.env svc.repositoryTimezone row row.id = .ok record

theorem insertedRow_names (record : WorkLogRecord) (storageId : String) :
    ∃ content, (insertedRow record storageId).workLog = some content ∧
      namedWorkspace content = some record.workspaceKey :=
  ⟨canonicalContent record, rfl, rfl⟩

theorem Except.ok_of_mapError_ok {ε ε' α : Type} {f : ε → ε'} {x : Except ε α} {a : α}
    (h : x.mapError f = .ok a) : x = .ok a := by
  cases x with
  | error => cases h
  | ok => cases h; rfl

theorem WorkLogService.subset_createAttempts {traceId : String} {make : String → WorkLogRecord}
    {newIds : List String} (svc : WorkLogService) (db : Database) :
    db.rows ⊆ (svc.createAttempts db traceId make newIds).2.rows := by
  induction newIds generalizing db with
  | nil => exact List.Subset.refl _
  | cons hex newIds ih =>
    unfold createAttempts
    split
    · exact List.Subset.refl _
    · rename_i made _
      have hsub := Database.subset_create db svc.env svc.repositoryTimezone made
      split
      · rename_i after hcreate
        rw [hcreate] at hsub
        exact List.Subset.trans hsub (ih after)
      · rename_i after _ hcreate
        rw [hcreate] at hsub
        exact hsub

/-- An attempt that answers a record has stored it. -/
theorem WorkLogService.stored_createAttempts {traceId : String} {make : String → WorkLogRecord}
    {newIds : List String} {owner : Workspace}
    (hmake : ∀ id, orDefaults (make id).workspaceKey = owner)
    (h : svc.createAttempts db traceId make newIds = (.ok record, db')) :
    ∃ row ∈ db'.rows, row.id = record.id ∧ Stored svc owner row record := by
  induction newIds generalizing db with
  | nil => cases h
  | cons hex newIds ih =>
    unfold createAttempts at h
    split at h
    · cases h
    · rename_i made hmade
      split at h
      · exact ih h
      · rename_i result after _ hcreate
        obtain ⟨hresult, rfl⟩ := Prod.mk.inj h
        obtain rfl := Except.ok_of_mapError_ok hresult
        unfold Database.create at hcreate
        split at hcreate
        · cases hcreate
        · rename_i hid
          rw [not_or, not_not, not_not] at hid
          split at hcreate
          · cases hcreate
          · rename_i hinsert
            obtain ⟨hread, rfl⟩ := Prod.mk.inj hcreate
            have hkind : isCanonicalId (insertedRow made made.id).id = true := hid.2
            refine ⟨insertedRow made made.id, Database.mem_insert hinsert,
              (id_of_projectRow hkind hread).symm, ?_⟩
            constructor
            · exact .inl hkind
            · obtain ⟨content, hlog, hnamed⟩ := insertedRow_names made made.id
              refine ⟨content, hlog, ?_⟩
              rw [hnamed, (WorkLogRecord.validate_spec hmade).2.2, hmake]
            · unfold Database.projectStored
              rw [if_neg]
              · exact hread
              · intro halias
                have hnot := not_isCanonicalId_of_isInboxAlias halias
                exact Bool.false_ne_true (hnot.symm.trans hkind)

/-- A target that is recovered was stored for the workspace. -/
theorem WorkLogService.stored_recover {workspaceKey : WorkspaceKey} {targetId itemId : String}
    (hkind : isCanonicalId targetId = true ∨ isInboxAlias targetId = true)
    (h : svc.recoverInboxTarget db workspaceKey targetId itemId = .ok record) :
    ∃ row ∈ db.rows, row.id = targetId ∧
      Stored svc (canonicalWorkspace workspaceKey) row record := by
  unfold recoverInboxTarget at h
  dsimp only at h
  split at h
  · cases h
  · cases h
  · cases h
  · rename_i found hget
    split at h
    · cases h
    · cases h
      obtain ⟨row, hrow, -, -, hscoped⟩ := Database.get_ok hget
      obtain ⟨hvisible, rfl, hread⟩ := hscoped hkind
      obtain ⟨content, hlog, hcomplete⟩ := Row.visibleTo_spec hvisible
      rw [canonicalWorkspace_canonicalKey] at hcomplete
      refine ⟨row, hrow, rfl, hkind, ⟨content, hlog, ?_⟩, hread⟩
      exact (Option.filter_eq_some_iff.mp hcomplete).1

/-- A call keeps the rows there are. -/
theorem Call.subset_run (svc : WorkLogService) (db : Database) (call : Call) :
    db.rows ⊆ (call.run svc db).2.rows := by
  cases call with
  | create workspaceKey command now newIds => exact svc.subset_createAttempts db
  | createFromInbox workspaceKey itemId subject rawText reservedId now =>
    unfold run WorkLogService.createFromInbox
    dsimp only
    split
    · exact List.Subset.refl _
    · split
      · exact List.Subset.refl _
      · split
        · exact List.Subset.refl _
        · rename_i made _
          have hsub := Database.subset_createFromInbox db svc.env svc.repositoryTimezone made
            (svc.inboxTargetId (Text.strip itemId) reservedId)
          split
          · rename_i hcreate
            rw [hcreate] at hsub
            exact hsub
          · rename_i hcreate
            rw [hcreate] at hsub
            exact hsub

/-- **A call that answers a record has stored it**, in a row that names the workspace of its key. -/
theorem Call.stored {call : Call} (h : call.run svc db = (.ok record, db')) :
    ∃ row ∈ db'.rows, row.id = call.fetchId svc record ∧
      Stored svc (canonicalWorkspace call.workspaceKey) row record := by
  cases call with
  | create workspaceKey command now newIds =>
    exact WorkLogService.stored_createAttempts (fun _ => orDefaults_canonicalWorkspace _) h
  | createFromInbox workspaceKey itemId subject rawText reservedId now =>
    unfold run WorkLogService.createFromInbox at h
    dsimp only at h
    split at h
    · cases h
    · split at h
      · cases h
      · rename_i hkind
        rw [not_not] at hkind
        split at h
        · cases h
        · rename_i made hmade
          split at h
          · obtain ⟨hrecover, rfl⟩ := Prod.mk.inj h
            exact WorkLogService.stored_recover hkind hrecover
          · rename_i result after _ hcreate
            obtain ⟨hresult, rfl⟩ := Prod.mk.inj h
            obtain rfl := Except.ok_of_mapError_ok hresult
            unfold Database.createFromInbox at hcreate
            split at hcreate
            · cases hcreate
            · split at hcreate
              · cases hcreate
              · rename_i hinsert
                obtain ⟨hread, rfl⟩ := Prod.mk.inj hcreate
                obtain ⟨content, hlog, hnamed⟩ := insertedRow_names made
                  (svc.inboxTargetId (Text.strip itemId) reservedId)
                have hstored : Stored svc (canonicalWorkspace workspaceKey)
                    (insertedRow made (svc.inboxTargetId (Text.strip itemId) reservedId))
                    record := by
                  refine ⟨hkind, ⟨content, hlog, ?_⟩, hread⟩
                  rw [hnamed, (WorkLogRecord.validate_spec hmade).2.2,
                    orDefaults_canonicalWorkspace]
                exact ⟨_, Database.mem_insert hinsert, rfl, hstored⟩

/-- Events keep the rows there are. -/
theorem WorkLogService.subset_step (svc : WorkLogService) (db : Database) (event : Event) :
    db.rows ⊆ (svc.step db event).rows := by
  cases event with
  | call call => exact call.subset_run svc db
  | stored row =>
    unfold step
    dsimp only
    cases hinsert : db.insert row with
    | none => exact List.Subset.refl _
    | some db' => exact Database.subset_insert hinsert

theorem WorkLogService.subset_runs (svc : WorkLogService) (db : Database) (events : List Event) :
    db.rows ⊆ (svc.runs db events).rows := by
  induction events generalizing db with
  | nil => exact List.Subset.refl _
  | cons event events ih =>
    exact List.Subset.trans (svc.subset_step db event) (ih (svc.step db event))

end Calls

/-! ## Isolation -/

/-- **The record is isolated**: the operations return it for its workspace, where every list that
accepts it holds it, and for no other workspace. -/
structure Isolated (svc : WorkLogService) (db : Database) (workspaceKey : WorkspaceKey)
    (id : String)
    (record : WorkLogRecord) : Prop where
  get : ∀ key, canonicalWorkspace key = canonicalWorkspace workspaceKey →
    svc.get db key id = .ok record
  list : ∀ key, canonicalWorkspace key = canonicalWorkspace workspaceKey → ∀ query : WorkLogQuery,
    query.accepts svc.env record = true →
      ∃ found, record ∈ found ∧ svc.list db key query = .ok (query.pageOf found)
  getOther : ∀ key, canonicalWorkspace key ≠ canonicalWorkspace workspaceKey → ∀ id,
    svc.get db key id ≠ .ok record
  listOther : ∀ key, canonicalWorkspace key ≠ canonicalWorkspace workspaceKey → ∀ query page,
    svc.list db key query = .ok page → record ∉ page.items

/-- Every row that the workspace sees can be read. -/
def Legible (svc : WorkLogService) (db : Database) (workspaceKey : WorkspaceKey) : Prop :=
  ∀ row ∈ db.rows, row.visibleTo (canonicalWorkspace workspaceKey) false = true →
    ∃ record, svc.env.projectRow svc.repositoryTimezone row = .ok record

section Law

variable {svc : WorkLogService} {db : Database} {record : WorkLogRecord} {row : Row}
  {key : WorkspaceKey} {owner : Workspace}

/-- What the service fetches, the repository does. -/
theorem WorkLogService.get_ok {id : String} (h : svc.get db key id = .ok record) :
    db.get svc.env svc.repositoryTimezone (canonicalKey key) (Text.strip id) = .ok record := by
  unfold get at h
  dsimp only at h
  split at h
  · cases h
  · exact Except.ok_of_mapError_ok h

/-- What the service lists was read from rows that the workspace sees, all of them readable. -/
theorem WorkLogService.list_ok {query : WorkLogQuery} {page : WorkLogPage}
    (h : svc.list db key query = .ok page) :
    Legible svc db key ∧ ∀ record ∈ page.items, ∃ row ∈ db.rows,
      row.visibleTo (canonicalWorkspace key) false = true ∧
      svc.env.projectRow svc.repositoryTimezone row = .ok record := by
  obtain ⟨records, hrecords, rfl⟩ := Database.list_ok_iff.mp (Except.ok_of_mapError_ok h)
  rw [canonicalWorkspace_canonicalKey] at hrecords
  constructor
  · intro row hrow hvisible
    have hmem : svc.env.projectRow svc.repositoryTimezone row ∈ records.map Except.ok := by
      rw [← hrecords]
      exact List.mem_map_of_mem (List.mem_filter.mpr ⟨hrow, hvisible⟩)
    obtain ⟨record, -, hrecord⟩ := List.mem_map.mp hmem
    exact ⟨record, hrecord.symm⟩
  · intro record hrecord
    have hsorted := List.mem_of_mem_drop (List.mem_of_mem_take hrecord)
    have hfound := List.mem_of_mem_filter ((List.perm_insertionSort _ _).mem_iff.mp hsorted)
    have hmem : Except.ok record ∈ records.map (Except.ok (ε := RepositoryError)) :=
      List.mem_map_of_mem hfound
    rw [← hrecords] at hmem
    obtain ⟨row, hrow, hread⟩ := List.mem_map.mp hmem
    obtain ⟨hrow, hvisible⟩ := List.mem_filter.mp hrow
    exact ⟨row, hrow, hvisible, hread⟩

/-- A readable list holds the record of every row that the workspace sees. -/
theorem WorkLogService.list_of_visible {query : WorkLogQuery} (hlegible : Legible svc db key)
    (hrow : row ∈ db.rows) (hvisible : row.visibleTo (canonicalWorkspace key) false = true)
    (hread : svc.env.projectRow svc.repositoryTimezone row = .ok record)
    (haccepts : query.accepts svc.env record = true) :
    ∃ found, record ∈ found ∧ svc.list db key query = .ok (query.pageOf found) := by
  let visible := db.rows.filter (Row.visibleTo (canonicalWorkspace key) false)
  have hall : ∀ row ∈ visible, ∃ record,
      svc.env.projectRow svc.repositoryTimezone row = .ok record := by
    intro row hrow
    obtain ⟨hrow, hvisible⟩ := List.mem_filter.mp hrow
    exact hlegible row hrow hvisible
  obtain ⟨records, hrecords⟩ : ∃ records : List WorkLogRecord,
      visible.map (svc.env.projectRow svc.repositoryTimezone) = records.map .ok := by
    clear_value visible
    induction visible with
    | nil => exact ⟨[], rfl⟩
    | cons row visible ih =>
      obtain ⟨record, hrecord⟩ := hall row (List.mem_cons_self ..)
      obtain ⟨records, hrecords⟩ := ih fun row hrow => hall row (List.mem_cons_of_mem _ hrow)
      exact ⟨record :: records, by rw [List.map_cons, List.map_cons, hrecord, hrecords]⟩
  have hmem : record ∈ records := by
    have hok : Except.ok record ∈ records.map (Except.ok (ε := RepositoryError)) := by
      rw [← hrecords, ← hread]
      exact List.mem_map_of_mem (List.mem_filter.mpr ⟨hrow, hvisible⟩)
    obtain ⟨_, hmem, hok⟩ := List.mem_map.mp hok
    cases hok
    exact hmem
  refine ⟨(records.filter (query.accepts svc.env)).insertionSort laterFirst, ?_, ?_⟩
  · exact (List.perm_insertionSort _ _).mem_iff.mpr (List.mem_filter.mpr ⟨hmem, haccepts⟩)
  · unfold list
    rw [Database.list_ok_iff.mpr ⟨records, by rw [canonicalWorkspace_canonicalKey]; exact hrecords,
      rfl⟩]
    rfl

/-- A row that names a component of blanks is shown to the default workspace. -/
theorem Stored.visibleTo_default (h : Stored svc owner row record) (hblank : ¬Marked owner) :
    row.visibleTo .default false = true := by
  obtain ⟨content, hlog, hnamed⟩ := h.names
  have hnone : completeWorkspace content = none := by
    unfold completeWorkspace
    rw [hnamed, Option.filter_some, if_neg (fun hcomplete => hblank
      ((completeInSql_iff owner).mp hcomplete))]
  unfold Row.visibleTo
  rw [hlog]
  simp only [hnone]
  rfl

theorem Stored.strip_id (h : Stored svc owner row record) : Text.strip row.id = row.id := by
  rcases h.kind with hkind | hkind
  · exact strip_hexAfter hkind rfl
  · exact strip_hexAfter hkind rfl

/-- The record of a row that names a workspace without components of blanks is fetched for it. -/
theorem Stored.get (h : Stored svc (canonicalWorkspace key) row record) (hrow : row ∈ db.rows)
    (hmarked : Marked (canonicalWorkspace key)) : svc.get db key row.id = .ok record := by
  obtain ⟨content, hlog, hnamed⟩ := h.names
  have hvisible : row.visibleTo (canonicalWorkspace (canonicalKey key)) true = true := by
    rw [canonicalWorkspace_canonicalKey, Row.visibleTo_complete hlog
      ((completeWorkspace_eq hnamed).mpr hmarked)]
  unfold WorkLogService.get
  dsimp only
  rw [h.strip_id, Database.get_of_visible hrow h.kind hvisible, h.read, if_neg]
  · rfl
  · rw [not_not]
    rcases h.kind with hkind | hkind
    · exact .inl hkind
    · exact .inr (.inr hkind)

/-- A stored record is isolated when no component of its workspace consists of blanks and the
workspace can read what it sees, and only then. -/
theorem Stored.isolated_iff (h : Stored svc (canonicalWorkspace key) row record)
    (hrow : row ∈ db.rows) :
    Isolated svc db key row.id record ↔
      Marked (canonicalWorkspace key) ∧ Legible svc db key := by
  have hread := projectRow_of_projectStored h.read
  obtain ⟨content, hlog, hnamed⟩ := h.names
  constructor
  · intro hisolated
    constructor
    · have hget := WorkLogService.get_ok (hisolated.get key rfl)
      rw [h.strip_id] at hget
      obtain ⟨other, hother, -, -, hscoped⟩ := Database.get_ok hget
      obtain ⟨hvisible, hid, -⟩ := hscoped h.kind
      rw [Database.eq_of_id hother hrow hid, canonicalWorkspace_canonicalKey] at hvisible
      obtain ⟨content', hlog', hcomplete⟩ := Row.visibleTo_spec hvisible
      obtain rfl : content' = content := Option.some.inj (hlog'.symm.trans hlog)
      exact (completeWorkspace_eq hnamed).mp hcomplete
    · obtain ⟨found, -, hlist⟩ := hisolated.list key rfl {} rfl
      exact (WorkLogService.list_ok hlist).1
  · rintro ⟨hmarked, hlegible⟩
    have hcomplete := (completeWorkspace_eq hnamed).mpr hmarked
    -- A record names its row, so another workspace would have to see the same row.
    have hother : ∀ key', canonicalWorkspace key' ≠ canonicalWorkspace key → ∀ other ∈ db.rows,
        other.visibleTo (canonicalWorkspace key') false = true →
        svc.env.projectRow svc.repositoryTimezone other ≠ .ok record := by
      intro key' hne other hmem hvisible hread'
      have hid : other.id = row.id :=
        (Environment.origin_projectRow hread').symm.trans (Environment.origin_projectRow hread)
      rw [Database.eq_of_id hmem hrow hid, Row.visibleTo_complete hlog hcomplete] at hvisible
      exact hne hvisible.symm
    constructor
    · intro key' hkey
      rw [← hkey] at h hmarked
      exact h.get hrow hmarked
    · intro key' hkey query haccepts
      refine WorkLogService.list_of_visible ?_ hrow ?_ hread haccepts
      · unfold Legible
        rw [hkey]
        exact hlegible
      · rw [Row.visibleTo_complete hlog hcomplete, hkey]
    · intro key' hne id hget
      obtain ⟨other, hmem, hvisible, hread', -⟩ :=
        Database.get_ok (WorkLogService.get_ok hget)
      rw [canonicalWorkspace_canonicalKey] at hvisible
      exact hother key' hne other hmem hvisible hread'
    · intro key' hne query page hlist hrecord
      obtain ⟨other, hmem, hvisible, hread'⟩ := (WorkLogService.list_ok hlist).2 record hrecord
      exact hother key' hne other hmem hvisible hread'

end Law

/-- **Records are isolated** in every run after the call that creates them, when no component of
their workspace consists of blanks and no row that the workspace sees is malformed, and only
then. -/
theorem record_isolation (svc : WorkLogService) (db db' : Database) (call : Call)
    (record : WorkLogRecord) (h : call.run svc db = (.ok record, db')) (events : List Event) :
    Isolated svc (svc.runs db' events) call.workspaceKey (call.fetchId svc record) record ↔
      Marked (canonicalWorkspace call.workspaceKey) ∧
        Legible svc (svc.runs db' events) call.workspaceKey := by
  obtain ⟨row, hrow, hid, hstored⟩ := Call.stored h
  rw [← hid]
  exact hstored.isolated_iff (svc.subset_runs db' events hrow)

/-! ## Runs from an empty table -/

/-- The empty table. -/
def Database.empty : Database := ⟨[], List.nodup_nil⟩

/-- The instant of the runs. -/
def noon : DateTime := ⟨2026, 7, 23, 12, 0, 0, 0, DateTime.valid_noon⟩

/-- A service whose environment reads the texts of that instant, and no others. -/
def reference : WorkLogService where
  env := {
    sha256 := id
    casefold := id
    zoneKnown := fun name => name = "UTC"
    datetimeOf := fun value => if value.text? = some noon.isoformat then some noon else none
    intOf := fun
      | .number "1" => some 1
      | _ => none
    str := fun value => value.text?.getD ""
    localInstant := fun text _ => .ok (if text = noon.isoformat then some noon else none) }
  repositoryTimezone := "UTC"
  timezoneName := "UTC"

/-- A record is created for this workspace. -/
def noted (tenantId : String) (newId : String := "11111111111111111111111111111111") : Call :=
  .create { tenantId, workspaceId := "alpha" }
    { subject := "inspection", rawText := "inspection", source := .api } noon [newId]

/-- A tenant of blanks: its record is not there for it, and is listed for the default workspace. -/
theorem blank_tenant_leaks : ∃ record,
    ((noted "   ").run reference .empty).1 = .ok record ∧
    ¬Isolated reference ((noted "   ").run reference .empty).2 (noted "   ").workspaceKey
      ((noted "   ").fetchId reference record) record ∧
    ∃ page, reference.list ((noted "   ").run reference .empty).2 {} {} = .ok page ∧
      page.items = [record] := by
  have hrun : (((noted "   ").run reference .empty).1.toOption.map fun record => [record]) =
      (reference.list ((noted "   ").run reference .empty).2 {} {}).toOption.map
        WorkLogPage.items ∧ ((noted "   ").run reference .empty).1.toOption.isSome = true := by
    decide +kernel
  cases hresult : ((noted "   ").run reference .empty).1 with
  | error e =>
    rw [hresult] at hrun
    cases hrun.2
  | ok record =>
    refine ⟨record, rfl, ?_, ?_⟩
    · obtain ⟨row, hrow, hid, hstored⟩ := Call.stored (Prod.ext hresult rfl)
      rw [← hid, hstored.isolated_iff hrow]
      exact fun h => absurd h.1 (by decide)
    · rw [hresult] at hrun
      cases hlist : reference.list ((noted "   ").run reference .empty).2 {} {} with
      | error e =>
        rw [hlist] at hrun
        cases hrun.1
      | ok page =>
        rw [hlist] at hrun
        exact ⟨page, rfl, (Option.some.inj hrun.1).symm⟩

/-- The table after a tenant with a name has created its record, and another one its own. -/
def shared : Database :=
  reference.runs ((noted "tenant").run reference .empty).2
    [.call (noted "other" "22222222222222222222222222222222")]

theorem record_isolation_named : shared.rows.length = 2 ∧ ∃ record,
    ((noted "tenant").run reference .empty).1 = .ok record ∧
    Isolated reference shared (noted "tenant").workspaceKey
      ((noted "tenant").fetchId reference record) record := by
  have hrun : ((noted "tenant").run reference .empty).1.toOption.isSome = true := by
    decide +kernel
  have hrows : ∀ row ∈ shared.rows,
      (reference.env.projectRow reference.repositoryTimezone row).toOption.isSome = true := by
    decide +kernel
  have hlegible : Legible reference shared (noted "tenant").workspaceKey := by
    intro row hrow _
    cases hread : reference.env.projectRow reference.repositoryTimezone row with
    | ok record => exact ⟨record, rfl⟩
    | error e =>
      have hsome := hrows row hrow
      rw [hread] at hsome
      cases hsome
  refine ⟨by decide +kernel, ?_⟩
  cases hresult : ((noted "tenant").run reference .empty).1 with
  | error e =>
    rw [hresult] at hrun
    cases hrun
  | ok record =>
    exact ⟨record, rfl, (record_isolation _ _ _ _ _ (Prod.ext hresult rfl)
      [.call (noted "other" "22222222222222222222222222222222")]).mpr ⟨by decide +kernel, hlegible⟩⟩

end WorkLogs
