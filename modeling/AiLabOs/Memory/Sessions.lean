import AiLabOs.Memory.Queries
import AiLabOs.Process.Conditioned
import AiLabOs.Process.Solo

/-!
# Memory: the episodes of a session

Episodes are retrieved and deleted by their session through a query for at most a hundred items,
which is not asked for the empty text. What is found is deleted one by one, and episodes of other
sessions may be saved meanwhile.

## Main definitions

* `Episode`, `EpisodeTable`: what `save_episode` saves, and the table of it
* `retrieveEpisode`, `deleteBySession`: the calls
* `spares`: the saves meanwhile are of other sessions, and replace no episode of this one
* `Left`: what saves and deletions leave

## Main results

* `Left.deleteEach`: deleting what was found
* `sessions_complete_iff`: when a session is retrieved and deleted completely
-/

namespace Memories

open Process

namespace Sessions

/-! ## Episodes -/

/-- What `save_episode` saves. -/
structure Episode where
  id : String
  sessionId : String
  agentId : String
  events : List Json := []
  summary : String := ""
  importance : Importance
  timestamp : Timestamp
deriving DecidableEq

/-- The item of an episode. -/
def Episode.item (episode : Episode) : MemoryItem where
  id := episode.id
  memoryType := .episodic
  content := .object [("session_id", .text episode.sessionId), ("agent_id", .text episode.agentId),
    ("events", .array episode.events), ("summary", .text episode.summary)]
  importance := episode.importance
  timestamp := episode.timestamp

/-- The table `episodic_memories`. -/
structure EpisodeTable where
  rows : List Episode
  unique : Table.Unique Episode.id rows

/-- The rows with one inserted, or replaced. -/
def saveRow (rows : List Episode) (episode : Episode) : List Episode :=
  rows.filter (fun row => row.id ≠ episode.id) ++ [episode]

/-- The rows with several saved, one after the other. -/
def saveRows (rows saves : List Episode) : List Episode := saves.foldl saveRow rows

namespace EpisodeTable

variable (table : EpisodeTable) (s : String)

/-- `save`: `INSERT OR REPLACE`. -/
def save (episode : Episode) : EpisodeTable where
  rows := saveRow table.rows episode
  unique := (table.unique.filter _).insert fun row hrow => by
    simpa using (List.mem_filter.mp hrow).2

/-- Several saves. -/
def saveAll (saves : List Episode) : EpisodeTable := saves.foldl save table

/-- `delete`. -/
def delete (id : String) : EpisodeTable where
  rows := table.rows.filter fun row => row.id ≠ id
  unique := table.unique.filter _

/-- The episodes of a session. -/
def ofSession : List Episode := table.rows.filter fun row => row.sessionId = s

/-- The episodes of all other sessions. -/
def others : List Episode := table.rows.filter fun row => row.sessionId ≠ s

end EpisodeTable

/-! ## The calls -/

inductive Action where
  | get (id : String)
  | query (spec : MemoryQuery)
  | delete (id : String)
  /-- `_publish_event`. -/
  | publish (memoryId : String)

abbrev Action.Reply : Action → Type
  | .get _ => Option MemoryItem
  | .query _ => List MemoryItem
  | .delete _ => Bool
  | .publish _ => Unit

/-- What happens before an action: the episodes saved since the last one, and the order in which the
database comes upon its rows. -/
structure Meanwhile where
  saves : List Episode
  scan : List Episode := []

/-- What an action does. -/
def handler (py : Platform) : Handler Action Action.Reply Meanwhile EpisodeTable
  | _, .get id, input, table =>
    let table := table.saveAll input.saves
    some ((table.rows.find? fun row => row.id = id).map Episode.item, table)
  | _, .query spec, input, table =>
    let table := table.saveAll input.saves
    if input.scan.Perm table.rows then
      some (EpisodicStore.query py spec (input.scan.map Episode.item), table)
    else none
  | _, .delete id, input, table =>
    let table := table.saveAll input.saves
    some (table.rows.any fun row => row.id = id, table.delete id)
  | _, .publish _, input, table => some ((), table.saveAll input.saves)

abbrev Prog (α : Type) := Program Action Action.Reply Empty α

/-- The query for a session. -/
def sessionQuery (sessionId : String) : MemoryQuery where
  memoryType := some .episodic
  filters := [("session_id", .text sessionId)]
  topK := 100

/-- A text that is given and not empty. -/
def given : Option String → Option String
  | some text => if text = "" then none else some text
  | none => none

/-- `retrieve_episode`. -/
def retrieveEpisode (episodeId sessionId : Option String) : Prog (List MemoryItem) :=
  match given episodeId, given sessionId with
  | some id, _ => Program.perform (Action.get id) >>= fun item => .ret (Option.toList item)
  | none, some id => Program.perform (Action.query (sessionQuery id))
  | none, none => .ret []

/-- The loop of `delete_by_session`. -/
def deleteEach (bus : Bool) : List MemoryItem → ℕ → Prog ℕ
  | [], count => .ret count
  | item :: items, count => Program.perform (.delete item.id) >>= fun deleted =>
    if deleted then
      (if bus then Program.perform (.publish item.id) else .ret ()) >>= fun _ =>
        deleteEach bus items (count + 1)
    else deleteEach bus items count

/-- `delete_by_session`, with an event bus or without one. -/
def deleteBySession (bus : Bool) (sessionId : String) : Prog ℕ :=
  retrieveEpisode none (some sessionId) >>= fun items => deleteEach bus items 0

/-- The saves are of other sessions, and none of them replaces an episode of this one. -/
def sparesRows (s : String) : EpisodeTable → List Episode → Bool
  | _, [] => true
  | table, episode :: saves =>
    decide (episode.sessionId ≠ s) &&
      table.rows.all (fun row => row.id ≠ episode.id || row.sessionId ≠ s) &&
      sparesRows s (table.save episode) saves

/-- The condition on what is saved before an action. -/
def spares (s : String) : ℕ → Action → Meanwhile → EpisodeTable → Bool :=
  fun _ _ input table => sparesRows s table input.saves

/-! ## What is left -/

section Tables

variable {s : String} {rows : List Episode} {table table' table'' : EpisodeTable}
  {saves saves' gone gone' : List Episode} {episode : Episode}

theorem saveRows_append (rows saves saves' : List Episode) :
    saveRows rows (saves ++ saves') = saveRows (saveRows rows saves) saves' :=
  List.foldl_append

/-- An episode of another session, saved among the other episodes. -/
theorem others_save (table : EpisodeTable) (h : episode.sessionId ≠ s) :
    (table.save episode).others s = saveRow (table.others s) episode := by
  unfold EpisodeTable.others EpisodeTable.save saveRow
  rw [List.filter_append, List.filter_cons_of_pos (by simpa using h), List.filter_nil,
    List.filter_filter, List.filter_filter]
  congr 1
  exact List.filter_congr fun row _ => Bool.and_comm ..

/-- A save that replaces no episode of the session leaves these as they are. -/
theorem ofSession_save (h : episode.sessionId ≠ s)
    (hspares : ∀ row ∈ table.rows, row.id = episode.id → row.sessionId ≠ s) :
    (table.save episode).ofSession s = table.ofSession s := by
  unfold EpisodeTable.ofSession EpisodeTable.save saveRow
  rw [List.filter_append, List.filter_cons_of_neg (by simpa using h), List.filter_nil,
    List.append_nil, List.filter_filter]
  refine List.filter_congr fun row hrow => ?_
  by_cases hs : row.sessionId = s
  · have hid : row.id ≠ episode.id := fun hid => hspares row hrow hid hs
    simp [hs, hid]
  · simp [hs]

/-- Episodes of other sessions, saved among the others. -/
theorem others_saveAll (h : ∀ episode ∈ saves, episode.sessionId ≠ s) :
    (table.saveAll saves).others s = saveRows (table.others s) saves := by
  induction saves generalizing table with
  | nil => rfl
  | cons episode saves ih =>
    rw [List.forall_mem_cons] at h
    have hrest : ((table.save episode).saveAll saves).others s =
        saveRows ((table.save episode).others s) saves := ih h.2
    rw [others_save table h.1] at hrest
    exact hrest

/-- **What saves and deletions leave**: of the other sessions the episodes that were there or are
saved, and of this one those that are not deleted. -/
structure Left (s : String) (saves gone : List Episode) (table table' : EpisodeTable) : Prop where
  foreign : ∀ episode ∈ saves, episode.sessionId ≠ s
  others : table'.others s = saveRows (table.others s) saves
  ofSession : table'.ofSession s = (table.ofSession s).filter (· ∉ gone)

namespace Left

theorem refl (s : String) (table : EpisodeTable) : Left s [] [] table table where
  foreign := nofun
  others := rfl
  ofSession := by simp

theorem trans (h : Left s saves gone table table') (h' : Left s saves' gone' table' table'') :
    Left s (saves ++ saves') (gone ++ gone') table table'' where
  foreign episode hmem :=
    (List.mem_append.mp hmem).elim (h.foreign episode) (h'.foreign episode)
  others := by rw [h'.others, h.others, saveRows_append]
  ofSession := by
    rw [h'.ofSession, h.ofSession, List.filter_filter]
    refine List.filter_congr fun row _ => ?_
    simp only [List.mem_append, not_or, Bool.decide_and]
    exact Bool.and_comm ..

/-- What saves leave that spare the session. -/
theorem saveAll (h : sparesRows s table saves = true) :
    Left s saves [] table (table.saveAll saves) := by
  induction saves generalizing table with
  | nil => exact refl s table
  | cons episode saves ih =>
    rw [sparesRows, Bool.and_eq_true, Bool.and_eq_true, decide_eq_true_eq, List.all_eq_true] at h
    obtain ⟨⟨hother, hspares⟩, hrest⟩ := h
    have hfree : ∀ row ∈ table.rows, row.id = episode.id → row.sessionId ≠ s := by
      intro row hrow hid
      simpa [hid] using hspares row hrow
    have hfirst : Left s [episode] [] table (table.save episode) := by
      refine ⟨List.forall_mem_singleton.mpr hother, others_save table hother, ?_⟩
      rw [ofSession_save hother hfree]
      simp
    exact hfirst.trans (ih hrest)

/-- What the deletion of an episode of the session leaves. -/
theorem delete (hmem : episode ∈ table.ofSession s) :
    Left s [] [episode] table (table.delete episode.id) := by
  obtain ⟨hrow, hs⟩ := List.mem_filter.mp hmem
  rw [decide_eq_true_eq] at hs
  refine ⟨nofun, ?_, ?_⟩
  · unfold EpisodeTable.others EpisodeTable.delete
    rw [List.filter_filter]
    refine List.filter_congr fun row hin => ?_
    by_cases hid : row.id = episode.id
    · rw [table.unique.eq hin hrow hid]
      simp [hs]
    · simp [hid]
  · unfold EpisodeTable.ofSession EpisodeTable.delete
    rw [List.filter_filter, List.filter_filter]
    refine List.filter_congr fun row hin => ?_
    have hiff : row.id = episode.id ↔ row = episode :=
      ⟨fun hid => table.unique.eq hin hrow hid, fun heq => heq ▸ rfl⟩
    simp [hiff, Bool.and_comm]

/-- The table holds exactly the episodes of other sessions when none of this one is left. -/
theorem rows_perm_iff (h : Left s saves gone table table') :
    table'.rows.Perm ((table.saveAll saves).others s) ↔ table'.ofSession s = [] := by
  rw [others_saveAll h.foreign, ← h.others]
  constructor
  · intro hperm
    refine List.filter_eq_nil_iff.mpr fun row hrow => ?_
    simpa using (List.mem_filter.mp (hperm.mem_iff.mp hrow)).2
  · intro hnone
    refine .of_eq (List.filter_eq_self.mpr fun row hrow => ?_).symm
    simpa using List.filter_eq_nil_iff.mp hnone row hrow

/-- What is not gone is still there. -/
theorem mem (h : Left s saves gone table table') (hmem : episode ∈ table.ofSession s)
    (hnot : episode ∉ gone) : episode ∈ table'.ofSession s := by
  rw [h.ofSession, List.mem_filter]
  exact ⟨hmem, decide_eq_true hnot⟩

end Left

end Tables

/-! ## Runs -/

section Runs

variable {py : Platform} {s : String} {i : ℕ} {e : Action} {input : Meanwhile}
  {table table' : EpisodeTable}

/-- The run of a call alone, but for the saves between its actions, which spare a session. -/
abbrev runSparing {α : Type} (py : Platform) (s : String) (inputs : List Meanwhile) (p : Prog α)
    (table : EpisodeTable) : Option (Outcome Empty α × Log Action Action.Reply × EpisodeTable) :=
  runAlone (guarded (handler py) (spares s)) 0 inputs p [] table

theorem publish_left {id : String} {r : Unit}
    (h : guarded (handler py) (spares s) i (.publish id) input table = some (r, table')) :
    Left s input.saves [] table table' := by
  obtain ⟨hspares, hr⟩ := guarded_eq_some.mp h
  obtain ⟨-, rfl⟩ := Prod.mk.inj (Option.some.inj hr)
  exact .saveAll hspares

theorem query_left {spec : MemoryQuery} {r : List MemoryItem}
    (h : guarded (handler py) (spares s) i (.query spec) input table = some (r, table')) :
    Left s input.saves [] table table' := by
  obtain ⟨hspares, hr⟩ := guarded_eq_some.mp h
  dsimp only [handler] at hr
  split at hr
  · obtain ⟨-, rfl⟩ := Prod.mk.inj (Option.some.inj hr)
    exact .saveAll hspares
  · cases hr

/-- The deletion of an episode of the session. -/
theorem delete_left {episode : Episode} {r : Bool} (hmem : episode ∈ table.ofSession s)
    (h : guarded (handler py) (spares s) i (.delete episode.id) input table = some (r, table')) :
    r = true ∧ Left s input.saves [episode] table table' := by
  obtain ⟨hspares, hr⟩ := guarded_eq_some.mp h
  obtain ⟨hfound, rfl⟩ := Prod.mk.inj (Option.some.inj hr)
  have hsaves : Left s input.saves [] table (table.saveAll input.saves) := .saveAll hspares
  have hstill : episode ∈ (table.saveAll input.saves).ofSession s :=
    hsaves.mem hmem List.not_mem_nil
  constructor
  · rw [← hfound, List.any_eq_true]
    exact ⟨episode, (List.mem_filter.mp hstill).1, decide_eq_true rfl⟩
  · simpa using hsaves.trans (.delete hstill)

/-- **Deleting what was found**: all of it goes, and is counted. -/
theorem Left.deleteEach {bus : Bool} {read : List Episode} {inputs : List Meanwhile} {n m : ℕ}
    {log log' : Log Action Action.Reply} (hread : ∀ episode ∈ read, episode ∈ table.ofSession s)
    (hnodup : read.Nodup)
    (hrun : runAlone (guarded (handler py) (spares s)) i inputs
      (Sessions.deleteEach bus (read.map Episode.item) n) log table =
        some (.returned m, log', table')) :
    m = n + read.length ∧ Left s (inputs.flatMap Meanwhile.saves) read table table' := by
  induction read generalizing inputs n log table with
  | nil =>
    obtain ⟨rfl, hout⟩ := runAlone_ret hrun
    cases hout
    exact ⟨rfl, .refl s _⟩
  | cons episode read ih =>
    have hrest := List.nodup_cons.mp hnodup
    rw [List.map_cons, Sessions.deleteEach] at hrun
    obtain ⟨input, inputs, r, table₁, rfl, hr, hrun⟩ := runAlone_perform hrun
    obtain ⟨rfl, hfirst⟩ := delete_left (hread episode (List.mem_cons_self ..)) hr
    rw [if_pos rfl] at hrun
    have hafter : ∀ {saves : List Episode} {table₂ : EpisodeTable},
        Left s saves [episode] table table₂ → ∀ later ∈ read, later ∈ table₂.ofSession s := by
      intro saves table₂ hleft later hlater
      refine hleft.mem (hread later (List.mem_cons_of_mem _ hlater)) fun hmem => ?_
      rw [List.mem_singleton] at hmem
      exact hrest.1 (hmem ▸ hlater)
    cases bus with
    | false =>
      obtain ⟨hcount, hleft⟩ := ih (hafter hfirst) hrest.2 hrun
      refine ⟨?_, hfirst.trans hleft⟩
      rw [hcount, List.length_cons]
      omega
    | true =>
      obtain ⟨published, inputs, r, table₂, rfl, hr, hrun⟩ := runAlone_perform hrun
      have hsecond : Left s (input.saves ++ published.saves) [episode] table table₂ := by
        simpa using hfirst.trans (publish_left hr)
      obtain ⟨hcount, hleft⟩ := ih (hafter hsecond) hrest.2 hrun
      refine ⟨?_, ?_⟩
      · rw [hcount, List.length_cons]
        omega
      · simpa [List.append_assoc] using hsecond.trans hleft

/-! ## The query for a session -/

/-- The query for a session selects its episodes. -/
theorem episodicAccepts_item (hstr : py.str (.text s) = s) (episode : Episode) :
    episodicAccepts py (sessionQuery s) episode.item = decide (episode.sessionId = s) := by
  have hextract : jsonExtract py episode.item.content "session_id" = some episode.sessionId := rfl
  have htype : episode.item.memoryType = .episodic := rfl
  simp [episodicAccepts, sqlConditions, sessionQuery, episodicKeys, hextract, hstr, htype]

/-- Higher importance first. -/
def episodeOrder (a b : Episode) : Prop := moreImportant a.item b.item

instance : DecidableRel episodeOrder := fun a b =>
  inferInstanceAs (Decidable (moreImportant a.item b.item))

/-- What the query finds. -/
def found (s : String) (scan : List Episode) : List Episode :=
  ((scan.filter fun row => row.sessionId = s).insertionSort episodeOrder).take 100

theorem query_eq (hstr : py.str (.text s) = s) (scan : List Episode) :
    EpisodicStore.query py (sessionQuery s) (scan.map Episode.item) =
      (found s scan).map Episode.item := by
  have hfilter : (scan.map Episode.item).filter (episodicAccepts py (sessionQuery s)) =
      (scan.filter fun row => row.sessionId = s).map Episode.item := by
    rw [List.filter_map]
    congr 1
    exact List.filter_congr fun row _ => episodicAccepts_item hstr row
  rw [EpisodicStore.query, hfilter, found, List.map_take]
  congr 1
  exact (List.map_insertionSort episodeOrder moreImportant Episode.item _
    fun a _ b _ => Iff.rfl).symm

theorem length_found {scan : List Episode} (h : scan.Perm table.rows) :
    (found s scan).length = min 100 (table.ofSession s).length := by
  rw [found, List.length_take, List.length_insertionSort, EpisodeTable.ofSession,
    (h.filter _).length_eq]

theorem found_subset {scan : List Episode} (h : scan.Perm table.rows) :
    ∀ episode ∈ found s scan, episode ∈ table.ofSession s := fun _ hmem =>
  (h.filter _).mem_iff.mp ((List.perm_insertionSort ..).mem_iff.mp (List.mem_of_mem_take hmem))

theorem found_nodup {scan : List Episode} (h : scan.Perm table.rows) : (found s scan).Nodup := by
  have hrows : table.rows.Nodup := List.Nodup.of_map _ table.unique
  refine List.Nodup.sublist (List.take_sublist ..) ?_
  exact (List.perm_insertionSort ..).nodup_iff.mpr ((h.nodup_iff.mpr hrows).filter _)

/-- All of a session is found when it has at most a hundred episodes. -/
theorem found_perm {scan : List Episode} (h : scan.Perm table.rows)
    (hfew : (table.ofSession s).length ≤ 100) : (found s scan).Perm (table.ofSession s) := by
  rw [found, List.take_of_length_le]
  · exact (List.perm_insertionSort ..).trans (h.filter _)
  · rw [List.length_insertionSort, (h.filter _).length_eq]
    exact hfew

/-! ## Completeness -/

/-- **A session that is retrieved and deleted completely**: it has no more than a hundred episodes,
and none if its identifier is empty. -/
def Complete (s : String) (table : EpisodeTable) : Prop :=
  if s = "" then (table.ofSession s).length = 0 else (table.ofSession s).length ≤ 100

/-- What the retrieval of a session answers. -/
theorem retrieve_of_run {inputs : List Meanwhile} {items : List MemoryItem}
    {log log' : Log Action Action.Reply}
    (hstr : py.str (.text s) = s) (hne : s ≠ "")
    (hrun : runAlone (handler py) i inputs (retrieveEpisode none (some s)) log table =
      some (.returned items, log', table')) :
    ∃ scan : List Episode, scan.Perm table'.rows ∧ items = (found s scan).map Episode.item := by
  have hgiven : given (some s) = some s := if_neg hne
  unfold retrieveEpisode at hrun
  rw [hgiven] at hrun
  obtain ⟨input, rest, r, table₁, -, hr, hrun⟩ := runAlone_perform (f := .ret) hrun
  obtain ⟨-, hout⟩ := runAlone_ret hrun
  obtain ⟨houtcome, hout⟩ := Prod.mk.inj hout
  obtain ⟨-, rfl⟩ := Prod.mk.inj hout
  cases houtcome
  dsimp only [handler] at hr
  split at hr
  · rename_i hscan
    obtain ⟨rfl, rfl⟩ := Prod.mk.inj (Option.some.inj hr)
    exact ⟨input.scan, hscan, query_eq hstr _⟩
  · cases hr

/-- **When a session is retrieved completely**. -/
theorem retrieve_perm_iff {inputs : List Meanwhile} {items : List MemoryItem}
    {log log' : Log Action Action.Reply} (hstr : py.str (.text s) = s)
    (hrun : runAlone (handler py) i inputs (retrieveEpisode none (some s)) log table =
      some (.returned items, log', table')) :
    items.Perm ((table'.ofSession s).map Episode.item) ↔ Complete s table' := by
  unfold Complete
  by_cases hempty : s = ""
  · have hgiven : given (some s) = none := if_pos hempty
    unfold retrieveEpisode at hrun
    rw [hgiven] at hrun
    obtain ⟨-, hout⟩ := runAlone_ret hrun
    cases hout
    rw [if_pos hempty, List.nil_perm, List.map_eq_nil_iff, List.length_eq_zero_iff]
  · obtain ⟨scan, hscan, rfl⟩ := retrieve_of_run hstr hempty hrun
    rw [if_neg hempty]
    constructor
    · intro hperm
      have hlength := hperm.length_eq
      rw [List.length_map, List.length_map, length_found hscan] at hlength
      omega
    · intro hfew
      exact (found_perm hscan hfew).map _

/-- What a deletion leaves, and its count. -/
theorem delete_of_run {bus : Bool} {inputs : List Meanwhile} {n : ℕ}
    {log' : Log Action Action.Reply} (hstr : py.str (.text s) = s)
    (hrun : runSparing py s inputs (deleteBySession bus s) table =
      some (.returned n, log', table')) :
    ∃ read : List Episode, n = read.length ∧
      Left s (inputs.flatMap Meanwhile.saves) read table table' ∧
      if s = "" then read = [] else
        read.length = min 100 (table.ofSession s).length ∧
          ((table.ofSession s).length ≤ 100 → read.Perm (table.ofSession s)) := by
  by_cases hempty : s = ""
  · have hgiven : given (some s) = none := if_pos hempty
    unfold runSparing deleteBySession retrieveEpisode at hrun
    rw [hgiven] at hrun
    obtain ⟨rfl, hout⟩ := runAlone_ret hrun
    cases hout
    exact ⟨[], rfl, .refl s _, by rw [if_pos hempty]⟩
  · have hgiven : given (some s) = some s := if_neg hempty
    unfold runSparing deleteBySession retrieveEpisode at hrun
    rw [hgiven] at hrun
    obtain ⟨input, inputs, items, table₁, rfl, hr, hrun⟩ := runAlone_perform hrun
    have hfirst := query_left hr
    obtain ⟨-, hr⟩ := guarded_eq_some.mp hr
    dsimp only [handler] at hr
    split at hr
    · rename_i hscan
      obtain ⟨rfl, rfl⟩ := Prod.mk.inj (Option.some.inj hr)
      rw [query_eq hstr] at hrun
      have hsame : (table.saveAll input.saves).ofSession s = table.ofSession s := by
        rw [hfirst.ofSession]
        simp
      obtain ⟨hcount, hleft⟩ := Left.deleteEach (found_subset hscan) (found_nodup hscan) hrun
      refine ⟨found s input.scan, by omega, ?_, ?_⟩
      · simpa using hfirst.trans hleft
      · rw [if_neg hempty, ← hsame]
        exact ⟨length_found hscan, found_perm hscan⟩
    · cases hr

/-- **When a session is deleted completely**, while episodes of others are saved that spare it. -/
theorem delete_complete_iff {bus : Bool} {inputs : List Meanwhile} {n : ℕ}
    {log' : Log Action Action.Reply} (hstr : py.str (.text s) = s)
    (hrun : runSparing py s inputs (deleteBySession bus s) table =
      some (.returned n, log', table')) :
    (table'.rows.Perm ((table.saveAll (inputs.flatMap Meanwhile.saves)).others s) ∧
      n + (table'.ofSession s).length = (table.ofSession s).length) ↔ Complete s table := by
  obtain ⟨read, rfl, hleft, hread⟩ := delete_of_run hstr hrun
  rw [hleft.rows_perm_iff]
  unfold Complete
  by_cases hempty : s = ""
  · rw [if_pos hempty] at hread ⊢
    subst hread
    have hsame : table'.ofSession s = table.ofSession s := by
      rw [hleft.ofSession]
      simp
    rw [hsame, List.length_eq_zero_iff]
    simp
  · rw [if_neg hempty] at hread ⊢
    obtain ⟨hlength, hall⟩ := hread
    constructor
    · rintro ⟨hnone, hcount⟩
      rw [hnone, List.length_nil] at hcount
      omega
    · intro hfew
      have hnone : table'.ofSession s = [] := by
        rw [hleft.ofSession, List.filter_eq_nil_iff]
        intro row hrow
        simpa using (hall hfew).mem_iff.mpr hrow
      refine ⟨hnone, ?_⟩
      rw [hnone, List.length_nil, hlength]
      omega

/-- A deletion returns, also with no saves between its actions. -/
theorem exists_runSparing {α : Type} (py : Platform) (s : String) (p : Prog α)
    (log : Log Action Action.Reply) (table : EpisodeTable) :
    ∃ inputs a log' table', (∀ input ∈ inputs, input.saves = []) ∧
      runAlone (guarded (handler py) (spares s)) 0 inputs p log table =
        some (.returned a, log', table') := by
  induction p generalizing log table with
  | ret a => exact ⟨[], a, log, table, nofun, rfl⟩
  | raise x => exact x.elim
  | await e next ih =>
    let quiet : Meanwhile := { saves := [], scan := table.rows }
    obtain ⟨r, table₁, hr⟩ : ∃ r table₁,
        guarded (handler py) (spares s) 0 e quiet table = some (r, table₁) := by
      cases e with
      | query spec => exact ⟨_, _, guarded_eq_some.mpr ⟨rfl, if_pos (List.Perm.refl _)⟩⟩
      | get id => exact ⟨_, _, guarded_eq_some.mpr ⟨rfl, rfl⟩⟩
      | delete id => exact ⟨_, _, guarded_eq_some.mpr ⟨rfl, rfl⟩⟩
      | publish id => exact ⟨_, _, guarded_eq_some.mpr ⟨rfl, rfl⟩⟩
    obtain ⟨inputs, a, log', table', hquiet, hrun⟩ := ih r (log ++ [⟨e, r⟩]) table₁
    refine ⟨quiet :: inputs, a, log', table', List.forall_mem_cons.mpr ⟨rfl, hquiet⟩, ?_⟩
    rw [runAlone, hr]
    exact hrun

/-- So does a retrieval. -/
theorem exists_retrieve (py : Platform) (s : String) (table : EpisodeTable) :
    ∃ inputs items log, runAlone (handler py) 0 inputs (retrieveEpisode none (some s)) [] table =
      some (.returned items, log, table) := by
  unfold retrieveEpisode
  by_cases hempty : s = ""
  · have hgiven : given (some s) = none := if_pos hempty
    rw [hgiven]
    exact ⟨[], [], [], rfl⟩
  · have hgiven : given (some s) = some s := if_neg hempty
    let items := EpisodicStore.query py (sessionQuery s) (table.rows.map Episode.item)
    have hr : handler py 0 (.query (sessionQuery s)) { saves := [], scan := table.rows } table =
        some (items, table) :=
      if_pos (List.Perm.refl _)
    refine ⟨[{ saves := [], scan := table.rows }], items, [⟨.query (sessionQuery s), items⟩], ?_⟩
    rw [hgiven]
    dsimp only [given, Program.perform, runAlone]
    rw [hr]
    rfl

end Runs

/-- **When the episodes of a session are retrieved and deleted completely**: a retrieval answers
with the episodes of the session exactly when it has no more than a hundred, and none for the empty
text. Under the same condition a deletion leaves the episodes of all other sessions, those that are
saved meanwhile included, and returns the number it removed, provided that none of these replaces an
episode of the session. -/
theorem sessions_complete_iff (py : Platform) (hstr : ∀ text, py.str (.text text) = text)
    (s : String) (table : EpisodeTable) :
    ((∀ inputs items log table',
        runAlone (handler py) 0 inputs (retrieveEpisode none (some s)) [] table =
          some (.returned items, log, table') →
        (items.Perm ((table'.ofSession s).map Episode.item) ↔ Complete s table')) ∧
      ∃ inputs items log, runAlone (handler py) 0 inputs (retrieveEpisode none (some s)) [] table =
        some (.returned items, log, table)) ∧
    ∀ bus, (∀ inputs n log table',
        runSparing py s inputs (deleteBySession bus s) table = some (.returned n, log, table') →
        ((table'.rows.Perm ((table.saveAll (inputs.flatMap Meanwhile.saves)).others s) ∧
          n + (table'.ofSession s).length = (table.ofSession s).length) ↔ Complete s table)) ∧
      ∃ inputs n log table', (∀ input ∈ inputs, input.saves = []) ∧
        runSparing py s inputs (deleteBySession bus s) table = some (.returned n, log, table') :=
  ⟨⟨fun _ _ _ _ hrun => retrieve_perm_iff (hstr s) hrun, exists_retrieve py s table⟩,
    fun _ => ⟨fun _ _ _ _ hrun => delete_complete_iff (hstr s) hrun,
      exists_runSparing py s _ [] table⟩⟩

/-- An episode of a session. -/
def episodeOf (sessionId id : String) : Episode where
  id
  sessionId
  agentId := "agent_analyst"
  importance := ⟨1, within_one⟩
  timestamp := ⟨⟨2026, 7, 23, 12, 0, 0, 0, DateTime.valid_noon⟩, none⟩

/-- One episode. -/
def oneEpisode : EpisodeTable := ⟨[episodeOf "sess_001" "a"], List.nodup_singleton _⟩

/-- An episode of another session is saved before the only one is deleted. -/
def savedBetween : List Meanwhile :=
  [{ saves := [], scan := oneEpisode.rows }, { saves := [episodeOf "sess_002" "b"] }]

theorem sessions_complete_iff_savedBetween :
    ∃ n log table', runSparing utc "sess_001" savedBetween (deleteBySession false "sess_001")
        oneEpisode = some (.returned n, log, table') ∧
      table'.rows.Perm ((oneEpisode.saveAll [episodeOf "sess_002" "b"]).others "sess_001") := by
  have hsome : (runSparing utc "sess_001" savedBetween (deleteBySession false "sess_001")
      oneEpisode).isSome = true := by decide +kernel
  obtain ⟨⟨o, log, table'⟩, hrun⟩ := Option.isSome_iff_exists.mp hsome
  cases o with
  | raised x => exact x.elim
  | returned n =>
    have hall := (((sessions_complete_iff utc (fun _ => rfl) "sess_001" oneEpisode).2 false).1
      savedBetween n log table' hrun).mpr (by unfold Complete; decide +kernel)
    exact ⟨n, log, table', hrun, hall.1⟩

/-- An episode of another session that replaces the one that was found is deleted in its place. -/
theorem replaced_deleted :
    (runAlone (handler utc) 0 [{ saves := [], scan := oneEpisode.rows },
        { saves := [episodeOf "sess_002" "a"] }] (deleteBySession false "sess_001") []
      oneEpisode).map (fun out => out.2.2.rows) = some [] := by
  decide +kernel

/-- A session with a hundred and one episodes. -/
def longSession : EpisodeTable where
  rows := (List.range 101).map fun i => episodeOf "sess_001" (toString i)
  unique := by
    unfold Table.Unique
    decide +kernel

/-- **A long session** is neither retrieved nor deleted completely. -/
theorem longSession_left :
    ¬(∀ (s : String) (table : EpisodeTable) inputs items log table',
      runAlone (handler utc) 0 inputs (retrieveEpisode none (some s)) [] table =
        some (.returned items, log, table') →
      items.Perm ((table'.ofSession s).map Episode.item)) ∧
    ¬∀ (s : String) (table : EpisodeTable) bus inputs n log table',
      runSparing utc s inputs (deleteBySession bus s) table = some (.returned n, log, table') →
      table'.rows.Perm ((table.saveAll (inputs.flatMap Meanwhile.saves)).others s) ∧
        n + (table'.ofSession s).length = (table.ofSession s).length := by
  have hlong : ¬Complete "sess_001" longSession := by
    unfold Complete
    decide +kernel
  constructor
  · intro h
    obtain ⟨inputs, items, log, hrun⟩ := exists_retrieve utc "sess_001" longSession
    exact hlong ((retrieve_perm_iff rfl hrun).mp (h _ _ _ _ _ _ hrun))
  · intro h
    obtain ⟨inputs, n, log, table', -, hrun⟩ :=
      exists_runSparing utc "sess_001" (deleteBySession false "sess_001") [] longSession
    exact hlong ((delete_complete_iff rfl hrun).mp (h _ _ _ _ _ _ _ hrun))

end Sessions

end Memories
