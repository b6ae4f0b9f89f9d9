import AiLabOs.Base.Assoc
import AiLabOs.Process.Program
import AiLabOs.Process.Locks

/-!
# Process-scoped database connections

The manager opens one connection for each logical database and lends it to threads. Each database
has a re-entrant lock, which a lease holds while its connection is lent. Between the locks of the
databases and the lock of the manager, which covers single looks at its tables, the threads
interleave.

## Main definitions

* `World`, `Action`, `handler`: the tables of the manager, and what is done to them at once
* `getConnection`, `lease`, `close`, `closeAll`, `healthCheck`, `health`: the manager
* `Client`: what a thread does with it
-/

namespace Databases

open Process Program

/-! ## The world -/

/-- The tables of a `DatabaseManager`, the connections it has opened, and who closed them. -/
structure World where
  paths : List (String × String) := []
  locks : Locks String := fun _ => none
  connections : List (String × ℕ) := []
  everOpened : Bool := false
  /-- The name and the path each connection was opened for, in order. -/
  opened : List (String × String) := []
  /-- The thread that closed a connection. -/
  closedBy : ℕ → Option ℕ := fun _ => none
  /-- A connection that was opened for a name and is not in the table yet. -/
  pending : String → Option ℕ := fun _ => none

/-- The connection was opened for the name. -/
def World.OpenedFor (w : World) (n : ℕ) (name : String) : Prop :=
  ∃ path, w.opened[n]? = some (name, path)

inductive Exn where
  /-- `DatabasePathConflictError`. -/
  | pathConflict (name : String)
  /-- An error of the database, or of the file system when it is opened. -/
  | sqlite
  /-- `RuntimeError` of `close_all`. -/
  | failedToClose (count : ℕ)
  /-- What the body of a lease raises itself. -/
  | client
deriving DecidableEq, Repr

/-- What is done at once: under the lock of the manager, or by the database. -/
inductive Action where
  | bindPath (name path : String)
  | readPath (name : String)
  | acquire (name : String)
  | release (name : String)
  | readConnection (name : String)
  | readNames
  /-- `conn.execute("SELECT 1")`. -/
  | probe (n : ℕ)
  /-- `conn.close()`. -/
  | close (name : String) (n : ℕ)
  /-- Takes the connection out of the table, if it is still there. -/
  | pop (name : String) (n : ℕ)
  /-- `open_sqlite_connection`. -/
  | connect (name path : String)
  | store (name : String) (n : ℕ)
  /-- A statement of the body of a lease. -/
  | execute (name : String) (n : ℕ)
deriving DecidableEq, Repr

abbrev Reply : Action → Type
  | .bindPath _ _ => Except Exn String
  | .readPath _ => Option String
  | .acquire _ | .release _ => Unit
  | .readConnection _ => Option ℕ
  | .readNames => List String × Bool
  | .probe _ => Bool
  | .close _ _ => Bool
  | .pop _ _ => Unit
  | .connect _ _ => Option ℕ
  | .store _ _ => Unit
  | .execute _ _ => Bool

namespace World

variable (w : World)

/-- The connection is closed by the thread, unless it is closed already. -/
def closeBy (i n : ℕ) : World :=
  { w with closedBy := Function.update w.closedBy n (some ((w.closedBy n).getD i)) }

def popConnection (name : String) (n : ℕ) : World :=
  if Assoc.get w.connections name = some n then
    { w with connections := Assoc.pop w.connections name }
  else w

def connect (name path : String) : World :=
  { w with
    opened := w.opened ++ [(name, path)]
    pending := Function.update w.pending name (some w.opened.length) }

def store (name : String) (n : ℕ) : World :=
  { w with
    connections := Assoc.set w.connections name n
    everOpened := true
    pending := Function.update w.pending name none }

end World

/-- The environment decides whether the database does what it is asked; a closed connection does
nothing. -/
def handler : Handler Action Reply Bool World := fun i action works w =>
  match action with
  | .bindPath name path =>
    match Assoc.get w.paths name with
    | some current =>
      if current = path then some (.ok path, w) else some (.error (.pathConflict name), w)
    | none => some (.ok path, { w with paths := Assoc.set w.paths name path })
  | .readPath name => some (Assoc.get w.paths name, w)
  | .acquire name => (w.locks.acquire i name).map fun locks => ((), { w with locks := locks })
  | .release name => (w.locks.release i name).map fun locks => ((), { w with locks := locks })
  | .readConnection name => some (Assoc.get w.connections name, w)
  | .readNames => some ((w.connections.map Prod.fst, w.everOpened), w)
  | .probe n => some (works && (w.closedBy n).isNone, w)
  | .close _ n => if works then some (true, w.closeBy i n) else some (false, w)
  | .pop name n => some ((), w.popConnection name n)
  | .connect name path =>
    if works then some (some w.opened.length, w.connect name path) else some (none, w)
  | .store name n => some ((), w.store name n)
  | .execute _ n => some (works && (w.closedBy n).isNone, w)

/-! ## The manager -/

abbrev DbProgram (α : Type) := Program Action Reply Exn α

abbrev act (action : Action) : DbProgram (Reply action) := perform action

section Manager

variable (basePath : String)

def bindPath (name path : String) : DbProgram String := do
  match ← act (.bindPath name path) with
  | .ok resolved => .ret resolved
  | .error exn => .raise exn

def getPath (name : String) (dbPath : Option String) : DbProgram String :=
  match dbPath with
  | some path => bindPath name path
  | none => do
    match ← act (.readPath name) with
    | some current => .ret current
    | none => bindPath name (basePath ++ "/" ++ name ++ ".db")

variable {α : Type}

/-- A body, and the lock of the database released after it, however it ends. -/
def releasing (name : String) (body : DbProgram α) : DbProgram α := do
  let a ← body.tryCatch fun exn => do
    act (.release name)
    .raise exn
  act (.release name)
  .ret a

/-- `with db_lock:`. -/
def withLock (name : String) (body : DbProgram α) : DbProgram α := do
  act (.acquire name)
  releasing name body

/-- A new connection, put into the table. -/
def openConnection (name path : String) : DbProgram ℕ := do
  match ← act (.connect name path) with
  | none => .raise .sqlite
  | some n => do
    act (.store name n)
    .ret n

/-- `get_connection`. -/
def getConnection (name : String) (dbPath : Option String) : DbProgram ℕ := do
  let path ← getPath basePath name dbPath
  withLock name do
    match ← act (.readConnection name) with
    | none => openConnection name path
    | some n => do
      if ← act (.probe n) then .ret n
      else do
        if ← act (.close name n) then do
          act (.pop name n)
          openConnection name path
        else .raise .sqlite

/-- A managed `ConnectionLease` and the body of its `with`, which is given the connection. The
connection is got after the lock, and both are let go however the body ends. -/
def lease (name : String) (dbPath : Option String) (body : ℕ → DbProgram α) : DbProgram α := do
  let path ← getPath basePath name dbPath
  withLock name do
    let n ← getConnection basePath name (some path)
    body n

def close (name : String) : DbProgram Unit :=
  withLock name do
    match ← act (.readConnection name) with
    | none => .ret ()
    | some n => do
      if ← act (.close name n) then act (.pop name n) else .raise .sqlite

/-- The loop of `close_all`: how many of the names could not be closed. -/
def closeEach : List String → ℕ → DbProgram ℕ
  | [], failures => .ret failures
  | name :: names, failures => do
    let closed ← (close name >>= fun _ => .ret true).tryCatch fun _ => .ret false
    closeEach names (if closed then failures else failures + 1)

def closeAll : DbProgram Unit := do
  let (names, _) ← act .readNames
  let failures ← closeEach names 0
  if failures = 0 then .ret () else .raise (.failedToClose failures)

/-- `health_check`, which looks before it has the lock. -/
def healthCheck (name : String) : DbProgram Bool := do
  match ← act (.readConnection name) with
  | none => .ret false
  | some n => withLock name (act (.probe n))

inductive RuntimeStatus where
  | notInitialized
  | stopped
  | ok
  | failed
deriving DecidableEq, Repr

/-- `health`, less the texts of its failures. -/
structure Health where
  status : RuntimeStatus
  connections : ℕ
  failedConnections : ℕ
deriving DecidableEq, Repr

def checkEach : List String → ℕ → DbProgram ℕ
  | [], failures => .ret failures
  | name :: names, failures => do
    if ← healthCheck name then checkEach names failures else checkEach names (failures + 1)

def health : DbProgram Health := do
  let (names, everOpened) ← act .readNames
  if names = [] then .ret ⟨if everOpened then .stopped else .notInitialized, 0, 0⟩
  else do
    let failures ← checkEach names 0
    .ret ⟨if failures = 0 then .ok else .failed, names.length, failures⟩

end Manager

/-! ## Threads -/

/-- What a thread does with the manager. A statement names one of the leases around it, the
innermost first. -/
inductive Client : Type
  | finish
  | raises
  | executes (lease : ℕ) (next : Bool → Client)
  | leases (name : String) (dbPath : Option String) (body next : Client)
  | borrows (name : String) (dbPath : Option String) (next : Client)
  | closes (name : String) (next : Client)
  | closesAll (next : Client)
  | checks (name : String) (next : Bool → Client)
  | reports (next : Health → Client)
  /-- A body whose exceptions are caught; the thread goes on knowing whether there was one. -/
  | catches (body : Client) (next : Bool → Client)

/-- `vacuum`. -/
def vacuum (name : String) (next : Client) : Client :=
  .leases name none (.executes 0 fun done => if done then .finish else .raises) next

def Client.program (basePath : String) : Client → List (String × ℕ) → DbProgram Unit
  | .finish, _ => .ret ()
  | .raises, _ => .raise .client
  | .executes k next, held =>
    match held[k]? with
    | none => .raise .client
    | some (name, n) => do
      let done ← act (.execute name n)
      (next done).program basePath held
  | .leases name dbPath body next, held => do
    lease basePath name dbPath fun n => body.program basePath ((name, n) :: held)
    next.program basePath held
  | .borrows name dbPath next, held => do
    let _ ← getConnection basePath name dbPath
    next.program basePath held
  | .closes name next, held => do
    close name
    next.program basePath held
  | .closesAll next, held => do
    closeAll
    next.program basePath held
  | .checks name next, held => do
    let healthy ← healthCheck name
    (next healthy).program basePath held
  | .reports next, held => do
    let report ← health
    (next report).program basePath held
  | .catches body next, held => do
    let raised ← (body.program basePath held >>= fun _ => .ret false).tryCatch fun _ => .ret true
    (next raised).program basePath held

/-- The threads of a process. -/
abbrev Threads := Config Client Action Reply Exn Unit World

def Client.start (basePath : String) (client : Client) : DbProgram Unit :=
  client.program basePath []

/-- Some interleaving of the threads leads here. -/
def Reachable (basePath : String) (c : Threads) : Prop :=
  Reaches handler (Client.start basePath) (idle {}) c

end Databases
