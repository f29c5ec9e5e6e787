import Tightrope.Library.Directory
import Tightrope.Library.Threads

namespace Tightrope.Db

open Threads

inductive DatabaseFile (Row : Type) where
  | empty
  | plain (rows : List Row)
  | encrypted (rows : List Row)
  deriving DecidableEq, Repr

inductive FileName where
  | database
  | exported (tick : ℕ)
  | backup (tick : ℕ)
  deriving DecidableEq, Repr

variable {Row : Type}

namespace DatabaseFile

def rows : DatabaseFile Row → List Row
  | empty => []
  | plain rows => rows
  | encrypted rows => rows

def isPlain : DatabaseFile Row → Bool
  | plain _ => true
  | _ => false

def isEncrypted : DatabaseFile Row → Bool
  | encrypted _ => true
  | _ => false

-- `PRAGMA journal_mode=WAL` writes the first page.
def firstPage (keyed : Bool) : DatabaseFile Row → DatabaseFile Row
  | empty => if keyed then encrypted [] else plain []
  | file => file

def insert (keyed : Bool) (row : Row) : DatabaseFile Row → Option (DatabaseFile Row)
  | plain rows => if keyed then none else some (plain (row :: rows))
  | encrypted rows => if keyed then some (encrypted (row :: rows)) else none
  | empty => none

end DatabaseFile

abbrev DatabaseDirectory (Row : Type) := Directory FileName (DatabaseFile Row)

structure Snapshot (Row : Type) where
  file : ℕ
  content : DatabaseFile Row

def snapshotOf (directory : DatabaseDirectory Row) : Option (Snapshot Row) :=
  (directory.names .database).map fun file => ⟨file, directory.contents file⟩

structure Migration (Row : Type) where
  tick : ℕ
  original : Option (Snapshot Row)

structure PoolShared (Row : Type) where
  directory : DatabaseDirectory Row
  clock : ℕ := 0
  passphrase : Bool := false
  committed : List Row := []
  missing : List (List Row) := []
  refused : List (Option (Snapshot Row) × Option (Snapshot Row)) := []

inductive PoolCall where
  | setSessionPassphrase (given : Bool)
  | openPool
  | openThread
  deriving DecidableEq, Repr

inductive PoolPhase (Row : Type) where
  | setting (given : Bool)
  | checking
  | asking (plaintext : Bool)
  | copying
  | sourcing (migration : Migration Row)
  | attaching (migration : Migration Row) (source : ℕ)
  | exporting (migration : Migration Row) (source encrypted : ℕ)
  | closing (migration : Migration Row)
  | staging (migration : Migration Row)
  | replacing (migration : Migration Row) (backup : ℕ)
  | restoring (migration : Migration Row) (backup : ℕ)
  | cleaning (migration : Migration Row)
  | discarding (backup : ℕ)
  | keying
  | configuring (file : ℕ)
  | opened (file : ℕ) (keyed : Bool)
  | finished

def PoolCall.begin : PoolCall → PoolPhase Row
  | setSessionPassphrase given => .setting given
  | openPool => .checking
  | openThread => .keying

structure PoolMoment (Row : Type) where
  fails : Bool := false
  row : Option Row := none

section Steps

variable [DecidableEq Row]

def PoolShared.refuse (shared : PoolShared Row) (original : Option (Snapshot Row)) : PoolShared Row :=
  { shared with refused := (original, snapshotOf shared.directory) :: shared.refused }

def looksPlaintext (directory : DatabaseDirectory Row) : Bool :=
  (directory.file? .database).any DatabaseFile.isPlain

def copyAct (shared : PoolShared Row) : PoolShared Row × PoolPhase Row :=
  let original := snapshotOf shared.directory
  if shared.passphrase then
    ({ shared with clock := shared.clock + 1 }, .sourcing ⟨shared.clock, original⟩)
  else (shared.refuse original, .finished)

def sourceAct (shared : PoolShared Row) (migration : Migration Row) : PoolShared Row × PoolPhase Row :=
  let opened := shared.directory.openFile .database .empty
  ({ shared with directory := opened.1 }, .attaching migration opened.2)

def attachAct (shared : PoolShared Row) (migration : Migration Row) (source : ℕ) : PoolShared Row × PoolPhase Row :=
  ({ shared with directory := shared.directory.create (.exported migration.tick) .empty },
    .exporting migration source shared.directory.next)

def exportAct (shared : PoolShared Row) (migration : Migration Row) (source encrypted : ℕ) :
    PoolShared Row × PoolPhase Row :=
  let content := shared.directory.contents source
  if content.isEncrypted then (shared, .cleaning migration)
  else ({ shared with directory := shared.directory.write encrypted (.encrypted content.rows) }, .closing migration)

def stageAct (shared : PoolShared Row) (migration : Migration Row) : PoolShared Row × PoolPhase Row :=
  if (shared.directory.names .database).isSome then
    ({ shared with
        directory := shared.directory.rename .database (.backup shared.clock)
        clock := shared.clock + 1 },
      .replacing migration shared.clock)
  else (shared, .cleaning migration)

def replaceSource (shared : PoolShared Row) (migration : Migration Row) (backup : ℕ) :
    PoolShared Row × PoolPhase Row :=
  if (shared.directory.names (.exported migration.tick)).isSome then
    ({ shared with directory := shared.directory.rename (.exported migration.tick) .database }, .discarding backup)
  else (shared, .restoring migration backup)

def restoreAct (shared : PoolShared Row) (migration : Migration Row) (backup : ℕ) : PoolShared Row × PoolPhase Row :=
  if (shared.directory.names (.backup backup)).isSome then
    ({ shared with directory := shared.directory.rename (.backup backup) .database }, .cleaning migration)
  else (shared, .cleaning migration)

def cleanAct (shared : PoolShared Row) (migration : Migration Row) (moment : PoolMoment Row) :
    PoolShared Row × PoolPhase Row :=
  if moment.fails then (shared.refuse migration.original, .finished)
  else
    (({ shared with directory := shared.directory.remove (.exported migration.tick) }).refuse migration.original,
      .finished)

def discardAct (shared : PoolShared Row) (backup : ℕ) (moment : PoolMoment Row) : PoolShared Row :=
  if moment.fails then shared else { shared with directory := shared.directory.remove (.backup backup) }

def keyAct (shared : PoolShared Row) : PoolShared Row × PoolPhase Row :=
  let opened := shared.directory.openFile .database .empty
  ({ shared with directory := opened.1 }, .configuring opened.2)

def configureAct (shared : PoolShared Row) (file : ℕ) : PoolShared Row × PoolPhase Row :=
  let content := shared.directory.contents file
  let directory := shared.directory.write file (content.firstPage shared.passphrase)
  if shared.passphrase then
    if content.isPlain then (shared, .finished)
    else
      ({ shared with
          directory := directory
          missing := (shared.committed.filter (· ∉ content.rows)) :: shared.missing },
        .opened file true)
  else ({ shared with directory := directory }, .opened file false)

def commitAct (shared : PoolShared Row) (file : ℕ) (keyed : Bool) (row : Row) : PoolShared Row :=
  match (shared.directory.contents file).insert keyed row with
  | none => shared
  | some content =>
    { shared with directory := shared.directory.write file content, committed := row :: shared.committed }

def poolAct (shared : PoolShared Row) (phase : PoolPhase Row) (moment : PoolMoment Row) :
    PoolShared Row × PoolPhase Row :=
  match phase with
  | .setting given => ({ shared with passphrase := given }, .finished)
  | .checking => (shared, .asking (looksPlaintext shared.directory))
  | .asking plaintext => (shared, if plaintext && shared.passphrase then .copying else .keying)
  | .copying => copyAct shared
  | .sourcing migration => if moment.fails then (shared, .cleaning migration) else sourceAct shared migration
  | .attaching migration source =>
    if moment.fails then (shared, .cleaning migration) else attachAct shared migration source
  | .exporting migration source encrypted =>
    if moment.fails then (shared, .cleaning migration) else exportAct shared migration source encrypted
  | .closing migration => (shared, if moment.fails then .cleaning migration else .staging migration)
  | .staging migration => if moment.fails then (shared, .cleaning migration) else stageAct shared migration
  | .replacing migration backup =>
    if moment.fails then (shared, .restoring migration backup) else replaceSource shared migration backup
  | .restoring migration backup =>
    if moment.fails then (shared, .cleaning migration) else restoreAct shared migration backup
  | .cleaning migration => cleanAct shared migration moment
  | .discarding backup => (discardAct shared backup moment, .keying)
  | .keying => if moment.fails then (shared, .finished) else keyAct shared
  | .configuring file => if moment.fails then (shared, .finished) else configureAct shared file
  | .opened file keyed =>
    (if moment.fails then shared else moment.row.elim shared (commitAct shared file keyed), .opened file keyed)
  | .finished => (shared, .finished)

inductive PoolAction (Row : Type) where
  | act (action : Action PoolCall (PoolMoment Row))
  | crash

def poolStep (s : State (PoolShared Row) (PoolPhase Row)) : PoolAction Row → State (PoolShared Row) (PoolPhase Row)
  | .act action => step PoolCall.begin poolAct s action
  | .crash => ⟨{ s.shared with passphrase := false }, []⟩

end Steps

end Tightrope.Db
