import SqlRecords.Connection.Basic
import SqlRecords.Connection.WriteState

/-!
# A connection that follows a script

A `Scripted` connection has no database behind it. It writes down every call, fails
the calls it is told to fail, and answers every query with the rows or batches of its
script. It keeps to the protocol of bulk writes, so that what is built on top of
connections can be watched call by call.
-/

namespace SqlRecords

/-- A call that a scripted connection has received. -/
inductive Call where
  | begin
  | commit
  | rollback
  | execute (sql : String)
  | insert (sql : String) (rows : List Row)
  | query (sql : String)
  | startWrite (sql : String)
  | write (rows : List Row)
  | endWrite
  | fetch (size : Nat)
  deriving DecidableEq, Repr

/-- The name of a call. -/
def Call.name : Call → String
  | .begin => "begin"
  | .commit => "commit"
  | .rollback => "rollback"
  | .execute _ => "execute"
  | .insert _ _ => "insert"
  | .query _ => "read"
  | .startWrite _ => "start_write"
  | .write _ => "write"
  | .endWrite => "end_write"
  | .fetch _ => "fetch"

/-- What a query gives. -/
inductive Script where
  /-- Rows, in batches of the size asked for. -/
  | rows (rows : List Row)
  /-- Batches or failures, one for each fetch whatever size it asks for. -/
  | batches (batches : List (Except String (List Row)))
  deriving Repr

namespace Script

/-- Nothing is left. -/
def isEmpty : Script → Bool
  | .rows rs => rs.isEmpty
  | .batches bs => bs.isEmpty

/-- How many rows and batches are left. -/
def size : Script → Nat
  | .rows rs => rs.length
  | .batches bs =>
    bs.foldl (fun n b =>
      match b with
      | .ok rs => n + rs.length + 1
      | .error _ => n + 1) 0

/-- The next batch, and what is left behind it. -/
def next (size : Nat) : Script → Result (List Row) × Script
  | .rows rs => (.ok (rs.take size), .rows (rs.drop size))
  | .batches [] => (.ok [], .batches [])
  | .batches (.ok rs :: rest) => (.ok rs, .batches rest)
  | .batches (.error message :: rest) =>
    (.error ((Error.new message).withKind .driver), .batches rest)

end Script

/-- A connection that follows a script. -/
structure Scripted where
  /-- The dialect of the calls' texts. -/
  dialect : Dialect
  /-- The names of the calls that fail. -/
  failing : List String
  /-- What queries give. -/
  script : Script
  /-- The calls received, the first one first. -/
  calls : List Call
  /-- The text of the bulk write in progress. -/
  writing : WriteState String

namespace Scripted

/-- A connection that fails nothing and finds no rows. -/
def ofDialect (dialect : Dialect) : Scripted :=
  { dialect, failing := [], script := .rows [], calls := [], writing := .idle }

/-- The failure of a call that is told to fail. -/
def injected (c : Call) : Error := .driver (c.name ++ " failed") "injected failure"

/-- Writes down a call. -/
def note (c : Call) : Action Scripted Unit :=
  modify fun s => { s with calls := s.calls ++ [c] }

/-- Writes down a call and fails it if it is told to. -/
def receive (c : Call) : Action Scripted Unit := do
  note c
  if (← get).failing.contains c.name then throw (injected c)

/-- Gives up the bulk write. -/
def abort : Action Scripted Unit := modify fun s => { s with writing := s.writing.abort.2 }

/-- Begins a bulk write. If its transaction cannot be begun, it is given up again. -/
def startWrite (w : Write) : Action Scripted Unit := do
  let s ← get
  let sql := s.dialect.text (s.dialect.write w)
  let writing ← Action.ofResult (s.writing.start sql)
  modify fun s => { s with writing }
  match ← (receive .begin).attempt with
  | .ok () => receive (.startWrite sql)
  | .error e => do
    abort
    throw e

/-- Sends rows to the bulk write. If that fails, it is given up and rolled back. -/
def write (rows : List Row) : Action Scripted Unit := do
  let _ ← Action.ofResult (← get).writing.current
  match ← (receive (.write rows)).attempt with
  | .ok () => pure ()
  | .error e => do
    abort
    (receive .rollback).ignore
    throw e

/-- Ends the bulk write and commits. -/
def endWrite : Action Scripted Unit := do
  let (_, writing) ← Action.ofResult (← get).writing.finish
  modify fun s => { s with writing }
  receive .endWrite
  receive .commit

end Scripted

/-! ### Cursors -/

/-- A query on a scripted connection. -/
structure ScriptedCursor where
  /-- The connection. -/
  connection : Scripted
  /-- What is left of the script. -/
  left : Script
  /-- Everything has been given. -/
  done : Bool

namespace ScriptedCursor

/-- Fetches the next batch. -/
def fetch (size : Nat) : Action ScriptedCursor (List Row) := do
  Action.onPart connection (fun c connection => { c with connection }) (Scripted.note (.fetch size))
  let (batch, left) := (← get).left.next size
  modify fun c => { c with left, done := left.isEmpty }
  Action.ofResult batch

end ScriptedCursor

/-- Opens a query. Rows are known to be at an end only once a fetch has come to it. -/
def Scripted.query (s : Select) (c : Scripted) : Opened Scripted ScriptedCursor :=
  match (Scripted.receive (.query (c.dialect.text (c.dialect.select s)))) c with
  | .error e c => .error (e, c)
  | .ok () c =>
    .ok {
      connection := c
      left := c.script
      done :=
        match c.script with
        | .rows _ => false
        | .batches batches => batches.isEmpty }

instance : Cursor ScriptedCursor where
  fetch := ScriptedCursor.fetch
  isDone := ScriptedCursor.done
  remaining c := c.left.size + 1

instance : Connection Scripted ScriptedCursor where
  dialect := Scripted.dialect
  beginTransaction := Scripted.receive .begin
  commit := Scripted.receive .commit
  rollback := Scripted.receive .rollback
  execute s := do Scripted.receive (.execute ((← get).dialect.compile s))
  executeText sql := Scripted.receive (.execute sql)
  insert i rows := do
    let d := (← get).dialect
    Scripted.receive (.insert (d.text (d.insert i)) rows)
  startWrite := Scripted.startWrite
  write := Scripted.write
  endWrite := Scripted.endWrite
  query := Scripted.query
  close := ScriptedCursor.connection

end SqlRecords
