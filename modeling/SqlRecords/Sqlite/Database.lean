import SqlRecords.Sqlite.Stored
import SqlRecords.Statement.Basic

/-!
# What is asked of a SQLite database

A `Database` runs transactions, statements, prepared inserts and queries, and reports
failures as texts. What it does is up to the instance; the connection is written
against this interface alone.
-/

namespace SqlRecords.Sqlite

/-- A step on a database that can fail with a text. -/
abbrev Step (δ α : Type) := EStateM String δ α

/-- The results of a query: they come one by one, and each may be a failure. -/
abbrev Results := List (Except String (List Stored))

/-- A SQLite database. -/
class Database (δ : Type) where
  /-- Begins a transaction. -/
  begin : Step δ Unit
  /-- Commits the transaction. -/
  commit : Step δ Unit
  /-- Rolls the transaction back. -/
  rollback : Step δ Unit
  /-- Executes a statement. -/
  execute : Statement → Step δ Unit
  /-- Executes a text. -/
  executeText : String → Step δ Unit
  /-- Prepares an INSERT. -/
  prepare : Insert → Step δ Unit
  /-- Inserts one row with a prepared INSERT. -/
  insertRow : Insert → Row → Step δ Unit
  /-- Prepares a query, whose results are then fetched. -/
  query : Select → Step δ Results

end SqlRecords.Sqlite
