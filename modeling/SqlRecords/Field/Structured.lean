import SqlRecords.Calendar.Printer
import SqlRecords.Calendar.Reader
import SqlRecords.Field.Basic
import SqlRecords.Json.Parser
import SqlRecords.Json.Printer

/-!
# Fields of dates, timestamps and JSON documents
-/

namespace SqlRecords.Field

open SqlRecords.Calendar

/-- Dates. -/
def date : Field Date :=
  ofText .date
    (fun text => (readDate text.toList).mapError fun e => unreadable "date" text e.message)
    (fun d => String.ofList (dateChars d))

/-- Timestamps without a time zone. -/
def timestamp : Field Timestamp :=
  ofText .timestamp
    (fun text =>
      match readTimestamp text.toList with
      | some t => .ok t
      | none => .error (unreadableText "timestamp" text))
    (fun t => String.ofList (timestampChars t))

/-- Instants, read at any offset and written at offset zero. -/
def instant : Field Timestamp :=
  ofText .timestampWithTz
    (fun text =>
      match readInstant text.toList with
      | some t => .ok t
      | none => .error (unreadableText "timestamp with time zone" text))
    (fun t => String.ofList (instantChars t))

/-- How deep the arrays and objects of a document may be nested. -/
def documentDepth : Nat := 127

/-- Reads a JSON document. -/
def readDocument (s : String) : Option Json := (Json.parse documentDepth s).map Json.canonical

/-- Stands for what the parser says is wrong with a document. Its texts are left out. -/
def omittedReason : String := "..."

/-- JSON documents, keys in order. -/
def document : Field Json :=
  ofText .json
    (fun text =>
      match readDocument text with
      | some j => .ok j
      | none => .error (unreadable "json" text omittedReason))
    Json.text

end SqlRecords.Field
