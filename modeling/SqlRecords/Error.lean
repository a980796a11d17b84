/-!
# Errors

Every operation of the library that can fail gives an `Error`: the kind of trouble,
a message, the text of the error underneath when there is one, and named details
in the order they were attached. `Error.render` is the text a user sees.
-/

namespace SqlRecords

/-- What sort of trouble an error reports, so that a caller can react to it. -/
inductive ErrorKind where
  /-- A cell and a typed value could not be turned into each other. -/
  | marshal
  /-- A call came out of order. -/
  | protocol
  /-- The database reported a failure. -/
  | driver
  /-- No connection became free within the allowed waits. -/
  | poolExhausted
  /-- A configuration value is out of bounds. -/
  | config
  /-- Anything else. -/
  | other
  deriving DecidableEq, Repr, Inhabited

/-- The name of a kind of error. -/
def ErrorKind.name : ErrorKind → String
  | .marshal => "marshal"
  | .protocol => "protocol"
  | .driver => "driver"
  | .poolExhausted => "pool exhausted"
  | .config => "config"
  | .other => "other"

/-- The kinds of error, each once. -/
def ErrorKind.all : List ErrorKind :=
  [.marshal, .protocol, .driver, .poolExhausted, .config, .other]

/-- The kind that has the given name. -/
def ErrorKind.ofName? (name : String) : Option ErrorKind :=
  ErrorKind.all.find? (·.name == name)

/-- A failure with its message, cause and details. -/
structure Error where
  /-- What sort of trouble it is. -/
  kind : ErrorKind
  /-- What went wrong. -/
  message : String
  /-- The text of the error underneath. -/
  source : Option String
  /-- Named details, in the order they were attached. -/
  fields : List (String × String)
  deriving DecidableEq, Repr, Inhabited

/-- What an operation gives: a value or the reason there is none. -/
abbrev Result (α : Type) := Except Error α

namespace Error

/-- An error of the given kind with nothing but a message. -/
def ofKind (kind : ErrorKind) (message : String) : Error :=
  { kind, message, source := none, fields := [] }

/-- An error of no special kind. -/
def new (message : String) : Error := ofKind .other message

/-- A call out of order. -/
def protocol (message : String) : Error := ofKind .protocol message

/-- A cell that does not fit its field, or a value that does not fit a cell. -/
def marshal (message : String) : Error := ofKind .marshal message

/-- A configuration value out of bounds. -/
def config (message : String) : Error := ofKind .config message

/-- An error that wraps the text of another one. -/
def withSource (message source : String) : Error := { new message with source := some source }

/-- The error with another kind. -/
def withKind (e : Error) (kind : ErrorKind) : Error := { e with kind }

/-- A failure of the database, whose own text is kept word for word. -/
def driver (message source : String) : Error := (withSource message source).withKind .driver

/-- The error with one more detail, after those it has. -/
def withField (e : Error) (key value : String) : Error :=
  { e with fields := e.fields ++ [(key, value)] }

/-- The first detail attached under a name. -/
def field? (e : Error) (key : String) : Option String := e.fields.lookup key

/-- The details as they are printed: `(k: v, k: v)` behind a blank, nothing when there are none. -/
def renderFields : List (String × String) → String
  | [] => ""
  | fields => " (" ++ ", ".intercalate (fields.map fun (k, v) => k ++ ": " ++ v) ++ ")"

/-- The whole text of an error: its message, its details, and its cause on a line of its own. -/
def render (e : Error) : String :=
  e.message ++ renderFields e.fields ++
    match e.source with
    | none => ""
    | some s => "\nError source: " ++ s

@[simp] theorem kind_withField (e : Error) (k v : String) : (e.withField k v).kind = e.kind := rfl

@[simp] theorem message_withField (e : Error) (k v : String) :
    (e.withField k v).message = e.message := rfl

@[simp] theorem fields_withField (e : Error) (k v : String) :
    (e.withField k v).fields = e.fields ++ [(k, v)] := rfl

end Error

/-- A failure becomes the cause of a new error that says what was being done. -/
def Result.context {ε α : Type} (r : Except ε α) (render : ε → String) (message : String) :
    Result α :=
  r.mapError fun e => Error.withSource message (render e)

/-- A value that has to be there; `what` names it in the error. -/
def Result.required {α : Type} (value : Option α) (what : String) : Result α :=
  match value with
  | some a => .ok a
  | none => .error (Error.new ("Missing required value: " ++ what))

end SqlRecords
