/-!
# JSON values

JSON documents as trees. An object keeps its members as a list, so that a reader can
see their order and a repeated key; `Json.canonical` is the value such a document
stands for, keys in order and the last of several equal keys kept.
-/

namespace SqlRecords

/-- A JSON value. -/
inductive Json where
  | null
  | bool (b : Bool)
  /-- A whole number of 64 bits, signed or unsigned. -/
  | int (n : Int)
  /-- Any other number. -/
  | float (x : Float)
  | str (s : String)
  | arr (items : List Json)
  | obj (members : List (String × Json))
  deriving Repr, Inhabited

namespace Json

/-- The whole numbers that stay whole numbers: those of 64 bits, signed or unsigned. -/
def isWhole (n : Int) : Bool := Int64.minValue.toInt ≤ n && n < UInt64.size

/-- The members of an object with one put in at its place; it takes the place of one with the
same key. -/
def putMember (key : String) (value : Json) : List (String × Json) → List (String × Json)
  | [] => [(key, value)]
  | (k, v) :: rest =>
    if key < k then (key, value) :: (k, v) :: rest
    else if key = k then (key, value) :: rest
    else (k, v) :: putMember key value rest

mutual

/-- The value of a document: the members of every object in the order of their keys, the last of
those with one key. -/
def canonical : Json → Json
  | .arr items => .arr (canonicalItems items)
  | .obj members => .obj (canonicalMembers members [])
  | j => j

/-- The values of the items of an array. -/
def canonicalItems : List Json → List Json
  | [] => []
  | j :: rest => j.canonical :: canonicalItems rest

/-- The members of an object put one by one among those before. -/
def canonicalMembers : List (String × Json) → List (String × Json) → List (String × Json)
  | [], done => done
  | (k, v) :: rest, done => canonicalMembers rest (putMember k v.canonical done)

end

/-- The value of the first member with a key. -/
def member? (j : Json) (key : String) : Option Json :=
  match j with
  | .obj members => members.lookup key
  | _ => none

end Json

end SqlRecords
