import SqlRecords.Json.Basic

/-!
# The JSON forms of structures and variants

How the data types of the library look as JSON. A structure is an object with a
member for each field, or an array of its fields in order; a field that may be
missing is `null` or left out. A choice is named by its variant: a variant with
content is an object with that one member, a variant without content is a string.
Where the content of a variant is several named parts, it is an object, never an
array.

The readers here hand out parts together with the fact that they are smaller than
the whole, which is what recursive readers stop by.
-/

namespace SqlRecords

namespace Json

/-- A part of a value. -/
abbrev Part (j : Json) := { v : Json // sizeOf v < sizeOf j }

theorem sizeOf_lt_of_lookup {key : String} {v : Json} :
    ∀ {members : List (String × Json)}, members.lookup key = some v → sizeOf v < sizeOf members
  | [], h => by simp at h
  | (k, w) :: rest, h => by
    rw [List.lookup_cons] at h
    split at h
    · cases h
      simp only [List.cons.sizeOf_spec, Prod.mk.sizeOf_spec]
      omega
    · have := sizeOf_lt_of_lookup h
      simp only [List.cons.sizeOf_spec]
      omega

/-- The part of an object with a name. -/
def named? (j : Json) (key : String) : Option j.Part :=
  match j with
  | .obj members =>
    match h : members.lookup key with
    | some v => some ⟨v, by have := sizeOf_lt_of_lookup h; simp only [obj.sizeOf_spec]; omega⟩
    | none => none
  | _ => none

/-- The content of a field, `fields` being all the fields in order. -/
def part? (j : Json) (fields : List String) (key : String) : Option j.Part :=
  match j with
  | .obj members => named? (.obj members) key
  | .arr items =>
    if items.length = fields.length then
      match h : items[fields.idxOf key]? with
      | some v =>
        some ⟨v, by
          have := List.sizeOf_lt_of_mem (List.mem_of_getElem? h)
          simp only [arr.sizeOf_spec]
          omega⟩
      | none => none
    else none
  | _ => none

/-- The items of an array. -/
def parts? (j : Json) : Option (List j.Part) :=
  match j with
  | .arr items =>
    some (items.attach.map fun ⟨v, h⟩ =>
      ⟨v, by have := List.sizeOf_lt_of_mem h; simp only [arr.sizeOf_spec]; omega⟩)
  | _ => none

/-- The name and the content of a variant with content. -/
def variant? (j : Json) : Option (String × j.Part) :=
  match j with
  | .obj [(name, v)] => some (name, ⟨v, by
      simp only [obj.sizeOf_spec, List.cons.sizeOf_spec, Prod.mk.sizeOf_spec]; omega⟩)
  | _ => none

/-- The name of a variant without content. -/
def tag? : Json → Option String
  | .str name => some name
  | .obj [(name, .null)] => some name
  | _ => none

end Json

namespace Codec

/-- A reader of the JSON form of a type. -/
abbrev Decoder (α : Type) := Json → Option α

/-- A truth value. -/
def bool? : Decoder Bool
  | .bool b => some b
  | _ => none

/-- A text. -/
def string? : Decoder String
  | .str s => some s
  | _ => none

/-- A whole number between two bounds. -/
def int? (lo hi : Int) : Decoder Int
  | .int n => if lo ≤ n ∧ n ≤ hi then some n else none
  | _ => none

/-- A signed whole number of 64 bits. -/
def int64? (j : Json) : Option Int64 :=
  (int? Int64.minValue.toInt Int64.maxValue.toInt j).map Int64.ofInt

/-- A whole number of 32 bits without a sign. -/
def uint32? (j : Json) : Option UInt32 :=
  (int? 0 (UInt32.size - 1) j).map fun n => UInt32.ofNat n.toNat

/-- A whole number of 64 bits without a sign. -/
def uint64? (j : Json) : Option UInt64 :=
  (int? 0 (UInt64.size - 1) j).map fun n => UInt64.ofNat n.toNat

/-- Any number as a double. -/
def float? : Decoder Float
  | .int n => some (Float.ofInt n)
  | .float x => some x
  | _ => none

/-- A list. -/
def list? {α : Type} (item : Decoder α) : Decoder (List α)
  | .arr items => items.mapM item
  | _ => none

/-- Something that may be missing. -/
def option? {α : Type} (item : Decoder α) : Decoder (Option α)
  | .null => some none
  | j => (item j).map some

/-- A field of a structure. -/
def required? {α : Type} (fields : List String) (key : String) (item : Decoder α) : Decoder α :=
  fun j => do item (← j.part? fields key).1

/-- A field of a structure that may be missing. -/
def optional? {α : Type} (fields : List String) (key : String) (item : Decoder α) :
    Decoder (Option α) := fun j =>
  match j with
  | .obj members =>
    match members.lookup key with
    | some v => option? item v
    | none => some none
  | j => do option? item (← j.part? fields key).1

/-- A named part of the content of a variant. -/
def named? {α : Type} (key : String) (item : Decoder α) : Decoder α :=
  fun j => do item (← j.named? key).1

/-- A named part of the content of a variant that may be missing. -/
def optionalNamed? {α : Type} (key : String) (item : Decoder α) : Decoder (Option α)
  | .obj members =>
    match members.lookup key with
    | some v => option? item v
    | none => some none
  | _ => none

/-- One of some variants without content, by its name. -/
def tagged? {α : Type} (all : List α) (tag : α → String) : Decoder α := fun j => do
  let name ← j.tag?
  all.find? fun a => tag a == name

/-- The JSON form of something that may be missing. -/
def ofOption {α : Type} (item : α → Json) : Option α → Json
  | some a => item a
  | none => .null

/-- The JSON form of a list. -/
def ofList {α : Type} (item : α → Json) (items : List α) : Json := .arr (items.map item)

/-- The JSON form of a variant with content. -/
def ofVariant (name : String) (content : Json) : Json := .obj [(name, content)]

end Codec

end SqlRecords
