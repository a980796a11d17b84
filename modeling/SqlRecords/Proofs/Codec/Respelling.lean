import Mathlib.Data.List.Forall2
import Mathlib.Data.List.Nodup
import SqlRecords.Codec.Shape

/-!
# Other spellings of a JSON form

The form that a value is written in is not the only one that it is read from. In an object
that stands for a structure, the members may come in any order, a member that is `null` may
be left out, and there may be members that the structure knows nothing of. An object that
stands for a variant is left as it is, since its one member names the variant.

`Json.Respelling j j'` says that `j'` is `j` spelled in another way like this, here and there
and at any depth. No structure has a single field, so the objects of one member are those that
stand for a variant, and all others stand for structures.

`Codec.Reads` says that a reader understands every spelling of a form. The rules that follow it
take a form apart along its shape: a reader of a structure understands it if the readers of
the fields understand theirs.

## What is proved

* `Json.Respelling.refl`: every form is a spelling of itself.
* **`Json.Respelling.members`**: what is found in a structure that is spelled in another way.
* `Codec.Reads.ofList`, `Codec.Reads.ofVariant`, `Codec.Reads.ofMembers`: the rules.
* `Codec.required_of_reads`, `Codec.optional_of_reads`: what the readers of the fields give.
-/

namespace SqlRecords

namespace Json

/-- The value has no parts. -/
def isScalar : Json → Bool
  | .arr _ | .obj _ => false
  | _ => true

mutual

/-- The second form is the first one, spelled in another way. -/
inductive Respelling : Json → Json → Prop where
  /-- There is one way to spell a scalar. -/
  | scalar {j : Json} (h : j.isScalar = true) : Respelling j j
  /-- The items of an array are spelled one by one. -/
  | items {items items' : List Json} (h : List.Forall₂ Respelling items items') :
    Respelling (.arr items) (.arr items')
  /-- The name of a variant stays alone. -/
  | variant (name : String) {content content' : Json} (h : Respelling content content') :
    Respelling (.obj [(name, content)]) (.obj [(name, content')])
  /-- The members of a structure that are kept are put in any order among others of which it knows
  nothing. -/
  | fields {members kept unknown members' : List (String × Json)} (hmany : members.length ≠ 1)
    (hkept : Kept members kept) (hunknown : ∀ m ∈ unknown, m.1 ∉ members.map (·.1))
    (hperm : members'.Perm (kept ++ unknown)) : Respelling (.obj members) (.obj members')

/-- The second members are the first ones, spelled in another way and maybe without some that are
`null`. -/
inductive Kept : List (String × Json) → List (String × Json) → Prop where
  | nil : Kept [] []
  /-- A member is spelled in another way. -/
  | keep (key : String) {v v' : Json} {rest rest' : List (String × Json)} (h : Respelling v v')
    (hrest : Kept rest rest') : Kept ((key, v) :: rest) ((key, v') :: rest')
  /-- A member that is `null` is left out. -/
  | leaveOut (key : String) {rest rest' : List (String × Json)} (hrest : Kept rest rest') :
    Kept ((key, .null) :: rest) rest'

end

/-! ### Every form spells itself -/

mutual

theorem Respelling.refl : ∀ j : Json, Respelling j j
  | .null | .bool _ | .int _ | .float _ | .str _ => .scalar rfl
  | .arr items => .items (Respelling.refl_items items)
  | .obj members => by
    have hkept := Kept.refl members
    by_cases hone : members.length = 1
    · obtain ⟨⟨name, content⟩, rfl⟩ := List.length_eq_one_iff.mp hone
      cases hkept with
      | keep _ h _ => exact .variant name h
      | leaveOut _ hrest => cases hrest
    · have hnone : ∀ m ∈ ([] : List (String × Json)), m.1 ∉ members.map (·.1) := nofun
      exact .fields hone hkept hnone (by rw [List.append_nil])

theorem Respelling.refl_items : ∀ items : List Json, List.Forall₂ Respelling items items
  | [] => .nil
  | j :: rest => .cons (Respelling.refl j) (Respelling.refl_items rest)

theorem Kept.refl : ∀ members : List (String × Json), Kept members members
  | [] => .nil
  | (key, v) :: rest => .keep key (Respelling.refl v) (Kept.refl rest)

end

/-! ### What is found in a structure -/

/-- What is kept of a member. -/
theorem Kept.mem : ∀ {members kept : List (String × Json)}, Kept members kept →
    ∀ {key w}, (key, w) ∈ kept → ∃ v, (key, v) ∈ members ∧ Respelling v w
  | _, _, .nil, _, _, hw => by cases hw
  | _, _, .keep _ hv hrest, key, w, hw => by
    rcases List.mem_cons.mp hw with heq | hw
    · cases heq
      exact ⟨_, List.mem_cons_self, hv⟩
    · obtain ⟨v, hmem, hspelled⟩ := hrest.mem hw
      exact ⟨v, List.mem_cons_of_mem _ hmem, hspelled⟩
  | _, _, .leaveOut _ hrest, key, w, hw => by
    obtain ⟨v, hmem, hspelled⟩ := hrest.mem hw
    exact ⟨v, List.mem_cons_of_mem _ hmem, hspelled⟩

/-- Only a member that is `null` is left out. -/
theorem Kept.exists_mem : ∀ {members kept : List (String × Json)}, Kept members kept →
    ∀ {key v}, (key, v) ∈ members → v ≠ .null → ∃ w, (key, w) ∈ kept
  | _, _, .nil, _, _, hv, _ => by cases hv
  | _, _, .keep _ _ hrest, key, v, hv, hnull => by
    rcases List.mem_cons.mp hv with heq | hv
    · cases heq
      exact ⟨_, List.mem_cons_self⟩
    · obtain ⟨w, hw⟩ := hrest.exists_mem hv hnull
      exact ⟨w, List.mem_cons_of_mem _ hw⟩
  | _, _, .leaveOut _ hrest, key, v, hv, hnull => by
    rcases List.mem_cons.mp hv with heq | hv
    · cases heq
      exact absurd rfl hnull
    · exact hrest.exists_mem hv hnull

theorem mem_of_lookup {members : List (String × Json)} {key : String} {v : Json}
    (h : members.lookup key = some v) : (key, v) ∈ members := by
  obtain ⟨before, after, rfl, -⟩ := List.lookup_eq_some_iff.mp h
  simp

/-- Nothing else is spelled as something missing. -/
theorem eq_null_of_respelling {j : Json} (h : Respelling j .null) : j = .null := by
  cases h
  rfl

/-- The members of a structure, and those of the same one when it is spelled in another way. -/
structure Members (members members' : List (String × Json)) : Prop where
  /-- A member that is not `null` is found, spelled in another way. -/
  found : ∀ {key v}, members.lookup key = some v → v ≠ .null →
    ∃ v', members'.lookup key = some v' ∧ Respelling v v'
  /-- A member that is `null` is found as such, or is not there. -/
  absent : ∀ {key}, members.lookup key = some .null →
    members'.lookup key = some .null ∨ members'.lookup key = none

/-- **What is found in a structure** that is spelled in another way. -/
theorem Respelling.members {members : List (String × Json)} {j : Json}
    (h : Respelling (.obj members) j) (hmany : members.length ≠ 1)
    (hdistinct : (members.map (·.1)).Nodup) :
    ∃ members', j = .obj members' ∧ Members members members' := by
  cases h with
  | scalar hscalar => cases hscalar
  | variant => exact absurd rfl hmany
  | @fields _ kept unknown members' _ hkept hunknown hperm =>
    -- What is found under the key of a member is what was kept of it.
    have hvalue : ∀ {key v w}, members.lookup key = some v → members'.lookup key = some w →
        (key, w) ∈ kept ∧ Respelling v w := by
      intro key v w hv hw
      have hmember : (key, v) ∈ members := mem_of_lookup hv
      have hw' : (key, w) ∈ kept ++ unknown := hperm.mem_iff.mp (mem_of_lookup hw)
      rcases List.mem_append.mp hw' with hw' | hw'
      · obtain ⟨u, hu, hspelled⟩ := hkept.mem hw'
        have hsame : (key, u) = (key, v) := List.inj_on_of_nodup_map hdistinct hu hmember rfl
        cases hsame
        exact ⟨hw', hspelled⟩
      · exact absurd (List.mem_map.mpr ⟨_, hmember, rfl⟩) (hunknown (key, w) hw')
    refine ⟨members', rfl, fun {key v} hv hnull => ?_, fun {key} hv => ?_⟩
    · obtain ⟨w, hw⟩ := hkept.exists_mem (mem_of_lookup hv) hnull
      have hmember : (key, w) ∈ members' := hperm.mem_iff.mpr (List.mem_append_left _ hw)
      have hsome : (members'.lookup key).isSome :=
        List.lookup_isSome_iff.mpr ⟨(key, w), hmember, beq_self_eq_true key⟩
      obtain ⟨u, hu⟩ := Option.isSome_iff_exists.mp hsome
      exact ⟨u, hu, (hvalue hv hu).2⟩
    · cases hw : members'.lookup key with
      | none => exact .inr rfl
      | some w =>
        have hspelled := (hvalue hv hw).2
        cases hspelled
        exact .inl rfl

end Json

namespace Codec

open Json

/-! ### Readers -/

/-- A reader understands a form as a value, in whichever way it is spelled. -/
structure Reads {α : Type} (decode : Decoder α) (j : Json) (a : α) : Prop where
  /-- The form is not that of something missing. -/
  ne_null : j ≠ .null
  /-- Every spelling of the form is read as the value. -/
  read : ∀ {j' : Json}, j.Respelling j' → decode j' = some a

variable {α β : Type} {decode : Decoder α} {a : α}

/-- A scalar is read as it is. -/
theorem Reads.ofScalar {j : Json} (hscalar : j.isScalar = true) (hnull : j ≠ .null)
    (h : decode j = some a) : Reads decode j a := by
  refine ⟨hnull, fun hj => ?_⟩
  cases hj with
  | scalar => exact h
  | _ => cases hscalar

theorem reads_string (s : String) : Reads string? (.str s) s := .ofScalar rfl nofun rfl

theorem reads_bool (b : Bool) : Reads bool? (.bool b) b := .ofScalar rfl nofun rfl

theorem reads_int64 (n : Int64) : Reads int64? (.int n.toInt) n := by
  have hint : int? Int64.minValue.toInt Int64.maxValue.toInt (.int n.toInt) = some n.toInt :=
    if_pos ⟨n.minValue_le_toInt, n.toInt_le⟩
  refine .ofScalar rfl nofun ?_
  rw [int64?, hint, Option.map_some, Int64.ofInt_toInt]

theorem reads_uint32 (n : UInt32) : Reads uint32? (.int n.toNat) n := by
  have hlt : n.toNat < UInt32.size := n.toNat_lt
  have hint : int? 0 (UInt32.size - 1) (.int n.toNat) = some (n.toNat : Int) :=
    if_pos (by omega)
  refine .ofScalar rfl nofun ?_
  rw [uint32?, hint, Option.map_some, Int.toNat_natCast, UInt32.ofNat_toNat]

theorem reads_uint64 (n : UInt64) : Reads uint64? (.int n.toNat) n := by
  have hlt : n.toNat < UInt64.size := n.toNat_lt
  have hint : int? 0 (UInt64.size - 1) (.int n.toNat) = some (n.toNat : Int) :=
    if_pos (by omega)
  refine .ofScalar rfl nofun ?_
  rw [uint64?, hint, Option.map_some, Int.toNat_natCast, UInt64.ofNat_toNat]

/-- A variant without content is read by its name. -/
theorem reads_tag {all : List α} {tag : α → String} {a : α}
    (h : all.find? (fun b => tag b == tag a) = some a) :
    Reads (tagged? all tag) (.str (tag a)) a :=
  .ofScalar rfl nofun h

/-! ### Lists -/

theorem Reads.mapM {item : Decoder α} {forms forms' : List Json} {as : List α}
    (h : List.Forall₂ (Reads item) forms as) (hj : List.Forall₂ Respelling forms forms') :
    forms'.mapM item = some as := by
  induction h generalizing forms' with
  | nil =>
    cases hj
    rfl
  | cons hfirst _ ih =>
    cases hj with
    | cons hform hrest =>
      rw [List.mapM_cons, hfirst.read hform, ih hrest]
      rfl

/-- An array is read item by item. -/
theorem Reads.ofItems {item : Decoder α} {forms : List Json} {as : List α}
    (h : List.Forall₂ (Reads item) forms as) : Reads (list? item) (.arr forms) as := by
  refine ⟨nofun, fun hj => ?_⟩
  cases hj with
  | scalar hscalar => cases hscalar
  | items hitems => exact Reads.mapM h hitems

/-- A list is read item by item. -/
theorem Reads.ofList {item : Decoder α} {form : α → Json} {as : List α}
    (h : ∀ a ∈ as, Reads item (form a) a) : Reads (list? item) (Codec.ofList form as) as :=
  .ofItems (List.forall₂_map_left_iff.mpr (List.forall₂_same.mpr h))

/-- What reads the parts of an array one by one reads a list. -/
theorem parts_bind (item : Decoder α) (next : List α → Option β) (j : Json) :
    (do
      let parts ← j.parts?
      let as ← parts.mapM fun p => item p.1
      next as) = (list? item j).bind next := by
  cases j with
  | arr items =>
    have hitems : ((Json.arr items).parts?.bind fun parts => parts.mapM fun p => item p.1) =
        items.mapM item := by
      rw [parts?, Option.bind_some, List.mapM_map]
      simp only [Function.comp_def, List.mapM_subtype, List.unattach_attach]
    simp only [Option.bind_eq_bind]
    rw [← Option.bind_assoc, hitems, list?]
  | _ => rfl

/-! ### Variants -/

/-- A variant is read by its content. -/
theorem Reads.ofVariant {name : String} {content : Json} (h : ∀ {content'},
    content.Respelling content' → decode (Codec.ofVariant name content') = some a) :
    Reads decode (Codec.ofVariant name content) a := by
  refine ⟨nofun, fun hj => ?_⟩
  cases hj with
  | scalar hscalar => cases hscalar
  | variant _ hcontent => exact h hcontent
  | fields hmany => exact absurd rfl hmany

/-- A variant is read by what its content stands for. -/
theorem Reads.ofContent {inner : Decoder β} {name : String} {form : Json} {b : β} (make : β → α)
    (hdecode : ∀ content, decode (Codec.ofVariant name content) =
      (inner content).bind fun b => some (make b))
    (h : Reads inner form b) : Reads decode (Codec.ofVariant name form) (make b) := by
  refine .ofVariant fun hj => ?_
  rw [hdecode, h.read hj, Option.bind_some]

/-! ### Structures -/

/-- There can be a structure with some fields: their names differ, and there is not just one. -/
def AreFields (fields : List String) : Prop := fields.length ≠ 1 ∧ fields.Nodup

instance (fields : List String) : Decidable (AreFields fields) :=
  inferInstanceAs (Decidable (_ ∧ _))

/-- The members of a structure that is spelled in another way. -/
theorem exists_members {members : List (String × Json)} (fields : List String)
    (hfields : AreFields fields) (hnames : members.map (·.1) = fields) {j : Json}
    (h : Respelling (.obj members) j) :
    ∃ members', j = .obj members' ∧ Members members members' := by
  obtain ⟨hmany, hdistinct⟩ := hfields
  rw [← hnames] at hmany hdistinct
  exact h.members (by simpa using hmany) hdistinct

/-- A structure is read by what is found of its members. -/
theorem Reads.ofMembers {members : List (String × Json)} (fields : List String)
    (hfields : AreFields fields) (hnames : members.map (·.1) = fields)
    (h : ∀ {members'}, Members members members' → decode (.obj members') = some a) :
    Reads decode (.obj members) a := by
  refine ⟨nofun, fun hj => ?_⟩
  obtain ⟨members', rfl, hmembers⟩ := exists_members fields hfields hnames hj
  exact h hmembers

variable {members members' : List (String × Json)} {key : String} {v : Json}
  {item : Decoder α}

/-- A named part of a structure. -/
theorem exists_named (key : String) (h : Members members members')
    (hv : members.lookup key = some v) (hnull : v ≠ .null) :
    ∃ p : Part (.obj members'), (Json.obj members').named? key = some p ∧ v.Respelling p.1 := by
  obtain ⟨v', hv', hspelled⟩ := h.found hv hnull
  have hpart : ∃ p, (Json.obj members').named? key = some p ∧ p.1 = v' := by
    simp only [Json.named?]
    split
    · next w hw =>
      exact ⟨_, rfl, Option.some.inj (hw.symm.trans hv')⟩
    · next hw =>
      rw [hw] at hv'
      cases hv'
  obtain ⟨p, hp, rfl⟩ := hpart
  exact ⟨p, hp, hspelled⟩

/-- A field that has to be there is read. -/
theorem required_of_reads (h : Members members members') {fields : List String}
    (hv : members.lookup key = some v) (hreads : Reads item v a) :
    required? fields key item (.obj members') = some a := by
  obtain ⟨p, hp, hspelled⟩ := exists_named key h hv hreads.ne_null
  have hpart : (Json.obj members').part? fields key = some p := hp
  rw [required?, hpart]
  exact hreads.read hspelled

/-- A named part that has to be there is read. -/
theorem named_of_reads (h : Members members members') (hv : members.lookup key = some v)
    (hreads : Reads item v a) : Codec.named? key item (.obj members') = some a := by
  obtain ⟨p, hp, hspelled⟩ := exists_named key h hv hreads.ne_null
  rw [Codec.named?, hp]
  exact hreads.read hspelled

/-- A named part is read on the way to something else. -/
theorem bind_named_of_reads (key : String) (h : Members members members')
    (hv : members.lookup key = some v) (hreads : Reads item v a) (next : α → Option β) :
    (do
      let p ← (Json.obj members').named? key
      next (← item p.1)) = next a := by
  obtain ⟨p, hp, hspelled⟩ := exists_named key h hv hreads.ne_null
  have hread := hreads.read hspelled
  simp only [hp, hread, Option.bind_eq_bind, Option.bind_some]

/-- Two named parts are read on the way to something else. -/
theorem bind_both_of_reads (key key' : String) (h : Members members members') {v' : Json} {a' : α}
    (hv : members.lookup key = some v) (hv' : members.lookup key' = some v')
    (hreads : Reads item v a) (hreads' : Reads item v' a') (next : α → α → Option β) :
    (do
      let p ← (Json.obj members').named? key
      let p' ← (Json.obj members').named? key'
      next (← item p.1) (← item p'.1)) = next a a' := by
  obtain ⟨p', hp', hspelled'⟩ := exists_named key' h hv' hreads'.ne_null
  have hread' := hreads'.read hspelled'
  have hfirst := bind_named_of_reads key h hv hreads fun x => next x a'
  simpa only [hp', hread', Option.bind_eq_bind, Option.bind_some] using hfirst

/-- Something that may be missing is read, whether it is `null` or not there at all. -/
theorem optionalNamed_of_reads (h : Members members members') {form : α → Json} {o : Option α}
    (hv : members.lookup key = some (ofOption form o)) (hreads : ∀ a ∈ o, Reads item (form a) a) :
    optionalNamed? key item (.obj members') = some o := by
  cases o with
  | none =>
    rcases h.absent hv with hnull | hnone
    · simp only [optionalNamed?, hnull, option?]
    · simp only [optionalNamed?, hnone]
  | some a =>
    have hreads := hreads a rfl
    obtain ⟨v', hv', hspelled⟩ := h.found hv hreads.ne_null
    have hread := hreads.read hspelled
    simp only [optionalNamed?, hv']
    cases v' with
    | null =>
      exact absurd (eq_null_of_respelling hspelled) hreads.ne_null
    | _ => simp only [option?, hread, Option.map_some]

theorem optional_of_reads (h : Members members members') {fields : List String}
    {form : α → Json} {o : Option α} (hv : members.lookup key = some (ofOption form o))
    (hreads : ∀ a ∈ o, Reads item (form a) a) :
    optional? fields key item (.obj members') = some o :=
  optionalNamed_of_reads h hv hreads

end Codec

end SqlRecords
