import SqlRecords.Dialect.Statement
import SqlRecords.Proofs.Decimal.Characters
import SqlRecords.Proofs.Dialect.Scan

/-!
# The tokens of a statement keep apart

Every piece of a statement is made of tokens that keep apart (`Sql.Apart`), and a
piece that begins with a word can stand behind any other (`Sql.Follows`). The proofs
follow the functions that write the pieces, one lemma for each: most of what they say
is that somebody wrote a word between two pieces that might begin and end with quotes.
-/

namespace SqlRecords

open Decimal

namespace Sql

variable {p q : Sql} {w : String}

/-- The text can stand between two quoted tokens. -/
def Separates (w : String) : Prop := w.toList ≠ [] ∧ Clean w

instance (w : String) : Decidable (Separates w) :=
  inferInstanceAs (Decidable (w.toList ≠ [] ∧ Clean w))

/-- Tokens that keep apart. -/
def Apart (p : Sql) : Prop := ∃ b, p.Fits false b

/-- Tokens that keep apart and can stand behind any others. -/
def Follows (p : Sql) : Prop := ∀ b, ∃ b', p.Fits b b'

theorem Fits.append {b b' b'' : Bool} (hp : p.Fits b b') (hq : q.Fits b' b'') :
    (p ++ q).Fits b b'' := by
  induction hp with
  | nil => exact hq
  | word hw _ ih => exact .word hw (ih hq)
  | name _ ih => exact .name (ih hq)
  | string _ ih => exact .string (ih hq)
  | fixed _ ih => exact .fixed (ih hq)
  | place _ ih => exact .place (ih hq)

/-! ### Single tokens -/

theorem apart_nil : Apart [] := ⟨false, .nil⟩

theorem apart_name (n : String) : Apart [.name n] := ⟨true, .name .nil⟩

theorem apart_string (s : String) : Apart [.string s] := ⟨true, .string .nil⟩

theorem apart_fixed (s : String) : Apart [.fixed s] := ⟨true, .fixed .nil⟩

theorem apart_place (i : Nat) : Apart [.place i] := ⟨false, .place .nil⟩

theorem Apart.word (hw : Clean w) (hp : p.Apart) : Apart (.word w :: p) := by
  obtain ⟨b, hp⟩ := hp
  exact ⟨b, .word hw hp⟩

theorem follows_nil : Follows [] := fun b => ⟨b, .nil⟩

theorem Follows.word (hw : Separates w) (hp : p.Apart) : Follows (.word w :: p) := by
  intro b
  obtain ⟨b', hp⟩ := hp
  refine ⟨b', .word hw.2 ?_⟩
  rw [List.isEmpty_eq_false_iff.mpr hw.1, Bool.and_false]
  exact hp

/-- A word by itself can stand anywhere. -/
theorem follows_word (hw : Separates w) : Follows [.word w] := .word hw apart_nil

/-! ### Pieces put together -/

theorem Apart.append (hp : p.Apart) (hq : q.Follows) : (p ++ q).Apart := by
  obtain ⟨b, hp⟩ := hp
  obtain ⟨b', hq⟩ := hq b
  exact ⟨b', hp.append hq⟩

theorem Follows.append (hp : p.Follows) (hq : q.Follows) : (p ++ q).Follows := by
  intro b
  obtain ⟨b', hp⟩ := hp b
  obtain ⟨b'', hq⟩ := hq b'
  exact ⟨b'', hp.append hq⟩

theorem Apart.between {before after : String} (hb : Clean before) (hp : p.Apart)
    (ha : Separates after) : (between before p after).Apart :=
  (Apart.word hb hp).append (follows_word ha)

theorem Follows.between {before after : String} (hb : Separates before) (hp : p.Apart)
    (ha : Separates after) : (Sql.between before p after).Follows :=
  (Follows.word hb hp).append (follows_word ha)

/-- Two pieces with words before, between and behind them. -/
theorem Apart.joined {before middle after : String} (hb : Clean before) (hp : p.Apart)
    (hm : Separates middle) (hq : q.Apart) (ha : Separates after) :
    Apart (.word before :: p ++ .word middle :: q ++ [.word after]) :=
  ((Apart.word hb hp).append (.word hm hq)).append (follows_word ha)

theorem apart_separated (hw : Separates w) :
    ∀ {pieces : List Sql}, (∀ p ∈ pieces, p.Apart) → (separated w pieces).Apart
  | [], _ => apart_nil
  | [p], h => h p (List.mem_singleton_self p)
  | p :: q :: rest, h => by
    have hrest := apart_separated hw fun r (hr : r ∈ q :: rest) => h r (List.mem_cons_of_mem p hr)
    exact (h p List.mem_cons_self).append (.word hw hrest)

theorem apart_commas {pieces : List Sql} (h : ∀ p ∈ pieces, p.Apart) : (commas pieces).Apart :=
  apart_separated (by decide) h

/-- Pieces made of the members of a list. -/
theorem apart_commas_map {α : Type} {f : α → Sql} {xs : List α} (h : ∀ x, (f x).Apart) :
    (commas (xs.map f)).Apart :=
  apart_commas fun _ hp => by
    obtain ⟨x, -, rfl⟩ := List.mem_map.mp hp
    exact h x

end Sql

open Sql

/-! ### Words that are put together -/

theorem clean_append {v w : String} (hv : Clean v) (hw : Clean w) : Clean (v ++ w) := by
  intro c hc
  rw [String.toList_append, List.mem_append] at hc
  exact hc.elim (hv c) (hw c)

theorem separates_append {v w : String} (hv : Separates v) (hw : Clean w) : Separates (v ++ w) :=
  ⟨by rw [String.toList_append]; exact List.append_ne_nil_of_left_ne_nil hv.1 _,
    clean_append hv.2 hw⟩

theorem isClean_of_isNumeral {c : Char} (h : IsNumeral c) : IsClean c := by
  have hsigns : Clean (String.ofList numeralSigns) := by decide
  rw [clean_ofList] at hsigns
  exact h.elim isClean_of_isDigit (hsigns c)

theorem clean_toString_int (n : Int) : Clean (toString n) := fun _ hc =>
  isClean_of_isNumeral (isNumeral_of_mem_toString hc)

/-- A number that is written holds no quote. -/
theorem clean_write (l : Layout) (u : Unpacked) : Clean (l.write u) := fun c hc =>
  isClean_of_isNumeral (isNumeric_write l u c hc)

/-! ### Operations -/

namespace Dialect

variable (d : Dialect)

theorem apart_literal (v : Value) : (literal v).Apart := by
  cases v with
  | integer n => exact .word (clean_toString_int _) apart_nil
  | float x =>
    refine .word ?_ apart_nil
    split
    · exact clean_write _ _
    · decide
  | string s => exact apart_string s

theorem apart_columnName (c : Column) : (columnName c).Apart := by
  unfold columnName
  split
  · exact (apart_name _).append (.word (by decide) (apart_name _))
  · exact apart_name _

theorem apart_part (p : DatePart) {arg : Sql} (h : arg.Apart) : (d.part p arg).Apart := by
  cases d with
  | sqlite =>
    exact (Apart.word (by decide) ((apart_fixed _).append (.word (by decide) h))).append
      (follows_word (by decide))
  | postgres => exact .between (by cases p <;> decide) h (by decide)
  | mysql =>
    cases p <;> exact .between (by decide) h (by decide)

theorem apart_arith (o : Arithmetic) {lhs rhs : Sql} (hl : lhs.Apart) (hr : rhs.Apart) :
    (d.arith o lhs rhs).Apart := by
  cases d <;> cases o <;> exact .joined (by decide) hl (by decide) hr (by decide)

theorem apart_round {arg : Sql} (h : arg.Apart) (decimals : UInt32) :
    (d.round arg decimals).Apart := by
  have hn (opening : String) (ho : Separates opening) :
      Separates (opening ++ toString decimals.toNat ++ ")") :=
    separates_append (separates_append ho (clean_toString _)) (by decide)
  cases d <;> exact .between (by decide) h (hn _ (by decide))

theorem apart_trim (side : TrimSide) {arg : Sql} (h : arg.Apart) (chars : String) :
    (d.trim side arg chars).Apart := by
  cases d with
  | sqlite =>
    exact (Apart.word (by cases side <;> decide) h).append
      (.word (by decide) ((apart_string chars).append (follows_word (by decide))))
  | _ =>
    exact (Apart.word (by cases side <;> decide)
      ((apart_string chars).append (.word (by decide) h))).append (follows_word (by decide))

theorem apart_concat {args : List Sql} (h : ∀ p ∈ args, p.Apart) : (d.concat args).Apart := by
  cases d with
  | mysql => exact .between (by decide) (apart_commas h) (by decide)
  | _ => exact .between (by decide) (apart_separated (by decide) h) (by decide)

theorem apart_daysBetween {start finish : Sql} (hs : start.Apart) (hf : finish.Apart) :
    (d.daysBetween start finish).Apart := by
  cases d <;> exact .joined (by decide) hf (by decide) hs (by decide)

theorem apart_datePlus {date : Sql} (h : date.Apart) (durations : List Duration) :
    (d.datePlus date durations).Apart := by
  cases d with
  | sqlite =>
    refine .between (by decide) (apart_commas fun p hp => ?_) (by decide)
    rcases List.mem_cons.mp hp with rfl | hp
    · exact h
    · obtain ⟨u, -, rfl⟩ := List.mem_map.mp hp
      exact apart_fixed _
  | postgres =>
    refine .between (by decide) (apart_separated (by decide) fun p hp => ?_) (by decide)
    rcases List.mem_cons.mp hp with rfl | hp
    · exact h
    · obtain ⟨u, -, rfl⟩ := List.mem_map.mp hp
      exact .word (by decide) (apart_fixed _)
  | mysql =>
    have hwords (u : Duration) : Clean (intervalWords u) := by
      unfold intervalWords
      split <;> exact clean_append (clean_toString_int _) (by decide)
    unfold datePlus
    induction durations generalizing date with
    | nil => exact h
    | cons u rest ih =>
      refine ih (.between (by decide) h ?_)
      exact separates_append (separates_append (by decide) (hwords u)) (by decide)

theorem apart_operand (x : Operand) : (operand x).Apart := by
  cases x with
  | column c => exact apart_columnName c
  | value v => exact apart_literal v

theorem apart_aggregation (a : Aggregation) : (aggregation a).Apart := by
  unfold aggregation
  split
  · exact .between (by next f _ => cases f <;> decide) (apart_operand _) (by decide)
  · exact .word (by decide) apart_nil
  · exact .between (by decide) (apart_operand _) (by decide)
  · exact .between (by decide) (apart_operand _) (by decide)

theorem clean_callOpening (f : ScalarFunction) : Clean (d.callOpening f) := by
  cases d <;> cases f <;> decide

theorem clean_ofLength {opening : String} (ho : Clean opening) (n : Nat) :
    Clean (opening ++ toString n ++ ")") :=
  clean_append (clean_append ho (clean_toString n)) (by decide)

theorem clean_typeName (kind : Kind) : Clean (d.typeName kind) := by
  cases d with
  | sqlite =>
    cases kind with
    | varchar n => exact (show Clean "TEXT" by decide)
    | _ => decide
  | _ =>
    cases kind with
    | varchar n => exact clean_ofLength (by decide) _
    | _ => decide

theorem clean_castName (kind : Kind) : Clean (d.castName kind) := by
  cases d with
  | mysql =>
    cases kind with
    | varchar n => exact clean_ofLength (by decide) _
    | _ => decide
  | _ => exact clean_typeName _ kind

mutual

/-- The tokens of an operation keep apart. -/
theorem apart_operation : ∀ op : Operation, (d.operation op).Apart
  | .call f arg => by
    rw [operation]
    exact .between (clean_callOpening d f) (apart_operation arg) (by decide)
  | .part p arg => by
    rw [operation]
    exact apart_part d p (apart_operation arg)
  | .arith o lhs rhs => by
    rw [operation]
    exact apart_arith d o (apart_operation lhs) (apart_operation rhs)
  | .cast arg kind => by
    rw [operation]
    refine .between (by decide) (apart_operation arg) ?_
    exact separates_append (separates_append (by decide) (clean_castName d kind)) (by decide)
  | .coalesce args => by
    rw [operation]
    exact .between (by decide) (apart_commas (apart_operations args)) (by decide)
  | .concat args => by
    rw [operation]
    exact apart_concat d (apart_operations args)
  | .datePlus date durations => by
    rw [operation]
    exact apart_datePlus d (apart_operation date) durations
  | .daysBetween start finish => by
    rw [operation]
    exact apart_daysBetween d (apart_operation start) (apart_operation finish)
  | .replaceAll arg piece substitute => by
    rw [operation]
    refine .between (by decide) (apart_commas fun p hp => ?_) (by decide)
    simp only [List.mem_cons, List.not_mem_nil, or_false] at hp
    rcases hp with rfl | rfl | rfl
    · exact apart_operation arg
    · exact apart_operation piece
    · exact apart_operation substitute
  | .round arg decimals => by
    rw [operation]
    exact apart_round d (apart_operation arg) decimals
  | .trim side arg chars => by
    rw [operation]
    exact apart_trim d side (apart_operation arg) chars
  | .aggregate a => by
    rw [operation]
    exact apart_aggregation a
  | .column c => by
    rw [operation]
    exact apart_columnName c
  | .value v => by
    rw [operation]
    exact apart_literal v

/-- So do those of each of some operations. -/
theorem apart_operations : ∀ ops : List Operation, ∀ p ∈ d.operations ops, p.Apart
  | [], p, hp => by
    rw [operations] at hp
    cases hp
  | op :: rest, p, hp => by
    rw [operations] at hp
    rcases List.mem_cons.mp hp with rfl | hp
    · exact apart_operation op
    · exact apart_operations rest p hp

end

/-! ### Conditions and queries -/

/-- The tokens of a condition keep apart. -/
theorem apart_condition : ∀ c : Condition, (d.condition c).Apart
  | .and lhs rhs | .or lhs rhs =>
    .joined (by decide) (apart_condition lhs) (by decide) (apart_condition rhs) (by decide)
  | .not c => .between (by decide) (apart_condition c) (by decide)
  | .compare o lhs rhs =>
    (apart_operation d lhs).append (.word (by cases o <;> decide) (apart_operation d rhs))
  | .isNull arg | .isNotNull arg => (apart_operation d arg).append (follows_word (by decide))
  | .like arg pattern | .notLike arg pattern =>
    (apart_operation d arg).append (.word (by decide) (apart_string pattern))

theorem apart_tableName (t : Table) : (tableName t).Apart := by
  unfold tableName
  split
  · exact (apart_name _).append (.word (by decide) (apart_name _))
  · exact apart_name _

theorem apart_tableSource (t : Table) : (tableSource t).Apart := by
  unfold tableSource
  split
  · exact (apart_tableName t).append (.word (by decide) (apart_name _))
  · exact apart_tableName t

theorem apart_selectFields (fields : List SelectField) : (d.selectFields fields).Apart := by
  have hfield (f : SelectField) : (d.selectField f).Apart := by
    refine (apart_operation d f.op).append ?_
    split
    · exact .word (by decide) (apart_name _)
    · exact follows_nil
  unfold selectFields
  split
  · exact .word (by decide) apart_nil
  · exact apart_commas_map hfield

theorem follows_whereClause (c : Option Condition) : (d.whereClause c).Follows := by
  cases c with
  | none => exact follows_nil
  | some c => exact .word (by decide) (apart_condition d c)

theorem follows_groupByClause (columns : List Column) : (groupByClause columns).Follows := by
  cases columns with
  | nil => exact follows_nil
  | cons c rest => exact .word (by decide) (apart_commas_map apart_columnName)

theorem follows_orderByClause (orders : List OrderBy) : (orderByClause orders).Follows := by
  cases orders with
  | nil => exact follows_nil
  | cons o rest =>
    refine .word (by decide) (apart_commas_map fun o => (apart_columnName o.column).append ?_)
    split
    · exact follows_word (by decide)
    · exact follows_nil

theorem follows_limitClause (limit : Option UInt64) : (limitClause limit).Follows := by
  cases limit with
  | none => exact follows_nil
  | some n => exact follows_word (separates_append (by decide) (clean_toString _))

mutual

/-- The tokens of a query keep apart. -/
theorem apart_select : ∀ q : Select, (d.select q).Apart
  | ⟨source, fields, js, filter, groupBy, orderBy, limit⟩ => by
    rw [select]
    have hfrom := (Apart.word (w := "SELECT ") (by decide) (apart_selectFields d fields)).append
      (.word (w := " FROM ") (by decide) (apart_source source))
    exact ((((hfrom.append (follows_joins js)).append (follows_whereClause d filter)).append
      (follows_groupByClause groupBy)).append (follows_orderByClause orderBy)).append
        (follows_limitClause limit)

/-- So do those of a source, -/
theorem apart_source : ∀ s : SourceOf Select, (d.source s).Apart
  | .table t => by
    rw [source]
    exact apart_tableSource t
  | .query q name => by
    rw [source]
    exact (Apart.word (by decide) (apart_select q)).append (.word (by decide) (apart_name name))

/-- those of joins, -/
theorem follows_joins : ∀ js : List (JoinOf Select), (d.joins js).Follows
  | [] => by
    rw [joins]
    exact follows_nil
  | j :: rest => by
    rw [joins]
    exact (Follows.word (by decide) (apart_join j)).append (follows_joins rest)

/-- and those of a join. -/
theorem apart_join : ∀ j : JoinOf Select, (d.join j).Apart
  | ⟨kind, source, condition⟩ => by
    rw [join]
    exact (Apart.word (by cases kind <;> decide) (apart_source source)).append
      (.word (by decide) (apart_condition d condition))

end

/-! ### Statements -/

theorem apart_optionalWord {w v : String} (hw : Clean w) (hv : Clean v) (flag : Bool) {p : Sql}
    (hp : p.Apart) : Apart (.word w :: optionalWord flag v ++ p) := by
  cases flag with
  | false => exact .word hw hp
  | true => exact .word hw (.word hv hp)

theorem follows_optionalWord (flag : Bool) {w : String} (hw : Separates w) :
    (optionalWord flag w).Follows := by
  cases flag with
  | false => exact follows_nil
  | true => exact follows_word hw

theorem apart_columnNames (columns : List Column) : (columnNames columns).Apart :=
  apart_commas_map fun c => apart_name c.name

theorem apart_tableDefinition (columns : List Column) : (d.tableDefinition columns).Apart := by
  refine apart_commas fun p hp => ?_
  simp only [List.mem_append, List.mem_map, List.mem_filterMap] at hp
  rcases hp with (⟨c, -, rfl⟩ | hp) | ⟨c, -, hc⟩
  · have hwords (p : Properties) : Clean (d.propertyWords p) := by
      unfold propertyWords
      split
      · cases d <;> decide
      · split <;> split <;> decide
    exact (apart_name _).append (.word (by decide)
      (.word (clean_typeName d _) (.word (hwords _) apart_nil)))
  · unfold primaryKeyClause at hp
    split at hp
    · cases hp
    · obtain rfl := List.mem_singleton.mp hp
      exact .between (by decide) (apart_columnNames _) (by decide)
  · unfold foreignKeyClause at hc
    obtain ⟨r, -, rfl⟩ := Option.map_eq_some_iff.mp hc
    exact .word (by decide) ((apart_name _).append (.word (by decide)
      ((apart_name _).append (.word (by decide) ((apart_name _).append (follows_word (by decide)))))))

theorem apart_insertRows {opening : String} (ho : Clean opening) (t : Table)
    (columns : List Column) : (insertRows opening t columns).Apart := by
  have hplaces : (places columns.length).Apart := apart_commas_map fun i => apart_place (i + 1)
  exact ((Apart.word ho (apart_tableName t)).append
    (.between (by decide) (apart_columnNames columns) (by decide))).append
      (.between (by decide) hplaces (by decide))

theorem apart_overwrite (c : Column) : (d.overwrite c).Apart := by
  cases d with
  | mysql =>
    exact (apart_name _).append
      (.word (by decide) ((apart_name _).append (follows_word (by decide))))
  | _ => exact (apart_name _).append (.word (by decide) (apart_name _))

theorem follows_onConflict (s : Insert) : (d.onConflict s).Follows := by
  refine (Follows.between (by decide) (apart_columnNames _) (by decide)).append ?_
  split
  · exact follows_word (by decide)
  · exact .word (by decide) (apart_commas_map (apart_overwrite d))

/-- Tokens that keep apart, and the semicolon that ends them. -/
def IsEnded (sql : Sql) : Prop := ∃ body : Sql, body.Apart ∧ sql = body ++ [Token.word ";"]

theorem isEnded_insert (s : Insert) : IsEnded (d.insert s) := by
  refine ⟨_, ?_, rfl⟩
  have hopening : Clean "INSERT INTO " := by decide
  have hplain := apart_insertRows hopening s.table s.columns
  split
  · exact hplain
  · split
    · exact apart_insertRows (by decide) _ _
    · exact hplain.append (follows_word (by decide))
    · exact hplain.append (follows_onConflict _ s)
    · exact hplain.append (follows_onConflict _ s)
    · split
      · exact apart_insertRows (by decide) _ _
      · exact hplain.append (.word (by decide) (apart_commas_map (apart_overwrite _)))

theorem isEnded_write (s : Write) : IsEnded (d.write s) := by
  cases d with
  | postgres =>
    have htarget := (Apart.word (w := "COPY ") (by decide) (apart_tableName s.table)).append
      (.between (show Separates "(" by decide) (apart_columnNames s.columns)
        (show Separates ")" by decide))
    have hformat : Sql.Follows [.word " FROM STDIN WITH (FORMAT csv, DELIMITER E", .fixed "\\t",
        .word ", NULL ", .fixed "\\N", .word ", QUOTE ", .fixed "\"", .word ")"] :=
      .word (by decide) ((apart_fixed _).append (.word (by decide) ((apart_fixed _).append
        (.word (by decide) ((apart_fixed _).append (follows_word (by decide)))))))
    exact ⟨_, htarget.append hformat, by simp [write]⟩
  | _ => exact ⟨_, apart_insertRows (by decide) _ _, rfl⟩

/-- **The tokens of a statement keep apart**, up to the semicolon that ends them. -/
theorem isEnded_statement (s : Statement) : IsEnded (d.statement s) := by
  cases s with
  | createTable s =>
    refine ⟨_, Apart.append ?_ ?_, rfl⟩
    · exact apart_optionalWord (by decide) (by decide) _ (apart_tableName s.table)
    · exact .between (by decide) (apart_tableDefinition d _) (by decide)
  | createIndex s =>
    refine ⟨_, Apart.append (Apart.append ?_ ?_) ?_, rfl⟩
    · rw [List.append_assoc]
      exact apart_optionalWord (by decide) (by decide) _
        (apart_optionalWord (by decide) (by decide) _
          ((apart_name _).append (.word (by decide) (apart_tableName s.table))))
    · exact .between (by decide) (apart_columnNames _) (by decide)
    · split
      · exact follows_nil
      · exact follows_whereClause d _
  | createAs s =>
    have hwords : Clean (d.createAsWords s) := by
      unfold createAsWords
      split <;> split <;> decide
    exact ⟨_, (Apart.word hwords (apart_tableName _)).append
      (.word (by decide) (apart_select d _)), rfl⟩
  | insert s => exact isEnded_insert d s
  | write s => exact isEnded_write d s
  | select s => exact ⟨_, apart_select d s, rfl⟩
  | update s =>
    have hset (a : Assignment) : (d.assignment a).Apart :=
      (apart_name _).append (.word (by decide) (apart_operation d a.value))
    exact ⟨_, ((Apart.word (by decide) (apart_tableName _)).append
      (.word (by decide) (apart_commas_map hset))).append (follows_whereClause d _), rfl⟩
  | delete s =>
    exact ⟨_, (Apart.word (by decide) (apart_tableName _)).append (follows_whereClause d _), rfl⟩
  | drop s =>
    refine ⟨_, Apart.append ?_ ?_, rfl⟩
    · exact apart_optionalWord (by cases s.kind <;> decide) (by decide) _ (apart_tableName _)
    · exact follows_optionalWord _ (by decide)

end Dialect

end SqlRecords
