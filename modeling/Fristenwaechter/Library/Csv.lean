import Mathlib.Data.List.Basic
import Mathlib.Data.List.Nodup

/-!
Owns comma-separated values over any alphabet: the writer, which quotes a field only where
it has to, and the reader as a machine over symbols. What was written is read back, with
delimiters, quotes and line ends in the fields, empty fields and empty rows.
-/

namespace Fristenwaechter.Library.Csv

/-- The symbols with a meaning. A row ends with `carriage` and `newline`. -/
structure Dialect (Symbol : Type) where
  delimiter : Symbol
  quote : Symbol
  carriage : Symbol
  newline : Symbol
  distinct : [delimiter, quote, carriage, newline].Nodup

variable {Symbol : Type} [DecidableEq Symbol] (dialect : Dialect Symbol)

/-! ### Writing -/

/-- A field with this symbol is quoted. -/
def Dialect.special (c : Symbol) : Bool :=
  c = dialect.delimiter ∨ c = dialect.quote ∨ c = dialect.carriage ∨ c = dialect.newline

/-- A quote within quotes is doubled. -/
def Dialect.doubled (c : Symbol) : List Symbol :=
  if c = dialect.quote then [c, c] else [c]

def Dialect.quoted (field : List Symbol) : List Symbol :=
  dialect.quote :: (field.flatMap dialect.doubled ++ [dialect.quote])

def Dialect.writeField (field : List Symbol) : List Symbol :=
  if field.any dialect.special then dialect.quoted field else field

def Dialect.writeFields : List (List Symbol) → List Symbol
  | [] => []
  | [field] => dialect.writeField field
  | field :: rest => dialect.writeField field ++ dialect.delimiter :: writeFields rest

/-- A single empty field is quoted, an empty row is an empty line. -/
def Dialect.writeRow (row : List (List Symbol)) : List Symbol :=
  (if row = [[]] then dialect.quoted [] else dialect.writeFields row) ++
    [dialect.carriage, dialect.newline]

def Dialect.write (rows : List (List (List Symbol))) : List Symbol :=
  rows.flatMap dialect.writeRow

/-! ### Reading -/

inductive Mode where
  | startRecord
  | startField
  | inField
  | inQuoted
  | quoteInQuoted
  | afterCarriage
deriving DecidableEq

/-- The field, the record and the rows so far. -/
structure Reader (Symbol : Type) where
  mode : Mode
  field : List Symbol
  record : List (List Symbol)
  rows : List (List (List Symbol))

namespace Reader

/-- The end of a field. -/
def save (reader : Reader Symbol) : Reader Symbol :=
  { reader with mode := .startField, field := [], record := reader.record ++ [reader.field] }

/-- The end of a record; a `carriage` may have its `newline` behind it. -/
def finish (reader : Reader Symbol) (c : Symbol) : Reader Symbol :=
  { mode := if c = dialect.carriage then .afterCarriage else .startRecord
    field := []
    record := []
    rows := reader.rows ++ [reader.record] }

def push (reader : Reader Symbol) (mode : Mode) (c : Symbol) : Reader Symbol :=
  { reader with mode := mode, field := reader.field ++ [c] }

/-- A symbol after a complete field, or one that goes on with it. -/
def close (reader : Reader Symbol) (c : Symbol) (otherwise : Reader Symbol) : Reader Symbol :=
  if c = dialect.carriage ∨ c = dialect.newline then reader.save.finish dialect c
  else if c = dialect.delimiter then reader.save
  else otherwise

def begin (reader : Reader Symbol) (c : Symbol) : Reader Symbol :=
  if c = dialect.quote then { reader with mode := .inQuoted }
  else reader.close dialect c (reader.push .inField c)

def beginRecord (reader : Reader Symbol) (c : Symbol) : Reader Symbol :=
  if c = dialect.carriage ∨ c = dialect.newline then reader.finish dialect c
  else reader.begin dialect c

def step (reader : Reader Symbol) (c : Symbol) : Reader Symbol :=
  match reader.mode with
  | .startRecord => reader.beginRecord dialect c
  | .afterCarriage =>
      if c = dialect.newline then { reader with mode := .startRecord }
      else reader.beginRecord dialect c
  | .startField => reader.begin dialect c
  | .inField => reader.close dialect c (reader.push .inField c)
  | .inQuoted =>
      if c = dialect.quote then { reader with mode := .quoteInQuoted }
      else reader.push .inQuoted c
  | .quoteInQuoted =>
      if c = dialect.quote then reader.push .inQuoted c
      else reader.close dialect c (reader.push .inField c)

def result (reader : Reader Symbol) : List (List (List Symbol)) :=
  match reader.mode with
  | .startRecord | .afterCarriage => reader.rows
  | _ => reader.rows ++ [reader.record ++ [reader.field]]

end Reader

def Dialect.read (text : List Symbol) : List (List (List Symbol)) :=
  (text.foldl (Reader.step dialect) ⟨.startRecord, [], [], []⟩).result

/-! ### Fields -/

section Fields

variable {dialect} {field : List Symbol} {record : List (List Symbol)}
variable {rows : List (List (List Symbol))} {c : Symbol}

theorem special_iff : dialect.special c = true ↔
    c = dialect.delimiter ∨ c = dialect.quote ∨ c = dialect.carriage ∨ c = dialect.newline :=
  decide_eq_true_iff

omit [DecidableEq Symbol] in
theorem Dialect.apart (dialect : Dialect Symbol) :
    dialect.delimiter ≠ dialect.quote ∧ dialect.delimiter ≠ dialect.carriage ∧
      dialect.delimiter ≠ dialect.newline ∧ dialect.quote ≠ dialect.carriage ∧
      dialect.quote ≠ dialect.newline ∧ dialect.carriage ≠ dialect.newline := by
  have distinct := dialect.distinct
  simp only [List.nodup_cons, List.mem_cons, List.not_mem_nil, or_false, not_or] at distinct
  exact ⟨distinct.1.1, distinct.1.2.1, distinct.1.2.2, distinct.2.1.1, distinct.2.1.2,
    distinct.2.2.1⟩

/-- The modes in which a field may be complete. -/
def Mode.Closed (mode : Mode) : Prop :=
  mode = .startField ∨ mode = .inField ∨ mode = .quoteInQuoted

theorem step_delimiter {mode : Mode} (closed : mode.Closed) :
    Reader.step dialect ⟨mode, field, record, rows⟩ dialect.delimiter =
      ⟨.startField, [], record ++ [field], rows⟩ := by
  obtain ⟨notQuote, notCarriage, notNewline, _⟩ := dialect.apart
  rcases closed with rfl | rfl | rfl <;>
    simp [Reader.step, Reader.begin, Reader.close, Reader.save, notQuote, notCarriage, notNewline]

theorem step_carriage {mode : Mode} (closed : mode.Closed) :
    Reader.step dialect ⟨mode, field, record, rows⟩ dialect.carriage =
      ⟨.afterCarriage, [], [], rows ++ [record ++ [field]]⟩ := by
  obtain ⟨_, _, _, notQuote, _⟩ := dialect.apart
  rcases closed with rfl | rfl | rfl <;>
    simp [Reader.step, Reader.begin, Reader.close, Reader.save, Reader.finish, notQuote.symm]

theorem read_plain {text : List Symbol} (plain : text.any dialect.special = false) :
    text.foldl (Reader.step dialect) ⟨.inField, field, record, rows⟩ =
      ⟨.inField, field ++ text, record, rows⟩ := by
  induction text generalizing field with
  | nil => simp
  | cons c rest inductionHypothesis =>
      rw [List.any_cons, Bool.or_eq_false_iff] at plain
      have ordinary : ¬ dialect.special c = true := by simp [plain.1]
      rw [special_iff, not_or, not_or, not_or] at ordinary
      obtain ⟨notDelimiter, _, notCarriage, notNewline⟩ := ordinary
      have pushed : Reader.step dialect ⟨.inField, field, record, rows⟩ c =
          ⟨.inField, field ++ [c], record, rows⟩ := by
        simp [Reader.step, Reader.close, Reader.push, notDelimiter, notCarriage, notNewline]
      rw [List.foldl_cons, pushed, inductionHypothesis plain.2, List.append_assoc]
      rfl

theorem read_doubled (text : List Symbol) :
    (text.flatMap dialect.doubled).foldl (Reader.step dialect) ⟨.inQuoted, field, record, rows⟩ =
      ⟨.inQuoted, field ++ text, record, rows⟩ := by
  induction text generalizing field with
  | nil => simp
  | cons c rest inductionHypothesis =>
      have pushed : (dialect.doubled c).foldl (Reader.step dialect)
          ⟨.inQuoted, field, record, rows⟩ = ⟨.inQuoted, field ++ [c], record, rows⟩ := by
        by_cases isQuote : c = dialect.quote
        · simp [Dialect.doubled, isQuote, Reader.step, Reader.push]
        · simp [Dialect.doubled, isQuote, Reader.step, Reader.push]
      rw [List.flatMap_cons, List.foldl_append, pushed, inductionHypothesis, List.append_assoc]
      rfl

theorem read_quoted (text : List Symbol) :
    (text.flatMap dialect.doubled ++ [dialect.quote]).foldl (Reader.step dialect)
        ⟨.inQuoted, [], record, rows⟩ =
      ⟨.quoteInQuoted, text, record, rows⟩ := by
  rw [List.foldl_append, read_doubled]
  simp [Reader.step]

theorem read_field (dialect : Dialect Symbol) (text : List Symbol) (record : List (List Symbol))
    (rows : List (List (List Symbol))) :
    ∃ mode : Mode, mode.Closed ∧
      (dialect.writeField text).foldl (Reader.step dialect) ⟨.startField, [], record, rows⟩ =
        ⟨mode, text, record, rows⟩ := by
  by_cases isSpecial : text.any dialect.special = true
  · refine ⟨.quoteInQuoted, .inr (.inr rfl), ?_⟩
    rw [Dialect.writeField, if_pos isSpecial, Dialect.quoted, List.foldl_cons]
    have opened : Reader.step dialect ⟨.startField, [], record, rows⟩ dialect.quote =
        ⟨.inQuoted, [], record, rows⟩ := by
      simp [Reader.step, Reader.begin]
    rw [opened, read_quoted]
  · rw [Bool.not_eq_true] at isSpecial
    rw [Dialect.writeField, isSpecial, if_neg (by simp)]
    cases text with
    | nil => exact ⟨.startField, .inl rfl, rfl⟩
    | cons c rest =>
        refine ⟨.inField, .inr (.inl rfl), ?_⟩
        rw [List.any_cons, Bool.or_eq_false_iff] at isSpecial
        have ordinary : ¬ dialect.special c = true := by simp [isSpecial.1]
        rw [special_iff, not_or, not_or, not_or] at ordinary
        obtain ⟨notDelimiter, notQuote, notCarriage, notNewline⟩ := ordinary
        have pushed : Reader.step dialect ⟨.startField, [], record, rows⟩ c =
            ⟨.inField, [c], record, rows⟩ := by
          simp [Reader.step, Reader.begin, Reader.close, Reader.push, notDelimiter, notQuote,
            notCarriage, notNewline]
        rw [List.foldl_cons, pushed, read_plain isSpecial.2]
        rfl

end Fields

/-! ### Rows -/

section Rows

variable {dialect} {record row : List (List Symbol)} {rows : List (List (List Symbol))}

theorem writeFields_cons {field next : List Symbol} {others : List (List Symbol)} :
    dialect.writeFields (field :: next :: others) =
      dialect.writeField field ++ dialect.delimiter :: dialect.writeFields (next :: others) :=
  rfl

theorem read_fields (dialect : Dialect Symbol) (some : row ≠ []) :
    (dialect.writeFields row ++ [dialect.carriage]).foldl (Reader.step dialect)
        ⟨.startField, [], record, rows⟩ =
      ⟨.afterCarriage, [], [], rows ++ [record ++ row]⟩ := by
  induction row generalizing record with
  | nil => exact absurd rfl some
  | cons field rest inductionHypothesis =>
      obtain ⟨mode, closed, read⟩ := read_field dialect field record rows
      cases rest with
      | nil =>
          rw [Dialect.writeFields, List.foldl_append, read]
          exact step_carriage closed
      | cons next others =>
          rw [writeFields_cons, List.append_assoc, List.foldl_append, read, List.cons_append,
            List.foldl_cons, step_delimiter closed, inductionHypothesis (List.cons_ne_nil _ _),
            List.append_assoc]
          rfl

theorem writeField_begins {field : List Symbol} {c : Symbol} {rest : List Symbol}
    (begins : dialect.writeField field = c :: rest) :
    c ≠ dialect.carriage ∧ c ≠ dialect.newline := by
  obtain ⟨_, _, _, notCarriage, notNewline, _⟩ := dialect.apart
  unfold Dialect.writeField at begins
  split at begins
  · cases begins
    exact ⟨notCarriage, notNewline⟩
  · rename_i ordinary
    rw [begins, List.any_cons, Bool.or_eq_true, not_or, special_iff] at ordinary
    exact ⟨fun same => ordinary.1 (.inr (.inr (.inl same))),
      fun same => ordinary.1 (.inr (.inr (.inr same)))⟩

theorem writeFields_begins (some : row ≠ []) (notBlank : row ≠ [[]]) :
    ∃ c rest, dialect.writeFields row = c :: rest ∧ c ≠ dialect.carriage ∧
      c ≠ dialect.newline := by
  obtain ⟨field, others, rfl⟩ := List.exists_cons_of_ne_nil some
  obtain ⟨_, delimiterCarriage, delimiterNewline, _⟩ := dialect.apart
  cases written : dialect.writeField field with
  | nil =>
      cases others with
      | nil =>
          have isEmpty : field = [] := by
            unfold Dialect.writeField at written
            split at written
            · cases written
            · exact written
          exact absurd (by rw [isEmpty]) notBlank
      | cons next others =>
          refine ⟨dialect.delimiter, dialect.writeFields (next :: others), ?_, delimiterCarriage,
            delimiterNewline⟩
          rw [writeFields_cons, written]
          rfl
  | cons c rest =>
      obtain ⟨notCarriage, notNewline⟩ := writeField_begins written
      cases others with
      | nil => exact ⟨c, rest, by rw [Dialect.writeFields, written], notCarriage, notNewline⟩
      | cons next others =>
          refine ⟨c, rest ++ dialect.delimiter :: dialect.writeFields (next :: others), ?_,
            notCarriage, notNewline⟩
          rw [writeFields_cons, written]
          rfl

theorem begin_any_mode {one two : Mode} {field : List Symbol} {c : Symbol} :
    Reader.begin dialect ⟨one, field, record, rows⟩ c =
      Reader.begin dialect ⟨two, field, record, rows⟩ c := by
  unfold Reader.begin Reader.close
  split_ifs <;> rfl

theorem read_line (row : List (List Symbol)) :
    ((if row = [[]] then dialect.quoted [] else dialect.writeFields row) ++
        [dialect.carriage]).foldl (Reader.step dialect) ⟨.startRecord, [], [], rows⟩ =
      ⟨.afterCarriage, [], [], rows ++ [row]⟩ := by
  obtain ⟨_, _, _, quoteCarriage, quoteNewline, _⟩ := dialect.apart
  by_cases blank : row = [[]]
  · have opened : Reader.step dialect ⟨.startRecord, [], [], rows⟩ dialect.quote =
        ⟨.inQuoted, [], [], rows⟩ := by
      simp [Reader.step, Reader.beginRecord, Reader.begin, quoteCarriage, quoteNewline]
    rw [if_pos blank, Dialect.quoted, List.cons_append, List.foldl_cons, opened,
      List.foldl_append, read_quoted, blank]
    exact step_carriage (.inr (.inr rfl))
  · rw [if_neg blank]
    by_cases empty : row = []
    · rw [empty]
      simp [Dialect.writeFields, Reader.step, Reader.beginRecord, Reader.finish]
    · -- the first symbol of a record is read like the first symbol of a field
      have fields : (dialect.writeFields row ++ [dialect.carriage]).foldl (Reader.step dialect)
          ⟨.startField, [], [], rows⟩ = ⟨.afterCarriage, [], [], rows ++ [[] ++ row]⟩ :=
        read_fields dialect empty
      obtain ⟨c, rest, begins, notCarriage, notNewline⟩ := writeFields_begins empty blank
      have same : Reader.step dialect ⟨.startRecord, [], [], rows⟩ c =
          Reader.step dialect ⟨.startField, [], [], rows⟩ c := by
        change Reader.beginRecord dialect _ c = Reader.begin dialect _ c
        rw [Reader.beginRecord, if_neg (not_or.mpr ⟨notCarriage, notNewline⟩)]
        exact begin_any_mode
      rw [begins, List.cons_append, List.foldl_cons] at fields ⊢
      rw [same, fields, List.nil_append]

theorem read_row (row : List (List Symbol)) :
    (dialect.writeRow row).foldl (Reader.step dialect) ⟨.startRecord, [], [], rows⟩ =
      ⟨.startRecord, [], [], rows ++ [row]⟩ := by
  have split : dialect.writeRow row =
      ((if row = [[]] then dialect.quoted [] else dialect.writeFields row) ++
        [dialect.carriage]) ++ [dialect.newline] := by
    simp [Dialect.writeRow]
  rw [split, List.foldl_append, read_line]
  simp [Reader.step]

/-- **What was written is read back.** -/
theorem read_write (rows : List (List (List Symbol))) :
    dialect.read (dialect.write rows) = rows := by
  have reads : ∀ before, (dialect.write rows).foldl (Reader.step dialect)
      ⟨.startRecord, [], [], before⟩ = ⟨.startRecord, [], [], before ++ rows⟩ := by
    induction rows with
    | nil => simp [Dialect.write]
    | cons row rest inductionHypothesis =>
        intro before
        change (dialect.writeRow row ++ dialect.write rest).foldl _ _ = _
        rw [List.foldl_append, read_row, inductionHypothesis, List.append_assoc]
        rfl
  rw [Dialect.read, reads]
  rfl

end Rows

end Fristenwaechter.Library.Csv
