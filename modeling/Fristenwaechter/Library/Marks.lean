import Fristenwaechter.Library.Table

/-!
Owns marks: properties of a row that are never taken back. A change that sets marks or leaves
them alone keeps them all, also where it is applied to another version of the row than the one
it was made for.
-/

namespace Fristenwaechter.Library.Table

open Keyed (key)

variable {Row Key Index : Type} [Keyed Row Key] {marks : Index → Row → Prop}

/-- A later version of a row: it has the key of the row, and every mark of it. -/
structure Marked (marks : Index → Row → Prop) (row later : Row) : Prop where
  key : Keyed.key later = Keyed.key row
  kept : ∀ index, marks index row → marks index later

theorem Marked.refl (row : Row) : Marked marks row row :=
  ⟨rfl, fun _ marked => marked⟩

theorem Marked.trans {first second third : Row} (one : Marked marks first second)
    (two : Marked marks second third) : Marked marks first third :=
  ⟨two.key.trans one.key, fun index marked => two.kept index (one.kept index marked)⟩

/-- Each mark is either set by the change on the rows that it is for, or left alone. -/
structure Marking (marks : Index → Row → Prop) (wanted : Key) (change : Row → Row) : Prop where
  keeps : ∀ row, key (change row) = key row
  marks : ∀ index, (∀ row, key row = wanted → marks index (change row)) ∨
    ∀ row, marks index (change row) ↔ marks index row

theorem Marking.marked {wanted : Key} {change : Row → Row} (marking : Marking marks wanted change)
    {row : Row} (own : key row = wanted) : Marked marks row (change row) := by
  refine ⟨marking.keeps row, fun index marked => ?_⟩
  rcases marking.marks index with sets | leaves
  · exact sets row own
  · exact (leaves row).mpr marked

theorem Marking.marked_both {wanted : Key} {change : Row → Row}
    (marking : Marking marks wanted change) {row later : Row} (own : key row = wanted)
    (earlier : Marked marks row later) : Marked marks (change row) (change later) := by
  refine ⟨?_, fun index marked => ?_⟩
  · rw [marking.keeps, marking.keeps, earlier.key]
  · rcases marking.marks index with sets | leaves
    · exact sets later (earlier.key.trans own)
    · exact (leaves later).mpr (earlier.kept index ((leaves row).mp marked))

namespace Carries

/-- Two earlier versions of one row have one later version. -/
theorem unite {before between after : Table Row} {row other : Row}
    (one : Carries (Marked marks) before after) (two : Carries (Marked marks) between after)
    (rowIn : row ∈ before) (otherIn : other ∈ between) (same : key other = key row) :
    ∃ later ∈ after, Marked marks row later ∧ Marked marks other later := by
  obtain ⟨later, laterIn, fromRow⟩ := one row rowIn
  obtain ⟨last, lastIn, fromOther⟩ := two other otherIn
  have isLater : last = later :=
    eq_of_key lastIn laterIn ((fromOther.key.trans same).trans fromRow.key.symm)
  exact ⟨later, laterIn, fromRow, isLater ▸ fromOther⟩

variable [DecidableEq Key] {table before after : Table Row} {wanted : Key} {change : Row → Row}

theorem settle {view middle : Table Row} {seen stored : Row}
    (isMarking : Marking marks wanted change) (one : Carries (Marked marks) view after)
    (two : Carries (Marked marks) (middle.update wanted change) after) (seenIn : seen ∈ view)
    (storedIn : stored ∈ middle) (own : key seen = wanted) (same : key stored = wanted) :
    ∃ later ∈ after, key later = wanted ∧
      ∀ index, marks index seen ∨ marks index (change stored) → marks index later := by
  have changed : change stored ∈ middle.update wanted change :=
    (mem_update isMarking.keeps).mpr ⟨stored, storedIn, by rw [if_pos same]⟩
  obtain ⟨later, laterIn, fromSeen, fromChanged⟩ :=
    one.unite two seenIn changed ((isMarking.keeps stored).trans (same.trans own.symm))
  refine ⟨later, laterIn, fromSeen.key.trans own, fun index has => ?_⟩
  rcases has with before | set
  · exact fromSeen.kept index before
  · exact fromChanged.kept index set

theorem marking (isMarking : Marking marks wanted change) :
    Carries (Marked marks) table (table.update wanted change) :=
  .update .refl isMarking.keeps fun _ _ own => isMarking.marked own

theorem marking_both (isMarking : Marking marks wanted change)
    (carries : Carries (Marked marks) before after) :
    Carries (Marked marks) (before.update wanted change) (after.update wanted change) := by
  intro row member
  obtain ⟨old, oldIn, rfl⟩ := (mem_update isMarking.keeps).mp member
  obtain ⟨later, laterIn, earlier⟩ := carries old oldIn
  refine ⟨_, (mem_update isMarking.keeps).mpr ⟨later, laterIn, rfl⟩, ?_⟩
  rw [earlier.key]
  split
  · exact isMarking.marked_both ‹_› earlier
  · exact earlier

/-! ### The same change to many rows -/

variable {keys : List Key}

theorem markEach (isMarking : ∀ wanted ∈ keys, Marking marks wanted change) :
    Carries (Marked marks) table
      (keys.foldl (fun current wanted => current.update wanted change) table) := by
  induction keys generalizing table with
  | nil => exact .refl .refl table
  | cons first rest inductionHypothesis =>
      have once : Carries (Marked marks) table (table.update first change) :=
        marking (isMarking first List.mem_cons_self)
      exact once.trans .trans
        (inductionHypothesis fun wanted member => isMarking wanted (List.mem_cons_of_mem _ member))

theorem markEach_both (isMarking : ∀ wanted ∈ keys, Marking marks wanted change)
    (carries : Carries (Marked marks) before after) :
    Carries (Marked marks)
      (keys.foldl (fun current wanted => current.update wanted change) before)
      (keys.foldl (fun current wanted => current.update wanted change) after) := by
  induction keys generalizing before after with
  | nil => exact carries
  | cons first rest inductionHypothesis =>
      exact inductionHypothesis
        (fun wanted member => isMarking wanted (List.mem_cons_of_mem _ member))
        (marking_both (isMarking first List.mem_cons_self) carries)

theorem markEach_sets (isMarking : ∀ wanted ∈ keys, Marking marks wanted change) (index : Index)
    (sets : ∀ row, marks index (change row)) {row : Row} (member : row ∈ table)
    (inside : key row ∈ keys) :
    ∃ later ∈ keys.foldl (fun current wanted => current.update wanted change) table,
      Marked marks row later ∧ marks index later := by
  obtain ⟨first, rest, rfl⟩ := List.append_of_mem inside
  rw [List.foldl_append, List.foldl_cons]
  -- the row as the changes before its own leave it
  have early : Carries (Marked marks) table
      (first.foldl (fun current wanted => current.update wanted change) table) :=
    markEach fun wanted own => isMarking wanted (List.mem_append_left _ own)
  obtain ⟨middle, middleIn, toMiddle⟩ := early row member
  have own := isMarking (key row) inside
  have changed : change middle ∈ (first.foldl (fun current wanted =>
      current.update wanted change) table).update (key row) change :=
    (mem_update own.keeps).mpr ⟨middle, middleIn, by rw [if_pos toMiddle.key]⟩
  obtain ⟨later, laterIn, toLater⟩ := markEach
    (fun wanted other => isMarking wanted (List.mem_append_right _ (List.mem_cons_of_mem _ other)))
    _ changed
  exact ⟨later, laterIn, (toMiddle.trans (own.marked toMiddle.key)).trans toLater,
    toLater.kept index (sets middle)⟩

theorem settleEach {view middle : Table Row} {seen stored : Row}
    (isMarking : ∀ wanted ∈ keys, Marking marks wanted change) (index : Index)
    (sets : ∀ row, marks index (change row)) (one : Carries (Marked marks) view after)
    (two : Carries (Marked marks)
      (keys.foldl (fun current wanted => current.update wanted change) middle) after)
    (seenIn : seen ∈ view) (storedIn : stored ∈ middle) (same : key stored = key seen)
    (inside : key seen ∈ keys) : ∃ later ∈ after, Marked marks seen later ∧ marks index later := by
  obtain ⟨changed, changedIn, fromStored, isSet⟩ :=
    markEach_sets isMarking index sets storedIn (same ▸ inside)
  obtain ⟨later, laterIn, fromSeen, fromChanged⟩ :=
    one.unite two seenIn changedIn (fromStored.key.trans same)
  exact ⟨later, laterIn, fromSeen, fromChanged.kept index isSet⟩

end Carries

end Fristenwaechter.Library.Table
