import Mathlib.Data.List.Basic
import Mathlib.Data.List.Nodup

/-!
Owns tables with a primary key. A `Table` carries the proof that no two of its
rows share a key, so a duplicate key cannot be represented; rows keep the order
in which they were inserted. `update` keeps the key of the row it changes.
-/

namespace Fristenwaechter.Library

/-- Rows with a primary key. -/
class Keyed (Row : Type) (Key : outParam Type) where
  key : Row → Key

open Keyed (key)

/-- The rows of a table in insertion order. -/
structure Table (Row : Type) {Key : Type} [Keyed Row Key] where
  rows : List Row
  distinct : (rows.map key).Nodup

namespace Table

variable {Row Key : Type} [Keyed Row Key]

def empty : Table Row :=
  ⟨[], by simp⟩

instance : Membership Row (Table Row) where
  mem table row := row ∈ table.rows

theorem mem_iff {row : Row} {table : Table Row} : row ∈ table ↔ row ∈ table.rows :=
  Iff.rfl

theorem eq_of_key {table : Table Row} {first second : Row} (firstIn : first ∈ table)
    (secondIn : second ∈ table) (same : key first = key second) : first = second :=
  List.inj_on_of_nodup_map table.distinct firstIn secondIn same

variable [DecidableEq Key]

def find (table : Table Row) (wanted : Key) : Option Row :=
  table.rows.find? fun row => key row = wanted

/-- Append a row; a row whose key is taken is not inserted. -/
def insert (row : Row) (table : Table Row) : Table Row :=
  if free : key row ∉ table.rows.map key then
    ⟨table.rows ++ [row], by
      rw [List.map_append]
      refine List.nodup_append.mpr ⟨table.distinct, by simp, ?_⟩
      rintro taken member other new rfl
      rw [List.map_singleton, List.mem_singleton] at new
      exact free (new ▸ member)⟩
  else table

/-- Change the row with a given key; the key itself stays. -/
def update (wanted : Key) (change : Row → Row) (table : Table Row) : Table Row :=
  ⟨table.rows.map fun row =>
      if key row = wanted ∧ key (change row) = wanted then change row else row, by
    have keys : (table.rows.map fun row =>
        if key row = wanted ∧ key (change row) = wanted then change row else row).map key =
          table.rows.map key := by
      rw [List.map_map]
      refine List.map_congr_left fun row _ => ?_
      simp only [Function.comp]
      split
      · rename_i both
        rw [both.1, both.2]
      · rfl
    rw [keys]
    exact table.distinct⟩

def remove (keys : List Key) (table : Table Row) : Table Row :=
  ⟨table.rows.filter fun row => key row ∉ keys,
    table.distinct.sublist (List.filter_sublist.map key)⟩

/-! ### Finding rows -/

theorem find_eq_some {table : Table Row} {wanted : Key} {row : Row} :
    table.find wanted = some row ↔ row ∈ table ∧ key row = wanted := by
  constructor
  · intro found
    exact ⟨List.mem_of_find?_eq_some found, by simpa using List.find?_some found⟩
  · rintro ⟨member, rfl⟩
    cases found : table.find (key row) with
    | none =>
        have absent := List.find?_eq_none.mp found row member
        simp at absent
    | some other =>
        have otherIn := List.mem_of_find?_eq_some found
        have sameKey : key other = key row := by simpa using List.find?_some found
        rw [eq_of_key otherIn member sameKey]

theorem find_eq_none {table : Table Row} {wanted : Key} :
    table.find wanted = none ↔ ∀ row ∈ table, key row ≠ wanted := by
  simp [find, mem_iff]

theorem find_of_mem {table : Table Row} {row : Row} (member : row ∈ table) :
    table.find (key row) = some row :=
  find_eq_some.mpr ⟨member, rfl⟩

theorem mem_of_find {table : Table Row} {wanted : Key} {row : Row}
    (found : table.find wanted = some row) : row ∈ table :=
  (find_eq_some.mp found).1

theorem key_of_find {table : Table Row} {wanted : Key} {row : Row}
    (found : table.find wanted = some row) : key row = wanted :=
  (find_eq_some.mp found).2

/-! ### Inserting -/

theorem insert_rows {table : Table Row} {row : Row} (free : table.find (key row) = none) :
    (table.insert row).rows = table.rows ++ [row] := by
  have absent : key row ∉ table.rows.map key := by
    intro member
    obtain ⟨other, otherIn, same⟩ := List.mem_map.mp member
    exact find_eq_none.mp free other otherIn same
  simp [insert, absent]

theorem mem_insert {table : Table Row} {row other : Row} :
    other ∈ table.insert row ↔ other ∈ table ∨ other = row ∧ table.find (key row) = none := by
  cases found : table.find (key row) with
  | none => simp [mem_iff, insert_rows found]
  | some taken =>
      have occupied : key row ∈ table.rows.map key :=
        List.mem_map.mpr ⟨taken, mem_of_find found, key_of_find found⟩
      simp only [reduceCtorEq, and_false, or_false]
      simp only [insert, occupied, not_true_eq_false, ↓reduceDIte]

theorem find_insert_other {table : Table Row} {row : Row} {wanted : Key}
    (different : key row ≠ wanted) : (table.insert row).find wanted = table.find wanted := by
  cases found : table.find wanted with
  | none =>
      rw [find_eq_none] at found ⊢
      intro other member
      rcases mem_insert.mp member with old | ⟨rfl, _⟩
      · exact found other old
      · exact different
  | some other =>
      obtain ⟨member, same⟩ := find_eq_some.mp found
      exact find_eq_some.mpr ⟨mem_insert.mpr (.inl member), same⟩

theorem find_insert {table : Table Row} {row : Row} {wanted : Key} :
    (table.insert row).find wanted =
      (table.find wanted).or (if key row = wanted then some row else none) := by
  by_cases same : key row = wanted
  · subst same
    rw [if_pos rfl]
    cases found : table.find (key row) with
    | none => exact find_eq_some.mpr ⟨mem_insert.mpr (.inr ⟨rfl, found⟩), rfl⟩
    | some other =>
        obtain ⟨member, sameKey⟩ := find_eq_some.mp found
        exact find_eq_some.mpr ⟨mem_insert.mpr (.inl member), sameKey⟩
  · rw [if_neg same, find_insert_other same, Option.or_none]

/-! ### Updating -/

theorem mem_update {table : Table Row} {wanted : Key} {change : Row → Row} {other : Row}
    (keeps : ∀ row, key (change row) = key row) :
    other ∈ table.update wanted change ↔
      ∃ row ∈ table, other = if key row = wanted then change row else row := by
  simp only [mem_iff, update, List.mem_map]
  constructor
  · rintro ⟨row, member, rfl⟩
    exact ⟨row, member, by simp [keeps]⟩
  · rintro ⟨row, member, rfl⟩
    exact ⟨row, member, by simp [keeps]⟩

theorem update_rows {table : Table Row} {wanted : Key} {change : Row → Row}
    (keeps : ∀ row, key (change row) = key row) :
    (table.update wanted change).rows =
      table.rows.map fun row => if key row = wanted then change row else row := by
  simp [update, keeps]

theorem find_update_same {table : Table Row} {wanted : Key} {change : Row → Row}
    (keeps : ∀ row, key (change row) = key row) :
    (table.update wanted change).find wanted = (table.find wanted).map change := by
  cases found : table.find wanted with
  | none =>
      rw [Option.map_none, find_eq_none]
      intro other member
      obtain ⟨row, rowIn, rfl⟩ := (mem_update keeps).mp member
      have different := find_eq_none.mp found row rowIn
      simp [different]
  | some row =>
      obtain ⟨member, rfl⟩ := find_eq_some.mp found
      exact find_eq_some.mpr
        ⟨(mem_update keeps).mpr ⟨row, member, by simp⟩, by simp [keeps]⟩

theorem find_update_other {table : Table Row} {wanted looked : Key} {change : Row → Row}
    (keeps : ∀ row, key (change row) = key row) (different : wanted ≠ looked) :
    (table.update wanted change).find looked = table.find looked := by
  cases found : table.find looked with
  | none =>
      rw [find_eq_none] at found ⊢
      intro other member
      obtain ⟨row, rowIn, rfl⟩ := (mem_update keeps).mp member
      split
      · rw [keeps]
        exact found row rowIn
      · exact found row rowIn
  | some row =>
      obtain ⟨member, rfl⟩ := find_eq_some.mp found
      refine find_eq_some.mpr ⟨(mem_update keeps).mpr ⟨row, member, ?_⟩, rfl⟩
      rw [if_neg (fun same => different same.symm)]

theorem find_update {table : Table Row} {wanted looked : Key} {change : Row → Row}
    (keeps : ∀ row, key (change row) = key row) :
    (table.update wanted change).find looked =
      if wanted = looked then (table.find looked).map change else table.find looked := by
  split
  · rename_i same
    rw [← same, find_update_same keeps]
  · exact find_update_other keeps ‹_›

theorem countP_update {table : Table Row} {wanted : Key} {change : Row → Row} {row : Row}
    (keeps : ∀ row, key (change row) = key row) (found : table.find wanted = some row)
    (counted : Row → Bool) :
    (table.update wanted change).rows.countP counted + (if counted row then 1 else 0) =
      table.rows.countP counted + if counted (change row) then 1 else 0 := by
  obtain ⟨member, same⟩ := find_eq_some.mp found
  obtain ⟨before, after, split⟩ := List.append_of_mem (mem_iff.mp member)
  have distinct := table.distinct
  rw [split, List.map_append, List.map_cons] at distinct
  have others : ∀ other ∈ before ++ after, key other ≠ wanted := by
    intro other inside equal
    have apart := List.nodup_middle.mp distinct
    have outside := (List.nodup_cons.mp apart).1
    rw [← List.map_append] at outside
    exact outside (List.mem_map.mpr ⟨other, inside, equal.trans same.symm⟩)
  have unchanged : ∀ part : List Row, (∀ other ∈ part, key other ≠ wanted) →
      (part.map fun row => if key row = wanted then change row else row) = part := by
    intro part apart
    conv_rhs => rw [← List.map_id part]
    exact List.map_congr_left fun other inside => by rw [if_neg (apart other inside)]; rfl
  rw [update_rows keeps, split, List.map_append, List.map_cons, if_pos same,
    unchanged before fun other inside => others other (List.mem_append_left _ inside),
    unchanged after fun other inside => others other (List.mem_append_right _ inside)]
  simp only [List.countP_append, List.countP_cons]
  omega
/-! ### Removing -/

theorem mem_remove {table : Table Row} {keys : List Key} {row : Row} :
    row ∈ table.remove keys ↔ row ∈ table ∧ key row ∉ keys := by
  simp [mem_iff, remove]

theorem find_remove_other {table : Table Row} {keys : List Key} {wanted : Key}
    (outside : wanted ∉ keys) : (table.remove keys).find wanted = table.find wanted := by
  cases found : table.find wanted with
  | none =>
      rw [find_eq_none] at found ⊢
      exact fun row member => found row (mem_remove.mp member).1
  | some row =>
      obtain ⟨member, rfl⟩ := find_eq_some.mp found
      exact find_eq_some.mpr ⟨mem_remove.mpr ⟨member, outside⟩, rfl⟩

theorem find_remove {table : Table Row} {keys : List Key} {wanted : Key} :
    (table.remove keys).find wanted = if wanted ∈ keys then none else table.find wanted := by
  split
  · rename_i inside
    refine find_eq_none.mpr fun row member same => ?_
    exact (mem_remove.mp member).2 (same ▸ inside)
  · exact find_remove_other ‹_›

/-! ### Tables that agree on a key -/

theorem find_insert_congr {before after : Table Row} {row : Row} {wanted : Key}
    (same : after.find wanted = before.find wanted) :
    (after.insert row).find wanted = (before.insert row).find wanted := by
  rw [find_insert, find_insert, same]

theorem find_update_congr {before after : Table Row} {looked wanted : Key} {change : Row → Row}
    (keeps : ∀ row, key (change row) = key row)
    (same : after.find wanted = before.find wanted) :
    (after.update looked change).find wanted = (before.update looked change).find wanted := by
  rw [find_update keeps, find_update keeps, same]

theorem find_remove_congr {before after : Table Row} {keys : List Key} {wanted : Key}
    (same : after.find wanted = before.find wanted) :
    (after.remove keys).find wanted = (before.remove keys).find wanted := by
  rw [find_remove, find_remove, same]

/-! ### Entries of an index -/

/-- An entry of an index is reserved: `after` has no row that takes it and did not take it in
`before`. -/
def Reserves (takes : Row → Prop) (before after : Table Row) : Prop :=
  ∀ row ∈ after, takes row → ∃ old ∈ before, key old = key row ∧ takes old

section Reserves

variable {takes : Row → Prop} {before after : Table Row}

omit [DecidableEq Key] in
theorem Reserves.refl (takes : Row → Prop) (table : Table Row) : Reserves takes table table :=
  fun row member taken => ⟨row, member, rfl, taken⟩

omit [DecidableEq Key] in
theorem Reserves.trans {middle : Table Row} (one : Reserves takes before middle)
    (two : Reserves takes middle after) : Reserves takes before after := by
  intro row member taken
  obtain ⟨between, betweenIn, sameKey, betweenTaken⟩ := two row member taken
  obtain ⟨old, oldIn, oldKey, oldTaken⟩ := one between betweenIn betweenTaken
  exact ⟨old, oldIn, oldKey.trans sameKey, oldTaken⟩

theorem reserves_insert {table : Table Row} {row : Row} (other : ¬ takes row) :
    Reserves takes table (table.insert row) := by
  intro added member taken
  rcases mem_insert.mp member with old | ⟨rfl, _⟩
  · exact ⟨added, old, rfl, taken⟩
  · exact absurd taken other

theorem reserves_update {table : Table Row} {wanted : Key} {change : Row → Row}
    (keeps : ∀ row, key (change row) = key row) (takesOwn : ∀ row, takes (change row) → takes row) :
    Reserves takes table (table.update wanted change) := by
  intro changed member taken
  obtain ⟨row, rowIn, rfl⟩ := (mem_update keeps).mp member
  split at taken
  · exact ⟨row, rowIn, by rw [if_pos ‹_›, keeps], takesOwn row taken⟩
  · exact ⟨row, rowIn, by rw [if_neg ‹_›], taken⟩

theorem reserves_remove {table : Table Row} {keys : List Key} :
    Reserves takes table (table.remove keys) :=
  fun row member taken => ⟨row, (mem_remove.mp member).1, rfl, taken⟩

theorem Reserves.insert (reserves : Reserves takes before after) {row : Row}
    (same : after.find (key row) = before.find (key row)) :
    Reserves takes (before.insert row) (after.insert row) := by
  intro added member taken
  rcases mem_insert.mp member with old | ⟨rfl, free⟩
  · obtain ⟨earlier, earlierIn, rest⟩ := reserves added old taken
    exact ⟨earlier, mem_insert.mpr (.inl earlierIn), rest⟩
  · exact ⟨added, mem_insert.mpr (.inr ⟨rfl, same ▸ free⟩), rfl, taken⟩

theorem Reserves.update (reserves : Reserves takes before after) {wanted : Key}
    {change : Row → Row} (keeps : ∀ row, key (change row) = key row)
    (takesAlike : ∀ row, takes (change row) →
      takes row ∧ ∀ other, takes other → takes (change other)) :
    Reserves takes (before.update wanted change) (after.update wanted change) := by
  intro changed member taken
  obtain ⟨row, rowIn, rfl⟩ := (mem_update keeps).mp member
  by_cases hit : key row = wanted
  · rw [if_pos hit] at taken ⊢
    obtain ⟨own, alike⟩ := takesAlike row taken
    obtain ⟨old, oldIn, oldKey, oldTaken⟩ := reserves row rowIn own
    refine ⟨change old, (mem_update keeps).mpr ⟨old, oldIn, ?_⟩, ?_, alike old oldTaken⟩
    · rw [if_pos (oldKey.trans hit)]
    · rw [keeps, keeps, oldKey]
  · rw [if_neg hit] at taken ⊢
    obtain ⟨old, oldIn, oldKey, oldTaken⟩ := reserves row rowIn taken
    refine ⟨old, (mem_update keeps).mpr ⟨old, oldIn, ?_⟩, oldKey, oldTaken⟩
    rw [if_neg fun same => hit (oldKey.symm.trans same)]

theorem Reserves.remove (reserves : Reserves takes before after) {keys : List Key} :
    Reserves takes (before.remove keys) (after.remove keys) := by
  intro row member taken
  obtain ⟨stays, outside⟩ := mem_remove.mp member
  obtain ⟨old, oldIn, oldKey, oldTaken⟩ := reserves row stays taken
  exact ⟨old, mem_remove.mpr ⟨oldIn, oldKey ▸ outside⟩, oldKey, oldTaken⟩

end Reserves

/-! ### Carrying rows along -/

/-- Every row is still there, as a later version of itself. -/
def Carries (Later : Row → Row → Prop) (before after : Table Row) : Prop :=
  ∀ row ∈ before, ∃ later ∈ after, Later row later

section Carries

variable {Later : Row → Row → Prop}

omit [DecidableEq Key] in
theorem Carries.refl (refl : ∀ row, Later row row) (table : Table Row) :
    Carries Later table table :=
  fun row member => ⟨row, member, refl row⟩

omit [DecidableEq Key] in
theorem Carries.trans (trans : ∀ {first second third}, Later first second → Later second third →
      Later first third) {first second third : Table Row} (one : Carries Later first second)
    (two : Carries Later second third) : Carries Later first third := by
  intro row member
  obtain ⟨middle, middleIn, toMiddle⟩ := one row member
  obtain ⟨later, laterIn, toLater⟩ := two middle middleIn
  exact ⟨later, laterIn, trans toMiddle toLater⟩

theorem Carries.insert (refl : ∀ row, Later row row) (table : Table Row) (row : Row) :
    Carries Later table (table.insert row) :=
  fun old member => ⟨old, mem_insert.mpr (.inl member), refl old⟩

theorem Carries.update (refl : ∀ row, Later row row) {table : Table Row} {wanted : Key}
    {change : Row → Row} (keeps : ∀ row, key (change row) = key row)
    (changes : ∀ row ∈ table, key row = wanted → Later row (change row)) :
    Carries Later table (table.update wanted change) := by
  intro row member
  refine ⟨_, (mem_update keeps).mpr ⟨row, member, rfl⟩, ?_⟩
  split
  · exact changes row member ‹_›
  · exact refl row

end Carries

theorem prefix_insert (table : Table Row) (row : Row) :
    table.rows <+: (table.insert row).rows := by
  cases found : table.find (key row) with
  | none =>
      rw [insert_rows found]
      exact List.prefix_append _ _
  | some taken =>
      have occupied : key row ∈ table.rows.map key :=
        List.mem_map.mpr ⟨taken, mem_of_find found, key_of_find found⟩
      simp only [insert, occupied, not_true_eq_false, ↓reduceDIte]
      exact List.prefix_rfl

end Table

end Fristenwaechter.Library
