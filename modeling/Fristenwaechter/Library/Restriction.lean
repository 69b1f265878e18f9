import Fristenwaechter.Library.Table

/-!
Owns the part of a table that somebody may see: its rows restricted by a condition that
no change of a row affects. Looking up, inserting, updating and deleting commute with the
restriction; what is done to the other rows does not show.
-/

namespace Fristenwaechter.Library.Table

open Keyed (key)

variable {Row Key : Type} [Keyed Row Key]

theorem ext_rows {first second : Table Row} (same : first.rows = second.rows) :
    first = second := by
  cases first
  cases second
  cases same
  rfl

/-- The rows that are kept. -/
def restrict (keep : Row → Bool) (table : Table Row) : Table Row :=
  ⟨table.rows.filter keep, table.distinct.sublist (List.filter_sublist.map key)⟩

variable {keep : Row → Bool} {table : Table Row} {row : Row} {wanted : Key}

theorem restrict_rows : (table.restrict keep).rows = table.rows.filter keep :=
  rfl

theorem mem_restrict : row ∈ table.restrict keep ↔ row ∈ table ∧ keep row = true := by
  simp [mem_iff, restrict]

variable [DecidableEq Key]

theorem find_restrict : (table.restrict keep).find wanted = (table.find wanted).filter keep := by
  cases found : table.find wanted with
  | none =>
      rw [Option.filter_none, find_eq_none]
      exact fun other member => find_eq_none.mp found other (mem_restrict.mp member).1
  | some other =>
      obtain ⟨member, same⟩ := find_eq_some.mp found
      cases kept : keep other with
      | true =>
          rw [Option.filter_some_pos kept]
          exact find_eq_some.mpr ⟨mem_restrict.mpr ⟨member, kept⟩, same⟩
      | false =>
          rw [Option.filter_some_neg (by simp [kept]), find_eq_none]
          rintro another inside sameKey
          obtain ⟨anotherIn, anotherKept⟩ := mem_restrict.mp inside
          rw [eq_of_key anotherIn member (sameKey.trans same.symm), kept] at anotherKept
          cases anotherKept

theorem insert_taken (taken : table.find (key row) ≠ none) : table.insert row = table := by
  have occupied : key row ∈ table.rows.map key := by
    obtain ⟨other, found⟩ := Option.ne_none_iff_exists'.mp taken
    exact List.mem_map.mpr ⟨other, mem_of_find found, key_of_find found⟩
  simp only [insert, occupied, not_true_eq_false, ↓reduceDIte]

/-- An INSERT of a row that is not kept does not show. -/
theorem restrict_insert_hidden (hidden : keep row = false) :
    (table.insert row).restrict keep = table.restrict keep := by
  cases found : table.find (key row) with
  | none => exact ext_rows (by simp [restrict, insert_rows found, hidden])
  | some other => rw [insert_taken (by simp [found])]

theorem restrict_insert (kept : keep row = true)
    (visible : ∀ other ∈ table, key other = key row → keep other = true) :
    (table.insert row).restrict keep = (table.restrict keep).insert row := by
  cases found : table.find (key row) with
  | none =>
      have free : (table.restrict keep).find (key row) = none := by
        rw [find_restrict, found, Option.filter_none]
      refine ext_rows ?_
      rw [insert_rows free]
      simp [restrict, insert_rows found, kept]
  | some other =>
      have seen := visible other (mem_of_find found) (key_of_find found)
      rw [insert_taken (by simp [found]), insert_taken]
      rw [find_restrict, found, Option.filter_some_pos seen]
      simp

theorem restrict_update {change : Row → Row} (keeps : ∀ row, key (change row) = key row)
    (same : ∀ row, keep (change row) = keep row) :
    (table.update wanted change).restrict keep = (table.restrict keep).update wanted change := by
  refine ext_rows ?_
  simp only [restrict, update_rows keeps]
  rw [List.filter_map]
  congr 1
  refine List.filter_congr fun other _ => ?_
  simp only [Function.comp]
  split
  · exact same other
  · rfl

theorem update_absent {change : Row → Row} (keeps : ∀ row, key (change row) = key row)
    (absent : ∀ other ∈ table, key other ≠ wanted) : table.update wanted change = table := by
  refine ext_rows ?_
  rw [update_rows keeps]
  conv_rhs => rw [← List.map_id table.rows]
  exact List.map_congr_left fun other member => if_neg (absent other member)

theorem restrict_update_hidden {change : Row → Row} (keeps : ∀ row, key (change row) = key row)
    (same : ∀ row, keep (change row) = keep row)
    (hidden : ∀ other ∈ table, key other = wanted → keep other = false) :
    (table.update wanted change).restrict keep = table.restrict keep := by
  rw [restrict_update keeps same, update_absent keeps]
  intro other inside sameKey
  obtain ⟨member, kept⟩ := mem_restrict.mp inside
  rw [hidden other member sameKey] at kept
  cases kept

/-- A key that no hidden row has taken is looked up alike. -/
theorem find_restrict_own (own : ∀ other ∈ table, key other = wanted → keep other = true) :
    (table.restrict keep).find wanted = table.find wanted := by
  rw [find_restrict]
  cases found : table.find wanted with
  | none => rfl
  | some other => exact Option.filter_some_pos (own other (mem_of_find found) (key_of_find found))

omit [DecidableEq Key] in
theorem all_restrict {condition : Row → Bool}
    (own : ∀ other ∈ table, condition other = false → keep other = true) :
    (table.restrict keep).rows.all condition = table.rows.all condition := by
  rw [restrict_rows, List.all_filter, Bool.eq_iff_iff]
  simp only [List.all_eq_true]
  constructor
  · intro kept other member
    cases meets : condition other with
    | true => rfl
    | false =>
        have holds := kept other member
        rw [own other member meets, meets] at holds
        exact holds
  · intro all other member
    simp [all other member]

end Fristenwaechter.Library.Table
