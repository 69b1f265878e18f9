import Mathlib.Data.List.Sort

/-!
Owns what `ORDER BY … LIMIT` picks out of a queue: the picked items stand in the order of
the queue, and what is left behind stands behind all of them.
-/

namespace Fristenwaechter.Library

variable {Item : Type*} {before : Item → Item → Prop} {limit : Nat} {queue picked : List Item}

/-- The first items of a queue, at most `limit` of them. -/
structure Batch (before : Item → Item → Prop) (limit : Nat) (queue picked : List Item) :
    Prop where
  ordered : picked.Pairwise before
  waits : picked.Subperm queue
  fits : picked.length ≤ limit
  /-- An item is left behind by a full batch only, and stands behind all of it. -/
  left : ∀ item ∈ queue, item ∉ picked →
    picked.length = limit ∧ ∀ first ∈ picked, before first item

variable [Std.Total before]

theorem batch_take_sorted [DecidableRel before] [IsTrans Item before] :
    Batch before limit queue ((queue.insertionSort before).take limit) where
  ordered := (List.pairwise_insertionSort before queue).sublist (List.take_sublist limit _)
  waits := (List.take_sublist limit _).subperm.trans (List.perm_insertionSort before queue).subperm
  fits := List.length_take_le limit _
  left := by
    intro item waiting missing
    have sorted := List.pairwise_insertionSort before queue
    rw [← List.take_append_drop limit (queue.insertionSort before)] at sorted
    have behind : item ∈ (queue.insertionSort before).drop limit := by
      have inside := (List.mem_insertionSort before).mpr waiting
      rw [← List.take_append_drop limit (queue.insertionSort before)] at inside
      exact (List.mem_append.mp inside).resolve_left missing
    refine ⟨?_, fun first member => (List.pairwise_append.mp sorted).2.2 first member item behind⟩
    have more : 0 < ((queue.insertionSort before).drop limit).length :=
      List.length_pos_of_mem behind
    rw [List.length_drop] at more
    exact List.length_take_of_le (by omega)

/-- Nothing overtakes: what stands ahead of a picked item is picked ahead of it. -/
theorem Batch.ahead (batch : Batch before limit queue picked) {earlier later : List Item}
    {first item : Item} (split : picked = earlier ++ first :: later) (waiting : item ∈ queue)
    (urgent : ¬ before first item) : item ∈ earlier := by
  have inside : item ∈ picked := by
    by_contra missing
    exact urgent ((batch.left item waiting missing).2 first (by simp [split]))
  rw [split] at inside
  rcases List.mem_append.mp inside with ahead | rest
  · exact ahead
  rcases List.mem_cons.mp rest with rfl | behind
  · exact absurd (or_self_iff.mp (Std.Total.total item item)) urgent
  have ordered := batch.ordered
  rw [split] at ordered
  have following := (List.pairwise_append.mp ordered).2.1
  exact absurd (List.rel_of_pairwise_cons following behind) urgent

end Fristenwaechter.Library
