import Mathlib.Data.List.Basic
import Mathlib.Data.List.Forall2
import Mathlib.Data.List.Infix
import Mathlib.Data.List.Nodup

/-!
Owns hash chains over an arbitrary type of rows: each row stores the link it points
to and the link it is, and verification recomputes the second from the row.

What a hash binds is a hypothesis of the results (`Binding`); which facts of a row go
into it is decided where the scheme is instantiated.
-/

namespace Fristenwaechter.Library.HashChain

/-- How the rows of a chain are read. `genesis` is what the first row points to. -/
structure Scheme (Row Link : Type) where
  genesis : Link
  prev : Row → Link
  link : Row → Link
  recompute : Row → Link

variable {Row Link : Type} (scheme : Scheme Row Link)

/-- The rows link up from `start`, and each stored link is the recomputed one. -/
def Verified (start : Link) : List Row → Prop
  | [] => True
  | row :: rest =>
      scheme.prev row = start ∧ scheme.recompute row = scheme.link row ∧
        Verified (scheme.link row) rest

instance decideVerified [DecidableEq Link] (start : Link) (rows : List Row) :
    Decidable (Verified scheme start rows) :=
  match rows with
  | [] => inferInstanceAs (Decidable True)
  | row :: rest =>
      have := decideVerified (scheme.link row) rest
      inferInstanceAs (Decidable (_ ∧ _ ∧ _))

/-- The link the next row has to point to. -/
def tip (start : Link) (rows : List Row) : Link :=
  rows.foldl (fun _ row => scheme.link row) start

variable {scheme} {start : Link} {rows others : List Row}

@[simp] theorem tip_append_singleton (row : Row) :
    tip scheme start (rows ++ [row]) = scheme.link row := by
  simp [tip]

theorem verified_append_singleton {row : Row} :
    Verified scheme start (rows ++ [row]) ↔
      Verified scheme start rows ∧ scheme.prev row = tip scheme start rows ∧
        scheme.recompute row = scheme.link row := by
  induction rows generalizing start with
  | nil => simp [Verified, tip]
  | cons first rest inductionHypothesis =>
      have sameTip : tip scheme start (first :: rest) = tip scheme (scheme.link first) rest := rfl
      simp only [List.cons_append, Verified, inductionHypothesis, sameTip]
      tauto

theorem Verified.left (verified : Verified scheme start (rows ++ others)) :
    Verified scheme start rows := by
  induction rows generalizing start with
  | nil => trivial
  | cons first rest inductionHypothesis =>
      obtain ⟨points, recomputed, verified⟩ := verified
      exact ⟨points, recomputed, inductionHypothesis verified⟩

/-! ### Rows changed in place -/

/-- Rows that keep their stored links verify exactly where each still recomputes to
what its original does. -/
theorem verified_iff_of_kept (verified : Verified scheme start rows)
    (kept : List.Forall₂ (fun row other => scheme.prev row = scheme.prev other ∧
      scheme.link row = scheme.link other) rows others) :
    Verified scheme start others ↔
      List.Forall₂ (fun row other => scheme.recompute row = scheme.recompute other)
        rows others := by
  induction kept generalizing start with
  | nil => simp [Verified]
  | @cons row other rows others same kept inductionHypothesis =>
      obtain ⟨points, recomputed, verified⟩ := verified
      rw [List.forall₂_cons, ← inductionHypothesis verified]
      simp only [Verified, ← same.1, ← same.2, points, true_and, ← recomputed]
      exact and_congr_left fun _ => eq_comm

/-! ### Rows removed or reordered -/

/-- The hashes of these rows determine the link each points to, and none of them is the
genesis. -/
structure Binding (scheme : Scheme Row Link) (rows : List Row) : Prop where
  prev_eq : ∀ first ∈ rows, ∀ second ∈ rows,
    scheme.recompute first = scheme.recompute second → scheme.prev first = scheme.prev second
  fresh : ∀ row ∈ rows, scheme.recompute row ≠ scheme.genesis

/-- Two chains of bound rows that end in one link have the same links throughout. -/
theorem links_determined {bound : List Row} (binding : Binding scheme bound)
    {first second : Row}
    (firstVerified : Verified scheme scheme.genesis (rows ++ [first]))
    (secondVerified : Verified scheme scheme.genesis (others ++ [second]))
    (firstBound : ∀ row ∈ rows ++ [first], row ∈ bound)
    (secondBound : ∀ row ∈ others ++ [second], row ∈ bound)
    (same : scheme.link first = scheme.link second) :
    rows.map scheme.link = others.map scheme.link := by
  induction rows using List.reverseRecOn generalizing others first second with
  | nil =>
      obtain ⟨-, firstPoints, firstHash⟩ := verified_append_singleton.mp firstVerified
      obtain ⟨secondRest, secondPoints, secondHash⟩ := verified_append_singleton.mp secondVerified
      have samePrev : scheme.prev first = scheme.prev second :=
        binding.prev_eq first (firstBound first (by simp)) second (secondBound second (by simp))
          (by rw [firstHash, secondHash, same])
      cases others using List.reverseRecOn with
      | nil => rfl
      | append_singleton earlier last =>
          have isGenesis : scheme.recompute last = scheme.genesis := by
            rw [(verified_append_singleton.mp secondRest).2.2, ← tip_append_singleton,
              ← secondPoints, ← samePrev, firstPoints]
            rfl
          exact absurd isGenesis (binding.fresh last (secondBound last (by simp)))
  | append_singleton rows before inductionHypothesis =>
      obtain ⟨firstRest, firstPoints, firstHash⟩ := verified_append_singleton.mp firstVerified
      obtain ⟨secondRest, secondPoints, secondHash⟩ := verified_append_singleton.mp secondVerified
      have samePrev : scheme.prev first = scheme.prev second :=
        binding.prev_eq first (firstBound first (by simp)) second (secondBound second (by simp))
          (by rw [firstHash, secondHash, same])
      cases others using List.reverseRecOn with
      | nil =>
          have isGenesis : scheme.recompute before = scheme.genesis := by
            rw [(verified_append_singleton.mp firstRest).2.2, ← tip_append_singleton,
              ← firstPoints, samePrev, secondPoints]
            rfl
          exact absurd isGenesis (binding.fresh before (firstBound before (by simp)))
      | append_singleton earlier last =>
          have sameLink : scheme.link before = scheme.link last := by
            rw [← tip_append_singleton, ← firstPoints, samePrev, secondPoints,
              tip_append_singleton]
          have sameLinks := inductionHypothesis firstRest secondRest
            (fun row member => firstBound row (List.mem_append_left _ member))
            (fun row member => secondBound row (List.mem_append_left _ member)) sameLink
          simp [sameLinks, sameLink]

/-- A verified list of rows of a verified chain is an initial part of that chain. -/
theorem prefix_of_verified (binding : Binding scheme rows)
    (verified : Verified scheme scheme.genesis rows)
    (otherVerified : Verified scheme scheme.genesis others)
    (members : ∀ row ∈ others, row ∈ rows) : others <+: rows := by
  induction others using List.reverseRecOn with
  | nil => exact List.nil_prefix
  | append_singleton earlier last inductionHypothesis =>
      have earlierPrefix : earlier <+: rows :=
        inductionHypothesis otherVerified.left
          fun row member => members row (List.mem_append_left _ member)
      obtain ⟨before, later, rfl⟩ := List.append_of_mem (members last (by simp))
      have whole : Verified scheme scheme.genesis ((before ++ [last]) ++ later) := by
        simpa using verified
      have beforeVerified : Verified scheme scheme.genesis (before ++ [last]) := whole.left
      have sameLinks : before.map scheme.link = earlier.map scheme.link :=
        links_determined binding beforeVerified otherVerified
          (fun row member => by
            rcases List.mem_append.mp member with member | member
            · exact List.mem_append_left _ member
            · simp [List.mem_singleton.mp member])
          members rfl
      have sameLength : before.length = earlier.length := by
        simpa using congrArg List.length sameLinks
      have same : earlier = before := by
        have beforePrefix : before <+: before ++ last :: later := List.prefix_append _ _
        exact (List.prefix_of_prefix_length_le earlierPrefix beforePrefix
          sameLength.ge).eq_of_length sameLength.symm
      subst same
      exact ⟨later, by simp⟩

theorem links_nodup (binding : Binding scheme rows)
    (verified : Verified scheme scheme.genesis rows) : (rows.map scheme.link).Nodup := by
  induction rows using List.reverseRecOn with
  | nil => simp
  | append_singleton rows last inductionHypothesis =>
      have earlier : (rows.map scheme.link).Nodup := by
        refine inductionHypothesis ⟨?_, ?_⟩ verified.left
        · exact fun first member second other =>
            binding.prev_eq first (List.mem_append_left _ member) second
              (List.mem_append_left _ other)
        · exact fun row member => binding.fresh row (List.mem_append_left _ member)
      rw [List.map_append, List.nodup_append]
      refine ⟨earlier, by simp, ?_⟩
      intro link member other isLast
      obtain ⟨row, rowMember, rfl⟩ := List.mem_map.mp member
      have isLast : other = scheme.link last := by simpa using isLast
      rintro rfl
      obtain ⟨before, later, rfl⟩ := List.append_of_mem rowMember
      have whole : Verified scheme scheme.genesis ((before ++ [row]) ++ (later ++ [last])) := by
        simpa using verified
      have beforeVerified : Verified scheme scheme.genesis (before ++ [row]) := whole.left
      have sameLinks := links_determined binding beforeVerified verified
        (fun other member => by
          rcases List.mem_append.mp member with member | member
          · simp [member]
          · simp [List.mem_singleton.mp member])
        (fun _ member => member) isLast
      have sameLength := congrArg List.length sameLinks
      simp at sameLength

theorem rows_nodup (binding : Binding scheme rows)
    (verified : Verified scheme scheme.genesis rows) : rows.Nodup :=
  List.Nodup.of_map scheme.link (links_nodup binding verified)

theorem not_verified_eraseIdx (binding : Binding scheme rows)
    (verified : Verified scheme scheme.genesis rows) {index : Nat}
    (notLast : index + 1 < rows.length) :
    ¬ Verified scheme scheme.genesis (rows.eraseIdx index) := by
  intro otherVerified
  have initial : rows.eraseIdx index <+: rows :=
    prefix_of_verified binding verified otherVerified fun row member =>
      List.mem_of_mem_eraseIdx member
  have inside : index < (rows.eraseIdx index).length := by
    rw [List.length_eraseIdx_of_lt (by omega)]
    omega
  have sameRow := initial.getElem inside
  rw [List.getElem_eraseIdx_of_ge inside (le_refl _),
    List.Nodup.getElem_inj_iff (rows_nodup binding verified)] at sameRow
  omega

def swap (rows : List Row) (first second : Nat) (firstInside : first < rows.length)
    (secondInside : second < rows.length) : List Row :=
  (rows.set first rows[second]).set second rows[first]

theorem not_verified_swap (binding : Binding scheme rows)
    (verified : Verified scheme scheme.genesis rows) {first second : Nat}
    (firstInside : first < rows.length) (secondInside : second < rows.length)
    (different : first ≠ second) :
    ¬ Verified scheme scheme.genesis (swap rows first second firstInside secondInside) := by
  intro otherVerified
  have initial : swap rows first second firstInside secondInside <+: rows := by
    refine prefix_of_verified binding verified otherVerified fun row member => ?_
    rcases List.mem_or_eq_of_mem_set member with member | rfl
    · rcases List.mem_or_eq_of_mem_set member with member | rfl
      · exact member
      · exact List.getElem_mem _
    · exact List.getElem_mem _
  have same : swap rows first second firstInside secondInside = rows :=
    initial.eq_of_length (by simp [swap])
  have sameRow : rows[first] = rows[second] := by
    have atSecond : (swap rows first second firstInside secondInside)[second]? =
        rows[second]? := by
      rw [same]
    simpa [swap, secondInside] using atSecond
  exact different ((List.Nodup.getElem_inj_iff (rows_nodup binding verified)).mp sameRow)

end Fristenwaechter.Library.HashChain
