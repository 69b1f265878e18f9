import Mathlib.Data.List.Forall2
import Mathlib.Data.List.TakeWhile

/-!
Owns anchored patterns `^c{m,n}…$`: sequences of bounded greedy repetitions of
character classes, matched by backtracking with the longest repetition first. The
meaning of `$` is a parameter. A pattern whose neighbours cannot take each other's
characters has at most one match, so its backtracking finds the only reading there is.
-/

namespace Fristenwaechter.Library

/-- `class{least,most}`, greedy. -/
structure Piece (α : Type) where
  accepts : α → Bool
  least : Nat
  most : Nat

variable {α : Type}

/-- What a repetition may take from the front of `text`, in the order of backtracking. -/
def Piece.prefixes (piece : Piece α) (text : List α) : List (List α) :=
  ((List.range (piece.most + 1)).reverse.filter fun count =>
    piece.least ≤ count ∧ count ≤ (text.takeWhile piece.accepts).length).map text.take

/-- The repetition reads `taken`. -/
structure Piece.Fits (piece : Piece α) (taken : List α) : Prop where
  least : piece.least ≤ taken.length
  most : taken.length ≤ piece.most
  accepted : ∀ c ∈ taken, piece.accepts c

theorem Piece.mem_prefixes {piece : Piece α} {text taken : List α} :
    taken ∈ piece.prefixes text ↔ piece.Fits taken ∧ ∃ rest, text = taken ++ rest := by
  simp only [Piece.prefixes, List.mem_map, List.mem_filter, List.mem_reverse, List.mem_range,
    decide_eq_true_eq]
  constructor
  · rintro ⟨count, ⟨most, least, inside⟩, rfl⟩
    have front : text.take count = (text.takeWhile piece.accepts).take count := by
      calc text.take count
          = (text.takeWhile piece.accepts ++ text.dropWhile piece.accepts).take count := by
            rw [List.takeWhile_append_dropWhile]
        _ = (text.takeWhile piece.accepts).take count := List.take_append_of_le_length inside
    have length : (text.take count).length = count := by
      rw [front, List.length_take, Nat.min_eq_left inside]
    refine ⟨⟨by omega, by omega, fun c member => ?_⟩, text.drop count,
      (List.take_append_drop count text).symm⟩
    rw [front] at member
    exact List.mem_takeWhile_imp (List.mem_of_mem_take member)
  · rintro ⟨fits, rest, rfl⟩
    refine ⟨taken.length, ⟨Nat.lt_succ_of_le fits.most, fits.least, ?_⟩, List.take_left⟩
    rw [List.takeWhile_append_of_pos fits.accepted, List.length_append]
    exact Nat.le_add_right _ _

/-- The repetitions of a pattern between `^` and `$`. -/
abbrev Pattern (α : Type) := List (Piece α)

namespace Pattern

variable (ends : List α → Bool)

/-- `re.match`: what each repetition takes in the first match. -/
def run : Pattern α → List α → Option (List (List α))
  | [], text => if ends text then some [] else none
  | piece :: rest, text =>
      (piece.prefixes text).findSome? fun taken =>
        (run rest (text.drop taken.length)).map (taken :: ·)

theorem run_sound {pattern : Pattern α} {text : List α} {parts : List (List α)}
    (found : run ends pattern text = some parts) :
    List.Forall₂ Piece.Fits pattern parts ∧ ∃ tail, ends tail ∧ text = parts.flatten ++ tail := by
  induction pattern generalizing text parts with
  | nil =>
      rw [run] at found
      split at found
      · next atEnd =>
          cases found
          exact ⟨.nil, text, atEnd, rfl⟩
      · cases found
  | cons piece rest inductionHypothesis =>
      obtain ⟨taken, member, continued⟩ := List.exists_of_findSome?_eq_some found
      obtain ⟨fits, remaining, rfl⟩ := Piece.mem_prefixes.mp member
      rw [List.drop_left] at continued
      obtain ⟨others, ran, rfl⟩ := Option.map_eq_some_iff.mp continued
      obtain ⟨othersFit, tail, atEnd, rfl⟩ := inductionHypothesis ran
      exact ⟨.cons fits othersFit, tail, atEnd, by simp⟩

/-- Backtracking finds a match where there is one. -/
theorem run_complete {pattern : Pattern α} {parts : List (List α)} {tail : List α}
    (fits : List.Forall₂ Piece.Fits pattern parts) (atEnd : ends tail) :
    ∃ found, run ends pattern (parts.flatten ++ tail) = some found := by
  induction fits with
  | nil => exact ⟨[], by simp [run, atEnd]⟩
  | @cons piece taken rest others first _ inductionHypothesis =>
      obtain ⟨found, ran⟩ := inductionHypothesis
      rw [List.flatten_cons, List.append_assoc]
      have candidate : taken ∈ piece.prefixes (taken ++ (others.flatten ++ tail)) :=
        Piece.mem_prefixes.mpr ⟨first, _, rfl⟩
      refine Option.isSome_iff_exists.mp (List.findSome?_isSome_iff.mpr ⟨taken, candidate, ?_⟩)
      rw [List.drop_left, ran]
      rfl

/-! ### Patterns with one reading -/

/-- A text that the pattern reads up to `$` may begin with this character. -/
def Starts : Pattern α → α → Prop
  | [], c => ∃ tail, ends (c :: tail)
  | piece :: rest, c => piece.accepts c ∨ (piece.least = 0 ∧ Starts rest c)

/-- No repetition accepts a character that what follows it may begin with. -/
def Separated : Pattern α → Prop
  | [] => True
  | piece :: rest => (∀ c, piece.accepts c → ¬ Starts ends rest c) ∧ Separated rest

variable {ends}

theorem starts_of_fits {pattern : Pattern α} {parts : List (List α)} {tail more : List α} {c : α}
    (fits : List.Forall₂ Piece.Fits pattern parts) (atEnd : ends tail)
    (begins : parts.flatten ++ tail = c :: more) : Starts ends pattern c := by
  induction fits with
  | nil => exact ⟨more, begins ▸ atEnd⟩
  | @cons piece taken rest others first _ inductionHypothesis =>
      cases taken with
      | nil => exact .inr ⟨Nat.le_zero.mp first.least, inductionHypothesis begins⟩
      | cons head tailOfTaken =>
          simp only [List.flatten_cons, List.cons_append, List.cons.injEq] at begins
          exact .inl (first.accepted c (begins.1 ▸ List.mem_cons_self))

theorem taken_eq {piece : Piece α} {rest : Pattern α} {taken tail : List α}
    {others : List (List α)} (separated : ∀ c, piece.accepts c → ¬ Starts ends rest c)
    (first : piece.Fits taken) (fits : List.Forall₂ Piece.Fits rest others) (atEnd : ends tail) :
    (taken ++ (others.flatten ++ tail)).takeWhile piece.accepts = taken := by
  rw [List.takeWhile_append_of_pos first.accepted]
  cases following : others.flatten ++ tail with
  | nil => simp
  | cons c more =>
      have refused : ¬ piece.accepts c = true := fun accepted =>
        separated c accepted (starts_of_fits fits atEnd following)
      rw [List.takeWhile_cons_of_neg refused, List.append_nil]

/-- A separated pattern reads a text in one way. -/
theorem parts_unique {pattern : Pattern α} (separated : Separated ends pattern)
    {first second : List (List α)} {firstTail secondTail : List α}
    (firstFits : List.Forall₂ Piece.Fits pattern first) (firstEnd : ends firstTail)
    (secondFits : List.Forall₂ Piece.Fits pattern second) (secondEnd : ends secondTail)
    (same : first.flatten ++ firstTail = second.flatten ++ secondTail) : first = second := by
  induction firstFits generalizing second with
  | nil =>
      cases secondFits with
      | nil => rfl
  | @cons piece taken rest others fits othersFit inductionHypothesis =>
      cases secondFits with
      | @cons _ other _ otherRest otherFits otherRestFit =>
          rw [List.flatten_cons, List.append_assoc, List.flatten_cons, List.append_assoc] at same
          have takenEq := taken_eq separated.1 fits othersFit firstEnd
          rw [same, taken_eq separated.1 otherFits otherRestFit secondEnd] at takenEq
          subst takenEq
          rw [inductionHypothesis separated.2 otherRestFit (List.append_cancel_left same)]

/-- What a separated pattern matches, and what each of its repetitions takes. -/
theorem run_eq_some_iff {pattern : Pattern α} (separated : Separated ends pattern)
    {text : List α} {parts : List (List α)} :
    run ends pattern text = some parts ↔
      List.Forall₂ Piece.Fits pattern parts ∧ ∃ tail, ends tail ∧ text = parts.flatten ++ tail := by
  constructor
  · exact run_sound ends
  · rintro ⟨fits, tail, atEnd, rfl⟩
    obtain ⟨found, ran⟩ := run_complete ends fits atEnd
    obtain ⟨foundFits, foundTail, foundEnd, same⟩ := run_sound ends ran
    rw [ran, parts_unique separated foundFits foundEnd fits atEnd same.symm]

end Pattern

end Fristenwaechter.Library
