import Fristenwaechter.Plates.Grammar
import Mathlib.Logic.Relation

/-!
Owns the spellings of a plate: stripping, upper-casing and collapsing come to rest after
one normalization, and a plate in another case, with other white space at its ends or
in its gap, has the same normal form. `str.upper` is known by what it documents.
-/

namespace Fristenwaechter

/-- The letters of a plate in both cases. -/
def letterPairs : List (Char × Char) :=
  (List.range 26).map (fun i => (Char.ofNat (97 + i), Char.ofNat (65 + i))) ++
    [('ä', 'Ä'), ('ö', 'Ö'), ('ü', 'Ü')]

/-- `str.upper` maps each character by itself, is idempotent, keeps white space and
creates none, and knows the letters of a plate. -/
structure Uppercasing (upper : Char → Str) : Prop where
  nonempty : ∀ c, upper c ≠ []
  idempotent : ∀ c, (upper c).flatMap upper = upper c
  space : ∀ c, isSpace c → upper c = [c]
  notSpace : ∀ c, isSpace c = false → ∀ d ∈ upper c, isSpace d = false
  letter : ∀ pair ∈ letterPairs, upper pair.1 = [pair.2] ∧ upper pair.2 = [pair.2]

def Blank (text : Str) : Prop :=
  ∀ c ∈ text, isSpace c

def Solid (text : Str) : Prop :=
  ∀ c ∈ text, isSpace c = false

/-! ### Stripping -/

/-- The text neither begins nor ends with white space. -/
structure Trimmed (text : Str) : Prop where
  front : ∀ c rest, text = c :: rest → isSpace c = false
  back : ∀ c rest, text = rest ++ [c] → isSpace c = false

theorem dropWhile_begins {text rest : Str} {c : Char}
    (begins : text.dropWhile isSpace = c :: rest) : isSpace c = false := by
  have present : text.dropWhile isSpace ≠ [] := by simp [begins]
  have refused := List.head_dropWhile_not isSpace present
  simpa [begins] using refused

theorem strip_trimmed (text : Str) : Trimmed (strip text) := by
  constructor
  · intro c rest begins
    have split := List.takeWhile_append_dropWhile (p := isSpace)
      (l := (text.dropWhile isSpace).reverse)
    have begun : text.dropWhile isSpace =
        c :: (rest ++ ((text.dropWhile isSpace).reverse.takeWhile isSpace).reverse) := by
      rw [← List.cons_append, ← begins, strip, ← List.reverse_append, split, List.reverse_reverse]
    exact dropWhile_begins begun
  · intro c rest ends
    rw [strip, List.reverse_eq_iff, List.reverse_append] at ends
    exact dropWhile_begins ends

theorem strip_spec (text : Str) :
    ∃ lead trail, Blank lead ∧ Blank trail ∧ text = lead ++ strip text ++ trail := by
  refine ⟨text.takeWhile isSpace,
    ((text.dropWhile isSpace).reverse.takeWhile isSpace).reverse, ?_, ?_, ?_⟩
  · exact fun c member => List.mem_takeWhile_imp member
  · exact fun c member => List.mem_takeWhile_imp (List.mem_reverse.mp member)
  · rw [strip, List.append_assoc, ← List.reverse_append, List.takeWhile_append_dropWhile,
      List.reverse_reverse, List.takeWhile_append_dropWhile]

theorem strip_around {lead text trail : Str} (leads : Blank lead) (trails : Blank trail)
    (trimmed : Trimmed text) : strip (lead ++ text ++ trail) = text := by
  rw [strip, List.append_assoc, List.dropWhile_append_of_pos leads]
  cases text with
  | nil =>
      have gone : trail.dropWhile isSpace = [] := List.dropWhile_eq_nil_iff.mpr trails
      rw [List.nil_append, gone]
      rfl
  | cons c rest =>
      have front : isSpace c ≠ true := by simp [trimmed.front c rest rfl]
      rw [List.cons_append, List.dropWhile_cons_of_neg front, ← List.cons_append,
        List.reverse_append, List.dropWhile_append_of_pos fun d member =>
          trails d (List.mem_reverse.mp member)]
      cases reversed : (c :: rest).reverse with
      | nil => simp at reversed
      | cons last others =>
          have split := List.reverse_eq_iff.mp reversed
          have back : isSpace last ≠ true := by
            simp [trimmed.back last others.reverse (by simpa using split)]
          rw [List.dropWhile_cons_of_neg back, split]

theorem strip_of_trimmed {text : Str} (trimmed : Trimmed text) : strip text = text := by
  have nothing : Blank [] := fun _ member => absurd member List.not_mem_nil
  simpa using strip_around nothing nothing trimmed

/-! ### Collapsing -/

theorem collapseFrom_solid {word rest : Str} (solid : Solid word) :
    collapseFrom false (word ++ rest) = word ++ collapseFrom false rest := by
  induction word with
  | nil => rfl
  | cons c more inductionHypothesis =>
      have first : isSpace c = false := solid c List.mem_cons_self
      rw [List.cons_append, collapseFrom, first,
        inductionHypothesis fun d member => solid d (List.mem_cons_of_mem c member)]
      rfl

theorem collapseFrom_blank {gap rest : Str} (blank : Blank gap) :
    collapseFrom true (gap ++ rest) = collapseFrom true rest := by
  induction gap with
  | nil => rfl
  | cons c more inductionHypothesis =>
      rw [List.cons_append, collapseFrom, if_pos (blank c List.mem_cons_self), if_pos rfl,
        inductionHypothesis fun d member => blank d (List.mem_cons_of_mem c member)]

theorem collapseFrom_true {c : Char} {rest : Str} (solid : isSpace c = false) :
    collapseFrom true (c :: rest) = collapseFrom false (c :: rest) := by
  rw [collapseFrom, solid, collapseFrom, solid]
  rfl

theorem collapseFrom_concat {written : Bool} {text : Str} {c : Char}
    (solid : isSpace c = false) :
    collapseFrom written (text ++ [c]) = collapseFrom written text ++ [c] := by
  induction text generalizing written with
  | nil => cases written <;> simp [collapseFrom, solid]
  | cons d rest inductionHypothesis =>
      rw [List.cons_append, collapseFrom, collapseFrom]
      split
      · split
        · exact inductionHypothesis
        · rw [inductionHypothesis, List.cons_append]
      · rw [inductionHypothesis, List.cons_append]

theorem collapseFrom_idempotent (written : Bool) (text : Str) :
    collapseFrom written (collapseFrom written text) = collapseFrom written text := by
  induction text generalizing written with
  | nil => cases written <;> rfl
  | cons c rest inductionHypothesis =>
      cases space : isSpace c with
      | false =>
          have kept : collapseFrom written (c :: rest) = c :: collapseFrom false rest := by
            simp [collapseFrom, space]
          rw [kept, collapseFrom, space, inductionHypothesis]
          rfl
      | true =>
          cases written with
          | false =>
              have one : collapseFrom false (c :: rest) = ' ' :: collapseFrom true rest := by
                simp [collapseFrom, space]
              rw [one, collapseFrom, if_pos (by decide), inductionHypothesis]
              rfl
          | true =>
              have skipped : collapseFrom true (c :: rest) = collapseFrom true rest := by
                simp [collapseFrom, space]
              rw [skipped, inductionHypothesis]

theorem collapse_trimmed {text : Str} (trimmed : Trimmed text) : Trimmed (collapse text) := by
  constructor
  · intro c rest begins
    cases text with
    | nil => cases begins
    | cons d more =>
        have front := trimmed.front d more rfl
        rw [collapse, collapseFrom, front] at begins
        obtain ⟨rfl, -⟩ := List.cons.inj begins
        exact front
  · intro c rest ends
    obtain rfl | ⟨more, d, rfl⟩ := List.eq_nil_or_concat' text
    · cases rest <;> cases ends
    · have back := trimmed.back d more rfl
      rw [collapse, collapseFrom_concat back] at ends
      obtain ⟨-, same⟩ := List.append_inj' ends rfl
      obtain rfl := List.singleton_inj.mp same
      exact back

theorem mem_collapseFrom {written : Bool} {text : Str} {c : Char}
    (member : c ∈ collapseFrom written text) : c = ' ' ∨ c ∈ text := by
  induction text generalizing written with
  | nil => cases member
  | cons d rest inductionHypothesis =>
      rw [collapseFrom] at member
      split at member
      · split at member
        · exact (inductionHypothesis member).imp_right (List.mem_cons_of_mem d)
        · obtain rfl | member := List.mem_cons.mp member
          · exact .inl rfl
          · exact (inductionHypothesis member).imp_right (List.mem_cons_of_mem d)
      · obtain rfl | member := List.mem_cons.mp member
        · exact .inr List.mem_cons_self
        · exact (inductionHypothesis member).imp_right (List.mem_cons_of_mem d)

/-! ### Plates among white space -/

theorem stem_solid (plate : Plate) : Solid plate.stem := by
  intro c member
  simp only [Plate.stem, List.mem_append, List.mem_cons] at member
  obtain inDistrict | rfl | inLetters := member
  · exact district_not_space (plate.district_fits.accepted c inDistrict)
  · rfl
  · exact latin_not_space (plate.letters_fits.accepted c inLetters)

theorem figures_solid (plate : Plate) : Solid plate.figures := by
  intro c member
  obtain inNumber | inSuffix := List.mem_append.mp member
  · exact decimal_not_space (plate.number_fits.accepted c inNumber)
  · exact latin_not_space (suffix_latin (plate.suffix_fits.accepted c inSuffix))

theorem stem_nonempty (plate : Plate) : plate.stem ≠ [] := by
  simp [Plate.stem]

theorem figures_begin (plate : Plate) :
    ∃ c rest, plate.figures = c :: rest ∧ isDecimal c := by
  cases number : plate.number with
  | nil =>
      have least := plate.number_fits.least
      simp [number] at least
  | cons c rest =>
      exact ⟨c, rest ++ plate.suffix, by simp [Plate.figures, number],
        plate.number_fits.accepted c (number ▸ List.mem_cons_self)⟩

/-- A text is the plate with white space around it and in its gap. -/
def Spells (text : Str) (plate : Plate) : Prop :=
  ∃ lead gap trail, Blank lead ∧ Blank gap ∧ Blank trail ∧
    text = lead ++ (plate.stem ++ gap ++ plate.figures) ++ trail

theorem plate_trimmed (plate : Plate) (gap : Str) :
    Trimmed (plate.stem ++ gap ++ plate.figures) := by
  constructor
  · intro c rest begins
    cases stem : plate.stem with
    | nil => exact absurd stem (stem_nonempty plate)
    | cons d more =>
        rw [stem, List.cons_append, List.cons_append] at begins
        obtain ⟨rfl, -⟩ := List.cons.inj begins
        exact stem_solid plate d (stem ▸ List.mem_cons_self)
  · intro c rest ends
    obtain ⟨d, more, figures, -⟩ := figures_begin plate
    obtain nothing | ⟨front, last, lastEq⟩ := List.eq_nil_or_concat' plate.figures
    · rw [nothing] at figures
      cases figures
    · rw [lastEq, ← List.append_assoc] at ends
      obtain ⟨-, same⟩ := List.append_inj' ends rfl
      obtain rfl := List.singleton_inj.mp same
      exact figures_solid plate last (by simp [lastEq])

/-- White space of the gap collapses to at most one blank. -/
theorem collapse_plate (plate : Plate) {gap : Str} (blank : Blank gap) :
    collapse (plate.stem ++ gap ++ plate.figures) =
      plate.stem ++ (if gap = [] then [] else [' ']) ++ plate.figures := by
  have figures : collapseFrom false plate.figures = plate.figures := by
    simpa [collapseFrom] using @collapseFrom_solid plate.figures [] (figures_solid plate)
  rw [collapse, List.append_assoc, collapseFrom_solid (stem_solid plate), List.append_assoc]
  congr 1
  cases gap with
  | nil => simpa using figures
  | cons c more =>
      obtain ⟨d, rest, begins, decimal⟩ := figures_begin plate
      rw [List.cons_append, collapseFrom, if_pos (blank c List.mem_cons_self),
        if_neg (by simp),
        collapseFrom_blank fun e member => blank e (List.mem_cons_of_mem c member),
        begins, collapseFrom_true (decimal_not_space decimal), ← begins, figures]
      rfl

theorem word_of_collapseFrom {word text rest : Str} (solid : Solid word)
    (same : collapseFrom false text = word ++ rest) :
    ∃ remaining, text = word ++ remaining ∧ collapseFrom false remaining = rest := by
  induction word generalizing text with
  | nil => exact ⟨text, rfl, same⟩
  | cons c more inductionHypothesis =>
      cases text with
      | nil => cases same
      | cons d others =>
          rw [collapseFrom] at same
          split at same
          · obtain ⟨rfl, -⟩ := List.cons.inj same
            exact absurd (solid ' ' List.mem_cons_self) (by decide)
          · obtain ⟨rfl, continued⟩ := List.cons.inj same
            obtain ⟨remaining, rfl, collapsed⟩ := inductionHypothesis
              (fun e member => solid e (List.mem_cons_of_mem d member)) continued
            exact ⟨remaining, rfl, collapsed⟩

theorem eq_nil_of_collapseFrom {text : Str} (nothing : collapseFrom false text = []) :
    text = [] := by
  cases text with
  | nil => rfl
  | cons c rest => cases space : isSpace c <;> simp [collapseFrom, space] at nothing

theorem eq_word_of_collapseFrom {word text : Str} (solid : Solid word)
    (same : collapseFrom false text = word) : text = word := by
  obtain ⟨remaining, rfl, nothing⟩ :=
    @word_of_collapseFrom word text [] solid (by rw [same, List.append_nil])
  rw [eq_nil_of_collapseFrom nothing, List.append_nil]

theorem blank_word_of_collapseFrom {word text : Str} (solid : Solid word)
    (same : collapseFrom true text = word) : ∃ gap, Blank gap ∧ text = gap ++ word := by
  induction text with
  | nil => exact ⟨[], fun c member => absurd member List.not_mem_nil, by rw [← same]; rfl⟩
  | cons c rest inductionHypothesis =>
      cases space : isSpace c with
      | true =>
          rw [collapseFrom, if_pos space, if_pos rfl] at same
          obtain ⟨gap, blank, rfl⟩ := inductionHypothesis same
          exact ⟨c :: gap, List.forall_mem_cons.mpr ⟨space, blank⟩, rfl⟩
      | false =>
          rw [collapseFrom_true space] at same
          exact ⟨[], fun c member => absurd member List.not_mem_nil,
            eq_word_of_collapseFrom solid same⟩

/-- The texts that collapse to a plate are the plate among white space. -/
theorem reads_iff_spells {text : Str} {plate : Plate} :
    Reads (collapse (strip text)) plate ↔ Spells text plate := by
  constructor
  · intro reads
    obtain ⟨lead, trail, leads, trails, around⟩ := strip_spec text
    have stemmed : ∃ after, collapse (strip text) = plate.stem ++ after ∧
        (after = plate.figures ∨ after = ' ' :: plate.figures) := by
      obtain closed | spaced := reads
      · exact ⟨_, closed, .inl rfl⟩
      · exact ⟨_, spaced, .inr rfl⟩
    obtain ⟨after, same, afterEq⟩ := stemmed
    obtain ⟨remaining, stripped, continued⟩ := word_of_collapseFrom (stem_solid plate) same
    have gapped : ∃ gap, Blank gap ∧ remaining = gap ++ plate.figures := by
      obtain rfl | rfl := afterEq
      · exact ⟨[], fun c member => absurd member List.not_mem_nil,
          eq_word_of_collapseFrom (figures_solid plate) continued⟩
      · cases remaining with
        | nil => cases continued
        | cons c more =>
            cases space : isSpace c with
            | false =>
                rw [collapseFrom, space] at continued
                obtain ⟨rfl, -⟩ := List.cons.inj continued
                cases space
            | true =>
                rw [collapseFrom, if_pos space, if_neg (by simp)] at continued
                obtain ⟨gap, blank, rfl⟩ := blank_word_of_collapseFrom (figures_solid plate)
                  (List.cons.inj continued).2
                exact ⟨c :: gap, List.forall_mem_cons.mpr ⟨space, blank⟩, rfl⟩
    obtain ⟨gap, blank, rfl⟩ := gapped
    exact ⟨lead, gap, trail, leads, blank, trails, by rw [List.append_assoc plate.stem, ← stripped,
      ← around]⟩
  · rintro ⟨lead, gap, trail, leads, blank, trails, rfl⟩
    rw [strip_around leads trails (plate_trimmed plate gap), collapse_plate plate blank]
    cases gap with
    | nil => exact .inl (by simp)
    | cons c more => exact .inr (by simp)

/-! ### Upper case -/

section Upper

variable {upper : Char → Str}

theorem upper_of_fixed {text : Str} (fixed : ∀ c ∈ text, upper c = [c]) :
    text.flatMap upper = text := by
  induction text with
  | nil => rfl
  | cons c rest inductionHypothesis =>
      rw [List.flatMap_cons, fixed c List.mem_cons_self,
        inductionHypothesis fun d member => fixed d (List.mem_cons_of_mem c member)]
      rfl

variable (uppercasing : Uppercasing upper)
include uppercasing

theorem upper_blank {text : Str} (blank : Blank text) : text.flatMap upper = text := by
  induction text with
  | nil => rfl
  | cons c rest inductionHypothesis =>
      rw [List.flatMap_cons, uppercasing.space c (blank c List.mem_cons_self),
        inductionHypothesis fun d member => blank d (List.mem_cons_of_mem c member)]
      rfl

theorem upper_trimmed {text : Str} (trimmed : Trimmed text) : Trimmed (text.flatMap upper) := by
  constructor
  · intro c rest begins
    cases text with
    | nil => cases begins
    | cons d more =>
        cases mapped : upper d with
        | nil => exact absurd mapped (uppercasing.nonempty d)
        | cons e others =>
            rw [List.flatMap_cons, mapped] at begins
            obtain ⟨rfl, -⟩ := List.cons.inj begins
            exact uppercasing.notSpace d (trimmed.front d more rfl) e (mapped ▸ List.mem_cons_self)
  · intro c rest ends
    obtain rfl | ⟨more, d, rfl⟩ := List.eq_nil_or_concat' text
    · cases rest <;> cases ends
    · obtain nothing | ⟨front, last, lastEq⟩ := List.eq_nil_or_concat' (upper d)
      · exact absurd nothing (uppercasing.nonempty d)
      · rw [List.flatMap_append, List.flatMap_singleton, lastEq, ← List.append_assoc] at ends
        obtain ⟨-, same⟩ := List.append_inj' ends rfl
        obtain rfl := List.singleton_inj.mp same
        exact uppercasing.notSpace d (trimmed.back d more rfl) last (by simp [lastEq])

theorem collapsed_eq (raw : Str) : collapsed upper raw = collapse (strip (raw.flatMap upper)) := by
  obtain ⟨lead, trail, leads, trails, around⟩ := strip_spec raw
  have mapped : raw.flatMap upper = lead ++ (strip raw).flatMap upper ++ trail := by
    conv_lhs => rw [around]
    rw [List.flatMap_append, List.flatMap_append, upper_blank uppercasing leads,
      upper_blank uppercasing trails]
  rw [collapsed, mapped, strip_around leads trails (upper_trimmed uppercasing (strip_trimmed raw))]

theorem upper_fixed {text : Str} (fixed : text.flatMap upper = text) {c : Char}
    (member : c ∈ text) : upper c = [c] := by
  have longer : ∀ text : Str, text.length ≤ (text.flatMap upper).length := by
    intro text
    induction text with
    | nil => exact le_rfl
    | cons c rest inductionHypothesis =>
        have positive := List.length_pos_of_ne_nil (uppercasing.nonempty c)
        rw [List.flatMap_cons, List.length_append, List.length_cons]
        omega
  induction text with
  | nil => cases member
  | cons d rest inductionHypothesis =>
      rw [List.flatMap_cons] at fixed
      have lengths := congrArg List.length fixed
      have positive := List.length_pos_of_ne_nil (uppercasing.nonempty d)
      have others := longer rest
      simp only [List.length_append, List.length_cons] at lengths
      obtain ⟨e, single⟩ := List.length_eq_one_iff.mp (show (upper d).length = 1 by omega)
      rw [single, List.singleton_append] at fixed
      obtain ⟨rfl, restFixed⟩ := List.cons.inj fixed
      obtain rfl | inRest := List.mem_cons.mp member
      · exact single
      · exact inductionHypothesis restFixed inRest

theorem collapsed_fixed {raw : Str} {c : Char} (member : c ∈ collapsed upper raw) :
    upper c = [c] := by
  obtain rfl | inUpper := mem_collapseFrom member
  · exact uppercasing.space ' ' (by decide)
  · obtain ⟨d, -, inImage⟩ := List.mem_flatMap.mp inUpper
    exact upper_fixed uppercasing (uppercasing.idempotent d) inImage

/-- The texts that are accepted are the plates among white space, in any case. -/
theorem reads_collapsed_iff {raw : Str} {plate : Plate} :
    Reads (collapsed upper raw) plate ↔ Spells (raw.flatMap upper) plate := by
  rw [collapsed_eq uppercasing, reads_iff_spells]

/-! ### Normal forms -/

theorem normalize_text {raw : Str} {plate : Plate} (reads : Reads (collapsed upper raw) plate) :
    normalizeKennzeichen upper plate.text = plate.text := by
  have fixed : ∀ c ∈ plate.text, upper c = [c] := by
    intro c member
    have inside : c = ' ' ∨ c ∈ collapsed upper raw := by
      simp only [Plate.text, List.mem_append, List.mem_cons] at member
      obtain closed | spaced := reads
      · rw [closed, List.mem_append]
        tauto
      · rw [spaced, List.mem_append, List.mem_cons]
        tauto
    obtain rfl | inside := inside
    · exact uppercasing.space ' ' (by decide)
    · exact collapsed_fixed uppercasing inside
  refine normalize_of_reads ((reads_collapsed_iff uppercasing).mpr ?_)
  rw [upper_of_fixed fixed]
  exact ⟨[], [' '], [], by simp [Blank], by simp [Blank]; decide, by simp [Blank],
    by simp [Plate.text]⟩

theorem collapsed_idempotent (raw : Str) :
    collapsed upper (collapsed upper raw) = collapsed upper raw := by
  have trimmed : Trimmed (collapsed upper raw) := by
    rw [collapsed_eq uppercasing]
    exact collapse_trimmed (strip_trimmed _)
  rw [collapsed_eq uppercasing (collapsed upper raw),
    upper_of_fixed fun c member => collapsed_fixed uppercasing member,
    strip_of_trimmed trimmed]
  exact collapseFrom_idempotent false _

theorem normalize_idempotent (raw : Str) :
    normalizeKennzeichen upper (normalizeKennzeichen upper raw) =
      normalizeKennzeichen upper raw := by
  by_cases read : ∃ plate, Reads (collapsed upper raw) plate
  · obtain ⟨plate, reads⟩ := read
    rw [normalize_of_reads reads, normalize_text uppercasing reads]
  · obtain ⟨-, normalized⟩ := normalize_of_not_reads (not_exists.mp read)
    rw [normalized]
    have same := collapsed_idempotent uppercasing raw
    rw [(normalize_of_not_reads (same.symm ▸ not_exists.mp read)).2, same]

end Upper

/-! ### Other spellings -/

/-- One letter in one case or the other. -/
def SameLetter (c d : Char) : Prop :=
  c = d ∨ ∃ pair ∈ letterPairs, (c = pair.1 ∨ c = pair.2) ∧ (d = pair.1 ∨ d = pair.2)

/-- One edit of a spelling: letters in another case, white space added at the ends,
other white space before the first digit. -/
inductive Respelling (upper : Char → Str) : Str → Str → Prop
  | letters {text other : Str} (same : List.Forall₂ SameLetter text other) :
      Respelling upper text other
  | ends {text lead trail : Str} (leads : Blank lead) (trails : Blank trail) :
      Respelling upper text (lead ++ text ++ trail)
  | gap {front gap other number : Str} (blank : Blank gap) (otherBlank : Blank other)
      (undigited : ∀ c ∈ front.flatMap upper, isDecimal c = false)
      (digit : ∃ c rest, number.flatMap upper = c :: rest ∧ isDecimal c) :
      Respelling upper (front ++ gap ++ number) (front ++ other ++ number)

/-- Two texts that part before their first digits part there together. -/
theorem first_digit_unique {front other rest more : Str}
    (undigited : ∀ c ∈ front, isDecimal c = false)
    (otherUndigited : ∀ c ∈ other, isDecimal c = false)
    (digit : ∃ c tail, rest = c :: tail ∧ isDecimal c)
    (otherDigit : ∃ c tail, more = c :: tail ∧ isDecimal c) (same : front ++ rest = other ++ more) :
    front = other ∧ rest = more := by
  have before : ∀ {front rest : Str}, (∀ c ∈ front, isDecimal c = false) →
      (∃ c tail, rest = c :: tail ∧ isDecimal c) →
        (front ++ rest).takeWhile (fun c => !isDecimal c) = front := by
    rintro front rest undigited ⟨c, tail, rfl, decimal⟩
    rw [List.takeWhile_append_of_pos fun d member => by simp [undigited d member],
      List.takeWhile_cons_of_neg (by simp [decimal]), List.append_nil]
  have fronts : front = other := by
    rw [← before undigited digit, same, before otherUndigited otherDigit]
  subst fronts
  exact ⟨rfl, List.append_cancel_left same⟩

theorem blank_undigited {text : Str} (blank : Blank text) : ∀ c ∈ text, isDecimal c = false := by
  intro c member
  rw [← Bool.not_eq_true]
  intro decimal
  have space := blank c member
  rw [decimal_not_space decimal] at space
  cases space

theorem stem_undigited (plate : Plate) : ∀ c ∈ plate.stem, isDecimal c = false := by
  have latin : ∀ {c : Char}, isLatin c → isDecimal c = false := by
    intro c latin
    rw [← Bool.not_eq_true]
    intro decimal
    rw [decimal_not_latin decimal] at latin
    cases latin
  intro c member
  simp only [Plate.stem, List.mem_append, List.mem_cons] at member
  obtain inDistrict | rfl | inLetters := member
  · obtain isLatin | rfl | rfl | rfl :=
      isDistrict_iff.mp (plate.district_fits.accepted c inDistrict)
    · exact latin isLatin
    · decide
    · decide
    · decide
  · decide
  · exact latin (plate.letters_fits.accepted c inLetters)

theorem blank_behind_word {lead word gap front blank : Str} (solid : Solid word)
    (nonempty : word ≠ []) (gapBlank : Blank gap) (blankBlank : Blank blank)
    (same : front ++ blank = lead ++ word ++ gap) :
    ∃ kept, Blank kept ∧ front = lead ++ word ++ kept := by
  obtain ⟨kept, wordEq, blankEq⟩ | ⟨kept, frontEq, gapEq⟩ := List.append_eq_append_iff.mp same
  · obtain rfl | ⟨others, last, rfl⟩ := List.eq_nil_or_concat' kept
    · exact ⟨[], by simp [Blank], by rw [wordEq, List.append_nil, List.append_nil]⟩
    · obtain rfl | ⟨letters, final, rfl⟩ := List.eq_nil_or_concat' word
      · exact absurd rfl nonempty
      · rw [← List.append_assoc, ← List.append_assoc] at wordEq
        obtain ⟨-, finalEq⟩ := List.append_inj' wordEq rfl
        obtain rfl := List.singleton_inj.mp finalEq
        have space := blankBlank final (by simp [blankEq])
        rw [solid final (by simp)] at space
        cases space
  · exact ⟨kept, fun c member => gapBlank c (by simp [gapEq, member]), frontEq⟩

section Edits

variable {upper : Char → Str} (uppercasing : Uppercasing upper)
include uppercasing

theorem upper_sameLetter {text other : Str} (same : List.Forall₂ SameLetter text other) :
    text.flatMap upper = other.flatMap upper := by
  induction same with
  | nil => rfl
  | @cons c d rest more same _ inductionHypothesis =>
      have upperEq : upper c = upper d := by
        obtain rfl | ⟨pair, member, cIn, dIn⟩ := same
        · rfl
        · obtain ⟨lower, capital⟩ := uppercasing.letter pair member
          obtain rfl | rfl := cIn <;> obtain rfl | rfl := dIn <;> simp [lower, capital]
      rw [List.flatMap_cons, List.flatMap_cons, upperEq, inductionHypothesis]

/-- An edit leaves the plate among white space. -/
theorem spells_of_respelling {raw respelled : Str} {plate : Plate}
    (spells : Spells (raw.flatMap upper) plate) (respelling : Respelling upper raw respelled) :
    Spells (respelled.flatMap upper) plate := by
  cases respelling with
  | letters same => rwa [← upper_sameLetter uppercasing same]
  | @ends _ before behind leads trails =>
      obtain ⟨lead, gap, trail, lead_blank, gap_blank, trail_blank, textEq⟩ := spells
      refine ⟨before ++ lead, gap, trail ++ behind, ?_, gap_blank, ?_, ?_⟩
      · exact List.forall_mem_append.mpr ⟨leads, lead_blank⟩
      · exact List.forall_mem_append.mpr ⟨trail_blank, trails⟩
      · rw [List.flatMap_append, List.flatMap_append, upper_blank uppercasing leads,
          upper_blank uppercasing trails, textEq]
        simp
  | @gap front oldGap newGap number blank otherBlank undigited digit =>
      obtain ⟨lead, gap, trail, lead_blank, gap_blank, trail_blank, textEq⟩ := spells
      rw [List.flatMap_append, List.flatMap_append, upper_blank uppercasing blank] at textEq
      have parted : (front.flatMap upper ++ oldGap) ++ number.flatMap upper =
          (lead ++ plate.stem ++ gap) ++ (plate.figures ++ trail) := by
        rw [textEq]
        simp
      obtain ⟨c, rest, figures, decimal⟩ := figures_begin plate
      obtain ⟨frontEq, numberEq⟩ := first_digit_unique
        (List.forall_mem_append.mpr ⟨undigited, blank_undigited blank⟩)
        (List.forall_mem_append.mpr ⟨List.forall_mem_append.mpr
          ⟨blank_undigited lead_blank, stem_undigited plate⟩, blank_undigited gap_blank⟩)
        digit ⟨c, rest ++ trail, by rw [figures]; rfl, decimal⟩ parted
      obtain ⟨kept, kept_blank, frontSplit⟩ := blank_behind_word (stem_solid plate)
        (stem_nonempty plate) gap_blank blank frontEq
      refine ⟨lead, kept ++ newGap, trail, lead_blank,
        List.forall_mem_append.mpr ⟨kept_blank, otherBlank⟩, trail_blank, ?_⟩
      rw [List.flatMap_append, List.flatMap_append, upper_blank uppercasing otherBlank,
        frontSplit, numberEq]
      simp

/-- Normalization is idempotent, and any number of edits of an accepted plate leave its
normal form. -/
theorem kennzeichen_canonical :
    (∀ raw, normalizeKennzeichen upper (normalizeKennzeichen upper raw) =
        normalizeKennzeichen upper raw) ∧
      ∀ raw respelled kennzeichen, validateKennzeichen upper raw = some kennzeichen →
        Relation.ReflTransGen (Respelling upper) raw respelled →
          validateKennzeichen upper respelled = some kennzeichen ∧
            normalizeKennzeichen upper respelled = normalizeKennzeichen upper raw := by
  refine ⟨normalize_idempotent uppercasing, fun raw respelled kennzeichen validated edits => ?_⟩
  obtain ⟨plate, reads, rfl⟩ := validate_eq_some_iff.mp validated
  have spells : Spells (respelled.flatMap upper) plate := by
    induction edits with
    | refl => exact (reads_collapsed_iff uppercasing).mp reads
    | tail _ edit inductionHypothesis =>
        exact spells_of_respelling uppercasing inductionHypothesis edit
  have respelledReads := (reads_collapsed_iff uppercasing).mpr spells
  exact ⟨validate_of_reads respelledReads,
    by rw [normalize_of_reads respelledReads, normalize_of_reads reads]⟩

end Edits

/-! ### The letters of German -/

/-- The characters that `germanUpper` changes. -/
def germanLower : Str :=
  (List.range 26).map (fun i => Char.ofNat (97 + i)) ++ ['ä', 'ö', 'ü', 'ß']

theorem germanUpper_cases (c : Char) : c ∈ germanLower ∨ germanUpper c = [c] := by
  rw [germanUpper]
  split
  · next letter =>
      refine .inl (List.mem_append_left _ (List.mem_map.mpr ⟨c.toNat - 97, ?_, ?_⟩))
      · have most := UInt32.le_iff_toNat_le.mp (Char.le_def.mp letter.2)
        change c.toNat ≤ 122 at most
        exact List.mem_range.mpr (by omega)
      · have least := UInt32.le_iff_toNat_le.mp (Char.le_def.mp letter.1)
        change 97 ≤ c.toNat at least
        rw [Nat.add_sub_cancel' least, Char.ofNat_toNat]
  · split_ifs with a o u s
    · exact .inl (by rw [a]; decide)
    · exact .inl (by rw [o]; decide)
    · exact .inl (by rw [u]; decide)
    · exact .inl (by rw [s]; decide)
    · exact .inr rfl

theorem listed_all {p : Char → Bool} (all : germanLower.all p = true) {c : Char}
    (listed : c ∈ germanLower) : p c = true :=
  List.all_eq_true.mp all c listed

theorem germanUppercasing : Uppercasing germanUpper where
  nonempty c := by
    obtain listed | same := germanUpper_cases c
    · have all : germanLower.all (fun c => germanUpper c ≠ []) = true := by decide
      exact of_decide_eq_true (listed_all all listed)
    · simp [same]
  idempotent c := by
    obtain listed | same := germanUpper_cases c
    · have all : germanLower.all
          (fun c => (germanUpper c).flatMap germanUpper = germanUpper c) = true := by decide
      exact of_decide_eq_true (listed_all all listed)
    · simp [same]
  space c space := by
    obtain listed | same := germanUpper_cases c
    · have all : germanLower.all (fun c => !isSpace c) = true := by decide
      have solid := listed_all all listed
      rw [space] at solid
      cases solid
    · exact same
  notSpace c solid := by
    obtain listed | same := germanUpper_cases c
    · have all : germanLower.all (fun c => (germanUpper c).all fun d => !isSpace d) = true := by
        decide
      intro d member
      simpa using List.all_eq_true.mp (listed_all all listed) d member
    · simpa [same] using solid
  letter pair member := by
    have all : letterPairs.all (fun pair => decide (germanUpper pair.1 = [pair.2]) &&
        decide (germanUpper pair.2 = [pair.2])) = true := by decide
    simpa using List.all_eq_true.mp all pair member

/-- `B-AB 1234` typed in lower case, without its gap. -/
theorem kennzeichen_canonical_german :
    validateKennzeichen germanUpper " b-ab1234".toList = some "B-AB 1234".toList := by
  refine ((kennzeichen_canonical germanUppercasing).2 "B-AB 1234".toList _ _
    (by decide +kernel) ?_).1
  have letter : ∀ pair ∈ letterPairs, SameLetter pair.2 pair.1 := fun pair member =>
    .inr ⟨pair, member, .inr rfl, .inl rfl⟩
  have lower : Respelling germanUpper "B-AB 1234".toList "b-ab 1234".toList :=
    .letters (.cons (letter ('b', 'B') (by decide)) (.cons (.inl rfl)
      (.cons (letter ('a', 'A') (by decide)) (.cons (letter ('b', 'B') (by decide))
        (List.forall₂_same.mpr fun _ _ => .inl rfl)))))
  have undigited : ("b-ab".toList.flatMap germanUpper).any isDecimal = false := by decide
  have closed : Respelling germanUpper ("b-ab".toList ++ " ".toList ++ "1234".toList)
      ("b-ab".toList ++ [] ++ "1234".toList) :=
    .gap (by simp [Blank]; decide) (by simp [Blank])
      (fun c member => Bool.eq_false_iff.mpr (List.any_eq_false.mp undigited c member))
      ⟨'1', "234".toList, rfl, by decide⟩
  have spaced : Respelling germanUpper "b-ab1234".toList (" ".toList ++ "b-ab1234".toList ++ []) :=
    .ends (by simp [Blank]; decide) (by simp [Blank])
  exact ((Relation.ReflTransGen.single lower).tail closed).tail spaced

end Fristenwaechter
