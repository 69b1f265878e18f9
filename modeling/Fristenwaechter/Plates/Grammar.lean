import Fristenwaechter.Web.Kennzeichen

/-!
Owns the grammar of a licence plate and what `validate_kennzeichen` accepts: the texts
that collapse to a plate, with decimal digits of any script, and nothing else.
-/

namespace Fristenwaechter

open Library (Pattern Piece)

/-! ### Character classes -/

theorem decimal_forall (check : Nat → Bool)
    (all : decimalZeros.all fun start => (List.range 10).all fun offset => check (start + offset))
    {c : Char} (decimal : isDecimal c) : check c.toNat := by
  rw [isDecimal, decimalValue, Option.isSome_map, List.find?_isSome] at decimal
  obtain ⟨start, member, inside⟩ := decimal
  obtain ⟨least, most⟩ := of_decide_eq_true inside
  have checked := List.all_eq_true.mp (List.all_eq_true.mp all start member) (c.toNat - start)
    (List.mem_range.mpr (by omega))
  rwa [Nat.add_sub_cancel' least] at checked

theorem isLatin_iff {c : Char} : isLatin c ↔ 65 ≤ c.toNat ∧ c.toNat ≤ 90 := by
  simp only [isLatin, Char.le_def, UInt32.le_iff_toNat_le, Bool.decide_and, Bool.and_eq_true,
    decide_eq_true_eq]
  exact Iff.rfl

theorem isSpace_iff {c : Char} :
    isSpace c ↔ (9 ≤ c.toNat ∧ c.toNat ≤ 13) ∨ (28 ≤ c.toNat ∧ c.toNat ≤ 32) ∨
      (0x2000 ≤ c.toNat ∧ c.toNat ≤ 0x200A) ∨
      c.toNat ∈ [0x85, 0xA0, 0x1680, 0x2028, 0x2029, 0x202F, 0x205F, 0x3000] := by
  rw [isSpace, decide_eq_true_iff]

theorem isSuffix_iff {c : Char} : isSuffix c ↔ c = 'E' ∨ c = 'H' := by
  simp [isSuffix]

theorem isDistrict_iff {c : Char} :
    isDistrict c ↔ isLatin c ∨ c = 'Ä' ∨ c = 'Ö' ∨ c = 'Ü' := by
  simp [isDistrict]

theorem latin_not_space {c : Char} (latin : isLatin c) : isSpace c = false := by
  rw [isLatin_iff] at latin
  rw [← Bool.not_eq_true, isSpace_iff]
  simp only [List.mem_cons, List.not_mem_nil, or_false]
  omega

theorem district_not_space {c : Char} (district : isDistrict c) : isSpace c = false := by
  obtain latin | rfl | rfl | rfl := isDistrict_iff.mp district
  · exact latin_not_space latin
  · rfl
  · rfl
  · rfl

theorem decimal_not_space {c : Char} (decimal : isDecimal c) : isSpace c = false := by
  have separate := decimal_forall (fun n => !decide ((9 ≤ n ∧ n ≤ 13) ∨
    (28 ≤ n ∧ n ≤ 32) ∨ (0x2000 ≤ n ∧ n ≤ 0x200A) ∨
      n ∈ [0x85, 0xA0, 0x1680, 0x2028, 0x2029, 0x202F, 0x205F, 0x3000])) (by decide) decimal
  exact Bool.eq_false_of_not_eq_true' separate

theorem decimal_not_latin {c : Char} (decimal : isDecimal c) : isLatin c = false := by
  have separate := decimal_forall (fun n => !decide (65 ≤ n ∧ n ≤ 90)) (by decide) decimal
  rw [← Bool.not_eq_true, isLatin_iff]
  exact of_decide_eq_false (Bool.eq_false_of_not_eq_true' separate)

theorem suffix_latin {c : Char} (suffix : isSuffix c) : isLatin c := by
  obtain rfl | rfl := isSuffix_iff.mp suffix
  · rfl
  · rfl

/-- The classes of neighbouring pieces are disjoint, also across the optional gap. -/
theorem plate_separated : platePattern.Separated atEnd := by
  have lineBreak : ∀ {c : Char} {tail : Str}, atEnd (c :: tail) → isSpace c := by
    intro c tail ended
    obtain ⟨rfl, rfl⟩ : c = '\n' ∧ tail = [] := by simpa [atEnd] using ended
    rfl
  refine ⟨?_, ?_, ?_, ?_, ?_, ?_, trivial⟩
  · rintro c district (hyphen | ⟨absurdLeast, _⟩)
    · obtain rfl : c = '-' := of_decide_eq_true hyphen
      exact absurd district (by decide)
    · cases absurdLeast
  · rintro c hyphen (latin | ⟨absurdLeast, _⟩)
    · obtain rfl : c = '-' := of_decide_eq_true hyphen
      exact absurd latin (by decide)
    · cases absurdLeast
  · rintro c latin (space | ⟨_, decimal | ⟨absurdLeast, _⟩⟩)
    · exact absurd space (by simp [latin_not_space latin])
    · exact absurd latin (by simp [decimal_not_latin decimal])
    · cases absurdLeast
  · rintro c space (decimal | ⟨absurdLeast, _⟩)
    · exact absurd space (by simp [decimal_not_space decimal])
    · cases absurdLeast
  · rintro c decimal (suffix | ⟨_, _, ended⟩)
    · exact absurd (suffix_latin suffix) (by simp [decimal_not_latin decimal])
    · exact absurd (lineBreak ended) (by simp [decimal_not_space decimal])
  · rintro c suffix ⟨_, ended⟩
    exact absurd (lineBreak ended) (by simp [latin_not_space (suffix_latin suffix)])

/-! ### Plates -/

/-- A plate: its district, its letters, its number in the digits of any script and its
suffix. -/
@[ext]
structure Plate where
  district : Str
  letters : Str
  number : Str
  suffix : Str
  district_fits : Piece.Fits ⟨isDistrict, 1, 3⟩ district
  letters_fits : Piece.Fits ⟨isLatin, 1, 2⟩ letters
  number_fits : Piece.Fits ⟨isDecimal, 1, 4⟩ number
  suffix_fits : Piece.Fits ⟨isSuffix, 0, 1⟩ suffix

namespace Plate

def stem (plate : Plate) : Str :=
  plate.district ++ '-' :: plate.letters

def figures (plate : Plate) : Str :=
  plate.number ++ plate.suffix

/-- The plate with one blank before its number. -/
def text (plate : Plate) : Str :=
  plate.stem ++ ' ' :: plate.figures

/-- The number is written in the digits 0–9. -/
def Ascii (plate : Plate) : Prop :=
  ∀ c ∈ plate.number, '0' ≤ c ∧ c ≤ '9'

theorem text_length (plate : Plate) : plate.text.length ≤ 12 := by
  have district := plate.district_fits.most
  have letters := plate.letters_fits.most
  have number := plate.number_fits.most
  have suffix := plate.suffix_fits.most
  simp only [text, stem, figures, List.length_append, List.length_cons] at *
  omega

/-- What the repetitions of the pattern take of a plate. -/
def parts (plate : Plate) (gap : Str) : List Str :=
  [plate.district, ['-'], plate.letters, gap, plate.number, plate.suffix]

theorem parts_flatten (plate : Plate) (gap : Str) :
    (plate.parts gap).flatten = plate.stem ++ gap ++ plate.figures := by
  simp [parts, stem, figures]

end Plate

/-- The text is the plate with at most one blank before its number. -/
def Reads (text : Str) (plate : Plate) : Prop :=
  text = plate.stem ++ plate.figures ∨ text = plate.stem ++ ' ' :: plate.figures

/-- The pattern reads a plate with at most one white-space character in its gap, and
`$` behind it. -/
theorem run_plate_iff {text : Str} {parts : List Str} :
    platePattern.run atEnd text = some parts ↔
      ∃ (plate : Plate) (gap tail : Str), Piece.Fits ⟨isSpace, 0, 1⟩ gap ∧ atEnd tail ∧
        parts = plate.parts gap ∧ text = plate.stem ++ gap ++ plate.figures ++ tail := by
  rw [Pattern.run_eq_some_iff plate_separated]
  constructor
  · rintro ⟨fits, tail, ended, rfl⟩
    cases fits with
    | @cons _ district _ _ districtFits fits =>
    cases fits with
    | @cons _ hyphen _ _ hyphenFits fits =>
    cases fits with
    | @cons _ letters _ _ lettersFits fits =>
    cases fits with
    | @cons _ gap _ _ gapFits fits =>
    cases fits with
    | @cons _ number _ _ numberFits fits =>
    cases fits with
    | @cons _ suffix _ _ suffixFits fits =>
    cases fits
    obtain ⟨c, rfl⟩ := List.length_eq_one_iff.mp (le_antisymm hyphenFits.most hyphenFits.least)
    obtain rfl : c = '-' := of_decide_eq_true (hyphenFits.accepted c List.mem_cons_self)
    refine ⟨⟨district, letters, number, suffix, districtFits, lettersFits, numberFits,
      suffixFits⟩, gap, tail, gapFits, ended, rfl, ?_⟩
    rw [← Plate.parts_flatten]
    rfl
  · rintro ⟨plate, gap, tail, gapFits, ended, rfl, rfl⟩
    have hyphen : Piece.Fits ⟨fun c => c = '-', 1, 1⟩ ['-'] := ⟨le_rfl, le_rfl, by simp⟩
    refine ⟨?_, tail, ended, by rw [plate.parts_flatten]⟩
    exact .cons plate.district_fits (.cons hyphen (.cons plate.letters_fits (.cons gapFits
      (.cons plate.number_fits (.cons plate.suffix_fits .nil)))))

/-! ### Collapsed texts -/

theorem blank_of_collapseFrom {written : Bool} {text : Str} {c : Char}
    (member : c ∈ collapseFrom written text) (space : isSpace c) : c = ' ' := by
  induction text generalizing written with
  | nil => cases member
  | cons first rest inductionHypothesis =>
      rw [collapseFrom] at member
      split at member
      · split at member
        · exact inductionHypothesis member
        · obtain rfl | member := List.mem_cons.mp member
          · rfl
          · exact inductionHypothesis member
      · next notSpace =>
          obtain rfl | member := List.mem_cons.mp member
          · exact absurd space notSpace
          · exact inductionHypothesis member

variable {upper : Char → Str} {raw : Str}

theorem run_collapsed_iff {parts : List Str} :
    platePattern.run atEnd (collapsed upper raw) = some parts ↔
      ∃ (plate : Plate) (gap : Str), (gap = [] ∨ gap = [' ']) ∧ parts = plate.parts gap ∧
        collapsed upper raw = plate.stem ++ gap ++ plate.figures := by
  rw [run_plate_iff]
  constructor
  · rintro ⟨plate, gap, tail, gapFits, ended, partsEq, textEq⟩
    have blank : ∀ c ∈ gap ++ tail, isSpace c → c = ' ' := by
      intro c member space
      refine @blank_of_collapseFrom false ((strip raw).flatMap upper) c ?_ space
      change c ∈ collapsed upper raw
      rw [textEq]
      simp only [List.mem_append] at member ⊢
      tauto
    have tailEmpty : tail = [] := by
      obtain empty | lineBreak : tail = [] ∨ tail = ['\n'] := by simpa [atEnd] using ended
      · exact empty
      · exact absurd (blank '\n' (by simp [lineBreak]) (by decide)) (by decide)
    refine ⟨plate, gap, ?_, partsEq, by rw [textEq, tailEmpty, List.append_nil]⟩
    cases gap with
    | nil => exact .inl rfl
    | cons c rest =>
        have restEmpty : rest = [] := List.eq_nil_of_length_eq_zero (by
          have most := gapFits.most
          simp only [List.length_cons] at most
          omega)
        have blankEq := blank c (by simp) (gapFits.accepted c List.mem_cons_self)
        exact .inr (by rw [blankEq, restEmpty])
  · rintro ⟨plate, gap, gapEq, partsEq, textEq⟩
    refine ⟨plate, gap, [], ?_, rfl, partsEq, by rw [textEq, List.append_nil]⟩
    obtain rfl | rfl := gapEq
    · exact ⟨le_rfl, by decide, by simp⟩
    · exact ⟨by decide, le_rfl, by simp; decide⟩

theorem run_of_reads {plate : Plate} (reads : Reads (collapsed upper raw) plate) :
    ∃ gap, platePattern.run atEnd (collapsed upper raw) = some (plate.parts gap) := by
  obtain closed | spaced := reads
  · exact ⟨[], run_collapsed_iff.mpr ⟨plate, [], .inl rfl, rfl, by simpa using closed⟩⟩
  · exact ⟨[' '], run_collapsed_iff.mpr ⟨plate, [' '], .inr rfl, rfl, by simpa using spaced⟩⟩

/-- A collapsed text is a plate in at most one way. -/
theorem reads_unique {first second : Plate} (readsFirst : Reads (collapsed upper raw) first)
    (readsSecond : Reads (collapsed upper raw) second) : first = second := by
  obtain ⟨firstGap, firstRan⟩ := run_of_reads readsFirst
  obtain ⟨secondGap, secondRan⟩ := run_of_reads readsSecond
  rw [firstRan] at secondRan
  have same := Option.some.inj secondRan
  simp only [Plate.parts, List.cons.injEq] at same
  exact Plate.ext same.1 same.2.2.1 same.2.2.2.2.1 same.2.2.2.2.2.1

/-! ### What the code accepts -/

theorem normalize_of_reads {plate : Plate} (reads : Reads (collapsed upper raw) plate) :
    normalizeKennzeichen upper raw = plate.text := by
  obtain ⟨gap, ran⟩ := run_of_reads reads
  rw [normalizeKennzeichen, ran]
  simp [Plate.parts, Plate.text, Plate.stem, Plate.figures]

theorem normalize_of_not_reads (unread : ∀ plate, ¬ Reads (collapsed upper raw) plate) :
    platePattern.run atEnd (collapsed upper raw) = none ∧
      normalizeKennzeichen upper raw = collapsed upper raw := by
  have ran : platePattern.run atEnd (collapsed upper raw) = none := by
    rw [Option.eq_none_iff_forall_ne_some]
    intro parts ran
    obtain ⟨plate, gap, gapEq, -, textEq⟩ := run_collapsed_iff.mp ran
    obtain rfl | rfl := gapEq
    · exact unread plate (.inl (by simpa using textEq))
    · exact unread plate (.inr (by simpa using textEq))
  exact ⟨ran, by rw [normalizeKennzeichen, ran]⟩

theorem validate_of_reads {plate : Plate} (reads : Reads (collapsed upper raw) plate) :
    validateKennzeichen upper raw = some plate.text := by
  have accepted : platePattern.run atEnd plate.text = some (plate.parts [' ']) :=
    run_plate_iff.mpr ⟨plate, [' '], [], ⟨by decide, le_rfl, by simp; decide⟩, rfl, rfl,
      by simp [Plate.text]⟩
  rw [validateKennzeichen, normalize_of_reads reads, accepted]
  rfl

/-- What `validate_kennzeichen` returns. -/
theorem validate_eq_some_iff {kennzeichen : Str} :
    validateKennzeichen upper raw = some kennzeichen ↔
      ∃ plate, Reads (collapsed upper raw) plate ∧ kennzeichen = plate.text := by
  constructor
  · intro validated
    by_cases read : ∃ plate, Reads (collapsed upper raw) plate
    · obtain ⟨plate, reads⟩ := read
      rw [validate_of_reads reads] at validated
      exact ⟨plate, reads, (Option.some.inj validated).symm⟩
    · obtain ⟨ran, normalized⟩ := normalize_of_not_reads (not_exists.mp read)
      rw [validateKennzeichen, normalized, ran] at validated
      cases validated
  · rintro ⟨plate, reads, rfl⟩
    exact validate_of_reads reads

variable (upper raw) in
/-- `validate_kennzeichen` returns the plates whose number is written in the digits
0–9, in their one-blank spelling of at most twelve characters, and nothing else, exactly
on the texts that do not collapse to a plate with a digit of another script. -/
theorem validates_grammar_iff :
    ((∀ kennzeichen, validateKennzeichen upper raw = some kennzeichen ↔
        ∃ plate : Plate, plate.Ascii ∧ Reads (collapsed upper raw) plate ∧
          kennzeichen = plate.text) ∧
      ∀ kennzeichen, validateKennzeichen upper raw = some kennzeichen →
        kennzeichen.length ≤ 12) ↔
      ∀ plate, Reads (collapsed upper raw) plate → plate.Ascii := by
  constructor
  · rintro ⟨grammar, -⟩ plate reads
    obtain ⟨other, ascii, readsOther, -⟩ := (grammar _).mp (validate_of_reads reads)
    exact reads_unique readsOther reads ▸ ascii
  · intro ascii
    refine ⟨fun kennzeichen => ?_, fun kennzeichen validated => ?_⟩
    · rw [validate_eq_some_iff]
      exact ⟨fun ⟨plate, reads, textEq⟩ => ⟨plate, ascii plate reads, reads, textEq⟩,
        fun ⟨plate, _, reads, textEq⟩ => ⟨plate, reads, textEq⟩⟩
    · obtain ⟨plate, -, rfl⟩ := validate_eq_some_iff.mp validated
      exact plate.text_length

/-- The plate `B-AB ١٢` is stored beside `B-AB 12`. -/
theorem foreign_digits_accepted :
    ¬ (∀ kennzeichen, validateKennzeichen germanUpper "B-AB ١٢".toList = some kennzeichen ↔
        ∃ plate : Plate, plate.Ascii ∧ Reads (collapsed germanUpper "B-AB ١٢".toList) plate ∧
          kennzeichen = plate.text) := by
  intro grammar
  have accepted : validateKennzeichen germanUpper "B-AB ١٢".toList = some "B-AB ١٢".toList := by
    decide +kernel
  obtain ⟨plate, ascii, reads, textEq⟩ := (grammar _).mp accepted
  have foreign : '١' ∈ plate.district ++ '-' :: plate.letters ++
      ' ' :: (plate.number ++ plate.suffix) := by
    change '١' ∈ plate.text
    rw [← textEq]
    decide
  simp only [List.mem_append, List.mem_cons] at foreign
  obtain (inDistrict | hyphen | inLetters) | blank | inNumber | inSuffix := foreign
  · exact absurd (plate.district_fits.accepted _ inDistrict) (by decide)
  · exact absurd hyphen (by decide)
  · exact absurd (plate.letters_fits.accepted _ inLetters) (by decide)
  · exact absurd blank (by decide)
  · exact absurd (ascii _ inNumber) (by decide)
  · exact absurd (plate.suffix_fits.accepted _ inSuffix) (by decide)

end Fristenwaechter
