import Fristenwaechter.Models

/-!
Owns how texts, numbers, dates and JSON values can be read back from what is printed:
the printed forms that stand in hashed material determine the value and where it ends.
-/

namespace Fristenwaechter

/-! ### Digits -/

theorem digitChar_inj {first second : Nat} (firstSmall : first < 16) (secondSmall : second < 16)
    (same : Nat.digitChar first = Nat.digitChar second) : first = second := by
  have all : ∀ first < 16, ∀ second < 16,
      Nat.digitChar first = Nat.digitChar second → first = second := by
    decide
  exact all first firstSmall second secondSmall same

theorem digits_inj {base width first second : Nat} (positive : 0 < base) (small : base ≤ 16)
    (same : digits base width first = digits base width second) :
    first % base ^ width = second % base ^ width := by
  induction width generalizing first second with
  | zero => simp [Nat.mod_one]
  | succ width inductionHypothesis =>
      obtain ⟨high, low⟩ := List.append_inj same (by simp)
      have sameHigh := inductionHypothesis high
      have sameLow : first % base = second % base := by
        apply digitChar_inj ((Nat.mod_lt _ positive).trans_le small)
          ((Nat.mod_lt _ positive).trans_le small)
        simpa using low
      rw [Nat.pow_succ', Nat.mod_mul, Nat.mod_mul, sameHigh, sameLow]

theorem digits_append_inj {base width first second : Nat} (positive : 0 < base)
    (small : base ≤ 16) {rest other : Str}
    (same : digits base width first ++ rest = digits base width second ++ other) :
    first % base ^ width = second % base ^ width ∧ rest = other := by
  obtain ⟨sameDigits, sameRest⟩ := List.append_inj same (by simp)
  exact ⟨digits_inj positive small sameDigits, sameRest⟩

theorem Uuid.text_inj {first second : Uuid} (same : first.text = second.text) :
    first = second := by
  simp only [Uuid.text] at same
  obtain ⟨one, same⟩ := digits_append_inj (by decide) (by decide) same
  obtain ⟨two, same⟩ := digits_append_inj (by decide) (by decide) (List.cons.inj same).2
  obtain ⟨three, same⟩ := digits_append_inj (by decide) (by decide) (List.cons.inj same).2
  obtain ⟨four, same⟩ := digits_append_inj (by decide) (by decide) (List.cons.inj same).2
  have five := digits_inj (by decide) (by decide) (List.cons.inj same).2
  have firstSmall := first.bits.isLt
  have secondSmall := second.bits.isLt
  have sameBits : first.bits.toNat = second.bits.toNat := by
    omega
  cases first
  cases second
  exact congrArg Uuid.mk (BitVec.eq_of_toNat_eq sameBits)

theorem Date.isoformat_inj {first second : Date} (same : first.isoformat = second.isoformat) :
    first = second := by
  obtain ⟨_, firstYear, _, firstMonth, _, firstDay⟩ := first.valid
  obtain ⟨_, secondYear, _, secondMonth, _, secondDay⟩ := second.valid
  have monthLength : ∀ year month, daysInMonth year month ≤ 31 := by
    intro year month
    unfold daysInMonth
    split_ifs <;> decide
  have firstDay := firstDay.trans (monthLength _ _)
  have secondDay := secondDay.trans (monthLength _ _)
  simp only [Date.isoformat, twoDigits] at same
  obtain ⟨year, same⟩ := digits_append_inj (by decide) (by decide) same
  obtain ⟨month, same⟩ := digits_append_inj (by decide) (by decide) (List.cons.inj same).2
  have day := digits_inj (by decide) (by decide) (List.cons.inj same).2
  cases first
  cases second
  simp only [Date.mk.injEq] at *
  omega

/-! ### Decimals -/

theorem decimal_isDigit {n : Nat} {digit : Char} (member : digit ∈ decimal n) :
    digit.isDigit = true :=
  Nat.isDigit_of_mem_toDigits (by decide) (by decide) member

theorem decimal_cons (n : Nat) :
    ∃ digit digits, decimal n = digit :: digits ∧ digit.isDigit = true := by
  have notEmpty : decimal n ≠ [] := Nat.toDigits_ne_nil
  obtain ⟨digit, digits, shape⟩ := List.exists_cons_of_ne_nil notEmpty
  exact ⟨digit, digits, shape, decimal_isDigit (n := n) (shape ▸ List.mem_cons_self)⟩

theorem decimal_inj {first second : Nat} (same : decimal first = decimal second) :
    first = second := by
  have read := congrArg (fun text => Nat.ofDigitChars 10 text 0) same
  simpa [decimal, Nat.ofDigitChars_ten_toDigits] using read

/-- What follows a number does not continue it. -/
def Stops (rest : Str) : Prop :=
  ∀ c ∈ rest.head?, c.isDigit = false

theorem decimal_append_inj {first second : Nat} {rest tail : Str} (restStops : Stops rest)
    (tailStops : Stops tail) (same : decimal first ++ rest = decimal second ++ tail) :
    first = second ∧ rest = tail := by
  have takes : ∀ n rest, Stops rest → (decimal n ++ rest).takeWhile Char.isDigit = decimal n := by
    intro n rest stops
    rw [List.takeWhile_append_of_pos fun digit member => decimal_isDigit member]
    cases rest with
    | nil => simp
    | cons c rest => simp [stops c rfl]
  have sameDigits := congrArg (List.takeWhile Char.isDigit) same
  rw [takes _ _ restStops, takes _ _ tailStops] at sameDigits
  rw [sameDigits] at same
  exact ⟨decimal_inj sameDigits, List.append_cancel_left same⟩

theorem decimalInt_append_inj {first second : Int} {rest tail : Str} (restStops : Stops rest)
    (tailStops : Stops tail) (same : decimalInt first ++ rest = decimalInt second ++ tail) :
    first = second ∧ rest = tail := by
  have noSign : ∀ n rest other, decimal n ++ rest ≠ '-' :: other := by
    intro n rest other same
    obtain ⟨digit, digits, shape, isDigit⟩ := decimal_cons n
    rw [shape] at same
    rw [(List.cons.inj same).1] at isDigit
    exact absurd isDigit (by decide)
  unfold decimalInt at same
  split_ifs at same with firstNegative secondNegative secondNegative
  · obtain ⟨sameAbs, sameRest⟩ := decimal_append_inj restStops tailStops (List.cons.inj same).2
    exact ⟨by omega, sameRest⟩
  · exact absurd same.symm (noSign _ _ _)
  · exact absurd same (noSign _ _ _)
  · obtain ⟨sameAbs, sameRest⟩ := decimal_append_inj restStops tailStops same
    exact ⟨by omega, sameRest⟩

namespace Json

/-! ### Quoted texts -/

/-- The forms `escapeChar` prints a character in. -/
inductive Escape (c : Char) : Str → Prop
  | plain (notQuote : c ≠ '"') (notBackslash : c ≠ '\\') : Escape c [c]
  | short (letter : Char) (code : Nat) (isCode : c.toNat = code)
      (known : (letter, code) ∈
        [('"', 34), ('\\', 92), ('n', 10), ('r', 13), ('t', 9), ('f', 12), ('b', 8)]) :
      Escape c ['\\', letter]
  | unit (basic : c.toNat < 65536) : Escape c (unicodeEscape c.toNat)
  | pair (astral : 65536 ≤ c.toNat) :
      Escape c (unicodeEscape (0xD800 + (c.toNat - 65536) / 1024) ++
        unicodeEscape (0xDC00 + (c.toNat - 65536) % 1024))

theorem escapeChar_escape (c : Char) : Escape c (escapeChar c) := by
  unfold escapeChar
  split_ifs with isQuote isBackslash isNewline isReturn isTab isFeed isBack printable basic
  · exact .short _ 34 (by rw [isQuote]; rfl) (by simp)
  · exact .short _ 92 (by rw [isBackslash]; rfl) (by simp)
  · exact .short _ 10 (by rw [isNewline]; rfl) (by simp)
  · exact .short _ 13 (by rw [isReturn]; rfl) (by simp)
  · exact .short _ 9 (by rw [isTab]; rfl) (by simp)
  · exact .short _ 12 isFeed (by simp)
  · exact .short _ 8 isBack (by simp)
  · exact .plain isQuote isBackslash
  · exact .unit basic
  · exact .pair (by omega)

theorem toNat_inj {first second : Char} (same : first.toNat = second.toNat) : first = second :=
  Char.ext (UInt32.toNat_inj.mp same)

theorem not_surrogate (c : Char) : ¬ (0xD800 ≤ c.toNat ∧ c.toNat < 0xE000) := by
  have valid : c.toNat < 0xD800 ∨ 0xDFFF < c.toNat ∧ c.toNat < 0x110000 := c.valid
  omega

theorem toNat_lt (c : Char) : c.toNat < 0x110000 := by
  have valid : c.toNat < 0xD800 ∨ 0xDFFF < c.toNat ∧ c.toNat < 0x110000 := c.valid
  omega

theorem unicodeEscape_append_inj {first second : Nat} {rest other : Str}
    (same : unicodeEscape first ++ rest = unicodeEscape second ++ other) :
    first % 65536 = second % 65536 ∧ rest = other := by
  simp only [unicodeEscape, List.cons_append, List.cons.injEq, true_and] at same
  exact digits_append_inj (by decide) (by decide) same

theorem Escape.head {c : Char} {printed : Str} (escape : Escape c printed) (rest : Str) :
    ∀ other, printed ++ rest ≠ '"' :: other := by
  intro other same
  cases escape with
  | plain notQuote notBackslash =>
      simp only [List.cons_append, List.cons.injEq] at same
      exact notQuote same.1
  | short letter code isCode known => simp at same
  | unit basic => simp [unicodeEscape] at same
  | pair astral => simp [unicodeEscape] at same

theorem Escape.plain_inj {first second : Char} {printed rest other : Str}
    (escape : Escape second printed) (notBackslash : first ≠ '\\')
    (same : first :: rest = printed ++ other) : first = second ∧ rest = other := by
  cases escape with
  | plain => simpa using same
  | short letter code isCode known =>
      simp only [List.cons_append, List.cons.injEq] at same
      exact absurd same.1 notBackslash
  | unit basic =>
      simp only [unicodeEscape, List.cons_append, List.cons.injEq] at same
      exact absurd same.1 notBackslash
  | pair astral =>
      simp only [unicodeEscape, List.cons_append, List.cons.injEq] at same
      exact absurd same.1 notBackslash

theorem short_ne_unit {letter : Char} {code unit : Nat} {rest other : Str}
    (known : (letter, code) ∈
      [('"', 34), ('\\', 92), ('n', 10), ('r', 13), ('t', 9), ('f', 12), ('b', 8)]) :
    '\\' :: letter :: rest ≠ unicodeEscape unit ++ other := by
  intro same
  simp only [unicodeEscape, List.cons_append, List.cons.injEq, true_and] at same
  have notU : letter ≠ 'u' := by
    rintro rfl
    simp at known
  exact notU same.1

/-- The escapes of characters form a prefix code. -/
theorem Escape.append_inj {first second : Char} {firstPrinted secondPrinted rest other : Str}
    (firstEscape : Escape first firstPrinted) (secondEscape : Escape second secondPrinted)
    (same : firstPrinted ++ rest = secondPrinted ++ other) : first = second ∧ rest = other := by
  cases firstEscape with
  | plain notQuote notBackslash => exact secondEscape.plain_inj notBackslash same
  | short letter code isCode known =>
      cases secondEscape with
      | plain notQuote notBackslash =>
          obtain ⟨sameChar, sameRest⟩ :=
            (Escape.short letter code isCode known).plain_inj notBackslash same.symm
          exact ⟨sameChar.symm, sameRest.symm⟩
      | short otherLetter otherCode otherIsCode otherKnown =>
          simp only [List.cons_append, List.cons.injEq, true_and, List.nil_append] at same
          obtain ⟨rfl, sameRest⟩ := same
          have sameCode : code = otherCode := by
            simp only [List.mem_cons, Prod.mk.injEq, List.not_mem_nil, or_false] at known otherKnown
            rcases known with ⟨rfl, rfl⟩ | ⟨rfl, rfl⟩ | ⟨rfl, rfl⟩ | ⟨rfl, rfl⟩ | ⟨rfl, rfl⟩ |
              ⟨rfl, rfl⟩ | ⟨rfl, rfl⟩ <;> simp at otherKnown <;> exact otherKnown.symm
          exact ⟨toNat_inj (by rw [isCode, otherIsCode, sameCode]), sameRest⟩
      | unit basic => exact absurd same (short_ne_unit known)
      | pair astral =>
          rw [List.append_assoc] at same
          exact absurd same (short_ne_unit known)
  | unit basic =>
      cases secondEscape with
      | plain notQuote notBackslash =>
          obtain ⟨sameChar, sameRest⟩ := (Escape.unit basic).plain_inj notBackslash same.symm
          exact ⟨sameChar.symm, sameRest.symm⟩
      | short letter code isCode known => exact absurd same.symm (short_ne_unit known)
      | unit otherBasic =>
          obtain ⟨sameUnit, sameRest⟩ := unicodeEscape_append_inj same
          exact ⟨toNat_inj (by omega), sameRest⟩
      | pair astral =>
          rw [List.append_assoc] at same
          obtain ⟨sameUnit, _⟩ := unicodeEscape_append_inj same
          have bound := toNat_lt second
          exact absurd ⟨by omega, by omega⟩ (not_surrogate first)
  | pair astral =>
      rw [List.append_assoc] at same
      cases secondEscape with
      | plain notQuote notBackslash =>
          rw [← List.append_assoc] at same
          obtain ⟨sameChar, sameRest⟩ := (Escape.pair astral).plain_inj notBackslash same.symm
          exact ⟨sameChar.symm, sameRest.symm⟩
      | short letter code isCode known => exact absurd same.symm (short_ne_unit known)
      | unit basic =>
          obtain ⟨sameUnit, _⟩ := unicodeEscape_append_inj same
          have bound := toNat_lt first
          exact absurd ⟨by omega, by omega⟩ (not_surrogate second)
      | pair otherAstral =>
          rw [List.append_assoc] at same
          obtain ⟨sameHigh, same⟩ := unicodeEscape_append_inj same
          obtain ⟨sameLow, sameRest⟩ := unicodeEscape_append_inj same
          have firstBound := toNat_lt first
          have secondBound := toNat_lt second
          exact ⟨toNat_inj (by omega), sameRest⟩

theorem escaped_append_inj {first second : Str} {rest other : Str}
    (same : first.flatMap escapeChar ++ '"' :: rest = second.flatMap escapeChar ++ '"' :: other) :
    first = second ∧ rest = other := by
  induction first generalizing second with
  | nil =>
      cases second with
      | nil => simpa using same
      | cons c second =>
          simp only [List.flatMap_nil, List.nil_append, List.flatMap_cons, List.append_assoc]
            at same
          exact absurd same.symm ((escapeChar_escape c).head _ _)
  | cons c first inductionHypothesis =>
      cases second with
      | nil =>
          simp only [List.flatMap_nil, List.nil_append, List.flatMap_cons, List.append_assoc]
            at same
          exact absurd same ((escapeChar_escape c).head _ _)
      | cons d second =>
          simp only [List.flatMap_cons, List.append_assoc] at same
          obtain ⟨rfl, sameTail⟩ := (escapeChar_escape c).append_inj (escapeChar_escape d) same
          obtain ⟨rfl, sameRest⟩ := inductionHypothesis sameTail
          exact ⟨rfl, sameRest⟩

/-- A quoted text can be read back, and its end is known. -/
theorem quote_append_inj {first second rest other : Str}
    (same : quote first ++ rest = quote second ++ other) : first = second ∧ rest = other := by
  simp only [quote, List.cons_append, List.append_assoc, List.cons.injEq, true_and] at same
  exact escaped_append_inj same

/-! ### First characters -/

/-- What the first character of a printed value tells apart. -/
inductive Kind where
  | null
  | yes
  | no
  | number
  | text
  | list
  | object
deriving DecidableEq

def kind : Json → Kind
  | .null => .null
  | .bool value => if value then .yes else .no
  | .int _ => .number
  | .str _ => .text
  | .list _ => .list
  | .obj _ => .object

def kindOf (c : Char) : Option Kind :=
  if c = '-' ∨ c.isDigit then some .number
  else if c = 'n' then some .null
  else if c = 't' then some .yes
  else if c = 'f' then some .no
  else if c = '"' then some .text
  else if c = '[' then some .list
  else if c = '{' then some .object
  else none

theorem dumps_kind (value : Json) : ∃ c text, dumps value = c :: text ∧ kindOf c = value.kind := by
  cases value with
  | null => exact ⟨'n', "ull".toList, rfl, rfl⟩
  | bool value => cases value <;> exact ⟨_, _, rfl, rfl⟩
  | str text => exact ⟨'"', _, rfl, rfl⟩
  | list items => exact ⟨'[', _, rfl, rfl⟩
  | obj members => exact ⟨'{', _, rfl, rfl⟩
  | int value =>
      by_cases negative : value < 0
      · exact ⟨'-', decimal value.natAbs, by simp [dumps, decimalInt, negative], rfl⟩
      · obtain ⟨digit, digits, shape, isDigit⟩ := decimal_cons value.natAbs
        exact ⟨digit, digits, by simp [dumps, decimalInt, negative, shape],
          by simp [kindOf, isDigit, kind]⟩

theorem kindOf_dumps {value : Json} {c : Char} {rest other : Str}
    (same : dumps value ++ rest = c :: other) : kindOf c = value.kind := by
  obtain ⟨first, text, shape, isKind⟩ := dumps_kind value
  rw [shape] at same
  rwa [← (List.cons.inj same).1]

end Json

end Fristenwaechter
