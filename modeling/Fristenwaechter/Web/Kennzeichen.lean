import Fristenwaechter.Text
import Fristenwaechter.Library.Regex

/-!
Owns `app/web/kennzeichen.py`: the normalization and validation of licence plates.
`str.upper` is applied character by character through a parameter.
-/

namespace Fristenwaechter

open Library (Pattern)

/-- `re.sub(r"\s+", " ", text)`, behind a blank already written or not. -/
def collapseFrom : (written : Bool) → Str → Str
  | _, [] => []
  | written, c :: rest =>
      if isSpace c then
        if written then collapseFrom true rest else ' ' :: collapseFrom true rest
      else c :: collapseFrom false rest

/-- `re.sub(r"\s+", " ", text)`. -/
def collapse (text : Str) : Str :=
  collapseFrom false text

/-- `$` without `re.MULTILINE`: the end, or a final line break before it. -/
def atEnd (tail : Str) : Bool :=
  tail = [] ∨ tail = ['\n']

/-- `[A-Z]`. -/
def isLatin (c : Char) : Bool :=
  'A' ≤ c ∧ c ≤ 'Z'

/-- `[A-ZÄÖÜ]`. -/
def isDistrict (c : Char) : Bool :=
  isLatin c ∨ c ∈ ['Ä', 'Ö', 'Ü']

/-- `\d` for a `str`: the decimal digits of every script. -/
def isDecimal (c : Char) : Bool :=
  (decimalValue c).isSome

/-- `[EH]`. -/
def isSuffix (c : Char) : Bool :=
  c ∈ ['E', 'H']

/-- `_PATTERN`. The pattern inside `normalize_kennzeichen` only adds its groups: the
first three pieces and the last two. -/
def platePattern : Pattern Char :=
  [⟨isDistrict, 1, 3⟩, ⟨fun c => c = '-', 1, 1⟩, ⟨isLatin, 1, 2⟩, ⟨isSpace, 0, 1⟩,
    ⟨isDecimal, 1, 4⟩, ⟨isSuffix, 0, 1⟩]

variable (upper : Char → Str)

/-- `re.sub(r"\s+", " ", raw.strip().upper())`. -/
def collapsed (raw : Str) : Str :=
  collapse ((strip raw).flatMap upper)

def normalizeKennzeichen (raw : Str) : Str :=
  match platePattern.run atEnd (collapsed upper raw) with
  | some [district, hyphen, letters, _, number, suffix] =>
      district ++ hyphen ++ letters ++ ' ' :: (number ++ suffix)
  | _ => collapsed upper raw

/-- `none` where it raises `InvalidKennzeichen`. -/
def validateKennzeichen (raw : Str) : Option Str :=
  if (platePattern.run atEnd (normalizeKennzeichen upper raw)).isSome then
    some (normalizeKennzeichen upper raw)
  else none

/-- `str.upper` on the letters of German. -/
def germanUpper (c : Char) : Str :=
  if 'a' ≤ c ∧ c ≤ 'z' then [Char.ofNat (c.toNat - 32)]
  else if c = 'ä' then ['Ä']
  else if c = 'ö' then ['Ö']
  else if c = 'ü' then ['Ü']
  else if c = 'ß' then ['S', 'S']
  else [c]

example : validateKennzeichen germanUpper " b-ab1234 ".toList = some "B-AB 1234".toList := by
  decide +kernel

end Fristenwaechter
