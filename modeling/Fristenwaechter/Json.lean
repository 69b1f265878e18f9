import Fristenwaechter.Text

/-!
Owns JSON values and `json.dumps(value, sort_keys=True, separators=(",", ":"))`
with Python's default `ensure_ascii=True`: printable ASCII stands for itself,
quotes and backslashes are escaped, the five short control escapes are used, and
everything else is written as UTF-16 `\uXXXX` units.
-/

namespace Fristenwaechter

/-- A JSON value; an object is its list of members. -/
inductive Json where
  | null
  | bool (value : Bool)
  | int (value : Int)
  | str (value : Str)
  | list (items : List Json)
  | obj (members : List (Str × Json))

namespace Json

/-- One `\uXXXX` unit. -/
def unicodeEscape (unit : Nat) : Str :=
  '\\' :: 'u' :: digits 16 4 unit

/-- The replacement of one character by `json.encoder.ESCAPE_ASCII`. -/
def escapeChar (c : Char) : Str :=
  if c = '"' then ['\\', '"']
  else if c = '\\' then ['\\', '\\']
  else if c = '\n' then ['\\', 'n']
  else if c = '\r' then ['\\', 'r']
  else if c = '\t' then ['\\', 't']
  else if c.toNat = 12 then ['\\', 'f']
  else if c.toNat = 8 then ['\\', 'b']
  else if 32 ≤ c.toNat ∧ c.toNat ≤ 126 then [c]
  else if c.toNat < 65536 then unicodeEscape c.toNat
  else
    unicodeEscape (0xD800 + (c.toNat - 65536) / 1024) ++
      unicodeEscape (0xDC00 + (c.toNat - 65536) % 1024)

/-- A quoted JSON string. -/
def quote (text : Str) : Str :=
  '"' :: (text.flatMap escapeChar ++ ['"'])

def joinComma : List Str → Str
  | [] => []
  | [part] => part
  | part :: rest => part ++ ',' :: joinComma rest

/-- Printed members in the order of `sort_keys`. -/
def sortMembers (members : List (Str × Str)) : List (Str × Str) :=
  members.insertionSort fun first second => strLe first.1 second.1

mutual

/-- `json.dumps(value, sort_keys=True, separators=(",", ":"))`. -/
def dumps : Json → Str
  | null => "null".toList
  | bool true => "true".toList
  | bool false => "false".toList
  | int value => decimalInt value
  | str value => quote value
  | list items => '[' :: (joinComma (dumpsItems items) ++ [']'])
  | obj members =>
      '{' :: (joinComma ((sortMembers (dumpsMembers members)).map fun member =>
        quote member.1 ++ ':' :: member.2) ++ ['}'])

def dumpsItems : List Json → List Str
  | [] => []
  | item :: rest => dumps item :: dumpsItems rest

/-- The members of an object, each with its printed value. -/
def dumpsMembers : List (Str × Json) → List (Str × Str)
  | [] => []
  | (name, value) :: rest => (name, dumps value) :: dumpsMembers rest

end

/-- The value of a member (`params[name]`). -/
def member (name : Str) (members : List (Str × Json)) : Option Json :=
  (members.find? fun entry => entry.1 = name).map Prod.snd

/-- `params[name] = value`. -/
def setMember (name : Str) (value : Json) : List (Str × Json) → List (Str × Json)
  | [] => [(name, value)]
  | entry :: rest =>
      if entry.1 = name then (name, value) :: rest else entry :: setMember name value rest

/-- `params[name].astext = text` for a string member. -/
def memberIs (name text : Str) (members : List (Str × Json)) : Bool :=
  match member name members with
  | some (str value) => value = text
  | _ => false

theorem member_setMember (name : Str) (value : Json) (members : List (Str × Json)) :
    member name (setMember name value members) = some value := by
  induction members with
  | nil => simp [member, setMember]
  | cons entry rest inductionHypothesis =>
      unfold setMember
      split
      · simp [member]
      · rename_i different
        simpa [member, different] using inductionHypothesis

theorem memberIs_setMember (name text : Str) (members : List (Str × Json)) :
    memberIs name text (setMember name (str text) members) = true := by
  simp [memberIs, member_setMember]

theorem memberIs_singleton {name text value : Str} :
    memberIs name text [(name, str value)] = true ↔ value = text := by
  simp [memberIs, member]

example : dumps (obj [("b".toList, int 2), ("a".toList, list [null, str "x\"ü".toList])]) =
    "\x7b\"a\":[null,\"x\\\"\\u00fc\"],\"b\":2\x7d".toList := by
  decide

end Json

end Fristenwaechter
