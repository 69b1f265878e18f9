import Mathlib.Data.List.Infix

/-!
Owns markup as a reader of it sees it: text, and tags with their attributes, quotes
inside a tag protecting its end. A `Document` is a template with strings shown between
its literals. Its strings stay text exactly when none of them opens markup, and then the
tags are those of the template whatever the strings are.
-/

namespace Fristenwaechter.Library.Markup

/-- What a document is read as. -/
inductive Token where
  | text (content : List Char)
  | tag (source : List Char)
deriving DecidableEq

/-- Where the reader stands; `less` is behind a `<` that the next character decides. -/
inductive Mode where
  | text
  | less
  | tag
  | quoted (quote : Char)
deriving DecidableEq

/-- A `<` before this character opens a tag, an end tag, a comment or a declaration. -/
def opensBehind (c : Char) : Bool :=
  c.isAlpha || c = '/' || c = '!' || c = '?'

/-- The mode behind one more character. -/
def Mode.step : Mode → Char → Mode
  | text, c => if c = '<' then less else text
  | less, c => if opensBehind c then tag else if c = '<' then less else text
  | tag, c => if c = '>' then text else if c = '"' ∨ c = '\'' then quoted c else tag
  | quoted quote, c => if c = quote then tag else quoted quote

/-- The tokens read so far, and what has been read of the current one. -/
structure Reader where
  tokens : List Token
  run : List Char
  mode : Mode

/-- A text token, unless there is nothing to tell. -/
def textToken (content : List Char) : List Token :=
  if content = [] then [] else [.text content]

/-- The tags among the tokens, with their attributes. -/
def tags (tokens : List Token) : List (List Char) :=
  tokens.filterMap fun token =>
    match token with
    | .text _ => none
    | .tag source => some source

theorem tags_append (first second : List Token) :
    tags (first ++ second) = tags first ++ tags second :=
  List.filterMap_append

theorem tags_textToken (tokens : List Token) (content : List Char) :
    tags (tokens ++ textToken content) = tags tokens := by
  rw [tags_append, textToken]
  split <;> simp [tags]

namespace Reader

def start : Reader :=
  ⟨[], [], .text⟩

def step (reader : Reader) (c : Char) : Reader :=
  match reader.mode with
  | .text => ⟨reader.tokens, reader.run ++ [c], Mode.text.step c⟩
  | .less =>
      if opensBehind c then ⟨reader.tokens ++ textToken reader.run.dropLast, ['<', c], .tag⟩
      else ⟨reader.tokens, reader.run ++ [c], Mode.text.step c⟩
  | .tag =>
      if c = '>' then ⟨reader.tokens ++ [.tag (reader.run ++ [c])], [], .text⟩
      else ⟨reader.tokens, reader.run ++ [c], Mode.tag.step c⟩
  | .quoted quote => ⟨reader.tokens, reader.run ++ [c], (Mode.quoted quote).step c⟩

def read (reader : Reader) (text : List Char) : Reader :=
  text.foldl step reader

/-- Take a string into the current token as it is. -/
def insert (reader : Reader) (shown : List Char) : Reader :=
  { reader with run := reader.run ++ shown }

/-- The tokens at the end of the document. -/
def finish (reader : Reader) : List Token :=
  match reader.mode with
  | .text | .less => reader.tokens ++ textToken reader.run
  | .tag | .quoted _ => reader.tokens ++ [.tag reader.run]

@[simp] theorem insert_mode (reader : Reader) (shown : List Char) :
    (reader.insert shown).mode = reader.mode :=
  rfl

theorem read_append (reader : Reader) (first second : List Char) :
    reader.read (first ++ second) = (reader.read first).read second :=
  List.foldl_append

@[simp] theorem read_cons (reader : Reader) (c : Char) (rest : List Char) :
    reader.read (c :: rest) = (reader.step c).read rest :=
  rfl

theorem step_text {reader : Reader} {c : Char} (inText : reader.mode = .text) :
    reader.step c = ⟨reader.tokens, reader.run ++ [c], Mode.text.step c⟩ := by
  rw [step, inText]

/-- Behind a `<`, a character that opens nothing joins the text. -/
theorem step_less {reader : Reader} {c : Char} (behind : reader.mode = .less)
    (harmless : opensBehind c = false) :
    reader.step c = ⟨reader.tokens, reader.run ++ [c], Mode.text.step c⟩ := by
  rw [step, behind]
  simp [harmless]

theorem step_open {reader : Reader} {c : Char} (behind : reader.mode = .less)
    (opens : opensBehind c = true) :
    reader.step c = ⟨reader.tokens ++ textToken reader.run.dropLast, ['<', c], .tag⟩ := by
  rw [step, behind]
  simp [opens]

@[simp] theorem step_mode (reader : Reader) (c : Char) :
    (reader.step c).mode = reader.mode.step c := by
  cases mode : reader.mode with
  | text => rw [step_text mode]
  | less =>
      cases opens : opensBehind c with
      | true =>
          rw [step_open mode opens]
          simp [Mode.step, opens]
      | false =>
          rw [step_less mode opens]
          simp [Mode.step, opens]
  | tag =>
      rw [step, mode]
      by_cases closes : c = '>' <;> simp [Mode.step, closes]
  | quoted quote => rw [step, mode]

theorem read_mode (reader : Reader) (text : List Char) :
    (reader.read text).mode = text.foldl Mode.step reader.mode := by
  induction text generalizing reader with
  | nil => rfl
  | cons c rest inductionHypothesis =>
      rw [read_cons, inductionHypothesis, step_mode, List.foldl_cons]

end Reader

/-! ### Strings that open markup -/

/-- Somewhere in the string a `<` opens markup. -/
def Opens (text : List Char) : Prop :=
  ∃ front c rest, text = front ++ '<' :: c :: rest ∧ opensBehind c = true

theorem Opens.within {part whole : List Char} (inside : part <:+: whole) (opens : Opens part) :
    Opens whole := by
  obtain ⟨before, behind, rfl⟩ := inside
  obtain ⟨front, c, rest, rfl, opensMarkup⟩ := opens
  exact ⟨before ++ front, c, rest ++ behind, by simp, opensMarkup⟩

/-- A character behind a text without markup opens some only behind a `<`. -/
theorem opens_concat {text : List Char} {c : Char} (opens : Opens (text ++ [c])) :
    Opens text ∨ ((∃ front, text = front ++ ['<']) ∧ opensBehind c = true) := by
  obtain ⟨front, d, rest, split, opensMarkup⟩ := opens
  obtain rfl | ⟨others, last, rfl⟩ := List.eq_nil_or_concat' rest
  · rw [show front ++ ['<', d] = (front ++ ['<']) ++ [d] by simp] at split
    obtain ⟨textEq, same⟩ := List.append_inj' split rfl
    obtain rfl := List.singleton_inj.mp same
    exact .inr ⟨⟨front, textEq⟩, opensMarkup⟩
  · rw [show front ++ '<' :: d :: (others ++ [last]) =
      (front ++ '<' :: d :: others) ++ [last] by simp] at split
    exact .inl ⟨front, d, others, (List.append_inj' split rfl).1, opensMarkup⟩

namespace Reader

/-! ### Strings in text -/

/-- A string that opens no markup is read as text, up to a `<` at its end that is not
decided yet. -/
theorem read_shown {reader : Reader} {shown : List Char}
    (placed : (reader.mode = .text ∧ ¬ Opens shown) ∨
      (reader.mode = .less ∧ ¬ Opens ('<' :: shown))) :
    (reader.read shown).tokens = reader.tokens ∧ (reader.read shown).run = reader.run ++ shown ∧
      ((reader.read shown).mode = .text ∨ (reader.read shown).mode = .less) := by
  induction shown generalizing reader with
  | nil =>
      refine ⟨rfl, (List.append_nil _).symm, ?_⟩
      exact placed.imp And.left And.left
  | cons c rest inductionHypothesis =>
      have stepped : reader.step c = ⟨reader.tokens, reader.run ++ [c], Mode.text.step c⟩ := by
        obtain ⟨inText, -⟩ | ⟨behind, closed⟩ := placed
        · exact step_text inText
        · refine step_less behind (Bool.eq_false_iff.mpr fun opens => closed ?_)
          exact ⟨[], c, rest, rfl, opens⟩
      have closed : ¬ Opens (c :: rest) := by
        obtain ⟨-, closed⟩ | ⟨-, closed⟩ := placed
        · exact closed
        · exact fun opens => closed (opens.within (List.suffix_cons '<' _).isInfix)
      have continued := @inductionHypothesis (reader.step c) (by
        rw [stepped]
        by_cases less : c = '<'
        · exact .inr ⟨by simp [Mode.step, less], less ▸ closed⟩
        · exact .inl ⟨by simp [Mode.step, less],
            fun opens => closed (opens.within (List.suffix_cons c _).isInfix)⟩)
      rw [read_cons]
      refine ⟨by rw [continued.1, stepped], ?_, continued.2.2⟩
      rw [continued.2.1, stepped]
      simp

/-- Before a character that opens nothing, such a string might as well have been taken
into the text as it is. -/
theorem step_read_shown {reader : Reader} {shown : List Char} {c : Char}
    (inText : reader.mode = .text) (closed : ¬ Opens shown) (harmless : opensBehind c = false) :
    (reader.read shown).step c = (reader.insert shown).step c := by
  obtain ⟨tokens, run, mode⟩ := read_shown (.inl ⟨inText, closed⟩)
  rw [step_text (show (reader.insert shown).mode = .text from inText)]
  obtain mode | mode := mode
  · rw [step_text mode, tokens, run]
    rfl
  · rw [step_less mode harmless, tokens, run]
    rfl

/-! ### Text tokens open no markup -/

/-- No text that has been read opens markup, nor does the current run as far as it is
text. -/
structure Calm (reader : Reader) : Prop where
  tokens : ∀ content, .text content ∈ reader.tokens → ¬ Opens content
  text : reader.mode = .text → ¬ Opens reader.run ∧ ∀ front, reader.run ≠ front ++ ['<']
  less : reader.mode = .less → ¬ Opens reader.run

theorem not_opens_nil : ¬ Opens [] := by
  rintro ⟨front, c, rest, split, -⟩
  simp at split

theorem mem_textToken {content run : List Char} (member : .text content ∈ textToken run) :
    content = run := by
  unfold textToken at member
  split at member
  · cases member
  · exact Token.text.inj (List.mem_singleton.mp member)

theorem Calm.start : Calm start :=
  ⟨by simp [Reader.start], fun _ => ⟨not_opens_nil, by simp [Reader.start]⟩,
    fun mode => by cases mode⟩

theorem Calm.step {reader : Reader} (calm : reader.Calm) (c : Char) : (reader.step c).Calm := by
  -- a run of text that goes on
  have goesOn : ∀ {mode : Mode}, (¬ Opens (reader.run ++ [c])) → mode = Mode.text.step c →
      Calm ⟨reader.tokens, reader.run ++ [c], mode⟩ := by
    rintro mode closed rfl
    refine ⟨calm.tokens, fun inText => ⟨closed, fun front same => ?_⟩, fun _ => closed⟩
    obtain ⟨-, last⟩ := List.append_inj' same rfl
    obtain rfl := List.singleton_inj.mp last
    cases inText
  cases mode : reader.mode with
  | text =>
      rw [step_text mode]
      refine goesOn (fun opens => ?_) rfl
      obtain opens | ⟨⟨front, ends⟩, -⟩ := opens_concat opens
      · exact (calm.text mode).1 opens
      · exact (calm.text mode).2 front ends
  | less =>
      cases opens : opensBehind c with
      | true =>
          rw [step_open mode opens]
          refine ⟨fun content member => ?_, fun inText => absurd inText (by simp),
            fun behind => absurd behind (by simp)⟩
          obtain old | new := List.mem_append.mp member
          · exact calm.tokens content old
          · rw [mem_textToken new]
            exact fun opened => calm.less mode (opened.within (List.dropLast_prefix _).isInfix)
      | false =>
          rw [step_less mode opens]
          refine goesOn (fun opened => ?_) rfl
          obtain opened | ⟨-, opening⟩ := opens_concat opened
          · exact calm.less mode opened
          · rw [opens] at opening
            cases opening
  | tag =>
      rw [Reader.step, mode]
      by_cases closes : c = '>'
      · refine ⟨fun content member => ?_, fun _ => ?_, fun behind => ?_⟩
        · simp only [if_pos closes, List.mem_append, List.mem_singleton, reduceCtorEq,
            or_false] at member
          exact calm.tokens content member
        · simp [if_pos closes, not_opens_nil]
        · simp [if_pos closes] at behind
      · refine ⟨fun content member => ?_, fun inText => ?_, fun behind => ?_⟩
        · simp only [if_neg closes] at member
          exact calm.tokens content member
        · simp only [if_neg closes, Mode.step] at inText
          split at inText <;> cases inText
        · simp only [if_neg closes, Mode.step] at behind
          split at behind <;> cases behind
  | quoted quote =>
      rw [Reader.step, mode]
      refine ⟨calm.tokens, fun inText => ?_, fun behind => ?_⟩
      · simp only [Mode.step] at inText
        split at inText <;> cases inText
      · simp only [Mode.step] at behind
        split at behind <;> cases behind

theorem Calm.read {reader : Reader} (calm : reader.Calm) (text : List Char) :
    (reader.read text).Calm := by
  induction text generalizing reader with
  | nil => exact calm
  | cons c rest inductionHypothesis => exact inductionHypothesis (calm.step c)

theorem Calm.finish {reader : Reader} (calm : reader.Calm) {content : List Char}
    (member : .text content ∈ reader.finish) : ¬ Opens content := by
  have shown : .text content ∈ reader.tokens ∨
      (content = reader.run ∧ (reader.mode = .text ∨ reader.mode = .less)) := by
    unfold Reader.finish at member
    split at member <;> obtain old | new := List.mem_append.mp member
    · exact .inl old
    · exact .inr ⟨mem_textToken new, .inl ‹_›⟩
    · exact .inl old
    · exact .inr ⟨mem_textToken new, .inr ‹_›⟩
    · exact .inl old
    · cases List.mem_singleton.mp new
    · exact .inl old
    · cases List.mem_singleton.mp new
  obtain old | ⟨rfl, inText | behind⟩ := shown
  · exact calm.tokens content old
  · exact (calm.text inText).1
  · exact calm.less behind

/-! ### Strings stay where they were taken -/

/-- The string is part of a text token or of the text that is being read. -/
def Holds (reader : Reader) (shown : List Char) : Prop :=
  (∃ content, .text content ∈ reader.tokens ∧ shown <:+: content) ∨
    (reader.mode = .text ∧ shown <:+: reader.run) ∨
    (reader.mode = .less ∧ shown <:+: reader.run.dropLast)

theorem Holds.of_text {tokens : List Token} {run shown : List Char} {c : Char}
    (inside : shown <:+: run) : Holds ⟨tokens, run ++ [c], Mode.text.step c⟩ shown := by
  by_cases less : c = '<'
  · exact .inr (.inr ⟨by simp [Mode.step, less], by simpa using inside⟩)
  · exact .inr (.inl ⟨by simp [Mode.step, less],
      inside.trans (List.prefix_append run [c]).isInfix⟩)

theorem Holds.step {reader : Reader} {shown : List Char} (nonempty : shown ≠ [])
    (holds : reader.Holds shown) (c : Char) : (reader.step c).Holds shown := by
  obtain ⟨content, member, inside⟩ | ⟨inText, inside⟩ | ⟨behind, inside⟩ := holds
  · refine .inl ⟨content, ?_, inside⟩
    unfold Reader.step
    split
    · exact member
    · split
      · exact List.mem_append_left _ member
      · exact member
    · split
      · exact List.mem_append_left _ member
      · exact member
    · exact member
  · rw [step_text inText]
    exact .of_text inside
  · cases opens : opensBehind c with
    | true =>
        rw [step_open behind opens]
        have present : reader.run.dropLast ≠ [] := fun nothing =>
          nonempty (List.infix_nil.mp (nothing ▸ inside))
        exact .inl ⟨_, List.mem_append_right _ (by simp [textToken, present]), inside⟩
    | false =>
        rw [step_less behind opens]
        exact .of_text (inside.trans (List.dropLast_prefix _).isInfix)

theorem Holds.read {reader : Reader} {shown : List Char} (nonempty : shown ≠ [])
    (holds : reader.Holds shown) (text : List Char) : (reader.read text).Holds shown := by
  induction text generalizing reader with
  | nil => exact holds
  | cons c rest inductionHypothesis => exact inductionHypothesis (holds.step nonempty c)

theorem Holds.insert {reader : Reader} {shown : List Char} (holds : reader.Holds shown)
    (inText : reader.mode = .text) (other : List Char) : (reader.insert other).Holds shown := by
  obtain old | ⟨-, inside⟩ | ⟨behind, -⟩ := holds
  · exact .inl old
  · exact .inr (.inl ⟨inText, inside.trans (List.prefix_append _ _).isInfix⟩)
  · rw [inText] at behind
    cases behind

theorem Holds.finish {reader : Reader} {shown : List Char} (nonempty : shown ≠ [])
    (holds : reader.Holds shown) :
    ∃ content, .text content ∈ reader.finish ∧ shown <:+: content := by
  have atEnd : reader.mode = .text ∨ reader.mode = .less → shown <:+: reader.run →
      ∃ content, .text content ∈ reader.finish ∧ shown <:+: content := by
    intro mode inside
    have present : reader.run ≠ [] := fun nothing =>
      nonempty (List.infix_nil.mp (nothing ▸ inside))
    refine ⟨reader.run, ?_, inside⟩
    obtain mode | mode := mode <;> simp [Reader.finish, mode, textToken, present]
  obtain ⟨content, member, inside⟩ | ⟨inText, inside⟩ | ⟨behind, inside⟩ := holds
  · refine ⟨content, ?_, inside⟩
    unfold Reader.finish
    split <;> exact List.mem_append_left _ member
  · exact atEnd (.inl inText) inside
  · exact atEnd (.inr behind) (inside.trans (List.dropLast_prefix _).isInfix)

/-! ### Tags -/

/-- Two readers that have seen the same tags and stand alike. -/
structure Alike (first second : Reader) : Prop where
  sameMode : first.mode = second.mode
  sameTags : tags first.tokens = tags second.tokens
  sameRun : first.mode ≠ .text → first.mode ≠ .less → first.run = second.run

theorem Alike.refl (reader : Reader) : Alike reader reader :=
  ⟨rfl, rfl, fun _ _ => rfl⟩

theorem Alike.step {first second : Reader} (alike : Alike first second) (c : Char) :
    Alike (first.step c) (second.step c) := by
  cases mode : first.mode with
  | text =>
      rw [step_text mode, step_text (alike.sameMode.symm.trans mode)]
      refine ⟨rfl, alike.sameTags, fun notText notLess => ?_⟩
      by_cases less : c = '<'
      · exact absurd (by simp [Mode.step, less]) notLess
      · exact absurd (by simp [Mode.step, less]) notText
  | less =>
      have secondMode := alike.sameMode.symm.trans mode
      cases opens : opensBehind c with
      | true =>
          rw [step_open mode opens, step_open secondMode opens]
          exact ⟨rfl, by rw [tags_textToken, tags_textToken, alike.sameTags], fun _ _ => rfl⟩
      | false =>
          rw [step_less mode opens, step_less secondMode opens]
          refine ⟨rfl, alike.sameTags, fun notText notLess => ?_⟩
          by_cases less : c = '<'
          · exact absurd (by simp [Mode.step, less]) notLess
          · exact absurd (by simp [Mode.step, less]) notText
  | tag =>
      have secondMode := alike.sameMode.symm.trans mode
      have run := alike.sameRun (by simp [mode]) (by simp [mode])
      rw [Reader.step, Reader.step, mode, secondMode, run]
      by_cases closes : c = '>'
      · simp only [if_pos closes]
        exact ⟨rfl, by rw [tags_append, tags_append, alike.sameTags], fun _ _ => rfl⟩
      · simp only [if_neg closes]
        exact ⟨rfl, alike.sameTags, fun _ _ => rfl⟩
  | quoted quote =>
      have run := alike.sameRun (by simp [mode]) (by simp [mode])
      rw [Reader.step, Reader.step, mode, alike.sameMode.symm.trans mode, run]
      exact ⟨rfl, alike.sameTags, fun _ _ => rfl⟩

theorem Alike.read {first second : Reader} (alike : Alike first second) (text : List Char) :
    Alike (first.read text) (second.read text) := by
  induction text generalizing first second with
  | nil => exact alike
  | cons c rest inductionHypothesis => exact inductionHypothesis (alike.step c)

theorem Alike.insert {first second : Reader} (alike : Alike first second)
    (inText : first.mode = .text) (shown other : List Char) :
    Alike (first.insert shown) (second.insert other) :=
  ⟨alike.sameMode, alike.sameTags, fun notText => absurd inText notText⟩

theorem Alike.finish {first second : Reader} (alike : Alike first second) :
    tags first.finish = tags second.finish := by
  cases mode : first.mode with
  | text =>
      simp only [Reader.finish, mode, alike.sameMode.symm.trans mode, tags_textToken,
        alike.sameTags]
  | less =>
      simp only [Reader.finish, mode, alike.sameMode.symm.trans mode, tags_textToken,
        alike.sameTags]
  | tag =>
      simp only [Reader.finish, mode, alike.sameMode.symm.trans mode, tags_append, alike.sameTags,
        alike.sameRun (by simp [mode]) (by simp [mode])]
  | quoted quote =>
      simp only [Reader.finish, mode, alike.sameMode.symm.trans mode, tags_append, alike.sameTags,
        alike.sameRun (by simp [mode]) (by simp [mode])]

end Reader

/-! ### Documents -/

def readMarkup (text : List Char) : List Token :=
  (Reader.start.read text).finish

/-- A template: its first literal, and the strings shown with the literal behind each. -/
structure Document where
  lead : List Char
  parts : List (List Char × List Char)

namespace Document

def text (document : Document) : List Char :=
  document.lead ++ document.parts.flatMap fun part => part.1 ++ part.2

def tokens (document : Document) : List Token :=
  readMarkup document.text

/-- What it is meant to be read as: the strings are taken as they are. -/
def intended (document : Document) : List Token :=
  (document.parts.foldl (fun reader part => (reader.insert part.1).read part.2)
    (Reader.start.read document.lead)).finish

def shown (document : Document) : List (List Char) :=
  document.parts.map Prod.fst

def literals (document : Document) : List (List Char) :=
  document.lead :: document.parts.map Prod.snd

/-- Every string stands in text, before a character that opens no markup. -/
def PlacedFrom : Mode → List (List Char × List Char) → Prop
  | _, [] => True
  | mode, part :: rest =>
      mode = .text ∧ (∃ c, part.2.head? = some c ∧ opensBehind c = false) ∧
        PlacedFrom (part.2.foldl Mode.step .text) rest

/-- Every string of the document stands in text. -/
def Placed (document : Document) : Prop :=
  PlacedFrom (document.lead.foldl Mode.step .text) document.parts

theorem read_parts {reader : Reader} {parts : List (List Char × List Char)}
    (placed : PlacedFrom reader.mode parts) (closed : ∀ part ∈ parts, ¬ Opens part.1) :
    reader.read (parts.flatMap fun part => part.1 ++ part.2) =
      parts.foldl (fun reader part => (reader.insert part.1).read part.2) reader := by
  induction parts generalizing reader with
  | nil => rfl
  | cons part rest inductionHypothesis =>
      obtain ⟨inText, ⟨c, begins, harmless⟩, placedRest⟩ := placed
      obtain ⟨more, literal⟩ := List.head?_eq_some_iff.mp begins
      have joined : (reader.read part.1).read part.2 = (reader.insert part.1).read part.2 := by
        rw [literal, Reader.read_cons, Reader.read_cons,
          Reader.step_read_shown inText (closed part List.mem_cons_self) harmless]
      have mode : ((reader.insert part.1).read part.2).mode = part.2.foldl Mode.step .text := by
        rw [Reader.read_mode, Reader.insert_mode, inText]
      rw [List.flatMap_cons, List.foldl_cons, Reader.read_append, Reader.read_append, joined]
      exact inductionHypothesis (mode ▸ placedRest) fun other member =>
        closed other (List.mem_cons_of_mem part member)

theorem holds_parts {reader : Reader} {parts : List (List Char × List Char)}
    {string : List Char} (nonempty : string ≠ []) (placed : PlacedFrom reader.mode parts)
    (shown : reader.Holds string ∨ ∃ part ∈ parts, part.1 = string) :
    (parts.foldl (fun reader part => (reader.insert part.1).read part.2) reader).Holds string := by
  induction parts generalizing reader with
  | nil =>
      obtain holds | ⟨part, member, -⟩ := shown
      · exact holds
      · cases member
  | cons part rest inductionHypothesis =>
      obtain ⟨inText, -, placedRest⟩ := placed
      have mode : ((reader.insert part.1).read part.2).mode = part.2.foldl Mode.step .text := by
        rw [Reader.read_mode, Reader.insert_mode, inText]
      refine inductionHypothesis (mode ▸ placedRest) ?_
      obtain holds | ⟨other, member, same⟩ := shown
      · exact .inl ((holds.insert inText part.1).read nonempty part.2)
      · obtain rfl | later := List.mem_cons.mp member
        · have inserted : (reader.insert other.1).Holds string :=
            .inr (.inl ⟨inText, same ▸ (List.suffix_append reader.run other.1).isInfix⟩)
          exact .inl (inserted.read nonempty other.2)
        · exact .inr ⟨other, later, same⟩

/-- A document is read as it is meant exactly when none of its strings opens markup. -/
theorem tokens_eq_intended_iff {document : Document} (placed : document.Placed) :
    document.tokens = document.intended ↔ ∀ string ∈ document.shown, ¬ Opens string := by
  have placed : PlacedFrom (Reader.start.read document.lead).mode document.parts := by
    rw [Reader.read_mode]
    exact placed
  constructor
  · intro same string member opens
    obtain ⟨part, inParts, rfl⟩ := List.mem_map.mp member
    have nonempty : part.1 ≠ [] := by
      rintro nothing
      exact Reader.not_opens_nil (nothing ▸ opens)
    obtain ⟨content, inTokens, inside⟩ :=
      (holds_parts nonempty placed (.inr ⟨part, inParts, rfl⟩)).finish nonempty
    change .text content ∈ document.intended at inTokens
    rw [← same] at inTokens
    exact (Reader.Calm.start.read document.text).finish inTokens (opens.within inside)
  · intro closed
    rw [tokens, readMarkup, intended, text, Reader.read_append,
      read_parts placed fun part member => closed part.1 (List.mem_map_of_mem member)]

/-- The intended tags depend on the template alone. -/
theorem intended_tags {first second : Document} (placed : first.Placed)
    (same : first.literals = second.literals) :
    tags first.intended = tags second.intended := by
  have parts : ∀ {reader other : Reader} {firstParts secondParts : List (List Char × List Char)},
      Reader.Alike reader other → PlacedFrom reader.mode firstParts →
        firstParts.map Prod.snd = secondParts.map Prod.snd →
          Reader.Alike
            (firstParts.foldl (fun reader part => (reader.insert part.1).read part.2) reader)
            (secondParts.foldl (fun reader part => (reader.insert part.1).read part.2) other) := by
    intro reader other firstParts secondParts alike placed same
    induction firstParts generalizing reader other secondParts with
    | nil =>
        cases secondParts with
        | nil => exact alike
        | cons part rest => cases same
    | cons part rest inductionHypothesis =>
        cases secondParts with
        | nil => cases same
        | cons otherPart otherRest =>
            obtain ⟨literal, others⟩ := List.cons.inj same
            obtain ⟨inText, -, placedRest⟩ := placed
            have mode : ((reader.insert part.1).read part.2).mode =
                part.2.foldl Mode.step .text := by
              rw [Reader.read_mode, Reader.insert_mode, inText]
            have stepped := (alike.insert inText part.1 otherPart.1).read part.2
            rw [List.foldl_cons, List.foldl_cons, ← literal]
            exact inductionHypothesis stepped (mode ▸ placedRest) others
  obtain ⟨lead, rest⟩ := List.cons.inj same
  refine (parts (.refl _) ?_ rest).finish.trans ?_
  · rw [Reader.read_mode]
    exact placed
  · rw [intended, lead]

end Document

end Fristenwaechter.Library.Markup
