import Fristenwaechter.Notifications.Remaining

/-!
Owns what a name can do to the markup of an email. The renderers insert strings as they
are, so a string that opens markup becomes markup; strings that open none leave the tags
of the template as they are.
-/

namespace Fristenwaechter

open Library.Markup (Document Mode Opens readMarkup tags)

variable (repr : Json → Str) (baseUrl : Str)

/-- The html part of an email as template and strings. -/
def emailDocument (template : Str) (payload : Payload) : Option Document :=
  let name := g repr payload "driver_name" dash
  let deadline := g repr payload "deadline" dash
  let link := link repr payload baseUrl
  if template = "fsk_failed_critical".toList then some (fskFailedHtml name deadline link)
  else if template = "escalation_nag".toList then some (escalationNagHtml name deadline link)
  else if template = "escalation_breached".toList then some (escalationBreachedHtml name link)
  else if template = "deadline_reminder".toList then
    some (deadlineReminderHtml (g repr payload "kind_label" (g repr payload "kind" dash))
      (g repr payload "subject_name" dash) (g repr payload "due_date" dash) link
      (wording repr (payload.lookup "notch".toList)))
  else none

/-- The fields of the payload that the html shows. -/
def shownFields (template : Str) (payload : Payload) : List Str :=
  let name := g repr payload "driver_name" dash
  let deadline := g repr payload "deadline" dash
  if template = "fsk_failed_critical".toList then [name, deadline]
  else if template = "escalation_nag".toList then [name, deadline]
  else if template = "escalation_breached".toList then [name]
  else [g repr payload "kind_label" (g repr payload "kind" dash),
    g repr payload "subject_name" dash, g repr payload "due_date" dash]

/-- The payload keys that carry strings. -/
def textKeys : List String :=
  ["driver_name", "subject_name", "deadline", "due_date", "kind", "kind_label"]

/-- Two payloads that differ in their strings only, and in the notch within its class. -/
structure SameShape (template : Str) (first second : Payload) : Prop where
  others : ∀ key, key ∉ textKeys → key ≠ "notch" →
    first.lookup key.toList = second.lookup key.toList
  notch : template = "deadline_reminder".toList → ∃ m n : Int,
    first.lookup "notch".toList = some (.int m) ∧
      second.lookup "notch".toList = some (.int n) ∧ m.sign = n.sign

/-! ### The templates -/

theorem toList_literal {literal : String} {characters : List Char}
    (same : literal = String.ofList characters) : literal.toList = characters := by
  rw [same, String.toList_ofList]

theorem toList_literals {literal : String} {characters front read : List Char}
    (same : front = read) (next : literal = String.ofList characters) :
    front ++ literal.toList = read ++ characters := by
  rw [same, toList_literal next]

theorem literal_placed {literals characters : List Char} {next : Mode}
    {rest : List (Str × Str)} {shown : Str} {first : Char}
    (same : literals = characters) (begins : characters.head? = some first)
    (harmless : Library.Markup.opensBehind first = false)
    (closed : characters.foldl Mode.step .text = .text) (isText : next = .text)
    (placed : Document.PlacedFrom .text rest) :
    Document.PlacedFrom next ((shown, literals) :: rest) := by
  rw [same]
  exact ⟨isText, ⟨first, begins, harmless⟩, by rw [closed]; exact placed⟩

theorem ending_placed {last shown : Str} {next : Mode} {first : Char}
    (begins : last.head? = some first) (harmless : Library.Markup.opensBehind first = false)
    (isText : next = .text) : Document.PlacedFrom next [(shown, last)] :=
  ⟨isText, ⟨first, begins, harmless⟩, trivial⟩

theorem fskFailed_placed (name deadline link : Str) :
    (fskFailedHtml name deadline link).Placed := by
  unfold fskFailedHtml
  dsimp only [Document.Placed]
  refine literal_placed
    (toList_literals (toList_literals (toList_literals (toList_literal rfl) rfl) rfl) rfl)
    rfl (by decide) (by decide +kernel) ?_ ?_
  · rw [toList_literals (toList_literal rfl) rfl]
    decide +kernel
  · exact @ending_placed _ _ _ '.' (by rw [toList_literal rfl]; rfl) (by decide) rfl

theorem escalationNag_placed (name deadline link : Str) :
    (escalationNagHtml name deadline link).Placed := by
  unfold escalationNagHtml
  dsimp only [Document.Placed]
  refine literal_placed (toList_literals (toList_literal rfl) rfl) rfl (by decide)
    (by decide +kernel) ?_ ?_
  · rw [toList_literal rfl]
    decide +kernel
  · exact @ending_placed _ _ _ '<' (by rw [toList_literal rfl]; rfl) (by decide) rfl

theorem escalationBreached_placed (name link : Str) :
    (escalationBreachedHtml name link).Placed := by
  unfold escalationBreachedHtml
  dsimp only [Document.Placed]
  refine @ending_placed _ _ _ '<' (by rw [toList_literal rfl]; rfl) (by decide) ?_
  rw [toList_literals (toList_literal rfl) rfl]
  decide +kernel

theorem deadlineReminder_lead (kind name due link : Str) (wording : Wording) :
    (deadlineReminderHtml kind name due link wording).lead.foldl Mode.step .text = .text := by
  change ("<p>Sehr geehrte Damen und Herren,</p><p>Die Frist (<strong>".toList).foldl Mode.step
    .text = .text
  rw [toList_literal rfl]
  decide +kernel

theorem deadlineReminder_placed (kind name due link : Str) (wording : Wording) :
    (deadlineReminderHtml kind name due link wording).Placed := by
  unfold Document.Placed
  rw [deadlineReminder_lead]
  cases wording with
  | today =>
      rw [deadlineReminderHtml_today]
      refine literal_placed (toList_literal rfl) rfl (by decide) (by decide +kernel) rfl ?_
      refine literal_placed (toList_literal rfl) rfl (by decide) (by decide +kernel) rfl ?_
      exact @ending_placed _ _ _ ')' (by rw [toList_literal rfl]; rfl) (by decide) rfl
  | overdue =>
      rw [deadlineReminderHtml_overdue]
      refine literal_placed (toList_literal rfl) rfl (by decide) (by decide +kernel) rfl ?_
      refine literal_placed (toList_literal rfl) rfl (by decide) (by decide +kernel) rfl ?_
      exact @ending_placed _ _ _ ' ' (by rw [toList_literal rfl]; rfl) (by decide) rfl
  | left notch =>
      rw [deadlineReminderHtml_left]
      refine literal_placed (toList_literal rfl) rfl (by decide) (by decide +kernel) rfl ?_
      refine literal_placed (toList_literal rfl) rfl (by decide) (by decide +kernel) rfl ?_
      refine literal_placed (toList_literal rfl) rfl (by decide) (by decide +kernel) rfl ?_
      exact @ending_placed _ _ _ ')' (by rw [toList_literal rfl]; rfl) (by decide) rfl

/-! ### What an email shows -/

variable {repr baseUrl}
variable {template : Str} {payload first second : Payload}

/-- An email that is rendered or built has one of the four templates. -/
theorem template_cases {Result : Type} {a b c d : Result} {found : Result}
    (some_of : (if template = "fsk_failed_critical".toList then some a
      else if template = "escalation_nag".toList then some b
      else if template = "escalation_breached".toList then some c
      else if template = "deadline_reminder".toList then some d else none) = some found) :
    (template = "fsk_failed_critical".toList ∧ found = a) ∨
      (template = "escalation_nag".toList ∧ found = b) ∨
      (template = "escalation_breached".toList ∧ found = c) ∨
      (template = "deadline_reminder".toList ∧ found = d) := by
  by_cases failed : template = "fsk_failed_critical".toList
  · rw [if_pos failed] at some_of
    exact .inl ⟨failed, (Option.some.inj some_of).symm⟩
  rw [if_neg failed] at some_of
  by_cases nag : template = "escalation_nag".toList
  · rw [if_pos nag] at some_of
    exact .inr (.inl ⟨nag, (Option.some.inj some_of).symm⟩)
  rw [if_neg nag] at some_of
  by_cases breached : template = "escalation_breached".toList
  · rw [if_pos breached] at some_of
    exact .inr (.inr (.inl ⟨breached, (Option.some.inj some_of).symm⟩))
  rw [if_neg breached] at some_of
  by_cases reminder : template = "deadline_reminder".toList
  · rw [if_pos reminder] at some_of
    exact .inr (.inr (.inr ⟨reminder, (Option.some.inj some_of).symm⟩))
  · rw [if_neg reminder] at some_of
    cases some_of

theorem document_of_rendered {mail : EmailContent}
    (rendered : renderEmail repr template payload baseUrl = some mail) :
    ∃ document, emailDocument repr baseUrl template payload = some document ∧
      mail.html = document.text ∧ document.Placed := by
  obtain ⟨rfl, rfl⟩ | ⟨rfl, rfl⟩ | ⟨rfl, rfl⟩ | ⟨rfl, rfl⟩ := template_cases rendered
  · exact ⟨_, rfl, rfl, fskFailed_placed _ _ _⟩
  · exact ⟨_, rfl, rfl, escalationNag_placed _ _ _⟩
  · exact ⟨_, rfl, rfl, escalationBreached_placed _ _⟩
  · exact ⟨_, rfl, rfl, deadlineReminder_placed _ _ _ _ _⟩

theorem decimalInt_not_opens (n : Int) : ¬ Opens (decimalInt n) := by
  rintro ⟨front, c, rest, split, -⟩
  have member : '<' ∈ decimalInt n := by simp [split]
  have notDecimal : '<' ∉ decimal n.natAbs := fun member => by
    have digit := Nat.isDigit_of_mem_toDigits (by decide) (by decide) member
    simp at digit
  unfold decimalInt at member
  split at member
  · obtain sign | inside := List.mem_cons.mp member
    · cases sign
    · exact notDecimal inside
  · exact notDecimal member

/-- With a number for its notch, an email shows no string that opens markup exactly when
none of its fields does. -/
theorem shown_closed_iff {document : Document}
    (found : emailDocument repr baseUrl template payload = some document)
    (notch : template = "deadline_reminder".toList →
      ∃ n : Int, payload.lookup "notch".toList = some (.int n)) :
    (∀ string ∈ document.shown, ¬ Opens string) ↔
      ∀ string ∈ shownFields repr template payload, ¬ Opens string := by
  obtain ⟨rfl, rfl⟩ | ⟨rfl, rfl⟩ | ⟨rfl, rfl⟩ | ⟨rfl, rfl⟩ := template_cases found
  · exact Iff.rfl
  · exact Iff.rfl
  · exact Iff.rfl
  · obtain ⟨n, isNotch⟩ := notch rfl
    change _ ↔ ∀ string ∈ [_, _, _], _
    rw [isNotch, wording_int]
    unfold dueWording
    split
    · exact Iff.rfl
    · split
      · exact Iff.rfl
      · have number := decimalInt_not_opens n
        rw [Document.shown, deadlineReminderHtml_left]
        simp only [List.map_cons, List.map_nil, List.forall_mem_cons]
        tauto

theorem literals_of_sameShape {document other : Document}
    (shape : SameShape template first second)
    (found : emailDocument repr baseUrl template first = some document)
    (otherFound : emailDocument repr baseUrl template second = some other) :
    document.literals = other.literals := by
  have links : link repr first baseUrl = link repr second baseUrl := by
    rw [link, link, shape.others "deep_link" (by decide) (by decide),
      shape.others "case_path" (by decide) (by decide)]
  obtain ⟨rfl, rfl⟩ | ⟨rfl, rfl⟩ | ⟨rfl, rfl⟩ | ⟨rfl, rfl⟩ := template_cases found
  · obtain rfl := Option.some.inj otherFound
    rw [links]
    rfl
  · obtain rfl := Option.some.inj otherFound
    rw [links]
    rfl
  · obtain rfl := Option.some.inj otherFound
    rw [links]
    rfl
  · obtain rfl := Option.some.inj otherFound
    obtain ⟨m, n, firstNotch, secondNotch, sign⟩ := shape.notch rfl
    rw [links, firstNotch, secondNotch, wording_int, wording_int]
    have late : m < 0 ↔ n < 0 := by
      rw [← Int.sign_eq_neg_one_iff_neg, sign, Int.sign_eq_neg_one_iff_neg]
    have isToday : m = 0 ↔ n = 0 := by
      rw [← Int.sign_eq_zero_iff_zero, sign, Int.sign_eq_zero_iff_zero]
    unfold dueWording
    simp only [late, isToday]
    split
    · rfl
    · split
      · rfl
      · rfl

/-- The reader finds in the html the tags of the template, and the strings of the payload
only in the texts between them. -/
def StringsAreText (repr : Json → Str) (baseUrl template : Str) (payload : Payload) (html : Str) :
    Prop :=
  ∃ document, emailDocument repr baseUrl template payload = some document ∧
    readMarkup html = document.intended

/-- Two payloads of one shape are rendered with the same tags and attributes and their
strings as text only exactly when no field that is shown opens markup. -/
theorem html_injection_iff {firstMail secondMail : EmailContent}
    (shape : SameShape template first second)
    (renderedFirst : renderEmail repr template first baseUrl = some firstMail)
    (renderedSecond : renderEmail repr template second baseUrl = some secondMail) :
    (tags (readMarkup firstMail.html) = tags (readMarkup secondMail.html) ∧
        StringsAreText repr baseUrl template first firstMail.html ∧
        StringsAreText repr baseUrl template second secondMail.html) ↔
      ∀ string ∈ shownFields repr template first ++ shownFields repr template second,
        ¬ Opens string := by
  obtain ⟨document, found, html, placed⟩ := document_of_rendered renderedFirst
  obtain ⟨other, otherFound, otherHtml, otherPlaced⟩ := document_of_rendered renderedSecond
  have closed := shown_closed_iff found fun reminder =>
    (shape.notch reminder).imp fun m ⟨_, notch, _⟩ => notch
  have otherClosed := shown_closed_iff otherFound fun reminder => by
    obtain ⟨_, n, _, notch, _⟩ := shape.notch reminder
    exact ⟨n, notch⟩
  have isText : StringsAreText repr baseUrl template first firstMail.html ↔
      document.tokens = document.intended := by
    rw [html]
    exact ⟨fun ⟨_, same, read⟩ => Option.some.inj (found.symm.trans same) ▸ read,
      fun read => ⟨document, found, read⟩⟩
  have otherIsText : StringsAreText repr baseUrl template second secondMail.html ↔
      other.tokens = other.intended := by
    rw [otherHtml]
    exact ⟨fun ⟨_, same, read⟩ => Option.some.inj (otherFound.symm.trans same) ▸ read,
      fun read => ⟨other, otherFound, read⟩⟩
  rw [List.forall_mem_append, ← closed, ← otherClosed, isText, otherIsText,
    Document.tokens_eq_intended_iff placed, Document.tokens_eq_intended_iff otherPlaced]
  constructor
  · exact And.right
  · rintro ⟨shown, otherShown⟩
    refine ⟨?_, shown, otherShown⟩
    rw [html, otherHtml]
    change tags document.tokens = tags other.tokens
    rw [(Document.tokens_eq_intended_iff placed).mpr shown,
      (Document.tokens_eq_intended_iff otherPlaced).mpr otherShown]
    exact Document.intended_tags placed (literals_of_sameShape shape found otherFound)

def namePayload (name : Str) : Payload :=
  [("driver_name".toList, .str name)]

theorem namePayload_sameShape (name other : Str) :
    SameShape "escalation_breached".toList (namePayload name) (namePayload other) where
  others key notText _ := by
    have isOther : key ≠ "driver_name" := fun same => notText (by simp [same, textKeys])
    have unlike : (key.toList == "driver_name".toList) = false := by
      rw [beq_eq_false_iff_ne]
      exact fun same => isOther (String.toList_injective same)
    simp only [namePayload, List.lookup_cons, List.lookup_nil, unlike]
  notch reminder := absurd reminder (by decide)

/-- Two plain names leave the tags of the template. -/
theorem html_injection_plain :
    tags (readMarkup (emailEscalationBreached Json.dumps (namePayload ['A']) []).html) =
      tags (readMarkup (emailEscalationBreached Json.dumps (namePayload ['B']) []).html) := by
  refine ((@html_injection_iff Json.dumps [] "escalation_breached".toList (namePayload ['A'])
    (namePayload ['B']) _ _ (namePayload_sameShape _ _) rfl rfl).mpr ?_).1
  intro string member
  have noLess : '<' ∉ string := by
    revert string
    decide
  rintro ⟨front, c, rest, rfl, -⟩
  exact noLess (by simp)

/-- A name with a tag in it. -/
theorem html_injected :
    ¬ (tags (readMarkup (emailEscalationBreached Json.dumps (namePayload "<b>".toList) []).html) =
        tags (readMarkup (emailEscalationBreached Json.dumps (namePayload ['B']) []).html) ∧
      StringsAreText Json.dumps [] "escalation_breached".toList (namePayload "<b>".toList)
        (emailEscalationBreached Json.dumps (namePayload "<b>".toList) []).html ∧
      StringsAreText Json.dumps [] "escalation_breached".toList (namePayload ['B'])
        (emailEscalationBreached Json.dumps (namePayload ['B']) []).html) := by
  rintro ⟨-, ⟨document, found, read⟩, -⟩
  obtain rfl := Option.some.inj found
  have closed := (Document.tokens_eq_intended_iff (escalationBreached_placed _ _)).mp read
  refine closed "<b>".toList ?_ ⟨[], 'b', ['>'], by decide, by decide⟩
  exact List.mem_cons_self

end Fristenwaechter
