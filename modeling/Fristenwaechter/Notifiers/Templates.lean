import Fristenwaechter.Json
import Fristenwaechter.Library.Markup

/-!
Owns `app/notifiers/templates.py`: the German copy of the notifications, rendered from a
message's template name and payload. The repr of lists and dicts, which no payload
holds, is a parameter.
-/

namespace Fristenwaechter

open Library.Markup (Document)

/-- `SMS_MAX_LEN`. -/
def smsMaxLen : Nat := 160

structure EmailContent where
  subject : Str
  html : Str
  text : Str
deriving DecidableEq

/-- A message's payload. -/
abbrev Payload := List (Str × Json)

section Renderers

variable (repr : Json → Str)

/-- `str(value)`. -/
def Json.print : Json → Str
  | null => "None".toList
  | bool true => "True".toList
  | bool false => "False".toList
  | int value => decimalInt value
  | str value => value
  | list items => repr (list items)
  | obj members => repr (obj members)

/-- `bool(value)`. -/
def Json.truthy : Json → Bool
  | null => false
  | bool value => value
  | int value => value ≠ 0
  | str value => value ≠ []
  | list items => !items.isEmpty
  | obj members => !members.isEmpty

/-- `_g`. -/
def g (payload : Payload) (key : String) (default : Str) : Str :=
  match payload.lookup key.toList with
  | none | some .null | some (.str []) => default
  | some value => value.print repr

/-- The operand of `or` that is not falsy, or the last one. -/
def orElse (value : Option Json) (other : Str) : Str :=
  match value with
  | none => other
  | some value => if value.truthy then value.print repr else other

/-- `_link`. -/
def link (payload : Payload) (baseUrl : Str) : Str :=
  baseUrl ++ orElse repr (payload.lookup "deep_link".toList)
    (orElse repr (payload.lookup "case_path".toList) "/dashboard".toList)

/-- The default of `_g`. -/
def dash : Str :=
  ['—']

/-! ### Email -/

/-- The html of `_email_fsk_failed`. -/
def fskFailedHtml (name deadline link : Str) : Document where
  lead := "<p>Sehr geehrte Damen und Herren,</p>".toList ++
    "<p>die Führerscheinkontrolle für <strong>".toList
  parts := [
    (name, "</strong> ist <strong>fehlgeschlagen</strong>. Der Fahrer wurde mit ".toList ++
      "sofortiger Wirkung gesperrt.</p><p>Ein weiterer Fahrzeugeinsatz kann den ".toList ++
      "Tatbestand des §&nbsp;21 Abs.&nbsp;1 Nr.&nbsp;2 StVG (Halterverantwortung) ".toList ++
      "erfüllen und ist strafbewehrt.</p><p><strong>Frist zur Klärung: ".toList),
    (deadline, ".</strong></p><p><a href=\"".toList ++ link ++
      "\">Vorgang öffnen</a></p><p>Mit freundlichen Grüßen<br>Ihr Fristenwächter</p>".toList)]

def emailFskFailed (payload : Payload) (baseUrl : Str) : EmailContent :=
  let name := g repr payload "driver_name" dash
  let deadline := g repr payload "deadline" dash
  let link := link repr payload baseUrl
  { subject := "KRITISCH: Fahrer ".toList ++ name ++
      " gesperrt – Führerscheinkontrolle fehlgeschlagen".toList
    text := "Sehr geehrte Damen und Herren,\n\ndie Führerscheinkontrolle für ".toList ++ name ++
      " ist FEHLGESCHLAGEN. Der Fahrer wurde mit sofortiger Wirkung gesperrt.\n\n".toList ++
      "Ein weiterer Fahrzeugeinsatz kann den Tatbestand des § 21 Abs. 1 ".toList ++
      "Nr. 2 StVG (Halterverantwortung) erfuellen und ist strafbewehrt.\n\n".toList ++
      "Frist zur Klaerung: ".toList ++ deadline ++ ".\n\nVorgang oeffnen: ".toList ++ link ++
      "\n\nMit freundlichen Gruessen\nIhr Fristenwaechter".toList
    html := (fskFailedHtml name deadline link).text }

/-- The html of `_email_escalation_nag`. -/
def escalationNagHtml (name deadline link : Str) : Document where
  lead := "<p>Sehr geehrte Damen und Herren,</p><p>der Sperrvorgang für <strong>".toList
  parts := [
    (name, "</strong> ist weiterhin <strong>offen</strong>. Bitte klären Sie ".toList ++
      "den Fall bis zum <strong>".toList),
    (deadline, "</strong>.</p><p>Solange der Fahrer gesperrt ist, darf er keine ".toList ++
      "Firmenfahrzeuge führen.</p><p><a href=\"".toList ++ link ++
      "\">Vorgang öffnen</a></p><p>Ihr Fristenwächter</p>".toList)]

def emailEscalationNag (payload : Payload) (baseUrl : Str) : EmailContent :=
  let name := g repr payload "driver_name" dash
  let deadline := g repr payload "deadline" dash
  let link := link repr payload baseUrl
  { subject := "Erinnerung: Offener Sperrvorgang für ".toList ++ name ++ " – Frist ".toList ++
      deadline
    text := "Sehr geehrte Damen und Herren,\n\nder Sperrvorgang fuer ".toList ++ name ++
      " ist weiterhin OFFEN. Bitte klaeren Sie den Fall bis zum ".toList ++ deadline ++
      ".\n\nSolange der Fahrer gesperrt ist, darf er keine Firmenfahrzeuge ".toList ++
      "fuehren.\n\nVorgang: ".toList ++ link ++ "\n\nIhr Fristenwaechter".toList
    html := (escalationNagHtml name deadline link).text }

/-- The html of `_email_escalation_breached`. -/
def escalationBreachedHtml (name link : Str) : Document where
  lead := "<p>Sehr geehrte Damen und Herren,</p>".toList ++
    "<p>die Frist zur Klärung des Sperrvorgangs für <strong>".toList
  parts := [
    (name, "</strong> ist <strong>abgelaufen</strong>, ohne dass eine gültige ".toList ++
      "Führerscheinkontrolle vorliegt.</p><p>Der Fahrer bleibt gesperrt. Jeder ".toList ++
      "Einsatz begründet ein erhebliches Haftungs- und Strafbarkeitsrisiko ".toList ++
      "nach § 21 StVG.</p><p><a href=\"".toList ++ link ++
      "\">Vorgang öffnen</a></p><p>Ihr Fristenwächter</p>".toList)]

def emailEscalationBreached (payload : Payload) (baseUrl : Str) : EmailContent :=
  let name := g repr payload "driver_name" dash
  let link := link repr payload baseUrl
  { subject := "FRIST ÜBERSCHRITTEN: Sperrvorgang für ".toList ++ name ++ " nicht geklärt".toList
    text := "Sehr geehrte Damen und Herren,\n\ndie Frist zur Klaerung des ".toList ++
      "Sperrvorgangs fuer ".toList ++ name ++ " ist ABGELAUFEN, ohne dass eine gueltige ".toList ++
      "Führerscheinkontrolle vorliegt.\n\n".toList ++
      "Der Fahrer bleibt gesperrt. Jeder Einsatz begruendet ein ".toList ++
      "erhebliches Haftungs- und Strafbarkeitsrisiko nach § 21 StVG.\n\nVorgang: ".toList ++
      link ++ "\n\nIhr Fristenwaechter".toList
    html := (escalationBreachedHtml name link).text }

/-- What a reminder says about the time that is left. -/
inductive Wording where
  | today
  | overdue
  /-- `in {notch} Tagen`. -/
  | left (notch : Str)
deriving DecidableEq

/-- The branches on `notch`. -/
def wording (notch : Option Json) : Wording :=
  match notch with
  | some (.int 0) | some (.bool false) => .today
  | some (.int (.negSucc _)) => .overdue
  | some value => .left (value.print repr)
  | none => .left "None".toList

/-- `lead`. -/
def reminderLead (kind name due : Str) : Wording → Str
  | .today => "Die Frist (".toList ++ kind ++ ") fuer ".toList ++ name ++
      " ist HEUTE faellig (".toList ++ due ++ ").".toList
  | .overdue => "Die Frist (".toList ++ kind ++ ") fuer ".toList ++ name ++ " ist SEIT ".toList ++
      due ++ " ueberfaellig.".toList
  | .left notch => "Die Frist (".toList ++ kind ++ ") fuer ".toList ++ name ++ " ist in ".toList ++
      notch ++ " Tagen faellig (".toList ++ due ++ ").".toList

theorem reminderLead_today (kind name due : Str) :
    reminderLead kind name due .today =
      "Die Frist (".toList ++ kind ++ ") fuer ".toList ++ name ++ " ist HEUTE faellig (".toList ++
        due ++ ").".toList :=
  rfl

theorem reminderLead_overdue (kind name due : Str) :
    reminderLead kind name due .overdue =
      "Die Frist (".toList ++ kind ++ ") fuer ".toList ++ name ++ " ist SEIT ".toList ++ due ++
        " ueberfaellig.".toList :=
  rfl

theorem reminderLead_left (kind name due notch : Str) :
    reminderLead kind name due (.left notch) =
      "Die Frist (".toList ++ kind ++ ") fuer ".toList ++ name ++ " ist in ".toList ++ notch ++
        " Tagen faellig (".toList ++ due ++ ").".toList :=
  rfl

/-- The text of `_email_deadline_reminder`. -/
def reminderText (kind name due link : Str) (wording : Wording) : Str :=
  "Sehr geehrte Damen und Herren,\n\n".toList ++ reminderLead kind name due wording ++
    "\n\nBitte planen Sie die Pruefung rechtzeitig.\n\nDetails: ".toList ++ link ++
    "\n\nIhr Fristenwaechter".toList

/-- The html of a reminder behind its `lead_html`. -/
def reminderFooter (link : Str) : Str :=
  "</p><p>Bitte planen Sie die Prüfung rechtzeitig.</p><p><a href=\"".toList ++ link ++
    "\">Details öffnen</a></p><p>Ihr Fristenwächter</p>".toList

/-- The html of `_email_deadline_reminder`, with its `lead_html`. -/
def deadlineReminderHtml (kind name due link : Str) (wording : Wording) : Document where
  lead := "<p>Sehr geehrte Damen und Herren,</p><p>Die Frist (<strong>".toList
  parts :=
    match wording with
    | .today => [
        (kind, "</strong>) für <strong>".toList),
        (name, "</strong> ist <strong>heute</strong> fällig (".toList),
        (due, ").".toList ++ reminderFooter link)]
    | .overdue => [
        (kind, "</strong>) für <strong>".toList),
        (name, "</strong> ist seit ".toList),
        (due, " <strong>überfällig</strong>.".toList ++ reminderFooter link)]
    | .left notch => [
        (kind, "</strong>) für <strong>".toList),
        (name, "</strong> ist in <strong>".toList),
        (notch, " Tagen</strong> fällig (".toList),
        (due, ").".toList ++ reminderFooter link)]

theorem deadlineReminderHtml_today (kind name due link : Str) :
    (deadlineReminderHtml kind name due link .today).parts =
      [(kind, "</strong>) für <strong>".toList),
        (name, "</strong> ist <strong>heute</strong> fällig (".toList),
        (due, ").".toList ++ reminderFooter link)] :=
  rfl

theorem deadlineReminderHtml_overdue (kind name due link : Str) :
    (deadlineReminderHtml kind name due link .overdue).parts =
      [(kind, "</strong>) für <strong>".toList),
        (name, "</strong> ist seit ".toList),
        (due, " <strong>überfällig</strong>.".toList ++ reminderFooter link)] :=
  rfl

theorem deadlineReminderHtml_left (kind name due link notch : Str) :
    (deadlineReminderHtml kind name due link (.left notch)).parts =
      [(kind, "</strong>) für <strong>".toList),
        (name, "</strong> ist in <strong>".toList),
        (notch, " Tagen</strong> fällig (".toList),
        (due, ").".toList ++ reminderFooter link)] :=
  rfl

def emailDeadlineReminder (payload : Payload) (baseUrl : Str) : EmailContent :=
  let name := g repr payload "subject_name" dash
  let kind := g repr payload "kind_label" (g repr payload "kind" dash)
  let due := g repr payload "due_date" dash
  let said := wording repr (payload.lookup "notch".toList)
  let link := link repr payload baseUrl
  { subject := "Fristerinnerung: ".toList ++ kind ++ " für ".toList ++ name ++ " (".toList ++ due ++
      ")".toList
    text := reminderText kind name due link said
    html := (deadlineReminderHtml kind name due link said).text }

theorem emailDeadlineReminder_text (payload : Payload) (baseUrl : Str) :
    (emailDeadlineReminder repr payload baseUrl).text =
      reminderText (g repr payload "kind_label" (g repr payload "kind" dash))
        (g repr payload "subject_name" dash) (g repr payload "due_date" dash)
        (link repr payload baseUrl) (wording repr (payload.lookup "notch".toList)) :=
  rfl

theorem emailDeadlineReminder_html (payload : Payload) (baseUrl : Str) :
    (emailDeadlineReminder repr payload baseUrl).html =
      (deadlineReminderHtml (g repr payload "kind_label" (g repr payload "kind" dash))
        (g repr payload "subject_name" dash) (g repr payload "due_date" dash)
        (link repr payload baseUrl) (wording repr (payload.lookup "notch".toList))).text :=
  rfl

/-- `render_email`, `none` where it raises `UnknownTemplate`. -/
def renderEmail (template : Str) (payload : Payload) (baseUrl : Str) : Option EmailContent :=
  if template = "fsk_failed_critical".toList then some (emailFskFailed repr payload baseUrl)
  else if template = "escalation_nag".toList then some (emailEscalationNag repr payload baseUrl)
  else if template = "escalation_breached".toList then
    some (emailEscalationBreached repr payload baseUrl)
  else if template = "deadline_reminder".toList then
    some (emailDeadlineReminder repr payload baseUrl)
  else none

/-! ### SMS -/

def smsFskFailed (payload : Payload) : Str :=
  let name := g repr payload "driver_name" dash
  let deadline := g repr payload "deadline" dash
  "Fristenwaechter: FSK fehlgeschlagen fuer ".toList ++ name ++ ". Fahrer gesperrt ".toList ++
    "(§21 StVG). Frist ".toList ++ deadline ++ ". Bitte sofort im Portal klaeren.".toList

def smsEscalationNag (payload : Payload) : Str :=
  let name := g repr payload "driver_name" dash
  let deadline := g repr payload "deadline" dash
  "Fristenwaechter: Sperrvorgang fuer ".toList ++ name ++ " noch offen. Frist ".toList ++
    deadline ++ ". Bitte im Portal klaeren.".toList

def smsEscalationBreached (payload : Payload) : Str :=
  let name := g repr payload "driver_name" dash
  "Fristenwaechter: FRIST ABGELAUFEN fuer ".toList ++ name ++ ". Fahrer bleibt ".toList ++
    "gesperrt. Haftungsrisiko §21 StVG. Bitte umgehend handeln.".toList

/-- `when`. -/
def smsWhen (due : Str) : Wording → Str
  | .today => "HEUTE faellig (".toList ++ due ++ ")".toList
  | .overdue => "ueberfaellig seit ".toList ++ due
  | .left notch => "in ".toList ++ notch ++ " Tagen faellig (".toList ++ due ++ ")".toList

theorem smsWhen_today (due : Str) :
    smsWhen due .today = "HEUTE faellig (".toList ++ due ++ ")".toList :=
  rfl

theorem smsWhen_overdue (due : Str) : smsWhen due .overdue = "ueberfaellig seit ".toList ++ due :=
  rfl

theorem smsWhen_left (due notch : Str) :
    smsWhen due (.left notch) =
      "in ".toList ++ notch ++ " Tagen faellig (".toList ++ due ++ ")".toList :=
  rfl

/-- The body of a reminder. -/
def smsReminder (kind name due : Str) (wording : Wording) : Str :=
  "Fristenwaechter: ".toList ++ kind ++ " fuer ".toList ++ name ++ " ".toList ++
    smsWhen due wording ++ ". Details im Portal.".toList

def smsDeadlineReminder (payload : Payload) : Str :=
  let name := g repr payload "subject_name" dash
  let kind := g repr payload "kind_label" (g repr payload "kind" dash)
  let due := g repr payload "due_date" dash
  smsReminder kind name due (wording repr (payload.lookup "notch".toList))

/-- `render_sms`, `none` where it raises `UnknownTemplate`. -/
def renderSms (template : Str) (payload : Payload) : Option Str :=
  if template = "fsk_failed_critical".toList then some (smsFskFailed repr payload)
  else if template = "escalation_nag".toList then some (smsEscalationNag repr payload)
  else if template = "escalation_breached".toList then some (smsEscalationBreached repr payload)
  else if template = "deadline_reminder".toList then some (smsDeadlineReminder repr payload)
  else none

end Renderers

end Fristenwaechter
