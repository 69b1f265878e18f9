import Fristenwaechter.Sweeps.Keys

/-!
Owns what a dedup key stands for: the occasion of a notification and the contact it goes
to. The four formats of the source are one injective code, whatever the address is.
-/

namespace Fristenwaechter

/-! ### Tokens -/

/-- A token that `reminder_notch` gives on some day for some due date. -/
def ReminderToken (token : Str) : Prop :=
  ∃ dueOn today display, reminderNotch dueOn today = some (token, display)

theorem ReminderToken.colon {token : Str} (isToken : ReminderToken token) : ':' ∉ token := by
  obtain ⟨_, _, _, notch⟩ := isToken
  exact colon_not_token notch

section Tokens

variable {dueOn dueToo one two : Date} {token other : Str} {display shown : Int}

/-- Two overdue reminders have the same token exactly in one ISO week. -/
theorem overdue_token_iff (notch : reminderNotch dueOn one = some (token, display))
    (notchToo : reminderNotch dueToo two = some (other, shown)) (late : daysUntil dueOn one < 0)
    (lateToo : daysUntil dueToo two < 0) : token = other ↔ one.isoWeek = two.isoWeek := by
  have isToken := (notch_cases notch).resolve_left fun ⟨_, _, _, ahead, _⟩ => by omega
  have isOther := (notch_cases notchToo).resolve_left fun ⟨_, _, _, ahead, _⟩ => by omega
  rw [isToken.2, isOther.2]
  exact weekToken_inj

theorem overdue_token_ne (notch : reminderNotch dueOn one = some (token, display))
    (notchToo : reminderNotch dueToo two = some (other, shown)) (late : daysUntil dueOn one < 0)
    (ahead : 0 ≤ daysUntil dueToo two) : token ≠ other := by
  have isToken := (notch_cases notch).resolve_left fun ⟨_, _, _, inTime, _⟩ => by omega
  obtain ⟨n, among, isOther, _⟩ :=
    (notch_cases notchToo).resolve_right fun ⟨isLate, _⟩ => by omega
  rw [isToken.2, isOther, List.append_assoc]
  exact (threshold_ne_overdue among _).symm

end Tokens

/-! ### Keys -/

theorem OutboxChannel.text_inj {first second : OutboxChannel} (same : first.text = second.text) :
    first = second := by
  revert same
  cases first <;> cases second <;> decide

theorem OutboxChannel.colon_not_text (channel : OutboxChannel) : ':' ∉ channel.text := by
  cases channel <;> decide

/-- The address is everything after the last colon of the format, colons of its own
included. -/
theorem contactKey_contact {event : Str} {contact target : OutboxChannel × Str}
    (same : contactKey event contact = contactKey event target) : contact = target := by
  have afterEvent := (List.cons.inj (List.append_cancel_left same)).2
  obtain ⟨channel, address⟩ :=
    split_at_colon contact.1.colon_not_text target.1.colon_not_text afterEvent
  exact Prod.ext (OutboxChannel.text_inj channel) address

/-- What a notification is about. -/
inductive Occasion where
  | failed (triggerCheckId : Uuid)
  | breached (caseId : Uuid)
  | nagged (caseId : Uuid) (today : Date)
  | reminded (deadlineId : Uuid) (token : Str) (isToken : ReminderToken token)

namespace Occasion

def template : Occasion → Str
  | failed _ => "fsk_failed_critical".toList
  | breached _ => "escalation_breached".toList
  | nagged _ _ => "escalation_nag".toList
  | reminded _ _ _ => "deadline_reminder".toList

/-- What a key starts with. -/
def event : Occasion → Str
  | failed triggerCheckId => "e6:".toList ++ triggerCheckId.text
  | breached caseId => breachedEvent caseId
  | nagged caseId today => nagEvent caseId today
  | reminded deadlineId token _ => reminderEvent deadlineId token

/-- The dedup key of a notification. -/
def key : Occasion → OutboxChannel × Str → Str
  | failed triggerCheckId, contact => e6Key triggerCheckId contact
  | breached caseId, contact => contactKey (breachedEvent caseId) contact
  | nagged caseId today, contact => contactKey (nagEvent caseId today) contact
  | reminded deadlineId token _, contact => contactKey (reminderEvent deadlineId token) contact

variable {occasion other : Occasion} {contact target : OutboxChannel × Str}

theorem key_eq (occasion : Occasion) (contact : OutboxChannel × Str) :
    occasion.key contact = contactKey occasion.event contact := by
  cases occasion with
  | failed triggerCheckId => simp [key, event, e6Key, contactKey]
  | _ => rfl

theorem failedKey_inj {first second : Uuid}
    (same : contactKey (failed first).event contact = contactKey (failed second).event target) :
    first = second := by
  simp only [contactKey, event, List.append_assoc] at same
  have afterPrefix := List.append_cancel_left same
  exact Uuid.text_inj (List.append_inj afterPrefix (by simp)).1

/-- The second character tells E6 from the escalation sweep and from the reminders. -/
def mark : Occasion → Char
  | failed _ => '6'
  | breached _ => 's'
  | nagged _ _ => 's'
  | reminded _ _ _ => 'e'

theorem key_mark (occasion : Occasion) (contact : OutboxChannel × Str) :
    (contactKey occasion.event contact)[1]? = some occasion.mark := by
  cases occasion <;> rfl

/-- **Dedup keys identify notifications.** -/
theorem key_eq_iff :
    occasion.key contact = other.key target ↔ occasion = other ∧ contact = target := by
  constructor
  swap
  · rintro ⟨rfl, rfl⟩
    rfl
  rw [key_eq, key_eq]
  intro same
  have sameMark : occasion.mark = other.mark := by
    have heads := congrArg (fun text => text[1]?) same
    simpa only [key_mark, Option.some.injEq] using heads
  suffices sameOccasion : occasion = other by
    subst sameOccasion
    exact ⟨rfl, contactKey_contact same⟩
  cases occasion with
  | failed first =>
      cases other with
      | failed second => rw [failedKey_inj same]
      | _ => exact absurd sameMark (by simp [mark])
  | breached first =>
      cases other with
      | breached second => rw [breachKey_inj same]
      | nagged second day => exact absurd same.symm nagKey_ne_breachKey
      | _ => exact absurd sameMark (by simp [mark])
  | nagged first day =>
      cases other with
      | nagged second otherDay =>
          obtain ⟨sameCase, sameDay⟩ := nagKey_inj same
          rw [sameCase, sameDay]
      | breached second => exact absurd same nagKey_ne_breachKey
      | _ => exact absurd sameMark (by simp [mark])
  | reminded first token isToken =>
      cases other with
      | reminded second otherToken isOther =>
          obtain ⟨sameDeadline, sameToken⟩ := reminderKey_inj isToken.colon isOther.colon same
          subst sameDeadline sameToken
          rfl
      | _ => exact absurd sameMark (by simp [mark])

end Occasion

end Fristenwaechter
