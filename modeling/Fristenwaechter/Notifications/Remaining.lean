import Fristenwaechter.Notifications.Notices
import Fristenwaechter.Sweeps.Keys

/-!
Owns the remaining time that a reminder states: its email and its SMS print the threshold
the sweep chose, which is the number of days left on four days only.
-/

namespace Fristenwaechter

/-- What a reminder has to say when `days` are left. -/
def dueWording (days : Int) : Wording :=
  if days < 0 then .overdue else if days = 0 then .today else .left (decimalInt days)

theorem wording_int {repr : Json → Str} (notch : Int) :
    wording repr (some (.int notch)) = dueWording notch := by
  cases notch with
  | ofNat n =>
      cases n with
      | zero => rfl
      | succ n =>
          have positive : ¬ (Int.ofNat (n + 1) < 0) := not_lt.mpr (Int.natCast_nonneg (n + 1))
          have notZero : Int.ofNat (n + 1) ≠ 0 := Int.natCast_ne_zero.mpr (Nat.succ_ne_zero n)
          rw [dueWording, if_neg positive, if_neg notZero]
          rfl
  | negSucc n =>
      rw [dueWording, if_pos (Int.negSucc_lt_zero n)]
      rfl

/-! ### Wordings can be told apart -/

/-- A text that differs between the three wordings, and between two notches, determines
its wording. -/
theorem wording_injective {said : Wording → Str} (todayOverdue : said .today ≠ said .overdue)
    (todayLeft : ∀ notch, said .today ≠ said (.left notch))
    (overdueLeft : ∀ notch, said .overdue ≠ said (.left notch))
    (left : ∀ notch other, said (.left notch) = said (.left other) → notch = other)
    {first second : Wording} (same : said first = said second) : first = second := by
  cases first with
  | today =>
      cases second with
      | today => rfl
      | overdue => exact absurd same todayOverdue
      | left other => exact absurd same (todayLeft other)
  | overdue =>
      cases second with
      | today => exact absurd same.symm todayOverdue
      | overdue => rfl
      | left other => exact absurd same (overdueLeft other)
  | left notch =>
      cases second with
      | today => exact absurd same.symm (todayLeft notch)
      | overdue => exact absurd same.symm (overdueLeft notch)
      | left other => rw [left notch other same]

theorem smsReminder_inj {kind name due : Str} {first second : Wording}
    (same : smsReminder kind name due first = smsReminder kind name due second) :
    first = second := by
  unfold smsReminder at same
  have same : smsWhen due first = smsWhen due second :=
    List.append_cancel_left (List.append_cancel_right same)
  refine wording_injective ?_ (fun notch => ?_) (fun notch => ?_) (fun notch other => ?_) same
  · rw [smsWhen_today, smsWhen_overdue]
    simp
  · rw [smsWhen_today, smsWhen_left]
    simp
  · rw [smsWhen_overdue, smsWhen_left]
    simp
  · rw [smsWhen_left, smsWhen_left]
    simp only [List.append_assoc, List.append_cancel_left_eq, List.append_cancel_right_eq]
    exact id

theorem reminderLead_inj {kind name due : Str} {first second : Wording}
    (same : reminderLead kind name due first = reminderLead kind name due second) :
    first = second := by
  refine wording_injective ?_ (fun notch => ?_) (fun notch => ?_) (fun notch other => ?_) same
  · rw [reminderLead_today, reminderLead_overdue]
    simp
  · rw [reminderLead_today, reminderLead_left]
    simp
  · rw [reminderLead_overdue, reminderLead_left]
    simp
  · rw [reminderLead_left, reminderLead_left]
    simp only [List.append_assoc, List.append_cancel_left_eq, List.append_cancel_right_eq]
    exact id

theorem deadlineReminderHtml_inj {kind name due link : Str} {first second : Wording}
    (same : (deadlineReminderHtml kind name due link first).text =
      (deadlineReminderHtml kind name due link second).text) : first = second := by
  have same := List.append_cancel_left same
  refine @wording_injective (fun wording =>
    (deadlineReminderHtml kind name due link wording).parts.flatMap fun part => part.1 ++ part.2)
    ?_ (fun notch => ?_) (fun notch => ?_) (fun notch other => ?_) first second same
  · rw [deadlineReminderHtml_today, deadlineReminderHtml_overdue]
    simp
  · rw [deadlineReminderHtml_today, deadlineReminderHtml_left]
    simp
  · rw [deadlineReminderHtml_overdue, deadlineReminderHtml_left]
    simp
  · rw [deadlineReminderHtml_left, deadlineReminderHtml_left]
    simp only [List.flatMap_cons, List.append_assoc, List.append_cancel_left_eq,
      List.append_cancel_right_eq]
    exact id

theorem dueWording_eq_iff {notch days : Int} :
    dueWording notch = dueWording days ↔ (notch < 0 ∧ days < 0) ∨ notch = days := by
  constructor
  · intro same
    unfold dueWording at same
    split_ifs at same with notchLate daysLate daysToday notchToday daysLate daysToday
    · exact .inl ⟨notchLate, daysLate⟩
    · right; omega
    · have texts := Wording.left.inj same
      rw [decimalInt, if_neg notchLate, decimalInt] at texts
      rw [if_neg ‹_›] at texts
      have := decimal_inj texts
      right; omega
  · rintro (⟨notchLate, daysLate⟩ | rfl)
    · rw [dueWording, dueWording, if_pos notchLate, if_pos daysLate]
    · rfl

/-! ### What a reminder tells -/

variable (repr : Json → Str) (baseUrl : Str)

/-- The SMS and both parts of the email use a wording exactly when it is the one for the
days that are left. -/
def TellsRemaining (notice : Notice) (kind : Str) (days : Int) : Prop :=
  ∀ said : Wording,
    (renderSms repr notice.template notice.payload =
        some (smsReminder kind notice.name notice.day said) ↔ said = dueWording days) ∧
      ((∃ mail, renderEmail repr notice.template notice.payload baseUrl = some mail ∧
          mail.text = reminderText kind notice.name notice.day
            (link repr notice.payload baseUrl) said) ↔ said = dueWording days) ∧
      ((∃ mail, renderEmail repr notice.template notice.payload baseUrl = some mail ∧
          mail.html = (deadlineReminderHtml kind notice.name notice.day
            (link repr notice.payload baseUrl) said).text) ↔ said = dueWording days)

section Reminder

variable {deadline : Deadline} {today : Date} {token : Str} {display : Int}
variable {chosen : reminderNotch deadline.dueOn today = some (token, display)}
variable {driver : Option Driver} {vehicle : Option Vehicle}

theorem renderSms_reminder :
    let notice := Notice.reminder deadline today token display chosen driver vehicle
    renderSms repr notice.template notice.payload =
      some (smsReminder deadline.kind.label notice.name notice.day (dueWording display)) := by
  obtain ⟨kind, due, notch⟩ := @Notice.reminder_fields deadline display driver vehicle repr
  have body : smsDeadlineReminder repr
      (deadline.payload display (deadline.names driver vehicle)) =
      smsReminder deadline.kind.label
        (Notice.reminder deadline today token display chosen driver vehicle).name
        (orDash deadline.dueOn.german) (dueWording display) := by
    rw [smsDeadlineReminder, kind, due, notch, wording_int, Notice.reminder_name]
    rfl
  exact congrArg some body

theorem renderEmail_reminder :
    let notice := Notice.reminder deadline today token display chosen driver vehicle
    ∃ mail, renderEmail repr notice.template notice.payload baseUrl = some mail ∧
      mail.text = reminderText deadline.kind.label notice.name notice.day
        (link repr notice.payload baseUrl) (dueWording display) ∧
      mail.html = (deadlineReminderHtml deadline.kind.label notice.name notice.day
        (link repr notice.payload baseUrl) (dueWording display)).text := by
  obtain ⟨kind, due, notch⟩ := @Notice.reminder_fields deadline display driver vehicle repr
  refine ⟨emailDeadlineReminder repr
    (deadline.payload display (deadline.names driver vehicle)) baseUrl, rfl, ?_, ?_⟩
  · rw [emailDeadlineReminder_text, kind, due, notch, wording_int, Notice.reminder_name]
    rfl
  · rw [emailDeadlineReminder_html, kind, due, notch, wording_int, Notice.reminder_name]
    rfl

/-- A reminder tells the days that are left exactly when its notch has their wording. -/
theorem tellsRemaining_iff {days : Int} :
    TellsRemaining repr baseUrl (.reminder deadline today token display chosen driver vehicle)
      deadline.kind.label days ↔ dueWording display = dueWording days := by
  have sms := @renderSms_reminder repr deadline today token display chosen driver vehicle
  obtain ⟨mail, rendered, text, html⟩ :=
    @renderEmail_reminder repr baseUrl deadline today token display chosen driver vehicle
  constructor
  · intro tells
    exact ((tells (dueWording display)).1.mp sms)
  · intro same said
    refine ⟨⟨fun worded => ?_, fun worded => ?_⟩, ⟨fun worded => ?_, fun worded => ?_⟩,
      ⟨fun worded => ?_, fun worded => ?_⟩⟩
    · rw [sms] at worded
      exact (smsReminder_inj (Option.some.inj worded)).symm.trans same
    · rw [sms, worded, same]
    · obtain ⟨other, otherRendered, otherText⟩ := worded
      obtain rfl := Option.some.inj (rendered.symm.trans otherRendered)
      have texts := List.append_cancel_left (List.append_cancel_right (List.append_cancel_right
        (List.append_cancel_right (text.symm.trans otherText))))
      exact (reminderLead_inj texts).symm.trans same
    · exact ⟨mail, rendered, by rw [text, worded, same]⟩
    · obtain ⟨other, otherRendered, otherHtml⟩ := worded
      obtain rfl := Option.some.inj (rendered.symm.trans otherRendered)
      exact (deadlineReminderHtml_inj (html.symm.trans otherHtml)).symm.trans same
    · exact ⟨mail, rendered, by rw [html, worded, same]⟩

end Reminder

/-- Up to 90 days before a due date there is a reminder; its notch is the number of days
left on the due date and on the threshold days. -/
theorem reminderNotch_display {dueOn today : Date} (near : daysUntil dueOn today ≤ 90) :
    ∃ token display, reminderNotch dueOn today = some (token, display) ∧
      (dueWording display = dueWording (daysUntil dueOn today) ↔
        daysUntil dueOn today ≤ 0 ∨ daysUntil dueOn today = 7 ∨ daysUntil dueOn today = 30 ∨
          daysUntil dueOn today = 90) := by
  unfold reminderNotch
  dsimp only
  by_cases late : 0 ≤ daysUntil dueOn today
  · rw [if_pos late]
    have found : ∃ notch, (reminderNotches.find? fun n : Nat =>
        daysUntil dueOn today ≤ (n : Int)) = some notch ∧
          ((notch : Int) = daysUntil dueOn today ↔ daysUntil dueOn today ≤ 0 ∨
            daysUntil dueOn today = 7 ∨ daysUntil dueOn today = 30 ∨
              daysUntil dueOn today = 90) := by
      generalize daysUntil dueOn today = d at *
      rcases le_or_gt d 0 with small | positive
      · exact ⟨0, by simp [reminderNotches, small], by omega⟩
      rcases le_or_gt d 7 with small | seven
      · exact ⟨7, by simp [reminderNotches, small, positive], by omega⟩
      rcases le_or_gt d 30 with small | thirty
      · exact ⟨30, by simp [reminderNotches, small, positive, seven], by omega⟩
      · exact ⟨90, by simp [reminderNotches, near, positive, seven, thirty], by omega⟩
    obtain ⟨notch, isNotch, same⟩ := found
    refine ⟨decimal notch, notch, by rw [isNotch]; rfl, ?_⟩
    rw [dueWording_eq_iff, ← same]
    omega
  · rw [if_neg late]
    refine ⟨_, -1, rfl, ?_⟩
    rw [dueWording_eq_iff]
    omega

variable (deadline : Deadline) (today : Date) (driver : Option Driver) (vehicle : Option Vehicle)

/-- Up to 90 days before its due date a deadline is reminded of, and its reminder tells
the days that are left exactly from the due date on and 7, 30 and 90 days before it. -/
theorem reminder_tells_remaining_iff (near : daysUntil deadline.dueOn today ≤ 90) :
    ∃ token display, ∃ chosen : reminderNotch deadline.dueOn today = some (token, display),
      (TellsRemaining repr baseUrl (.reminder deadline today token display chosen driver vehicle)
          deadline.kind.label (daysUntil deadline.dueOn today) ↔
        daysUntil deadline.dueOn today ≤ 0 ∨ daysUntil deadline.dueOn today = 7 ∨
          daysUntil deadline.dueOn today = 30 ∨ daysUntil deadline.dueOn today = 90) := by
  obtain ⟨token, display, chosen, same⟩ := reminderNotch_display near
  exact ⟨token, display, chosen, (tellsRemaining_iff repr baseUrl).trans same⟩

/-- A Führerscheinkontrolle due on January 8th, 2026. -/
def januaryDeadline : Deadline :=
  .opened ⟨1⟩ ⟨2⟩ .fsk (.driver ⟨3⟩) ⟨2026, 1, 8, by decide⟩

/-- On New Year's Day there are seven days left. -/
theorem reminder_tells_remaining_new_year :
    ∃ token display, ∃ chosen : reminderNotch januaryDeadline.dueOn ⟨2026, 1, 1, by decide⟩ =
        some (token, display),
      TellsRemaining Json.dumps [] (.reminder januaryDeadline ⟨2026, 1, 1, by decide⟩ token display
        chosen none none) januaryDeadline.kind.label
        (daysUntil januaryDeadline.dueOn ⟨2026, 1, 1, by decide⟩) := by
  obtain ⟨token, display, chosen, tells⟩ := reminder_tells_remaining_iff Json.dumps []
    januaryDeadline ⟨2026, 1, 1, by decide⟩ none none (by decide +kernel)
  exact ⟨token, display, chosen, tells.mpr (.inr (.inl (by decide +kernel)))⟩

/-- Five days before the due date the reminder still says seven. -/
theorem reminder_five_days_before :
    ¬ TellsRemaining Json.dumps [] (.reminder januaryDeadline ⟨2026, 1, 3, by decide⟩
      "7".toList 7 (by decide +kernel) none none) januaryDeadline.kind.label
      (daysUntil januaryDeadline.dueOn ⟨2026, 1, 3, by decide⟩) := by
  rw [tellsRemaining_iff, dueWording_eq_iff]
  decide +kernel

end Fristenwaechter
