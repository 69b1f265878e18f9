import Fristenwaechter.Notifications.Remaining

/-!
Owns the length and the alphabet of SMS bodies. Every body is fixed copy around one name,
so it keeps the module's limits exactly when the name is short and plain enough.
-/

namespace Fristenwaechter

/-- The characters that the SMS copy avoids. -/
def umlauts : List Char :=
  ['ä', 'ö', 'ü', 'Ä', 'Ö', 'Ü', 'ß']

def Plain (text : Str) : Prop :=
  ∀ c ∈ text, c ∉ umlauts

instance (text : Str) : Decidable (Plain text) :=
  decidable_of_iff (text.all fun c => !umlauts.contains c) (by simp [Plain])

theorem plain_append {first second : Str} : Plain (first ++ second) ↔ Plain first ∧ Plain second :=
  List.forall_mem_append

theorem digit_plain {c : Char} (digit : c.isDigit) : c ∉ umlauts := by
  intro member
  simp only [umlauts, List.mem_cons, List.not_mem_nil, or_false] at member
  obtain rfl | rfl | rfl | rfl | rfl | rfl | rfl := member <;> simp at digit

theorem decimal_plain (n : Nat) : Plain (decimal n) := fun _ member =>
  digit_plain (Nat.isDigit_of_mem_toDigits (by decide) (by decide) member)

theorem digits_plain (width n : Nat) : Plain (digits 10 width n) := by
  induction width generalizing n with
  | zero => simp [digits, Plain]
  | succ width inductionHypothesis =>
      have all : ∀ digit < 10, (Nat.digitChar digit) ∉ umlauts := by decide
      refine plain_append.mpr ⟨inductionHypothesis _, fun c member => ?_⟩
      rw [List.mem_singleton.mp member]
      exact all (n % 10) (Nat.mod_lt _ (by decide))

theorem german_plain (date : Date) : Plain date.german := by
  have dot : ∀ {text : Str}, Plain text → Plain ('.' :: text) := fun plain =>
    List.forall_mem_cons.mpr ⟨by decide, plain⟩
  exact plain_append.mpr ⟨digits_plain 2 _,
    dot (plain_append.mpr ⟨digits_plain 2 _, dot (decimal_plain _)⟩)⟩

theorem orDash_plain {text : Str} (plain : Plain text) : Plain (orDash text) := by
  unfold orDash
  split
  · decide
  · exact plain

theorem germanDay_plain (t : Instant) : Plain (germanDay t) := by
  unfold germanDay
  cases berlinDate t with
  | none => simp [Plain]
  | some date => exact german_plain date

theorem label_plain (kind : DeadlineKind) : Plain kind.label := by
  cases kind <;> decide

namespace Notice

theorem day_plain (notice : Notice) : Plain notice.day := by
  cases notice with
  | failed driver deadline => exact orDash_plain (germanDay_plain deadline)
  | nag case driver => exact orDash_plain (germanDay_plain case.deadlineAt)
  | breached case driver => exact orDash_plain (germanDay_plain case.deadlineAt)
  | reminder deadline => exact orDash_plain (german_plain deadline.dueOn)

/-- How many characters of the SMS are not the name. -/
def copyLength (notice : Notice) : Nat :=
  match notice with
  | failed _ _ => 110 + notice.day.length
  | nag _ _ => 80 + notice.day.length
  | breached _ _ => 113
  | reminder deadline _ _ display _ _ _ =>
      (if display = 0 then 60 else if display < 0 then 62 else 64 + (decimalInt display).length) +
        deadline.kind.label.length + notice.day.length

end Notice

/-- A body that is plain copy of a given length around a name. -/
def Framed (body name : Str) (copyLength : Nat) : Prop :=
  ∃ front back, body = front ++ name ++ back ∧ Plain front ∧ Plain back ∧
    front.length + back.length = copyLength

theorem Framed.limits {body name : Str} {copyLength : Nat} (framed : Framed body name copyLength) :
    body.length ≤ smsMaxLen ∧ Plain body ↔
      Plain name ∧ name.length + copyLength ≤ smsMaxLen := by
  obtain ⟨front, back, rfl, frontPlain, backPlain, length⟩ := framed
  rw [plain_append, plain_append, List.length_append, List.length_append, and_comm]
  constructor
  · rintro ⟨⟨⟨_, plain⟩, _⟩, short⟩
    exact ⟨plain, by omega⟩
  · rintro ⟨plain, short⟩
    exact ⟨⟨⟨frontPlain, plain⟩, backPlain⟩, by omega⟩

variable (repr : Json → Str)

theorem smsFskFailed_framed (driver : Driver) (deadline : Instant) :
    Framed (smsFskFailed repr (e6Context driver deadline)) (Notice.failed driver deadline).name
      (Notice.failed driver deadline).copyLength := by
  have name : g repr (e6Context driver deadline) "driver_name" dash = orDash driver.fullName :=
    g_str rfl
  have day : g repr (e6Context driver deadline) "deadline" dash = orDash (germanDay deadline) :=
    g_str rfl
  refine ⟨"Fristenwaechter: FSK fehlgeschlagen fuer ".toList,
    ". Fahrer gesperrt ".toList ++ "(§21 StVG). Frist ".toList ++ orDash (germanDay deadline) ++
      ". Bitte sofort im Portal klaeren.".toList, ?_, by decide, ?_, ?_⟩
  · change _ ++ g repr _ "driver_name" dash ++ _ ++ _ ++ g repr _ "deadline" dash ++ _ = _
    rw [name, day]
    simp only [List.append_assoc]
    rfl
  · refine plain_append.mpr ⟨plain_append.mpr ⟨by decide, ?_⟩, by decide⟩
    exact orDash_plain (germanDay_plain deadline)
  · simp [Notice.copyLength, Notice.day]
    omega

theorem smsEscalationNag_framed (case : EscalationCase) (driver : Option Driver) :
    Framed (smsEscalationNag repr (case.payload driver)) (Notice.nag case driver).name
      (Notice.nag case driver).copyLength := by
  obtain ⟨name, day⟩ := @Notice.driver_fields case driver repr
  refine ⟨"Fristenwaechter: Sperrvorgang fuer ".toList,
    " noch offen. Frist ".toList ++ orDash (germanDay case.deadlineAt) ++
      ". Bitte im Portal klaeren.".toList, ?_, by decide, ?_, ?_⟩
  · change _ ++ g repr _ "driver_name" dash ++ _ ++ g repr _ "deadline" dash ++ _ = _
    rw [name, day]
    simp only [List.append_assoc]
    rfl
  · refine plain_append.mpr ⟨plain_append.mpr ⟨by decide, ?_⟩, by decide⟩
    exact orDash_plain (germanDay_plain case.deadlineAt)
  · simp [Notice.copyLength, Notice.day]
    omega

theorem smsEscalationBreached_framed (case : EscalationCase) (driver : Option Driver) :
    Framed (smsEscalationBreached repr (case.payload driver)) (Notice.breached case driver).name
      (Notice.breached case driver).copyLength := by
  obtain ⟨name, -⟩ := @Notice.driver_fields case driver repr
  refine ⟨"Fristenwaechter: FRIST ABGELAUFEN fuer ".toList,
    ". Fahrer bleibt ".toList ++
      "gesperrt. Haftungsrisiko §21 StVG. Bitte umgehend handeln.".toList,
    ?_, by decide, by decide, by simp [Notice.copyLength]⟩
  change _ ++ g repr _ "driver_name" dash ++ _ ++ _ = _
  rw [name]
  simp only [List.append_assoc]
  rfl

/-- The wording of a notch is plain and has a fixed length around the day. -/
theorem smsWhen_dueWording (due : Str) (plain : Plain due) (display : Int) :
    Plain (smsWhen due (dueWording display)) ∧
      (smsWhen due (dueWording display)).length + 44 =
        (if display = 0 then 60 else if display < 0 then 62
          else 64 + (decimalInt display).length) + due.length := by
  have digits : Plain (decimalInt display) := by
    unfold decimalInt
    split
    · exact List.forall_mem_cons.mpr ⟨by decide, decimal_plain _⟩
    · exact decimal_plain _
  unfold dueWording
  split
  · next late =>
      rw [smsWhen_overdue, if_neg (ne_of_lt late)]
      refine ⟨plain_append.mpr ⟨by decide, plain⟩, ?_⟩
      simp
      omega
  · split
    · rw [smsWhen_today]
      refine ⟨plain_append.mpr ⟨plain_append.mpr ⟨by decide, plain⟩, by decide⟩, ?_⟩
      simp
      omega
    · rw [smsWhen_left]
      refine ⟨plain_append.mpr ⟨plain_append.mpr ⟨plain_append.mpr ⟨plain_append.mpr
        ⟨by decide, digits⟩, by decide⟩, plain⟩, by decide⟩, ?_⟩
      simp
      omega

theorem smsReminder_framed (kind name due : Str) (kindPlain : Plain kind) (duePlain : Plain due)
    (display : Int) :
    Framed (smsReminder kind name due (dueWording display)) name
      ((if display = 0 then 60 else if display < 0 then 62
        else 64 + (decimalInt display).length) + kind.length + due.length) := by
  obtain ⟨whenPlain, whenLength⟩ := smsWhen_dueWording due duePlain display
  refine ⟨"Fristenwaechter: ".toList ++ kind ++ " fuer ".toList,
    " ".toList ++ smsWhen due (dueWording display) ++ ". Details im Portal.".toList, ?_, ?_, ?_, ?_⟩
  · unfold smsReminder
    simp only [List.append_assoc]
  · exact plain_append.mpr ⟨plain_append.mpr ⟨by decide, kindPlain⟩, by decide⟩
  · exact plain_append.mpr ⟨plain_append.mpr ⟨by decide, whenPlain⟩, by decide⟩
  · simp
    omega

/-- The SMS of a notice keeps to 160 characters without umlauts exactly when the name it
shows has no umlaut and leaves room for the copy around it. -/
theorem sms_limits_iff (notice : Notice) :
    ∃ body, renderSms repr notice.template notice.payload = some body ∧
      (body.length ≤ smsMaxLen ∧ Plain body ↔
        Plain notice.name ∧ notice.name.length + notice.copyLength ≤ smsMaxLen) := by
  cases notice with
  | failed driver deadline =>
      exact ⟨_, rfl, (smsFskFailed_framed repr driver deadline).limits⟩
  | nag case driver => exact ⟨_, rfl, (smsEscalationNag_framed repr case driver).limits⟩
  | breached case driver =>
      exact ⟨_, rfl, (smsEscalationBreached_framed repr case driver).limits⟩
  | reminder deadline today token display chosen driver vehicle =>
      refine ⟨_, renderSms_reminder repr, (smsReminder_framed deadline.kind.label _ _
        (label_plain _) (Notice.day_plain _) display).limits⟩

def umlautNotice : Notice :=
  .failed ⟨⟨1⟩, ⟨2⟩, "Jürgen".toList, "Groß".toList, none, none, none, true, none, none, 1⟩ 0

theorem sms_with_umlauts :
    ¬ ∃ body, renderSms Json.dumps umlautNotice.template umlautNotice.payload = some body ∧
      body.length ≤ smsMaxLen ∧ Plain body := by
  rintro ⟨body, rendered, -, plain⟩
  have same : renderSms Json.dumps umlautNotice.template umlautNotice.payload =
      some (smsFskFailed Json.dumps umlautNotice.payload) := rfl
  obtain rfl := Option.some.inj (same.symm.trans rendered)
  exact plain 'ü' (by decide +kernel) (by decide)

end Fristenwaechter
