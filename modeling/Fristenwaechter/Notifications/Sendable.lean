import Mathlib.Tactic.Ring
import Fristenwaechter.Lockout.Safety
import Fristenwaechter.Notifications.Identity
import Fristenwaechter.Notifications.Recorded

/-!
Owns what can go wrong with a message in the outbox: its template has a renderer, the
company in its payload is one that `uuid.UUID` reads, and its key is as ASCII as the address
it goes to, so its send crashes the cycle for that address or for the answer of Brevo only.
-/

namespace Fristenwaechter

open Library (Config Discipline Reachable Sound Table)

/-! ### UUIDs -/

theorem hexValue_digitChar {digit : Nat} (small : digit < 16) :
    hexValue (Nat.digitChar digit) = some digit := by
  have all : ∀ digit < 16, hexValue (Nat.digitChar digit) = some digit := by decide
  exact all digit small

theorem digits_are_hex {width n : Nat} {c : Char} (member : c ∈ digits 16 width n) :
    ∃ digit < 16, c = Nat.digitChar digit := by
  induction width generalizing n with
  | zero => cases member
  | succ width inductionHypothesis =>
      rcases List.mem_append.mp member with high | low
      · exact inductionHypothesis high
      · exact ⟨n % 16, Nat.mod_lt _ (by decide), List.mem_singleton.mp low⟩

theorem digits_append (high low n : Nat) :
    digits 16 high (n / 16 ^ low) ++ digits 16 low n = digits 16 (high + low) n := by
  induction low generalizing n with
  | zero => simp [digits]
  | succ low inductionHypothesis =>
      have split : n / 16 ^ (low + 1) = n / 16 / 16 ^ low := by
        rw [Nat.div_div_eq_div_mul, Nat.pow_succ']
      rw [digits, split, ← List.append_assoc, inductionHypothesis, Nat.add_succ, digits]

theorem foldlM_digits (width n value : Nat) :
    (digits 16 width n).foldlM (fun value c => (hexValue c).map (value * 16 + ·)) value =
      some (value * 16 ^ width + n % 16 ^ width) := by
  induction width generalizing n with
  | zero => simp [digits, Nat.mod_one]
  | succ width inductionHypothesis =>
      have digit := hexValue_digitChar (Nat.mod_lt n (by decide : 0 < 16))
      rw [digits, List.foldlM_append, inductionHypothesis]
      simp only [List.foldlM_cons, List.foldlM_nil, digit, Option.map_some, Option.bind_eq_bind,
        Option.bind_some, Option.pure_def, Option.some.injEq]
      rw [Nat.pow_succ', Nat.mod_mul]
      ring

theorem erased_of_notMem {first : Char} {pattern text : Str} (free : first ∉ text) (bound : Nat) :
    erased (first :: pattern) bound text = text := by
  induction text generalizing bound with
  | nil => cases bound <;> rfl
  | cons c rest inductionHypothesis =>
      obtain ⟨other, later⟩ := not_or.mp (mt List.mem_cons.mpr free)
      cases bound with
      | zero => rfl
      | succ bound =>
          have noPrefix : ((first :: pattern).isPrefixOf (c :: rest)) = false := by
            simp [List.isPrefixOf, other]
          rw [erased, noPrefix, inductionHypothesis later]
          rfl

/-- The characters of a printed UUID: hexadecimal digits and hyphens. -/
theorem Uuid.text_chars {id : Uuid} {c : Char} (member : c ∈ id.text) :
    c = '-' ∨ ∃ digit < 16, c = Nat.digitChar digit := by
  simp only [Uuid.text, List.mem_append, List.mem_cons] at member
  rcases member with hex | hyphen | hex | hyphen | hex | hyphen | hex | hyphen | hex
  all_goals first | exact .inl hyphen | exact .inr (digits_are_hex hex)

theorem Uuid.text_free {id : Uuid} {c : Char} (noHyphen : c ≠ '-')
    (noDigit : ∀ digit < 16, c ≠ Nat.digitChar digit) : c ∉ id.text := by
  intro member
  rcases Uuid.text_chars member with hyphen | ⟨digit, small, same⟩
  · exact noHyphen hyphen
  · exact noDigit digit small same

theorem Uuid.stripBraces_text (id : Uuid) : stripBraces id.text = id.text := by
  have plain : ∀ c ∈ id.text, (c.toNat = 123 || c.toNat = 125) = false := by
    intro c member
    rcases Uuid.text_chars member with rfl | ⟨digit, small, rfl⟩
    · decide
    · have all : ∀ digit < 16, ((Nat.digitChar digit).toNat = 123 ||
          (Nat.digitChar digit).toNat = 125) = false := by decide
      exact all digit small
  have stays : ∀ text : Str, (∀ c ∈ text, (c.toNat = 123 || c.toNat = 125) = false) →
      text.dropWhile (fun c => c.toNat = 123 || c.toNat = 125) = text := by
    intro text plain
    cases text with
    | nil => rfl
    | cons c rest =>
        rw [List.dropWhile_cons_of_neg]
        rw [plain c List.mem_cons_self]
        exact Bool.false_ne_true
  rw [stripBraces]
  rw [stays id.text plain, stays id.text.reverse fun c member =>
    plain c (List.mem_reverse.mp member), List.reverse_reverse]

theorem Uuid.filter_text (id : Uuid) :
    id.text.filter (· ≠ '-') = digits 16 32 id.bits.toNat := by
  have kept : ∀ width n, (digits 16 width n).filter (· ≠ '-') = digits 16 width n := by
    intro width n
    refine List.filter_eq_self.mpr fun c member => ?_
    obtain ⟨digit, small, rfl⟩ := digits_are_hex member
    have all : ∀ digit < 16, decide (Nat.digitChar digit ≠ '-') = true := by decide
    exact all digit small
  have hyphen : ∀ text : Str, ('-' :: text).filter (· ≠ '-') = text.filter (· ≠ '-') :=
    fun text => rfl
  -- the five groups are the digits of the whole
  simp only [Uuid.text, List.filter_append, hyphen, kept]
  generalize id.bits.toNat = n
  have fourth : digits 16 4 (n / 16 ^ 12) ++ digits 16 12 n = digits 16 16 n := digits_append ..
  have third : digits 16 4 (n / 16 ^ 16) ++ digits 16 16 n = digits 16 20 n := digits_append ..
  have second : digits 16 4 (n / 16 ^ 20) ++ digits 16 20 n = digits 16 24 n := digits_append ..
  have first : digits 16 8 (n / 16 ^ 24) ++ digits 16 24 n = digits 16 32 n := digits_append ..
  rw [fourth, third, second, first]

/-- **A UUID** is read back from its text. -/
theorem Uuid.parse_text (id : Uuid) : Uuid.parse id.text = some id := by
  have noU : 'u' ∉ id.text := Uuid.text_free (by decide) (by decide)
  have bare : erased "uuid:".toList id.text.length
      (erased "urn:".toList id.text.length id.text) = id.text := by
    change erased ('u' :: _) _ (erased ('u' :: _) _ _) = _
    rw [erased_of_notMem noU, erased_of_notMem noU]
  rw [Uuid.parse]
  simp only [bare, Uuid.stripBraces_text, Uuid.filter_text, digits_length, foldlM_digits]
  have small : id.bits.toNat % 16 ^ 32 = id.bits.toNat :=
    Nat.mod_eq_of_lt (id.bits.isLt.trans_eq (by decide))
  change some (Uuid.mk (BitVec.ofNat 128 (0 * 16 ^ 32 + id.bits.toNat % 16 ^ 32))) = some id
  rw [small, Nat.zero_mul, Nat.zero_add, BitVec.ofNat_toNat, BitVec.setWidth_eq]

/-! ### The gate -/

theorem monthStartInstant_isSome {now : Instant} {today : Date}
    (isDay : berlinDate now = some today) :
    (monthStartInstant now).isSome = true := by
  obtain ⟨yearFrom, yearTo, monthFrom, monthTo, dayFrom, dayTo⟩ := today.valid
  have first : IsDate today.year today.month 1 :=
    ⟨yearFrom, yearTo, monthFrom, monthTo, le_refl 1, dayFrom.trans dayTo⟩
  rw [monthStartInstant, isDay]
  simp [Date.of?, first]

/-- A payload without a company, or with one that is read back. -/
def NamesCompany (payload : Payload) : Prop :=
  payload.lookup "company_id".toList = none ∨
    ∃ id : Uuid, payload.lookup "company_id".toList = some (.str id.text)

theorem Notice.namesCompany (notice : Notice) : NamesCompany notice.payload := by
  cases notice with
  | failed driver deadline => exact .inl rfl
  | nag case driver => exact .inr ⟨case.companyId, rfl⟩
  | breached case driver => exact .inr ⟨case.companyId, rfl⟩
  | reminder deadline => exact .inr ⟨deadline.companyId, rfl⟩

theorem Notice.sms_rendered (notice : Notice) : notice.template ∈ smsTemplates := by
  cases notice with
  | failed => exact List.mem_cons_self
  | nag => exact .tail _ List.mem_cons_self
  | breached => exact .tail _ (.tail _ List.mem_cons_self)
  | reminder => exact .tail _ (.tail _ (.tail _ List.mem_cons_self))

theorem Notice.gate_ne_raise (notice : Notice) {cap : Nat} {committed : Db} {now : Instant}
    {today : Date} (isDay : berlinDate now = some today) :
    SevenGate.send cap committed now notice.template notice.payload ≠ .raise := by
  have posts : Fristenwaechter.rendered notice.template = .post := if_pos notice.sms_rendered
  obtain ⟨month, isMonth⟩ := Option.isSome_iff_exists.mp (monthStartInstant_isSome isDay)
  unfold SevenGate.send
  split
  · simp [posts]
  · rcases notice.namesCompany with unnamed | ⟨id, named⟩
    · rw [unnamed, posts]
      exact SevenGate.noConfusion
    · rw [named]
      simp only [Uuid.ofJson, Uuid.parse_text, overLimit, isMonth, Option.map_some]
      split
      · rename_i other
        cases other
      · simp
      · simp [posts]

/-! ### Keys -/

@[simp] theorem isAscii_nil : isAscii [] = true :=
  rfl

theorem isAscii_append (front back : Str) :
    isAscii (front ++ back) = (isAscii front && isAscii back) := by
  simp [isAscii]

theorem isAscii_cons (c : Char) (rest : Str) :
    isAscii (c :: rest) = (decide (c.toNat < 128) && isAscii rest) :=
  rfl

theorem isAscii_digits {base : Nat} (positive : 0 < base) (small : base ≤ 16) (width n : Nat) :
    isAscii (digits base width n) = true := by
  have all : ∀ digit < 16, isAscii [Nat.digitChar digit] = true := by decide
  induction width generalizing n with
  | zero => rfl
  | succ width inductionHypothesis =>
      rw [digits, isAscii_append, inductionHypothesis,
        all _ ((Nat.mod_lt n positive).trans_le small)]
      rfl

theorem isAscii_decimal (n : Nat) : isAscii (decimal n) = true := by
  refine List.all_eq_true.mpr fun c member => decide_eq_true ?_
  have isDigit := decimal_isDigit member
  simp only [Char.isDigit, Bool.and_eq_true, decide_eq_true_eq] at isDigit
  have upper : c.val.toNat ≤ 57 := isDigit.2
  exact upper.trans_lt (by decide)

theorem Uuid.isAscii_text (id : Uuid) : isAscii id.text = true := by
  simp [Uuid.text, isAscii_append, isAscii_cons, isAscii_digits]

theorem ReminderToken.isAscii {token : Str} (isToken : ReminderToken token) :
    isAscii token = true := by
  obtain ⟨_, _, _, notch⟩ := isToken
  rcases notch_cases notch with ⟨n, _, rfl, _⟩ | ⟨_, rfl⟩
  · exact isAscii_decimal n
  · simp [isAscii_append, isAscii_cons, isAscii_decimal, isAscii_digits, twoDigits]

/-- Of a key only the address can be other than ASCII. -/
theorem Occasion.isAscii_key (occasion : Occasion) (contact : OutboxChannel × Str) :
    isAscii (occasion.key contact) = isAscii contact.2 := by
  have event : isAscii occasion.event = true := by
    cases occasion with
    | failed triggerCheckId => simp [event, isAscii_cons, Uuid.isAscii_text]
    | breached caseId =>
        simp [event, breachedEvent, isAscii_append, isAscii_cons, Uuid.isAscii_text]
    | nagged caseId today =>
        simp [event, nagEvent, Date.isoformat, twoDigits, isAscii_append, isAscii_cons,
          isAscii_digits, Uuid.isAscii_text]
    | reminded deadlineId token isToken =>
        simp [event, reminderEvent, isAscii_append, isAscii_cons, Uuid.isAscii_text,
          isToken.isAscii]
  have channel : isAscii contact.1.text = true := by cases contact.1 <;> decide
  rw [occasion.key_eq, contactKey]
  simp [isAscii_append, isAscii_cons, event, channel]

/-! ### Sends -/

section Sends

variable {repr : Json → Str} {baseUrl : Str} {cap : Nat} {committed : Db} {now : Instant}
variable {row : OutboxMessage} {posted : Posted}

/-- Brevo has accepted the message with a body that is JSON but not an object. -/
def Posted.Unreadable (posted : Posted) : Prop :=
  ∃ response value, posted = .ok response ∧ response.status / 100 = 2 ∧
    response.json = some value ∧ ∀ members, value ≠ .obj members

theorem brevoAnswer_crashes_iff {response : HttpResponse} {key : Str} :
    brevoAnswer repr response key = .crashed ↔
      response.status / 100 = 2 ∧ ∃ value, response.json = some value ∧
        ∀ members, value ≠ .obj members := by
  unfold brevoAnswer
  by_cases success : response.status / 100 = 2
  · rw [if_neg (not_not.mpr success)]
    cases body : response.json with
    | none => simp
    | some value =>
        cases value with
        | obj members => simp
        | _ => simp [success]
  · simp [success]

theorem sevenAnswer_ne_crashed {response : HttpResponse} {key : Str} :
    sevenAnswer repr response key ≠ .crashed := by
  unfold sevenAnswer
  split
  · simp
  · split
    · simp
    · split <;> simp
    · simp

theorem brevoSend_crashes_iff {template key : Str} {payload : Payload} {mail : EmailContent}
    (rendered : renderEmail repr template payload baseUrl = some mail) :
    brevoSend repr baseUrl template payload key posted = .crashed ↔
      isAscii key = false ∨ posted.Unreadable := by
  cases carried : isAscii key with
  | false => simp [brevoSend, rendered, carried]
  | true =>
      simp only [brevoSend, rendered, carried, Bool.not_true, Bool.false_eq_true, if_false,
        Bool.true_eq_false, false_or]
      cases posted with
      | error text => simp [Posted.Unreadable]
      | ok response =>
          simp only [brevoAnswer_crashes_iff, Posted.Unreadable, Except.ok.injEq]
          constructor
          · rintro ⟨success, value, body, noObject⟩
            exact ⟨response, value, rfl, success, body, noObject⟩
          · rintro ⟨_, value, rfl, success, body, noObject⟩
            exact ⟨success, value, body, noObject⟩

/-- The send of a notice under the key of its contact crashes exactly where the address is
not ASCII or Brevo's answer cannot be read. -/
theorem send_crashes_iff (noticed : (Write.insertOutbox row).IsNotice) {occasion : Occasion}
    (tells : row.Tells occasion) {today : Date} (isDay : berlinDate now = some today) :
    row.send repr baseUrl cap committed now posted = .crashed ↔
      row.channel = .email ∧ (isAscii row.recipient = false ∨ posted.Unreadable) := by
  obtain ⟨notice, template, payload⟩ := noticed
  unfold OutboxMessage.send
  cases channel : row.channel with
  | email =>
      obtain ⟨mail, rendered⟩ := notice.rendered repr baseUrl
      rw [template, payload, brevoSend_crashes_iff rendered, tells.key, occasion.isAscii_key]
      simp
  | sms =>
      have passes := @Notice.gate_ne_raise notice cap committed _ _ isDay
      rw [← template, ← payload] at passes
      simp only [reduceCtorEq, false_and, iff_false]
      unfold sevenSend
      split
      · rename_i raises
        exact absurd raises passes
      · simp
      · simp
      · exact sevenAnswer_ne_crashed

end Sends

/-! ### Runs -/

/-- Every message in the outbox is a notice. -/
def Db.Noticed (db : Db) : Prop :=
  ∀ row ∈ db.outbox, (Write.insertOutbox row).IsNotice

theorem Db.Noticed.write {db : Db} {write : Write} (notice : write.IsNotice)
    (noticed : db.Noticed) : (write.apply db).Noticed := by
  cases write with
  | insertOutbox new =>
      intro row member
      rcases Table.mem_insert.mp member with old | ⟨rfl, _⟩
      · exact noticed row old
      · exact notice
  | updateOutbox loaded current =>
      intro row member
      obtain ⟨before, inDb, rfl⟩ := (Table.mem_update (by simp)).mp member
      obtain ⟨told, template, payload⟩ := noticed before inDb
      refine ⟨told, ?_, ?_⟩
      · split <;> exact template
      · split <;> exact payload
  | deleteOutbox ids => exact fun row member => noticed row (Table.mem_remove.mp member).1
  | _ => exact noticed

theorem Db.Noticed.after {db : Db} {writes : List Write}
    (notices : ∀ write ∈ writes, write.IsNotice) (noticed : db.Noticed) :
    (db.after writes).Noticed := by
  induction writes generalizing db with
  | nil => exact noticed
  | cons write rest inductionHypothesis =>
      rw [Db.after_cons]
      exact inductionHypothesis (fun other member => notices other (List.mem_cons_of_mem _ member))
        (noticed.write (notices write List.mem_cons_self))

section Runs

variable {sha256 : Str → Str} {validateKennzeichen : Str → Option Str}

theorem request_stages_notices {request : Request} {world : World}
    {outcome : Except Error Outcome} {after : Session}
    (ended : (system sha256 validateKennzeichen).Ends
      ((system sha256 validateKennzeichen).program request)
      ((system sha256 validateKennzeichen).opening world request) outcome after) :
    OnlyEver Write.IsNotice after := by
  by_cases relay : request = .relayOutbox
  · subst relay
    refine only_transaction (only_then (only_relayOutbox (fun _ _ => trivial) fun _ _ _ => trivial)
      fun _ => only_pure _) _ _ _ ended (.opening _ _)
  · exact request_notices relay _ _ _ ended (.opening _ _)

theorem noticeDiscipline :
    Discipline (system sha256 validateKennzeichen) .unrestricted readCommitted
      (fun world => world.db.Noticed) fun _ _ => True where
  refl _ := trivial
  trans _ _ := trivial
  advance noticed _ := ⟨noticed, trivial⟩
  commit commits := ⟨commits.nowInv.after (request_stages_notices commits.ends).writes, trivial⟩

/-- **What poisons the relay.** In every state of every run, the send of any message that
stands in the outbox crashes in two cases only: it is an email to an address that is not
ASCII, or Brevo has accepted an email and answers with JSON that is no object. -/
theorem outbox_poisoned_iff {world : World} (noticed : world.db.Noticed)
    (identified : world.db.Identified)
    {config : Config World Memory Connection Statement Answer Env Error Request Outcome}
    (reached : Reachable (system sha256 validateKennzeichen) .unrestricted ⟨world, [], []⟩ config)
    {row : OutboxMessage} (member : row ∈ config.world.db.outbox) (repr : Json → Str)
    (baseUrl : Str) (cap : Nat) (committed : Db) (posted : Posted) {now : Instant} {today : Date}
    (isDay : berlinDate now = some today) :
    row.send repr baseUrl cap committed now posted = .crashed ↔
      row.channel = .email ∧ (isAscii row.recipient = false ∨ posted.Unreadable) := by
  have laws := system_laws sha256 validateKennzeichen
  have isNotice := (Sound.reachable laws noticeDiscipline (Sound.quiet noticed) reached).1.inv row
    member
  obtain ⟨occasion, tells⟩ := (Sound.reachable laws
    (identityDiscipline sha256 validateKennzeichen) (Sound.quiet identified) reached).1.inv row
      member
  exact send_crashes_iff isNotice tells isDay

end Runs

/-- The email of a FAILED check, to an address in ASCII: an answer that is a list crashes its
send, and no answer does. -/
theorem outbox_poisoned_iff_failed :
    ∃ config, (system id some).schedule ⟨fleetWorld, [], []⟩
        (.start (fleetCheck "FAILED".toList) :: fleetRun 0 1 46 ++ [.finish 0]) = some config ∧
      ∃ row ∈ config.world.db.outbox,
        row.send Json.dumps [] 0 Db.empty 0 (.ok ⟨201, [], some (.list [])⟩) = .crashed ∧
        row.send Json.dumps [] 0 Db.empty 0 (.error []) ≠ .crashed := by
  have found : (((system id some).schedule ⟨fleetWorld, [], []⟩
      (.start (fleetCheck "FAILED".toList) :: fleetRun 0 1 46 ++ [.finish 0])).any
        fun config => config.world.db.outbox.rows.any fun row =>
          decide (row.channel = .email) && isAscii row.recipient) = true := by decide +kernel
  obtain ⟨config, ran, stands⟩ := (Option.any_eq_true _ _).mp found
  obtain ⟨row, member, both⟩ := List.any_eq_true.mp stands
  obtain ⟨isEmail, plain⟩ := (Bool.and_eq_true _ _).mp both
  have crashes := fun posted => @outbox_poisoned_iff id some fleetWorld
    (fun row inside => absurd inside List.not_mem_nil)
    (fun row inside => absurd inside List.not_mem_nil) config (Reachable.of_schedule ran) row member
    Json.dumps [] 0 Db.empty posted 0 _ (rfl : berlinDate 0 = some ⟨1970, 1, 1, by decide⟩)
  refine ⟨config, ran, row, member, (crashes _).mpr ⟨of_decide_eq_true isEmail, .inr ?_⟩, ?_⟩
  · exact ⟨_, .list [], rfl, by decide, rfl, fun members => Json.noConfusion⟩
  · intro crashed
    rcases ((crashes _).mp crashed).2 with foreign | ⟨_, _, other, _⟩
    · rw [plain] at foreign
      cases foreign
    · cases other

end Fristenwaechter
