import Fristenwaechter.Notifiers.Budget
import Fristenwaechter.Relay.Outbox

/-!
Owns the count of sent SMS over whole runs, as the budget gate and the settings page read
it, against the SMS the provider has accepted. The relay marks a suppressed SMS like a
delivered one, and marks at its own clock.
-/

namespace Fristenwaechter

open Library (Chain Commits Config Discipline Engine Ended Journal Over Policy Reachable Sound
  Table)

/-! ### The counters -/

/-- `_sms_used` of the settings page. -/
def smsUsed (db : Db) (now : Instant) (companyId : Uuid) : Option Nat :=
  (monthStartInstant now).map fun monthStart => db.smsSent companyId monthStart

def Sent.isSmsOf (entry : Sent) (companyId : Uuid) : Bool :=
  match entry.statement with
  | .deliver row => row.companyId = companyId && row.channel = .sms
  | _ => false

/-- The send passes the gate: the message reaches the provider. -/
def Sent.posts (entry : Sent) (cap : Nat) : Bool :=
  match entry.statement with
  | .deliver row => entry.gate cap row = .post
  | _ => false

def Sent.returns (entry : Sent) : Bool :=
  match entry.statement, entry.env.delivery with
  | .deliver _, .delivered _ => true
  | _, _ => false

/-- The provider has accepted an SMS of the company. -/
def Sent.accepted (entry : Sent) (cap : Nat) (companyId : Uuid) : Bool :=
  entry.isSmsOf companyId && entry.returns && entry.posts cap

def Done.isCommittedCycle (done : Done) : Bool :=
  done.isCommitted && done.isCycle

def cycleStatements (history : List Done) : List Sent :=
  (history.filter Done.isCommittedCycle).flatMap fun done => done.transaction.trace

/-- How many SMS of the company the provider has accepted since the instant, in committed
cycles. -/
def acceptedSms (cap : Nat) (companyId : Uuid) (since : Instant) (history : List Done) : Nat :=
  (cycleStatements history).countP fun entry =>
    entry.accepted cap companyId && since ≤ entry.env.now

/-- The sends that return, each with the instant the relay reads behind it. -/
def stamps : List Sent → List (Sent × Instant)
  | send :: clock :: rest =>
      if send.returns then (send, clock.env.now) :: stamps rest else stamps (clock :: rest)
  | _ => []

/-- The SMS of the company that the committed cycles mark as sent. -/
def markedSms (companyId : Uuid) (history : List Done) : List (Sent × Instant) :=
  (history.filter Done.isCommittedCycle).flatMap fun done =>
    (stamps done.transaction.trace).filter fun marked => marked.1.isSmsOf companyId

theorem countP_eq_iff {Item : Type} {first second : Item → Bool} {items : List Item}
    (implies : ∀ item ∈ items, first item = true → second item = true) :
    items.countP second = items.countP first ↔
      ∀ item ∈ items, second item = true → first item = true := by
  induction items with
  | nil => simp
  | cons item rest inductionHypothesis =>
      have restImplies : ∀ other ∈ rest, first other = true → second other = true :=
        fun other member => implies other (List.mem_cons_of_mem _ member)
      have fewer : rest.countP first ≤ rest.countP second := List.countP_mono_left restImplies
      rw [List.forall_mem_cons, ← inductionHypothesis restImplies, List.countP_cons,
        List.countP_cons]
      by_cases isFirst : first item = true
      · simp [isFirst, implies item List.mem_cons_self isFirst]
      · by_cases isSecond : second item = true
        · rw [if_pos isSecond, if_neg isFirst]
          constructor
          · intro same
            omega
          · rintro ⟨agrees, _⟩
            exact absurd (agrees isSecond) isFirst
        · simp [isFirst, isSecond]

/-! ### Stamps of a trace -/

theorem stamps_skip {send : Sent} {rest : List Sent} (silent : send.returns = false) :
    stamps (send :: rest) = stamps rest := by
  cases rest with
  | nil => rfl
  | cons clock rest =>
      rw [stamps, silent]
      rfl

theorem stamps_silent {entries more : List Sent}
    (silent : ∀ entry ∈ entries, entry.returns = false) :
    stamps (entries ++ more) = stamps more := by
  induction entries with
  | nil => rfl
  | cons entry rest inductionHypothesis =>
      rw [List.cons_append, stamps_skip (silent entry List.mem_cons_self)]
      exact inductionHypothesis fun other member => silent other (List.mem_cons_of_mem _ member)

theorem stamps_nil {entries : List Sent} (silent : ∀ entry ∈ entries, entry.returns = false) :
    stamps entries = [] := by
  simpa [stamps] using @stamps_silent entries [] silent

theorem stamps_sublist {entries : List Sent} {marked : Sent × Instant}
    (member : marked ∈ stamps entries) :
    marked.1.returns = true ∧
      ∃ clock, marked.2 = clock.env.now ∧ [marked.1, clock].Sublist entries := by
  induction entries using stamps.induct with
  | case1 send clock rest returns inductionHypothesis =>
      rw [stamps, if_pos returns] at member
      rcases List.mem_cons.mp member with rfl | member
      · exact ⟨returns, clock, rfl, ((List.nil_sublist rest).cons_cons clock).cons_cons send⟩
      · obtain ⟨isSend, other, same, inside⟩ := inductionHypothesis member
        exact ⟨isSend, other, same, (inside.cons clock).cons send⟩
  | case2 send clock rest silent inductionHypothesis =>
      rw [stamps, if_neg silent] at member
      obtain ⟨isSend, other, same, inside⟩ := inductionHypothesis member
      exact ⟨isSend, other, same, inside.cons send⟩
  | case3 entries short =>
      rw [stamps.eq_def] at member
      split at member
      · exact absurd rfl (short _ _ _)
      · cases member

theorem returns_of_statement {entry : Sent} (other : ∀ row, entry.statement ≠ .deliver row) :
    entry.returns = false := by
  unfold Sent.returns
  split
  · rename_i row messageId isSend isDelivered
    exact absurd isSend (other row)
  · rfl

section Rows

variable {row : OutboxMessage} {rows : List OutboxMessage} {entries more : List Sent}
variable {writes : List Write}

/-- A row counts from its stamp on. -/
def OutboxMessage.sentSmsOf (companyId : Uuid) (since : Instant) (row : OutboxMessage) : Bool :=
  row.companyId = companyId && row.channel = .sms &&
    row.sentAt.any fun sentAt => since ≤ sentAt

theorem OutboxMessage.sentSmsOf_unsent {row : OutboxMessage} (unsent : row.sentAt = none)
    (companyId : Uuid) (since : Instant) : row.sentSmsOf companyId since = false := by
  simp [OutboxMessage.sentSmsOf, unsent]

/-- A send that returns is stamped by the clock that is read behind it; another one leaves
the row unsent. -/
theorem RelaysRow.stamp (relays : RelaysRow row entries writes) :
    (∃ send now messageId, entries = [send, now] ∧ send.statement = .deliver row ∧
        Sent.returns send = true ∧ Sent.returns now = false ∧
        writes = [.updateOutbox row
          { row with sentAt := some now.env.now, providerMessageId := some messageId }]) ∨
      (∀ entry ∈ entries, Sent.returns entry = false) ∧
        (row.sentAt = none → ∀ companyId since,
          writes.countP (Write.turns (OutboxMessage.sentSmsOf companyId since)) = 0) := by
  cases relays with
  | delivered send now asked timed messageId outcome =>
      exact .inl ⟨send, now, messageId, rfl, asked, by simp [Sent.returns, asked, outcome],
        returns_of_statement (by simp [timed]), rfl⟩
  | refused send now asked timed error outcome delay inRange =>
      refine .inr ⟨fun entry member => ?_, fun unsent companyId since => ?_⟩
      · rcases List.mem_pair.mp member with rfl | rfl
        · simp [Sent.returns, outcome]
        · exact returns_of_statement (by simp [timed])
      · simp [Write.turns, OutboxMessage.sentSmsOf, OutboxMessage.changed, OutboxMessage.failed,
          unsent]
  | exhausted send now alert asked timed drawn error outcome spent =>
      refine .inr ⟨fun entry member => ?_, fun unsent companyId since => ?_⟩
      · rcases List.mem_cons.mp member with rfl | member
        · simp [Sent.returns, outcome]
        · rcases List.mem_pair.mp member with rfl | rfl
          · exact returns_of_statement (by simp [timed])
          · exact returns_of_statement (by simp [drawn])
      · simp [Write.turns, OutboxMessage.sentSmsOf, OutboxMessage.changed, OutboxMessage.failed,
          unsent]

theorem RelaysRow.stamps_append (relays : RelaysRow row entries writes) :
    stamps (entries ++ more) = stamps entries ++ stamps more := by
  obtain ⟨send, now, _, rfl, _, returns, _⟩ | ⟨silent, _⟩ := relays.stamp
  · simp [stamps, returns]
  · rw [stamps_silent silent, stamps_nil silent, List.nil_append]

theorem RelaysRow.counts (relays : RelaysRow row entries writes) (unsent : row.sentAt = none)
    (companyId : Uuid) (since : Instant) :
    writes.countP (Write.turns (OutboxMessage.sentSmsOf companyId since)) =
      (stamps entries).countP fun marked =>
        marked.1.isSmsOf companyId && since ≤ marked.2 := by
  obtain ⟨send, now, messageId, rfl, asked, returns, _, rfl⟩ | ⟨silent, none⟩ := relays.stamp
  · simp [stamps, returns, Write.turns, OutboxMessage.sentSmsOf, OutboxMessage.changed,
      Sent.isSmsOf, asked, unsent, column]
  · rw [none unsent, stamps_nil silent, List.countP_nil]

theorem Relays.stamps_append (relays : Relays rows entries writes) :
    stamps (entries ++ more) = stamps entries ++ stamps more := by
  induction relays with
  | nil => rfl
  | cons first others inductionHypothesis =>
      rw [List.append_assoc, first.stamps_append, first.stamps_append, inductionHypothesis,
        List.append_assoc]

theorem Relays.counts (relays : Relays rows entries writes)
    (unsent : ∀ row ∈ rows, row.sentAt = none) (companyId : Uuid) (since : Instant) :
    writes.countP (Write.turns (OutboxMessage.sentSmsOf companyId since)) =
      (stamps entries).countP fun marked =>
        marked.1.isSmsOf companyId && since ≤ marked.2 := by
  induction relays with
  | nil => rfl
  | cons first others inductionHypothesis =>
      rw [List.countP_append, first.stamps_append, List.countP_append,
        first.counts (unsent _ List.mem_cons_self),
        inductionHypothesis fun row member => unsent row (List.mem_cons_of_mem _ member)]

theorem Relays.stamped (relays : Relays rows entries writes) :
    (stamps entries).map Prod.fst = entries.filter Sent.returns := by
  induction relays with
  | nil => rfl
  | cons first others inductionHypothesis =>
      rw [first.stamps_append, List.map_append, inductionHypothesis, List.filter_append]
      congr 1
      obtain ⟨send, now, _, rfl, _, returns, silent, _⟩ | ⟨silent, _⟩ := first.stamp
      · simp [stamps, returns, silent]
      · rw [stamps_nil silent,
          List.filter_eq_nil_iff.mpr fun entry member => by simp [silent entry member]]
        rfl

end Rows

/-! ### Whole runs -/

/-- What a committed cycle has done to its rows, and what it stamps. -/
structure Worked (done : Done) (entries : List Sent) (writes : List Write) : Prop where
  relays : Relays done.batch entries writes
  whole : Session.writes done.transaction = unitOfWork writes
  stamps : stamps done.transaction.trace = stamps entries
  returns : done.transaction.trace.filter Sent.returns = entries.filter Sent.returns

/-- Nothing is asked of the world but that its clock runs. -/
theorem clockDiscipline (sha256 : Str → Str) (validateKennzeichen : Str → Option Str)
    (policy : Policy World Memory Connection Statement Env Request) :
    Discipline (system sha256 validateKennzeichen) policy readCommitted (fun _ => True)
      fun earlier later => earlier.clock ≤ later.clock where
  refl _ := le_refl _
  trans := le_trans
  advance _ possible := ⟨trivial, le_of_lt (of_decide_eq_true possible)⟩
  commit _ := ⟨trivial, le_refl _⟩

section Runs

variable {sha256 : Str → Str} {validateKennzeichen : Str → Option Str}
variable {policy : Policy World Memory Connection Statement Env Request}
variable {Inv : World → Prop} {Later : World → World → Prop}
variable {now : World} {history : List Done} {done : Done}

theorem worked_of_over
    (concluded : Over (system sha256 validateKennzeichen) policy readCommitted Inv Later now done)
    (committedCycle : done.isCommittedCycle = true) :
    ∃ entries writes, Worked done entries writes := by
  obtain ⟨isCommitted, isCycle⟩ := Bool.and_eq_true_iff.mp committedCycle
  have isRelay : done.request = .relayOutbox := Done.isCycle_iff.mp isCycle
  obtain ⟨_, _, start, _, _, _, ends, _⟩ := concluded
  obtain ⟨result, isOk⟩ := committed_well isCommitted
  obtain ⟨middle, ran, executed⟩ := relayOutbox_ran (ends _ isOk) isRelay
  obtain ⟨clock, claim, timed, asked, ⟨entries, writes, _, relays, isMiddle⟩ | ⟨same, _⟩⟩ :=
    relayOutbox_ends rfl ran
  swap
  · cases same
  obtain ⟨executes, whole, all⟩ := executed.entries
  have trace : done.transaction.trace = [clock, claim] ++ (entries ++ executes) := by
    simp [whole, isMiddle, Session.opened]
  have clockSilent : Sent.returns clock = false :=
    returns_of_statement (by simp [timed.statement])
  have claimSilent : Sent.returns claim = false :=
    returns_of_statement (by simp [asked.statement])
  have executesSilent : ∀ entry ∈ executes, Sent.returns entry = false := by
    intro entry member
    obtain ⟨write, _, isExecute⟩ := all entry member
    exact returns_of_statement (by simp [isExecute])
  have nothing : ∀ entry ∈ entries ++ executes, Sent.ClaimsNothing entry := by
    intro entry member now limit
    rcases List.mem_append.mp member with own | other
    · exact relays.claimsNothing entry own now limit
    · obtain ⟨write, _, isExecute⟩ := all entry other
      simp [isExecute]
  have isBatch : done.batch = claim.dueMessages clock.env.now batchSize :=
    claimed_batch timed asked (by simp [trace, claimed, Session.opened]) nothing
  refine ⟨entries, writes, isBatch ▸ relays, ?_, ?_, ?_⟩
  · rw [executed.writes, isMiddle]
    simp
  · rw [trace, List.cons_append, List.cons_append, List.nil_append, stamps_skip clockSilent,
      stamps_skip claimSilent, relays.stamps_append, stamps_nil executesSilent, List.append_nil]
  · have none : executes.filter Sent.returns = [] :=
      List.filter_eq_nil_iff.mpr fun entry member => by simp [executesSilent entry member]
    simp [trace, clockSilent, claimSilent, none]

/-- A stamp is later than its send. -/
theorem stamp_later
    (concluded : Over (system sha256 validateKennzeichen) policy readCommitted Inv
      (fun earlier later => earlier.clock ≤ later.clock) now done)
    {marked : Sent × Instant} (member : marked ∈ stamps done.transaction.trace) :
    marked.1.env.now ≤ marked.2 := by
  obtain ⟨_, _, start, _, _, chain, _, _⟩ := concluded
  obtain ⟨_, clock, same, order⟩ := stamps_sublist member
  have ordered := chain.ordered.sublist order
  have before : marked.1.env.now ≤ clock.world.clock :=
    List.rel_of_pairwise_cons ordered List.mem_cons_self
  obtain ⟨_, possible, _⟩ := chain.seen clock (order.subset (by simp))
  have ticks : clock.world.clock < clock.env.now := of_decide_eq_true possible
  rw [same]
  exact before.trans (le_of_lt ticks)

/-- No committed transaction of the history deletes messages. -/
def DeletesNothing (history : List Done) : Prop :=
  ∀ done ∈ history, Done.isCommitted done = true → ∀ id, Done.deletes done id = false

/-- The counters show the stamped SMS. -/
def CountsStamps (world : World) (history : List Done) : Prop :=
  DeletesNothing history → ∀ companyId since,
    world.db.smsSent companyId since =
      (markedSms companyId history).countP fun marked => since ≤ marked.2

theorem markedSms_append (companyId : Uuid) (history : List Done) (done : Done) :
    markedSms companyId (history ++ [done]) = markedSms companyId history ++
      if done.isCommittedCycle then
        (stamps done.transaction.trace).filter fun marked => marked.1.isSmsOf companyId
      else [] := by
  unfold markedSms
  cases isCycle : done.isCommittedCycle <;> simp [isCycle]

theorem CountsStamps.leave
    (concluded : Over (system sha256 validateKennzeichen) policy readCommitted Inv Later done.world
      done) (counts : CountsStamps done.world history) :
    CountsStamps ((system sha256 validateKennzeichen).leave done) (history ++ [done]) := by
  intro keeps companyId since
  have before := counts (fun other member => keeps other (List.mem_append_left _ member))
    companyId since
  rw [markedSms_append, List.countP_append, ← before]
  cases isCommitted : done.isCommitted with
  | false =>
      rw [leave_uncommitted isCommitted, if_neg (by simp [Done.isCommittedCycle, isCommitted])]
      rfl
  | true =>
      obtain ⟨left, ready, ⟨isCycle, result, cycle⟩ | ⟨isCycle, all⟩⟩ :=
        Over.committed_cases concluded isCommitted
      · have committedCycle : done.isCommittedCycle = true := by
          simp [Done.isCommittedCycle, isCommitted, isCycle]
        obtain ⟨entries, writes, worked⟩ := worked_of_over concluded committedCycle
        have unsent : ∀ row ∈ done.batch, row.sentAt = none := by
          intro row member
          obtain ⟨now, due⟩ := cycle.due row member
          exact (isDue_open due).1
        rw [left, if_pos committedCycle, List.countP_filter, worked.stamps]
        change (done.world.db.after _).outbox.rows.countP
            (OutboxMessage.sentSmsOf companyId since) =
          done.world.db.outbox.rows.countP (OutboxMessage.sentSmsOf companyId since) + _
        rw [worked.whole, cycle.counted worked.relays fun row notSent _ =>
          OutboxMessage.sentSmsOf_unsent notSent companyId since, worked.relays.counts unsent]
        simp [Bool.and_comm]
      · rw [left, if_neg (by simp [Done.isCommittedCycle, isCycle])]
        have deletesNothing := deletes_nothing (keeps done (by simp) isCommitted)
        exact counted_others ready all deletesNothing fun row fresh =>
          OutboxMessage.sentSmsOf_unsent fresh.sentAt companyId since

theorem acceptedSms_eq (cap : Nat) (companyId : Uuid) (since : Instant)
    (stamped : ∀ done ∈ history, Done.isCommittedCycle done = true →
      (stamps (Ended.transaction done).trace).map Prod.fst =
        (Ended.transaction done).trace.filter Sent.returns) :
    acceptedSms cap companyId since history =
      (markedSms companyId history).countP fun marked =>
        marked.1.posts cap && since ≤ marked.1.env.now := by
  unfold acceptedSms cycleStatements markedSms
  induction history with
  | nil => rfl
  | cons done rest inductionHypothesis =>
      have others := inductionHypothesis fun other member =>
        stamped other (List.mem_cons_of_mem _ member)
      cases isCycle : Done.isCommittedCycle done with
      | false => simpa [isCycle] using others
      | true =>
          have own := stamped done List.mem_cons_self isCycle
          simp only [List.filter_cons, isCycle, if_true, List.flatMap_cons, List.countP_append,
            others]
          congr 1
          have mapped := congrArg (List.countP fun entry : Sent =>
            entry.isSmsOf companyId && entry.posts cap && since ≤ entry.env.now) own
          rw [List.countP_map, List.countP_filter] at mapped
          rw [List.countP_filter]
          refine Eq.trans (List.countP_congr fun entry _ => ?_) (mapped.symm.trans
            (List.countP_congr fun marked _ => ?_))
          · simp only [Sent.accepted, Bool.and_eq_true, decide_eq_true_eq]
            tauto
          · simp only [Function.comp_apply, Bool.and_eq_true, decide_eq_true_eq]
            tauto

end Runs

/-- A suppressed SMS, which the relay marks as sent all the same. -/
def Sent.suppressed (entry : Sent) (cap : Nat) : Prop :=
  ∃ row companyId, entry.statement = .deliver row ∧ entry.gate cap row = .skip companyId

/-- Through the gate an SMS that returns an id is posted or suppressed. -/
theorem posts_iff {entry : Sent} {cap : Nat} {companyId : Uuid}
    (through : entry.ThroughSeven cap) (isSms : entry.isSmsOf companyId = true)
    (returns : entry.returns = true) : entry.posts cap = true ↔ ¬ entry.suppressed cap := by
  unfold Sent.isSmsOf at isSms
  unfold Sent.posts Sent.suppressed
  cases asked : entry.statement with
  | deliver row =>
      rw [asked] at isSms
      simp only [Bool.and_eq_true, decide_eq_true_eq] at isSms
      have ended := through row asked isSms.2
      cases gate : entry.gate cap row with
      | post => simp [gate]
      | skip other => simp [gate]
      | raise =>
          rw [gate] at ended
          simp [Sent.returns, asked, show entry.env.delivery = .crashed from ended] at returns
  | _ => simp [asked] at isSms

section Main

variable (sha256 : Str → Str) (validateKennzeichen : Str → Option Str)

/-- **SMS accounting.** In every state that any interleaving of the relay's cycles with the
other transactions reaches, both counters show the SMS that the provider has accepted for
the company in this month, exactly if none of those marked in it was suppressed or had
been accepted before it began. -/
theorem sms_accounting_iff {cap : Nat} {world : World}
    (unsent : ∀ row ∈ world.db.outbox, row.sentAt = none)
    {config : Config World Memory Connection Statement Answer Env Error Request Outcome}
    (reached : Reachable (system sha256 validateKennzeichen) .unrestricted ⟨world, [], []⟩ config)
    (through : ∀ done ∈ config.ended, ∀ entry ∈ (Ended.transaction done).trace,
      Sent.ThroughSeven entry cap)
    (keeps : DeletesNothing config.ended) (companyId : Uuid) {now month : Instant}
    (isMonth : monthStartInstant now = some month) :
    (config.world.db.smsSent companyId month = acceptedSms cap companyId month config.ended ∧
        smsUsed config.world.db now companyId =
          some (acceptedSms cap companyId month config.ended)) ↔
      ∀ marked ∈ markedSms companyId config.ended, month ≤ marked.2 →
        ¬ marked.1.suppressed cap ∧ month ≤ marked.1.env.now := by
  have laws := system_laws sha256 validateKennzeichen
  have discipline := clockDiscipline sha256 validateKennzeichen .unrestricted
  have quietSound : Sound (system sha256 validateKennzeichen) .unrestricted readCommitted
      (fun _ => True) (fun earlier later => earlier.clock ≤ later.clock) ⟨world, [], []⟩ :=
    .quiet trivial
  have concluded := (quietSound.reachable laws discipline reached).1.concluded
  have initially : CountsStamps world [] := by
    intro _ companyId since
    rw [Db.smsSent, List.countP_eq_zero.mpr]
    · rfl
    · intro row member
      simp [unsent row member]
  have counts : CountsStamps config.world config.ended :=
    Sound.recorded laws discipline (fun _ _ counts => counts)
      (fun concluded counts => counts.leave concluded) quietSound initially reached
  have stamped : ∀ done ∈ config.ended, Done.isCommittedCycle done = true →
      (stamps (Ended.transaction done).trace).map Prod.fst =
        (Ended.transaction done).trace.filter Sent.returns := by
    intro done member isCycle
    obtain ⟨entries, writes, worked⟩ := worked_of_over (concluded done member) isCycle
    rw [worked.stamps, worked.returns, worked.relays.stamped]
  have ofMarked : ∀ marked ∈ markedSms companyId config.ended,
      marked.1.env.now ≤ marked.2 ∧
        (marked.1.posts cap = true ↔ ¬ marked.1.suppressed cap) := by
    intro marked member
    obtain ⟨done, inHistory, inside⟩ := List.mem_flatMap.mp member
    have inEnded := (List.mem_filter.mp inHistory).1
    obtain ⟨isStamp, isSms⟩ := List.mem_filter.mp inside
    obtain ⟨returns, clock, _, order⟩ := stamps_sublist isStamp
    exact ⟨stamp_later (concluded done inEnded) isStamp,
      posts_iff (through done inEnded _ (order.subset List.mem_cons_self)) isSms returns⟩
  have implies : ∀ marked ∈ markedSms companyId config.ended,
      (marked.1.posts cap && decide (month ≤ marked.1.env.now)) = true →
        decide (month ≤ marked.2) = true := by
    intro marked member accepted
    simp only [Bool.and_eq_true, decide_eq_true_eq] at accepted ⊢
    exact accepted.2.trans (ofMarked marked member).1
  have isUsed : smsUsed config.world.db now companyId =
      some (config.world.db.smsSent companyId month) := by
    simp [smsUsed, isMonth]
  rw [isUsed, Option.some.injEq, and_self, counts keeps, acceptedSms_eq cap companyId month stamped,
    countP_eq_iff implies]
  refine forall₂_congr fun marked member => ?_
  simp only [Bool.and_eq_true, decide_eq_true_eq, (ofMarked marked member).2]

end Main

/-! ### Two reminders in one cycle -/

def Sent.throughSeven (entry : Sent) (cap : Nat) : Bool :=
  match entry.statement with
  | .deliver row =>
      match entry.gate cap row with
      | .post => true
      | .skip companyId =>
          entry.env.delivery = .delivered (skippedSentinelPrefix ++ companyId.text)
      | .raise => entry.env.delivery = .crashed
  | _ => true

theorem throughSeven_spec {entry : Sent} {cap : Nat} (tested : entry.throughSeven cap = true) :
    entry.ThroughSeven cap := by
  intro row asked _
  unfold Sent.throughSeven at tested
  rw [asked] at tested
  cases gate : entry.gate cap row with
  | post => trivial
  | skip companyId =>
      simp only [gate] at tested
      exact of_decide_eq_true tested
  | raise =>
      simp only [gate] at tested
      exact of_decide_eq_true tested

def Write.isDeletion : Write → Bool
  | .deleteOutbox _ => true
  | _ => false

/-- Every ended transaction is a cycle that deletes nothing and sends through the gate. -/
def onlyCycles (history : List Done) (cap : Nat) : Bool :=
  history.all fun done => done.isCycle &&
    ((Session.writes done.transaction).all fun write => !write.isDeletion) &&
      done.transaction.trace.all fun entry => Sent.throughSeven entry cap

theorem onlyCycles_spec {history : List Done} {cap : Nat} (only : onlyCycles history cap = true) :
    (∀ done ∈ history, Ended.request done = .relayOutbox) ∧ DeletesNothing history ∧
      ∀ done ∈ history, ∀ entry ∈ (Ended.transaction done).trace, Sent.ThroughSeven entry cap := by
  have each : ∀ done ∈ history, Done.isCycle done = true ∧
      (∀ write ∈ Session.writes (Ended.transaction done), Write.isDeletion write = false) ∧
        ∀ entry ∈ (Ended.transaction done).trace, Sent.throughSeven entry cap = true := by
    intro done member
    have tested := List.all_eq_true.mp only done member
    simpa [and_assoc] using tested
  refine ⟨fun done member => Done.isCycle_iff.mp (each done member).1, ?_,
    fun done member entry inTrace => throughSeven_spec ((each done member).2.2 entry inTrace)⟩
  intro done member _ id
  rw [Done.deletes, List.any_eq_false]
  intro write inWrites
  have kept := (each done member).2.1 write inWrites
  cases write with
  | deleteOutbox ids => cases kept
  | _ => simp

def smsRun (delivery : Delivery) : List (Library.Choice Env Request) :=
  .start .relayOutbox ::
    ((List.range 14).map fun step => .run 0 { fleetEnv (step + 1) with delivery := delivery }) ++
      [.finish 0]

theorem smsWorld_unsent : ∀ row ∈ smsWorld.db.outbox, row.sentAt = none := by
  intro row member
  have isSms : row ∈ [fleetSms 11, fleetSms 12] := member
  rcases List.mem_pair.mp isSms with rfl | rfl <;> rfl

/-- Below the cap both are accepted and counted. -/
theorem sms_accounting_posted :
    ∃ config, (system id some).schedule ⟨smsWorld, [], []⟩
        (smsRun (.delivered "77132".toList)) = some config ∧
      config.world.db.smsSent (fleetId 100) fleetMonth =
        acceptedSms 2 (fleetId 100) fleetMonth config.ended := by
  have ran : ((system id some).schedule ⟨smsWorld, [], []⟩
      (smsRun (.delivered "77132".toList))).any (fun config => onlyCycles config.ended 2 &&
        (markedSms (fleetId 100) config.ended).all fun marked =>
          marked.1.posts 2 && decide (fleetMonth ≤ marked.1.env.now)) = true := by
    decide +kernel
  obtain ⟨config, isConfig, tested⟩ := (Option.any_eq_true _ _).mp ran
  obtain ⟨only, posted⟩ := Bool.and_eq_true_iff.mp tested
  obtain ⟨_, keeps, through⟩ := onlyCycles_spec only
  refine ⟨config, isConfig, ((sms_accounting_iff id some smsWorld_unsent (.of_schedule isConfig)
    through keeps (fleetId 100) (show monthStartInstant 0 = some fleetMonth by decide)).mpr ?_).1⟩
  intro marked member _
  have tested := List.all_eq_true.mp posted marked member
  simp only [Bool.and_eq_true, decide_eq_true_eq] at tested
  refine ⟨?_, tested.2⟩
  rintro ⟨row, companyId, asked, skipped⟩
  simp [Sent.posts, asked, skipped] at tested

/-- With a cap of zero both are suppressed and counted. -/
theorem suppressed_sms_counted :
    ¬ ∀ (cap : Nat) (companyId : Uuid) (now month : Instant) (world : World)
        (config : Config World Memory Connection Statement Answer Env Error Request Outcome),
      (∀ row ∈ world.db.outbox, row.sentAt = none) →
      Reachable (system id some) .unrestricted ⟨world, [], []⟩ config →
      (∀ done ∈ config.ended, Ended.request done = .relayOutbox) →
      (∀ done ∈ config.ended, ∀ entry ∈ (Ended.transaction done).trace,
        Sent.ThroughSeven entry cap) →
      monthStartInstant now = some month → config.world.clock ≤ now →
      config.world.db.smsSent companyId month = acceptedSms cap companyId month config.ended ∧
        smsUsed config.world.db now companyId =
          some (acceptedSms cap companyId month config.ended) := by
  intro claimed
  have ran : ((system id some).schedule ⟨smsWorld, [], []⟩
      (smsRun (.delivered (skippedSentinelPrefix ++ (fleetId 100).text)))).any
        (fun config => onlyCycles config.ended 0 && decide (config.world.clock ≤ 1767300000) &&
          decide (config.world.db.smsSent (fleetId 100) fleetMonth = 2) &&
            decide (acceptedSms 0 (fleetId 100) fleetMonth config.ended = 0)) = true := by
    decide +kernel
  obtain ⟨config, isConfig, tested⟩ := (Option.any_eq_true _ _).mp ran
  simp only [Bool.and_eq_true, decide_eq_true_eq] at tested
  obtain ⟨⟨⟨only, ticked⟩, two⟩, none⟩ := tested
  obtain ⟨isRelay, _, through⟩ := onlyCycles_spec only
  have same := (claimed 0 (fleetId 100) 1767300000 fleetMonth smsWorld config smsWorld_unsent
    (.of_schedule isConfig) isRelay through (by decide) ticked).1
  rw [two, none] at same
  cases same

end Fristenwaechter
