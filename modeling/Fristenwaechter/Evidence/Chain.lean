import Fristenwaechter.Evidence.Material
import Fristenwaechter.Flushing
import Fristenwaechter.Library.HashChain

/-!
Owns the evidence chain of a subject: what successive calls of `record_check` append,
and what recomputing the stored hashes finds out about rows that were changed, removed
or reordered afterwards.
-/

namespace Fristenwaechter

open Library.HashChain (Binding Scheme Verified not_verified_eraseIdx not_verified_swap swap tip
  verified_append_singleton verified_iff_of_kept)

variable {sha256 : Str → Str} {session after : Session}

/-! ### The tip -/

/-- The rows of a subject as a session sees them. -/
def Sent.evidence (entry : Sent) (subject : Subject) : List ComplianceCheckLog :=
  entry.db.checkLog.rows.filter fun row =>
    entry.connection.sees row.companyId && row.about subject

theorem latestEntry_spec {rows : List ComplianceCheckLog} :
    (latestEntry rows = none → rows = []) ∧
      ∀ best, latestEntry rows = some best →
        best ∈ rows ∧ ∀ row ∈ rows, row.createdAt ≤ best.createdAt := by
  induction rows with
  | nil => simp [latestEntry]
  | cons entry rest inductionHypothesis =>
      obtain ⟨noneRest, someRest⟩ := inductionHypothesis
      cases found : latestEntry rest with
      | none =>
          obtain rfl := noneRest found
          simp [latestEntry]
      | some best =>
          obtain ⟨member, latest⟩ := someRest best found
          by_cases isLater : laterEntry best entry = true
          · have order : best.createdAt ≤ entry.createdAt := by
              rcases of_decide_eq_true isLater with before | ⟨atOnce, _⟩
              · exact before.le
              · exact atOnce.le
            have isEntry : latestEntry (entry :: rest) = some entry := by
              simp [latestEntry, found, isLater]
            rw [isEntry]
            refine ⟨by simp, ?_⟩
            rintro _ ⟨⟩
            refine ⟨List.mem_cons_self, ?_⟩
            intro row rowMember
            rcases List.mem_cons.mp rowMember with rfl | rowMember
            · exact le_refl _
            · exact (latest row rowMember).trans order
          · have order : entry.createdAt ≤ best.createdAt := by
              apply not_lt.mp
              intro before
              exact isLater (decide_eq_true (.inl before))
            have isBest : latestEntry (entry :: rest) = some best := by
              simp [latestEntry, found, isLater]
            rw [isBest]
            refine ⟨by simp, ?_⟩
            rintro _ ⟨⟩
            refine ⟨List.mem_cons_of_mem _ member, ?_⟩
            intro row rowMember
            rcases List.mem_cons.mp rowMember with rfl | rowMember
            · exact order
            · exact latest row rowMember

/-- With increasing creation times the latest row is the last one. -/
theorem latestEntry_of_last {visible earlier : List ComplianceCheckLog}
    {last : ComplianceCheckLog} (same : visible.Perm (earlier ++ [last]))
    (increasing : ∀ row ∈ earlier, row.createdAt < last.createdAt) :
    latestEntry visible = some last := by
  cases found : latestEntry visible with
  | none =>
      have nothing := latestEntry_spec.1 found
      rw [nothing] at same
      simpa using same.length_eq
  | some best =>
      obtain ⟨member, latest⟩ := latestEntry_spec.2 best found
      have notEarlier : last.createdAt ≤ best.createdAt :=
        latest last (same.mem_iff.mpr (by simp))
      rcases List.mem_append.mp (same.mem_iff.mp member) with member | member
      · exact absurd (increasing best member) (not_lt.mpr notEarlier)
      · rw [List.mem_singleton.mp member]

/-! ### Calls of `record_check` -/

/-- The parameters `record_check` stores without extra ones: nothing but the vehicle. -/
def Subject.params : Subject → List (Str × Json)
  | .driver _ => []
  | .vehicle id => [("vehicle_id".toList, .str id.text)]

/-- The row that a call returns points to the latest row it saw of the subject. -/
theorem recordCheck_links {companyId : Uuid} {kind result : Str} {performedOn : Date}
    {subject : Subject} {method : Option Str} {performedById : Option Uuid}
    {row : ComplianceCheckLog}
    (called : postgres.Ends (recordCheck sha256 companyId kind result performedOn subject.driverId
      subject.vehicleId method performedById []) session (.ok row) after) :
    ∃ read ∈ after.trace.drop session.trace.length, read.statement = .latestHash subject ∧
      ∃ id createdAt, row = entryRow sha256 companyId subject.driverId subject.vehicleId kind
        result performedOn method performedById subject.params
        ((latestEntry (Sent.evidence read subject)).map ComplianceCheckLog.entryHash) id
        createdAt := by
  have appended : postgres.Ends (appendCheck sha256 companyId kind result performedOn
      subject.driverId subject.vehicleId subject method performedById subject.params) session
      (.ok row) after := by
    cases subject <;> exact called
  rcases ends_then.mp appended with ⟨prevHash, looked, first, rest⟩ | ⟨_, same, _⟩
  · rcases select_ends first with ⟨flushed, executed, sent⟩ | ⟨_, same, _⟩
    · obtain ⟨read, asked, same, rfl⟩ := sends_latestHash sent
      cases same
      obtain ⟨defaults, defaultsAsked, rest⟩ := step_serverDefaults rest
      have rest := step_add rest
      rcases step_flush rest with ⟨written, inserted, rest⟩ | ⟨_, same, _⟩
      · obtain ⟨same, rfl⟩ := ends_pure.mp rest
        cases same
        refine ⟨read, ?_, asked.statement, _, _, rfl⟩
        obtain ⟨before, isBefore⟩ := executed.grown.trace
        obtain ⟨later, isLater⟩ := inserted.grown.trace
        have whole : after.trace = session.trace ++ (before ++ read :: defaults :: later) := by
          rw [← isLater]
          simp [← isBefore]
        rw [whole, List.drop_left]
        simp
      · cases same
    · cases same
  · cases same

/-- The evidence rows of a subject as successive calls of `record_check` append them.
Each call sees the rows so far, in whatever order, and its own is created after them. -/
inductive Recorded (sha256 : Str → Str) (subject : Subject) : List ComplianceCheckLog → Prop
  | empty : Recorded sha256 subject []
  | next {rows : List ComplianceCheckLog} {companyId : Uuid} {kind result : Str}
      {performedOn : Date} {method : Option Str} {performedById : Option Uuid}
      {session after : Session} {row : ComplianceCheckLog}
      (earlier : Recorded sha256 subject rows)
      (called : postgres.Ends (recordCheck sha256 companyId kind result performedOn
        subject.driverId subject.vehicleId method performedById []) session (.ok row) after)
      (sees : ∀ read ∈ after.trace.drop session.trace.length,
        read.statement = .latestHash subject → (Sent.evidence read subject).Perm rows)
      (increasing : ∀ old ∈ rows, old.createdAt < row.createdAt) :
      Recorded sha256 subject (rows ++ [row])

/-! ### Verification -/

/-- How evidence rows link up, and how their hashes are recomputed. -/
def evidenceScheme (sha256 : Str → Str) : Scheme ComplianceCheckLog (Option Str) where
  genesis := none
  prev := ComplianceCheckLog.prevHash
  link row := some row.entryHash
  recompute row := some (sha256 row.material)

/-- Verification of a chain: every stored row is hashed again. -/
def verifyChain (sha256 : Str → Str) (rows : List ComplianceCheckLog) : Bool :=
  decide (Verified (evidenceScheme sha256) none rows)

/-- A row as `record_check` builds it. -/
structure Genuine (sha256 : Str → Str) (row : ComplianceCheckLog) : Prop where
  plain : row.Plain
  hashed : row.entryHash = sha256 row.material
  pointed : row.prevHash ≠ some []

theorem entryRow_hashed (companyId : Uuid) (kind result : Str) (performedOn : Date)
    (subject : Subject) (method : Option Str) (performedById : Option Uuid)
    (prevHash : Option Str) (id : Uuid) (createdAt : Instant) :
    (entryRow sha256 companyId subject.driverId subject.vehicleId kind result performedOn method
      performedById subject.params prevHash id createdAt).entryHash =
    sha256 (entryRow sha256 companyId subject.driverId subject.vehicleId kind result performedOn
      method performedById subject.params prevHash id createdAt).material := by
  cases subject <;> rfl

theorem entryRow_plain (companyId : Uuid) (kind result : Str) (performedOn : Date)
    (subject : Subject) (method : Option Str) (performedById : Option Uuid)
    (prevHash : Option Str) (id : Uuid) (createdAt : Instant) :
    (entryRow sha256 companyId subject.driverId subject.vehicleId kind result performedOn method
      performedById subject.params prevHash id createdAt).Plain := by
  cases subject with
  | driver id => exact .inl rfl
  | vehicle id => exact .inr ⟨_, _, rfl⟩

theorem Recorded.verified (digest : ∀ text, sha256 text ≠ []) {subject : Subject}
    {rows : List ComplianceCheckLog} (recorded : Recorded sha256 subject rows) :
    (∀ row ∈ rows, Genuine sha256 row) ∧ Verified (evidenceScheme sha256) none rows := by
  induction recorded with
  | empty => exact ⟨by simp, trivial⟩
  | @next rows companyId kind result performedOn method performedById session after row earlier
      called sees increasing inductionHypothesis =>
      obtain ⟨genuine, verified⟩ := inductionHypothesis
      obtain ⟨read, member, isRead, id, createdAt, isRow⟩ := recordCheck_links called
      have visible := sees read member isRead
      -- what the call points to is the hash of the last row so far
      have pointsToTip : row.prevHash = tip (evidenceScheme sha256) none rows := by
        rw [isRow]
        change (latestEntry (Sent.evidence read subject)).map ComplianceCheckLog.entryHash = _
        cases earlier with
        | empty =>
            rw [List.perm_nil.mp visible]
            rfl
        | next _ _ _ ordered =>
            rw [latestEntry_of_last visible ordered]
            simp [evidenceScheme]
      have hashed : row.entryHash = sha256 row.material := by
        rw [isRow]
        exact entryRow_hashed ..
      have pointed : row.prevHash ≠ some [] := by
        intro isEmpty
        have seen : (latestEntry (Sent.evidence read subject)).map ComplianceCheckLog.entryHash =
            some [] := by
          rw [← isEmpty, isRow]
          rfl
        obtain ⟨best, found, empty⟩ := Option.map_eq_some_iff.mp seen
        have bestMember := visible.mem_iff.mp (latestEntry_spec.2 best found).1
        rw [(genuine best bestMember).hashed] at empty
        exact digest _ empty
      have own : Genuine sha256 row :=
        ⟨by rw [isRow]; exact entryRow_plain .., hashed, pointed⟩
      refine ⟨?_, verified_append_singleton.mpr ⟨verified, pointsToTip, ?_⟩⟩
      · intro other otherMember
        rcases List.mem_append.mp otherMember with otherMember | otherMember
        · exact genuine other otherMember
        · rw [List.mem_singleton.mp otherMember]
          exact own
      · exact congrArg some hashed.symm

theorem evidence_binding (injective : Function.Injective sha256)
    {rows : List ComplianceCheckLog} (genuine : ∀ row ∈ rows, Genuine sha256 row) :
    Binding (evidenceScheme sha256) rows where
  prev_eq first firstMember second secondMember same := by
    have sameMaterial := injective (Option.some.inj same)
    have samePrev := (material_inj (genuine first firstMember).plain sameMaterial).1
    have firstPointed := (genuine first firstMember).pointed
    have secondPointed := (genuine second secondMember).pointed
    change first.prevHash = second.prevHash
    cases firstPrev : first.prevHash with
    | none =>
        cases secondPrev : second.prevHash with
        | none => rfl
        | some hash => simp_all
    | some hash =>
        cases secondPrev : second.prevHash with
        | none => simp_all
        | some other => simp_all
  fresh row member := by simp [evidenceScheme]

/-! ### Tampering -/

/-- Two rows with the same recorded facts. -/
structure ComplianceCheckLog.SameFacts (row other : ComplianceCheckLog) : Prop extends
    row.SameHashedFacts other where
  performedById : row.performedById = other.performedById

/-- Recorded facts are changed and the stored hashes are left as they are. -/
structure Altered (rows altered : List ComplianceCheckLog) : Prop where
  kept : List.Forall₂ (fun row other => row.prevHash = other.prevHash ∧
    row.entryHash = other.entryHash) rows altered
  changed : ¬ List.Forall₂ ComplianceCheckLog.SameFacts rows altered

/-- Rows with their stored hashes hash to the same where their hashed facts are the same. -/
theorem recomputed_iff (injective : Function.Injective sha256)
    {rows altered : List ComplianceCheckLog} (genuine : ∀ row ∈ rows, Genuine sha256 row)
    (kept : List.Forall₂ (fun row other => row.prevHash = other.prevHash ∧
      row.entryHash = other.entryHash) rows altered) :
    List.Forall₂ (fun row other => (evidenceScheme sha256).recompute row =
      (evidenceScheme sha256).recompute other) rows altered ↔
      List.Forall₂ ComplianceCheckLog.SameHashedFacts rows altered := by
  induction kept with
  | nil => simp
  | @cons row other rows altered same kept inductionHypothesis =>
      rw [List.forall₂_cons, List.forall₂_cons,
        inductionHypothesis fun row member => genuine row (List.mem_cons_of_mem _ member)]
      apply and_congr_left
      intro _
      constructor
      · intro sameHash
        exact (material_inj (genuine row List.mem_cons_self).plain
          (injective (Option.some.inj sameHash))).2
      · intro sameFacts
        exact congrArg (fun text => some (sha256 text)) (material_congr same.1 sameFacts)

/-- Verification accepts what was recorded, rejects every removal but that of the last
row and every exchange of two rows, and rejects changed facts exactly where one of them
is not the person who performed the check. -/
theorem tampering_rejected (injective : Function.Injective sha256)
    (digest : ∀ text, sha256 text ≠ []) {subject : Subject} {rows : List ComplianceCheckLog}
    (recorded : Recorded sha256 subject rows) :
    verifyChain sha256 rows = true ∧
      (∀ altered, Altered rows altered →
        (verifyChain sha256 altered = false ↔
          ¬ List.Forall₂ ComplianceCheckLog.SameHashedFacts rows altered)) ∧
      (∀ index, index + 1 < rows.length → verifyChain sha256 (rows.eraseIdx index) = false) ∧
      ∀ first second, ∀ firstInside : first < rows.length, ∀ secondInside : second < rows.length,
        first ≠ second →
          verifyChain sha256 (swap rows first second firstInside secondInside) = false := by
  obtain ⟨genuine, verified⟩ := recorded.verified digest
  have binding := evidence_binding injective genuine
  refine ⟨decide_eq_true verified, ?_, ?_, ?_⟩
  · intro altered alters
    have sameHashes := verified_iff_of_kept verified
      (alters.kept.imp fun _ _ same => ⟨same.1, congrArg some same.2⟩)
    rw [verifyChain, decide_eq_false_iff_not, ← recomputed_iff injective genuine alters.kept]
    exact not_congr sameHashes
  · intro index notLast
    exact decide_eq_false (not_verified_eraseIdx binding verified notLast)
  · intro first second firstInside secondInside different
    exact decide_eq_false
      (not_verified_swap binding verified firstInside secondInside different)

/-! ### Two checks of one driver -/

/-- A digest without collisions. -/
def plainDigest (text : Str) : Str :=
  'h' :: text

def loggedDriver : Subject :=
  .driver ⟨2⟩

def loggedRow (result : Str) (prevHash : Option Str) (number : Nat) : ComplianceCheckLog :=
  entryRow plainDigest ⟨100⟩ loggedDriver.driverId loggedDriver.vehicleId "FSK".toList result
    ⟨2026, 1, 1, by decide⟩ none (some ⟨1⟩) loggedDriver.params prevHash ⟨BitVec.ofNat 128 number⟩
    number

def loggedWorld (rows : Library.Table ComplianceCheckLog) : World :=
  ⟨{ Db.empty with checkLog := rows }, 0⟩

def loggedSession (number : Nat) : Session :=
  ⟨.empty, ⟨none, number, [], none⟩, []⟩

theorem loggedRow_called (rows : Library.Table ComplianceCheckLog) (result : Str)
    {prevHash : Option Str} (number : Nat)
    (isTip : (latestEntry (rows.rows.filter fun row => row.about loggedDriver)).map
      ComplianceCheckLog.entryHash = prevHash)
    (free : (Write.insertLog (loggedRow result prevHash number)).check (loggedWorld rows).db =
      .ok ()) :
    ∃ after, postgres.Ends (recordCheck plainDigest ⟨100⟩ "FSK".toList result
        ⟨2026, 1, 1, by decide⟩ loggedDriver.driverId loggedDriver.vehicleId none (some ⟨1⟩) [])
        (loggedSession number) (.ok (loggedRow result prevHash number)) after ∧
      ∀ read ∈ after.trace.drop (loggedSession number).trace.length,
        read.statement = .latestHash loggedDriver →
          Sent.evidence read loggedDriver = rows.rows.filter fun row => row.about loggedDriver := by
  subst isTip
  let env : Env := ⟨1, ⟨BitVec.ofNat 128 number⟩, 0, .delivered []⟩
  have ticks : (loggedWorld rows).clock < env.now := Int.one_pos
  let sent : Statement → Sent := fun statement =>
    ⟨loggedWorld rows, [], .empty, (loggedSession number).connection, statement, env⟩
  let row := loggedRow result ((latestEntry (rows.rows.filter fun row =>
    row.about loggedDriver)).map ComplianceCheckLog.entryHash) number
  refine ⟨(((loggedSession number).saw (sent (.latestHash loggedDriver))).saw
    (sent .serverDefaults)).wrote (sent (.execute (.insertLog row))) (.insertLog row), ?_, ?_⟩
  · have read : postgres.Ends (select (.latestHash loggedDriver)) (loggedSession number)
        (.ok ((latestEntry (rows.rows.filter fun row => row.about loggedDriver)).map
          ComplianceCheckLog.entryHash))
        ((loggedSession number).saw (sent (.latestHash loggedDriver))) :=
      (select_ends_clean rfl).mpr (sends_iff.mpr ⟨sent (.latestHash loggedDriver), _, _,
        ⟨rfl, rfl, rfl, ticks⟩, rfl, rfl⟩)
    have drawn : postgres.Ends (emit .serverDefaults)
        ((loggedSession number).saw (sent (.latestHash loggedDriver)))
        (.ok (⟨BitVec.ofNat 128 number⟩, number))
        (((loggedSession number).saw (sent (.latestHash loggedDriver))).saw
          (sent .serverDefaults)) :=
      ends_emit.mpr (sends_iff.mpr ⟨sent .serverDefaults, _, _, ⟨rfl, rfl, rfl, ticks⟩, rfl, rfl⟩)
    refine ends_then.mpr (.inl ⟨_, _, read, ends_then.mpr (.inl ⟨_, _, drawn, ?_⟩)⟩)
    refine ends_then.mpr (.inl ⟨(), _, ⟨rfl, rfl⟩, ends_then.mpr (.inl ⟨(), _, ?_, ⟨rfl, rfl⟩⟩)⟩)
    refine ends_then.mpr (.inl ⟨_, _, ⟨rfl, rfl⟩, ends_then.mpr (.inl ⟨(), _, ⟨rfl, rfl⟩, ?_⟩)⟩)
    refine Library.Server.ends_bind.mpr (.inl ⟨(), _, ends_emit.mpr (sends_iff.mpr
      ⟨sent (.execute (.insertLog row)), _, _, ⟨rfl, rfl, rfl, ticks⟩, ?_, rfl⟩), ⟨rfl, rfl⟩⟩)
    have seesAll : (loggedSession number).connection.view (loggedWorld rows).db =
        (loggedWorld rows).db := rfl
    have valid : (Write.insertLog row).check (loggedWorld rows).db = .ok () := free
    have performed : (executeAndReply (loggedWorld rows) [] (.insertLog row) () .empty
        (loggedSession number).connection : Reply (.execute (.insertLog row))) = some (.ok (),
          Memory.empty.flushed (.insertLog row),
          (loggedSession number).connection.write (loggedWorld rows) (.insertLog row)) := by
      simp [executeAndReply, seesAll, valid, heldByOthers, lockedByOthers, sharedByOthers]
    exact performed
  · intro read member isRead
    have members : read ∈ [sent (.latestHash loggedDriver), sent .serverDefaults,
        sent (.execute (.insertLog row))] := member
    have isFirst : read = sent (.latestHash loggedDriver) := by
      simp only [List.mem_cons, List.not_mem_nil, or_false] at members
      rcases members with rfl | rfl | rfl
      · rfl
      · cases isRead
      · cases isRead
    rw [isFirst]
    exact List.filter_congr fun row _ => Bool.true_and _

def firstLogged : ComplianceCheckLog :=
  loggedRow "PASSED".toList none 1

def secondLogged : ComplianceCheckLog :=
  loggedRow "FAILED".toList (some firstLogged.entryHash) 2

set_option maxRecDepth 8000 in
theorem logged_recorded : Recorded plainDigest loggedDriver [firstLogged, secondLogged] := by
  have one : Recorded plainDigest loggedDriver [firstLogged] := by
    obtain ⟨after, called, sees⟩ := loggedRow_called .empty "PASSED".toList 1 rfl rfl
    refine .next .empty called (fun read member isRead => ?_) (by simp)
    rw [sees read member isRead]
    exact List.Perm.refl _
  have isTip : (latestEntry ((Library.Table.empty.insert firstLogged).rows.filter fun row =>
      row.about loggedDriver)).map ComplianceCheckLog.entryHash = some firstLogged.entryHash := by
    have own : firstLogged.about loggedDriver = true := rfl
    simp [Library.Table.insert, Library.Table.empty, own, latestEntry]
  obtain ⟨after, called, sees⟩ := loggedRow_called _ "FAILED".toList 2 isTip rfl
  refine .next one called (fun read member isRead => ?_) (by decide)
  rw [sees read member isRead]
  exact List.Perm.refl _

def forgedRow : ComplianceCheckLog :=
  { firstLogged with performedById := some ⟨9⟩ }

/-- The log does not notice that the person who performed a check was exchanged. -/
theorem forged_author_accepted :
    Recorded plainDigest loggedDriver [firstLogged, secondLogged] ∧
      Altered [firstLogged, secondLogged] [forgedRow, secondLogged] ∧
      verifyChain plainDigest [forgedRow, secondLogged] = true := by
  have kept : List.Forall₂ (fun row other => row.prevHash = other.prevHash ∧
      row.entryHash = other.entryHash) [firstLogged, secondLogged] [forgedRow, secondLogged] :=
    .cons ⟨rfl, rfl⟩ (.cons ⟨rfl, rfl⟩ .nil)
  refine ⟨logged_recorded, ⟨kept, ?_⟩, decide_eq_true ?_⟩
  · intro same
    have sameAuthor := (List.forall₂_cons.mp same).1.performedById
    exact absurd sameAuthor (by decide)
  · have verified := (logged_recorded.verified fun text => List.cons_ne_nil _ _).2
    exact (verified_iff_of_kept verified
      (kept.imp fun _ _ same => ⟨same.1, congrArg some same.2⟩)).mpr
        (.cons rfl (.cons rfl .nil))

/-- The log of two checks verifies, and no longer so without its first row. -/
theorem tampering_rejected_two :
    verifyChain plainDigest [firstLogged, secondLogged] = true ∧
      verifyChain plainDigest [secondLogged] = false := by
  obtain ⟨accepted, _, removed, _⟩ := tampering_rejected
    (fun first second same => (List.cons.inj same).2) (fun text => List.cons_ne_nil _ _)
    logged_recorded
  exact ⟨accepted, removed 0 (by decide)⟩

end Fristenwaechter
