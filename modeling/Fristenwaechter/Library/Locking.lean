import Fristenwaechter.Library.Discipline
import Fristenwaechter.Library.Journal

/-!
Owns READ COMMITTED for engines whose connections lock and write through a journal. An
engine says what one statement may do to the journal of its connection (`Journal.Grows`),
and a database says what a lock protects (`Journal.Keeps`); everything the proof rule for
interleaved transactions asks of locks follows from the two (`Locking.laws`).
-/

namespace Fristenwaechter.Library

variable {World Memory Connection Statement : Type} {Answer : Statement → Type}
variable {Env Error Ref Request Result Db Write : Type} [Writes Db Write Ref]

/-- One statement leaves the journal alone, adds locks that nobody else holds, adds one
valid write whose footprint nobody else holds, or cuts the journal at a savepoint. -/
inductive Journal.Grows (Taken : Ref → Prop) (world : World) (db : Db)
    (before after : Journal World Write Ref) : Prop
  | same (journal : after = before)
  | locks (refs : List Ref) (free : ∀ ref ∈ refs, ¬ Taken ref)
      (journal : after = before ++ refs.map fun ref => (world, .lock ref))
  | writes (write : Write) (free : ∀ ref ∈ Writes.footprint Db write, ¬ Taken ref)
      (valid : Writes.Valid write (before.view db))
      (journal : after = before ++ [(world, .write write)])
  | cuts (length : Nat) (journal : after = before.take length)

namespace Journal.Grows

variable {Taken : Ref → Prop} {world : World} {db : Db}
variable {before after : Journal World Write Ref}

/-- What is newly held was free, and is stamped with the world of the statement. -/
theorem held (grows : Journal.Grows Taken world db before after) {lock : Ref × World}
    (member : lock ∈ Journal.held Db after) :
    lock ∈ Journal.held Db before ∨ lock.2 = world ∧ ¬ Taken lock.1 := by
  cases grows with
  | same journal => exact .inl (journal ▸ member)
  | locks refs free journal =>
      rw [journal, held_append] at member
      refine (List.mem_append.mp member).imp_right fun new => ?_
      obtain ⟨action, inNew, inside⟩ := mem_held.mp new
      obtain ⟨ref, inRefs, same⟩ := List.mem_map.mp inNew
      simp only [Prod.mk.injEq] at same
      obtain ⟨stamp, rfl⟩ := same
      rw [Journal.refs, List.mem_singleton] at inside
      exact ⟨stamp.symm, inside ▸ free ref inRefs⟩
  | writes write free _ journal =>
      rw [journal, held_append] at member
      refine (List.mem_append.mp member).imp_right fun new => ?_
      obtain ⟨action, inNew, inside⟩ := mem_held.mp new
      simp only [List.mem_singleton, Prod.mk.injEq] at inNew
      obtain ⟨stamp, rfl⟩ := inNew
      exact ⟨stamp, free lock.1 inside⟩
  | cuts length journal => exact .inl (held_take before length lock (journal ▸ member))

theorem replays (grows : Journal.Grows Taken world db before after)
    (ready : Replays before.writes db) : Replays after.writes db := by
  cases grows with
  | same journal => rwa [journal]
  | locks refs _ journal =>
      rw [journal, writes_append, writes_locks, List.append_nil]
      exact ready
  | writes write _ valid journal =>
      rw [journal, writes_append]
      exact replays_append.mpr ⟨ready, valid, trivial⟩
  | cuts length journal =>
      rw [← List.take_append_drop length before, writes_append] at ready
      rw [journal]
      exact (replays_append.mp ready).1

end Journal.Grows

/-- Locked things stay, and the journal can be replayed. -/
def Isolation.journalled (Kept : Ref → Db → Db → Prop) (database : World → Db)
    (journal : Connection → Journal World Write Ref) : Isolation World Connection Ref where
  Kept ref before after := Kept ref (database before) (database after)
  Ready world connection := Journal.Replays (journal connection).writes (database world)

/-- An engine whose connections lock and write through a journal. -/
structure Locking
    (engine : Engine World Memory Connection Statement Answer Env Error Ref Request Result)
    (database : World → Db) (journal : Connection → Journal World Write Ref) : Prop where
  advance : ∀ world env, database (engine.advance world env) = database world
  commit : ∀ world connection,
    database (engine.commit world connection) = (journal connection).view (database world)
  connect : ∀ world request, journal (engine.connect world request).2 = []
  held : ∀ connection, engine.held connection = Journal.held Db (journal connection)
  perform : ∀ {world env others memory connection statement answer memory' connection'},
    engine.perform world env others memory connection statement =
      some (answer, memory', connection') →
    Journal.Grows (fun ref => ∃ other ∈ others, ref ∈ engine.heldRefs other) world
      (database world) (journal connection) (journal connection')

/-- **Journals isolate.** Locks are stamped, exclusive and enough to keep uncommitted work
ready. -/
theorem Locking.laws
    {engine : Engine World Memory Connection Statement Answer Env Error Ref Request Result}
    {database : World → Db} {journal : Connection → Journal World Write Ref}
    {Kept : Ref → Db → Db → Prop} (locking : Locking engine database journal)
    (keeps : Journal.Keeps Kept) :
    Laws engine (.journalled Kept database journal) where
  refl ref world := keeps.refl ref (database world)
  trans := keeps.trans
  advance {ref world env} := by
    change Kept ref (database world) (database (engine.advance world env))
    rw [locking.advance]
    exact keeps.refl ref _
  commit {ref world connection} free := by
    change Kept ref (database world) (database (engine.commit world connection))
    rw [locking.commit]
    rw [Engine.heldRefs, locking.held] at free
    exact keeps.view free _
  connect world request := by
    rw [locking.held, locking.connect]
    rfl
  perform := by
    intro world env others memory connection statement answer memory' connection' performed lock
      member
    rw [locking.held] at member ⊢
    refine ((locking.perform performed).held member).imp_right fun new => ⟨new.1, ?_⟩
    exact fun other isOther taken => new.2 ⟨other, isOther, taken⟩
  readyConnect world request := by
    change Journal.Replays (journal (engine.connect world request).2).writes (database world)
    rw [locking.connect]
    trivial
  readyPerform performed ready := (locking.perform performed).replays ready
  readyKept := by
    intro world later connection kept ready
    refine keeps.replays ?_ ready
    intro write member ref inside
    refine kept ref ?_
    rw [Engine.heldRefs, locking.held]
    exact Journal.footprint_held member inside

end Fristenwaechter.Library
