import Mathlib.Data.List.Basic

/-!
Owns the journal of an uncommitted transaction: the locks it has taken and the
writes it has executed, in order, each stamped with the world it happened in. What
a transaction holds is read off its journal, and a write holds its own footprint,
so no transaction can have written something it does not hold. A savepoint is a
length of the journal, and rolling back to it cuts the journal there.
-/

namespace Fristenwaechter.Library

/-- Writes to a database: what each of them does, which things it touches and when it
is valid. -/
class Writes (Db : Type) (Write Ref : outParam Type) where
  apply : Write → Db → Db
  footprint : Write → List Ref
  Valid : Write → Db → Prop

inductive Action (Write Ref : Type) where
  | lock (ref : Ref)
  | write (write : Write)

/-- The actions of a transaction, oldest first. -/
abbrev Journal (World Write Ref : Type) := List (World × Action Write Ref)

namespace Journal

variable {World Db Write Ref : Type} [Writes Db Write Ref]

def refs (Db : Type) [Writes Db Write Ref] : Action Write Ref → List Ref
  | .lock ref => [ref]
  | .write write => Writes.footprint Db write

/-- The things a journal holds, each with the world it was first needed in. -/
def held (Db : Type) [Writes Db Write Ref] (journal : Journal World Write Ref) :
    List (Ref × World) :=
  journal.flatMap fun stamped => (refs Db stamped.2).map fun ref => (ref, stamped.1)

def writes (journal : Journal World Write Ref) : List Write :=
  journal.filterMap fun stamped =>
    match stamped.2 with
    | .lock _ => none
    | .write write => some write

/-- The database as the transaction sees it: the committed one under its own
writes. -/
def view (journal : Journal World Write Ref) (db : Db) : Db :=
  journal.writes.foldl (fun current write => Writes.apply write current) db

/-- Each write is valid where its predecessors leave the database. -/
def Replays : List Write → Db → Prop
  | [], _ => True
  | write :: rest, db => Writes.Valid write db ∧ Replays rest (Writes.apply write db)

theorem held_append (first second : Journal World Write Ref) :
    held Db (first ++ second) = held Db first ++ held Db second :=
  List.flatMap_append

theorem writes_append (first second : Journal World Write Ref) :
    writes (first ++ second) = first.writes ++ second.writes :=
  List.filterMap_append

theorem writes_locks (world : World) (refs : List Ref) :
    writes (refs.map fun ref => (world, (.lock ref : Action Write Ref))) = [] := by
  simp [writes]

theorem mem_held {journal : Journal World Write Ref} {lock : Ref × World} :
    lock ∈ held Db journal ↔
      ∃ action, (lock.2, action) ∈ journal ∧ lock.1 ∈ refs Db action := by
  simp only [held, List.mem_flatMap, List.mem_map]
  constructor
  · rintro ⟨⟨world, action⟩, member, ref, inside, rfl⟩
    exact ⟨action, member, inside⟩
  · rintro ⟨action, member, inside⟩
    exact ⟨(lock.2, action), member, lock.1, inside, rfl⟩

theorem held_of_write {journal : Journal World Write Ref} {world : World} {write : Write}
    {ref : Ref} (member : (world, Action.write write) ∈ journal)
    (inside : ref ∈ Writes.footprint Db write) : (ref, world) ∈ held Db journal :=
  mem_held.mpr ⟨.write write, member, inside⟩

theorem footprint_held {journal : Journal World Write Ref} {write : Write} {ref : Ref}
    (member : write ∈ journal.writes) (inside : ref ∈ Writes.footprint Db write) :
    ref ∈ (held Db journal).map Prod.fst := by
  simp only [writes, List.mem_filterMap] at member
  obtain ⟨⟨world, action⟩, inJournal, isWrite⟩ := member
  cases action with
  | lock _ => cases isWrite
  | write executed =>
      cases isWrite
      exact List.mem_map.mpr ⟨(ref, world), held_of_write inJournal inside, rfl⟩

theorem held_take (journal : Journal World Write Ref) (length : Nat) :
    ∀ lock ∈ held Db (journal.take length), lock ∈ held Db journal := by
  intro lock member
  obtain ⟨action, inCut, inside⟩ := mem_held.mp member
  exact mem_held.mpr ⟨action, List.mem_of_mem_take inCut, inside⟩

/-- What it takes for a lock to protect a thing: a write that does not touch it keeps it,
and writes do and check the same on databases that agree on what they touch. -/
structure Keeps (Kept : Ref → Db → Db → Prop) : Prop where
  refl : ∀ ref db, Kept ref db db
  trans : ∀ {ref first second third}, Kept ref first second → Kept ref second third →
    Kept ref first third
  frame : ∀ {ref : Ref} {write : Write} {db : Db}, ref ∉ Writes.footprint Db write →
    Kept ref db (Writes.apply write db)
  apply : ∀ {write : Write} {ref : Ref} {before after : Db},
    (∀ own ∈ Writes.footprint Db write, Kept own before after) → Kept ref before after →
    Kept ref (Writes.apply write before) (Writes.apply write after)
  valid : ∀ {write : Write} {before after : Db},
    (∀ own ∈ Writes.footprint Db write, Kept own before after) →
    Writes.Valid write before → Writes.Valid write after

/-- Committing a journal keeps everything it does not hold. -/
theorem Keeps.view {Kept : Ref → Db → Db → Prop} (keeps : Keeps Kept)
    {journal : Journal World Write Ref} {ref : Ref}
    (free : ref ∉ (held Db journal).map Prod.fst) (db : Db) : Kept ref db (journal.view db) := by
  have outside : ∀ write ∈ journal.writes, ref ∉ Writes.footprint Db write :=
    fun write member inside => free (footprint_held member inside)
  unfold Journal.view
  generalize journal.writes = executed at outside
  induction executed generalizing db with
  | nil => exact keeps.refl ref db
  | cons write rest inductionHypothesis =>
      rw [List.foldl_cons]
      exact keeps.trans (keeps.frame (outside write (by simp)))
        (inductionHypothesis _ fun other member => outside other (by simp [member]))

theorem replays_append {first second : List Write} {db : Db} :
    Replays (first ++ second) db ↔
      Replays first db ∧
        Replays second (first.foldl (fun current write => Writes.apply write current) db) := by
  induction first generalizing db with
  | nil => simp [Replays]
  | cons write rest inductionHypothesis =>
      simp [Replays, inductionHypothesis, and_assoc]

/-- A replayable list of writes is replayable on every database that has kept the
footprints of its writes. -/
theorem Keeps.replays {Kept : Ref → Db → Db → Prop} (kept : Keeps Kept)
    {executed : List Write} {before after : Db}
    (keeps : ∀ write ∈ executed, ∀ ref ∈ Writes.footprint Db write, Kept ref before after)
    (replays : Replays executed before) : Replays executed after := by
  induction executed generalizing before after with
  | nil => trivial
  | cons write rest inductionHypothesis =>
      have own := keeps write (by simp)
      refine ⟨kept.valid own replays.1, inductionHypothesis ?_ replays.2⟩
      intro other member ref inside
      exact kept.apply own (keeps other (by simp [member]) ref inside)

/-- **Replay induction.** What every valid write of a journal does step by step, the
whole journal does. -/
theorem Replays.fold {executed : List Write} {Step : List Write → Db → Db → Prop} {db : Db}
    (refl : ∀ db, Step [] db db)
    (next : ∀ {done : List Write} {write : Write} {middle : Db},
      done ++ [write] <+: executed → Step done db middle → Writes.Valid write middle →
      Step (done ++ [write]) db (Writes.apply write middle))
    (replays : Replays executed db) :
    Step executed db (executed.foldl (fun current write => Writes.apply write current) db) := by
  have general : ∀ (done rest : List Write) (middle : Db), done ++ rest = executed →
      Step done db middle → Replays rest middle →
      Step executed db (rest.foldl (fun current write => Writes.apply write current) middle) := by
    intro done rest
    induction rest generalizing done with
    | nil =>
        intro middle whole sofar _
        rw [List.append_nil] at whole
        exact whole ▸ sofar
    | cons write rest inductionHypothesis =>
        intro middle whole sofar valid
        rw [List.foldl_cons]
        refine inductionHypothesis (done ++ [write]) _ (by simpa using whole) ?_ valid.2
        exact next ⟨rest, by simpa using whole⟩ sofar valid.1
  exact general [] executed db rfl (refl db) replays

end Journal

end Fristenwaechter.Library
