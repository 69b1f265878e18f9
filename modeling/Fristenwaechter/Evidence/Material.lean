import Fristenwaechter.Evidence.Canonical
import Fristenwaechter.Services.Checks

/-!
Owns what the hashed text of an evidence row binds: the previous hash and every
recorded fact but the person who performed the check.
-/

namespace Fristenwaechter

/-! ### Entries -/

/-- The names of the hashed fields. -/
def entryNames : List Str :=
  ["company_id".toList, "driver_id".toList, "vehicle_id".toList, "kind".toList, "result".toList,
    "performed_on".toList, "method".toList, "params".toList]

theorem materialNames_nodup : ("prev".toList :: entryNames).Nodup := by
  decide

theorem Json.ofOption_inj {first second : Option Str}
    (same : Json.Same (.ofOption first) (.ofOption second)) : first = second := by
  cases first with
  | none =>
      cases second with
      | none => rfl
      | some text => cases same
  | some text =>
      cases second with
      | none => cases same
      | some other => exact congrArg some same.str_inj

/-- No field shadows the previous hash: one hashed text gives one previous hash, and fields
that agree name by name. -/
theorem entryMaterial_agree {prevHash otherHash : Option Str} {fields others : List (Str × Json)}
    (names : others.map Prod.fst = entryNames)
    (same : entryMaterial prevHash fields = entryMaterial otherHash others) :
    prevHash.getD [] = otherHash.getD [] ∧
      ∀ name value other, Json.member name fields = some value →
        Json.member name others = some other → Json.Same value other := by
  have sameObject := Json.dumps_same same
  have named : Json.Named (("prev".toList, .str (otherHash.getD [])) :: others) := by
    rw [Json.Named, List.map_cons, names]
    exact materialNames_nodup
  have under : ∀ name value prev, name ∈ entryNames → ∀ members,
      Json.member name members = some value →
        Json.member name (("prev".toList, prev) :: members) = some value := by
    intro name value prev isField members found
    have different : "prev".toList ≠ name := by
      rintro rfl
      exact (List.nodup_cons.mp materialNames_nodup).1 isField
    rw [← found, Json.member, List.find?_cons_of_neg (by simpa using different), Json.member]
  refine ⟨(sameObject.agree named "prev".toList _ _ rfl rfl).str_inj, ?_⟩
  intro name value other found otherFound
  have isField : name ∈ entryNames := by
    rw [← names]
    exact List.mem_map_of_mem (Json.mem_of_member otherFound)
  exact sameObject.agree named _ _ _ (under _ _ _ isField _ found)
    (under _ _ _ isField _ otherFound)

/-! ### Rows -/

/-- The vehicle of a stored row stands in its parameters only. -/
def ComplianceCheckLog.vehicleField (row : ComplianceCheckLog) : Json :=
  if row.driverId.isSome then .null
  else (Json.member "vehicle_id".toList row.params).getD .null

/-- The hashed fields as they can be rebuilt from a stored row. -/
def ComplianceCheckLog.hashedFields (row : ComplianceCheckLog) : List (Str × Json) :=
  [("company_id".toList, .str row.companyId.text),
    ("driver_id".toList, .ofOption (row.driverId.map Uuid.text)),
    ("vehicle_id".toList, row.vehicleField),
    ("kind".toList, .str row.kind),
    ("result".toList, .str row.result),
    ("performed_on".toList, .str row.performedOn.isoformat),
    ("method".toList, .ofOption row.method),
    ("params".toList, .obj row.params)]

/-- The hashed text as it can be rebuilt from a stored row. -/
def ComplianceCheckLog.material (row : ComplianceCheckLog) : Str :=
  entryMaterial row.prevHash row.hashedFields

/-- The facts of a row that go into its hash. -/
structure ComplianceCheckLog.SameHashedFacts (row other : ComplianceCheckLog) : Prop where
  companyId : row.companyId = other.companyId
  driverId : row.driverId = other.driverId
  kind : row.kind = other.kind
  result : row.result = other.result
  performedOn : row.performedOn = other.performedOn
  method : row.method = other.method
  params : row.params = other.params

/-- A row whose parameters are those `record_check` stores without extra ones. -/
def ComplianceCheckLog.Plain (row : ComplianceCheckLog) : Prop :=
  row.params = [] ∨ ∃ name text, row.params = [(name, .str text)]

theorem Plain.params_eq {row other : ComplianceCheckLog} (plain : row.Plain)
    (same : Json.Same (.obj row.params) (.obj other.params)) : row.params = other.params := by
  rcases plain with empty | ⟨name, text, single⟩
  · rw [empty] at same ⊢
    exact same.empty.symm
  · rw [single] at same ⊢
    exact same.single.symm

/-- The hashed text of a plain row determines the previous hash and the hashed facts. -/
theorem material_inj {row other : ComplianceCheckLog} (plain : row.Plain)
    (same : row.material = other.material) :
    row.prevHash.getD [] = other.prevHash.getD [] ∧ row.SameHashedFacts other := by
  obtain ⟨prev, agree⟩ := entryMaterial_agree rfl same
  have company := (agree "company_id".toList _ _ rfl rfl).str_inj
  have driver := Json.ofOption_inj (agree "driver_id".toList _ _ rfl rfl)
  have kind := (agree "kind".toList _ _ rfl rfl).str_inj
  have result := (agree "result".toList _ _ rfl rfl).str_inj
  have performedOn := (agree "performed_on".toList _ _ rfl rfl).str_inj
  have method := Json.ofOption_inj (agree "method".toList _ _ rfl rfl)
  have params := Plain.params_eq plain (agree "params".toList _ _ rfl rfl)
  exact ⟨prev, Uuid.text_inj company, Option.map_injective (fun _ _ => Uuid.text_inj) driver,
    kind, result, Date.isoformat_inj performedOn, method, params⟩

theorem material_congr {row other : ComplianceCheckLog}
    (prev : row.prevHash = other.prevHash) (same : row.SameHashedFacts other) :
    row.material = other.material := by
  simp only [ComplianceCheckLog.material, ComplianceCheckLog.hashedFields,
    ComplianceCheckLog.vehicleField, prev, same.companyId, same.driverId, same.kind, same.result,
    same.performedOn, same.method, same.params]

/-! ### What `record_check` hashes -/

/-- What `hexdigest()` returns. -/
structure HexDigest where
  text : Str
  length : text.length = 64
  hexadecimal : ∀ c ∈ text, c ∈ "0123456789abcdef".toList

/-- What `record_check` hashes besides the previous hash. -/
structure EvidenceEntry where
  companyId : Uuid
  driverId : Option Uuid
  vehicleId : Option Uuid
  kind : Str
  result : Str
  performedOn : Date
  method : Option Str
  params : List (Str × Json)

def EvidenceEntry.fields (entry : EvidenceEntry) : List (Str × Json) :=
  entryFields entry.companyId entry.driverId entry.vehicleId entry.kind entry.result
    entry.performedOn entry.method entry.params

/-- Two entries that differ in the order of the keys of their parameters at most. -/
structure EvidenceEntry.Same (entry other : EvidenceEntry) : Prop where
  companyId : entry.companyId = other.companyId
  driverId : entry.driverId = other.driverId
  vehicleId : entry.vehicleId = other.vehicleId
  kind : entry.kind = other.kind
  result : entry.result = other.result
  performedOn : entry.performedOn = other.performedOn
  method : entry.method = other.method
  params : Json.Same (.obj entry.params) (.obj other.params)

theorem HexDigest.getD_inj {first second : Option HexDigest}
    (same : (first.map HexDigest.text).getD [] = (second.map HexDigest.text).getD []) :
    first = second := by
  have notEmpty : ∀ digest : HexDigest, digest.text ≠ [] := by
    intro digest empty
    have length := digest.length
    simp [empty] at length
  cases first with
  | none =>
      cases second with
      | none => rfl
      | some digest => exact absurd same.symm (notEmpty digest)
  | some digest =>
      cases second with
      | none => exact absurd same (notEmpty digest)
      | some other =>
          cases digest
          cases other
          cases same
          rfl

theorem EvidenceEntry.Same.fields {entry other : EvidenceEntry} (same : entry.Same other) :
    Json.Same (.obj entry.fields) (.obj other.fields) := by
  have unchanged : ∀ fields, List.Forall₂ Json.SameMember fields fields :=
    fun fields => List.forall₂_same.mpr fun field _ => .named field.1 (.refl field.2)
  have params : List.Forall₂ Json.SameMember [("params".toList, .obj entry.params)]
      [("params".toList, .obj other.params)] := .cons (.named _ same.params) .nil
  simp only [EvidenceEntry.fields, entryFields, same.companyId, same.driverId, same.vehicleId,
    same.kind, same.result, same.performedOn, same.method]
  exact .obj (List.rel_append (unchanged [_, _, _, _, _, _, _]) params) (.refl _)

/-- **Hashed texts are unambiguous.** -/
theorem entryMaterial_inj {prevHash otherHash : Option HexDigest} {entry other : EvidenceEntry}
    (same : entryMaterial (prevHash.map HexDigest.text) entry.fields =
      entryMaterial (otherHash.map HexDigest.text) other.fields) :
    prevHash = otherHash ∧ Json.Same (.obj entry.fields) (.obj other.fields) ∧
      entry.Same other := by
  obtain ⟨prev, agree⟩ := entryMaterial_agree rfl same
  have company := (agree "company_id".toList _ _ rfl rfl).str_inj
  have driver := Json.ofOption_inj (agree "driver_id".toList _ _ rfl rfl)
  have vehicle := Json.ofOption_inj (agree "vehicle_id".toList _ _ rfl rfl)
  have kind := (agree "kind".toList _ _ rfl rfl).str_inj
  have result := (agree "result".toList _ _ rfl rfl).str_inj
  have performedOn := (agree "performed_on".toList _ _ rfl rfl).str_inj
  have method := Json.ofOption_inj (agree "method".toList _ _ rfl rfl)
  have params := agree "params".toList _ _ rfl rfl
  have sameEntry : entry.Same other :=
    { companyId := Uuid.text_inj company
      driverId := Option.map_injective (fun _ _ => Uuid.text_inj) driver
      vehicleId := Option.map_injective (fun _ _ => Uuid.text_inj) vehicle
      kind := kind
      result := result
      performedOn := Date.isoformat_inj performedOn
      method := method
      params := params }
  exact ⟨HexDigest.getD_inj prev, sameEntry.fields, sameEntry⟩

def reorderedEntry (first second : Str × Json) : EvidenceEntry where
  companyId := ⟨1⟩
  driverId := none
  vehicleId := some ⟨2⟩
  kind := "UVV".toList
  result := "PASSED".toList
  performedOn := ⟨2026, 3, 1, by decide⟩
  method := some "Prüfung".toList
  params := [first, second]

theorem entryMaterial_inj_reordered :
    (none : Option HexDigest) = none ∧
      Json.Same
        (.obj (reorderedEntry ("b".toList, .list [.int (-1)]) ("a".toList, .null)).fields)
        (.obj (reorderedEntry ("a".toList, .null) ("b".toList, .list [.int (-1)])).fields) ∧
      (reorderedEntry ("b".toList, .list [.int (-1)]) ("a".toList, .null)).Same
        (reorderedEntry ("a".toList, .null) ("b".toList, .list [.int (-1)])) :=
  entryMaterial_inj (by decide +kernel)

theorem EvidenceEntry.Same.entryMaterial_eq {entry other : EvidenceEntry}
    (dict : Json.Dict (.obj entry.params)) (same : entry.Same other) (prevHash : Option Str) :
    entryMaterial prevHash entry.fields = entryMaterial prevHash other.fields := by
  have hashed : Json.Dict (.obj (("prev".toList, .str (prevHash.getD [])) :: entry.fields)) := by
    have ofOption : ∀ text, Json.Dict (.ofOption text) := by
      intro text
      cases text with
      | none => exact .null
      | some text => exact .str text
    refine .obj materialNames_nodup ?_
    simp only [EvidenceEntry.fields, entryFields, List.forall_mem_cons, List.not_mem_nil,
      false_implies, implies_true, and_true]
    exact ⟨.str _, .str _, ofOption _, ofOption _, .str _, .str _, .str _, ofOption _, dict⟩
  cases same.fields with
  | obj each arrangement =>
      have each := List.Forall₂.cons
        (Json.SameMember.named "prev".toList (.str (prevHash.getD []))) each
      exact (Json.dumps_eq_iff hashed).mpr (.obj each (arrangement.cons _))

end Fristenwaechter
