import Mathlib.Data.List.Forall2
import Fristenwaechter.Evidence.Encoding
import Fristenwaechter.Web.Dsgvo

/-!
Owns what the export of a tenant depends on: the rows of the tenant and nothing else, but
of these every column, the password hashes among them.
-/

namespace Fristenwaechter

/-! ### The rows of a tenant -/

/-- The rows of the company; its own row is the one with its id. -/
def Tables.companyRows (tables : Tables) (companyId : Uuid) : Model → List Row
  | .company => (tables.rows .company).filter fun row => row.id = some companyId
  | model => tables.ofCompany model companyId

/-- The key of the table in the export. -/
def Model.key : Model → String
  | company => "company"
  | accountUser => "users"
  | driver => "drivers"
  | vehicle => "vehicles"
  | deadline => "deadlines"
  | escalationCase => "escalation_cases"
  | complianceCheckLog => "check_logs"

/-- The tables in the order of the export. -/
def Model.all : List Model :=
  [.company, .accountUser, .driver, .vehicle, .deadline, .escalationCase, .complianceCheckLog]

theorem Model.mem_all (model : Model) : model ∈ Model.all := by
  cases model <;> decide

def passwordHash : Column :=
  ⟨"password_hash", .text⟩

/-- The column holds no secret. -/
def Model.Open (model : Model) (column : Column) : Prop :=
  column ∈ model.columns ∧ (model = .accountUser → column ≠ passwordHash)

/-- Two rows of a table agree on all columns that hold no secret. -/
def Model.Agrees (model : Model) (first second : Row) : Prop :=
  ∀ column, model.Open column → first column = second column

/-- Two states agree on the rows of the company, up to the password hashes. -/
def Tables.Agree (first second : Tables) (companyId : Uuid) : Prop :=
  ∀ model, List.Forall₂ model.Agrees (first.companyRows companyId model)
    (second.companyRows companyId model)

/-- Every row of the company is in the export, each of them once, and nothing else is. -/
def Tables.ExportsOnce (tables : Tables) (companyId : Uuid) : Prop :=
  collect tables companyId = Model.all.map (fun model =>
      (model.key, (tables.companyRows companyId model).map model.exported)) ∧
    ∀ model, ((tables.companyRows companyId model).map model.exported).Nodup

/-! ### Exported rows -/

theorem exported_eq_iff {model : Model} {first second : Row} :
    model.exported first = model.exported second ↔ ∀ column ∈ model.columns,
      jsonSafe column.type (first column) = jsonSafe column.type (second column) := by
  unfold Model.exported
  rw [Json.obj.injEq, List.map_inj_left]
  exact forall₂_congr fun column _ => by simp

theorem jsonSafe_text_inj {first second : Option Str}
    (same : jsonSafe .text first = jsonSafe .text second) : first = second := by
  cases first <;> cases second <;> cases same <;> rfl

theorem jsonSafe_uuid_inj {first second : Option Uuid}
    (same : jsonSafe .uuid first = jsonSafe .uuid second) : first = second := by
  cases first with
  | none => cases second <;> cases same; rfl
  | some one =>
      cases second with
      | none => cases same
      | some two => exact congrArg some (Uuid.text_inj (Json.str.inj same))

theorem Model.id_mem (model : Model) : ⟨"id", .uuid⟩ ∈ model.columns := by
  cases model <;> exact List.mem_append_left _ List.mem_cons_self

/-- The id of a row can be read off its export. -/
theorem id_of_exported {model : Model} {first second : Row}
    (same : model.exported first = model.exported second) : first.id = second.id :=
  jsonSafe_uuid_inj (exported_eq_iff.mp same _ model.id_mem)

theorem passwordHash_mem : passwordHash ∈ Model.accountUser.columns := by
  decide

theorem exported_user_iff {first second : Row} (agrees : Model.accountUser.Agrees first second) :
    Model.accountUser.exported first = Model.accountUser.exported second ↔
      first passwordHash = second passwordHash := by
  constructor
  · intro same
    exact jsonSafe_text_inj (exported_eq_iff.mp same _ passwordHash_mem)
  · intro sameHash
    refine exported_eq_iff.mpr fun column member => congrArg _ ?_
    by_cases secret : column = passwordHash
    · rw [secret, sameHash]
    · exact agrees column ⟨member, fun _ => secret⟩

theorem exported_open {model : Model} (other : model ≠ .accountUser) {first second : Row}
    (agrees : model.Agrees first second) : model.exported first = model.exported second :=
  exported_eq_iff.mpr fun column member =>
    congrArg _ (agrees column ⟨member, fun same => absurd same other⟩)

/-! ### Lists of rows -/

section Lists

variable {Item : Type} {first second : List Item}

theorem map_eq_iff_forall₂ {Value : Type} {f : Item → Value} :
    first.map f = second.map f ↔ List.Forall₂ (fun one two => f one = f two) first second := by
  rw [← List.forall₂_map_right_iff, ← List.forall₂_map_left_iff, List.forall₂_eq_eq_eq]

theorem forall₂_iff {related one two : Item → Item → Prop} (all : List.Forall₂ related first second)
    (equivalent : ∀ x y, related x y → (one x y ↔ two x y)) :
    List.Forall₂ one first second ↔ List.Forall₂ two first second := by
  induction all with
  | nil => simp
  | cons head _ inductionHypothesis =>
      rw [List.forall₂_cons, List.forall₂_cons, equivalent _ _ head, inductionHypothesis]

end Lists

theorem companyRows_sublist (tables : Tables) (companyId : Uuid) (model : Model) :
    (tables.companyRows companyId model).Sublist (tables.rows model) := by
  cases model <;> exact List.filter_sublist

/-- The rows of a company are exported as different objects. -/
theorem exported_nodup (tables : Tables) (companyId : Uuid) (model : Model) :
    ((tables.companyRows companyId model).map model.exported).Nodup := by
  have distinct : ((tables.companyRows companyId model).map Row.id).Nodup :=
    (tables.distinct model).sublist ((companyRows_sublist tables companyId model).map _)
  have apart := List.pairwise_map.mp distinct
  exact List.pairwise_map.mpr (apart.imp fun differ same => differ (id_of_exported same))

theorem find_eq_filter {rows : List Row} (distinct : (rows.map Row.id).Nodup) (id : Uuid) :
    (rows.find? fun row => row.id = some id).toList = rows.filter fun row => row.id = some id := by
  induction rows with
  | nil => rfl
  | cons row rest inductionHypothesis =>
      rw [List.map_cons, List.nodup_cons] at distinct
      obtain ⟨fresh, restDistinct⟩ := distinct
      by_cases own : row.id = some id
      · have others : rest.filter (fun other => other.id = some id) = [] := by
          rw [List.filter_eq_nil_iff]
          intro other member same
          have isOther : other.id = row.id := (of_decide_eq_true same).trans own.symm
          exact fresh (isOther ▸ List.mem_map_of_mem member)
        simp [own, others]
      · simpa [own] using inductionHypothesis restDistinct

/-- The branch of the company exports its row like the others. -/
theorem exportedCompany_eq (tables : Tables) (companyId : Uuid) :
    exportedCompany tables companyId =
      (tables.companyRows companyId .company).map Model.company.exported := by
  unfold exportedCompany Tables.get Tables.companyRows
  rw [← find_eq_filter (tables.distinct .company)]
  cases (tables.rows .company).find? fun row => row.id = some companyId <;> rfl

theorem collect_eq (tables : Tables) (companyId : Uuid) :
    collect tables companyId = Model.all.map fun model =>
      (model.key, (tables.companyRows companyId model).map model.exported) := by
  unfold collect
  rw [exportedCompany_eq]
  rfl

theorem exportsOnce (tables : Tables) (companyId : Uuid) : tables.ExportsOnce companyId :=
  ⟨collect_eq tables companyId, exported_nodup tables companyId⟩

/-- **The export.** Every row of the company is exported once. Two states that agree on
the rows of the company up to the password hashes have the same export exactly if the
hashes agree as well; the rows of other companies do not matter. -/
theorem export_secret_iff {first second : Tables} {companyId : Uuid}
    (agree : first.Agree second companyId) :
    (collect first companyId = collect second companyId ∧ first.ExportsOnce companyId ∧
        second.ExportsOnce companyId) ↔
      (first.companyRows companyId .accountUser).map (fun row => row passwordHash) =
        (second.companyRows companyId .accountUser).map fun row => row passwordHash := by
  have users : (first.companyRows companyId .accountUser).map Model.accountUser.exported =
      (second.companyRows companyId .accountUser).map Model.accountUser.exported ↔
        (first.companyRows companyId .accountUser).map (fun row => row passwordHash) =
          (second.companyRows companyId .accountUser).map fun row => row passwordHash := by
    rw [map_eq_iff_forall₂, map_eq_iff_forall₂]
    exact forall₂_iff (agree .accountUser) fun one two agrees => exported_user_iff agrees
  rw [and_iff_left ⟨exportsOnce first companyId, exportsOnce second companyId⟩, collect_eq,
    collect_eq, List.map_inj_left, ← users]
  constructor
  · intro same
    exact (Prod.mk.inj (same .accountUser (Model.mem_all _))).2
  · intro sameUsers model _
    by_cases isUser : model = .accountUser
    · rw [isUser, sameUsers]
    · refine congrArg _ (map_eq_iff_forall₂.mpr ?_)
      exact (agree model).imp fun one two agrees => exported_open isUser agrees

/-! ### Two tenants -/

def exportedUser (id companyId : Uuid) (hash : Str) : Row := fun column =>
  match column with
  | ⟨name, .uuid⟩ => if name = "id" then some id else some companyId
  | ⟨name, .text⟩ => if name = "password_hash" then some hash else none
  | _ => none

@[simp] theorem exportedUser_id (id companyId : Uuid) (hash : Str) :
    (exportedUser id companyId hash).id = some id := by
  unfold Row.id exportedUser
  exact if_pos rfl

@[simp] theorem exportedUser_companyId (id companyId : Uuid) (hash : Str) :
    (exportedUser id companyId hash).companyId = some companyId := by
  unfold Row.companyId exportedUser
  exact if_neg (by decide)

@[simp] theorem exportedUser_passwordHash (id companyId : Uuid) (hash : Str) :
    exportedUser id companyId hash passwordHash = some hash := by
  unfold exportedUser passwordHash
  exact if_pos rfl

def twoUsers (hash otherHash : Str) : Tables where
  rows
    | .accountUser => [exportedUser ⟨1⟩ ⟨100⟩ hash, exportedUser ⟨2⟩ ⟨200⟩ otherHash]
    | _ => []
  distinct model := by
    cases model with
    | accountUser => simp
    | _ => exact List.nodup_nil

theorem twoUsers_rows (hash otherHash : Str) (model : Model) :
    (twoUsers hash otherHash).companyRows ⟨100⟩ model =
      if model = .accountUser then [exportedUser ⟨1⟩ ⟨100⟩ hash] else [] := by
  cases model with
  | accountUser =>
      simp [Tables.companyRows, Tables.ofCompany, twoUsers]
  | _ => rfl

theorem twoUsers_agree (hash sameHash other next : Str)
    (agrees : Model.accountUser.Agrees (exportedUser ⟨1⟩ ⟨100⟩ hash)
      (exportedUser ⟨1⟩ ⟨100⟩ sameHash)) :
    (twoUsers hash other).Agree (twoUsers sameHash next) ⟨100⟩ := by
  intro model
  rw [twoUsers_rows, twoUsers_rows]
  split
  · rename_i isUser
    exact .cons (isUser ▸ agrees) .nil
  · exact .nil

/-- The hash of another tenant does not show. -/
theorem export_secret_others :
    collect (twoUsers ['a'] ['b']) ⟨100⟩ = collect (twoUsers ['a'] ['c']) ⟨100⟩ :=
  ((export_secret_iff (twoUsers_agree ['a'] ['a'] ['b'] ['c'] fun _ _ => rfl)).mpr
    (by simp only [twoUsers_rows])).1

/-- The own hash does. -/
theorem password_hash_exported :
    ¬ ∀ (first second : Tables) (companyId : Uuid), first.Agree second companyId →
      collect first companyId = collect second companyId ∧ first.ExportsOnce companyId ∧
        second.ExportsOnce companyId := by
  intro claimed
  have agree : (twoUsers ['a'] ['b']).Agree (twoUsers ['c'] ['b']) ⟨100⟩ := by
    refine twoUsers_agree ['a'] ['c'] ['b'] ['b'] fun column isOpen => ?_
    obtain ⟨name, type⟩ := column
    cases type with
    | text =>
        have other : name ≠ "password_hash" := by
          rintro rfl
          exact isOpen.2 rfl rfl
        simp [exportedUser, other]
    | _ => rfl
  have same := (claimed _ _ _ agree).1
  rw [collect_eq, collect_eq, List.map_inj_left] at same
  have sameUsers := (Prod.mk.inj (same .accountUser (Model.mem_all _))).2
  simp only [twoUsers_rows, if_pos] at sameUsers
  have sameUser := (List.cons.inj sameUsers).1
  have sameHash := jsonSafe_text_inj (exported_eq_iff.mp sameUser _ passwordHash_mem)
  simp at sameHash

end Fristenwaechter
