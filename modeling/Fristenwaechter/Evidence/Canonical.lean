import Fristenwaechter.Evidence.Encoding
import Mathlib.Data.Char
import Mathlib.Data.List.Perm.Basic

/-!
Owns that the canonical text of a JSON value is unambiguous: it determines the value up to
the order of object keys, and where the value ends.
-/

namespace Fristenwaechter

namespace Json

/-- Induction over a value and everything nested in it. -/
@[elab_as_elim]
theorem induct {motive : Json → Prop} (null : motive .null) (bool : ∀ value, motive (.bool value))
    (int : ∀ value, motive (.int value)) (str : ∀ text, motive (.str text))
    (list : ∀ items, (∀ item ∈ items, motive item) → motive (.list items))
    (obj : ∀ members, (∀ entry ∈ members, motive entry.2) → motive (.obj members)) :
    ∀ value, motive value :=
  @Json.rec motive (fun items => ∀ item ∈ items, motive item)
    (fun members => ∀ entry ∈ members, motive entry.2) (fun entry => motive entry.2)
    null bool int str list obj
    (by simp) (fun item rest own others => List.forall_mem_cons.mpr ⟨own, others⟩)
    (by simp) (fun entry rest own others => List.forall_mem_cons.mpr ⟨own, others⟩)
    (fun _ _ own => own)

mutual

/-- Values that are equal up to the order of object keys, at every level. -/
inductive Same : Json → Json → Prop
  | null : Same .null .null
  | bool (value : Bool) : Same (.bool value) (.bool value)
  | int (value : Int) : Same (.int value) (.int value)
  | str (text : Str) : Same (.str text) (.str text)
  | list {items others : List Json} (each : List.Forall₂ Same items others) :
      Same (.list items) (.list others)
  | obj {members matching others : List (Str × Json)}
      (each : List.Forall₂ SameMember members matching) (arrangement : matching.Perm others) :
      Same (.obj members) (.obj others)

inductive SameMember : Str × Json → Str × Json → Prop
  | named (name : Str) {value other : Json} (same : Same value other) :
      SameMember (name, value) (name, other)

end

theorem Same.refl (value : Json) : Same value value := by
  induction value using induct with
  | null => exact .null
  | bool value => exact .bool value
  | int value => exact .int value
  | str text => exact .str text
  | list items inductionHypothesis => exact .list (List.forall₂_same.mpr inductionHypothesis)
  | obj members inductionHypothesis =>
      have each : List.Forall₂ SameMember members members :=
        List.forall₂_same.mpr fun entry inside =>
          .named entry.1 (inductionHypothesis entry inside)
      exact .obj each (.refl _)

/-! ### Joined parts -/

theorem joinComma_cons (part : Str) (parts : List Str) :
    joinComma (part :: parts) = part ++ parts.flatMap (',' :: ·) := by
  induction parts generalizing part with
  | nil => simp [joinComma]
  | cons next rest inductionHypothesis =>
      rw [joinComma, inductionHypothesis]
      · rfl
      · simp

theorem dumpsItems_eq (items : List Json) : dumpsItems items = items.map dumps := by
  induction items with
  | nil => rfl
  | cons item rest inductionHypothesis => rw [dumpsItems, inductionHypothesis, List.map_cons]

theorem dumpsMembers_eq (members : List (Str × Json)) :
    dumpsMembers members = members.map fun entry => (entry.1, dumps entry.2) := by
  induction members with
  | nil => rfl
  | cons entry rest inductionHypothesis => rw [dumpsMembers, inductionHypothesis, List.map_cons]

section Joined

variable {α : Type} {print : α → Str} {Agree : α → α → Prop} {close : Char}

/-- The print of a value can be read back wherever no digit follows. -/
def ReadsBack (print : α → Str) (Agree : α → α → Prop) (value : α) : Prop :=
  ∀ other rest tail, Stops rest → Stops tail → print value ++ rest = print other ++ tail →
    Agree value other ∧ rest = tail

/-- What closes a list or an object. -/
structure Closes (print : α → Str) (close : Char) : Prop where
  notComma : close ≠ ','
  notDigit : close.isDigit = false
  notOpening : ∀ value rest tail, print value ++ rest ≠ close :: tail

theorem Closes.stops (closes : Closes print close) (rest : Str) : Stops (close :: rest) := by
  intro c isHead
  cases isHead
  exact closes.notDigit

theorem comma_stops (rest : Str) : Stops (',' :: rest) := by
  intro c isHead
  cases isHead
  decide

theorem more_append_inj (closes : Closes print close) {values others : List α} {rest tail : Str}
    (readsBack : ∀ value ∈ values, ReadsBack print Agree value)
    (same : (values.map print).flatMap (',' :: ·) ++ close :: rest =
      (others.map print).flatMap (',' :: ·) ++ close :: tail) :
    List.Forall₂ Agree values others ∧ rest = tail := by
  have stops : ∀ (values : List α) rest,
      Stops ((values.map print).flatMap (',' :: ·) ++ close :: rest) := by
    intro values rest
    cases values with
    | nil => exact closes.stops rest
    | cons value values => exact comma_stops _
  induction values generalizing others with
  | nil =>
      cases others with
      | nil => exact ⟨.nil, (List.cons.inj same).2⟩
      | cons other others => exact absurd (List.cons.inj same).1 closes.notComma
  | cons value values inductionHypothesis =>
      cases others with
      | nil => exact absurd (List.cons.inj same).1.symm closes.notComma
      | cons other others =>
          simp only [List.map_cons, List.flatMap_cons, List.cons_append, List.append_assoc,
            List.cons.injEq, true_and] at same
          obtain ⟨agree, same⟩ := readsBack value List.mem_cons_self other _ _
            (stops values rest) (stops others tail) same
          obtain ⟨each, sameRest⟩ := inductionHypothesis
            (fun value member => readsBack value (List.mem_cons_of_mem _ member)) same
          exact ⟨.cons agree each, sameRest⟩

/-- Joined parts can be read back up to what closes them, when each part can. -/
theorem joinComma_append_inj (closes : Closes print close) {values others : List α}
    {rest tail : Str} (readsBack : ∀ value ∈ values, ReadsBack print Agree value)
    (same : joinComma (values.map print) ++ close :: rest =
      joinComma (others.map print) ++ close :: tail) :
    List.Forall₂ Agree values others ∧ rest = tail := by
  cases values with
  | nil =>
      cases others with
      | nil => exact ⟨.nil, (List.cons.inj same).2⟩
      | cons other others =>
          rw [List.map_cons, joinComma_cons, List.append_assoc] at same
          exact absurd same.symm (closes.notOpening other _ _)
  | cons value values =>
      cases others with
      | nil =>
          rw [List.map_cons, joinComma_cons, List.append_assoc] at same
          exact absurd same (closes.notOpening value _ _)
      | cons other others =>
          -- a comma in front of both sides makes the first part one like the others
          apply more_append_inj closes readsBack
          rw [List.map_cons, joinComma_cons, List.map_cons, joinComma_cons] at same
          exact congrArg (',' :: ·) same

end Joined

/-! ### Reading back -/

/-- The members in the order of `sort_keys`. -/
def arranged (members : List (Str × Json)) : List (Str × Json) :=
  members.insertionSort fun first second => strLe first.1 second.1

theorem arranged_perm (members : List (Str × Json)) : (arranged members).Perm members :=
  List.perm_insertionSort _ _

/-- One printed member. -/
def dumpsMember (entry : Str × Json) : Str :=
  quote entry.1 ++ ':' :: dumps entry.2

theorem dumps_list (items : List Json) :
    dumps (.list items) = '[' :: (joinComma (items.map dumps) ++ [']']) := by
  rw [dumps, dumpsItems_eq]

theorem dumps_obj (members : List (Str × Json)) :
    dumps (.obj members) = '{' :: (joinComma ((arranged members).map dumpsMember) ++ ['}']) := by
  have sorted : sortMembers (dumpsMembers members) =
      (arranged members).map fun entry => (entry.1, dumps entry.2) := by
    rw [dumpsMembers_eq]
    symm
    apply List.map_insertionSort
    intro first _ second _
    rfl
  rw [dumps, sorted, List.map_map]
  rfl

theorem list_closes : Closes dumps ']' where
  notComma := by decide
  notDigit := by decide
  notOpening := by
    intro value rest tail same
    have isKind : none = some value.kind := kindOf_dumps same
    cases isKind

theorem obj_closes : Closes dumpsMember '}' where
  notComma := by decide
  notDigit := by decide
  notOpening := by
    intro entry rest tail same
    exact absurd (List.cons.inj same).1 (by decide)

theorem dumpsMember_readsBack {entry : Str × Json} (readsBack : ReadsBack dumps Same entry.2) :
    ReadsBack dumpsMember SameMember entry := by
  intro other rest tail restStops tailStops same
  obtain ⟨name, value⟩ := entry
  obtain ⟨otherName, other⟩ := other
  rw [dumpsMember, dumpsMember, List.append_assoc, List.append_assoc] at same
  obtain ⟨rfl, same⟩ := quote_append_inj same
  obtain ⟨sameValue, sameRest⟩ := readsBack other rest tail restStops tailStops
    (List.cons.inj same).2
  exact ⟨.named name sameValue, sameRest⟩

theorem kind_eq {value other : Json} {rest tail : Str}
    (same : dumps value ++ rest = dumps other ++ tail) : other.kind = value.kind := by
  obtain ⟨c, text, shape, isKind⟩ := dumps_kind value
  rw [shape] at same
  exact Option.some.inj ((kindOf_dumps same.symm).symm.trans isKind)

theorem list_readsBack {items : List Json} (readsBack : ∀ item ∈ items, ReadsBack dumps Same item) :
    ReadsBack dumps Same (.list items) := by
  intro other rest tail _ _ same
  have sameKind := kind_eq same
  cases other with
  | list others =>
      rw [dumps_list, dumps_list, List.cons_append, List.cons_append, List.append_assoc,
        List.append_assoc] at same
      obtain ⟨each, sameRest⟩ := joinComma_append_inj list_closes readsBack (List.cons.inj same).2
      exact ⟨.list each, sameRest⟩
  | bool value => cases value <;> cases sameKind
  | _ => cases sameKind

theorem obj_readsBack {members : List (Str × Json)}
    (readsBack : ∀ entry ∈ members, ReadsBack dumps Same entry.2) :
    ReadsBack dumps Same (.obj members) := by
  intro other rest tail _ _ same
  have sameKind := kind_eq same
  cases other with
  | obj others =>
      rw [dumps_obj, dumps_obj, List.cons_append, List.cons_append, List.append_assoc,
        List.append_assoc] at same
      have membersReadBack : ∀ entry ∈ arranged members, ReadsBack dumpsMember SameMember entry :=
        fun entry member =>
          dumpsMember_readsBack (readsBack entry ((arranged_perm members).mem_iff.mp member))
      obtain ⟨each, sameRest⟩ :=
        joinComma_append_inj obj_closes membersReadBack (List.cons.inj same).2
      obtain ⟨matching, eachMatches, arrangement⟩ :=
        List.perm_comp_forall₂ (arranged_perm members).symm each
      exact ⟨.obj eachMatches (arrangement.trans (arranged_perm others)), sameRest⟩
  | bool value => cases value <;> cases sameKind
  | _ => cases sameKind

/-- **Canonical text is unambiguous.** It determines the value up to the order of object keys,
and where the value ends. -/
theorem dumps_readsBack (value : Json) : ReadsBack dumps Same value := by
  induction value using induct with
  | null =>
      intro other rest tail _ _ same
      have sameKind := kind_eq same
      cases other with
      | null => exact ⟨.null, List.append_cancel_left same⟩
      | bool value => cases value <;> cases sameKind
      | _ => cases sameKind
  | bool value =>
      intro other rest tail _ _ same
      have sameKind := kind_eq same
      cases other with
      | bool other =>
          cases value <;> cases other <;> cases sameKind <;>
            exact ⟨.bool _, List.append_cancel_left same⟩
      | _ => cases value <;> cases sameKind
  | int value =>
      intro other rest tail restStops tailStops same
      have sameKind := kind_eq same
      cases other with
      | int other =>
          rw [dumps, dumps] at same
          obtain ⟨rfl, sameRest⟩ := decimalInt_append_inj restStops tailStops same
          exact ⟨.int value, sameRest⟩
      | bool value => cases value <;> cases sameKind
      | _ => cases sameKind
  | str text =>
      intro other rest tail _ _ same
      have sameKind := kind_eq same
      cases other with
      | str other =>
          rw [dumps, dumps] at same
          obtain ⟨rfl, sameRest⟩ := quote_append_inj same
          exact ⟨.str text, sameRest⟩
      | bool value => cases value <;> cases sameKind
      | _ => cases sameKind
  | list items inductionHypothesis => exact list_readsBack inductionHypothesis
  | obj members inductionHypothesis => exact obj_readsBack inductionHypothesis

theorem dumps_same {value other : Json} (same : dumps value = dumps other) : Same value other := by
  have stops : Stops [] := by simp [Stops]
  exact (dumps_readsBack value other [] [] stops stops (congrArg (· ++ []) same)).1

/-! ### Members -/

/-- No name stands twice among the members. -/
def Named (members : List (Str × Json)) : Prop :=
  (members.map Prod.fst).Nodup

theorem mem_of_member {members : List (Str × Json)} {name : Str} {value : Json}
    (found : member name members = some value) : (name, value) ∈ members := by
  obtain ⟨entry, isEntry, rfl⟩ := Option.map_eq_some_iff.mp found
  have isName : entry.1 = name := by simpa using List.find?_some isEntry
  rw [← isName]
  exact List.mem_of_find?_eq_some isEntry

theorem Named.unique {members : List (Str × Json)} (named : Named members) {name : Str}
    {value other : Json} (one : (name, value) ∈ members) (two : (name, other) ∈ members) :
    value = other :=
  congrArg Prod.snd (List.inj_on_of_nodup_map named one two rfl)

theorem Same.agree {members others : List (Str × Json)} (same : Same (.obj members) (.obj others))
    (named : Named others) (name : Str) (value other : Json)
    (found : member name members = some value) (otherFound : member name others = some other) :
    Same value other := by
  cases same with
  | @obj _ matching _ each arrangement =>
      have matched : ∀ entry ∈ members, ∃ own ∈ matching, SameMember entry own := by
        clear found arrangement
        induction each with
        | nil => simp
        | cons agrees _ inductionHypothesis =>
            intro entry inside
            rcases List.mem_cons.mp inside with rfl | inside
            · exact ⟨_, List.mem_cons_self, agrees⟩
            · obtain ⟨own, ownInside, agrees⟩ := inductionHypothesis entry inside
              exact ⟨own, List.mem_cons_of_mem _ ownInside, agrees⟩
      obtain ⟨own, inside, agrees⟩ := matched _ (mem_of_member found)
      cases agrees with
      | named _ same =>
          rw [← named.unique (arrangement.mem_iff.mp inside) (mem_of_member otherFound)]
          exact same

theorem Same.str_inj {text other : Str} (same : Same (.str text) (.str other)) : text = other := by
  cases same
  rfl

theorem Same.single {name text : Str} {others : List (Str × Json)}
    (same : Same (.obj [(name, .str text)]) (.obj others)) : others = [(name, .str text)] := by
  cases same with
  | obj each arrangement =>
      cases each with
      | cons agrees rest =>
          cases rest
          cases agrees with
          | named _ same =>
              cases same
              exact List.perm_singleton.mp arrangement.symm

theorem Same.empty {others : List (Str × Json)} (same : Same (.obj []) (.obj others)) :
    others = [] := by
  cases same with
  | obj each arrangement =>
      cases each
      exact List.perm_nil.mp arrangement.symm

/-! ### Determinism -/

/-- No object has a name twice, at any level, as in a Python dict. -/
inductive Dict : Json → Prop
  | null : Dict .null
  | bool (value : Bool) : Dict (.bool value)
  | int (value : Int) : Dict (.int value)
  | str (text : Str) : Dict (.str text)
  | list {items : List Json} (each : ∀ item ∈ items, Dict item) : Dict (.list items)
  | obj {members : List (Str × Json)} (named : Named members)
      (each : ∀ entry ∈ members, Dict entry.2) : Dict (.obj members)

theorem strLe_cons {c d : Char} {first second : Str} :
    strLe (c :: first) (d :: second) = true ↔ c < d ∨ c = d ∧ strLe first second = true := by
  simp only [strLe, Bool.or_eq_true, Bool.and_eq_true, decide_eq_true_eq, beq_iff_eq]
  rfl

theorem strLe_total (first second : Str) :
    strLe first second = true ∨ strLe second first = true := by
  induction first generalizing second with
  | nil => simp [strLe]
  | cons c first inductionHypothesis =>
      cases second with
      | nil => simp [strLe]
      | cons d second =>
          rw [strLe_cons, strLe_cons]
          rcases lt_trichotomy c d with less | rfl | greater
          · exact .inl (.inl less)
          · exact (inductionHypothesis second).imp (.inr ⟨rfl, ·⟩) (.inr ⟨rfl, ·⟩)
          · exact .inr (.inl greater)

theorem strLe_antisymm {first second : Str} (le : strLe first second = true)
    (ge : strLe second first = true) : first = second := by
  induction first generalizing second with
  | nil =>
      cases second with
      | nil => rfl
      | cons d second => simp [strLe] at ge
  | cons c first inductionHypothesis =>
      cases second with
      | nil => simp [strLe] at le
      | cons d second =>
          rw [strLe_cons] at le ge
          rcases le with less | ⟨rfl, le⟩
          · rcases ge with greater | ⟨rfl, _⟩
            · exact absurd less (lt_asymm greater)
            · exact absurd less (lt_irrefl _)
          · rcases ge with greater | ⟨_, ge⟩
            · exact absurd greater (lt_irrefl _)
            · rw [inductionHypothesis le ge]

theorem strLe_trans {first second third : Str} (one : strLe first second = true)
    (two : strLe second third = true) : strLe first third = true := by
  induction first generalizing second third with
  | nil => simp [strLe]
  | cons c first inductionHypothesis =>
      cases second with
      | nil => simp [strLe] at one
      | cons d second =>
          cases third with
          | nil => simp [strLe] at two
          | cons e third =>
              rw [strLe_cons] at one two ⊢
              rcases one with less | ⟨rfl, one⟩
              · rcases two with further | ⟨rfl, _⟩
                · exact .inl (lt_trans less further)
                · exact .inl less
              · rcases two with further | ⟨rfl, two⟩
                · exact .inl further
                · exact .inr ⟨rfl, inductionHypothesis one two⟩

theorem sortMembers_perm {members others : List (Str × Str)}
    (distinct : (members.map Prod.fst).Nodup) (perm : members.Perm others) :
    sortMembers members = sortMembers others := by
  have total : Std.Total fun first second : Str × Str => strLe first.1 second.1 = true :=
    ⟨fun first second => strLe_total first.1 second.1⟩
  have trans : IsTrans (Str × Str) fun first second => strLe first.1 second.1 = true :=
    ⟨fun _ _ _ => strLe_trans⟩
  have sorted : ∀ members, (sortMembers members).Pairwise
      fun first second => strLe first.1 second.1 = true :=
    fun members => List.pairwise_insertionSort _ members
  have permSorted : ∀ members, (sortMembers members).Perm members :=
    fun members => List.perm_insertionSort _ members
  apply List.Perm.eq_of_pairwise _ (sorted members) (sorted others)
    (((permSorted members).trans perm).trans (permSorted others).symm)
  intro first second firstInside secondInside le ge
  have sameName : first.1 = second.1 := strLe_antisymm le ge
  exact List.inj_on_of_nodup_map distinct ((permSorted members).mem_iff.mp firstInside)
    (perm.mem_iff.mpr ((permSorted others).mem_iff.mp secondInside)) sameName

theorem Same.dumps_eq {value other : Json} (dict : Dict value) (same : Same value other) :
    dumps value = dumps other := by
  induction value using induct generalizing other with
  | list items inductionHypothesis =>
      cases dict with
      | list dicts =>
          cases same with
          | @list _ others each =>
              have printed : items.map dumps = others.map dumps := by
                induction each with
                | nil => rfl
                | @cons item other items others same _ rest =>
                    rw [List.forall_mem_cons] at inductionHypothesis dicts
                    rw [List.map_cons, List.map_cons, inductionHypothesis.1 dicts.1 same,
                      rest inductionHypothesis.2 dicts.2]
              rw [dumps_list, dumps_list, printed]
  | obj members inductionHypothesis =>
      cases dict with
      | obj named dicts =>
          cases same with
          | @obj _ matching others each arrangement =>
              have printed : dumpsMembers members = dumpsMembers matching := by
                clear named arrangement
                induction each with
                | nil => rfl
                | cons agrees _ rest =>
                    rw [List.forall_mem_cons] at inductionHypothesis dicts
                    cases agrees with
                    | named name same =>
                        rw [dumpsMembers, dumpsMembers, inductionHypothesis.1 dicts.1 same,
                          rest inductionHypothesis.2 dicts.2]
              have distinct : ((dumpsMembers matching).map Prod.fst).Nodup := by
                rw [← printed, dumpsMembers_eq, List.map_map]
                exact named
              have permuted : (dumpsMembers matching).Perm (dumpsMembers others) := by
                rw [dumpsMembers_eq, dumpsMembers_eq]
                exact arrangement.map _
              rw [dumps, dumps, printed, sortMembers_perm distinct permuted]
  | _ =>
      cases same
      rfl

/-- The canonical text of a Python value is the same exactly up to the order of object keys. -/
theorem dumps_eq_iff {value other : Json} (dict : Dict value) :
    dumps value = dumps other ↔ Same value other :=
  ⟨dumps_same, Same.dumps_eq dict⟩

end Json

end Fristenwaechter
