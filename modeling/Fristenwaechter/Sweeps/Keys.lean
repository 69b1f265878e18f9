import Fristenwaechter.Behaviour.Jobs
import Fristenwaechter.Evidence.Encoding
import Fristenwaechter.Sweeps.Calendar

/-!
Owns what a dedup key says: the event of a reminder or of a nag can be read back from
its key, and two days that share a notch or an ISO week lie close together.
-/

namespace Fristenwaechter

theorem colon_not_decimal (n : Nat) : ':' ∉ decimal n := by
  intro member
  exact absurd (decimal_isDigit member) (by decide)

theorem colon_not_digits (width n : Nat) : ':' ∉ digits 10 width n := by
  induction width generalizing n with
  | zero => simp [digits]
  | succ width inductionHypothesis =>
      intro member
      rcases List.mem_append.mp member with high | low
      · exact inductionHypothesis _ high
      · have all : ∀ digit < 10, ':' ≠ Nat.digitChar digit := by decide
        exact all (n % 10) (Nat.mod_lt _ (by decide)) (List.mem_singleton.mp low)

theorem colon_not_token {dueOn today : Date} {token : Str} {display : Int}
    (notch : reminderNotch dueOn today = some (token, display)) : ':' ∉ token := by
  unfold reminderNotch at notch
  dsimp only at notch
  split at notch
  · obtain ⟨n, _, same⟩ := Option.map_eq_some_iff.mp notch
    cases same
    exact colon_not_decimal n
  · cases notch
    intro member
    simp only [List.mem_append, List.mem_cons, twoDigits] at member
    rcases member with (prefixed | year) | isW | week
    · revert prefixed
      decide
    · exact colon_not_decimal _ year
    · cases isW
    · exact colon_not_digits _ _ week

theorem split_at_colon {first second rest other : Str} (firstFree : ':' ∉ first)
    (secondFree : ':' ∉ second) (same : first ++ ':' :: rest = second ++ ':' :: other) :
    first = second ∧ rest = other := by
  induction first generalizing second with
  | nil =>
      cases second with
      | nil => exact ⟨rfl, (List.cons.inj same).2⟩
      | cons c more =>
          obtain ⟨isColon, _⟩ := List.cons.inj same
          exact absurd (by simp [← isColon]) secondFree
  | cons c more inductionHypothesis =>
      cases second with
      | nil =>
          obtain ⟨isColon, _⟩ := List.cons.inj same
          exact absurd (by simp [isColon]) firstFree
      | cons d others =>
          obtain ⟨sameHead, sameTail⟩ := List.cons.inj same
          have tails := inductionHypothesis
            (fun inside => firstFree (List.mem_cons_of_mem _ inside))
            (fun inside => secondFree (List.mem_cons_of_mem _ inside)) sameTail
          exact ⟨by rw [sameHead, tails.1], tails.2⟩

theorem reminderKey_inj {first second : Uuid} {token other : Str}
    {contact target : OutboxChannel × Str} (tokenFree : ':' ∉ token) (otherFree : ':' ∉ other)
    (same : contactKey (reminderEvent first token) contact =
      contactKey (reminderEvent second other) target) : first = second ∧ token = other := by
  simp only [contactKey, reminderEvent, List.append_assoc, List.cons_append] at same
  have afterPrefix := List.append_cancel_left same
  obtain ⟨sameId, rest⟩ := List.append_inj afterPrefix (by simp)
  exact ⟨Uuid.text_inj sameId, (split_at_colon tokenFree otherFree (List.cons.inj rest).2).1⟩

theorem nagKey_inj {first second : Uuid} {day other : Date} {contact target : OutboxChannel × Str}
    (same : contactKey (nagEvent first day) contact = contactKey (nagEvent second other) target) :
    first = second ∧ day = other := by
  simp only [contactKey, nagEvent, List.append_assoc] at same
  have afterPrefix := List.append_cancel_left same
  obtain ⟨sameId, rest⟩ := List.append_inj afterPrefix (by simp)
  have afterNag := List.append_cancel_left rest
  obtain ⟨sameDay, _⟩ := List.append_inj afterNag (by simp [Date.isoformat, twoDigits])
  exact ⟨Uuid.text_inj sameId, Date.isoformat_inj sameDay⟩

theorem breachKey_inj {first second : Uuid} {contact target : OutboxChannel × Str}
    (same : contactKey (breachedEvent first) contact = contactKey (breachedEvent second) target) :
    first = second := by
  simp only [contactKey, breachedEvent, List.append_assoc] at same
  have afterPrefix := List.append_cancel_left same
  exact Uuid.text_inj (List.append_inj afterPrefix (by simp)).1

theorem nagKey_ne_breachKey {first second : Uuid} {day : Date}
    {contact target : OutboxChannel × Str} :
    contactKey (nagEvent first day) contact ≠ contactKey (breachedEvent second) target := by
  intro same
  simp only [contactKey, nagEvent, breachedEvent, List.append_assoc] at same
  have afterPrefix := List.append_cancel_left same
  have rest := (List.append_inj afterPrefix (by simp)).2
  have heads := congrArg (fun text => text[1]?) rest
  simp at heads

/-- The notch of a day: the smallest threshold not below the days left, or the ISO week
of a day after the due date. -/
inductive Notch (dueOn today : Date) : Str → Prop
  | ahead (n : Nat) (among : n ∈ reminderNotches) (left : 0 ≤ daysUntil dueOn today)
      (covers : daysUntil dueOn today ≤ n)
      (smallest : ∀ m ∈ reminderNotches, daysUntil dueOn today ≤ m → n ≤ m) :
      Notch dueOn today (decimal n)
  | overdue (isOver : daysUntil dueOn today < 0) :
      Notch dueOn today
        ("ov".toList ++ decimal today.isoWeek.1 ++ 'W' :: twoDigits today.isoWeek.2)

theorem find_threshold {d : Int} {n : Nat} :
    (reminderNotches.find? fun n : Nat => d ≤ (n : Int)) = some n ↔
      n ∈ reminderNotches ∧ d ≤ n ∧ ∀ m ∈ reminderNotches, d ≤ m → n ≤ m := by
  simp only [reminderNotches, List.find?_cons, List.find?_nil, List.mem_cons, List.not_mem_nil,
    or_false, forall_eq_or_imp, forall_eq]
  repeat' split
  all_goals simp only [decide_eq_true_eq, decide_eq_false_iff_not, Option.some.injEq,
    reduceCtorEq, false_iff] at *
  all_goals omega

theorem notch_iff {dueOn today : Date} {token : Str} :
    (∃ display, reminderNotch dueOn today = some (token, display)) ↔ Notch dueOn today token := by
  unfold reminderNotch
  dsimp only
  constructor
  · rintro ⟨display, notch⟩
    split at notch
    · rename_i left
      obtain ⟨n, found, same⟩ := Option.map_eq_some_iff.mp notch
      obtain ⟨among, covers, smallest⟩ := find_threshold.mp found
      cases same
      exact .ahead n among left covers smallest
    · cases notch
      exact .overdue (by omega)
  · intro notch
    cases notch with
    | ahead n among left covers smallest =>
        rw [if_pos left, find_threshold.mpr ⟨among, covers, smallest⟩]
        exact ⟨_, rfl⟩
    | overdue isOver =>
        rw [if_neg (by omega)]
        exact ⟨_, rfl⟩

/-- A deadline at most 90 days ahead has a notch. -/
theorem notch_exists {dueOn today : Date} (soon : daysUntil dueOn today ≤ 90) :
    ∃ token, Notch dueOn today token := by
  by_cases left : 0 ≤ daysUntil dueOn today
  · have some : ((reminderNotches.find? fun n : Nat => daysUntil dueOn today ≤ (n : Int))).isSome :=
      List.find?_isSome.mpr ⟨90, by decide, by simpa using soon⟩
    obtain ⟨n, found⟩ := Option.isSome_iff_exists.mp some
    obtain ⟨among, covers, smallest⟩ := find_threshold.mp found
    exact ⟨_, .ahead n among left covers smallest⟩
  · exact ⟨_, .overdue (by omega)⟩

theorem notch_cases {dueOn today : Date} {token : Str} {display : Int}
    (notch : reminderNotch dueOn today = some (token, display)) :
    (∃ n ∈ reminderNotches, token = decimal n ∧ 0 ≤ daysUntil dueOn today ∧
        daysUntil dueOn today ≤ 90) ∨
      daysUntil dueOn today < 0 ∧
        token = "ov".toList ++ decimal today.isoWeek.1 ++ 'W' :: twoDigits today.isoWeek.2 := by
  unfold reminderNotch at notch
  dsimp only at notch
  split at notch
  · rename_i ahead
    obtain ⟨n, found, same⟩ := Option.map_eq_some_iff.mp notch
    cases same
    have member := List.mem_of_find?_eq_some found
    have below := List.find?_some found
    have most : n ≤ 90 := by
      have all : ∀ n ∈ reminderNotches, n ≤ 90 := by decide
      exact all n member
    simp only [decide_eq_true_eq] at below
    exact .inl ⟨n, member, rfl, ahead, by omega⟩
  · rename_i isOver
    cases notch
    exact .inr ⟨by omega, rfl⟩

/-- No threshold is printed like the token of an overdue reminder. -/
theorem threshold_ne_overdue {n : Nat} (among : n ∈ reminderNotches) (rest : Str) :
    decimal n ≠ "ov".toList ++ rest := by
  intro same
  have heads := congrArg List.head? same
  revert heads
  have all : ∀ n ∈ reminderNotches, (decimal n).head? ≠ some 'o' := by decide
  exact fun heads => all n among heads

/-- The token of an overdue reminder names its ISO week. -/
theorem weekToken_inj {one two : Date} :
    "ov".toList ++ decimal one.isoWeek.1 ++ 'W' :: twoDigits one.isoWeek.2 =
        "ov".toList ++ decimal two.isoWeek.1 ++ 'W' :: twoDigits two.isoWeek.2 ↔
      one.isoWeek = two.isoWeek := by
  constructor
  · intro same
    obtain ⟨sameYear, sameWeek⟩ := List.append_inj' same (by simp [twoDigits])
    have years := decimal_inj (List.append_cancel_left sameYear)
    have weeks := digits_inj (by decide) (by decide) (List.cons.inj sameWeek).2
    have oneSmall := (isoWeek_spec one).1
    have twoSmall := (isoWeek_spec two).1
    exact Prod.ext years (by omega)
  · intro same
    rw [same]

/-- **Notches.** Two days with the same token of one due date are at most 90 days
apart. -/
theorem notch_near {dueOn one two : Date} {token : Str} {first second : Int}
    (isOne : reminderNotch dueOn one = some (token, first))
    (isTwo : reminderNotch dueOn two = some (token, second)) :
    two.toOrdinal ≤ one.toOrdinal + 90 := by
  rcases notch_cases isOne with ⟨n, member, rfl, low, high⟩ | ⟨isOver, isToken⟩
  · rcases notch_cases isTwo with ⟨m, _, _, lowTwo, highTwo⟩ | ⟨_, same⟩
    · unfold daysUntil at low high lowTwo highTwo
      omega
    · rw [List.append_assoc] at same
      exact absurd same (threshold_ne_overdue member _)
  · rcases notch_cases isTwo with ⟨m, member, same, _⟩ | ⟨_, same⟩
    · rw [isToken, List.append_assoc] at same
      exact absurd same.symm (threshold_ne_overdue member _)
    · rw [isToken] at same
      have near := isoWeek_near (weekToken_inj.mp same)
      omega

end Fristenwaechter
