import Locus.Proofs.Sorting.Search
import Locus.Sorting.Merge

/-!
# Merges in order

Where the comparison tells an order, merging two runs sorts their values, and
ties go to the first run. Every turn takes either values of the holder that are
not greater than any of the rival, which changes nothing about the order they
stand in, or values of the rival that are less than all of the holder, which may
pass it. From the back the runs change places and the order is the opposite one,
so both ends are covered by the same argument.
-/

namespace Locus

namespace Sorting

variable {α ε β : Type}

/-- The first value of a run is less than all values of another list. -/
def StartsBefore (order : β → β → Ordering) (run values : List β) : Prop :=
  ∀ first ∈ run.head?, ∀ value ∈ values, order first value = .lt

/-- All values of a list are less than the last value of a run. -/
def EndsBehind (order : β → β → Ordering) (run values : List β) : Prop :=
  ∀ last ∈ run.getLast?, ∀ value ∈ values, order value last = .lt

section Stretches

variable {order : β → β → Ordering} {merged front back rest : List β}

theorem isLE_of_lt {first second : β} (less : order first second = .lt) :
    (order first second).isLE := by
  rw [less]
  rfl

theorem isLE_of_mem [Std.TransCmp order]
    {first value : β}
    (rising : Rising order (first :: rest))
    (member : value ∈ first :: rest) :
    (order first value).isLE := by
  rcases List.mem_cons.mp member with rfl | inRest
  · exact Std.ReflCmp.isLE_rfl
  · exact List.rel_of_pairwise_cons rising inRest

theorem isLE_of_getLast [Std.TransCmp order]
    {last value : β}
    (rising : Rising order rest)
    (lastOf : last ∈ rest.getLast?)
    (member : value ∈ rest) :
    (order value last).isLE := by
  rw [← List.dropLast_append_getLast? last lastOf] at rising member
  rcases List.mem_append.mp member with inFront | isLast
  · exact (List.pairwise_append.mp rising).2.2 value inFront last
      (List.mem_singleton_self last)
  · rw [List.mem_singleton.mp isLast]
    exact Std.ReflCmp.isLE_rfl

/-- A stretch that continues the merged values may stand before others that
continue them as well. -/
theorem rising_ahead
    (frontRises : Rising order (merged ++ (front ++ back)))
    (restRises : Rising order (merged ++ rest))
    (first : ∀ value ∈ front, ∀ other ∈ rest, (order value other).isLE) :
    Rising order (merged ++ (front ++ rest)) := by
  obtain ⟨mergedOnly, frontOnly, frontApart⟩ :=
    List.pairwise_append.mp frontRises
  obtain ⟨-, restOnly, restApart⟩ := List.pairwise_append.mp restRises
  refine List.pairwise_append.mpr ⟨mergedOnly, ?_, ?_⟩
  · exact List.pairwise_append.mpr
      ⟨(List.pairwise_append.mp frontOnly).1, restOnly, first⟩
  · intro value member other otherMember
    rcases List.mem_append.mp otherMember with inFront | inRest
    · exact frontApart value member other (List.mem_append_left back inFront)
    · exact restApart value member other inRest

end Stretches

section Reverse

variable {order : β → β → Ordering} {run values : List β}

theorem EndsBehind.reverse (ends : EndsBehind order run values) :
    StartsBefore (fun left right => order right left) run.reverse
      values.reverse := by
  intro last lastOf value member
  rw [List.head?_reverse] at lastOf
  exact ends last lastOf value (List.mem_reverse.mp member)

theorem StartsBefore.reverse (starts : StartsBefore order run values) :
    EndsBehind (fun left right => order right left) run.reverse
      values.reverse := by
  intro first firstOf value member
  rw [List.getLast?_reverse] at firstOf
  exact starts first firstOf value (List.mem_reverse.mp member)

end Reverse

namespace Contest

/-- The contest of what stands for the values. -/
def map (wrap : β → α) (contest : Contest β) : Contest α where
  merged := contest.merged.map wrap
  holder := contest.holder.map wrap
  rival := contest.rival.map wrap

section Map

variable (wrap : β → α) {contest : Contest β}

@[simp] theorem isSettled_map :
    (contest.map wrap).isSettled = contest.isSettled := by
  obtain ⟨merged, holder, rival⟩ := contest
  rcases holder with _ | ⟨first, _ | ⟨second, rest⟩⟩ <;> cases rival <;> rfl

@[simp] theorem toList_map :
    (contest.map wrap).toList = contest.toList.map wrap := by
  simp [map, toList]

@[simp] theorem takeHolder_map {count : Nat} :
    (contest.map wrap).takeHolder count =
      (contest.takeHolder count).map wrap := by
  simp [map, takeHolder]

@[simp] theorem takeRival_map {count : Nat} :
    (contest.map wrap).takeRival count =
      (contest.takeRival count).map wrap := by
  simp [map, takeRival]

end Map

theorem isSettled_of_rival
    {contest : Contest β}
    (none : contest.rival = []) :
    contest.isSettled := by
  obtain ⟨merged, holder, rival⟩ := contest
  obtain rfl : rival = [] := none
  rcases holder with _ | ⟨first, _ | ⟨second, rest⟩⟩ <;> rfl

/-- How many values are not merged yet. -/
def remaining (contest : Contest β) : Nat :=
  contest.holder.length + contest.rival.length

/-- All values in the order they stand in, where the holder goes first. -/
def standing (contest : Contest β) : List β :=
  contest.merged.reverse ++ (contest.holder ++ contest.rival)

/-- The merged values rise and go on to rise into both runs, of which the holder
ends behind the rival. -/
structure Fair (order : β → β → Ordering) (contest : Contest β) : Prop where
  holderRises : Rising order (contest.merged.reverse ++ contest.holder)
  rivalRises : Rising order (contest.merged.reverse ++ contest.rival)
  behind : EndsBehind order contest.holder contest.rival

section Fair

variable {order : β → β → Ordering} {contest : Contest β}
variable {front back : List β}

theorem Fair.takeHolder
    (fair : contest.Fair order)
    (whole : contest.holder = front ++ back)
    (first : ∀ value ∈ front, ∀ other ∈ contest.rival,
      (order value other).isLE) :
    (contest.takeHolder front.length).Fair order ∧
      (contest.takeHolder front.length).standing = contest.standing := by
  obtain ⟨merged, holder, rival⟩ := contest
  obtain rfl : holder = front ++ back := whole
  obtain ⟨holderRises, rivalRises, behind⟩ := fair
  simp only [Contest.takeHolder, standing, List.take_left, List.drop_left]
    at holderRises rivalRises behind first ⊢
  refine ⟨⟨?_, ?_, ?_⟩, ?_⟩
  · simpa using holderRises
  · simpa using rising_ahead holderRises rivalRises first
  · intro last lastOf
    refine behind last ?_
    rw [List.getLast?_append, Option.mem_def.mp lastOf]
    rfl
  · simp

variable [Std.TransCmp order]

theorem Fair.takeRival
    (fair : contest.Fair order)
    (whole : contest.rival = front ++ back)
    (first : ∀ value ∈ front, ∀ other ∈ contest.holder,
      order value other = .lt) :
    (contest.takeRival front.length).Fair order ∧
      StablePerm order (contest.takeRival front.length).standing
        contest.standing := by
  obtain ⟨merged, holder, rival⟩ := contest
  obtain rfl : rival = front ++ back := whole
  obtain ⟨holderRises, rivalRises, behind⟩ := fair
  simp only [Contest.takeRival, standing, List.take_left, List.drop_left]
    at holderRises rivalRises behind first ⊢
  refine ⟨⟨?_, ?_, ?_⟩, ?_⟩
  · simpa using rising_ahead rivalRises holderRises
      fun value member other otherMember =>
        isLE_of_lt (first value member other otherMember)
  · simpa using rivalRises
  · intro last lastOf value member
    exact behind last lastOf value (List.mem_append_right front member)
  · rw [List.reverse_append, List.reverse_reverse, List.append_assoc]
    refine StablePerm.append_left _ ?_
    rw [← List.append_assoc, ← List.append_assoc]
    exact (StablePerm.append_comm first).append_right back

/-- When nothing is left to be asked, the rest of the rival goes first. -/
theorem Fair.of_isSettled
    (fair : contest.Fair order)
    (settled : contest.isSettled) :
    Arranges order contest.toList contest.standing := by
  obtain ⟨merged, holder, rival⟩ := contest
  obtain ⟨holderRises, rivalRises, behind⟩ := fair
  have less : ∀ value ∈ rival, ∀ other ∈ holder, order value other = .lt := by
    rcases holder with _ | ⟨last, _ | ⟨second, rest⟩⟩
    · exact fun _ _ _ => nofun
    · intro value member other otherMember
      rw [List.mem_singleton.mp otherMember]
      exact behind last rfl value member
    · cases rival with
      | nil => exact fun _ => nofun
      | cons next rivalRest => cases settled
  simp only [toList, standing, List.append_assoc] at holderRises rivalRises ⊢
  refine ⟨?_, (StablePerm.append_comm less).append_left _⟩
  rw [← List.append_nil rival] at rivalRises
  exact rising_ahead rivalRises holderRises
    fun value member other otherMember =>
      isLE_of_lt (less value member other otherMember)

end Fair

/-- A fair contest that goes on from another one, in which tied values keep their
order and fewer are left, unless nothing is left to be asked. -/
structure Follows (order : β → β → Ordering) (next contest : Contest β) :
    Prop where
  fair : next.Fair order
  same : StablePerm order next.standing contest.standing
  progress : next.isSettled ∨ next.remaining < contest.remaining

section Steps

variable {order : β → β → Ordering} [Std.TransCmp order]
variable {contest : Contest β} {front back rest : List β} {value : β}

/-- It is enough to compare with the next value of the rival. -/
theorem Fair.takeHolder_of_next
    (fair : contest.Fair order)
    (holderWhole : contest.holder = front ++ back)
    (rivalWhole : contest.rival = value :: rest)
    (fronts : ∀ other ∈ front, (order other value).isLE) :
    (contest.takeHolder front.length).Fair order ∧
      (contest.takeHolder front.length).standing = contest.standing := by
  have rivalRises := (List.pairwise_append.mp fair.rivalRises).2.1
  rw [rivalWhole] at rivalRises
  apply fair.takeHolder holderWhole
  intro other member next nextMember
  rw [rivalWhole] at nextMember
  exact Std.TransCmp.isLE_trans (fronts other member)
    (isLE_of_mem rivalRises nextMember)

/-- It is enough to compare with the next value of the holder. -/
theorem Fair.takeRival_of_next
    (fair : contest.Fair order)
    (holderWhole : contest.holder = value :: rest)
    (rivalWhole : contest.rival = front ++ back)
    (fronts : ∀ other ∈ front, order other value = .lt) :
    (contest.takeRival front.length).Fair order ∧
      StablePerm order (contest.takeRival front.length).standing
        contest.standing := by
  have holderRises := (List.pairwise_append.mp fair.holderRises).2.1
  rw [holderWhole] at holderRises
  apply fair.takeRival rivalWhole
  intro other member next nextMember
  rw [holderWhole] at nextMember
  exact Std.TransCmp.lt_of_lt_of_isLE (fronts other member)
    (isLE_of_mem holderRises nextMember)

theorem Fair.follows_chargeHolder
    (fair : contest.Fair order)
    (holderWhole : contest.holder = front ++ back)
    (rivalWhole : contest.rival = value :: rest)
    (fronts : ∀ other ∈ front, (order other value).isLE)
    (backs : ∀ other ∈ back, order value other = .lt) :
    Follows order
      (if (contest.takeHolder front.length).isSettled then
        contest.takeHolder front.length
      else
        (contest.takeHolder front.length).takeRival 1)
      contest := by
  obtain ⟨middle, middleSame⟩ :=
    fair.takeHolder_of_next holderWhole rivalWhole fronts
  split
  case isTrue settled => exact ⟨middle, middleSame ▸ .refl order _, .inl settled⟩
  case isFalse =>
    have holderRest : (contest.takeHolder front.length).holder = back := by
      rw [Contest.takeHolder, holderWhole, List.drop_left]
    have rivalRest : (contest.takeHolder front.length).rival =
      [value] ++ rest := rivalWhole
    obtain ⟨last, lastSame⟩ := middle.takeRival rivalRest (by
      intro other member
      rw [List.mem_singleton.mp member, holderRest]
      exact backs)
    refine ⟨last, middleSame ▸ lastSame, .inr ?_⟩
    simp only [remaining, Contest.takeHolder, Contest.takeRival, holderWhole,
      rivalWhole, List.length_drop, List.length_append, List.length_cons]
    omega

theorem Fair.follows_chargeRival
    (fair : contest.Fair order)
    (holderWhole : contest.holder = value :: rest)
    (rivalWhole : contest.rival = front ++ back)
    (fronts : ∀ other ∈ front, order other value = .lt)
    (backs : ∀ other ∈ back, (order value other).isLE) :
    Follows order
      (if (contest.takeRival front.length).isSettled then
        contest.takeRival front.length
      else
        (contest.takeRival front.length).takeHolder 1)
      contest := by
  obtain ⟨middle, middleSame⟩ :=
    fair.takeRival_of_next holderWhole rivalWhole fronts
  split
  case isTrue settled => exact ⟨middle, middleSame, .inl settled⟩
  case isFalse =>
    have rivalRest : (contest.takeRival front.length).rival = back := by
      rw [Contest.takeRival, rivalWhole, List.drop_left]
    have holderRest : (contest.takeRival front.length).holder =
      [value] ++ rest := holderWhole
    obtain ⟨last, lastSame⟩ := middle.takeHolder holderRest (by
      intro other member
      rw [List.mem_singleton.mp member, rivalRest]
      exact backs)
    refine ⟨last, lastSame ▸ middleSame, .inr ?_⟩
    simp only [remaining, Contest.takeHolder, Contest.takeRival, holderWhole,
      rivalWhole, List.length_drop, List.length_append, List.length_cons]
    omega

end Steps

theorem Follows.trans
    {order : β → β → Ordering}
    {last middle contest : Contest β}
    (back : last.Follows order middle)
    (front : middle.Follows order contest)
    (unsettled : ¬middle.isSettled) :
    last.Follows order contest where
  fair := back.fair
  same := back.same.trans front.same
  progress := back.progress.imp_right
    (·.trans (front.progress.resolve_left unsettled))

/-- From every fair contest the step has a result, which follows it. -/
def GoesOn {ρ : Type} (order : β → β → Ordering) (wrap : β → α)
    (step : Contest α → Except ε (Contest α × ρ)) : Prop :=
  ∀ contest : Contest β, contest.Fair order → ∃ next result,
    step (contest.map wrap) = .ok (map wrap next, result) ∧
      next.Follows order contest

section Turns

variable {near : End} {precedes : α → α → Except ε Bool} {wrap : β → α}
variable {order : β → β → Ordering} [Std.TransCmp order]
variable {contest : Contest β}
variable (asked : ∀ rival holder,
  near.overtakes precedes (wrap rival) (wrap holder) =
    .ok (order rival holder).isLT)

include asked

theorem goesOn_chargeHolder :
    GoesOn order wrap (chargeHolder near precedes) := by
  rintro ⟨merged, holder, rival⟩ fair
  cases rival with
  | nil =>
      exact ⟨⟨merged, holder, []⟩, 0, rfl, fair, .refl order _,
        .inl (isSettled_of_rival rfl)⟩
  | cons value rest =>
      obtain ⟨front, back, whole, fronts, backs, found⟩ :=
        exists_gallop_of_rising (asked value)
          (List.pairwise_append.mp fair.holderRises).2.1 near
      refine ⟨_, front.length, ?_,
        fair.follows_chargeHolder whole rfl fronts backs⟩
      simp only [apply_ite (map wrap), ← takeRival_map, ← takeHolder_map,
        ← isSettled_map wrap]
      rw [chargeHolder]
      simp only [map, List.map_cons, found]
      rfl

theorem goesOn_chargeRival :
    GoesOn order wrap (chargeRival near precedes) := by
  rintro ⟨merged, holder, rival⟩ fair
  cases holder with
  | nil => exact ⟨⟨merged, [], rival⟩, 0, rfl, fair, .refl order _, .inl rfl⟩
  | cons value rest =>
      have inherited : rival.Pairwise fun first second =>
          (order second value).isLT → (order first value).isLT := by
        refine (List.pairwise_append.mp fair.rivalRises).2.1.imp ?_
        intro first second ordered less
        rw [Ordering.isLT_iff_eq_lt] at less ⊢
        exact Std.TransCmp.lt_of_isLE_of_lt ordered less
      obtain ⟨front, back, whole, fronts, backs, found⟩ :=
        exists_gallop (fun other => near.overtakes precedes other (wrap value))
          (fun other => asked other value) inherited near
      simp only [isLT_eq_false_iff, Ordering.isLT_iff_eq_lt] at fronts backs
      refine ⟨_, front.length, ?_,
        fair.follows_chargeRival rfl whole fronts backs⟩
      simp only [apply_ite (map wrap), ← takeRival_map, ← takeHolder_map,
        ← isSettled_map wrap]
      rw [chargeRival]
      simp only [map, List.map_cons, found]
      rfl

theorem goesOn_chargeFirst : GoesOn order wrap (chargeFirst near precedes) := by
  cases near with
  | front => exact goesOn_chargeHolder asked
  | back => exact goesOn_chargeRival asked

theorem goesOn_chargeSecond :
    GoesOn order wrap (chargeSecond near precedes) := by
  cases near with
  | front => exact goesOn_chargeRival asked
  | back => exact goesOn_chargeHolder asked

theorem goesOn_charge : GoesOn order wrap (charge near precedes) := by
  intro contest fair
  obtain ⟨middle, first, front, frontFollows⟩ :=
    goesOn_chargeFirst asked contest fair
  rw [charge, front]
  simp only [bind, Except.bind, isSettled_map]
  split
  case isTrue => exact ⟨middle, true, rfl, frontFollows⟩
  case isFalse unsettled =>
    obtain ⟨last, second, back, backFollows⟩ :=
      goesOn_chargeSecond asked middle frontFollows.fair
    rw [back]
    exact ⟨last, _, rfl, backFollows.trans frontFollows unsettled⟩

theorem exists_duel
    (fair : contest.Fair order)
    (unsettled : ¬contest.isSettled) :
    ∃ (next : Contest β) (won : Bool),
      duel near precedes (contest.map wrap) =
        .ok (next.map wrap, won) ∧ next.Follows order contest := by
  obtain ⟨merged, holder, rival⟩ := contest
  rcases holder with _ | ⟨first, holderRest⟩
  · exact absurd rfl unsettled
  rcases rival with _ | ⟨second, rivalRest⟩
  · exact absurd (isSettled_of_rival rfl) unsettled
  rw [duel]
  simp only [map, List.map_cons, asked]
  cases overtaken : (order second first).isLT with
  | true =>
      rw [Ordering.isLT_iff_eq_lt] at overtaken
      obtain ⟨next, same⟩ :=
        fair.takeRival_of_next rfl List.singleton_append.symm
          (List.forall_mem_singleton.mpr overtaken)
      refine ⟨_, true, rfl, next, same, .inr ?_⟩
      simp [remaining, Contest.takeRival]
  | false =>
      rw [isLT_eq_false_iff] at overtaken
      obtain ⟨next, same⟩ :=
        fair.takeHolder_of_next List.singleton_append.symm rfl
          (List.forall_mem_singleton.mpr overtaken)
      refine ⟨_, false, rfl, next, same ▸ .refl order _, .inr ?_⟩
      simp [remaining, Contest.takeHolder]

/-- Merging to the end sorts the values, and ties go to the holder. -/
theorem exists_run
    {turns : Nat}
    {phase : Phase}
    {patience : Nat}
    (fair : contest.Fair order)
    (enough : contest.isSettled ∨ contest.remaining ≤ turns) :
    ∃ (merged : List β) (learnt : Nat),
      run near precedes turns phase patience (contest.map wrap) =
        .ok (merged.map wrap, learnt) ∧
      Arranges order merged contest.standing := by
  induction turns generalizing phase patience contest with
  | zero =>
      have settled : contest.isSettled := by
        refine enough.elim id fun empty => isSettled_of_rival ?_
        exact List.eq_nil_of_length_eq_zero
          (Nat.eq_zero_of_add_eq_zero_left (Nat.le_zero.mp empty))
      refine ⟨contest.toList, patience, ?_, fair.of_isSettled settled⟩
      rw [← toList_map]
      rfl
  | succ turns turnsHypothesis =>
      unfold run
      rw [isSettled_map]
      split
      case isTrue settled =>
        refine ⟨contest.toList, patience, ?_, fair.of_isSettled settled⟩
        rw [toList_map]
      case isFalse unsettled =>
        have further : ∀ {next : Contest β} {phase : Phase} {patience : Nat},
            next.Follows order contest →
              ∃ (merged : List β) (learnt : Nat),
                run near precedes turns phase patience (next.map wrap) =
                  .ok (merged.map wrap, learnt) ∧
                Arranges order merged contest.standing := by
          intro next phase patience follows
          have left : next.isSettled ∨ next.remaining ≤ turns :=
            follows.progress.imp_right fun less =>
              Nat.le_of_lt_succ (less.trans_le (enough.resolve_left unsettled))
          obtain ⟨merged, learnt, steps, arranges⟩ :=
            turnsHypothesis follows.fair left
          exact ⟨merged, learnt, steps, arranges.trans follows.same⟩
        cases phase with
        | duel rival row =>
            obtain ⟨next, won, step, follows⟩ :=
              exists_duel asked fair unsettled
            simp only [step, bind, Except.bind]
            exact further follows
        | charge again =>
            obtain ⟨next, paid, step, follows⟩ := goesOn_charge asked contest fair
            simp only [step, bind, Except.bind]
            split <;> exact further follows

/-- The first turn goes to the rival without a question. -/
theorem exists_run_of_startsBefore
    {holder rival : List β}
    {turns : Nat}
    (holderRises : Rising order holder)
    (rivalRises : Rising order rival)
    (starts : StartsBefore order rival holder)
    (ends : EndsBehind order holder rival)
    (enough : holder.length + rival.length ≤ turns)
    (phase : Phase)
    (patience : Nat) :
    ∃ (merged : List β) (learnt : Nat),
      run near precedes turns phase patience
          (takeRival ⟨[], holder.map wrap, rival.map wrap⟩ 1) =
        .ok (merged.map wrap, learnt) ∧
      Arranges order merged (holder ++ rival) := by
  have fair : Fair order ⟨[], holder, rival⟩ := ⟨holderRises, rivalRises, ends⟩
  have opened : ((takeRival ⟨[], holder, rival⟩ 1).Fair order ∧
      StablePerm order (takeRival ⟨[], holder, rival⟩ 1).standing
        (holder ++ rival)) := by
    cases rival with
    | nil => exact ⟨fair, .refl order _⟩
    | cons value rest =>
        apply fair.takeRival List.singleton_append.symm
        intro first member
        rw [List.mem_singleton.mp member]
        exact starts value rfl
  have left : (takeRival ⟨[], holder, rival⟩ 1).remaining ≤ turns := by
    simp only [remaining, Contest.takeRival, List.length_drop]
    omega
  obtain ⟨merged, learnt, steps, arranges⟩ :=
    exists_run asked opened.1 (.inr left)
  refine ⟨merged, learnt, ?_, arranges.trans opened.2⟩
  rw [← steps, ← takeRival_map]
  rfl

end Turns

end Contest

/-- What stands right already frames a merge of what lies between. -/
theorem Arranges.frame
    {order : β → β → Ordering}
    [Std.TransCmp order]
    {front middle kept tail merged : List β}
    (firstRises : Rising order (front ++ middle))
    (secondRises : Rising order (kept ++ tail))
    (fronts : ∀ value ∈ front, ∀ other ∈ kept ++ tail,
      (order value other).isLE)
    (tails : ∀ value ∈ middle, ∀ other ∈ tail, (order value other).isLE)
    (arranges : Arranges order merged (middle ++ kept)) :
    Arranges order (front ++ merged ++ tail)
      (front ++ middle ++ (kept ++ tail)) := by
  obtain ⟨rising, same⟩ := arranges
  obtain ⟨frontOnly, -, frontApart⟩ := List.pairwise_append.mp firstRises
  obtain ⟨-, tailOnly, tailApart⟩ := List.pairwise_append.mp secondRises
  refine ⟨?_, ?_⟩
  · refine List.pairwise_append.mpr
      ⟨List.pairwise_append.mpr ⟨frontOnly, rising, ?_⟩, tailOnly, ?_⟩
    · intro value member other otherMember
      rcases List.mem_append.mp (same.mem_iff.mp otherMember) with
        inMiddle | inKept
      · exact frontApart value member other inMiddle
      · exact fronts value member other (List.mem_append_left tail inKept)
    · intro value member other otherMember
      rcases List.mem_append.mp member with inFront | inMerged
      · exact fronts value inFront other (List.mem_append_right kept otherMember)
      rcases List.mem_append.mp (same.mem_iff.mp inMerged) with
        inMiddle | inKept
      · exact tails value inMiddle other otherMember
      · exact tailApart value inKept other otherMember
  · have framed := (same.append_left front).append_right tail
    simpa only [List.append_assoc] using framed

section Runs

variable {precedes : α → α → Except ε Bool} {wrap : β → α}
variable {order : β → β → Ordering} [Std.TransCmp order]
variable {first second : List β}
variable (tells : Tells order wrap precedes)

include tells

theorem exists_mergeUneven
    (firstRises : Rising order first)
    (secondRises : Rising order second)
    (starts : StartsBefore order second first)
    (ends : EndsBehind order first second)
    (patience : Nat) :
    ∃ (merged : List β) (learnt : Nat),
      mergeUneven precedes patience (first.map wrap) (second.map wrap) =
        .ok (merged.map wrap, learnt) ∧
      Arranges order merged (first ++ second) := by
  unfold mergeUneven
  simp only [List.length_map]
  split
  case isTrue =>
    have asked : ∀ rival holder,
        End.front.overtakes precedes (wrap rival) (wrap holder) =
          .ok (order rival holder).isLT := tells
    exact Contest.exists_run_of_startsBefore asked firstRises secondRises
      starts ends le_rfl (.duel true 0) patience
  case isFalse =>
    -- From the back everything is turned round: the lists, the order, and which
    -- of the runs wins ties.
    let opposite := fun left right => order right left
    have transitive : Std.TransCmp opposite := .opposite
    have asked : ∀ rival holder,
        End.back.overtakes precedes (wrap rival) (wrap holder) =
          .ok (opposite rival holder).isLT := fun rival holder =>
      tells holder rival
    have enough : second.reverse.length + first.reverse.length ≤
        first.length + second.length := by
      rw [List.length_reverse, List.length_reverse, Nat.add_comm]
    obtain ⟨merged, learnt, steps, rising, same⟩ :=
      Contest.exists_run_of_startsBefore asked
        (List.pairwise_reverse.mpr secondRises)
        (List.pairwise_reverse.mpr firstRises)
        ends.reverse starts.reverse enough (.duel true 0) patience
    refine ⟨merged.reverse, learnt, ?_, List.pairwise_reverse.mpr rising, ?_⟩
    · simp only [← List.map_reverse, steps, bind, Except.bind]
      rfl
    · have whole : (second.reverse ++ first.reverse).reverse =
          first ++ second := by simp
      rw [← whole]
      exact same.reverse.opposite

/-- Merging two runs sorts their values, and ties go to the first run. -/
theorem exists_merge
    (firstRises : Rising order first)
    (secondRises : Rising order second)
    (patience : Nat) :
    ∃ (merged : List β) (learnt : Nat),
      merge precedes patience (first.map wrap) (second.map wrap) =
        .ok (merged.map wrap, learnt) ∧
      Arranges order merged (first ++ second) := by
  cases second with
  | nil =>
      refine ⟨first, patience, rfl, firstRises, ?_⟩
      rw [List.append_nil]
      exact .refl order first
  | cons next rest =>
      obtain ⟨front, middle, rfl, fronts, middles, ahead⟩ :=
        exists_gallop_of_rising (tells next) firstRises .front
      have middleRises := (List.pairwise_append.mp firstRises).2.1
      rw [List.map_cons, merge, ahead]
      simp only [bind, Except.bind, ← List.map_drop, List.drop_left,
        List.getLast?_map]
      cases lastOf : middle.getLast? with
      | none =>
          obtain rfl : middle = [] := List.getLast?_eq_none_iff.mp lastOf
          rw [List.append_nil] at firstRises ⊢
          refine ⟨front ++ next :: rest, patience, ?_, ?_, .refl order _⟩
          · simp [pure, Except.pure]
          · refine List.pairwise_append.mpr ⟨firstRises, secondRises, ?_⟩
            intro value member other otherMember
            exact Std.TransCmp.isLE_trans (fronts value member)
              (isLE_of_mem secondRises otherMember)
      | some last =>
          obtain ⟨kept, tail, whole, kepts, tails, behind⟩ :=
            exists_gallop_back_of_rising
              (fun value => precedes value (wrap last))
              (fun value => tells value last) secondRises
          simp only [bind, Except.bind] at behind
          rw [← List.map_cons]
          rw [whole] at secondRises behind ⊢
          have starts : StartsBefore order kept middle := by
            intro value valueOf other member
            have head : (next :: rest).head? = some value := by
              rw [whole, List.head?_append, Option.mem_def.mp valueOf]
              rfl
            cases head
            exact middles other member
          have ends : EndsBehind order middle kept := by
            intro value valueOf other member
            cases lastOf.symm.trans valueOf
            exact kepts other member
          obtain ⟨merged, learnt, steps, arranges⟩ :=
            exists_mergeUneven tells middleRises
              (List.pairwise_append.mp secondRises).1 starts ends patience
          refine ⟨front ++ merged ++ tail, learnt, ?_,
            arranges.frame firstRises secondRises ?_ ?_⟩
          · simp only [Option.map_some, ← List.map_take, ← List.map_drop, behind,
              List.length_map, List.length_append, Nat.add_sub_cancel_right,
              List.take_left, List.drop_left, steps]
            rw [List.map_append, List.map_append]
            rfl
          · intro value member other otherMember
            rw [← whole] at otherMember secondRises
            exact Std.TransCmp.isLE_trans (fronts value member)
              (isLE_of_mem secondRises otherMember)
          · intro value member other otherMember
            exact Std.TransCmp.isLE_trans
              (isLE_of_getLast middleRises lastOf member)
              (tails other otherMember)

end Runs

end Sorting

end Locus
