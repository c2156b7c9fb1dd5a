import Locus.Proofs.Sorting.StablePerm
import Locus.Sorting.Search

/-!
# Searches that find the place

A run that is searched falls into a front that has the property and a back that
does not. Then every search finds the length of the front, whichever values it
asks about: an asked value that has the property belongs to the front, together
with all before it, and one that has not belongs to the back.
-/

namespace Locus

namespace Sorting

variable {α ε : Type}

section Places

variable {values front back rest : List α} {width : Nat} {asked : α}
variable (whole : values = front ++ back)
variable (behind : values.drop width = asked :: rest)

include whole behind

/-- Behind a place within the front there is the rest of the front. -/
theorem mem_front_of_drop (inFront : width < front.length) :
    asked ∈ front ∧ rest = front.drop (width + 1) ++ back := by
  rw [whole, List.drop_append_of_le_length inFront.le,
    List.drop_eq_getElem_cons inFront, List.cons_append] at behind
  obtain ⟨rfl, rfl⟩ := List.cons.inj behind
  exact ⟨List.getElem_mem inFront, rfl⟩

/-- Before a place in the back there is the front with a part of the back. -/
theorem mem_back_of_drop (inBack : front.length ≤ width) :
    asked ∈ back ∧
      values.take width = front ++ back.take (width - front.length) := by
  rw [whole, List.drop_append, List.drop_eq_nil_of_le inBack,
    List.nil_append] at behind
  have member : asked ∈ back.drop (width - front.length) := by
    rw [behind]
    exact List.mem_cons_self
  rw [whole, List.take_append, List.take_of_length_le inBack]
  exact ⟨List.mem_of_mem_drop member, rfl⟩

end Places

section Equations

variable {near : End} {holds : α → Except ε Bool}
variable {values rest : List α} {width : Nat} {asked : α}

theorem bisect_nil : bisect holds [] = .ok 0 := by
  rw [bisect]
  split
  case h_1 => rfl
  case h_2 behind => cases List.drop_nil.symm.trans behind

theorem bisect_of_drop
    (behind : values.drop (values.length / 2) = asked :: rest) :
    bisect holds values = (do
      if ← holds asked then
        return values.length / 2 + 1 + (← bisect holds rest)
      else
        bisect holds (values.take (values.length / 2))) := by
  rw [bisect]
  split
  case h_1 empty => cases behind.symm.trans empty
  case h_2 again =>
    obtain ⟨rfl, rfl⟩ := List.cons.inj (behind.symm.trans again)
    rfl

theorem stride_of_drop_eq_nil (behind : values.drop width = []) :
    near.stride holds width values = near.bisect holds values := by
  rw [End.stride]
  split
  case h_1 => rfl
  case h_2 again => cases behind.symm.trans again

theorem stride_of_drop (behind : values.drop width = asked :: rest) :
    near.stride holds width values = (do
      if ← holds asked then
        return width + 1 + (← near.stride holds (2 * width + 1) rest)
      else
        near.bisect holds (values.take width)) := by
  rw [End.stride]
  split
  case h_1 empty => cases behind.symm.trans empty
  case h_2 again =>
    obtain ⟨rfl, rfl⟩ := List.cons.inj (behind.symm.trans again)
    rfl

end Equations

section Found

variable {near : End} {holds : α → Except ε Bool} {values front back : List α}

theorem bisect_eq
    (whole : values = front ++ back)
    (fronts : ∀ value ∈ front, holds value = .ok true)
    (backs : ∀ value ∈ back, holds value = .ok false) :
    bisect holds values = .ok front.length := by
  induction values using bisect.induct generalizing front back with
  | case1 values empty =>
      have length := congrArg List.length empty
      rw [List.length_drop, List.length_nil] at length
      obtain rfl : values = [] := List.eq_nil_of_length_eq_zero (by omega)
      obtain ⟨rfl, rfl⟩ := List.append_eq_nil_iff.mp whole.symm
      exact bisect_nil
  | case2 values asked rest behind restHypothesis takeHypothesis =>
      rw [bisect_of_drop behind]
      rcases lt_or_ge (values.length / 2) front.length with inFront | inBack
      · obtain ⟨member, restWhole⟩ := mem_front_of_drop whole behind inFront
        have found := restHypothesis restWhole
          (fun value inRest => fronts value (List.mem_of_mem_drop inRest))
          backs
        rw [fronts asked member, found, List.length_drop]
        exact congrArg Except.ok (by omega)
      · obtain ⟨member, before⟩ := mem_back_of_drop whole behind inBack
        rw [backs asked member]
        exact takeHypothesis before fronts
          fun value inPart => backs value (List.mem_of_mem_take inPart)

theorem bisect_near_eq
    (whole : values = front ++ back)
    (fronts : ∀ value ∈ front, holds value = .ok true)
    (backs : ∀ value ∈ back, holds value = .ok false) :
    near.bisect holds values = .ok front.length := by
  cases near with
  | front => exact bisect_eq whole fronts backs
  | back =>
      have reversed : values.reverse = back.reverse ++ front.reverse := by
        rw [whole, List.reverse_append]
      have others : Sorting.bisect (fun value => return !(← holds value))
          values.reverse = .ok back.reverse.length := by
        apply bisect_eq reversed
        · intro value member
          rw [backs value (List.mem_reverse.mp member)]
          rfl
        · intro value member
          rw [fronts value (List.mem_reverse.mp member)]
          rfl
      rw [End.bisect, others]
      refine congrArg Except.ok ?_
      rw [whole, List.length_append, List.length_reverse,
        Nat.add_sub_cancel_right]

theorem stride_eq
    {width : Nat}
    (whole : values = front ++ back)
    (fronts : ∀ value ∈ front, holds value = .ok true)
    (backs : ∀ value ∈ back, holds value = .ok false) :
    near.stride holds width values = .ok front.length := by
  induction width, values using End.stride.induct generalizing front with
  | case1 width values behind =>
      rw [stride_of_drop_eq_nil behind]
      exact bisect_near_eq whole fronts backs
  | case2 width values asked rest behind restHypothesis =>
      rw [stride_of_drop behind]
      rcases lt_or_ge width front.length with inFront | inBack
      · obtain ⟨member, restWhole⟩ := mem_front_of_drop whole behind inFront
        have found := restHypothesis restWhole
          (fun value inRest => fronts value (List.mem_of_mem_drop inRest))
        rw [fronts asked member, found, List.length_drop]
        exact congrArg Except.ok (by omega)
      · obtain ⟨member, before⟩ := mem_back_of_drop whole behind inBack
        rw [backs asked member]
        exact bisect_near_eq before fronts
          fun value inPart => backs value (List.mem_of_mem_take inPart)

/-- Galloping finds the length of the front. -/
theorem gallop_append
    (fronts : ∀ value ∈ front, holds value = .ok true)
    (backs : ∀ value ∈ back, holds value = .ok false) :
    near.gallop holds (front ++ back) = .ok front.length := by
  cases front with
  | nil =>
      cases back with
      | nil => rfl
      | cons asked rest =>
          rw [List.nil_append, End.gallop, backs asked List.mem_cons_self]
          rfl
  | cons asked rest =>
      rw [List.forall_mem_cons] at fronts
      rw [List.cons_append, End.gallop, fronts.1,
        stride_eq rfl fronts.2 backs]
      exact congrArg Except.ok (Nat.add_comm 1 rest.length)

end Found

section Split

variable {β : Type} {wrap : β → α} {property : β → Bool} {values : List β}

/-- A property that holds of all values before one that has it holds of a front
and of nothing behind it. -/
theorem exists_eq_append_of_pairwise
    (inherited : values.Pairwise fun first second =>
      property second → property first) :
    ∃ front back, values = front ++ back ∧
      (∀ value ∈ front, property value = true) ∧
        ∀ value ∈ back, property value = false := by
  induction values with
  | nil => exact ⟨[], [], rfl, by simp, by simp⟩
  | cons first rest inductionHypothesis =>
      obtain ⟨fromRest, restInherited⟩ := List.pairwise_cons.mp inherited
      cases has : property first with
      | true =>
          obtain ⟨front, back, rfl, fronts, backs⟩ :=
            inductionHypothesis restInherited
          exact ⟨first :: front, back, rfl,
            List.forall_mem_cons.mpr ⟨has, fronts⟩, backs⟩
      | false =>
          refine ⟨[], first :: rest, rfl, by simp, ?_⟩
          refine List.forall_mem_cons.mpr ⟨has, ?_⟩
          intro value member
          have lacks : ¬property value := by
            intro valueHas
            simp [fromRest value member valueHas] at has
          simpa using lacks

variable (holds : α → Except ε Bool)
variable (answers : ∀ value, holds (wrap value) = .ok (property value))
variable (inherited : values.Pairwise fun first second =>
  property second → property first)

include answers inherited

theorem exists_bisect :
    ∃ front back, values = front ++ back ∧
      (∀ value ∈ front, property value = true) ∧
      (∀ value ∈ back, property value = false) ∧
        bisect holds (values.map wrap) = .ok front.length := by
  obtain ⟨front, back, rfl, fronts, backs⟩ :=
    exists_eq_append_of_pairwise inherited
  refine ⟨front, back, rfl, fronts, backs, ?_⟩
  rw [bisect_eq List.map_append, List.length_map]
  · rw [List.forall_mem_map]
    intro value member
    rw [answers, fronts value member]
  · rw [List.forall_mem_map]
    intro value member
    rw [answers, backs value member]

theorem exists_gallop (near : End) :
    ∃ front back, values = front ++ back ∧
      (∀ value ∈ front, property value = true) ∧
      (∀ value ∈ back, property value = false) ∧
        near.gallop holds (values.map wrap) = .ok front.length := by
  obtain ⟨front, back, rfl, fronts, backs⟩ :=
    exists_eq_append_of_pairwise inherited
  refine ⟨front, back, rfl, fronts, backs, ?_⟩
  rw [List.map_append, gallop_append, List.length_map]
  · rw [List.forall_mem_map]
    intro value member
    rw [answers, fronts value member]
  · rw [List.forall_mem_map]
    intro value member
    rw [answers, backs value member]

end Split

section Rising

variable {β : Type} {order : β → β → Ordering} [Std.TransCmp order]
variable {question : α → Except ε Bool} {wrap : β → α} {value : β}
variable {values : List β}
variable (asked : ∀ other, question (wrap other) =
  .ok (order value other).isLT)
variable (rising : Rising order values)

include asked in
omit [Std.TransCmp order] in
theorem not_asked (other : β) :
    (return !(← question (wrap other)) : Except ε Bool) =
      .ok (!(order value other).isLT) := by
  rw [asked]
  rfl

include rising in
theorem not_isLT_inherited :
    values.Pairwise fun first second =>
      !(order value second).isLT → !(order value first).isLT := by
  apply rising.imp
  intro first second ordered notLess
  rw [Bool.not_eq_true', isLT_eq_false_iff] at notLess ⊢
  exact Std.TransCmp.isLE_trans ordered notLess

include asked rising

/-- In a rising run bisecting finds the place behind all values that are not
greater. -/
theorem exists_bisect_of_rising :
    ∃ front back, values = front ++ back ∧
      (∀ other ∈ front, (order other value).isLE) ∧
      (∀ other ∈ back, order value other = .lt) ∧
        bisect (fun other => return !(← question other)) (values.map wrap) =
          .ok front.length := by
  have found := exists_bisect (fun other => return !(← question other))
    (not_asked asked) (not_isLT_inherited rising)
  simpa only [Bool.not_eq_true', Bool.not_eq_false', isLT_eq_false_iff,
    Ordering.isLT_iff_eq_lt] using found

/-- In a rising run galloping finds the same place. -/
theorem exists_gallop_of_rising (near : End) :
    ∃ front back, values = front ++ back ∧
      (∀ other ∈ front, (order other value).isLE) ∧
      (∀ other ∈ back, order value other = .lt) ∧
        near.gallop (fun other => return !(← question other))
          (values.map wrap) = .ok front.length := by
  have found := exists_gallop (fun other => return !(← question other))
    (not_asked asked) (not_isLT_inherited rising) near
  simpa only [Bool.not_eq_true', Bool.not_eq_false', isLT_eq_false_iff,
    Ordering.isLT_iff_eq_lt] using found

end Rising

/-- From the back of a rising run galloping finds the values that are not
less. -/
theorem exists_gallop_back_of_rising
    {β : Type}
    {order : β → β → Ordering}
    [Std.TransCmp order]
    {wrap : β → α}
    {value : β}
    {values : List β}
    (question : α → Except ε Bool)
    (asked : ∀ other, question (wrap other) = .ok (order other value).isLT)
    (rising : Rising order values) :
    ∃ front back, values = front ++ back ∧
      (∀ other ∈ front, order other value = .lt) ∧
      (∀ other ∈ back, (order value other).isLE) ∧
        End.back.gallop (fun other => return !(← question other))
          (values.map wrap).reverse = .ok back.length := by
  let opposite := fun first second => order second first
  have transitive : Std.TransCmp opposite := .opposite
  have askedBack : ∀ other, question (wrap other) =
      .ok (opposite value other).isLT := asked
  have risingBack : Rising opposite values.reverse :=
    List.pairwise_reverse.mpr rising
  obtain ⟨back, front, whole, backs, fronts, found⟩ :=
    exists_gallop_of_rising askedBack risingBack .back
  refine ⟨front.reverse, back.reverse, ?_, ?_, ?_, ?_⟩
  · rw [← List.reverse_append, ← whole, List.reverse_reverse]
  · intro other member
    exact fronts other (List.mem_reverse.mp member)
  · intro other member
    exact backs other (List.mem_reverse.mp member)
  · rw [← List.map_reverse, List.length_reverse]
    exact found

end Sorting

end Locus
