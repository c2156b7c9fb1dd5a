import Locus.Proofs.Order

/-!
# Stable rearrangements

A rearrangement is stable when tied values keep their order: whatever value is
looked at, the values tied with it make up the same list before and after. Two
stretches may be exchanged if one is less throughout, and so a falling list may
be reversed. A list has a single rising arrangement that is stable, so any
way to reach it is as good as another.
-/

namespace Locus

namespace Sorting

variable {α ε β : Type} {order : β → β → Ordering}

/-- A comparison of what stands for the values tells which of two is less. -/
def Tells (order : β → β → Ordering) (wrap : β → α)
    (precedes : α → α → Except ε Bool) : Prop :=
  ∀ first second, precedes (wrap first) (wrap second) =
    .ok (order first second).isLT

theorem isLT_eq_false_iff [Std.OrientedCmp order] {first second : β} :
    (order first second).isLT = false ↔ (order second first).isLE := by
  have swapped : order second first = (order first second).swap :=
    Std.OrientedCmp.eq_swap
  rw [swapped]
  cases order first second <;> decide

/-- No value comes after a greater one. -/
def Rising (order : β → β → Ordering) (values : List β) : Prop :=
  values.Pairwise fun first second => (order first second).isLE

/-- The lists hold the same values, and those that are tied in the same
order. -/
def StablePerm (order : β → β → Ordering) (firsts seconds : List β) : Prop :=
  ∀ value, firsts.filter (fun other => order value other = .eq) =
    seconds.filter (fun other => order value other = .eq)

namespace StablePerm

variable {firsts seconds thirds others rest : List β}

theorem refl (order : β → β → Ordering) (values : List β) :
    StablePerm order values values :=
  fun _ => rfl

theorem symm (same : StablePerm order firsts seconds) :
    StablePerm order seconds firsts :=
  fun value => (same value).symm

theorem trans
    (front : StablePerm order firsts seconds)
    (back : StablePerm order seconds thirds) :
    StablePerm order firsts thirds :=
  fun value => (front value).trans (back value)

theorem append
    (front : StablePerm order firsts seconds)
    (back : StablePerm order others rest) :
    StablePerm order (firsts ++ others) (seconds ++ rest) := by
  intro value
  rw [List.filter_append, List.filter_append, front value, back value]

theorem append_left
    (front : List β)
    (back : StablePerm order firsts seconds) :
    StablePerm order (front ++ firsts) (front ++ seconds) :=
  (refl order front).append back

theorem append_right
    (back : List β)
    (front : StablePerm order firsts seconds) :
    StablePerm order (firsts ++ back) (seconds ++ back) :=
  front.append (refl order back)

theorem reverse (same : StablePerm order firsts seconds) :
    StablePerm order firsts.reverse seconds.reverse := by
  intro value
  rw [List.filter_reverse, List.filter_reverse, same value]

section Laws

variable [Std.TransCmp order]

/-- Ties look the same from both ends of the order. -/
theorem opposite (same : StablePerm order firsts seconds) :
    StablePerm (fun first second => order second first) firsts seconds := by
  intro value
  have sides : ∀ other, order other value = .eq ↔ order value other = .eq :=
    fun _ => Std.OrientedCmp.eq_comm
  simp only [sides]
  exact same value

/-- Two stretches may be exchanged if one of them is less throughout. -/
theorem append_comm
    (less : ∀ first ∈ firsts, ∀ second ∈ seconds,
      order first second = .lt) :
    StablePerm order (firsts ++ seconds) (seconds ++ firsts) := by
  intro value
  rw [List.filter_append, List.filter_append]
  -- At most one of the stretches holds values that are tied with the given one.
  by_cases tied : ∃ first ∈ firsts, order value first = .eq
  · obtain ⟨first, member, firstTied⟩ := tied
    have none : seconds.filter (fun other => order value other = .eq) = [] := by
      rw [List.filter_eq_nil_iff]
      intro second secondMember secondTied
      have tied : order first second = .eq :=
        Std.TransCmp.eq_trans (Std.OrientedCmp.eq_symm firstTied)
          (of_decide_eq_true secondTied)
      cases tied.symm.trans (less first member second secondMember)
    rw [none, List.append_nil, List.nil_append]
  · have none : firsts.filter (fun other => order value other = .eq) = [] := by
      rw [List.filter_eq_nil_iff]
      intro first member firstTied
      exact tied ⟨first, member, of_decide_eq_true firstTied⟩
    rw [none, List.append_nil, List.nil_append]

/-- A list in which every value is less than those before it may be reversed. -/
theorem reverse_of_falling
    (falling : firsts.Pairwise fun first second => order second first = .lt) :
    StablePerm order firsts.reverse firsts := by
  induction firsts with
  | nil => exact refl order []
  | cons first firstRest inductionHypothesis =>
      obtain ⟨less, restFalling⟩ := List.pairwise_cons.mp falling
      rw [List.reverse_cons]
      refine ((inductionHypothesis restFalling).append_right [first]).trans ?_
      apply append_comm
      intro second member other otherMember
      rw [List.mem_singleton.mp otherMember]
      exact less second member

theorem mem_iff
    {value : β}
    (same : StablePerm order firsts seconds) :
    value ∈ firsts ↔ value ∈ seconds := by
  have itself : decide (order value value = .eq) = true :=
    decide_eq_true Std.ReflCmp.compare_self
  have tied : value ∈ firsts.filter (fun other => order value other = .eq) ↔
      value ∈ seconds.filter (fun other => order value other = .eq) := by
    rw [same value]
  simpa only [List.mem_filter, itself, and_true] using tied

theorem perm (same : StablePerm order firsts seconds) :
    firsts.Perm seconds := by
  classical
  rw [List.perm_iff_count]
  intro value
  have counted : ∀ values : List β,
      (values.filter (fun other => order value other = .eq)).count value =
        values.count value :=
    fun _ => List.count_filter (decide_eq_true Std.ReflCmp.compare_self)
  rw [← counted, same value, counted]

/-- Only one rising arrangement is stable. The first values of two such lists
are least in both, hence tied, and the first ones among those tied with them. -/
theorem eq_of_rising
    (same : StablePerm order firsts seconds)
    (firstsRising : Rising order firsts)
    (secondsRising : Rising order seconds) :
    firsts = seconds := by
  induction firsts generalizing seconds with
  | nil => exact same.perm.nil_eq
  | cons first firstRest inductionHypothesis =>
      cases seconds with
      | nil => exact same.perm.eq_nil
      | cons second secondRest =>
          obtain ⟨firstLeast, firstRestRising⟩ :=
            List.pairwise_cons.mp firstsRising
          obtain ⟨secondLeast, secondRestRising⟩ :=
            List.pairwise_cons.mp secondsRising
          have below : (order first second).isLE := by
            rcases List.mem_cons.mp (same.mem_iff.mpr List.mem_cons_self) with
              rfl | member
            · exact Std.ReflCmp.isLE_rfl
            · exact firstLeast second member
          have above : (order second first).isLE := by
            rcases List.mem_cons.mp (same.mem_iff.mp List.mem_cons_self) with
              rfl | member
            · exact Std.ReflCmp.isLE_rfl
            · exact secondLeast first member
          have tied := Std.OrientedCmp.isLE_antisymm below above
          have itself : order first first = .eq := Std.ReflCmp.compare_self
          have heads := same first
          rw [List.filter_cons, if_pos (decide_eq_true itself),
            List.filter_cons, if_pos (decide_eq_true tied)] at heads
          obtain ⟨rfl, -⟩ := List.cons.inj heads
          refine congrArg (first :: ·)
            (inductionHypothesis ?_ firstRestRising secondRestRising)
          intro value
          have lists := same value
          rw [List.filter_cons, List.filter_cons] at lists
          split at lists
          · exact (List.cons.inj lists).2
          · exact lists

end Laws

end StablePerm

/-- A rising list of the given values that keeps the order of tied ones. -/
structure Arranges (order : β → β → Ordering) (sorted values : List β) :
    Prop where
  rises : Rising order sorted
  same : StablePerm order sorted values

theorem Arranges.trans
    {sorted values others : List β}
    (arranges : Arranges order sorted values)
    (same : StablePerm order values others) :
    Arranges order sorted others :=
  ⟨arranges.rises, arranges.same.trans same⟩

section Ascending

variable [Ord β] [Std.TransOrd β] {values : List β}

theorem stablePerm_ascending (values : List β) :
    StablePerm compare (ascending values) values := by
  intro value
  rw [filter_ascending]
  apply ascending_of_pairwise
  refine List.pairwise_of_forall_mem_list ?_
  intro first firstMember second secondMember
  have firstTied := of_decide_eq_true (List.mem_filter.mp firstMember).2
  have secondTied := of_decide_eq_true (List.mem_filter.mp secondMember).2
  rw [Std.TransCmp.eq_trans (Std.OrientedCmp.eq_symm firstTied) secondTied]
  rfl

/-- The only arrangement is the ascending list. -/
theorem Arranges.eq_ascending
    {sorted : List β}
    (arranges : Arranges compare sorted values) :
    sorted = ascending values :=
  (arranges.same.trans (stablePerm_ascending values).symm).eq_of_rising
    arranges.rises (pairwise_ascending values)

/-- All rearrangements of a list have the same ascending one, up to ties. -/
theorem forall₂_tied_ascending
    {others : List β}
    (permuted : values.Perm others) :
    List.Forall₂ Tied (ascending values) (ascending others) := by
  -- On classes of tied values the order is antisymmetric.
  let classOf := Quotient.mk (tiedSetoid β)
  let atMost := fun left right => ∃ first second,
    classOf first = left ∧ classOf second = right ∧
      (compare first second).isLE
  have inOrder : ∀ list : List β,
      ((ascending list).map classOf).Pairwise atMost := by
    intro list
    rw [List.pairwise_map]
    exact (pairwise_ascending list).imp fun ordered => ⟨_, _, rfl, rfl, ordered⟩
  have antisymmetric : ∀ left right, left ∈ (ascending values).map classOf →
      right ∈ (ascending others).map classOf →
        atMost left right → atMost right left → left = right := by
    rintro _ _ _ _ ⟨first, second, rfl, rfl, front⟩ ⟨third, fourth, thirdTied,
      fourthTied, back⟩
    have below : Tied third second := Quotient.exact thirdTied
    have above : Tied fourth first := Quotient.exact fourthTied
    refine Quotient.sound (Std.OrientedCmp.isLE_antisymm front ?_)
    rw [Std.TransCmp.congr_left below.symm, Std.TransCmp.congr_right above.symm]
    exact back
  have classes : (ascending values).map classOf =
      (ascending others).map classOf := by
    refine List.Perm.eq_of_pairwise antisymmetric (inOrder values)
      (inOrder others) (List.Perm.map classOf ?_)
    exact (ascending_perm values).trans
      (permuted.trans (ascending_perm others).symm)
  rw [← List.forall₂_eq_eq_eq, List.forall₂_map_left_iff,
    List.forall₂_map_right_iff] at classes
  exact classes.imp fun _ _ => Quotient.exact

end Ascending

end Sorting

end Locus
