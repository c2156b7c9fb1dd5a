/-!
# Comparison up to ties

A comparison may put neither of two different values first. Such values are
tied: they count as equal wherever only the order matters, and a stable sort
leaves them as they stand. The laws below hold of every transitive comparison
and are shared by positions, intervals and ranges.
-/

namespace Locus

variable {α : Type} [Ord α]

/-- Two values are tied when the comparison puts neither of them first. -/
def Tied (first second : α) : Prop :=
  compare first second = .eq

instance (first second : α) : Decidable (Tied first second) :=
  inferInstanceAs (Decidable (compare first second = .eq))

/-- List the values in ascending order; tied values keep their order. -/
def ascending (values : List α) : List α :=
  values.mergeSort fun first second => (compare first second).isLE

/-- Sorting only rearranges. -/
theorem ascending_perm (values : List α) :
    (ascending values).Perm values :=
  List.mergeSort_perm values _

@[simp] theorem mem_ascending {value : α} {values : List α} :
    value ∈ ascending values ↔ value ∈ values :=
  (ascending_perm values).mem_iff

/-- Values that are in ascending order stay as they are. -/
theorem ascending_of_pairwise
    {values : List α}
    (inOrder : values.Pairwise fun first second =>
      (compare first second).isLE) :
    ascending values = values :=
  List.mergeSort_of_pairwise inOrder

section Laws

variable [Std.TransOrd α]

theorem Tied.refl (value : α) : Tied value value :=
  Std.ReflCmp.compare_self

theorem Tied.symm
    {first second : α}
    (tied : Tied first second) :
    Tied second first :=
  Std.OrientedCmp.eq_symm tied

theorem Tied.trans
    {first second third : α}
    (front : Tied first second)
    (back : Tied second third) :
    Tied first third :=
  Std.TransCmp.eq_trans front back

/-- Being tied is an equivalence. -/
def tiedSetoid (α : Type) [Ord α] [Std.TransOrd α] : Setoid α where
  r := Tied
  iseqv := ⟨Tied.refl, Tied.symm, Tied.trans⟩

theorem isLE_total (first second : α) :
    ((compare first second).isLE || (compare second first).isLE) = true := by
  rw [Std.OrientedOrd.eq_swap (a := second)]
  cases compare first second <;> rfl

/-- A sorted list never puts a later value before an earlier one. -/
theorem pairwise_ascending (values : List α) :
    (ascending values).Pairwise fun first second =>
      (compare first second).isLE :=
  List.pairwise_mergeSort (fun _ _ _ => Std.TransCmp.isLE_trans) isLE_total
    values

end Laws

end Locus
