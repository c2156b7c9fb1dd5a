import Locus.Rendering

/-!
# Reading locations back

Locations in messages are unambiguous, whatever the name of the text. Numbers
are written with digits and at most one minus in front of them. Hence the last
comma stands before the last column, the last colon before the first line ends
the name, and a minus behind a digit stands between the two ends of an
interval, also when the name or the numbers have such signs of their own.
-/

namespace Locus

section Separators

variable {α : Type} {separator : α} {front otherFront back otherBack : List α}

/-- The first of the separators splits a list in one way. -/
theorem append_cons_inj_of_notMem_front
    (absent : separator ∉ front)
    (otherAbsent : separator ∉ otherFront) :
    front ++ separator :: back = otherFront ++ separator :: otherBack ↔
      front = otherFront ∧ back = otherBack := by
  induction front generalizing otherFront with
  | nil =>
      cases otherFront with
      | nil => simp
      | cons head rest =>
          have different : separator ≠ head :=
            List.ne_of_not_mem_cons otherAbsent
          simp [different]
  | cons head rest inductionHypothesis =>
      cases otherFront with
      | nil =>
          have different : head ≠ separator :=
            (List.ne_of_not_mem_cons absent).symm
          simp [different]
      | cons otherHead otherRest =>
          have parts := inductionHypothesis
            (List.not_mem_of_not_mem_cons absent)
            (List.not_mem_of_not_mem_cons otherAbsent)
          rw [List.cons_append, List.cons_append, List.cons.injEq, parts,
            List.cons.injEq, and_assoc]

/-- The last of the separators splits a list in one way. -/
theorem append_cons_inj_of_notMem_back
    (absent : separator ∉ back)
    (otherAbsent : separator ∉ otherBack) :
    front ++ separator :: back = otherFront ++ separator :: otherBack ↔
      front = otherFront ∧ back = otherBack := by
  have reversed :
      back.reverse ++ separator :: front.reverse =
          otherBack.reverse ++ separator :: otherFront.reverse ↔
        back.reverse = otherBack.reverse ∧
          front.reverse = otherFront.reverse :=
    append_cons_inj_of_notMem_front (mt List.mem_reverse.mp absent)
      (mt List.mem_reverse.mp otherAbsent)
  rw [← List.reverse_inj, List.reverse_append, List.reverse_append,
    List.reverse_cons, List.reverse_cons, List.append_assoc,
    List.append_assoc, List.singleton_append, List.singleton_append, reversed,
    List.reverse_inj, List.reverse_inj, and_comm]

end Separators

section Numerals

/-- The characters a number is written with. -/
def numeral (number : Int) : List Char :=
  (toString number).toList

/-- The number that is written with some characters. -/
def ofNumeral (written : List Char) : Int :=
  if written.head? = some '-' then
    -Nat.ofDigitChars 10 written.tail 0
  else
    Nat.ofDigitChars 10 written 0

theorem isDigit_of_mem_repr
    {number : Nat}
    {digit : Char}
    (member : digit ∈ number.repr.toList) :
    digit.isDigit :=
  Nat.isDigit_of_mem_toDigits (by decide) (by decide)
    (Nat.toList_repr ▸ member)

theorem ofDigitChars_repr (number : Nat) :
    Nat.ofDigitChars 10 number.repr.toList 0 = number := by
  rw [Nat.toList_repr, Nat.ofDigitChars_ten_toDigits]

/-- A number is read back from what it is written with. -/
theorem ofNumeral_numeral (number : Int) :
    ofNumeral (numeral number) = number := by
  rw [numeral, Int.toString_eq_repr, Int.repr_eq_if]
  split
  next natural =>
    have noMinus : number.toNat.repr.toList.head? ≠ some '-' := by
      intro minus
      have isDigit := isDigit_of_mem_repr (List.mem_of_head? minus)
      exact absurd isDigit (by decide)
    rw [ofNumeral, if_neg noMinus, ofDigitChars_repr]
    omega
  next negative =>
    rw [String.toList_append]
    change -(Nat.ofDigitChars 10 (-number).toNat.repr.toList 0 : Int) = number
    rw [ofDigitChars_repr]
    omega

@[simp] theorem numeral_inj {number other : Int} :
    numeral number = numeral other ↔ number = other := by
  constructor
  · intro same
    rw [← ofNumeral_numeral number, same, ofNumeral_numeral]
  · exact congrArg numeral

/-- Behind the first character of a number there are only digits. -/
theorem exists_numeral_eq_cons (number : Int) :
    ∃ first digits, numeral number = first :: digits ∧
      (first = '-' ∨ first.isDigit) ∧ ∀ digit ∈ digits, digit.isDigit := by
  rw [numeral, Int.toString_eq_repr, Int.repr_eq_if]
  split
  · have notEmpty : number.toNat.repr.toList ≠ [] :=
      Nat.toList_repr ▸ Nat.toDigits_ne_nil
    obtain ⟨first, digits, written⟩ := List.exists_cons_of_ne_nil notEmpty
    have isDigit : ∀ digit ∈ first :: digits, digit.isDigit :=
      fun digit member => isDigit_of_mem_repr (written ▸ member)
    rw [List.forall_mem_cons] at isDigit
    exact ⟨first, digits, written, Or.inr isDigit.1, isDigit.2⟩
  · exact ⟨'-', _, String.toList_append, Or.inl rfl,
      fun _ => isDigit_of_mem_repr⟩

/-- No number is written with a sign other than the minus. -/
theorem notMem_numeral
    {sign : Char}
    (notMinus : sign ≠ '-')
    (notDigit : sign.isDigit = false)
    (number : Int) :
    sign ∉ numeral number := by
  obtain ⟨first, digits, written, firstShape, isDigit⟩ :=
    exists_numeral_eq_cons number
  rw [written, List.mem_cons, not_or]
  constructor
  · rintro rfl
    simp [notMinus, notDigit] at firstShape
  · intro member
    simp [isDigit sign member] at notDigit

theorem comma_notMem_numeral (number : Int) : ',' ∉ numeral number :=
  notMem_numeral (by decide) (by decide) number

theorem colon_notMem_numeral (number : Int) : ':' ∉ numeral number :=
  notMem_numeral (by decide) (by decide) number

/-- Only the first character of a number can be a minus. -/
theorem exists_numeral_eq_cons_notMem (number : Int) :
    ∃ first digits, numeral number = first :: digits ∧ '-' ∉ digits := by
  obtain ⟨first, digits, written, -, isDigit⟩ :=
    exists_numeral_eq_cons number
  refine ⟨first, digits, written, ?_⟩
  intro member
  exact absurd (isDigit '-' member) (by decide)

/-- Two numbers with a minus between them. -/
def joined (first second : Int) : List Char :=
  numeral first ++ '-' :: numeral second

theorem comma_notMem_joined (first second : Int) :
    ',' ∉ joined first second := by
  simp [joined, comma_notMem_numeral]

/-- The minus between two numbers is the first one behind a character. -/
@[simp] theorem joined_inj {first second otherFirst otherSecond : Int} :
    joined first second = joined otherFirst otherSecond ↔
      first = otherFirst ∧ second = otherSecond := by
  obtain ⟨head, digits, written, absent⟩ :=
    exists_numeral_eq_cons_notMem first
  obtain ⟨otherHead, otherDigits, otherWritten, otherAbsent⟩ :=
    exists_numeral_eq_cons_notMem otherFirst
  have same : first = otherFirst ↔
      head = otherHead ∧ digits = otherDigits := by
    rw [← numeral_inj, written, otherWritten, List.cons.injEq]
  rw [joined, joined, written, otherWritten, List.cons_append,
    List.cons_append, List.cons.injEq,
    append_cons_inj_of_notMem_front absent otherAbsent, numeral_inj, same,
    and_assoc]

/-- Two numbers with a minus between them do not look like one number. -/
theorem joined_ne_numeral (first second number : Int) :
    joined first second ≠ numeral number := by
  obtain ⟨head, digits, written, -⟩ := exists_numeral_eq_cons_notMem first
  obtain ⟨otherHead, otherDigits, otherWritten, otherAbsent⟩ :=
    exists_numeral_eq_cons_notMem number
  rw [joined, written, otherWritten, List.cons_append]
  intro equal
  rw [List.cons.injEq] at equal
  exact otherAbsent (equal.2 ▸ by simp)

end Numerals

namespace Position

/-- Everything before the comma in front of the column. -/
def lead (position : Position) : List Char :=
  position.renderFile.toList ++ numeral position.line

theorem toList_render (position : Position) :
    position.render.toList =
      position.lead ++ ',' :: numeral position.column := by
  simp [render, renderPlace, lead, numeral]

theorem lead_of_eq
    {position : Position}
    (unnamed : position.file = "") :
    position.lead = numeral position.line := by
  rw [lead, renderFile, if_pos unnamed, String.toList_empty, List.nil_append]

theorem lead_of_ne
    {position : Position}
    (named : position.file ≠ "") :
    position.lead = position.file.toList ++ ':' :: numeral position.line := by
  rw [lead, renderFile, if_neg named, String.toList_append, List.append_assoc]
  rfl

/-- Without a name there is no colon. -/
theorem lead_ne_of_eq_of_ne
    {first second : Position}
    (unnamed : first.file = "")
    (named : second.file ≠ "") :
    first.lead ≠ second.lead := by
  intro equal
  apply colon_notMem_numeral first.line
  rw [← lead_of_eq unnamed, equal, lead_of_ne named]
  simp

/-- The last colon ends the name. -/
theorem lead_inj {first second : Position} :
    first.lead = second.lead ↔
      first.file = second.file ∧ first.line = second.line := by
  by_cases unnamed : first.file = "" <;>
    by_cases otherUnnamed : second.file = ""
  · simp [lead_of_eq, unnamed, otherUnnamed]
  · have different : first.file ≠ second.file :=
      fun same => otherUnnamed (same.symm.trans unnamed)
    simp [lead_ne_of_eq_of_ne unnamed otherUnnamed, different]
  · have different : first.file ≠ second.file :=
      fun same => unnamed (same.trans otherUnnamed)
    simp [(lead_ne_of_eq_of_ne otherUnnamed unnamed).symm, different]
  · rw [lead_of_ne unnamed, lead_of_ne otherUnnamed,
      append_cons_inj_of_notMem_back (colon_notMem_numeral _)
        (colon_notMem_numeral _), String.toList_inj, numeral_inj]

/-- Positions are shown alike exactly when a reader would call them the same:
the offset is not shown. -/
theorem render_eq_iff {first second : Position} :
    first.render = second.render ↔
      first.file = second.file ∧ first.line = second.line ∧
        first.column = second.column := by
  rw [← String.toList_inj, toList_render, toList_render,
    append_cons_inj_of_notMem_back (comma_notMem_numeral _)
      (comma_notMem_numeral _), lead_inj, numeral_inj, and_assoc]

end Position

namespace Interval

/-- The ends of the intervals have the same lines and columns, and the starts
are in the same file. -/
structure ShownLike (first second : Interval) : Prop where
  /-- The name shown is that of the start. -/
  file : first.start.file = second.start.file
  /-- The starts are on the same line. -/
  startLine : first.start.line = second.start.line
  /-- The starts are in the same column. -/
  startColumn : first.start.column = second.start.column
  /-- The stops are on the same line. -/
  stopLine : first.stop.line = second.stop.line
  /-- The stops are in the same column. -/
  stopColumn : first.stop.column = second.stop.column

variable {first second : Interval}

/-- What is shown up to the number after the minus. -/
def opening (interval : Interval) (number : Int) : List Char :=
  interval.start.lead ++ ',' :: joined interval.start.column number

theorem opening_inj {number other : Int} :
    first.opening number = second.opening other ↔
      first.start.file = second.start.file ∧
        first.start.line = second.start.line ∧
        first.start.column = second.start.column ∧ number = other := by
  rw [opening, opening, append_cons_inj_of_notMem_back
    (comma_notMem_joined _ _) (comma_notMem_joined _ _), Position.lead_inj,
    joined_inj, and_assoc]

theorem toList_render_of_eq
    {interval : Interval}
    (oneLine : interval.start.line = interval.stop.line) :
    interval.render.toList = interval.opening interval.stop.column := by
  simp [render, renderStop, oneLine, Position.toList_render, opening, joined,
    numeral]

theorem toList_render_of_ne
    {interval : Interval}
    (twoLines : interval.start.line ≠ interval.stop.line) :
    interval.render.toList =
      interval.opening interval.stop.line ++
        ',' :: numeral interval.stop.column := by
  simp [render, renderStop, twoLines, Position.toList_render,
    Position.renderPlace, opening, joined, numeral]

/-- Behind the last comma the short form has two numbers and the long form has
one. -/
theorem render_ne_of_eq_of_ne
    (oneLine : first.start.line = first.stop.line)
    (twoLines : second.start.line ≠ second.stop.line) :
    first.render ≠ second.render := by
  intro equal
  rw [← String.toList_inj, toList_render_of_eq oneLine,
    toList_render_of_ne twoLines, opening,
    append_cons_inj_of_notMem_back (comma_notMem_joined _ _)
      (comma_notMem_numeral _)] at equal
  exact joined_ne_numeral _ _ _ equal.2

theorem ShownLike.render_eq (alike : first.ShownLike second) :
    first.render = second.render := by
  obtain ⟨file, startLine, startColumn, stopLine, stopColumn⟩ := alike
  have start : first.start.render = second.start.render :=
    Position.render_eq_iff.mpr ⟨file, startLine, startColumn⟩
  simp only [render, renderStop, Position.renderPlace, start, startLine,
    stopLine, stopColumn]

/-- Intervals are shown alike exactly when their ends have the same lines and
columns and their starts are in the same file, in the short form and in the
long form. -/
theorem render_eq_iff :
    first.render = second.render ↔ first.ShownLike second := by
  refine ⟨?_, ShownLike.render_eq⟩
  intro equal
  by_cases oneLine : first.start.line = first.stop.line <;>
    by_cases otherOneLine : second.start.line = second.stop.line
  · rw [← String.toList_inj, toList_render_of_eq oneLine,
      toList_render_of_eq otherOneLine, opening_inj] at equal
    obtain ⟨file, startLine, startColumn, stopColumn⟩ := equal
    exact ⟨file, startLine, startColumn,
      oneLine.symm.trans (startLine.trans otherOneLine), stopColumn⟩
  · exact absurd equal (render_ne_of_eq_of_ne oneLine otherOneLine)
  · exact absurd equal.symm (render_ne_of_eq_of_ne otherOneLine oneLine)
  · rw [← String.toList_inj, toList_render_of_ne oneLine,
      toList_render_of_ne otherOneLine,
      append_cons_inj_of_notMem_back (comma_notMem_numeral _)
        (comma_notMem_numeral _), opening_inj, numeral_inj] at equal
    obtain ⟨⟨file, startLine, startColumn, stopLine⟩, stopColumn⟩ := equal
    exact ⟨file, startLine, startColumn, stopLine, stopColumn⟩

theorem render_ne_empty (interval : Interval) : interval.render ≠ "" := by
  simp [render]

end Interval

namespace Range

variable {range first second : Range}

theorem outer?_eq_none_iff :
    range.outer? = none ↔ range.intervals = [] := by
  obtain ⟨intervals⟩ := range
  cases intervals with
  | nil => simp [outer?, start?]
  | cons head rest =>
      simp [outer?, start?, stop?, List.getLast?_eq_some_getLast]

/-- Only the empty range is shown as nothing. -/
theorem render_eq_empty_iff :
    range.render = "" ↔ range.intervals = [] := by
  rw [← outer?_eq_none_iff, render]
  cases range.outer? with
  | none => simp
  | some outer => simp [outer.render_ne_empty]

/-- Ranges are shown alike exactly when their outer bounds are, or both are
empty. -/
theorem render_eq_iff :
    first.render = second.render ↔
      Option.Rel Interval.ShownLike first.outer? second.outer? := by
  unfold render
  cases first.outer? <;> cases second.outer? <;>
    simp [Interval.render_eq_iff, Interval.render_ne_empty,
      Interval.render_ne_empty _ |>.symm]

end Range

/-- What messages show determines what it is shown for. A position can be read
back up to its offset, whatever the name of its text. An interval can be read
back up to offsets and the name at its stop, in the short form and in the long
form. A range is shown as nothing exactly when it is empty, and can be read
back as far as its outer bound can. -/
theorem render_unambiguous :
    (∀ first second : Position,
      first.render = second.render ↔
        first.file = second.file ∧ first.line = second.line ∧
          first.column = second.column) ∧
    (∀ first second : Interval,
      first.render = second.render ↔ first.ShownLike second) ∧
    (∀ range : Range, range.render = "" ↔ range.intervals = []) ∧
    (∀ first second : Range,
      first.render = second.render ↔
        Option.Rel Interval.ShownLike first.outer? second.outer?) :=
  ⟨fun _ _ => Position.render_eq_iff, fun _ _ => Interval.render_eq_iff,
    fun _ => Range.render_eq_empty_iff, fun _ _ => Range.render_eq_iff⟩

end Locus
