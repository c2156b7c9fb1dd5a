import Locus.Position.Basic

/-!
# Reading past text

Reading moves a position past one character at a time. A tab goes on to the
next tab stop, a newline to the first column of the next line, and every other
character to the next column. Text is read character by character, so reading
two texts in turn is reading their concatenation.
-/

namespace Locus

/-- What reading one item does to a position. -/
inductive Step
  /-- Go on to the next tab stop. -/
  | tab
  /-- Go on to the first column of the next line. -/
  | newline
  /-- Go on to the next column. -/
  | plain
  deriving DecidableEq

namespace Step

/-- The step that reads one character. -/
def ofChar : Char → Step
  | '\t' => .tab
  | '\n' => .newline
  | _ => .plain

theorem ofChar_eq_plain
    {character : Char}
    (noTab : character ≠ '\t')
    (noNewline : character ≠ '\n') :
    ofChar character = .plain := by
  unfold ofChar
  split
  · exact absurd rfl noTab
  · exact absurd rfl noNewline
  · rfl

/-- The step that reads a whole text as one item: only a lone tab or a lone
newline is special. -/
def ofText (text : String) : Step :=
  match text.toList with
  | [character] => ofChar character
  | _ => .plain

end Step

namespace Position

/-- Tab stops lie this many columns apart. -/
def tabWidth : Int := 8

/-- The first column after a tab at the given column. The division rounds
down, so the rule holds for negative columns too. -/
def nextTabStop (column : Int) : Int :=
  (column + tabWidth - 1) / tabWidth * tabWidth + 1

/-- Move past one item. -/
def advance (position : Position) : Step → Position
  | .tab =>
      { position with
        offset := position.offset + 1
        column := nextTabStop position.column }
  | .newline =>
      { position with
        offset := position.offset + 1
        line := position.line + 1
        column := 1 }
  | .plain =>
      { position with
        offset := position.offset + 1
        column := position.column + 1 }

@[simp] theorem file_advance (position : Position) (step : Step) :
    (position.advance step).file = position.file := by
  cases step <;> rfl

@[simp] theorem offset_advance (position : Position) (step : Step) :
    (position.advance step).offset = position.offset + 1 := by
  cases step <;> rfl

/-- Move past one character. -/
def past (position : Position) (character : Char) : Position :=
  position.advance (.ofChar character)

/-- Move past a text, one character after the other. -/
def advanceBy (position : Position) (text : String) : Position :=
  text.toList.foldl past position

@[simp] theorem advanceBy_empty (position : Position) :
    position.advanceBy "" = position := rfl

@[simp] theorem advanceBy_append
    (position : Position)
    (front back : String) :
    position.advanceBy (front ++ back) =
      (position.advanceBy front).advanceBy back := by
  simp [advanceBy]

/-- The positions after each of the characters in turn. -/
def visits (position : Position) : List Char → List Position
  | [] => []
  | character :: rest =>
      position.past character :: (position.past character).visits rest

/-- The positions after each character of a text. -/
def trace (position : Position) (text : String) : List Position :=
  position.visits text.toList

@[simp] theorem length_visits
    (position : Position)
    (characters : List Char) :
    (position.visits characters).length = characters.length := by
  induction characters generalizing position with
  | nil => rfl
  | cons character rest inductionHypothesis =>
      simp [visits, inductionHypothesis]

/-- Move back over one character that took one column. -/
def retreat (position : Position) : Position :=
  { position with
    offset := position.offset - 1
    column := position.column - 1 }

/-- Going back undoes a plain step. -/
@[simp] theorem retreat_advance_plain (position : Position) :
    (position.advance .plain).retreat = position := by
  simp [advance, retreat]

end Position

end Locus
