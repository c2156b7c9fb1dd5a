import Locus.Proofs.Interval.Splitting
import Mathlib.Order.Nat

/-!
# Where reading fails

Each piece is measured against what the pieces before it left. Reading
therefore fails at the first piece up to which the texts are together longer
than the interval, whatever comes behind that piece: the pieces before it are
read, and the overrun reports its size and what was left for it. The journal
gets one entry then, and none otherwise.
-/

namespace Locus

/-- Nothing follows a computation that ends in an overrun. -/
theorem Reading.run_bind_of_overrun
    {α β : Type}
    {reading : Reading α}
    {next : α → Reading β}
    {overrun : Overrun}
    {journal : List Journal.Entry}
    (failure : reading.run = (.error overrun, journal)) :
    (reading >>= next).run = (.error overrun, journal) := by
  unfold run at *
  rw [ExceptT.run_bind, StateT.run_bind, failure]
  rfl

namespace Interval

/-- The texts up to the one at an index are together longer than the
interval. -/
def OverrunBy (interval : Interval) (texts : List String) (index : Nat) :
    Prop :=
  index < texts.length ∧
    interval.length < (String.join (texts.take (index + 1))).length

instance (interval : Interval) (texts : List String) (index : Nat) :
    Decidable (interval.OverrunBy texts index) :=
  inferInstanceAs (Decidable (_ ∧ _))

variable {interval : Interval} {text : String} {texts front rest : List String}
  {index : Nat}

theorem overrunBy_cons_zero_iff :
    interval.OverrunBy (text :: rest) 0 ↔ interval.length < text.length := by
  simp [OverrunBy]

/-- Behind the first text the same index counts one less, and the interval is
shorter by that text. -/
theorem overrunBy_cons_succ_iff :
    interval.OverrunBy (text :: rest) (index + 1) ↔
      (interval.beyond text).OverrunBy rest index := by
  unfold OverrunBy
  rw [List.length_cons, List.take_succ_cons, String.join_cons,
    String.length_append, length_beyond]
  omega

/-- Some texts overrun the interval when all of them do. -/
theorem exists_overrunBy_iff (nonempty : texts ≠ []) :
    (∃ index, interval.OverrunBy texts index) ↔
      interval.length < (String.join texts).length := by
  constructor
  · rintro ⟨index, -, tooLong⟩
    rw [← List.take_append_drop (index + 1) texts, String.join_append,
      String.length_append]
    omega
  · intro tooLong
    have count : texts.length - 1 + 1 = texts.length :=
      Nat.sub_add_cancel (List.length_pos_iff.mpr nonempty)
    refine ⟨texts.length - 1, by omega, ?_⟩
    rwa [count, List.take_length]

/-- Texts of which none overruns the interval are all read. -/
theorem exists_run_pieces_of_not_overrunBy
    (fits : ∀ index, ¬interval.OverrunBy texts index) :
    ∃ parts, (interval.pieces texts).run = (.ok parts, []) ∧
      parts.length = texts.length := by
  rcases eq_or_ne texts [] with rfl | nonempty
  · exact ⟨[], rfl, rfl⟩
  · have together : ((String.join texts).length : Int) ≤ interval.length := by
      rw [← not_lt, ← exists_overrunBy_iff nonempty, not_exists]
      exact fits
    refine ⟨_, run_pieces together, ?_⟩
    rw [List.length_map, Position.length_stretches]

theorem run_pieces_cons_of_overrun
    (tooLong : interval.length < text.length) :
    (interval.pieces (text :: rest)).run =
      (.error ⟨text.length, interval⟩,
        [(Overrun.mk text.length interval).fault.entry]) := by
  have failure : (interval.take text).run =
      (.error ⟨text.length, interval⟩,
        [(Overrun.mk text.length interval).fault.entry]) := by
    rw [run_take, if_pos tooLong]
  rw [pieces, Reading.run_bind_of_overrun failure]

/-- An overrun behind a piece that fits is passed on. -/
theorem run_pieces_cons_of_overrun_beyond
    {overrun : Overrun}
    {journal : List Journal.Entry}
    (fits : (text.length : Int) ≤ interval.length)
    (failure : ((interval.beyond text).pieces rest).run =
      (.error overrun, journal)) :
    (interval.pieces (text :: rest)).run = (.error overrun, journal) := by
  rw [pieces, Reading.run_bind_of_run (run_take_of_fits fits),
    Reading.run_bind_of_run (run_drop_of_fits fits)]
  exact Reading.run_bind_of_overrun failure

/-- The first piece that overruns the interval ends the reading. What is left for
it is what lies behind the pieces before it: each of those was taken off the
interval in turn. -/
theorem run_pieces_of_first_overrun
    (fits : ∀ index, ¬interval.OverrunBy front index)
    (tooLong : interval.length < (String.join (front ++ [text])).length)
    (further : List String) :
    let overrun : Overrun :=
      ⟨text.length, interval.beyond (String.join front)⟩
    (interval.pieces (front ++ text :: further)).run =
      (.error overrun, [overrun.fault.entry]) := by
  induction front generalizing interval with
  | nil =>
      rw [List.nil_append, String.join_cons, String.join_nil,
        String.append_empty] at tooLong
      exact run_pieces_cons_of_overrun tooLong
  | cons piece front inductionHypothesis =>
      have pieceFits : (piece.length : Int) ≤ interval.length :=
        not_lt.mp (mt overrunBy_cons_zero_iff.mpr (fits 0))
      have restFits : ∀ index, ¬(interval.beyond piece).OverrunBy front index :=
        fun index => mt overrunBy_cons_succ_iff.mpr (fits (index + 1))
      have restTooLong : (interval.beyond piece).length <
          (String.join (front ++ [text])).length := by
        rw [List.cons_append, String.join_cons, String.length_append]
          at tooLong
        rw [length_beyond]
        omega
      rw [String.join_cons, beyond_append]
      exact run_pieces_cons_of_overrun_beyond pieceFits
        (inductionHypothesis restFits restTooLong)

/-- The first overrun is at a piece behind pieces that do not overrun. -/
theorem exists_eq_append_cons_of_isLeast
    (first : IsLeast {index | interval.OverrunBy texts index} index) :
    ∃ front text back, texts = front ++ text :: back ∧
      front.length = index ∧
      (∀ earlier, ¬interval.OverrunBy front earlier) ∧
      interval.length < (String.join (front ++ [text])).length := by
  obtain ⟨⟨inside, tooLong⟩, least⟩ := first
  refine ⟨texts.take index, texts[index], texts.drop (index + 1), ?_, ?_, ?_,
    ?_⟩
  · rw [← List.drop_eq_getElem_cons inside, List.take_append_drop]
  · exact List.length_take_of_le inside.le
  · rintro earlier ⟨before, earlierTooLong⟩
    rw [List.length_take_of_le inside.le] at before
    rw [List.take_take, min_eq_left before] at earlierTooLong
    exact not_le_of_gt before (least ⟨before.trans inside, earlierTooLong⟩)
  · rwa [← List.take_append_getElem inside] at tooLong

/-- Reading fails when some texts together are longer than the interval. -/
theorem exists_run_pieces_eq_error_iff :
    (∃ overrun, (interval.pieces texts).run.1 = .error overrun) ↔
      ∃ index, interval.OverrunBy texts index := by
  constructor
  · rintro ⟨overrun, failure⟩
    by_contra allFit
    obtain ⟨parts, success, -⟩ :=
      exists_run_pieces_of_not_overrunBy (not_exists.mp allFit)
    rw [success] at failure
    cases failure
  · intro overruns
    obtain ⟨front, text, back, rfl, -, fits, tooLong⟩ :=
      exists_eq_append_cons_of_isLeast (Nat.isLeast_find overruns)
    exact ⟨_, congrArg Prod.fst
      (run_pieces_of_first_overrun fits tooLong back)⟩

/-- Reading that succeeds reports nothing. -/
theorem journal_eq_nil_of_run_pieces
    {parts : List (Interval × Interval)}
    {journal : List Journal.Entry}
    (success : (interval.pieces texts).run = (.ok parts, journal)) :
    journal = [] := by
  have fits : ¬∃ index, interval.OverrunBy texts index := by
    rw [← exists_run_pieces_eq_error_iff, success]
    rintro ⟨overrun, failure⟩
    cases failure
  obtain ⟨others, silent, -⟩ :=
    exists_run_pieces_of_not_overrunBy (not_exists.mp fits)
  rw [silent] at success
  exact (congrArg Prod.snd success).symm

/-- A text overruns the interval in the same way whether the part it covers is
taken or dropped. -/
theorem run_take_eq_error_iff
    {overrun : Overrun}
    {journal : List Journal.Entry} :
    (interval.take text).run = (.error overrun, journal) ↔
      (interval.drop text).run = (.error overrun, journal) := by
  rw [run_take, run_drop]
  split
  case isTrue tooLong => rfl
  case isFalse fits =>
    constructor <;> intro success <;> cases success

/-- What an overrun behind some text says: how long the piece is, and how much
of the interval the text left. -/
theorem fault_beyond (interval : Interval) (size : Nat) (text : String) :
    (Overrun.mk size (interval.beyond text)).fault =
      { message := "string of length " ++ toString size ++
          " does not fit in interval of length " ++
          toString (interval.length - text.length)
        interval := some ⟨interval.start.advanceBy text, interval.stop⟩ } := by
  rw [← length_beyond]
  rfl

/-- Reading fails at the first piece that does not fit, and says so once. It
fails when the texts up to some piece are together longer than the interval, so
for texts at all when all of them are. At the least such piece the pieces before
it have been read, and whatever follows it, reading ends there with an overrun
that states the size of the piece and what was left of the interval, and with
the overrun as the only entry of the journal. Reading that succeeds writes no
entry, and to drop a text fails just as to take it does. -/
theorem pieces_fail_at_first_overrun
    (interval : Interval)
    (texts : List String) :
    ((∃ overrun, (interval.pieces texts).run.1 = .error overrun) ↔
      ∃ index, interval.OverrunBy texts index) ∧
    (texts ≠ [] →
      ((∃ overrun, (interval.pieces texts).run.1 = .error overrun) ↔
        interval.length < (String.join texts).length)) ∧
    (∀ index, IsLeast {index | interval.OverrunBy texts index} index →
      ∃ (front : List String) (text : String) (back : List String)
        (overrun : Overrun),
        texts = front ++ text :: back ∧
        front.length = index ∧
        overrun.fault =
          { message := "string of length " ++ toString text.length ++
              " does not fit in interval of length " ++
              toString (interval.length - (String.join front).length)
            interval := some
              ⟨interval.start.advanceBy (String.join front), interval.stop⟩ } ∧
        (∃ parts, (interval.pieces front).run = (.ok parts, []) ∧
          parts.length = index) ∧
        ∀ further, (interval.pieces (front ++ text :: further)).run =
          (.error overrun,
            [{ level := .error
               channel := "srcloc.spans"
               text := overrun.fault.render }])) ∧
    (∀ parts journal, (interval.pieces texts).run = (.ok parts, journal) →
      journal = []) ∧
    (∀ text overrun journal,
      (interval.take text).run = (.error overrun, journal) ↔
        (interval.drop text).run = (.error overrun, journal)) := by
  refine ⟨exists_run_pieces_eq_error_iff, ?_, ?_,
    fun _ _ => journal_eq_nil_of_run_pieces, fun _ _ _ => run_take_eq_error_iff⟩
  · intro nonempty
    exact exists_run_pieces_eq_error_iff.trans (exists_overrunBy_iff nonempty)
  · intro index first
    obtain ⟨front, text, back, split, count, fits, tooLong⟩ :=
      exists_eq_append_cons_of_isLeast first
    obtain ⟨parts, read, partCount⟩ := exists_run_pieces_of_not_overrunBy fits
    exact ⟨front, text, back, _, split, count, fault_beyond interval _ _,
      ⟨parts, read, partCount.trans count⟩,
      run_pieces_of_first_overrun fits tooLong⟩

/-- Three characters of a text. -/
def cramped : Interval :=
  ⟨⟨⟨"f", 1⟩, 1, 1⟩, ⟨⟨"f", 4⟩, 2, 2⟩⟩

/-- Two characters, nothing, more than is left, and a piece that is not
reached. -/
def oversized : List String :=
  ["a\n", "", "bcd", "e"]

/-- The third piece overruns what the line break before it left. -/
theorem pieces_fail_at_first_overrun_of_oversized :
    oversized ≠ [] ∧
    cramped.length < (String.join oversized).length ∧
    IsLeast {index | cramped.OverrunBy oversized index} 2 ∧
    ∃ overrun,
      overrun.fault =
        { message := "string of length 3 does not fit in interval of length 1"
          interval := some ⟨⟨⟨"f", 3⟩, 2, 1⟩, cramped.stop⟩ } ∧
      (cramped.pieces ["a\n", ""]).run.2 = [] ∧
      (cramped.pieces oversized).run =
        (.error overrun,
          [{ level := .error
             channel := "srcloc.spans"
             text := overrun.fault.render }]) := by
  obtain ⟨fails, total, first, -, -⟩ :=
    pieces_fail_at_first_overrun cramped oversized
  have nonempty : oversized ≠ [] := by decide
  have overrun : cramped.OverrunBy oversized 2 := by decide
  have firstFits : ¬cramped.OverrunBy oversized 0 := by decide
  have secondFits : ¬cramped.OverrunBy oversized 1 := by decide
  have least : IsLeast {index | cramped.OverrunBy oversized index} 2 := by
    refine ⟨overrun, ?_⟩
    rintro (_ | _ | index) overruns
    · exact absurd overruns firstFits
    · exact absurd overruns secondFits
    · exact Nat.le_add_left 2 index
  have tooLong := (total nonempty).mp (fails.mpr ⟨2, overrun⟩)
  obtain ⟨front, text, back, overrun, split, count, fault, ⟨parts, read, -⟩,
    ends⟩ := first 2 least
  have pieces : oversized = ["a\n", ""] ++ "bcd" :: ["e"] := rfl
  obtain ⟨rfl, rest⟩ := List.append_inj (pieces.symm.trans split) count.symm
  cases rest
  obtain ⟨-, -, -, silent, -⟩ :=
    pieces_fail_at_first_overrun cramped ["a\n", ""]
  have noEntry : (cramped.pieces ["a\n", ""]).run.2 = [] :=
    silent parts _ (Prod.ext (congrArg Prod.fst read) rfl)
  exact ⟨nonempty, tooLong, least, overrun, fault, noEntry, ends ["e"]⟩

end Interval

end Locus
