import SequenceDiagram.Layout.Counted
import SequenceDiagram.Proofs.Counting
import SequenceDiagram.Proofs.Layout.Turns

/-! The layout as it is counted out. It may end before it is done, and where it does
not it ends with the layout: with the same refusal, or with the same row after every
turn. Then all that was counted on the way is known to be countable, each header at
the place it was last moved to and each label. -/
namespace SequenceDiagram
open Layout

variable {n : Counting} {measure : Measure} {page : Page} {d arranged : Diagram} {outcome : Outcome}
  {ends : List Ends} {m : Message} {e : Ends} {a b : Actor} {row wider : List Actor} {demand : Demand}
  {columns left last count later : Nat}

/-- The sum can be counted that the centre line is half of. -/
def Slot.Counted (n : Counting) (s : Slot) : Prop := n.holds (2 * s.left + s.width) = true

theorem Slot.placed?_eq_some_iff {s t : Slot} : s.placed? n = some t ↔ s.Counted n ∧ s = t := by
  simp only [placed?, Option.map_eq_some_iff, Counting.count?_eq_some_iff, Counted]
  constructor
  · rintro ⟨_, ⟨held, rfl⟩, rfl⟩
    exact ⟨held, rfl⟩
  · rintro ⟨held, rfl⟩
    exact ⟨_, ⟨held, rfl⟩, rfl⟩

/-- An actor can be moved where his new slot can be counted. -/
theorem Actor.moveRight?_eq_some_iff :
    a.moveRight? n columns = some b ↔ (a.moveRight columns).slot.Counted n ∧ a.moveRight columns = b := by
  have part : a.slot.left + columns ≤ 2 * (a.slot.left + columns) + a.slot.width := by omega
  simp only [moveRight?, Option.bind_eq_bind, Option.bind_eq_some_iff, Counting.count?_eq_some_iff,
    Slot.placed?_eq_some_iff, Option.pure_def, Option.some.injEq]
  constructor
  · rintro ⟨left, ⟨-, rfl⟩, slot, ⟨held, rfl⟩, rfl⟩
    exact ⟨held, rfl⟩
  · rintro ⟨held, rfl⟩
    exact ⟨_, ⟨Counting.holds_of_le part held, rfl⟩, _, ⟨held, rfl⟩, rfl⟩

/-- A demand can be granted where everybody who is moved can be. -/
theorem Demand.grant?_eq_some_iff : demand.grant? n row = some wider ↔
    (demand.isMet row = false →
      ∀ a ∈ row.drop demand.right, (a.moveRight (demand.shortfall row)).slot.Counted n) ∧
    demand.grant row = wider := by
  rw [grant?, grant]
  cases demand.isMet row with
  | true => simp
  | false =>
    simp only [Bool.false_eq_true, if_false, forall_const, Option.bind_eq_bind, Option.bind_eq_some_iff,
      Option.pure_def, Option.some.injEq, shiftFrom, mapM_eq_some_iff fun _ _ => Actor.moveRight?_eq_some_iff]
    constructor
    · rintro ⟨_, ⟨held, rfl⟩, rfl⟩
      exact ⟨held, rfl⟩
    · rintro ⟨held, rfl⟩
      exact ⟨_, ⟨held, rfl⟩, rfl⟩

/-- Who is not moved stays where he could be counted before. -/
theorem Demand.counted_of_grant? (counted : ∀ a ∈ row, a.slot.Counted n)
    (done : demand.grant? n row = some wider) : ∀ a ∈ wider, a.slot.Counted n := by
  obtain ⟨held, rfl⟩ := grant?_eq_some_iff.mp done
  rw [grant]
  split
  · exact counted
  · rename_i unmet
    intro a member
    rcases List.mem_append.mp member with still | moved
    · exact counted a (List.mem_of_mem_take still)
    · obtain ⟨b, there, rfl⟩ := List.mem_map.mp moved
      exact held (by simpa using unmet) b there

namespace Layout

theorem placeHeaders?_spec {actors : List Actor} (done : placeHeaders? n measure page left actors = some row) :
    placeHeaders measure page left actors = row ∧ ∀ a ∈ row, a.slot.Counted n := by
  induction actors generalizing left row with
  | nil =>
    cases done
    exact ⟨rfl, fun a member => by cases member⟩
  | cons a rest ih =>
    simp only [placeHeaders?, Option.bind_eq_bind, Option.bind_eq_some_iff, Counting.count?_eq_some_iff,
      Slot.placed?_eq_some_iff, Option.pure_def, Option.some.injEq] at done
    obtain ⟨_, ⟨-, rfl⟩, _, ⟨held, rfl⟩, _, ⟨-, rfl⟩, others, placed, rfl⟩ := done
    obtain ⟨rfl, behind⟩ := ih placed
    exact ⟨rfl, List.forall_mem_cons.mpr ⟨held, behind⟩⟩

/-- In its turn a label is measured, and then its demand is granted if there is one. -/
theorem turn?_eq_some_iff : turn? n measure last row (m, e) = some wider ↔
    n.holds (m.columns measure) = true ∧
      (m.demand? measure last e).elim (some row) (Demand.grant? n · row) = some wider := by
  simp only [turn?, Option.bind_eq_bind, Option.bind_eq_some_iff, Counting.count?_eq_some_iff]
  cases m.demand? measure last e <;> simp

theorem turn?_spec (counted : ∀ a ∈ row, a.slot.Counted n) (done : turn? n measure last row (m, e) = some wider) :
    (m.demand? measure last e).elim id Demand.grant row = wider ∧ ∀ a ∈ wider, a.slot.Counted n := by
  have granted := (turn?_eq_some_iff.mp done).2
  cases demanded : m.demand? measure last e with
  | none =>
    rw [demanded] at granted
    cases granted
    exact ⟨rfl, counted⟩
  | some demand =>
    rw [demanded] at granted
    exact ⟨(Demand.grant?_eq_some_iff.mp granted).2, Demand.counted_of_grant? counted granted⟩

/-! ### Turn by turn -/

theorem rowAfter?_zero : rowAfter? n measure page d ends 0 = placeHeaders? n measure page page.gutter d.cast.actors :=
  Option.bind_fun_some _

theorem rowAfter?_succ (message : d.messages[count]? = some m) (places : ends[count]? = some e) :
    rowAfter? n measure page d ends (count + 1) =
      (rowAfter? n measure page d ends count).bind (turn? n measure (d.cast.size - 1) · (m, e)) := by
  obtain ⟨short, rfl⟩ := List.getElem?_eq_some_iff.mp message
  obtain ⟨shortEnds, rfl⟩ := List.getElem?_eq_some_iff.mp places
  have turn : count < (d.messages.zip ends).length := by
    rw [List.length_zip]
    omega
  simp only [rowAfter?, List.take_succ_eq_append_getElem turn, List.foldlM_append, List.getElem_zip,
    Option.bind_eq_bind, Option.bind_assoc, List.foldlM_cons, List.foldlM_nil, Option.pure_def, Option.bind_fun_some]

theorem rowAfter?_of_past (past : (d.messages.zip ends).length ≤ count) :
    rowAfter? n measure page d ends count = rowAfter? n measure page d ends (d.messages.zip ends).length := by
  rw [rowAfter?, rowAfter?, List.take_of_length_le past, List.take_length]

/-- The row of a turn is that of the layout, and all of it could be counted. -/
theorem rowAfter?_spec (done : rowAfter? n measure page d ends count = some row) :
    rowAfter measure page d ends count = row ∧ ∀ a ∈ row, a.slot.Counted n := by
  induction count generalizing row with
  | zero => exact placeHeaders?_spec (rowAfter?_zero ▸ done)
  | succ turn ih =>
    rcases turn_or_past d ends turn with ⟨m, e, message, places⟩ | past
    · rw [rowAfter?_succ message places] at done
      obtain ⟨_, earlier, turned⟩ := Option.bind_eq_some_iff.mp done
      obtain ⟨rfl, counted⟩ := ih earlier
      rw [row_after_succ message places]
      exact turn?_spec counted turned
    · rw [rowAfter?_of_past (Nat.le_succ_of_le past), ← rowAfter?_of_past past] at done
      rw [row_after_succ_of_none past]
      exact ih done

theorem rowAfter?_yields : Yields (rowAfter? n measure page d ends count) (rowAfter measure page d ends count) :=
  fun _ done => (rowAfter?_spec done).1.symm

/-- A run that comes to a turn has come through all turns before. -/
theorem rowAfter?_earlier (order : count ≤ later) (done : (rowAfter? n measure page d ends later).isSome = true) :
    (rowAfter? n measure page d ends count).isSome = true := by
  induction order with
  | refl => exact done
  | @step turn _ ih =>
    apply ih
    rcases turn_or_past d ends turn with ⟨m, e, message, places⟩ | past
    · rw [rowAfter?_succ message places] at done
      exact Option.isSome_of_isSome_bind done
    · rwa [rowAfter?_of_past (Nat.le_succ_of_le past), ← rowAfter?_of_past past] at done

/-- A layout that is not refused comes to its end where its last turn does and the rows
under the headers can be counted. -/
theorem arrange?_eq_some_iff (peopled : d.cast.isEmpty = false) (resolved : resolveEnds d = .ok ends)
    {result : Except LayoutError (Diagram × Outcome)} : arrange? n measure page d = some result ↔
      (∃ row, rowAfter? n measure page d ends d.messages.length = some row ∧
        ∀ a ∈ row, n.holds a.slot.bottom = true) ∧ arrange measure page d = result := by
  have all : (d.messages.zip ends).take d.messages.length = d.messages.zip ends :=
    List.take_of_length_le (by rw [List.length_zip]; omega)
  have bottoms : ∀ a b, n.count? (Slot.bottom (Actor.slot a)) = some b ↔ n.holds a.slot.bottom = true ∧ a.slot.bottom = b :=
    fun a b => Counting.count?_eq_some_iff
  simp only [arrange?, arrange, peopled, Bool.false_eq_true, if_false, resolved, Option.bind_eq_bind,
    Option.bind_eq_some_iff, Option.pure_def, Option.some.injEq, mapM_eq_some_iff bottoms]
  constructor
  · rintro ⟨_, placed, row, turns, _, ⟨held, rfl⟩, rfl⟩
    have ran : rowAfter? n measure page d ends d.messages.length = some row := by
      rw [rowAfter?, all, placed]
      exact turns
    obtain ⟨rfl, -⟩ := placeHeaders?_spec placed
    obtain ⟨rfl, -⟩ := rowAfter?_spec ran
    refine ⟨⟨_, ran, held⟩, ?_⟩
    rw [row_after_all (Nat.le_refl _), headerOffset]
  · rintro ⟨⟨row, ran, held⟩, rfl⟩
    obtain ⟨headers, placed, turns⟩ := Option.bind_eq_some_iff.mp ran
    rw [all] at turns
    refine ⟨headers, placed, row, turns, _, ⟨held, rfl⟩, ?_⟩
    obtain ⟨rfl, -⟩ := placeHeaders?_spec placed
    obtain ⟨rfl, -⟩ := rowAfter?_spec ran
    rw [row_after_all (Nat.le_refl _), headerOffset]

/-- Where the layout comes to its end when it is counted out, it ends as it does
without counting. -/
theorem arrange?_yields : Yields (arrange? n measure page d) (arrange measure page d) := by
  intro result done
  cases peopled : d.cast.isEmpty with
  | true =>
    rw [arrange?, if_pos peopled] at done
    cases done
    rw [arrange, if_pos peopled]
  | false =>
    cases resolved : resolveEnds d with
    | error e =>
      simp only [arrange?, peopled, resolved, Bool.false_eq_true, if_false] at done
      cases done
      simp only [arrange, peopled, resolved, Bool.false_eq_true, if_false]
    | ok ends => exact ((arrange?_eq_some_iff peopled resolved).mp done).2.symm

/-- What is known of a layout that has been counted out: all its turns were, each label
was measured, and every header and its bottom row can be counted where it stands. -/
structure CountedOut (n : Counting) (measure : Measure) (page : Page) (d : Diagram) (ends : List Ends)
    (arranged : Diagram) (outcome : Outcome) : Prop extends Arranged measure page d ends arranged outcome where
  rows : ∀ count, rowAfter? n measure page d ends count = some (rowAfter measure page d ends count)
  slots : ∀ a ∈ arranged.cast.actors, a.slot.Counted n
  bottoms : ∀ a ∈ arranged.cast.actors, n.holds a.slot.bottom = true
  columns : ∀ m ∈ d.messages, n.holds (m.columns measure) = true

theorem counted_of_ok (peopled : d.cast.isEmpty = false)
    (done : arrange? n measure page d = some (.ok (arranged, outcome))) :
    ∃ ends, CountedOut n measure page d ends arranged outcome := by
  obtain ⟨ends, result⟩ := arranged_of_ok peopled (arrange?_yields _ done).symm
  obtain ⟨⟨row, ran, held⟩, -⟩ := (arrange?_eq_some_iff peopled (resolve_ends_eq_ok.mpr result.places)).mp done
  obtain ⟨same, counted⟩ := rowAfter?_spec ran
  rw [← result.row] at same
  have rows (count : Nat) : rowAfter? n measure page d ends count = some (rowAfter measure page d ends count) := by
    apply rowAfter?_yields.eq_some
    rcases Nat.le_total count d.messages.length with early | late
    · exact rowAfter?_earlier early (ran ▸ rfl)
    · have past : (d.messages.zip ends).length ≤ d.messages.length := by
        rw [List.length_zip]
        omega
      rw [rowAfter?_of_past (Nat.le_trans past late), ← rowAfter?_of_past past, ran]
      rfl
  refine ⟨ends, result, rows, same ▸ counted, same ▸ held, fun m sent => ?_⟩
  obtain ⟨turn, message⟩ := List.mem_iff_getElem?.mp sent
  obtain ⟨e, places, -⟩ := result.places_at message
  have next := rows (turn + 1)
  rw [rowAfter?_succ message places, rows turn, Option.bind_some, turn?_eq_some_iff] at next
  exact next.1

/-! ### Without end -/

theorem placeHeaders?_endless (actors : List Actor) :
    placeHeaders? .endless measure page left actors = some (placeHeaders measure page left actors) := by
  induction actors generalizing left with
  | nil => rfl
  | cons a rest ih =>
    simp only [placeHeaders?, Counting.count?_endless, Slot.placed?, Option.map_some, Option.bind_eq_bind,
      Option.bind_some, ih]
    rfl

theorem rowAfter?_endless :
    rowAfter? .endless measure page d ends count = some (rowAfter measure page d ends count) := by
  apply rowAfter?_yields.eq_some
  induction count with
  | zero =>
    rw [rowAfter?_zero, placeHeaders?_endless]
    rfl
  | succ turn ih =>
    obtain ⟨row, earlier⟩ := Option.isSome_iff_exists.mp ih
    rcases turn_or_past d ends turn with ⟨m, e, message, places⟩ | past
    · have granted : (m.demand? measure (d.cast.size - 1) e).elim (some row) (Demand.grant? .endless · row) =
          some ((m.demand? measure (d.cast.size - 1) e).elim id Demand.grant row) := by
        cases m.demand? measure (d.cast.size - 1) e with
        | none => rfl
        | some demand => exact Demand.grant?_eq_some_iff.mpr ⟨fun _ _ _ => rfl, rfl⟩
      rw [rowAfter?_succ message places, earlier, Option.bind_some, turn?_eq_some_iff.mpr ⟨rfl, granted⟩]
      rfl
    · rwa [rowAfter?_of_past (Nat.le_succ_of_le past), ← rowAfter?_of_past past]

/-- Without an end to the numbers every layout comes to its own. -/
theorem arrange?_endless : arrange? .endless measure page d = some (arrange measure page d) := by
  cases peopled : d.cast.isEmpty with
  | true => rw [arrange?, arrange, if_pos peopled, if_pos peopled]
  | false =>
    cases resolved : resolveEnds d with
    | error e => simp only [arrange?, arrange, peopled, resolved, Bool.false_eq_true, if_false]
    | ok ends => exact (arrange?_eq_some_iff peopled resolved).mpr ⟨⟨_, rowAfter?_endless, fun _ _ => rfl⟩, rfl⟩

end Layout

/-! ### The measure of a style -/

/-- The sums that make up the columns of a label can be counted where the last of them can. -/
theorem Measure.terminal?_eq (n : Counting) (boxReach besides : Nat) (label : Text) :
    terminal? n boxReach besides label =
      n.count? (label.length + 2 * (boxReach + labelPad) + besides + 1) := by
  simp (disch := omega) only [terminal?, Option.bind_eq_bind, Counting.count?_bind_count?]

/-- What the measure of a style gives a label is counted sum by sum when it is looked at once. -/
theorem Message.columns_terminal (n : Counting) (boxReach : Nat) (m : Message) :
    n.count? (m.columns (.terminal boxReach)) =
      Measure.terminal? n boxReach (if m.isSelf then Measure.loopReach else 0) m.label := by
  rw [Measure.terminal?_eq, columns]
  split <;> rfl

end SequenceDiagram
