import SequenceDiagram.Lifespan

/-! Lives as records of lines. The marks of a life, signs aside, are the lines
of its events, which never descend; a start and an end take turns. Every mention
that is accepted adds events of its own line at the end, so the two ways to see
whether a life is open, by the number of its marks and by the sign of the last
one, always agree. -/
namespace SequenceDiagram.Lifespan

variable {l next : Lifespan} {lines : List Nat} {now line : Nat} {marker : Marker}

/-- The marks of events on these lines, a start and an end in turn. -/
def marksOn : List Nat → List Int
  | [] => []
  | [start] => [markAt start]
  | start :: stop :: lines => markAt start :: -markAt stop :: marksOn lines

/-- Of the lines of a life's events, a start and an end in turn, a start comes
before the line and its end, if there is one, not before the line. -/
def Spans : List Nat → Nat → Prop
  | [], _ => False
  | [start], line => start ≤ line
  | start :: stop :: lines, line => (start ≤ line ∧ line ≤ stop) ∨ Spans lines line

/-- The life is the record of events on these lines, none before the first line
of the text or after the present one. -/
structure Records (l : Lifespan) (lines : List Nat) (now : Nat) : Prop where
  marks : l.marks = marksOn lines
  ascending : lines.Pairwise (· ≤ ·)
  bounds : ∀ line ∈ lines, 1 ≤ line ∧ line ≤ now

theorem length_marksOn (lines : List Nat) : (marksOn lines).length = lines.length := by
  induction lines using marksOn.induct with
  | case1 => rfl
  | case2 start => rfl
  | case3 start stop rest ih => simp [marksOn, ih]

theorem parity_cons_cons (start stop : Nat) (lines : List Nat) :
    (start :: stop :: lines).length % 2 = lines.length % 2 := by
  simp only [List.length_cons]
  omega

/-- The sign of a new mark follows from the number of those before it. -/
theorem marksOn_append_singleton (lines : List Nat) (line : Nat) :
    marksOn (lines ++ [line]) =
      marksOn lines ++ [if lines.length % 2 = 0 then markAt line else -markAt line] := by
  induction lines using marksOn.induct with
  | case1 => rfl
  | case2 start => rfl
  | case3 start stop rest ih =>
    rw [parity_cons_cons]
    simp only [List.cons_append, marksOn, ih]

theorem getElem?_marksOn (lines : List Nat) (i : Nat) :
    (marksOn lines)[i]? = lines[i]?.map fun line => if i % 2 = 0 then markAt line else -markAt line := by
  induction lines using marksOn.induct generalizing i with
  | case1 => rfl
  | case2 start => cases i <;> rfl
  | case3 start stop rest ih =>
    match i with
    | 0 => rfl
    | 1 => rfl
    | i + 2 => simpa [marksOn] using ih i

/-- What a life spans it still spans after events of later lines. -/
theorem spans_append {more : List Nat} (spans : Spans lines line) (later : ∀ next ∈ more, line ≤ next) :
    Spans (lines ++ more) line := by
  induction lines using marksOn.induct with
  | case1 => exact spans.elim
  | case2 start =>
    cases more with
    | nil => exact spans
    | cons stop more => exact .inl ⟨spans, later stop List.mem_cons_self⟩
  | case3 start stop rest ih =>
    rcases spans with here | there
    · exact .inl here
    · exact .inr (ih there)

/-- An event spans its own line, be it a start or an end. -/
theorem spans_event (past : ∀ earlier ∈ lines, earlier ≤ line) : Spans (lines ++ [line]) line := by
  induction lines using marksOn.induct with
  | case1 => exact Nat.le_refl line
  | case2 start => exact .inl ⟨past start List.mem_cons_self, Nat.le_refl line⟩
  | case3 start stop rest ih => exact .inr (ih fun earlier member => past earlier (by simp [member]))

/-- A life that is still open spans every line from its last event on. -/
theorem spans_of_open (odd : lines.length % 2 = 1) (past : ∀ earlier ∈ lines, earlier ≤ line) :
    Spans lines line := by
  induction lines using marksOn.induct with
  | case1 => cases odd
  | case2 start => exact past start List.mem_cons_self
  | case3 start stop rest ih =>
    rw [parity_cons_cons] at odd
    exact .inr (ih odd fun earlier member => past earlier (by simp [member]))

theorem markAt_pos (first : 1 ≤ line) : 0 < markAt line := by
  unfold markAt lastLine
  omega

theorem markAt_eq_cast (line : Nat) : markAt line = ((min line lastLine : Nat) : Int) := by
  unfold markAt
  omega

theorem natAbs_markAt (line : Nat) : (markAt line).natAbs = min line lastLine := by
  rw [markAt_eq_cast, Int.natAbs_natCast]

/-- Signs aside, the marks are the lines of the events. -/
theorem natAbs_marksOn (lines : List Nat) : (marksOn lines).map Int.natAbs = lines.map (min · lastLine) := by
  induction lines using marksOn.induct with
  | case1 => rfl
  | case2 start => exact congrArg ([·]) (natAbs_markAt start)
  | case3 start stop rest ih =>
    simp only [marksOn, List.map_cons, ih, Int.natAbs_neg, natAbs_markAt]

theorem intervalsOf_marksOn_cons (start stop : Nat) (lines : List Nat) :
    intervalsOf (marksOn (start :: stop :: lines)) =
      (min start lastLine, min stop lastLine) :: intervalsOf (marksOn lines) := by
  rw [marksOn, intervalsOf, Int.natAbs_neg, natAbs_markAt, natAbs_markAt]

theorem start_of_mem_intervals {i : Nat × Nat} (member : i ∈ intervalsOf (marksOn lines)) :
    ∃ start ∈ lines, i.1 = min start lastLine := by
  induction lines using marksOn.induct with
  | case1 | case2 => cases member
  | case3 start stop rest ih =>
    rw [intervalsOf_marksOn_cons, List.mem_cons] at member
    rcases member with rfl | member
    · exact ⟨start, List.mem_cons_self, rfl⟩
    · obtain ⟨later, held, same⟩ := ih member
      exact ⟨later, by simp [held], same⟩

namespace Records

theorem empty (now : Nat) : ({} : Lifespan).Records [] now := ⟨rfl, .nil, List.forall_mem_nil _⟩

variable (record : l.Records lines now)
include record

theorem isOpen_eq : l.isOpen = (lines.length % 2 == 1) := by
  rw [isOpen, record.marks, length_marksOn]

theorem lastMark_eq :
    l.lastMark? = lines.getLast?.map fun line => if l.isOpen then markAt line else -markAt line := by
  rw [record.isOpen_eq, lastMark?, record.marks]
  rcases List.eq_nil_or_concat lines with rfl | ⟨earlier, line, rfl⟩
  · rfl
  · simp only [List.concat_eq_append, marksOn_append_singleton, List.getLast?_concat, Option.map_some,
      List.length_append, List.length_singleton, beq_iff_eq]
    by_cases even : earlier.length % 2 = 0
    · rw [if_pos even, if_pos (by omega)]
    · rw [if_neg even, if_neg (by omega)]

/-- A plain mention sees by the sign of the last mark what the number of marks
tells the other mentions. -/
theorem last_mark_all_neg : l.lastMark?.all (· < 0) = !l.isOpen := by
  rw [record.lastMark_eq]
  cases last : lines.getLast? with
  | none =>
    have empty := List.getLast?_eq_none_iff.mp last
    rw [record.isOpen_eq, empty]
    rfl
  | some line =>
    have positive := markAt_pos (record.bounds line (List.mem_of_getLast? last)).1
    cases opened : l.isOpen <;> simp <;> omega

/-- The mark of an open life is a start. -/
theorem last_mark_any_pos (opened : l.isOpen = true) : l.lastMark?.any (0 < ·) = true := by
  rw [record.lastMark_eq, opened]
  cases last : lines.getLast? with
  | none =>
    have empty := List.getLast?_eq_none_iff.mp last
    rw [record.isOpen_eq, empty] at opened
    cases opened
  | some line =>
    have positive := markAt_pos (record.bounds line (List.mem_of_getLast? last)).1
    simpa using positive

/-- The next event on a line that is not over yet. -/
theorem extend (order : now ≤ line) (first : 1 ≤ line)
    (marks : next.marks = marksOn (lines ++ [line])) : next.Records (lines ++ [line]) line := by
  refine ⟨marks, ?_, ?_⟩
  · refine List.pairwise_append.mpr ⟨record.ascending, List.pairwise_singleton _ _, ?_⟩
    intro earlier member same equal
    rw [List.mem_singleton.mp equal]
    exact Nat.le_trans (record.bounds earlier member).2 order
  · intro any member
    rcases List.mem_append.mp member with member | same
    · have bound := record.bounds any member
      exact ⟨bound.1, Nat.le_trans bound.2 order⟩
    · rw [List.mem_singleton.mp same]
      exact ⟨first, Nat.le_refl _⟩

theorem openAt (closed : l.isOpen = false) (order : now ≤ line) (first : 1 ≤ line) :
    (l.openAt line).Records (lines ++ [line]) line := by
  have even : lines.length % 2 = 0 := by
    simp only [record.isOpen_eq, beq_eq_false_iff_ne] at closed
    omega
  refine record.extend order first ?_
  rw [marksOn_append_singleton, if_pos even, Lifespan.openAt, record.marks]

theorem closeAt (opened : l.isOpen = true) (order : now ≤ line) (first : 1 ≤ line) :
    (l.closeAt line).Records (lines ++ [line]) line := by
  have odd : lines.length % 2 ≠ 0 := by
    simp only [record.isOpen_eq, beq_iff_eq] at opened
    omega
  refine record.extend order first ?_
  rw [marksOn_append_singleton, if_neg odd, Lifespan.closeAt, record.marks]

theorem later (order : now ≤ line) : l.Records lines line :=
  ⟨record.marks, record.ascending, fun any member =>
    ⟨(record.bounds any member).1, Nat.le_trans (record.bounds any member).2 order⟩⟩

/-- An accepted mention leaves a record that spans its line. What was recorded
before stands at its front, and all that is new is of that line. -/
theorem mention (order : now ≤ line) (first : 1 ≤ line) (done : l.mention marker line = .ok next) :
    ∃ more, next.Records (lines ++ more) line ∧ Spans (lines ++ more) line ∧ ∀ fresh ∈ more, fresh = line := by
  have past : ∀ earlier ∈ lines, earlier ≤ line := fun earlier member =>
    Nat.le_trans (record.bounds earlier member).2 order
  cases marker with
  | plain =>
    simp only [Lifespan.mention, record.last_mark_all_neg] at done
    cases done
    cases opened : l.isOpen with
    | false => exact ⟨[line], record.openAt opened order first, spans_event past, by simp⟩
    | true =>
      have odd : lines.length % 2 = 1 := by simpa [record.isOpen_eq] using opened
      exact ⟨[], by simpa using record.later order, by simpa using spans_of_open odd past, by simp⟩
  | ending =>
    rw [Lifespan.mention] at done
    split at done
    · rename_i opened
      cases done
      exact ⟨[line], record.closeAt opened order first, spans_event past, by simp⟩
    · cases done
  | oneShot =>
    rw [Lifespan.mention] at done
    split at done
    · cases done
    · rename_i closed
      cases done
      have begun := record.openAt (by simpa using closed) order first
      have opened : (l.openAt line).isOpen = true := by
        rw [begun.isOpen_eq]
        rw [record.isOpen_eq] at closed
        simp only [beq_iff_eq, List.length_append, List.length_singleton] at closed ⊢
        omega
      have ended := begun.closeAt opened (Nat.le_refl _) first
      rw [List.append_assoc] at ended
      refine ⟨[line, line], ended, ?_, by simp⟩
      rw [← List.singleton_append, ← List.append_assoc]
      exact spans_append (spans_event past) (by simp)
  | ambiguous => cases done

/-- The end of the text closes what is open and touches nothing else. -/
theorem cap (order : now ≤ line) (first : 1 ≤ line) :
    ∃ more, (l.cap line).Records (lines ++ more) line ∧ (lines ++ more).length % 2 = 0 ∧
      ∀ fresh ∈ more, fresh = line := by
  cases opened : l.isOpen with
  | false =>
    have untouched : l.cap line = l := by simp [Lifespan.cap, opened]
    have parity := record.isOpen_eq.symm.trans opened
    refine ⟨[], ?_, ?_, by simp⟩
    · rw [untouched, List.append_nil]
      exact record.later order
    · simp only [beq_eq_false_iff_ne, List.append_nil] at parity ⊢
      omega
  | true =>
    have parity := record.isOpen_eq.symm.trans opened
    have closed : l.cap line = l.closeAt line := by
      simp [Lifespan.cap, opened, record.last_mark_any_pos opened]
    refine ⟨[line], closed ▸ record.closeAt opened order first, ?_, by simp⟩
    simp only [beq_iff_eq, List.length_append, List.length_singleton] at parity ⊢
    omega

/-- Intervals lie within the lines of the text and do not end before they begin. -/
theorem mem_intervals {start stop : Nat} (member : (start, stop) ∈ l.intervals) :
    1 ≤ start ∧ start ≤ stop ∧ stop ≤ now := by
  rw [intervals, record.marks] at member
  have ascending := record.ascending
  have bounds := record.bounds
  clear record
  induction lines using marksOn.induct with
  | case1 => cases member
  | case2 line => cases member
  | case3 first second rest ih =>
    rw [intervalsOf_marksOn_cons, List.mem_cons] at member
    obtain ⟨before, tail⟩ := List.pairwise_cons.mp ascending
    rcases member with same | member
    · have order := before second (by simp)
      have low := bounds first (by simp)
      have high := bounds second (by simp)
      obtain ⟨rfl, rfl⟩ := Prod.mk.inj same
      unfold lastLine
      omega
    · exact ih member (List.pairwise_cons.mp tail).2 fun line inside => bounds line (by simp [inside])

theorem intervals_nonempty (recorded : lines ≠ []) (even : lines.length % 2 = 0) : l.intervals ≠ [] := by
  rw [intervals, record.marks]
  match lines, recorded, even with
  | first :: second :: rest, _, _ => simp [marksOn, intervalsOf]

/-- An interval ends no later than the next one starts. -/
theorem intervals_ascend : l.intervals.Pairwise fun earlier later => earlier.2 ≤ later.1 := by
  rw [intervals, record.marks]
  have ascending := record.ascending
  clear record
  induction lines using marksOn.induct with
  | case1 | case2 => exact .nil
  | case3 first second rest ih =>
    obtain ⟨_, tail⟩ := List.pairwise_cons.mp ascending
    obtain ⟨before, rest⟩ := List.pairwise_cons.mp tail
    rw [intervalsOf_marksOn_cons]
    refine List.pairwise_cons.mpr ⟨?_, ih rest⟩
    intro later member
    obtain ⟨start, held, same⟩ := start_of_mem_intervals member
    have order := before start held
    rw [same]
    omega

/-- In a life that is over, every mark starts or ends an interval. -/
theorem marks_paired (even : lines.length % 2 = 0) :
    l.marks = l.intervals.flatMap fun i => [(i.1 : Int), -(i.2 : Int)] := by
  rw [intervals, record.marks]
  clear record
  induction lines using marksOn.induct with
  | case1 => rfl
  | case2 => cases even
  | case3 first second rest ih =>
    rw [parity_cons_cons] at even
    rw [intervalsOf_marksOn_cons, List.flatMap_cons, ← ih even, marksOn, markAt_eq_cast, markAt_eq_cast]
    rfl

/-- A life that is over and spans a line has an interval with that line. -/
theorem interval_of_spans (even : lines.length % 2 = 0) (spans : Spans lines line) (short : line ≤ lastLine) :
    ∃ i ∈ l.intervals, i.1 ≤ line ∧ line ≤ i.2 := by
  rw [intervals, record.marks]
  clear record
  induction lines using marksOn.induct with
  | case1 => exact spans.elim
  | case2 => cases even
  | case3 first second rest ih =>
    rw [parity_cons_cons] at even
    rw [intervalsOf_marksOn_cons]
    rcases spans with ⟨begun, lasting⟩ | there
    · exact ⟨_, List.mem_cons_self, by simp only; omega, by simp only; omega⟩
    · obtain ⟨i, member, holds⟩ := ih even there
      exact ⟨i, List.mem_cons_of_mem _ member, holds⟩

end Records

/-- The life is on record up to the present line and spans an earlier one. -/
def Attends (l : Lifespan) (line now : Nat) : Prop := ∃ lines, l.Records lines now ∧ Spans lines line

/-- An accepted mention is itself an event in the life. -/
theorem Records.attends (record : l.Records lines now) (order : now ≤ line) (first : 1 ≤ line)
    (done : l.mention marker line = .ok next) : next.Attends line line := by
  obtain ⟨more, recorded, spans, _⟩ := record.mention order first done
  exact ⟨lines ++ more, recorded, spans⟩

namespace Attends

variable {earlier : Nat} (attends : l.Attends earlier now)
include attends

theorem later (order : now ≤ line) : l.Attends earlier line := by
  obtain ⟨lines, record, spans⟩ := attends
  exact ⟨lines, record.later order, spans⟩

/-- No later mention undoes it. -/
theorem mention (past : earlier ≤ line) (order : now ≤ line) (first : 1 ≤ line)
    (done : l.mention marker line = .ok next) : next.Attends earlier line := by
  obtain ⟨lines, record, spans⟩ := attends
  obtain ⟨more, recorded, _, fresh⟩ := record.mention order first done
  exact ⟨lines ++ more, recorded, spans_append spans fun event member => fresh event member ▸ past⟩

/-- Once the life is closed, one of its intervals holds the line. -/
theorem interval (past : earlier ≤ now) (first : 1 ≤ now) (short : earlier ≤ lastLine) :
    ∃ i ∈ (l.cap now).intervals, i.1 ≤ earlier ∧ earlier ≤ i.2 := by
  obtain ⟨lines, record, spans⟩ := attends
  obtain ⟨more, recorded, even, fresh⟩ := record.cap (Nat.le_refl _) first
  exact recorded.interval_of_spans even
    (spans_append spans fun event member => fresh event member ▸ past) short

end Attends

end SequenceDiagram.Lifespan
