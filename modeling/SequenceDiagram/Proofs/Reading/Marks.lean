import SequenceDiagram.Proofs.Reading.Independence

/-! The marks of a life. Whatever mentions come, accepted or refused, starts and ends
take turns in every life and their lines never descend: each life stays a record of
events on lines. From that record everything is read that tells the two ways to see
whether a life is open apart, and they never are. The end of the text adds one mark to
the lives that are open, and then the intervals hold all marks. -/
namespace SequenceDiagram
open Lifespan

namespace Lifespan

variable {l : Lifespan} {lines : List Nat} {now line : Nat}

/-- Marks as they should be: a start and an end in turn, on lines that never descend.
The number of the marks and the sign of the last one then tell the same. -/
structure WellFormed (l : Lifespan) : Prop where
  turns : ∀ (i : Nat) (mark : Int), l.marks[i]? = some mark → if i % 2 = 0 then 0 < mark else mark < 0
  ascending : (l.marks.map Int.natAbs).Pairwise (· ≤ ·)
  open_iff : l.isOpen = true ↔ ∃ mark, l.lastMark? = some mark ∧ 0 < mark
  closed_iff : l.isOpen = false ↔ ∀ mark, l.lastMark? = some mark → mark < 0

/-- A life that is over: every mark starts or ends an interval, no interval ends
before it starts, and none starts before the one in front of it ends. -/
structure Over (l : Lifespan) : Prop extends WellFormed l where
  closed : l.isOpen = false
  even : l.marks.length % 2 = 0
  paired : l.marks = l.intervals.flatMap fun i => [(i.1 : Int), -(i.2 : Int)]
  ordered : ∀ i ∈ l.intervals, i.1 ≤ i.2
  apart : l.intervals.Pairwise fun earlier later => earlier.2 ≤ later.1

/-- A life that is not open is left as it is. -/
theorem cap_of_closed (closed : l.isOpen = false) (line : Nat) : l.cap line = l := by
  simp [cap, closed]

namespace Records

variable (record : l.Records lines now)
include record

theorem turns (i : Nat) (mark : Int) (held : l.marks[i]? = some mark) :
    if i % 2 = 0 then 0 < mark else mark < 0 := by
  rw [record.marks, getElem?_marksOn] at held
  obtain ⟨line, event, rfl⟩ := Option.map_eq_some_iff.mp held
  have positive := markAt_pos (record.bounds line (List.mem_of_getElem? event)).1
  split
  · exact positive
  · exact Int.neg_neg_of_pos positive

theorem natAbs_ascending : (l.marks.map Int.natAbs).Pairwise (· ≤ ·) := by
  rw [record.marks, natAbs_marksOn]
  refine List.Pairwise.map _ (fun earlier later order => ?_) record.ascending
  omega

/-- The last mark of an open life is a start, that of a closed life an end. -/
theorem sign_of_last {mark : Int} (last : l.lastMark? = some mark) :
    if l.isOpen then 0 < mark else mark < 0 := by
  rw [record.lastMark_eq] at last
  obtain ⟨line, event, rfl⟩ := Option.map_eq_some_iff.mp last
  have positive := markAt_pos (record.bounds line (List.mem_of_getLast? event)).1
  split
  · exact positive
  · exact Int.neg_neg_of_pos positive

theorem exists_last (opened : l.isOpen = true) : ∃ mark, l.lastMark? = some mark := by
  have positive := record.last_mark_any_pos opened
  cases last : l.lastMark? with
  | none =>
    rw [last] at positive
    cases positive
  | some mark => exact ⟨mark, rfl⟩

theorem wellFormed : l.WellFormed where
  turns := record.turns
  ascending := record.natAbs_ascending
  open_iff := by
    constructor
    · intro opened
      obtain ⟨mark, last⟩ := record.exists_last opened
      have sign := record.sign_of_last last
      rw [if_pos opened] at sign
      exact ⟨mark, last, sign⟩
    · rintro ⟨mark, last, positive⟩
      by_contra closed
      have sign := record.sign_of_last last
      rw [if_neg closed] at sign
      omega
  closed_iff := by
    constructor
    · intro closed mark last
      have sign := record.sign_of_last last
      rwa [if_neg (by simp [closed])] at sign
    · intro negative
      by_contra opened
      rw [Bool.not_eq_false] at opened
      obtain ⟨mark, last⟩ := record.exists_last opened
      have sign := record.sign_of_last last
      have also := negative mark last
      rw [if_pos opened] at sign
      omega

/-- The end of the text adds a mark to a life that is open, and to no other. -/
theorem cap_eq (line : Nat) : l.cap line = if l.isOpen then ⟨l.marks ++ [-markAt line]⟩ else l := by
  cases opened : l.isOpen with
  | false => exact cap_of_closed opened line
  | true => simp [Lifespan.cap, opened, record.last_mark_any_pos opened, Lifespan.closeAt]

/-- A record of as many ends as starts is over. -/
theorem over_of_even (even : lines.length % 2 = 0) : l.Over where
  toWellFormed := record.wellFormed
  closed := by simp [record.isOpen_eq, even]
  even := by rwa [record.marks, length_marksOn]
  paired := record.marks_paired even
  ordered := fun _ member => (record.mem_intervals member).2.1
  apart := record.intervals_ascend

/-- The end of the text leaves every life over. -/
theorem over_cap (order : now ≤ line) : (l.cap line).Over := by
  cases opened : l.isOpen with
  | false =>
    have even : lines.length % 2 = 0 := by simpa [record.isOpen_eq] using opened
    rw [cap_of_closed opened]
    exact record.over_of_even even
  | true =>
    have odd : lines.length % 2 = 1 := by simpa [record.isOpen_eq] using opened
    obtain ⟨event, held⟩ := List.exists_mem_of_length_pos (l := lines) (by omega)
    have bound := record.bounds event held
    obtain ⟨_, closed, even, _⟩ := record.cap order (Nat.le_trans bound.1 (Nat.le_trans bound.2 order))
    exact closed.over_of_even even

end Records

end Lifespan

namespace Cast

variable {c : Cast} {mentions : List (Text × Nat)} {now : Nat}

/-- What one mention keeps, a run of mentions on lines that never descend keeps, up to
the line of its last mention. -/
theorem OnRecord.referAll (record : c.OnRecord now) (numbered : ∀ mention ∈ mentions, 1 ≤ mention.2)
    (ascending : mentions.Pairwise fun earlier later => earlier.2 ≤ later.2)
    (after : ∀ mention ∈ mentions, now ≤ mention.2) :
    ∃ last, (c.referAll mentions).2.OnRecord last ∧ (last = now ∨ ∃ mention ∈ mentions, last = mention.2) := by
  induction mentions generalizing c now with
  | nil => exact ⟨now, record, .inl rfl⟩
  | cons mention mentions ih =>
    obtain ⟨token, line⟩ := mention
    obtain ⟨first, numbered⟩ := List.forall_mem_cons.mp numbered
    obtain ⟨next, ascending⟩ := List.pairwise_cons.mp ascending
    obtain ⟨begun, _⟩ := List.forall_mem_cons.mp after
    obtain ⟨last, kept, same | ⟨mention, member, same⟩⟩ := ih (record.refer begun first token) numbered ascending next
    · exact ⟨last, kept, .inr ⟨_, List.mem_cons_self, same⟩⟩
    · exact ⟨last, kept, .inr ⟨mention, List.mem_cons_of_mem _ member, same⟩⟩

/-- The end of the text comes to every life by itself. -/
theorem OnRecord.cap_actors (record : c.OnRecord now) (line : Nat) : (c.cap line).actors = c.actors.map fun a =>
    if a.lifespan.isOpen then { a with lifespan := ⟨a.lifespan.marks ++ [-markAt line]⟩ } else a := by
  refine List.map_congr_left fun a member => ?_
  obtain ⟨lines, lived⟩ := record a member
  rw [lived.cap_eq]
  split <;> rfl

theorem OnRecord.over_cap {line : Nat} (record : c.OnRecord now) (order : now ≤ line) :
    ∀ a ∈ (c.cap line).actors, a.lifespan.Over := by
  intro a member
  obtain ⟨earlier, held, rfl⟩ := List.mem_map.mp member
  obtain ⟨lines, lived⟩ := record earlier held
  exact lived.over_cap order

/-- Where every life is over there is nothing left to end. -/
theorem cap_of_over (ended : ∀ a ∈ c.actors, a.lifespan.Over) (line : Nat) : c.cap line = c := by
  have same : c.actors.map (fun a => { a with lifespan := a.lifespan.cap line }) = c.actors.map id := by
    refine List.map_congr_left fun a member => ?_
    rw [cap_of_closed (ended a member).closed]
    rfl
  rw [cap, same, List.map_id]

end Cast

/-- After any run of mentions on lines that never descend, refused ones included, and at
every point of it, the marks of every actor are well formed. The end of the text then
adds one mark to each life that is open and nothing to any other; it leaves every life
over, with all its marks in its intervals, and a second end changes nothing. -/
theorem marks_stay_well_formed (mentions : List (Text × Nat)) (numbered : ∀ mention ∈ mentions, 1 ≤ mention.2)
    (ascending : mentions.Pairwise fun earlier later => earlier.2 ≤ later.2) :
    (∀ turn, ∀ a ∈ (({} : Cast).referAll (mentions.take turn)).2.actors, a.lifespan.WellFormed) ∧
      ∀ cast last, cast = (({} : Cast).referAll mentions).2 → (∀ mention ∈ mentions, mention.2 ≤ last) →
        (cast.cap last).actors = (cast.actors.map fun a =>
          if a.lifespan.isOpen then { a with lifespan := ⟨a.lifespan.marks ++ [-markAt last]⟩ } else a) ∧
        (∀ a ∈ (cast.cap last).actors, a.lifespan.Over) ∧
        ∀ later, (cast.cap last).cap later = cast.cap last := by
  refine ⟨fun turn a member => ?_, ?_⟩
  · have numbered : ∀ mention ∈ mentions.take turn, 1 ≤ mention.2 :=
      fun mention taken => numbered mention (List.mem_of_mem_take taken)
    have ascending := ascending.sublist (List.take_sublist turn mentions)
    obtain ⟨_, record, _⟩ := (Cast.OnRecord.empty 0).referAll numbered ascending fun _ _ => Nat.zero_le _
    obtain ⟨_, lived⟩ := record a member
    exact lived.wellFormed
  · rintro cast last rfl past
    obtain ⟨now, record, end_of_run⟩ := (Cast.OnRecord.empty 0).referAll numbered ascending fun _ _ => Nat.zero_le _
    have order : now ≤ last := by
      rcases end_of_run with rfl | ⟨mention, member, rfl⟩
      · exact Nat.zero_le last
      · exact past mention member
    have ended := record.over_cap order
    exact ⟨record.cap_actors last, ended, Cast.cap_of_over ended⟩

/-- A life that one line begins, ends and begins again, refused mentions on the same
line and an actor who has none but a refused one, up to lines that no mark can tell
apart. -/
def crowded : List (Text × Nat) :=
  [("A".toList, 1), ("/A".toList, 1), ("/A".toList, 1), ("A".toList, 1), ("/B".toList, 2), ("/A".toList, 2),
    ("A/".toList, 0x8000000000000000), ("C".toList, 0x8000000000000001), ("C/".toList, 0x8000000000000001)]

theorem marks_stay_well_formed_crowded :
    let cast := (({} : Cast).referAll crowded).2
    (∀ a ∈ cast.actors, a.lifespan.WellFormed) ∧ cast.names = [['A'], ['B'], ['C']] ∧
      (cast.lifespanOf ['A']).marks = [1, -1, 1, -2, 0x7FFFFFFFFFFFFFFF, -0x7FFFFFFFFFFFFFFF] ∧
      ((cast.cap 0x8000000000000002).lifespanOf ['C']).intervals = [(0x7FFFFFFFFFFFFFFF, 0x7FFFFFFFFFFFFFFF)] ∧
      ∀ a ∈ (cast.cap 0x8000000000000002).actors, a.lifespan.Over := by
  obtain ⟨throughout, end_of_text⟩ := marks_stay_well_formed crowded (by decide) (by decide)
  obtain ⟨_, ended, _⟩ := end_of_text _ 0x8000000000000002 rfl (by decide)
  exact ⟨throughout 9, by decide, by decide, by decide, ended⟩

end SequenceDiagram
