import SequenceDiagram.Proofs.Layout.Counted

/-! Headers as a layout leaves them. The labels move headers to the right, and
with them everything further right, so the first header stays where it was placed,
no two ever come closer than a gutter, and none changes its shape. -/
namespace SequenceDiagram
open Layout

variable {measure : Measure} {page : Page} {d arranged : Diagram} {outcome : Outcome} {ends : List Ends}
  {m : Message} {e : Ends} {row : List Actor} {a b : Actor} {gutter last count i j : Nat}

/-- The greatest of some numbers is bounded exactly when each of them is. -/
theorem foldl_max_le_iff {numbers : List Nat} {start bound : Nat} :
    numbers.foldl max start ≤ bound ↔ start ≤ bound ∧ ∀ number ∈ numbers, number ≤ bound := by
  induction numbers generalizing start with
  | nil => simp
  | cons number rest ih => rw [List.foldl_cons, ih, Nat.max_le, List.forall_mem_cons, and_assoc]

/-- A label asks for room to the right of some actor. -/
theorem Message.demand_ascends {demand : Demand} (demanded : m.demand? measure last e = some demand) :
    demand.left < demand.right := by
  rw [demand?] at demanded
  split at demanded
  · cases demanded
    assumption
  · split at demanded
    · cases demanded
    · cases demanded
      exact Nat.lt_succ_self _

/-- What is moved lies right of the first actor. -/
theorem Demand.head?_grant {demand : Demand} (ascends : demand.left < demand.right) (row : List Actor) :
    (demand.grant row).head? = row.head? := by
  obtain ⟨columns, moved⟩ := demand.grant_eq_shiftFrom row
  rw [moved, shiftFrom, List.head?_append, List.head?_take, if_neg (by omega)]
  cases row with
  | nil => rw [List.drop_nil]; rfl
  | cons a rest => rfl

/-- A header of the size that its name and the page give it, with the lifeline in
the middle, rounded down. -/
structure Actor.HasHeader (measure : Measure) (page : Page) (a : Actor) : Prop where
  width : a.slot.width = measure.header a.name + 2 * page.gutter
  top : a.slot.top = page.gutter
  height : a.slot.height = page.lineHeight
  mid : a.mid = a.slot.left + a.slot.width / 2

namespace Layout

theorem head?_row_after :
    (rowAfter measure page d ends count).head? =
      (placeHeaders measure page page.gutter d.cast.actors).head? := by
  refine row_after_induction
    (P := fun row => row.head? = (placeHeaders measure page page.gutter d.cast.actors).head?) rfl ?_ count
  intro turn m e demand _ _ demanded kept
  rw [demand.head?_grant (Message.demand_ascends demanded), kept]

/-- Headers that all end in one row leave the rows from there on to the messages. -/
theorem headerOffset_of_level {bottom : Nat} (peopled : row ≠ []) (level : ∀ a ∈ row, a.slot.bottom = bottom) :
    headerOffset row = bottom := by
  obtain ⟨a, member⟩ := List.exists_mem_of_ne_nil row peopled
  apply Nat.le_antisymm
  · refine foldl_max_le_iff.mpr ⟨Nat.zero_le _, List.forall_mem_map.mpr fun b held => ?_⟩
    exact Nat.le_of_eq (level b held)
  · have greatest := (foldl_max_le_iff.mp (Nat.le_refl (headerOffset row))).2 _ (List.mem_map_of_mem member)
    rwa [level a member] at greatest

namespace Arranged

variable (result : Arranged measure page d ends arranged outcome)
include result

/-- A layout gives an actor its header and changes nothing else of it. -/
theorem header_of_origin (member : a ∈ arranged.cast.actors) : a.HasHeader measure page ∧
    ∃ b ∈ d.cast.actors, b.name = a.name ∧ b.lifespan = a.lifespan := by
  have image : a.anywhere ∈ d.cast.actors.map (unplaced measure page) :=
    result.anywhere ▸ List.mem_map_of_mem member
  obtain ⟨b, held, same⟩ := List.mem_map.mp image
  have named : (unplaced measure page b).name = a.anywhere.name := congrArg Actor.name same
  have lived : (unplaced measure page b).lifespan = a.anywhere.lifespan := congrArg Actor.lifespan same
  have shaped (size : Slot → Nat) : size (unplaced measure page b).slot = size a.anywhere.slot :=
    congrArg (fun actor => size actor.slot) same
  refine ⟨⟨?_, (shaped Slot.top).symm, (shaped Slot.height).symm, a.slot.mid_eq⟩, b, held, named, lived⟩
  exact named ▸ (shaped Slot.width).symm

theorem has_header (member : a ∈ arranged.cast.actors) : a.HasHeader measure page :=
  (result.header_of_origin member).1

theorem actor_origin (member : a ∈ arranged.cast.actors) :
    ∃ b ∈ d.cast.actors, b.name = a.name ∧ b.lifespan = a.lifespan :=
  (result.header_of_origin member).2

theorem bottom_eq (member : a ∈ arranged.cast.actors) : a.slot.bottom = page.gutter + page.lineHeight := by
  have header := result.has_header member
  rw [Slot.bottom, header.top, header.height]

theorem somebody (peopled : d.cast.isEmpty = false) : arranged.cast.actors ≠ [] := by
  intro nobody
  have names := result.names_eq
  rw [Cast.names, nobody, eq_comm, Cast.names, List.map_nil, List.map_eq_nil_iff] at names
  rw [Cast.isEmpty, names] at peopled
  cases peopled

/-- The rows of the messages begin right below the headers. -/
theorem headerOffset_eq (peopled : d.cast.isEmpty = false) :
    outcome.headerOffset = page.gutter + page.lineHeight := by
  rw [result.headerOffset, headerOffset_of_level (result.somebody peopled) fun a member => result.bottom_eq member]

/-- The lowest header ends where the rows of the messages begin. -/
theorem bottom_le_headerOffset (member : a ∈ arranged.cast.actors) :
    a.slot.bottom ≤ outcome.headerOffset := by
  rw [result.headerOffset]
  exact (foldl_max_le_iff.mp (Nat.le_refl _)).2 _ (List.mem_map_of_mem member)

theorem first_left {first : Actor} (found : arranged.cast.get? 0 = some first) :
    first.slot.left = page.gutter := by
  rw [Cast.get?, ← List.head?_eq_getElem?, result.row, head?_row_after] at found
  cases actors : d.cast.actors with
  | nil =>
    rw [actors] at found
    cases found
  | cons a rest =>
    rw [actors] at found
    cases found
    rfl

theorem apart (order : i < j) (first : arranged.cast.get? i = some a) (second : arranged.cast.get? j = some b) :
    a.slot.right + page.gutter ≤ b.slot.left := by
  obtain ⟨inside, rfl⟩ := List.getElem?_eq_some_iff.mp first
  obtain ⟨insideToo, rfl⟩ := List.getElem?_eq_some_iff.mp second
  exact List.pairwise_iff_getElem.mp result.side_by_side i j inside insideToo order

end Arranged

end Layout

/-- Whatever its labels ask for, a layout leaves the headers side by side and in
the order of the cast: each in the shape of its name, the first a gutter from the
edge, and a gutter or more between any two, so that the lifelines ascend and the
messages begin right below. A label that asks for more than can be counted ends the
layout. -/
theorem headers_stand_side_by_side (n : Counting) (measure : Measure) (page : Page) (d arranged : Diagram)
    (outcome : Outcome) (peopled : d.cast.isEmpty = false)
    (done : Layout.arrange? n measure page d = some (.ok (arranged, outcome))) :
    arranged.cast.names = d.cast.names ∧
    (∃ first, arranged.cast.get? 0 = some first ∧ first.slot.left = page.gutter) ∧
    (∀ a ∈ arranged.cast.actors, a.HasHeader measure page) ∧
    (∀ i j a b, i < j → arranged.cast.get? i = some a → arranged.cast.get? j = some b →
      a.slot.left + a.slot.width + page.gutter ≤ b.slot.left ∧
        a.mid ≤ b.mid ∧ (1 ≤ page.gutter → a.mid < b.mid)) ∧
    outcome.headerOffset = page.gutter + page.lineHeight := by
  obtain ⟨ends, result⟩ := arranged_of_ok peopled (arrange?_yields _ done).symm
  refine ⟨result.names_eq, ?_, fun a => result.has_header, ?_, result.headerOffset_eq peopled⟩
  · obtain ⟨first, others, actors⟩ := List.exists_cons_of_ne_nil (result.somebody peopled)
    have found : arranged.cast.get? 0 = some first := by rw [Cast.get?, actors, List.getElem?_cons_zero]
    exact ⟨first, found, result.first_left found⟩
  · intro i j a b order first second
    have apart := result.apart order first second
    have lifelines := mid_lt_of_side_by_side apart
    rw [Slot.right] at apart
    exact ⟨apart, by omega, by omega⟩

/-- Three actors on a page that is too narrow for any of them, with a label from the
last to the first and one that the second tells itself. -/
def narrowPage : Diagram where
  cast := ⟨[{ name := ['A'] }, { name := "Bob".toList }, { name := ['C'] }]⟩
  messages := [
    { arrow := ⟨.thin, true⟩, source := ['C'], target := ['A'], label := List.replicate 30 'x' },
    { arrow := ⟨.thin, false⟩, source := "Bob".toList, target := "Bob".toList, label := List.replicate 25 'y' }]
  lineCount := 2

theorem headers_stand_side_by_side_narrow_page :
    narrowPage.cast.isEmpty = false ∧ ∃ arranged outcome,
      Layout.arrange? .words .cells { width := 10, gutter := 1, lineHeight := 4 } narrowPage =
        some (.ok (arranged, outcome)) ∧
      outcome.warnings.length = 3 ∧ outcome.widened.length = 2 ∧
      (∀ i j a b, i < j → arranged.cast.get? i = some a → arranged.cast.get? j = some b → a.mid < b.mid) ∧
      outcome.headerOffset = 5 := by
  refine ⟨rfl, _, _, rfl, rfl, rfl, ?_⟩
  obtain ⟨_, _, _, apart, offset⟩ :=
    headers_stand_side_by_side .words .cells { width := 10, gutter := 1, lineHeight := 4 } narrowPage _ _ rfl rfl
  exact ⟨fun i j a b order first second => (apart i j a b order first second).2.2 (Nat.le_refl 1), offset⟩

end SequenceDiagram
