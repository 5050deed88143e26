import SequenceDiagram.Picture.Paint
import SequenceDiagram.Proofs.Export.Writing
import SequenceDiagram.Snapshot.Reader

/-! An exported layout can be read back. Each record gives back what it was written from,
so the text tells everything about a diagram and what its layout reported that it was
captured from. Diagrams with one export are one diagram and have one picture. -/
namespace SequenceDiagram

namespace Json

variable {α : Type} {key other : String} {v : Json} {fields : List (String × Json)} {readField : Json → Option α}

/-! ### Fields -/

theorem get?_cons : get? key (.obj ((other, v) :: fields)) = if key = other then some v else get? key (.obj fields) := by
  by_cases same : key = other
  · simp [get?, same]
  · have apart : (key == other) = false := by simpa using same
    simp [get?, List.lookup_cons, apart, same]

theorem field?_cons : field? key readField (.obj ((other, v) :: fields)) =
    if key = other then readField v else field? key readField (.obj fields) := by
  by_cases same : key = other <;> simp [field?, get?_cons, same]

theorem optional?_cons : optional? key readField (.obj ((other, v) :: fields)) =
    if key = other then (readField v).map some else optional? key readField (.obj fields) := by
  by_cases same : key = other <;> simp [optional?, get?_cons, same]

theorem optional?_nil : optional? key readField (.obj []) = some none := rfl

theorem nat?_number (n : Nat) : nat? (Snapshot.number n) = some n := rfl

theorem items?_map {α : Type} {readItem : Json → Option α} {write : α → Json}
    (undoes : ∀ a, readItem (write a) = some a) (items : List α) :
    items? readItem (.arr (items.map write)) = some items := by
  induction items with
  | nil => rfl
  | cons a items ih =>
    simp only [items?] at ih
    simp [items?, undoes, ih]

end Json

namespace Snapshot

theorem actor?_ofActor (a : Actor) : actor? (ofActor a) = some a := by
  have marks := Json.items?_map (fun z => (rfl : Json.int? (.num z) = some z)) a.lifespan.marks
  simp [actor?, ofActor, Json.field?_cons, marks, Json.text?, Json.nat?_number, Actor.mid]

theorem message?_ofMessage (m : Message) : message? (ofMessage m) = some m := by
  obtain ⟨arrow, source, target, label, rightward⟩ := m
  cases rightward <;>
    simp [message?, ofMessage, Json.field?_cons, Json.optional?_cons, Json.optional?_nil, Json.text?, Json.bool?,
      Arrow.ofToken?_token]

theorem overflow?_ofOverflow (o : Overflow) : overflow? (ofOverflow o) = some o := by
  simp only [overflow?, ofOverflow, Json.field?_cons, String.reduceEq, if_true, if_false, Json.text?, Json.nat?_number,
    Option.bind_eq_bind, Option.bind_some]

theorem ofJson?_toJson (s : Snapshot) : ofJson? s.toJson = some s := by
  obtain ⟨lineCount, headerOffset, actors, messages, warnings⟩ := s
  have cast := Json.items?_map actor?_ofActor actors
  have sent := Json.items?_map message?_ofMessage messages
  have reported := Json.items?_map overflow?_ofOverflow warnings
  cases warnings with
  | nil =>
    simp [ofJson?, toJson, Json.field?_cons, Json.optional?_cons, Json.optional?_nil, Json.nat?_number, cast, sent]
  | cons =>
    simp [ofJson?, toJson, Json.field?_cons, Json.optional?_cons, Json.nat?_number, cast, sent, reported, -List.map_cons]

/-- A snapshot is read from every text of its record, whatever the spaces and escapes. -/
theorem read?_of_document {s : Snapshot} {t : Text} (written : Json.Document s.toJson t) : read? t = some s := by
  rw [read?, Json.read?_eq_some written]
  exact ofJson?_toJson s

theorem read?_toText (s : Snapshot) : read? s.toText = some s := read?_of_document (Json.document_pretty s.toJson)

theorem toText_inj {s t : Snapshot} : s.toText = t.toText ↔ s = t := by
  refine ⟨fun same => ?_, congrArg toText⟩
  have read := read?_toText s
  rw [same, read?_toText] at read
  exact (Option.some.inj read).symm

theorem capture_inj {d e : Diagram} {o p : Outcome} :
    capture d o = capture e p ↔ d = e ∧ o.headerOffset = p.headerOffset ∧ o.warnings = p.warnings := by
  obtain ⟨⟨actors⟩, messages, lineCount⟩ := d
  obtain ⟨⟨others⟩, answers, otherCount⟩ := e
  simp only [capture, Snapshot.mk.injEq, Diagram.mk.injEq, Cast.mk.injEq]
  tauto

/-- The export of any diagram, arranged or not, is well formed and tells its lines, actors and messages
and the header offset and warnings of its layout. Two exports are the same text exactly when they agree
in all of these, and then there is one picture in every style. -/
theorem export_loses_nothing (d : Diagram) (o : Outcome) :
    Json.Document (capture d o).toJson (capture d o).toText ∧
      read? (capture d o).toText = some
        { lineCount := d.lineCount, headerOffset := o.headerOffset, actors := d.cast.actors, messages := d.messages,
          warnings := o.warnings } ∧
      ∀ (e : Diagram) (p : Outcome),
        ((capture d o).toText = (capture e p).toText ↔
          d = e ∧ o.headerOffset = p.headerOffset ∧ o.warnings = p.warnings) ∧
        ((capture d o).toText = (capture e p).toText →
          ∀ style, Picture.paint style o.headerOffset d = Picture.paint style p.headerOffset e) := by
  refine ⟨Json.document_pretty _, read?_toText _, fun e p => ?_⟩
  have agree : (capture d o).toText = (capture e p).toText ↔
      d = e ∧ o.headerOffset = p.headerOffset ∧ o.warnings = p.warnings := toText_inj.trans capture_inj
  refine ⟨agree, fun same style => ?_⟩
  obtain ⟨rfl, offset, -⟩ := agree.mp same
  rw [offset]

end Snapshot

end SequenceDiagram
