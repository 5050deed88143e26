import SequenceDiagram.Editor.Session
import SequenceDiagram.Proofs.Editor.FlatText
import SequenceDiagram.Proofs.Reading.Diagram
import SequenceDiagram.Proofs.Reading.Lines

/-! Opening a text. The editor cuts it into lines and joins them, and its preview reads
what came of that. A line break of either kind comes back as a newline, and no diagram
minds. But a line may end in a carriage return before its line break. Joined to the line
below, it loses that one too: a label is a character shorter, or a line is left empty and
ends the diagram. How many carriage returns its labels hold tells whether a diagram has
come through. -/
namespace SequenceDiagram

variable {l t : Text} {ls : List Text} {d next : Diagram}

namespace Text

/-- The lines before the first empty one. -/
def beforeEmpty (ls : List Text) : List Text := ls.takeWhile (!·.isEmpty)

theorem beforeEmpty_nil_cons (ls : List Text) : beforeEmpty ([] :: ls) = [] := rfl

theorem beforeEmpty_cons (full : l ≠ []) (ls : List Text) : beforeEmpty (l :: ls) = l :: beforeEmpty ls :=
  List.takeWhile_cons_of_pos (by simp [full])

/-- Of the lines before the first empty one, none ends in a carriage return but the last of all. -/
def Settled (ls : List Text) : Prop := ∀ l ∈ beforeEmpty ls.dropLast, l.getLast? ≠ some '\r'

instance : DecidablePred Settled := fun _ => inferInstanceAs (Decidable (∀ l ∈ _, _))

theorem settled_cons {next : Text} (full : l ≠ []) :
    Settled (l :: next :: ls) ↔ l.getLast? ≠ some '\r' ∧ Settled (next :: ls) := by
  simp [Settled, List.dropLast, beforeEmpty_cons full]

/-- The carriage returns of some lines. -/
def returns (ls : List Text) : Nat := ls.flatten.count '\r'

theorem returns_cons (l : Text) (ls : List Text) : returns (l :: ls) = l.count '\r' + returns ls := by
  rw [returns, List.flatten_cons, List.count_append, returns]

theorem dropReturn_of_ne (ending : l.getLast? ≠ some '\r') : dropReturn l = l := if_neg ending

theorem count_dropReturn (ending : l.getLast? = some '\r') : l.count '\r' = (dropReturn l).count '\r' + 1 := by
  obtain ⟨start, rfl⟩ := List.getLast?_eq_some_iff.mp ending
  rw [dropReturn, if_pos ending, List.dropLast_concat, List.count_append, List.count_singleton_self]

/-- Settled lines are the same again up to the first empty one. -/
theorem beforeEmpty_reread (settled : Settled ls) : beforeEmpty (reread ls) = beforeEmpty ls := by
  fun_induction reread ls with
  | case1 | case2 | case3 => rfl
  | case4 l next ls ih =>
    by_cases empty : l = []
    · rw [empty, dropReturn_of_ne (by simp)]
      rfl
    · obtain ⟨ending, rest⟩ := (settled_cons empty).mp settled
      rw [dropReturn_of_ne ending, beforeEmpty_cons empty, beforeEmpty_cons empty, ih rest]

theorem returns_beforeEmpty_cons_le (l : Text) (ls : List Text) :
    returns (beforeEmpty (l :: ls)) ≤ l.count '\r' + returns (beforeEmpty ls) := by
  by_cases empty : l = []
  · rw [empty, beforeEmpty_nil_cons]
    exact Nat.zero_le _
  · rw [beforeEmpty_cons empty, returns_cons]

theorem count_dropReturn_le (l : Text) : (dropReturn l).count '\r' ≤ l.count '\r' := by
  by_cases ending : l.getLast? = some '\r'
  · rw [count_dropReturn ending]
    exact Nat.le_succ _
  · rw [dropReturn_of_ne ending]

theorem returns_reread_le (ls : List Text) : returns (beforeEmpty (reread ls)) ≤ returns (beforeEmpty ls) := by
  fun_induction reread ls with
  | case1 | case2 | case3 => exact Nat.le_refl _
  | case4 l next ls ih =>
    by_cases empty : l = []
    · rw [empty, dropReturn_of_ne (by simp)]
      exact Nat.le_refl _
    · have kept := returns_beforeEmpty_cons_le (dropReturn l) (reread (next :: ls))
      have fewer := count_dropReturn_le l
      rw [beforeEmpty_cons empty, returns_cons]
      omega

/-- Lines that are not settled have fewer carriage returns when they are read again. -/
theorem returns_reread_lt (unsettled : ¬Settled ls) : returns (beforeEmpty (reread ls)) < returns (beforeEmpty ls) := by
  fun_induction reread ls with
  | case1 | case2 | case3 => exact absurd (List.forall_mem_nil _) unsettled
  | case4 l next ls ih =>
    have full : l ≠ [] := by
      rintro rfl
      exact unsettled (List.forall_mem_nil _)
    have kept := returns_beforeEmpty_cons_le (dropReturn l) (reread (next :: ls))
    rw [beforeEmpty_cons full, returns_cons]
    by_cases ending : l.getLast? = some '\r'
    · have fewer := count_dropReturn ending
      have below := returns_reread_le (next :: ls)
      omega
    · have below := ih fun rest => unsettled ((settled_cons full).mpr ⟨ending, rest⟩)
      rw [dropReturn_of_ne ending] at kept ⊢
      omega

end Text

/-! ### The diagram of the lines -/

namespace Statement

theorem count_return_token {token : Text} (written : ActorToken token) : token.count '\r' = 0 := by
  rw [List.count_eq_zero]
  intro returned
  rcases mem_actorToken written returned with named | slash
  · cases named
  · cases slash

theorem count_return_arrow (a : Arrow) : a.token.count '\r' = 0 := by
  obtain ⟨weight, backward⟩ := a
  cases weight <;> cases backward <;> rfl

/-- Only the label of a line can hold carriage returns. -/
theorem count_return {s : Statement} (read : read? l = some s) : l.count '\r' = s.label.count '\r' := by
  obtain ⟨gap, margin, written⟩ := read?_eq_some read
  rw [written.spelled, spell_eq]
  simp [List.count_append, List.count_replicate, count_return_token written.proper.source,
    count_return_token written.proper.target, count_return_arrow]

end Statement

namespace Diagram

/-- The carriage returns in the labels. -/
def returns (d : Diagram) : Nat := Text.returns (d.messages.map Message.label)

theorem returns_addLine (done : d.addLine l = .ok next) : next.returns = d.returns + l.count '\r' := by
  obtain ⟨s, written, added⟩ := addLine_eq_ok done
  obtain ⟨source, target, cast₁, cast₂, -, -, rfl⟩ := addStatement_eq_ok added
  have read : Statement.read? l = some s := by
    rw [readLine] at written
    split at written
    · cases written
    · cases written
      assumption
  rw [Statement.count_return read]
  simp [returns, Text.returns]

theorem returns_fold (done : ls.foldlM addLine d = .ok next) : next.returns = d.returns + Text.returns ls := by
  induction ls generalizing d with
  | nil =>
    cases done
    rfl
  | cons l ls ih =>
    rw [List.foldlM_cons] at done
    obtain ⟨middle, first, others⟩ := Attempt.bind_eq_ok.mp done
    rw [ih others, returns_addLine first, Text.returns_cons, Nat.add_assoc]

/-- The labels of a diagram hold the carriage returns of its lines. -/
theorem returns_parse (parsed : parse t = .ok d) : d.returns = Text.returns (body t) := by
  obtain ⟨read, ran, rfl⟩ := Attempt.map_eq_ok.mp parsed
  have held := returns_fold ran
  rw [show returns {} = 0 from rfl, Nat.zero_add] at held
  exact held

end Diagram

/-! ### The text of the editor -/

theorem Buffer.text_ofText (t : Text) : (Buffer.ofText t).text = Text.join t.lines := by
  rw [Buffer.text, Buffer.lines_ofText]
  split
  · rename_i empty
    rw [empty]
    rfl
  · rfl

theorem Diagram.body_ofText (t : Text) : body (Buffer.ofText t).text = Text.beforeEmpty (Text.reread t.lines) := by
  rw [body, Buffer.text_ofText, Text.lines_join_eq_reread fun _ => Text.oneLine_of_mem_lines, Text.beforeEmpty]

theorem Preview.refresh_of_parse {u : Text} (same : Diagram.parse u = Diagram.parse t) (p : Preview) :
    p.refresh u = p.refresh t := by
  simp only [Preview.refresh, Preview.draw, Drawing.ofText, Diagram.ofText, same]

/-- Opened, a text is read from its own lines, each but the last without a carriage return at its end.
Where the lines are settled, it shows what it shows outside the editor; and a text that is accepted
keeps its diagram only then. -/
theorem opening_keeps_settled_diagram (t : Text) :
    Diagram.body (Buffer.ofText t).text = Text.beforeEmpty (Text.reread t.lines) ∧
      (Text.Settled t.lines → Diagram.parse (Buffer.ofText t).text = Diagram.parse t ∧
        ∀ width height, (Session.start t width height).preview = (Preview.ofScreen width height).refresh t) ∧
      ∀ d, Diagram.parse t = .ok d → (Diagram.parse (Buffer.ofText t).text = .ok d ↔ Text.Settled t.lines) := by
  have kept : Text.Settled t.lines → Diagram.parse (Buffer.ofText t).text = Diagram.parse t := by
    intro settled
    rw [Diagram.parse, Diagram.body_ofText, Text.beforeEmpty_reread settled]
    rfl
  refine ⟨Diagram.body_ofText t, fun settled => ⟨kept settled, fun width height => ?_⟩, fun d parsed => ?_⟩
  · exact Preview.refresh_of_parse (kept settled) _
  · refine ⟨fun again => ?_, fun settled => (kept settled).trans parsed⟩
    by_contra unsettled
    have fewer := Text.returns_reread_lt unsettled
    rw [← Diagram.body_ofText, ← Diagram.returns_parse again] at fewer
    exact fewer.ne (Diagram.returns_parse parsed)

theorem opening_keeps_settled_diagram_final_return :
    let text := "A -> B: x\r\nB -> A: y\r\n\nB\r\r\nA".toList
    ((Session.start text 100 40).preview = (Preview.ofScreen 100 40).refresh text) ∧
      ∃ d, Diagram.parse "A -> B: x\r\r\nB -> A: y\r".toList = .ok d ∧
        Diagram.parse (Buffer.ofText "A -> B: x\r\r\nB -> A: y\r".toList).text ≠ .ok d := by
  refine ⟨((opening_keeps_settled_diagram _).2.1 (by decide +kernel)).2 100 40, ?_⟩
  obtain ⟨d, parsed⟩ : ∃ d, Diagram.parse "A -> B: x\r\r\nB -> A: y\r".toList = .ok d := ⟨_, rfl⟩
  have settled := (opening_keeps_settled_diagram _).2.2 d parsed
  exact ⟨d, parsed, fun again => absurd (settled.mp again) (by decide +kernel)⟩

/-- A line of one carriage return is no statement, but in the editor it is empty and ends the diagram. -/
theorem opening_accepts_malformed :
    let text := "A -> B: x\n\r\r\nB -> A: y".toList
    ((Preview.ofScreen 100 40).refresh text).notice = some "Line 2 malformed.".toList ∧
      (Session.start text 100 40).preview = (Preview.ofScreen 100 40).refresh "A -> B: x".toList ∧
      (Session.start text 100 40).preview.notice = none := by
  intro text
  have read : Diagram.parse (Buffer.ofText text).text = Diagram.parse "A -> B: x".toList := by decide +kernel
  have opened : (Session.start text 100 40).preview = (Preview.ofScreen 100 40).refresh "A -> B: x".toList :=
    Preview.refresh_of_parse read (.ofScreen 100 40)
  refine ⟨by decide +kernel, opened, ?_⟩
  rw [opened]
  decide +kernel

end SequenceDiagram
