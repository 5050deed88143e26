import SequenceDiagram.Editor.FlatText
import SequenceDiagram.Proofs.Editor.Grid
import SequenceDiagram.Proofs.Reading.Lines

/-! The lines around a cursor are one flat text. All that stands before the cursor
and all that stands behind it are two halves; a key takes a character from the end
of one, the start of the other, or adds one between them, and a newline between two
lines is a character among the others. -/
namespace SequenceDiagram

variable {b next : Buffer} {k : Key} {c : Char} {first second l : Text} {above below : List Text}

namespace FlatText

/-- The text of two halves with the position between them. -/
def ofHalves (first second : Text) : FlatText := ⟨first ++ second, first.length⟩

theorem insert_ofHalves : (ofHalves first second).insert c = ofHalves (first ++ [c]) second := by
  simp [insert, ofHalves]

theorem eraseBefore_ofHalves : (ofHalves (first ++ [c]) second).eraseBefore = ofHalves first second := by
  simp [eraseBefore, ofHalves]

theorem eraseBefore_start : (ofHalves [] second).eraseBefore = ofHalves [] second := rfl

theorem eraseAfter_ofHalves : (ofHalves first (c :: second)).eraseAfter = ofHalves first second := by
  simp [eraseAfter, ofHalves]

theorem eraseAfter_end : (ofHalves first []).eraseAfter = ofHalves first [] := by
  simp [eraseAfter, ofHalves]

end FlatText

theorem Text.join_around : Text.join (above ++ l :: below) =
    above.flatMap (· ++ ['\n']) ++ (l ++ below.flatMap ('\n' :: ·)) := by
  induction above with
  | nil =>
    induction below generalizing l with
    | nil => simp [Text.join, List.intercalate_singleton]
    | cons next below ih =>
      simp only [List.nil_append, Text.join, List.intercalate_cons_cons] at ih ⊢
      rw [ih]
      simp
  | cons top above ih =>
    have more : above ++ l :: below ≠ [] := by simp
    rw [List.cons_append, Text.join, List.intercalate_cons_of_ne_nil more, ← Text.join, ih]
    simp

namespace Buffer

/-- All characters before the cursor. -/
def front (b : Buffer) : Text := b.above.reverse.flatMap (· ++ ['\n']) ++ b.before.reverse

/-- All characters behind the cursor. -/
def back (b : Buffer) : Text := b.after ++ b.below.flatMap ('\n' :: ·)

theorem text_eq (b : Buffer) : b.text = b.front ++ b.back := by
  rw [text, lines, Text.join_around, line, front, back]
  simp

theorem position_eq (b : Buffer) : b.position = b.front.length := by
  have upper : b.lines.take b.row = b.above.reverse := by
    rw [lines, row, ← List.length_reverse, List.take_left]
  rw [position, upper, ← List.sum_eq_foldr]
  simp [column, front, List.length_flatMap]

theorem flat_eq (b : Buffer) : b.flat = .ofHalves b.front b.back := by
  rw [flat, FlatText.ofHalves, text_eq, position_eq]

theorem front_insert : (b.insert c).front = b.front ++ [c] := by
  simp [front, insert]

theorem front_breakLine : b.breakLine.front = b.front ++ ['\n'] := by
  simp [front, breakLine, atStart]

theorem front_of_eraseBefore (erased : b.eraseBefore? = some next) :
    ∃ c, b.front = next.front ++ [c] ∧ next.back = b.back := by
  unfold eraseBefore? at erased
  split at erased
  · rename_i c before found
    cases erased
    exact ⟨c, by simp [front, found], rfl⟩
  · rename_i line above found foundAbove
    cases erased
    exact ⟨'\n', by simp [front, found, foundAbove], rfl⟩
  · cases erased

theorem front_of_not_eraseBefore (kept : b.eraseBefore? = none) : b.front = [] := by
  unfold eraseBefore? at kept
  split at kept
  · cases kept
  · cases kept
  · rename_i found foundAbove
    simp [front, found, foundAbove]

theorem back_of_eraseAfter (erased : b.eraseAfter? = some next) :
    ∃ c, b.back = c :: next.back ∧ next.front = b.front := by
  unfold eraseAfter? at erased
  split at erased
  · rename_i c after found
    cases erased
    exact ⟨c, by simp [back, found], rfl⟩
  · rename_i line below found foundBelow
    cases erased
    exact ⟨'\n', by simp [back, found, foundBelow], rfl⟩
  · cases erased

theorem back_of_not_eraseAfter (kept : b.eraseAfter? = none) : b.back = [] := by
  unfold eraseAfter? at kept
  split at kept
  · cases kept
  · cases kept
  · rename_i found foundBelow
    simp [back, found, foundBelow]

/-- A step to the left hands one character from the first half to the second. -/
theorem halves_moveLeft : (b.front = [] ∧ b.moveLeft = b) ∨
    ∃ c, b.front = b.moveLeft.front ++ [c] ∧ b.moveLeft.back = c :: b.back := by
  unfold moveLeft
  split
  · rename_i c before found
    exact .inr ⟨c, by simp [front, found], rfl⟩
  · rename_i line above found foundAbove
    exact .inr ⟨'\n', by simp [front, atEnd, found, foundAbove], by simp [back, atEnd, Buffer.line, found]⟩
  · rename_i found foundAbove
    exact .inl ⟨by simp [front, found, foundAbove], rfl⟩

theorem halves_moveRight : (b.back = [] ∧ b.moveRight = b) ∨
    ∃ c, b.back = c :: b.moveRight.back ∧ b.moveRight.front = b.front ++ [c] := by
  unfold moveRight
  split
  · rename_i c after found
    exact .inr ⟨c, by simp [back, found], by simp [front]⟩
  · rename_i line below found foundBelow
    exact .inr ⟨'\n', by simp [back, atStart, found, foundBelow], by simp [front, atStart, Buffer.line, found]⟩
  · rename_i found foundBelow
    exact .inl ⟨by simp [back, found, foundBelow], rfl⟩

theorem flat_insert : (b.insert c).flat = b.flat.insert c := by
  have same : (b.insert c).back = b.back := rfl
  rw [flat_eq, flat_eq, front_insert, same, FlatText.insert_ofHalves]

theorem flat_breakLine : b.breakLine.flat = b.flat.insert '\n' := by
  have same : b.breakLine.back = b.back := rfl
  rw [flat_eq, flat_eq, front_breakLine, same, FlatText.insert_ofHalves]

theorem flat_eraseBefore : (b.eraseBefore?.getD b).flat = b.flat.eraseBefore := by
  rw [flat_eq b]
  cases erased : b.eraseBefore? with
  | none => rw [Option.getD_none, flat_eq, front_of_not_eraseBefore erased, FlatText.eraseBefore_start]
  | some next =>
    obtain ⟨c, halves, same⟩ := front_of_eraseBefore erased
    rw [Option.getD_some, flat_eq, halves, FlatText.eraseBefore_ofHalves, same]

theorem flat_eraseAfter : (b.eraseAfter?.getD b).flat = b.flat.eraseAfter := by
  rw [flat_eq b]
  cases erased : b.eraseAfter? with
  | none => rw [Option.getD_none, flat_eq, back_of_not_eraseAfter erased, FlatText.eraseAfter_end]
  | some next =>
    obtain ⟨c, halves, same⟩ := back_of_eraseAfter erased
    rw [Option.getD_some, flat_eq, halves, FlatText.eraseAfter_ofHalves, same]

theorem flat_moveLeft : b.moveLeft.flat = { b.flat with position := b.flat.position - 1 } := by
  rw [flat_eq b, flat_eq]
  rcases b.halves_moveLeft with ⟨none_before, still⟩ | ⟨c, front, back⟩
  · rw [still, none_before]
    rfl
  · simp [FlatText.ofHalves, front, back]

theorem flat_moveRight :
    b.moveRight.flat = { b.flat with position := min (b.flat.position + 1) b.flat.text.length } := by
  rw [flat_eq b, flat_eq]
  rcases b.halves_moveRight with ⟨none_behind, still⟩ | ⟨c, back, front⟩
  · simp [FlatText.ofHalves, still, none_behind]
  · simp [FlatText.ofHalves, front, back]

/-- A key that a flat text has a meaning for does the same to the buffer. -/
theorem flat_press {f : FlatText} (meant : b.flat.press? k = some f) : (b.press k).2.flat = f := by
  cases k with
  | char c => exact flat_insert.trans (Option.some.inj meant)
  | tab => exact flat_insert.trans (Option.some.inj meant)
  | enter => exact flat_breakLine.trans (Option.some.inj meant)
  | backspace => exact flat_eraseBefore.trans (Option.some.inj meant)
  | delete => exact flat_eraseAfter.trans (Option.some.inj meant)
  | left => exact flat_moveLeft.trans (Option.some.inj meant)
  | right => exact flat_moveRight.trans (Option.some.inj meant)
  | up | down | lineStart | lineEnd | escape | capsLock | modifier | other => cases meant

/-- A key that reports a change leaves a longer text or a shorter one. -/
theorem text_ne_of_changed (changed : (b.press k).1 = true) : (b.press k).2.text ≠ b.text := by
  have longer : ∀ c, (b.flat.insert c).text ≠ b.text := by
    intro c same
    have length := congrArg List.length same
    simp only [FlatText.insert, flat, List.length_append, List.length_take, List.length_cons,
      List.length_drop] at length
    omega
  intro same
  cases k with
  | char c => exact longer c ((congrArg FlatText.text flat_insert).symm.trans same)
  | tab => exact longer ' ' ((congrArg FlatText.text flat_insert).symm.trans same)
  | enter => exact longer '\n' ((congrArg FlatText.text flat_breakLine).symm.trans same)
  | backspace =>
    obtain ⟨next, erased⟩ := Option.isSome_iff_exists.mp changed
    obtain ⟨c, front, back⟩ := front_of_eraseBefore erased
    have length := congrArg List.length same
    simp only [press, erased, Option.getD_some, text_eq, front, back, List.length_append,
      List.length_cons] at length
    omega
  | delete =>
    obtain ⟨next, erased⟩ := Option.isSome_iff_exists.mp changed
    obtain ⟨c, back, front⟩ := back_of_eraseAfter erased
    have length := congrArg List.length same
    simp only [press, erased, Option.getD_some, text_eq, front, back, List.length_append,
      List.length_cons] at length
    omega
  | left | right | up | down | lineStart | lineEnd | escape | capsLock | modifier | other => cases changed

/-- No line holds a newline of its own. -/
def OneLine (b : Buffer) : Prop := ∀ l ∈ b.lines, '\n' ∉ l

theorem oneLine_iff : b.OneLine ↔ (∀ l ∈ b.above, '\n' ∉ l) ∧ '\n' ∉ b.before ∧ '\n' ∉ b.after ∧
    ∀ l ∈ b.below, '\n' ∉ l := by
  rw [OneLine, lines, List.forall_mem_append, List.forall_mem_cons]
  simp only [line, List.mem_reverse, List.mem_append, not_or, and_assoc]

theorem lines_ofText (t : Text) : (ofText t).lines = if t.lines = [] then [[]] else t.lines := by
  unfold ofText
  split
  · rename_i empty
    rw [if_pos (List.reverse_eq_nil_iff.mp empty)]
    rfl
  · rename_i last above found
    have whole : t.lines = above.reverse ++ [last] := by simpa using congrArg List.reverse found
    rw [if_neg (by simp [whole]), lines_atEnd, whole]

theorem oneLine_ofText (t : Text) : (ofText t).OneLine := by
  unfold OneLine
  rw [lines_ofText]
  split
  · exact List.forall_mem_singleton.mpr List.not_mem_nil
  · exact fun l => Text.oneLine_of_mem_lines

/-- Only a newline typed as a character gets into a line. -/
theorem oneLine_press (kept : b.OneLine) (other : k ≠ .char '\n') : (b.press k).2.OneLine := by
  cases changed : (b.press k).1 with
  | false =>
    unfold OneLine
    rw [lines_press changed]
    exact kept
  | true =>
    rw [oneLine_iff] at kept ⊢
    obtain ⟨above, before, after, below⟩ := kept
    cases k with
    | char c =>
      have plain : '\n' ≠ c := fun newline => other (newline ▸ rfl)
      exact ⟨above, List.not_mem_cons_of_ne_of_not_mem plain before, after, below⟩
    | tab => exact ⟨above, List.not_mem_cons_of_ne_of_not_mem (by decide) before, after, below⟩
    | enter => exact ⟨List.forall_mem_cons.mpr ⟨by simpa using before, above⟩, List.not_mem_nil, after, below⟩
    | backspace =>
      obtain ⟨next, erased⟩ := Option.isSome_iff_exists.mp changed
      simp only [press, erased, Option.getD_some]
      unfold eraseBefore? at erased
      split at erased
      · rename_i c rest found
        cases erased
        rw [found] at before
        exact ⟨above, (List.not_mem_of_not_mem_cons before), after, below⟩
      · rename_i line rest _ found
        cases erased
        rw [found] at above
        obtain ⟨nearest, above⟩ := List.forall_mem_cons.mp above
        exact ⟨above, by simpa using nearest, after, below⟩
      · cases erased
    | delete =>
      obtain ⟨next, erased⟩ := Option.isSome_iff_exists.mp changed
      simp only [press, erased, Option.getD_some]
      unfold eraseAfter? at erased
      split at erased
      · rename_i c rest found
        cases erased
        rw [found] at after
        exact ⟨above, before, List.not_mem_of_not_mem_cons after, below⟩
      · rename_i line rest _ found
        cases erased
        rw [found] at below
        obtain ⟨nearest, below⟩ := List.forall_mem_cons.mp below
        exact ⟨above, before, nearest, below⟩
      · cases erased
    | left | right | up | down | lineStart | lineEnd | escape | capsLock | modifier | other => cases changed

theorem oneLine_type {keys : List Key} (kept : b.OneLine) (others : .char '\n' ∉ keys) : (b.type keys).OneLine := by
  induction keys generalizing b with
  | nil => exact kept
  | cons k keys ih =>
    have other : k ≠ .char '\n' := fun newline => others (newline ▸ List.mem_cons_self)
    exact ih (oneLine_press kept other) (List.not_mem_of_not_mem_cons others)

theorem flat_position_le (b : Buffer) : b.flat.position ≤ b.flat.text.length := by
  rw [flat_eq, FlatText.ofHalves, List.length_append]
  exact Nat.le_add_right _ _

/-- Whatever was opened and whatever has been typed, the cursor stands in a line of the
text, and every key finds the lines and characters that it looks up. The keys that
type, take away or step act on the text as on a flat one, all others leave it as it
is, and a key reports a change exactly if there is one. Lines hold no newlines as
long as none is typed as a character. -/
theorem keys_edit_flat_text (seed : Option Text) (keys : List Key) :
    let b := ((seed.map ofText).getD {}).type keys
    b.lines ≠ [] ∧ b.row < b.lines.length ∧ (∃ l, b.lines[b.row]? = some l ∧ b.column ≤ l.length) ∧
    b.flat.position ≤ b.flat.text.length ∧
    (∀ k, b.grid.press? k = some ((b.press k).1, (b.press k).2.grid) ∧
      (∀ f, b.flat.press? k = some f → (b.press k).2.flat = f) ∧
      (b.flat.press? k = none → (b.press k).2.text = b.text) ∧
      ((b.press k).1 = true ↔ (b.press k).2.text ≠ b.text)) ∧
    (.char '\n' ∉ keys → ∀ l ∈ b.lines, '\n' ∉ l) := by
  intro b
  refine ⟨by simp [lines], by simp [lines, row], ?_, b.flat_position_le, fun k => ⟨b.grid_press k, ?_, ?_, ?_⟩, ?_⟩
  · refine ⟨b.line, by simp [lines, row], ?_⟩
    simp [column, line]
  · exact fun f => flat_press
  · intro meaningless
    apply text_press
    cases k with
    | char | tab | enter | backspace | delete | left | right => cases meaningless
    | up | down | lineStart | lineEnd | escape | capsLock | modifier | other => rfl
  · exact ⟨text_ne_of_changed, fun differs => eq_true_of_ne_false fun kept => differs (text_press kept)⟩
  · intro others
    apply oneLine_type _ others
    cases seed with
    | none => exact oneLine_iff.mpr ⟨List.forall_mem_nil _, List.not_mem_nil, List.not_mem_nil, List.forall_mem_nil _⟩
    | some t => exact oneLine_ofText t

/-- Two lines joined over their newline, and a character of two bytes taken away. -/
theorem keys_edit_flat_text_join_lines :
    let b := (ofText ['α', '\n', 'β']).type [.lineStart, .backspace]
    b.text = ['α', 'β'] ∧ b.position = 1 ∧ (b.press .delete).2.flat = ⟨['α'], 1⟩ ∧ ∀ l ∈ b.lines, '\n' ∉ l := by
  obtain ⟨_, _, _, _, keys, oneLine⟩ := keys_edit_flat_text (some ['α', '\n', 'β']) [.lineStart, .backspace]
  exact ⟨by decide, by decide, (keys .delete).2.1 _ (by decide), oneLine (by decide)⟩

end Buffer

end SequenceDiagram
