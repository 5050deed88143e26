import SequenceDiagram.Canvas.Storage
import SequenceDiagram.Proofs.Canvas.Lines
import SequenceDiagram.Proofs.Canvas.Storage

/-! What trimming takes from a printed canvas. A list loses an end of blanks, and the
same blanks put back give the list again. This happens twice: the spaces of a line are
its blanks, and the lines that are empty then are the blanks of the picture. Printing
on the stored canvas is a loop in a loop, and each of the two writes piece after piece
to the end of the text. -/
namespace SequenceDiagram

variable {c : Canvas} {ls : List Text} {x y : Nat} {ch : Char}

/-! ### An end of blanks -/

section Blanks
variable {α : Type} {p : α → Bool} {blank : α}

/-- Blanks that are taken from the end of a list are put back by filling it up with
blanks. -/
theorem rightpad_rdropWhile (only : ∀ a, p a = true → a = blank) (as : List α) :
    (as.rdropWhile p).rightpad as.length blank = as := by
  have whole : as.rdropWhile p ++ as.rtakeWhile p = as := List.rdropWhile_append_rtakeWhile
  have taken : as.length - (as.rdropWhile p).length = (as.rtakeWhile p).length := by
    have sum := congrArg List.length whole
    rw [List.length_append] at sum
    omega
  have blanks : as.rtakeWhile p = List.replicate (as.length - (as.rdropWhile p).length) blank :=
    List.eq_replicate_iff.mpr ⟨taken.symm, fun a member => only a (List.mem_rtakeWhile_imp member)⟩
  rw [List.rightpad, ← blanks, whole]

/-- What is at the end of a list then is not one of those taken away. -/
theorem getLast?_rdropWhile {as : List α} {a : α} (last : (as.rdropWhile p).getLast? = some a) : p a = false := by
  have full : as.rdropWhile p ≠ [] := List.ne_nil_of_mem (List.mem_of_getLast? last)
  have kept := List.rdropWhile_last_not p as full
  rw [List.getLast?_eq_some_getLast full, Option.some.injEq] at last
  rwa [last, Bool.not_eq_true] at kept

end Blanks

namespace Text

/-- To pad lines is to fill up with empty lines first and with spaces then. -/
theorem padTo_eq_map (width height : Nat) (ls : List Text) :
    padTo width height ls = (ls.rightpad height []).map (List.rightpad width ' ') := by
  simp only [padTo, List.rightpad, List.map_append, List.map_replicate, List.length_map, List.length_nil,
    Nat.sub_zero, List.nil_append]

/-- Padding gives back what trimming has taken. -/
theorem padTo_trimmed {width : Nat} (wide : ∀ l ∈ ls, l.length = width) :
    padTo width ls.length (trimmed ls) = ls := by
  have lines : (trimmed ls).rightpad ls.length [] = ls.map (List.rdropWhile (· == ' ')) := by
    have filled := rightpad_rdropWhile (fun l => List.isEmpty_iff.mp) (ls.map (List.rdropWhile (· == ' ')))
    rwa [List.length_map] at filled
  have spaces : ∀ l ∈ ls, (l.rdropWhile (· == ' ')).rightpad width ' ' = l := by
    intro l member
    rw [← wide l member]
    exact rightpad_rdropWhile (fun ch => beq_iff_eq.mp) l
  rw [padTo_eq_map, lines, List.map_map]
  exact (List.map_congr_left spaces).trans (List.map_id' ls)

theorem getLast?_of_mem_trimmed {l : Text} (member : l ∈ trimmed ls) : l.getLast? ≠ some ' ' := by
  obtain ⟨line, _, rfl⟩ := List.mem_map.mp ((List.rdropWhile_prefix _ _).subset member)
  intro last
  cases getLast?_rdropWhile last

theorem getLast?_trimmed (ls : List Text) : (trimmed ls).getLast? ≠ some [] := by
  intro last
  cases getLast?_rdropWhile last

theorem length_trimmed_le (ls : List Text) : (trimmed ls).length ≤ ls.length := by
  have shorter := (List.rdropWhile_prefix List.isEmpty (ls.map (List.rdropWhile (· == ' ')))).length_le
  rwa [List.length_map] at shorter

/-! ### Lines and the text of them -/

/-- Lines with a newline between each two are those of the text, unless the last one is
empty. -/
theorem printedLines_join (free : ∀ l ∈ ls, '\n' ∉ l) (last : ls.getLast? ≠ some []) :
    printedLines (join ls) = ls := by
  cases ls with
  | nil => rfl
  | cons l rest =>
    have pieces := split_join free (List.cons_ne_nil l rest)
    have seen : (join (l :: rest)).isEmpty = false := by
      rw [List.isEmpty_eq_false_iff]
      intro empty
      rw [empty] at pieces
      exact last (pieces ▸ rfl)
    rw [printedLines, seen, pieces]
    rfl

theorem join_concat (ls : List Text) (l : Text) : join (ls ++ [l]) = ls.flatMap (· ++ ['\n']) ++ l := by
  induction ls with
  | nil => exact List.intercalate_singleton
  | cons first rest ih =>
    have more : rest ++ [l] ≠ [] := List.concat_ne_nil l rest
    have next : join (first :: (rest ++ [l])) = first ++ ['\n'] ++ join (rest ++ [l]) :=
      List.intercalate_cons_of_ne_nil more
    simp only [List.cons_append, next, ih, List.flatMap_cons, List.append_assoc]

/-- To join lines is to write each of them with a newline behind it, but the last. -/
theorem join_map_range (f : Nat → Text) (n : Nat) : join ((List.range n).map f) =
    (List.range n).flatMap fun i => f i ++ if i + 1 < n then ['\n'] else [] := by
  cases n with
  | zero => rfl
  | succ n =>
    have others : ∀ i ∈ List.range n, (f i ++ if i + 1 < n + 1 then ['\n'] else []) = f i ++ ['\n'] := by
      intro i member
      rw [if_pos (Nat.succ_lt_succ (List.mem_range.mp member))]
    simp only [List.range_succ, List.map_append, List.map_singleton, join_concat, List.flatMap_append,
      List.flatMap_singleton, List.flatMap_congr others, List.flatMap_map, Nat.lt_irrefl, if_false, List.append_nil]

/-- Empty lines that are taken away one after the other are taken away at once. -/
theorem popEmpty_eq (ls : List Text) : popEmpty ls = ls.rdropWhile List.isEmpty := by
  induction ls using List.reverseRecOn with
  | nil =>
    rw [popEmpty]
    rfl
  | append_singleton init l ih =>
    rw [popEmpty, List.getLast?_concat, List.dropLast_concat, List.rdropWhile_concat, ih]
    simp only [Option.some.injEq, List.isEmpty_iff]

theorem trimLines_eq (t : Text) : t.trimLines = join (popEmpty (t.split.map (dropEndWhile (· == ' ')))) := by
  rw [popEmpty_eq]
  rfl

end Text

namespace Canvas

theorem length_row (high : y < c.height) : (c.row y).length = c.width := by
  have all : (c.row y).length = (List.range c.width).length := by
    refine List.filterMap_length_eq_length.mpr fun x member => ?_
    obtain ⟨cell, held⟩ := cell?_of_lt (List.mem_range.mp member) high
    rw [held]
    rfl
  rw [all, List.length_range]

theorem length_of_mem_rows {l : Text} (member : l ∈ c.rows) : l.length = c.width := by
  obtain ⟨y, inside, rfl⟩ := List.mem_map.mp member
  exact length_row (List.mem_range.mp inside)

/-- The rows hold what the positions of the canvas show, and nothing else. -/
theorem rows_eq_some_iff : c.rows[y]?.bind (·[x]?) = some ch ↔ c.get x y = .ok ch := by
  by_cases high : y < c.height
  · rw [getElem?_rows high, Option.bind_some, getElem?_row high, get]
    cases c.cell? x y with
    | none => simp only [Option.map_none, reduceCtorEq]
    | some cell => simp only [Option.map_some, Option.some.injEq, Except.ok.injEq]
  · have below : c.rows[y]? = none := by
      rw [List.getElem?_eq_none_iff, length_rows]
      exact Nat.not_lt.mp high
    have off : c.get x y ≠ .ok ch := by
      intro shown
      obtain ⟨cell, held, _⟩ := cell_of_get shown
      exact high (lt_of_cell? held).2
    simp only [below, off, Option.bind_none, reduceCtorEq]

/-- No position shows a newline when the rows are free of them. -/
theorem newline_free_iff : (∀ x y, c.get x y ≠ .ok '\n') ↔ ∀ l ∈ c.rows, '\n' ∉ l := by
  refine ⟨newline_free_rows, fun free x y shown => ?_⟩
  obtain ⟨l, line, here⟩ := Option.bind_eq_some_iff.mp (rows_eq_some_iff.mpr shown)
  exact free l (List.mem_of_getElem? line) (List.mem_of_getElem? here)

/-- The picture is made of the trimmed rows, also where there are none. -/
theorem picture_eq_join (free : ∀ l ∈ c.rows, '\n' ∉ l) : c.picture = .join (Text.trimmed c.rows) := by
  rw [picture, display]
  cases lines : c.rows with
  | nil => rfl
  | cons l rest => exact Text.trimLines_join (lines ▸ free) (List.cons_ne_nil l rest)

end Canvas

namespace Storing
open Storage

/-- Steps that write a piece each to the end of a text write all the pieces. -/
theorem run_foldlM_append {α : Type} {step : Text → α → Storing Text} {piece : α → Text} {s : Storage}
    {as : List α} (each : ∀ a ∈ as, ∀ out, (step out a).run s = .ok (out ++ piece a) s) (out : Text) :
    (as.foldlM step out).run s = .ok (out ++ as.flatMap piece) s := by
  induction as generalizing out with
  | nil => simp only [List.foldlM_nil, List.flatMap_nil, List.append_nil, EStateM.run_pure]
  | cons a rest ih =>
    obtain ⟨first, others⟩ := List.forall_mem_cons.mp each
    rw [List.foldlM_cons, EStateM.run_bind, first out]
    dsimp only
    rw [ih others, List.flatMap_cons, List.append_assoc]

theorem run_printRow (high : y < c.height) (out : Text) : (printRow out y).run (ofCanvas c) =
    .ok (out ++ (c.row y ++ if y + 1 < c.height then ['\n'] else [])) (ofCanvas c) := by
  have columns : ∀ x ∈ List.range c.width, ∀ out, (do return out ++ [← look x y] : Storing Text).run (ofCanvas c)
      = .ok (out ++ ((c.cell? x y).map (c.shownBy x y)).toList) (ofCanvas c) := by
    intro x inside out
    obtain ⟨cell, held⟩ := Canvas.cell?_of_lt (List.mem_range.mp inside) high
    rw [EStateM.run_bind, run_look, Canvas.get_of_cell held, held]
    rfl
  have line : (List.range c.width).flatMap (fun x => ((c.cell? x y).map (c.shownBy x y)).toList) = c.row y :=
    (List.filterMap_eq_flatMap_toList _ _).symm
  rw [printRow, EStateM.run_bind, EStateM.run_get]
  dsimp only
  rw [width_ofCanvas, height_ofCanvas, EStateM.run_bind, run_foldlM_append columns, line, ← List.append_assoc]
  dsimp only
  split
  · rfl
  · rw [List.append_nil]
    rfl

/-- Printing misses no entry. -/
theorem run_print (c : Canvas) : print.run (ofCanvas c) = .ok c.display (ofCanvas c) := by
  have rows := run_foldlM_append (fun y inside => run_printRow (c := c) (List.mem_range.mp inside)) []
  rw [print, EStateM.run_bind, EStateM.run_get]
  dsimp only
  rw [height_ofCanvas, rows, List.nil_append, Canvas.display, Canvas.rows, Text.join_map_range]

theorem run_printTrimmed (c : Canvas) : printTrimmed.run (ofCanvas c) = .ok c.picture (ofCanvas c) := by
  rw [printTrimmed, EStateM.run_bind, run_print, Canvas.picture, Text.trimLines_eq]
  rfl

end Storing

/-- Trimming drops only blanks. Where no position shows a newline, no line of the picture ends
in a space, its last line is not empty, and it has at most as many lines as the canvas
has rows. With spaces at the ends of its lines, up to the width of the canvas, and
blank rows below, up to its height, these are the rows that the canvas is printed in, and
at each position stands what the canvas shows there. Printing character by character,
and taking empty lines from the end one after the other, gives both texts, and no entry of
the lists is missed. -/
theorem trimming_drops_only_blanks (c : Canvas) (free : ∀ x y, c.get x y ≠ .ok '\n') :
    let shown := c.picture.printedLines
    let restored := Text.padTo c.width c.height shown
    (∀ l ∈ shown, l.getLast? ≠ some ' ') ∧ shown.getLast? ≠ some [] ∧ shown.length ≤ c.height ∧
      restored = c.rows ∧ (∀ x y ch, restored[y]?.bind (·[x]?) = some ch ↔ c.get x y = .ok ch) ∧
      Storing.print.run (.ofCanvas c) = .ok (.join restored) (.ofCanvas c) ∧
      Storing.printTrimmed.run (.ofCanvas c) = .ok c.picture (.ofCanvas c) := by
  intro shown restored
  have lines := Canvas.newline_free_rows free
  have trimmed : shown = Text.trimmed c.rows := by
    have cut := Text.printedLines_join (Text.newline_free_trimmed lines) (Text.getLast?_trimmed c.rows)
    rwa [← Canvas.picture_eq_join lines] at cut
  have whole : restored = c.rows := by
    have padded := Text.padTo_trimmed fun l => Canvas.length_of_mem_rows (c := c) (l := l)
    rwa [Canvas.length_rows, ← trimmed] at padded
  have few : shown.length ≤ c.height := by
    rw [trimmed, ← c.length_rows]
    exact Text.length_trimmed_le c.rows
  have tidy : ∀ l ∈ shown, l.getLast? ≠ some ' ' := fun l member =>
    Text.getLast?_of_mem_trimmed (trimmed ▸ member)
  have seen : shown.getLast? ≠ some [] := trimmed ▸ Text.getLast?_trimmed c.rows
  refine ⟨tidy, seen, few, whole, fun x y ch => ?_, ?_, Storing.run_printTrimmed c⟩
  · rw [whole]
    exact Canvas.rows_eq_some_iff
  · rw [whole]
    exact Storing.run_print c

open Writing in
/-- A canvas with a blank row between two others and one below them; and a canvas with
rows but no columns, where nothing is to be seen and all rows are restored. -/
theorem trimming_drops_only_blanks_between_rows :
    (∃ c, Canvas.filled 3 4 ' ' = .ok c ∧
      let now := attemptAll c [.dot 1 0 'a', .across 0 1 2]
      (∀ x y, now.get x y ≠ .ok '\n') ∧ now.picture.printedLines = [[' ', 'a'], [], ['─', '─']] ∧
      Text.padTo now.width now.height now.picture.printedLines = now.rows) ∧
    ∃ c, Canvas.filled 0 3 ' ' = .ok c ∧ c.picture.printedLines = [] ∧
      Text.padTo c.width c.height c.picture.printedLines = c.rows ∧ c.rows = [[], [], []] := by
  refine ⟨⟨_, if_pos (by decide), ?_⟩, _, if_pos (by decide), ?_⟩
  · intro now
    have free : ∀ x y, now.get x y ≠ .ok '\n' := Canvas.newline_free_iff.mpr (by decide)
    obtain ⟨_, _, _, restored, _⟩ := trimming_drops_only_blanks now free
    exact ⟨free, by decide, restored⟩
  · exact ⟨by decide, (trimming_drops_only_blanks _ (Canvas.newline_free_iff.mpr (by decide))).2.2.2.1, by decide⟩

end SequenceDiagram
