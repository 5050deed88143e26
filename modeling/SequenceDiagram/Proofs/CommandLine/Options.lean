import Mathlib.Data.List.Nodup
import Mathlib.Data.List.Perm.Basic
import SequenceDiagram.CommandLine.Options
import SequenceDiagram.Proofs.CommandLine.Units

/-! Options from units. What the units of a command line add up to depends on nothing
but which of them there are; so they may come in any order, and it makes no difference
whether they are taken one by one. -/
namespace SequenceDiagram.CommandLine

variable {t : Text} {pieces others : List (List Text)} {units more front : List Argument} {u : Argument}
  {o next : Options} {columns : Nat}

/-! ### Adding up -/

namespace Argument

theorem count_kind (units : List Argument) (k : Kind) : (units.map kind).count k = match k with
    | .json => units.count .json
    | .editor => units.count .editor
    | .width => (units.filterMap columns?).length
    | .file => (units.filterMap file?).length := by
  induction units with
  | nil => cases k <;> rfl
  | cons u units ih => cases u <;> cases k <;> simp_all [kind, List.filterMap_cons, columns?, file?]

theorem nodup_kinds_iff : (units.map kind).Nodup ↔
    (units.filterMap file?).length ≤ 1 ∧ (units.filterMap columns?).length ≤ 1 ∧
      units.count .json ≤ 1 ∧ units.count .editor ≤ 1 := by
  rw [List.nodup_iff_count_le_one]
  constructor
  · intro once
    have each (k : Kind) := count_kind units k ▸ once k
    exact ⟨each .file, each .width, each .json, each .editor⟩
  · rintro ⟨files, widths, jsons, editors⟩ k
    rw [count_kind]
    cases k with
    | json => exact jsons
    | editor => exact editors
    | width => exact widths
    | file => exact files

theorem file?_eq_some_iff {path : Text} : u.file? = some path ↔ u = .file path := by
  cases u <;> simp [file?]

theorem columns?_eq_some_iff : u.columns? = some columns ↔ u = .width columns := by
  cases u <;> simp [columns?]

theorem Agree.perm (agree : Agree units) (order : more.Perm units) : Agree more := by
  refine ⟨(order.map kind).nodup_iff.mpr agree.once, fun editing => ?_⟩
  simp only [order.mem_iff] at editing ⊢
  exact agree.editing editing

end Argument

open Argument

theorem head?_eq_some_iff_mem {α : Type} {l : List α} {a : α} (short : l.length ≤ 1) : l.head? = some a ↔ a ∈ l := by
  match l, short with
  | [], _ => simp
  | [b], _ => simp [eq_comm]

namespace Options

theorem fits_iff_not (o : Options) : o.fits = true ↔
    ¬(o.editor = true ∧ (o.json = true ∨ o.width.isSome = true ∨ o.file = some ['-'])) := by
  unfold fits
  cases o.editor <;> cases o.json <;> simp

namespace Holds

theorem unique (held : o.Holds units) (also : next.Holds units) : o = next := by
  have file : o.file = next.file := Option.ext fun path => (held.file path).trans (also.file path).symm
  have json : o.json = next.json := Bool.eq_iff_iff.mpr (held.json.trans also.json.symm)
  have width : o.width = next.width := Option.ext fun columns => (held.width columns).trans (also.width columns).symm
  have editor : o.editor = next.editor := Bool.eq_iff_iff.mpr (held.editor.trans also.editor.symm)
  obtain ⟨_, _, _, _⟩ := o
  simp only at file json width editor
  subst file json width editor
  rfl

theorem nil : Holds {} [] := by
  constructor <;> simp

theorem perm (held : o.Holds units) (order : more.Perm units) : o.Holds more := by
  constructor <;> simp only [order.mem_iff]
  · exact held.file
  · exact held.json
  · exact held.width
  · exact held.editor

theorem isSome_width (held : o.Holds units) : o.width.isSome = true ↔ ∃ columns, .width columns ∈ units := by
  simp only [Option.isSome_iff_exists, held.width]

/-- Options fit exactly if the units that they hold leave the editor alone. -/
theorem fits_iff (held : o.Holds units) : o.fits = true ↔
    (.editor ∈ units → .json ∉ units ∧ (∀ columns, .width columns ∉ units) ∧ .file ['-'] ∉ units) := by
  rw [fits_iff_not, held.editor, held.json, held.isSome_width, held.file]
  simp only [not_and, not_or, not_exists]

end Holds

/-- What units add up to, whether they can stand together or not. -/
def gathered (units : List Argument) : Options where
  file := (units.filterMap file?).head?
  json := units.contains .json
  width := (units.filterMap columns?).head?
  editor := units.contains .editor

theorem holds_gathered (once : (units.map kind).Nodup) : (gathered units).Holds units := by
  obtain ⟨files, widths, _, _⟩ := nodup_kinds_iff.mp once
  refine ⟨fun path => ?_, List.contains_iff_mem, fun columns => ?_, List.contains_iff_mem⟩
  · rw [gathered, head?_eq_some_iff_mem files]
    simp [file?_eq_some_iff]
  · rw [gathered, head?_eq_some_iff_mem widths]
    simp [columns?_eq_some_iff]

theorem ofArguments?_eq (units : List Argument) : ofArguments? units =
    if (units.map kind).Nodup ∧ (gathered units).fits = true then some (gathered units) else none := by
  refine if_congr ?_ rfl rfl
  rw [nodup_kinds_iff, fits_iff_not]
  simp only [and_assoc]
  rfl

/-- Units give the options that hold them, if they can stand together. -/
theorem ofArguments?_eq_some_iff : ofArguments? units = some o ↔ Agree units ∧ o.Holds units := by
  rw [ofArguments?_eq]
  constructor
  · intro done
    split at done
    · rename_i sound
      cases done
      have held := holds_gathered sound.1
      exact ⟨⟨sound.1, held.fits_iff.mp sound.2⟩, held⟩
    · cases done
  · rintro ⟨agree, held⟩
    have gathers := holds_gathered agree.once
    rw [if_pos ⟨agree.once, gathers.fits_iff.mpr agree.editing⟩, gathers.unique held]

/-! ### One by one -/

/-- A unit is refused exactly if there is one of its kind already. -/
theorem add?_eq_none_iff (held : o.Holds front) : o.add? u = none ↔ u.kind ∈ front.map kind := by
  rw [List.mem_map]
  constructor
  · intro refused
    cases u with
    | json => exact ⟨.json, held.json.mp (by simpa [add?] using refused), rfl⟩
    | editor => exact ⟨.editor, held.editor.mp (by simpa [add?] using refused), rfl⟩
    | width columns =>
      obtain ⟨columns, set⟩ := held.isSome_width.mp (by simpa [add?, Option.isSome_iff_ne_none] using refused)
      exact ⟨.width columns, set, rfl⟩
    | file path =>
      obtain ⟨path, set⟩ := Option.ne_none_iff_exists'.mp (by simpa [add?] using refused : o.file ≠ none)
      exact ⟨.file path, (held.file path).mp set, rfl⟩
  · rintro ⟨v, member, same⟩
    cases v <;> cases u <;> cases same
    · exact if_pos (held.json.mpr member)
    · exact if_pos (held.editor.mpr member)
    · exact if_pos (held.isSome_width.mpr ⟨_, member⟩)
    · exact if_pos (Option.isSome_iff_exists.mpr ⟨_, (held.file _).mpr member⟩)

theorem fresh_of_add (held : o.Holds front) (added : o.add? u = some next) : ∀ v ∈ front, v.kind ≠ u.kind := by
  intro v member same
  have refused := (add?_eq_none_iff held).mpr (List.mem_map.mpr ⟨v, member, same⟩)
  rw [added] at refused
  cases refused

theorem Holds.add (held : o.Holds front) (added : o.add? u = some next) : next.Holds (front ++ [u]) := by
  have fresh := fresh_of_add held added
  cases u with
  | json =>
    rw [add?] at added
    split at added
    · cases added
    · cases added
      constructor <;> simp [held.file, held.width, held.editor]
  | editor =>
    rw [add?] at added
    split at added
    · cases added
    · cases added
      constructor <;> simp [held.file, held.width, held.json]
  | width columns =>
    have fresh (other : Nat) : .width other ∉ front := fun member => fresh _ member rfl
    rw [add?] at added
    split at added
    · cases added
    · cases added
      constructor <;> simp [held.file, held.json, held.editor, fresh, eq_comm]
  | file path =>
    have fresh (other : Text) : .file other ∉ front := fun member => fresh _ member rfl
    rw [add?] at added
    split at added
    · cases added
    · cases added
      constructor <;> simp [held.width, held.json, held.editor, fresh, eq_comm]

/-- Taken one by one, units give the options that hold them if no kind comes twice. -/
theorem foldlM_add?_eq_some_iff (held : o.Holds front) (once : (front.map kind).Nodup) :
    units.foldlM add? o = some next ↔ ((front ++ units).map kind).Nodup ∧ next.Holds (front ++ units) := by
  induction units generalizing front o with
  | nil =>
    rw [List.append_nil]
    constructor
    · intro done
      cases done
      exact ⟨once, held⟩
    · rintro ⟨_, also⟩
      exact congrArg some (held.unique also)
  | cons u units ih =>
    rw [List.foldlM_cons, List.append_cons]
    cases added : o.add? u with
    | none =>
      have twice : ¬((front ++ [u] ++ units).map kind).Nodup := by
        intro nodup
        rw [List.map_append, List.map_append] at nodup
        have apart := (List.nodup_append'.mp nodup.of_append_left).2.2
        exact apart ((add?_eq_none_iff held).mp added) (by simp)
      constructor
      · intro done
        cases done
      · exact fun both => absurd both.1 twice
    | some o' =>
      have still : ((front ++ [u]).map kind).Nodup := by
        rw [List.map_append]
        exact once.append (List.nodup_singleton _) (by simpa using fresh_of_add held added)
      exact ih (held.add added) still

theorem take?_single (other : t ≠ "--width".toList) (o : Options) (args : List Text) :
    take? o (t :: args) = (ofSingle? t).bind fun u => (o.add? u).bind (take? · args) := by
  rw [take?.eq_def]
  dsimp only
  rw [ofSingle?, if_neg other]
  split
  · rfl
  · split
    · rfl
    · split
      · rfl
      · split <;> rfl

theorem take?_width (o : Options) (value : Text) (args : List Text) : take? o ("--width".toList :: value :: args) =
    (width? value).bind fun columns => (o.add? (.width columns)).bind (take? · args) := by
  rw [take?.eq_def]
  dsimp only
  rw [if_neg (by decide), if_neg (by decide), if_pos rfl]
  split
  · rename_i set
    have refused (columns : Nat) : o.add? (.width columns) = none := if_pos set
    simp [refused]
  · rfl

/-- Taking the arguments one by one is cutting them first and taking the units then. -/
theorem take?_eq (o : Options) (args : List Text) :
    take? o args = (cut? args).bind fun units => units.foldlM add? o := by
  have step {args : List Text} (ih : ∀ o, take? o args = (cut? args).bind fun units => units.foldlM add? o)
      (o : Options) (u : Argument) : (o.add? u).bind (take? · args) =
        ((cut? args).map (u :: ·)).bind fun units => units.foldlM add? o := by
    simp only [ih]
    cases cut? args with
    | none => cases o.add? u <;> rfl
    | some units => rfl
  induction args using cut?.induct generalizing o with
  | case1 => rfl
  | case2 =>
    rw [take?.eq_def]
    dsimp only
    rw [if_neg (by decide), if_neg (by decide), if_pos rfl, ite_self]
    rfl
  | case3 value args ih =>
    rw [take?_width, cut?_width, Option.bind_assoc]
    exact congrArg _ (funext fun columns => step ih o (.width columns))
  | case4 t args other ih =>
    rw [take?_single other, cut?_single other, Option.bind_assoc]
    exact congrArg _ (funext fun u => step ih o u)

theorem takeAll?_eq_parse? (args : List Text) : takeAll? args = parse? args := by
  refine Option.ext fun o => ?_
  rw [takeAll?, take?_eq, parse?, Option.filter_eq_some_iff, Option.bind_eq_some_iff, Option.bind_eq_some_iff,
    ← exists_and_right]
  refine exists_congr fun units => ?_
  rw [and_assoc, foldlM_add?_eq_some_iff .nil List.nodup_nil, ofArguments?_eq_some_iff, List.nil_append]
  constructor
  · rintro ⟨cut, ⟨once, held⟩, fits⟩
    exact ⟨cut, ⟨once, held.fits_iff.mp fits⟩, held⟩
  · rintro ⟨cut, agree, held⟩
    exact ⟨cut, ⟨agree.once, held⟩, held.fits_iff.mpr agree.editing⟩

/-- What spelled units come to. -/
theorem parse?_flatten (spelled : List.Forall₂ Spells pieces units) :
    parse? pieces.flatten = some o ↔ Agree units ∧ o.Holds units := by
  rw [parse?, cut?_eq_some_iff.mpr ⟨pieces, rfl, spelled⟩, Option.bind_some, ofArguments?_eq_some_iff]

theorem parse?_perm (spelled : List.Forall₂ Spells pieces units) (order : others.Perm pieces) :
    parse? others.flatten = parse? pieces.flatten := by
  obtain ⟨more, also, reordered⟩ := List.perm_comp_forall₂ order spelled
  refine Option.ext fun o => ?_
  rw [parse?_flatten also, parse?_flatten spelled]
  exact ⟨fun ⟨agree, held⟩ => ⟨agree.perm reordered.symm, held.perm reordered.symm⟩,
    fun ⟨agree, held⟩ => ⟨agree.perm reordered, held.perm reordered⟩⟩

end Options

/-- A command line gives options exactly if it can be cut into units that can stand
together, and the options say what these units say. It can be cut in one way at most;
the pieces may stand in any order, and options taken one argument after the other are
the same. -/
theorem options_of_units (args : List Text) :
    Options.takeAll? args = Options.parse? args ∧
    (∀ o, Options.parse? args = some o ↔
      ∃ pieces units, args = pieces.flatten ∧ List.Forall₂ Spells pieces units ∧ Agree units ∧ o.Holds units) ∧
    ∀ pieces units, args = pieces.flatten → List.Forall₂ Spells pieces units →
      (∀ others more, args = others.flatten → List.Forall₂ Spells others more → others = pieces ∧ more = units) ∧
      ∀ order, List.Perm order pieces → Options.parse? order.flatten = Options.parse? args := by
  refine ⟨Options.takeAll?_eq_parse? args, fun o => ⟨fun done => ?_, ?_⟩, ?_⟩
  · obtain ⟨units, cut, added⟩ := Option.bind_eq_some_iff.mp done
    obtain ⟨pieces, whole, spelled⟩ := cut?_eq_some_iff.mp cut
    obtain ⟨agree, held⟩ := Options.ofArguments?_eq_some_iff.mp added
    exact ⟨pieces, units, whole, spelled, agree, held⟩
  · rintro ⟨pieces, units, rfl, spelled, agree, held⟩
    exact (Options.parse?_flatten spelled).mpr ⟨agree, held⟩
  · rintro pieces units rfl spelled
    refine ⟨fun others more whole also => cut_unique also spelled whole.symm, fun order reordered => ?_⟩
    exact Options.parse?_perm spelled reordered

/-- A file with an empty name is one, and a width may begin with a plus sign and zeros. -/
theorem options_of_units_any_order :
    let pieces := [["--json".toList], ["--width".toList, "+090".toList], [[]]]
    Options.parse? pieces.flatten = some { file := some [], json := true, width := some 90 } ∧
      Options.parse? pieces.reverse.flatten = Options.parse? pieces.flatten := by
  intro pieces
  have written : Writes "090".toList 90 := writes_iff.mpr (by decide)
  have spelled : List.Forall₂ Spells pieces [.json, .width 90, .file []] :=
    .cons .json (.cons (.widthPlus written) (.cons (.file (by decide)) .nil))
  have agree : Agree [.json, .width 90, .file []] := ⟨by decide, fun editing => absurd editing (by decide)⟩
  obtain ⟨_, exactly, cuts⟩ := options_of_units pieces.flatten
  refine ⟨(exactly _).mpr ⟨pieces, _, rfl, spelled, agree, ?_⟩, ?_⟩
  · constructor <;> simp [eq_comm]
  · exact (cuts pieces _ rfl spelled).2 _ (List.reverse_perm pieces)

end SequenceDiagram.CommandLine
