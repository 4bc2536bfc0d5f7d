import CppPrinter.Output.Options
import Mathlib.Data.List.TakeWhile

/-!
# The components of a path

A path is the directory of its last component, the component itself (`Path.directory_append`), and a trail
of separators and `.` components, of which any part may be cut off (`Path.exists_trail`). So the header is
included by the file name of the output with another extension: no other character gets into it
(`Options.mem_headerName`).
-/

namespace CppPrinter

namespace Path

variable {front name path extension : List Char}

/-! ### Directory, component and trail -/

/-- What leads to the last component: nothing, or a path up to a separator. -/
def directory (path : List Char) : List Char := ((trimmed path).reverse.dropWhile (· ≠ '/')).reverse

theorem directory_append (path : List Char) : directory path ++ lastComponent path = trimmed path := by
  rw [directory, lastComponent, ← List.reverse_append, List.takeWhile_append_dropWhile,
    List.reverse_reverse]

theorem getLast?_directory (path : List Char) : ∀ c ∈ (directory path).getLast?, c = '/' := by
  intro c last
  have stops := List.head?_dropWhile_not (p := (· ≠ '/')) (trimmed path).reverse
  rw [directory, List.getLast?_reverse] at last
  rw [last] at stops
  simpa using stops

theorem not_mem_lastComponent (path : List Char) : '/' ∉ lastComponent path := by
  rw [lastComponent, List.mem_reverse]
  intro member
  simpa using List.mem_takeWhile_imp member

/-- What does not count at the end of a path, which comes first here, does not count either when it is
cut short. -/
theorem exists_trail_reversed (path : List Char) : ∃ trail, path = trail ++ trimReversed path ∧
    ∀ k, trimReversed (trail.drop k ++ trimReversed path) = trimReversed path := by
  fun_induction trimReversed path with
  | case1 rest ih =>
    obtain ⟨trail, split, short⟩ := ih
    refine ⟨'/' :: trail, congrArg ('/' :: ·) split, fun k => ?_⟩
    cases k with
    | zero => exact short 0
    | succ k => exact short k
  | case2 rest ih =>
    obtain ⟨trail, split, short⟩ := ih
    refine ⟨'.' :: '/' :: trail, congrArg ('.' :: '/' :: ·) split, fun k => ?_⟩
    match k with
    | 0 | 1 => exact short 0
    | k + 2 => exact short k
  | case3 path noSlash noDot =>
    refine ⟨[], rfl, fun k => ?_⟩
    rw [List.drop_nil, List.nil_append, trimReversed]
    · exact noSlash
    · exact noDot

theorem exists_trail (path : List Char) : ∃ trail, path = trimmed path ++ trail ∧
    ∀ k, trimmed (trimmed path ++ trail.take k) = trimmed path := by
  obtain ⟨trail, split, short⟩ := exists_trail_reversed path.reverse
  refine ⟨trail.reverse, ?_, fun k => ?_⟩
  · rw [trimmed, ← List.reverse_append, ← split, List.reverse_reverse]
  · rw [trimmed, trimmed, List.take_reverse, ← List.reverse_append, List.reverse_reverse, short]

theorem lastComponent_eq_of_trimmed {path' : List Char} (same : trimmed path = trimmed path') :
    lastComponent path = lastComponent path' := by
  rw [lastComponent, lastComponent, same]

theorem directory_eq_of_trimmed {path' : List Char} (same : trimmed path = trimmed path') :
    directory path = directory path' := by
  rw [directory, directory, same]

/-- Nothing is cut off from a component other than `.`. -/
theorem trimReversed_component {rest : List Char} (filled : name ≠ []) (noSlash : '/' ∉ name)
    (noDot : name ≠ ['.']) : trimReversed (name ++ rest) = name ++ rest := by
  rw [trimReversed]
  · rintro tail shape
    obtain ⟨c, name, rfl⟩ := List.exists_cons_of_ne_nil filled
    cases shape
    exact noSlash List.mem_cons_self
  · rintro tail shape
    obtain ⟨c, name, rfl⟩ := List.exists_cons_of_ne_nil filled
    cases name with
    | nil =>
      cases shape
      exact noDot rfl
    | cons d name =>
      cases shape
      exact noSlash (List.mem_cons_of_mem _ List.mem_cons_self)

/-- Nothing is cut off behind a component that counts. -/
theorem trimmed_append (noSlash : '/' ∉ name) (filled : name ≠ []) (noDot : name ≠ ['.']) :
    trimmed (front ++ name) = front ++ name := by
  have kept : trimReversed (name.reverse ++ front.reverse) = name.reverse ++ front.reverse := by
    refine trimReversed_component (by simpa using filled) (by simpa using noSlash) fun dot => noDot ?_
    rw [← List.reverse_reverse name, dot]
    rfl
  rw [trimmed, List.reverse_append, kept, ← List.reverse_append, List.reverse_reverse]

/-- A component behind a separator is the last one, unless it does not count. -/
theorem lastComponent_append (separated : ∀ c ∈ front.getLast?, c = '/') (noSlash : '/' ∉ name)
    (filled : name ≠ []) (noDot : name ≠ ['.']) : lastComponent (front ++ name) = name := by
  have inside : ∀ c ∈ name.reverse, (decide (c ≠ '/')) = true := by
    intro c member
    have other : c ≠ '/' := by
      rintro rfl
      exact noSlash (List.mem_reverse.1 member)
    exact decide_eq_true other
  have outside : front.reverse.takeWhile (· ≠ '/') = [] := by
    cases shape : front.reverse with
    | nil => rfl
    | cons c rest =>
      have slash : c = '/' := separated c (by rw [List.getLast?_eq_head?_reverse, shape]; rfl)
      rw [slash]
      rfl
  rw [lastComponent, trimmed_append noSlash filled noDot, List.reverse_append,
    List.takeWhile_append_of_pos inside, outside, List.append_nil, List.reverse_reverse]

/-- What stands before a component is its directory. -/
theorem directory_append_component (separated : ∀ c ∈ front.getLast?, c = '/') (noSlash : '/' ∉ name)
    (filled : name ≠ []) (noDot : name ≠ ['.']) : directory (front ++ name) = front := by
  have whole := directory_append (front ++ name)
  rw [lastComponent_append separated noSlash filled noDot, trimmed_append noSlash filled noDot] at whole
  exact List.append_cancel_right whole

/-- More than one character of the last component stay the last component when the rest is cut off. -/
theorem lastComponent_directory_append (part : name <+: lastComponent path)
    (long : 1 < name.length) : lastComponent (directory path ++ name) = name := by
  refine lastComponent_append (getLast?_directory path)
    (fun slash => not_mem_lastComponent path (part.subset slash)) ?_ ?_ <;> rintro rfl
  · exact absurd long (by decide)
  · exact absurd long (by decide)

/-! ### Extensions -/

theorem fileName?_eq_some_iff : fileName? path = some name ↔
    isFileName (lastComponent path) = true ∧ lastComponent path = name := by
  unfold fileName?
  split <;> simp_all

theorem stem_subset (name : List Char) : stem name ⊆ name := by
  unfold stem
  split
  · exact List.take_subset _ _
  · exact List.Subset.refl _

/-- An extension stands behind a point and something else before it. -/
theorem exists_of_extension? (given : extension? name = some extension) :
    ∃ stem, stem ≠ [] ∧ name = stem ++ '.' :: extension ∧ '.' ∉ extension := by
  unfold extension? at given
  split at given <;> cases given
  rename_i point
  have split := List.takeWhile_append_dropWhile (p := (· ≠ '.')) (l := name.reverse)
  have free : '.' ∉ name.reverse.takeWhile (· ≠ '.') := by
    intro member
    simpa using List.mem_takeWhile_imp member
  cases shape : name.reverse.dropWhile (· ≠ '.') with
  | nil =>
    rw [shape, List.append_nil] at split
    rw [split, List.mem_reverse] at free
    exact absurd (List.mem_of_mem_drop point) free
  | cons c before =>
    have stops := List.head?_dropWhile_not (p := (· ≠ '.')) name.reverse
    rw [shape] at stops
    obtain rfl : c = '.' := by simpa using stops
    rw [shape] at split
    have whole : name = before.reverse ++ '.' :: (name.reverse.takeWhile (· ≠ '.')).reverse := by
      have turned := congrArg List.reverse split
      rw [List.reverse_append, List.reverse_cons, List.append_assoc, List.reverse_reverse] at turned
      exact turned.symm
    refine ⟨before.reverse, fun nothing => ?_, whole, fun member => free (List.mem_reverse.1 member)⟩
    rw [nothing] at whole
    rw [whole] at point
    exact free (List.mem_reverse.1 (by simpa using point))

theorem cutExtension_subset (path : List Char) : cutExtension path ⊆ path := by
  unfold cutExtension
  split
  · exact List.take_subset _ _
  · exact List.Subset.refl _

/-- What stands behind the last point is the extension, unless the point comes first. -/
theorem extension?_append {start : List Char} (filled : start ≠ []) (noPoint : '.' ∉ extension) :
    extension? (start ++ '.' :: extension) = some extension := by
  have inside : ∀ c ∈ extension.reverse, (decide (c ≠ '.')) = true := by
    intro c member
    have other : c ≠ '.' := by
      rintro rfl
      exact noPoint (List.mem_reverse.1 member)
    exact decide_eq_true other
  have point : '.' ∈ (start ++ '.' :: extension).drop 1 := by
    obtain ⟨c, start, rfl⟩ := List.exists_cons_of_ne_nil filled
    simp
  rw [extension?, if_pos point, List.reverse_append, List.reverse_cons, List.append_assoc,
    List.takeWhile_append_of_pos inside, List.singleton_append, List.takeWhile_cons_of_neg (by decide),
    List.append_nil, List.reverse_reverse]

/-- What stands before the last point is the stem, unless it is nothing. -/
theorem stem_append {start : List Char} (filled : start ≠ []) (noPoint : '.' ∉ extension) :
    stem (start ++ '.' :: extension) = start := by
  have length : (start ++ '.' :: extension).length - extension.length - 1 = start.length := by
    simp only [List.length_append, List.length_cons]
    omega
  simp only [stem, extension?_append filled noPoint, length, List.take_left]

/-- Only a name of nothing but a point and an extension has no stem. -/
theorem stem_ne_nil (filled : name ≠ []) : stem name ≠ [] := by
  cases given : extension? name with
  | none => simpa only [stem, given] using filled
  | some extension =>
    obtain ⟨start, some_start, rfl, noPoint⟩ := exists_of_extension? given
    rwa [stem_append some_start noPoint]

/-- Cutting the extension off shortens what does not count behind the last component, or else the
extension itself, to the length of what does not count. -/
theorem cutExtension_cases (path : List Char) :
    trimmed (cutExtension path) = trimmed path ∨
      ∃ start extension trail, start ≠ [] ∧ '.' ∉ extension ∧ trail.length < extension.length ∧
        lastComponent path = start ++ '.' :: extension ∧ path = trimmed path ++ trail ∧
        cutExtension path = directory path ++ (start ++ '.' :: extension.take trail.length) := by
  unfold cutExtension
  split
  case h_2 => exact .inl rfl
  case h_1 extension given =>
    obtain ⟨name, named, given⟩ := Option.bind_eq_some_iff.1 given
    obtain ⟨-, rfl⟩ := fileName?_eq_some_iff.1 named
    obtain ⟨trail, split, short⟩ := exists_trail path
    obtain ⟨start, filled, shape, noPoint⟩ := exists_of_extension? given
    by_cases enough : extension.length ≤ trail.length
    · -- The cut stays behind the component.
      have cut := calc path.take (path.length - extension.length)
          _ = (trimmed path ++ trail).take ((trimmed path ++ trail).length - extension.length) := by
            rw [← split]
          _ = trimmed path ++ trail.take (trail.length - extension.length) := by
            rw [List.length_append, Nat.add_sub_assoc enough, List.take_length_add_append]
      exact .inl ((congrArg trimmed cut).trans (short _))
    · -- The cut goes into the extension and leaves the point.
      have whole : path = directory path ++ (start ++ '.' :: (extension ++ trail)) := by
        rw [← List.cons_append, ← List.append_assoc start, ← shape, ← List.append_assoc,
          directory_append, ← split]
      have left : path.length - extension.length =
          (directory path).length + (start.length + (trail.length + 1)) := by
        have length := congrArg List.length whole
        simp only [List.length_append, List.length_cons] at length
        omega
      have cut := calc path.take (path.length - extension.length)
          _ = (directory path ++ (start ++ '.' :: (extension ++ trail))).take
                ((directory path).length + (start.length + (trail.length + 1))) := by
            rw [← whole, left]
          _ = directory path ++ (start ++ '.' :: extension.take trail.length) := by
            rw [List.take_length_add_append, List.take_length_add_append, List.take_succ_cons,
              List.take_append_of_le_length (by omega)]
      exact .inr ⟨start, extension, trail, filled, noPoint, by omega, shape, split, cut⟩

/-- A point with something before it is more than one character. -/
theorem one_lt_length_append {start rest : List Char} (filled : start ≠ []) :
    1 < (start ++ '.' :: rest).length := by
  have some_start := List.length_pos_iff.2 filled
  simp only [List.length_append, List.length_cons]
  omega

/-- What is left when the extension is cut off ends in the front of the same component. -/
theorem lastComponent_cutExtension_prefix (path : List Char) :
    lastComponent (cutExtension path) <+: lastComponent path := by
  obtain same | ⟨start, extension, trail, filled, -, -, shape, -, cut⟩ := cutExtension_cases path
  · exact (lastComponent_eq_of_trimmed same) ▸ List.prefix_rfl
  · have part : (start ++ '.' :: extension.take trail.length) <+: lastComponent path := by
      rw [shape, List.prefix_append_right_inj, List.cons_prefix_cons]
      exact ⟨rfl, List.take_prefix _ _⟩
    rw [cut, lastComponent_directory_append part (one_lt_length_append filled)]
    exact part

/-- A component that does not end with a point names a file. -/
theorem isFileName_of_getLast? {c : Char} (last : name.getLast? = some c) (noPoint : c ≠ '.') :
    isFileName name = true := by
  simp only [isFileName, Bool.and_eq_true, bne_iff_ne]
  refine ⟨⟨?_, ?_⟩, ?_⟩ <;> rintro rfl <;> cases last <;> exact noPoint rfl

/-- The new extension stands behind the stem, in the same directory. -/
theorem setExtension_eq (named : fileName? path = some name) :
    setExtension extension path = directory path ++ (stem name ++ '.' :: extension) := by
  obtain ⟨-, last⟩ := fileName?_eq_some_iff.1 named
  simp only [setExtension, named]
  rw [← directory_append, last, List.length_append, Nat.add_sub_cancel, List.take_left,
    List.append_assoc]

/-- A path that names a file names one with the new extension afterwards. -/
theorem fileName?_setExtension (named : fileName? path = some name) (filled : extension ≠ [])
    (noSlash : '/' ∉ extension) (noPoint : '.' ∉ extension) :
    fileName? (setExtension extension path) = some (stem name ++ '.' :: extension) := by
  obtain ⟨-, last⟩ := fileName?_eq_some_iff.1 named
  have noSlash' : '/' ∉ stem name ++ '.' :: extension := by
    rw [List.mem_append, List.mem_cons]
    rintro (inStem | point | inExtension)
    · exact not_mem_lastComponent path (last ▸ stem_subset name inStem)
    · cases point
    · exact noSlash inExtension
  have isFile : isFileName (stem name ++ '.' :: extension) = true := by
    have atEnd : (stem name ++ '.' :: extension).getLast? = some (extension.getLast filled) := by
      rw [List.append_cons, List.getLast?_append, List.getLast?_eq_some_getLast filled, Option.some_or]
    refine isFileName_of_getLast? atEnd ?_
    exact fun point => noPoint (point ▸ List.getLast_mem filled)
  have noDot : stem name ++ '.' :: extension ≠ ['.'] := by
    intro dot
    rw [dot] at isFile
    cases isFile
  refine fileName?_eq_some_iff.2 ?_
  rw [setExtension_eq named, lastComponent_append (getLast?_directory path) noSlash' (by simp) noDot]
  exact ⟨isFile, rfl⟩

/-- The file with the new extension is in the directory of the old one. -/
theorem directory_setExtension (named : fileName? path = some name) (filled : extension ≠ [])
    (noSlash : '/' ∉ extension) (noPoint : '.' ∉ extension) :
    directory (setExtension extension path) = directory path := by
  obtain ⟨isFile, last⟩ := fileName?_eq_some_iff.1 (fileName?_setExtension named filled noSlash noPoint)
  have noSlash' := not_mem_lastComponent (setExtension extension path)
  rw [last] at isFile noSlash'
  simp only [isFileName, Bool.and_eq_true, bne_iff_ne] at isFile
  rw [setExtension_eq named]
  exact directory_append_component (getLast?_directory path) noSlash' isFile.1.1 isFile.1.2

/-- The path ends with a component of two points and an extension, such as `..x`. -/
def EndsInPoints (path : List Char) : Prop :=
  ∃ front extension, path = front ++ '.' :: '.' :: extension ∧ (∀ c ∈ front.getLast?, c = '/') ∧
    extension ≠ [] ∧ '.' ∉ extension ∧ '/' ∉ extension

/-- The parent of a directory is no file. -/
theorem fileName?_parent (path : List Char) : fileName? (directory path ++ ['.', '.']) = none := by
  have parent : lastComponent (directory path ++ ['.', '.']) = ['.', '.'] :=
    lastComponent_append (getLast?_directory path) (by decide) (by decide) (by decide)
  simp [fileName?, parent, isFileName]

/-- Of a path that ends with such a component the two points are all that is left. -/
theorem withExtension_of_endsInPoints {new : List Char} (points : EndsInPoints path) :
    withExtension new path = directory path ++ ['.', '.'] := by
  obtain ⟨front, extension, rfl, separated, filled, noPoint, noSlash⟩ := points
  have noSlash' : '/' ∉ '.' :: '.' :: extension := by simpa using noSlash
  have last := lastComponent_append separated noSlash' (by simp) (by simp)
  have front_eq := directory_append_component separated noSlash' (by simp) (by simp)
  have named : fileName? (front ++ '.' :: '.' :: extension) = some ('.' :: '.' :: extension) := by
    refine fileName?_eq_some_iff.2 ⟨?_, last⟩
    rw [last]
    simpa [isFileName] using filled
  have given : extension? (['.'] ++ '.' :: extension) = some extension :=
    extension?_append (by simp) noPoint
  have cut : cutExtension (front ++ '.' :: '.' :: extension) = front ++ ['.', '.'] := by
    have length : (front ++ ['.', '.'] ++ extension).length - extension.length =
        (front ++ ['.', '.']).length := by
      rw [List.length_append, Nat.add_sub_cancel]
    rw [cutExtension, named, Option.bind_some, ← List.singleton_append, given]
    have regroup : front ++ (['.'] ++ '.' :: extension) = front ++ ['.', '.'] ++ extension := by simp
    simp only [regroup, length, List.take_left]
  have unnamed := fileName?_parent (front ++ '.' :: '.' :: extension)
  rw [front_eq] at unnamed ⊢
  simp only [withExtension, cut, setExtension, unnamed]

/-- No other name is cut down to two points, which would name no file: only at the very end of a path
does the cut take a whole extension. -/
theorem endsInPoints_of_cut {start trail : List Char} (filled : start ≠ []) (noPoint : '.' ∉ extension)
    (short : trail.length < extension.length) (shape : lastComponent path = start ++ '.' :: extension)
    (split : path = trimmed path ++ trail)
    (parent : start ++ '.' :: extension.take trail.length = ['.', '.']) : EndsInPoints path := by
  obtain rfl : start = ['.'] := by
    have length := congrArg List.length parent
    have one : start.length = 1 := by
      have some_start := List.length_pos_iff.2 filled
      simp only [List.length_append, List.length_cons, List.length_nil] at length
      omega
    obtain ⟨c, rfl⟩ := List.length_eq_one_iff.1 one
    exact congrArg (fun c => [c]) (List.cons.inj parent).1
  obtain rfl : trail = [] := by
    rcases List.take_eq_nil_iff.1 (List.cons.inj (List.cons.inj parent).2).2 with none | none
    · exact List.length_eq_zero_iff.1 none
    · rw [none] at short
      exact absurd short (Nat.not_lt_zero _)
  refine ⟨directory path, extension, ?_, getLast?_directory path, ?_, noPoint, ?_⟩
  · exact split.trans (by rw [List.append_nil, ← directory_append, shape]; rfl)
  · exact List.ne_nil_of_length_pos short
  · exact fun slash => not_mem_lastComponent path (by rw [shape]; simp [slash])

/-- For every other path that names a file, it does not matter that the old extension is cut off first. -/
theorem withExtension_eq {new : List Char} (named : fileName? path = some name)
    (plain : ¬ EndsInPoints path) : withExtension new path = setExtension new path := by
  obtain ⟨isFile, last⟩ := fileName?_eq_some_iff.1 named
  obtain same | ⟨start, extension, trail, filled, noPoint, short, shape, split, cut⟩ :=
    cutExtension_cases path
  · have kept : fileName? (cutExtension path) = some name := by
      rwa [fileName?, lastComponent_eq_of_trimmed same]
    rw [withExtension, setExtension_eq kept, setExtension_eq named, directory_eq_of_trimmed same]
  · have part : (start ++ '.' :: extension.take trail.length) <+: lastComponent path := by
      rw [shape, List.prefix_append_right_inj, List.cons_prefix_cons]
      exact ⟨rfl, List.take_prefix _ _⟩
    have noSlash : '/' ∉ start ++ '.' :: extension.take trail.length :=
      fun slash => not_mem_lastComponent path (part.subset slash)
    have noPoint' : '.' ∉ extension.take trail.length := fun point => noPoint (List.mem_of_mem_take point)
    have long : 1 < (start ++ '.' :: extension.take trail.length).length := one_lt_length_append filled
    have left := lastComponent_directory_append part long
    have parentless : start ++ '.' :: extension.take trail.length ≠ ['.', '.'] :=
      fun parent => plain (endsInPoints_of_cut filled noPoint short shape split parent)
    have kept : fileName? (cutExtension path) = some (start ++ '.' :: extension.take trail.length) := by
      refine fileName?_eq_some_iff.2 ⟨?_, by rw [cut, left]⟩
      simp only [cut, left, isFileName, Bool.and_eq_true, bne_iff_ne]
      exact ⟨⟨List.ne_nil_of_length_pos (Nat.zero_lt_of_lt long), fun dot => by simp [dot] at long⟩,
        parentless⟩
    have same : directory (cutExtension path) = directory path := by
      rw [cut]
      exact directory_append_component (getLast?_directory path) noSlash
        (List.ne_nil_of_length_pos (Nat.zero_lt_of_lt long)) (fun dot => by simp [dot] at long)
    rw [withExtension, setExtension_eq kept, setExtension_eq named, same, stem_append filled noPoint',
      ← last, shape, stem_append filled noPoint]

/-- A path that names no file ends with a point or a separator, if with anything. -/
theorem getLast?_of_fileName?_eq_none (unnamed : fileName? path = none) :
    ∀ c ∈ path.getLast?, c = '.' ∨ c = '/' := by
  intro c last
  rw [List.getLast?_eq_head?_reverse] at last
  obtain ⟨rest, shape⟩ := List.head?_eq_some_iff.1 last
  by_contra other
  obtain ⟨noPoint, noSlash⟩ := not_or.1 other
  have kept : trimReversed ([c] ++ rest) = c :: rest :=
    trimReversed_component (List.cons_ne_nil _ _)
      (fun slash => noSlash (List.mem_singleton.1 slash).symm)
      (fun point => noPoint (List.singleton_inj.1 point))
  have component : lastComponent path = (rest.takeWhile (· ≠ '/')).reverse ++ [c] := by
    rw [lastComponent, trimmed, List.reverse_reverse, shape, ← List.singleton_append, kept,
      List.takeWhile_cons_of_pos (by simpa using noSlash), List.reverse_cons]
  have named : isFileName (lastComponent path) = true :=
    isFileName_of_getLast? (by rw [component, List.getLast?_concat]) noPoint
  simp [fileName?, named] at unnamed

end Path

namespace Options

/-- The name of the output: that of its file, or the whole path where the source or the header names no
file. A name such as `..x` is lost on the way to the header, of which two points are left. -/
def outputName (o : Options) : List Char :=
  match Path.fileName? o.sourcePath.toList, Path.fileName? o.headerPath.toList with
  | some name, some _ => name
  | _, _ => o.sourcePath.toList

/-- A header that is a file is included by its name. -/
theorem headerName_eq {o : Options} {name : List Char}
    (named : Path.fileName? o.headerPath.toList = some name) : o.headerName = String.ofList name := by
  unfold headerName
  rw [named]

/-- The header is included by the name of the output with another extension, or by a path that names
no file. -/
theorem headerName_cases (o : Options) :
    (∃ name, name ⊆ o.outputName ∧ o.headerName.toList = name ++ ".hpp".toList) ∨
      (o.headerName.toList ⊆ o.outputName ∧ Path.fileName? o.headerName.toList = none) := by
  have path : o.headerPath.toList =
      Path.setExtension "hpp".toList (Path.cutExtension o.sourcePath.toList) := String.toList_ofList
  cases cut : Path.fileName? (Path.cutExtension o.sourcePath.toList) with
  | some kept =>
    obtain ⟨-, last⟩ := Path.fileName?_eq_some_iff.1 cut
    have named : Path.fileName? o.headerPath.toList = some (Path.stem kept ++ '.' :: "hpp".toList) := by
      rw [path]
      exact Path.fileName?_setExtension cut (by decide) (by decide) (by decide)
    refine .inl ⟨Path.stem kept, ?_, ?_⟩
    · cases source : Path.fileName? o.sourcePath.toList with
      | none =>
        rw [Path.cutExtension, source] at cut
        cases source.symm.trans cut
      | some name =>
        obtain ⟨-, last'⟩ := Path.fileName?_eq_some_iff.1 source
        rw [outputName, source, named]
        intro c member
        exact last' ▸ (Path.lastComponent_cutExtension_prefix _).subset
          (last ▸ Path.stem_subset kept member)
    · have point : '.' :: "hpp".toList = ".hpp".toList := by decide
      rw [headerName_eq named, String.toList_ofList, point]
  | none =>
    have same : o.headerPath.toList = Path.cutExtension o.sourcePath.toList := by
      rw [path, Path.setExtension, cut]
    have unnamed : Path.fileName? o.headerPath.toList = none := by rw [same, cut]
    have name : o.headerName = o.headerPath := by
      unfold headerName
      rw [unnamed]
    have whole : o.outputName = o.sourcePath.toList := by
      rw [outputName, unnamed]
      cases Path.fileName? o.sourcePath.toList <;> rfl
    refine .inr ⟨?_, name ▸ unnamed⟩
    rw [name, same, whole]
    exact Path.cutExtension_subset _

/-- No character but those of the output's name gets into the name of the header. -/
theorem mem_headerName (o : Options) {c : Char} (member : c ∈ o.headerName.toList) :
    c ∈ o.outputName ∨ c ∈ ".hpp".toList := by
  obtain ⟨name, inside, shape⟩ | ⟨inside, -⟩ := o.headerName_cases
  · rw [shape] at member
    exact (List.mem_append.1 member).imp_left (inside ·)
  · exact .inl (inside member)

/-- A backslash would escape the quote behind the name. -/
theorem getLast?_headerName (o : Options) : o.headerName.toList.getLast? ≠ some '\\' := by
  obtain ⟨name, -, shape⟩ | ⟨-, unnamed⟩ := o.headerName_cases
  · have letter : ".hpp".toList.getLast? = some 'p' := by decide
    rw [shape, List.getLast?_append, letter]
    exact fun last => absurd (Option.some.inj last) (by decide)
  · intro last
    rcases Path.getLast?_of_fileName?_eq_none unnamed _ last with point | slash
    · cases point
    · cases slash

end Options

end CppPrinter
