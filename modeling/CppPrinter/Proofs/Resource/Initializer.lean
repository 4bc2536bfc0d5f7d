import CppPrinter.Proofs.Resource.Reading

/-!
# The lines of an initializer

The bytes of a resource are cut into pieces of sixteen, each piece is joined by commas, and the
pieces are joined by commas again at the ends of the lines. So all characters of an initializer are
the bytes joined by commas, and cutting at the commas gives the bytes back, however they were spread
over the lines (`elements?_initializer`, `isWrapped_initializer`).
-/

namespace CppPrinter

section Joining

variable {α : Type} {sep : List α}

/-- Two groups of texts are joined by joining each and putting one separator between. -/
theorem intercalate_append {xs ys : List (List α)} (someLeft : xs ≠ []) (someRight : ys ≠ []) :
    sep.intercalate (xs ++ ys) = sep.intercalate xs ++ sep ++ sep.intercalate ys := by
  induction xs with
  | nil => exact absurd rfl someLeft
  | cons x rest ih =>
    cases rest with
    | nil =>
      rw [List.singleton_append, List.intercalate_cons_of_ne_nil someRight,
        List.intercalate_singleton]
    | cons y rest =>
      rw [List.cons_append, List.intercalate_cons_of_ne_nil (List.append_ne_nil_of_left_ne_nil
        (List.cons_ne_nil y rest) ys), ih (List.cons_ne_nil y rest), List.intercalate_cons_cons]
      simp only [List.append_assoc]

/-- Joined texts joined again are all the texts joined, if no group of them is empty. -/
theorem intercalate_map_intercalate {groups : List (List (List α))} (filled : ∀ g ∈ groups, g ≠ []) :
    sep.intercalate (groups.map sep.intercalate) = sep.intercalate groups.flatten := by
  induction groups with
  | nil => rfl
  | cons g rest ih =>
    obtain ⟨here, later⟩ := List.forall_mem_cons.1 filled
    cases rest with
    | nil => simp
    | cons h rest =>
      have someLater : (h :: rest).flatten ≠ [] := by
        simp [(List.forall_mem_cons.1 later).1]
      have laterJoined : (h :: rest).map sep.intercalate ≠ [] := List.cons_ne_nil _ _
      rw [List.map_cons, List.intercalate_cons_of_ne_nil laterJoined, ih later]
      exact (intercalate_append here someLater).symm

theorem filter_intercalate (p : α → Bool) (xs : List (List α)) :
    (sep.intercalate xs).filter p = (sep.filter p).intercalate (xs.map (List.filter p)) := by
  induction xs with
  | nil => rfl
  | cons x rest ih =>
    cases rest with
    | nil => simp
    | cons y rest =>
      rw [List.intercalate_cons_cons, List.filter_append, List.filter_append, ih]
      exact List.intercalate_cons_cons.symm

/-- A joined text ends like the last of its texts. -/
theorem getLast?_intercalate (xs : List (List α)) {last : List α} (filled : last ≠ []) :
    (sep.intercalate (xs ++ [last])).getLast? = last.getLast? := by
  have ending : ∀ front : List α, (front ++ last).getLast? = last.getLast? := by
    intro front
    rw [List.getLast?_append, List.getLast?_eq_some_getLast filled, Option.some_or]
  by_cases empty : xs = []
  · rw [empty, List.nil_append, List.intercalate_singleton]
  · rw [intercalate_append empty (List.cons_ne_nil last []), List.intercalate_singleton, ending]

end Joining

/-- No piece is empty, and none is longer than the width. -/
theorem length_of_mem_chunks {α : Type} {width : Nat} (positive : 0 < width) {xs piece : List α}
    (member : piece ∈ chunks width xs) : piece ≠ [] ∧ piece.length ≤ width := by
  fun_induction chunks width xs with
  | case1 => cases member
  | case2 x rest ih =>
    rcases List.mem_cons.1 member with rfl | later
    · refine ⟨List.cons_ne_nil _ _, ?_⟩
      rw [List.length_cons, List.length_take]
      omega
    · exact ih later

/-- The characters of lines with commas between them are those of the lines, joined by commas. -/
theorem flatten_contents_commaLines (items : List String) :
    ((commaLines items).map Line.contents).flatten = [','].intercalate (items.map String.toList) := by
  fun_induction commaLines items with
  | case1 => rfl
  | case2 last => simp [Line.flush, Line.contents]
  | case3 item rest more ih =>
    have someLater : rest.map String.toList ≠ [] := by simpa using more
    rw [List.map_cons, List.flatten_cons, ih, List.map_cons,
      List.intercalate_cons_of_ne_nil someLater]
    simp [Line.flush, Line.contents]

/-- A line with commas between is the item, or the item and a comma. -/
theorem contents_of_mem_commaLines {items : List String} {line : Line}
    (member : line ∈ commaLines items) : ∃ item ∈ items,
      line.contents = item.toList ∨ line.contents = item.toList ++ [','] := by
  fun_induction commaLines items with
  | case1 => cases member
  | case2 last =>
    rw [List.mem_singleton.1 member]
    exact ⟨last, List.mem_singleton_self last, .inl rfl⟩
  | case3 item rest _ ih =>
    rcases List.mem_cons.1 member with rfl | later
    · exact ⟨item, List.mem_cons_self, .inr (by simp [Line.flush, Line.contents])⟩
    · obtain ⟨found, inside, shape⟩ := ih later
      exact ⟨found, List.mem_cons_of_mem _ inside, shape⟩

/-- All lines but the last end in a comma. -/
theorem getLast?_of_mem_dropLast_commaLines {items : List String} {line : Line}
    (member : line ∈ (commaLines items).dropLast) : line.contents.getLast? = some ',' := by
  fun_induction commaLines items with
  | case1 => cases member
  | case2 last => cases member
  | case3 item rest more ih =>
    have someLater : commaLines rest ≠ [] := by
      cases rest with
      | nil => exact absurd rfl more
      | cons x xs => cases xs <;> simp [commaLines]
    rw [List.dropLast_cons_of_ne_nil someLater] at member
    rcases List.mem_cons.1 member with rfl | later
    · simp [Line.flush, Line.contents]
    · exact ih later

/-- The last line is the last item. -/
theorem getLast?_commaLines (items : List String) :
    (commaLines items).getLast? = items.getLast?.map .flush := by
  fun_induction commaLines items with
  | case1 => rfl
  | case2 last => rfl
  | case3 item rest more ih =>
    cases rest with
    | nil => exact absurd rfl more
    | cons x xs =>
      rw [List.getLast?_cons, ih, List.getLast?_cons_cons, List.getLast?_cons]
      rfl

/-- The digits of a byte. -/
def byteDigits (b : UInt8) : List Char := (toString b).toList

theorem isDigit_of_mem_byteDigits {b : UInt8} {c : Char} (member : c ∈ byteDigits b) :
    c.isDigit = true := isDigit_of_mem_repr member

theorem byteDigits_ne_nil (b : UInt8) : byteDigits b ≠ [] := by
  obtain ⟨first, rest, shape, -⟩ := repr_digits b.toNat
  exact ne_of_eq_of_ne shape (List.cons_ne_nil first rest)

/-- The digits of bytes are read back. -/
theorem number?_byteDigits (b : UInt8) : number? (byteDigits b) = some b.toNat := by
  rw [number?, byteDigits, String.ofList_toList]
  exact Nat.toNat?_repr b.toNat

theorem toList_byteLine (bytes : List UInt8) :
    (byteLine bytes).toList = [',', ' '].intercalate (bytes.map byteDigits) := by
  rw [byteLine, String.toList_intercalate, List.map_map]
  rfl

/-- Without its spaces a line of bytes is their digits joined by commas. -/
theorem filter_byteLine (bytes : List UInt8) :
    (byteLine bytes).toList.filter (· != ' ') = [','].intercalate (bytes.map byteDigits) := by
  have noSpace : ∀ b, (byteDigits b).filter (· != ' ') = byteDigits b := by
    intro b
    refine List.filter_eq_self.2 fun c member => ?_
    have digit := isDigit_of_mem_byteDigits member
    rw [bne_iff_ne]
    rintro rfl
    cases digit
  rw [toList_byteLine, filter_intercalate, List.map_map]
  simp [Function.comp_def, noSpace]

namespace InitializedArray

/-- Cutting digits that commas join gives the digits back. -/
theorem splitOn_byteDigits {bytes : List UInt8} (filled : bytes ≠ []) :
    ([','].intercalate (bytes.map byteDigits)).splitOn ',' = bytes.map byteDigits := by
  refine List.splitOn_intercalate ',' ?_ (by simpa using filled)
  intro digits member comma
  obtain ⟨b, -, rfl⟩ := List.mem_map.1 member
  cases isDigit_of_mem_byteDigits comma

/-- The numbers on a line of bytes, with a comma behind it or without. -/
theorem pieces_byteLine {bytes : List UInt8} (filled : bytes ≠ []) {line : List Char}
    (shape : line = (byteLine bytes).toList ∨ line = (byteLine bytes).toList ++ [',']) :
    (pieces line).filter (· ≠ []) = bytes.map byteDigits := by
  have kept : (bytes.map byteDigits).filter (· ≠ []) = bytes.map byteDigits := by
    refine List.filter_eq_self.2 fun digits member => ?_
    obtain ⟨b, -, rfl⟩ := List.mem_map.1 member
    simpa using byteDigits_ne_nil b
  rcases shape with rfl | rfl
  · rw [pieces, filter_byteLine, splitOn_byteDigits filled, kept]
  · have some_digits : bytes.map byteDigits ≠ [] := by simpa using filled
    have cut : ([','].intercalate (bytes.map byteDigits ++ [[]])).splitOn ',' =
        bytes.map byteDigits ++ [[]] := by
      refine List.splitOn_intercalate ',' ?_ (by simp)
      intro digits member comma
      rcases List.mem_append.1 member with inside | empty
      · obtain ⟨b, -, rfl⟩ := List.mem_map.1 inside
        cases isDigit_of_mem_byteDigits comma
      · rw [List.mem_singleton.1 empty] at comma
        cases comma
    rw [pieces, List.filter_append, filter_byteLine]
    change List.filter _ (([','].intercalate (bytes.map byteDigits) ++ [',']).splitOn ',') = _
    have behind : [','].intercalate (bytes.map byteDigits ++ [[]]) =
        [','].intercalate (bytes.map byteDigits) ++ [','] := by
      rw [intercalate_append some_digits (List.cons_ne_nil [] []), List.intercalate_singleton,
        List.append_nil]
    rw [← behind, cut, List.filter_append, kept]
    simp

end InitializedArray

/-- The lines between the braces of a resource. -/
def initializer (bytes : List UInt8) : List (List Char) :=
  (commaLines ((chunks bytesPerLine bytes).map byteLine)).map Line.contents

/-- A line of an initializer holds one piece of the bytes. -/
theorem exists_chunk_of_mem_initializer {bytes : List UInt8} {line : List Char}
    (member : line ∈ initializer bytes) : ∃ piece ∈ chunks bytesPerLine bytes,
      line = (byteLine piece).toList ∨ line = (byteLine piece).toList ++ [','] := by
  obtain ⟨l, inside, rfl⟩ := List.mem_map.1 member
  obtain ⟨item, listed, shape⟩ := contents_of_mem_commaLines inside
  obtain ⟨piece, cut, rfl⟩ := List.mem_map.1 listed
  exact ⟨piece, cut, shape⟩

/-- The characters of an initializer are digits, commas and spaces. -/
theorem of_mem_initializer {bytes : List UInt8} {line : List Char} (member : line ∈ initializer bytes)
    {c : Char} (inside : c ∈ line) : c.isDigit = true ∨ c = ',' ∨ c = ' ' := by
  have onLine : ∀ (piece : List UInt8), c ∈ (byteLine piece).toList →
      c.isDigit = true ∨ c = ',' ∨ c = ' ' := by
    intro piece here
    rw [toList_byteLine] at here
    induction piece with
    | nil => cases here
    | cons b rest ih =>
      cases rest with
      | nil =>
        rw [List.map_singleton, List.intercalate_singleton] at here
        exact .inl (isDigit_of_mem_byteDigits here)
      | cons b' rest =>
        rw [List.map_cons, List.map_cons, List.intercalate_cons_cons, List.append_assoc] at here
        simp only [List.mem_append, List.mem_cons, List.not_mem_nil, or_false] at here
        rcases here with digit | separator | later
        · exact .inl (isDigit_of_mem_byteDigits digit)
        · exact .inr separator
        · exact ih later
  obtain ⟨piece, -, rfl | rfl⟩ := exists_chunk_of_mem_initializer member
  · exact onLine piece inside
  · rcases List.mem_append.1 inside with here | comma
    · exact onLine piece here
    · exact .inr (.inl (List.mem_singleton.1 comma))

/-- Spaces left out, an initializer is the digits of all bytes joined by commas. -/
theorem filter_flatten_initializer (bytes : List UInt8) :
    (initializer bytes).flatten.filter (· != ' ') = [','].intercalate (bytes.map byteDigits) := by
  have filled : ∀ digits ∈ (chunks bytesPerLine bytes).map (List.map byteDigits), digits ≠ [] := by
    intro digits member
    obtain ⟨piece, cut, rfl⟩ := List.mem_map.1 member
    simpa using (length_of_mem_chunks (by decide) cut).1
  calc (initializer bytes).flatten.filter (· != ' ')
      = [','].intercalate
          (((chunks bytesPerLine bytes).map fun piece =>
            (byteLine piece).toList.filter (· != ' '))) := by
        rw [initializer, flatten_contents_commaLines, filter_intercalate, List.map_map, List.map_map]
        rfl
    _ = [','].intercalate
          (((chunks bytesPerLine bytes).map (List.map byteDigits)).map [','].intercalate) := by
        simp only [filter_byteLine, List.map_map, Function.comp_def]
    _ = [','].intercalate (bytes.map byteDigits) := by
        rw [intercalate_map_intercalate filled, ← List.map_flatten, flatten_chunks]

/-- Cutting an initializer at the commas gives the bytes back. -/
theorem elements?_initializer (head : ArrayHead) (bytes : List UInt8) :
    InitializedArray.elements? ⟨head, initializer bytes⟩ = some (bytes.map UInt8.toNat) := by
  unfold InitializedArray.elements?
  cases bytes with
  | nil => simp [initializer, chunks, commaLines]
  | cons b rest =>
    have filled : (initializer (b :: rest)).flatten ≠ [] := by
      intro empty
      have joined := filter_flatten_initializer (b :: rest)
      rw [empty] at joined
      have cut := InitializedArray.splitOn_byteDigits (List.cons_ne_nil b rest)
      rw [← joined] at cut
      exact byteDigits_ne_nil b (List.cons.inj cut).1.symm
    rw [if_neg filled, InitializedArray.pieces, filter_flatten_initializer,
      InitializedArray.splitOn_byteDigits (List.cons_ne_nil b rest)]
    generalize b :: rest = bytes
    induction bytes with
    | nil => rfl
    | cons b rest ih => simp [List.mapM_cons, number?_byteDigits, ih]

theorem isWrapped_initializer (head : ArrayHead) (bytes : List UInt8) :
    InitializedArray.IsWrapped ⟨head, initializer bytes⟩ where
  short := by
    intro line member
    obtain ⟨piece, cut, shape⟩ := exists_chunk_of_mem_initializer member
    obtain ⟨filled, short⟩ := length_of_mem_chunks (by decide) cut
    rw [InitializedArray.pieces_byteLine filled shape, List.length_map]
    exact short
  continued := by
    intro line member
    rw [initializer, ← List.map_dropLast] at member
    obtain ⟨l, inside, rfl⟩ := List.mem_map.1 member
    exact getLast?_of_mem_dropLast_commaLines inside
  ended := by
    intro line last comma
    rw [initializer, List.getLast?_map, getLast?_commaLines, List.getLast?_map] at last
    rw [Option.map_map, Option.map_map] at last
    obtain ⟨piece, ends, rfl⟩ := Option.map_eq_some_iff.1 last
    have filled := (length_of_mem_chunks (by decide) (List.mem_of_getLast? ends)).1
    obtain ⟨front, b, rfl⟩ : ∃ front b, piece = front ++ [b] :=
      ⟨piece.dropLast, piece.getLast filled, (List.dropLast_append_getLast filled).symm⟩
    change (byteLine (front ++ [b])).toList.getLast? = some ',' at comma
    rw [toList_byteLine, List.map_append, List.map_singleton,
      getLast?_intercalate _ (byteDigits_ne_nil b)] at comma
    cases isDigit_of_mem_byteDigits (List.mem_of_getLast? comma)

end CppPrinter
