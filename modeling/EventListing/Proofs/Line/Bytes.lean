-- Columns in bytes. The byte of an index is the number of bytes of the characters before
-- it, so it lies between two characters, and a later index has no earlier byte. What is
-- cut out between two such bytes is what stands between the indices.
import EventListing.Line.Bytes

namespace EventListing

namespace Text

theorem utf8ByteSize_ofList_cons (c : Char) (cs : List Char) :
    (String.ofList (c :: cs)).utf8ByteSize = c.utf8Size + (String.ofList cs).utf8ByteSize := by
  rw [String.ofList_cons, String.utf8ByteSize_append, String.utf8ByteSize_singleton]

/-- The bytes of the characters before an index lie before the byte of that index. -/
theorem getD_byteStarts (cs : List Char) (start index : Nat) :
    (byteStarts start cs)[index]?.getD (start + (String.ofList cs).utf8ByteSize) =
      start + (String.ofList (cs.take index)).utf8ByteSize := by
  induction cs generalizing start index with
  | nil => simp [byteStarts]
  | cons c cs ih =>
    cases index with
    | zero => simp [byteStarts]
    | succ index =>
      rw [utf8ByteSize_ofList_cons, List.take_succ_cons, utf8ByteSize_ofList_cons, ← Nat.add_assoc,
        ← Nat.add_assoc]
      exact ih (start + c.utf8Size) index

theorem byteAt_eq (text : String) (index : Nat) :
    byteAt text index = (String.ofList (text.toList.take index)).utf8ByteSize := by
  have h := getD_byteStarts text.toList 0 index
  rwa [String.ofList_toList, Nat.zero_add, Nat.zero_add] at h

theorem byteAt_of_length_le {text : String} {index : Nat} (h : text.toList.length ≤ index) :
    byteAt text index = text.utf8ByteSize := by
  rw [byteAt_eq, List.take_of_length_le h, String.ofList_toList]

theorem isValid_byteAt (text : String) (index : Nat) :
    String.Pos.Raw.IsValid text ⟨byteAt text index⟩ :=
  String.Pos.Raw.isValid_iff_exists_take_toList.mpr ⟨index, byteAt_eq text index⟩

/-- The characters before an index, and those from there up to a later one. -/
theorem ofList_take_append (cs : List Char) {i j : Nat} (h : i ≤ j) :
    String.ofList (cs.take i) ++ String.ofList ((cs.drop i).take (j - i)) =
      String.ofList (cs.take j) := by
  rw [← String.ofList_append, ← List.take_add, Nat.add_sub_cancel' h]

theorem byteAt_le_byteAt (text : String) {i j : Nat} (h : i ≤ j) :
    byteAt text i ≤ byteAt text j := by
  rw [byteAt_eq, byteAt_eq, ← ofList_take_append text.toList h, String.utf8ByteSize_append]
  exact Nat.le_add_right _ _

/-- A text can be cut between its parts. -/
theorem slice?_append (front part back : String) :
    slice? (front ++ part ++ back) front.utf8ByteSize (front ++ part).utf8ByteSize =
      some part := by
  have hstart : String.Pos.Raw.IsValid (front ++ part ++ back) front.rawEndPos :=
    String.Pos.Raw.isValid_iff_exists_append.mpr
      ⟨front, part ++ back, String.append_assoc, rfl⟩
  have hstop : String.Pos.Raw.IsValid (front ++ part ++ back) (front ++ part).rawEndPos :=
    String.Pos.Raw.isValid_iff_exists_append.mpr ⟨front ++ part, back, rfl, rfl⟩
  have hle : front.utf8ByteSize ≤ (front ++ part).utf8ByteSize := by
    rw [String.utf8ByteSize_append]
    exact Nat.le_add_right _ _
  obtain ⟨_, hcopy⟩ := String.copy_slice_eq_iff_splits.mpr
    ⟨front, back,
      (⟨String.append_assoc, rfl⟩ : String.Pos.Splits (String.pos _ _ hstart) _ _),
      (⟨rfl, rfl⟩ : String.Pos.Splits (String.pos _ _ hstop) _ _)⟩
  unfold slice?
  rw [dif_pos ⟨hstart, hstop, hle⟩]
  exact congrArg some hcopy

/-- Between the bytes of two indices stand the characters with the indices between. -/
theorem slice?_byteAt (text : String) {i j : Nat} (h : i ≤ j) :
    slice? text (byteAt text i) (byteAt text j) =
      some (String.ofList ((text.toList.drop i).take (j - i))) := by
  have hfront := ofList_take_append text.toList h
  have htext : String.ofList (text.toList.take i) ++
      String.ofList ((text.toList.drop i).take (j - i)) ++
        String.ofList (text.toList.drop j) = text := by
    rw [hfront, ← String.ofList_append, List.take_append_drop, String.ofList_toList]
  have hslice := slice?_append (String.ofList (text.toList.take i))
    (String.ofList ((text.toList.drop i).take (j - i))) (String.ofList (text.toList.drop j))
  rwa [htext, hfront, ← byteAt_eq, ← byteAt_eq] at hslice

/-- No text has more characters than bytes. -/
theorem length_le_utf8ByteSize (text : String) : text.toList.length ≤ text.utf8ByteSize := by
  rw [← text.ofList_toList, String.toList_ofList]
  induction text.toList with
  | nil => exact Nat.zero_le _
  | cons c cs ih =>
    rw [utf8ByteSize_ofList_cons, List.length_cons]
    have hpos := c.utf8Size_pos
    omega

end Text

namespace Line

open Text

variable (line : Line) (offset width : UInt64)

theorem toList_text : line.text.toList = line.chars := String.toList_ofList

theorem le_addSize : offset.toNat ≤ (Saturating.addSize offset width).toNat := by
  have hoffset := offset.toNat_lt_size
  rw [Saturating.toNat_addSize]
  omega

/-- No column goes on behind the greatest size, so nothing is lost where a sum stops. -/
theorem columnSlice?_eq (hsize : line.text.utf8ByteSize < UInt64.size) :
    line.columnSlice? offset width =
      some (String.ofList (line.column offset.toNat width.toNat)) := by
  have hlength : line.chars.length < UInt64.size :=
    Nat.lt_of_le_of_lt (line.toList_text ▸ length_le_utf8ByteSize line.text) hsize
  unfold columnSlice? startByte stopByte column
  rw [slice?_byteAt _ (le_addSize offset width), toList_text, Saturating.toNat_addSize]
  rcases Nat.lt_or_ge (offset.toNat + width.toNat) UInt64.size with hsum | hsum
  · rw [Nat.min_eq_left (by omega), Nat.add_sub_cancel_left]
  · have hrest : (line.chars.drop offset.toNat).length ≤ UInt64.size - 1 - offset.toNat := by
      rw [List.length_drop]
      omega
    rw [Nat.min_eq_right (by omega), List.take_of_length_le hrest,
      List.take_of_length_le (Nat.le_trans hrest (by omega))]

theorem restSlice?_eq :
    line.restSlice? offset = some (String.ofList (line.restFrom offset.toNat)) := by
  have hend : line.text.utf8ByteSize =
      byteAt line.text (max offset.toNat line.chars.length) :=
    (byteAt_of_length_le (line.toList_text ▸ Nat.le_max_right _ _)).symm
  have hrest : (line.chars.drop offset.toNat).length ≤
      max offset.toNat line.chars.length - offset.toNat := by
    rw [List.length_drop]
    omega
  unfold restSlice? startByte restFrom
  rw [hend, slice?_byteAt _ (Nat.le_max_left _ _), toList_text, List.take_of_length_le hrest]

/-! ## The law -/

/-- The bytes of a column lie between characters, in order and inside the line, for any
sizes of 64 bits. So the column is cut out, and it is what stands at its indices. The
column before it, the column and the rest behind it are the whole line. A text is kept in
memory, so its own size is one of 64 bits. -/
theorem columns_are_cut_between_characters (hsize : line.text.utf8ByteSize < UInt64.size) :
    String.Pos.Raw.IsValid line.text ⟨line.startByte offset⟩ ∧
    String.Pos.Raw.IsValid line.text ⟨line.stopByte offset width⟩ ∧
    line.startByte offset ≤ line.stopByte offset width ∧
    line.stopByte offset width ≤ line.text.utf8ByteSize ∧
    line.columnSlice? offset width =
      some (String.ofList (line.column offset.toNat width.toNat)) ∧
    line.restSlice? offset = some (String.ofList (line.restFrom offset.toNat)) ∧
    (∀ i : Nat, (line.column offset.toNat width.toNat)[i]? =
      if i < width.toNat then line.chars[offset.toNat + i]? else none) ∧
    (offset.toNat + width.toNat < UInt64.size →
      ∃ before column rest, line.columnSlice? 0 offset = some before ∧
        line.columnSlice? offset width = some column ∧
        line.restSlice? (offset + width) = some rest ∧
        before ++ column ++ rest = line.text) := by
  refine ⟨isValid_byteAt _ _, isValid_byteAt _ _, byteAt_le_byteAt _ (le_addSize offset width),
    (isValid_byteAt _ _).le_utf8ByteSize, line.columnSlice?_eq offset width hsize,
    line.restSlice?_eq offset, ?_, ?_⟩
  · intro i
    rw [column, List.getElem?_take, List.getElem?_drop]
  · intro hsum
    have hstop : (offset + width).toNat = offset.toNat + width.toNat := by
      rw [UInt64.toNat_add, Nat.mod_eq_of_lt hsum]
    refine ⟨_, _, _, line.columnSlice?_eq 0 offset hsize, line.columnSlice?_eq offset width hsize,
      line.restSlice?_eq (offset + width), ?_⟩
    rw [hstop, ← String.ofList_append, ← String.ofList_append]
    unfold column restFrom text
    rw [UInt64.toNat_zero, List.drop_zero, ← List.take_add, List.take_append_drop]

/-- Characters of two, three and four bytes. -/
def wide : Line := pad "ÄÖ €😀 abc".toList

theorem wide_columns : wide.text.utf8ByteSize < UInt64.size ∧
    wide.startByte 1 = 2 ∧ wide.stopByte 1 4 = 12 ∧
    wide.columnSlice? 1 4 = some "Ö €😀" ∧
    wide.columnSlice? 6 18446744073709551615 =
      some (String.ofList ("abc".toList ++ List.replicate 141 ' ')) := by
  have hsize : wide.text.utf8ByteSize < UInt64.size := by decide +kernel
  obtain ⟨-, -, -, -, hinside, -⟩ := columns_are_cut_between_characters wide 1 4 hsize
  obtain ⟨-, -, -, -, hbehind, -⟩ :=
    columns_are_cut_between_characters wide 6 18446744073709551615 hsize
  refine ⟨hsize, ?_, ?_, hinside.trans ?_, hbehind.trans ?_⟩
  · decide +kernel
  · decide +kernel
  · decide +kernel
  · decide +kernel

end Line

end EventListing
