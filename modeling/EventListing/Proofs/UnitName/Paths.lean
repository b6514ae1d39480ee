-- Paths of files. The path of a member keeps the three parts of its qualified name
-- apart, so no two members share a path. A stream file loses the segments that are a
-- dot and keeps all others in their order, so its path is a path already.
import EventListing.Proofs.Text.OneLine
import EventListing.UnitName.Path

namespace EventListing

namespace UnitName

open Text

/-! ## Members -/

/-- The parts of a qualified name. The slash divides the library from the file, and the
parenthesis the file from the member. -/
structure MemberName where
  library : String
  file : String
  member : String
  library_noSlash : '/' ∉ library.toList
  file_noSlash : '/' ∉ file.toList
  file_noParen : '(' ∉ file.toList
  member_noSlash : '/' ∉ member.toList
  member_noParen : '(' ∉ member.toList

namespace MemberName

/-- The name as a listing writes it. -/
def text (n : MemberName) : String := n.library ++ "/" ++ n.file ++ "(" ++ n.member ++ ")"

/-- The parts of the path. -/
def parts (n : MemberName) : List (List Char) :=
  [n.library.toList, n.file.toList, n.member.toList]

theorem toList_text (n : MemberName) :
    n.text.toList =
      n.library.toList ++ '/' :: (n.file.toList ++ '(' :: n.member.toList ++ [')']) := by
  simp [text, String.toList_append]

theorem noSlash (n : MemberName) : ∀ part ∈ n.parts, '/' ∉ part := by
  simp [parts, n.library_noSlash, n.file_noSlash, n.member_noSlash]

/-- What stands between the slash and the last character. -/
theorem segments_object (n : MemberName) :
    segments '(' (n.file.toList ++ '(' :: n.member.toList) =
      [n.file.toList, n.member.toList] := by
  rw [segments_append_sep, segments_of_not_mem n.file_noParen,
    segments_of_not_mem n.member_noParen]
  rfl

theorem segments_text (n : MemberName) :
    segments '/' n.text.toList =
      [n.library.toList, n.file.toList ++ '(' :: n.member.toList ++ [')']] := by
  have hobject : '/' ∉ n.file.toList ++ '(' :: n.member.toList ++ [')'] := by
    simp [n.file_noSlash, n.member_noSlash]
  rw [toList_text, segments_append_sep, segments_of_not_mem n.library_noSlash,
    segments_of_not_mem hobject]
  rfl

theorem path_text (n : MemberName) : path n.text = String.ofList (join '/' n.parts) := by
  have hqualified : isQualified n.text = true := by
    unfold isQualified
    rw [toList_text]
    simp [List.getLast?_append, List.getLast?_cons]
  unfold path memberPath
  rw [if_pos hqualified]
  simp only [segments_text, List.getElem?_cons_succ, List.getElem?_cons_zero, Option.getD_some,
    List.dropLast_concat, segments_object, List.headD_cons]
  rfl

/-- The parts are the segments of the path. -/
theorem segments_path (n : MemberName) : segments '/' (path n.text).toList = n.parts := by
  rw [path_text, String.toList_ofList]
  exact segments_join (List.cons_ne_nil _ _) n.noSlash

theorem eq_of_parts_eq {m n : MemberName} (h : m.parts = n.parts) : m = n := by
  obtain ⟨library, file, member⟩ := m
  obtain ⟨library', file', member'⟩ := n
  simpa [parts, String.toList_inj] using h

end MemberName

/-! ## Stream files -/

/-- The segments between the slashes that are no dot. -/
def keptSegments (name : String) : List (List Char) :=
  (name.toList.splitOn '/').filter (· != ['.'])

theorem toList_streamPath (name : String) :
    (streamPath name).toList = join '/' (keptSegments name) := by
  unfold streamPath keptSegments
  rw [String.toList_ofList, segments_eq_splitOn]

/-- A path has a segment also when no segment of the name is left. -/
theorem splitOn_streamPath (name : String) :
    (streamPath name).toList.splitOn '/' =
      if keptSegments name = [] then [[]] else keptSegments name := by
  rw [toList_streamPath, ← segments_eq_splitOn]
  split
  · rename_i hnone
    rw [hnone]
    rfl
  · rename_i hsome
    refine segments_join hsome fun part hpart => ?_
    have hsegment := (List.mem_filter.mp hpart).1
    rw [← segments_eq_splitOn] at hsegment
    exact (of_mem_segments hsegment).2

theorem dot_not_mem_streamPath (name : String) :
    ['.'] ∉ (streamPath name).toList.splitOn '/' := by
  rw [splitOn_streamPath]
  split <;> simp [keptSegments]

theorem streamPath_streamPath (name : String) :
    streamPath (streamPath name) = streamPath name := by
  have hkept : keptSegments (streamPath name) = (streamPath name).toList.splitOn '/' := by
    refine List.filter_eq_self.mpr fun part hpart => ?_
    have hne : part ≠ ['.'] := fun he => dot_not_mem_streamPath name (he ▸ hpart)
    simpa using hne
  rw [← String.toList_inj, toList_streamPath, hkept, ← segments_eq_splitOn, join_segments]

/-! ## The law -/

/-- A qualified name becomes the path of its three parts, and no two names become one
path. The path of a stream file has the segments of its name that are no dot, in their
order, or one empty segment when none is left. So it is a path already. -/
theorem paths_keep_files_apart :
    (∀ n : MemberName, path n.text = n.library ++ "/" ++ n.file ++ "/" ++ n.member) ∧
    (Function.Injective fun n : MemberName => path n.text) ∧
    ∀ name : String,
      (streamPath name).toList.splitOn '/' =
        (if keptSegments name = [] then [[]] else keptSegments name) ∧
      streamPath (streamPath name) = streamPath name ∧
      ['.'] ∉ (streamPath name).toList.splitOn '/' := by
  refine ⟨?_, ?_, ?_⟩
  · intro n
    rw [n.path_text, ← String.toList_inj]
    simp [join, MemberName.parts, List.intercalate]
  · intro m n hpath
    apply MemberName.eq_of_parts_eq
    rw [← m.segments_path, ← n.segments_path]
    exact congrArg (fun name => segments '/' name.toList) hpath
  · exact fun name => ⟨splitOn_streamPath name, streamPath_streamPath name,
      dot_not_mem_streamPath name⟩

/-- A parenthesis may close inside a part. -/
def closedInMember : MemberName :=
  ⟨"LIB", "SRC", "A)", by decide, by decide, by decide, by decide, by decide⟩

/-- The parts of `closedInMember` with the parenthesis in the other one. -/
def closedInFile : MemberName :=
  ⟨"LIB", "SRC)", "A", by decide, by decide, by decide, by decide, by decide⟩

theorem closed_parts_stay_apart :
    path "LIB/SRC(A))" = "LIB/SRC/A)" ∧ path "LIB/SRC)(A)" = "LIB/SRC)/A" ∧
    path closedInMember.text ≠ path closedInFile.text := by
  obtain ⟨hpath, hinjective, -⟩ := paths_keep_files_apart
  refine ⟨hpath closedInMember, hpath closedInFile, fun he => ?_⟩
  exact absurd (congrArg MemberName.file (hinjective he)) (by decide)

/-- Nothing is left of a path of dots, and an empty segment stays. -/
example : streamPath "./." = "" ∧ streamPath "./a//./b/" = "a//b/" := by decide +kernel

end UnitName

end EventListing
