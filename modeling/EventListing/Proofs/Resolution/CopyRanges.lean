-- The ranges of copied members. Every file start leaves a range that waits, but only
-- the file end of an included member takes one, so those of roots pile up. In a
-- listing that nests well they lie below those of the open included members, and a
-- file end takes the range of the file that it closes.
import EventListing.Proofs.Record.WellNested
import EventListing.Proofs.Resolution.Accepted

namespace EventListing

namespace Resolution.Correction

open Record

/-- The range that a file start leaves waiting for a file end. -/
def waiting (f : Record.FileStart) : Option LineRange := f.line.map (⟨·, 0, none⟩)

/-! ## One file end -/

section FileEnd

variable {s : Correction} {r : Record.FileEnd}

/-- A copied member's range goes to the innermost open file, if there are two and
the precompiler's unit is known. -/
theorem rangesOf_addCopyRange (s : Correction) (range : LineRange) (id : FileId) :
    (s.addCopyRange range).rangesOf id =
      s.rangesOf id ++
        if s.files.contains FileId.baseUnit ∧ 2 ≤ s.openFiles.length ∧
          s.openFiles.head? = some id ∧ s.files.contains id then [range] else [] := by
  unfold addCopyRange
  split
  · rename_i including other more hopen
    simp only [hopen, List.length_cons, List.head?_cons, Option.some.injEq]
    split
    · rename_i hbase
      simp only [rangesOf, OrderedMap.get?_modify]
      by_cases hid : id = including
      · subst hid
        have hknown : s.files.contains id = (s.files.get? id).isSome := rfl
        cases hfile : s.files.get? id <;> simp [hbase, hknown, hfile]
      · have hid' : ¬ including = id := fun e => hid e.symm
        simp [hid, hid']
    · rename_i hbase
      simp [hbase]
  · rename_i hfew
    have hlength : ¬ 2 ≤ s.openFiles.length := by
      intro hle
      rcases hopen : s.openFiles with _ | ⟨id, _ | ⟨other, more⟩⟩
      · simp [hopen] at hle
      · simp [hopen] at hle
      · exact hfew _ _ _ hopen
    simp [hlength]

theorem openRanges_addCopyRange (s : Correction) (range : LineRange) :
    (s.addCopyRange range).openRanges = s.openRanges := by
  unfold addCopyRange
  split
  · split <;> rfl
  · rfl

/-- The file end of a root takes no range. -/
theorem closeFile_of_root (h : s.includeAt r.fileId = false) :
    s.closeFile r = { s with openFiles := s.openFiles.tail } := by
  unfold includeAt at h
  unfold closeFile
  simp only [h, Bool.false_eq_true, if_false]

/-- That of an included member takes the last range that waits. -/
theorem closeFile_of_include (h : s.includeAt r.fileId) (opened : Option LineRange)
    (rest : List (Option LineRange)) :
    s.openRanges = opened :: rest →
      s.closeFile r = match opened, r.length with
        | some opened, some length =>
          ({ s with openFiles := s.openFiles.tail, openRanges := rest } : Correction).addCopyRange
            (copyRange r.fileId opened length)
        | _, _ => { s with openFiles := s.openFiles.tail, openRanges := rest } := by
  intro hwaiting
  unfold includeAt at h
  unfold closeFile
  cases opened <;> cases r.length <;> simp only [h, if_true, hwaiting]

end FileEnd

/-! ## The stacks of the pass -/

theorem stacks_addError (s : Correction) (r : Record.Error) :
    (s.addError r).openFiles = s.openFiles ∧ (s.addError r).openRanges = s.openRanges := by
  unfold addError
  split
  · exact ⟨rfl, rfl⟩
  · split <;> exact ⟨rfl, rfl⟩

theorem stacks_addExpansion (s : Correction) (r : Record.Expansion) :
    (s.addExpansion r).openFiles = s.openFiles ∧ (s.addExpansion r).openRanges = s.openRanges := by
  unfold addExpansion
  split <;> exact ⟨rfl, rfl⟩

theorem openFiles_closeFile (s : Correction) (r : Record.FileEnd) :
    (s.closeFile r).openFiles = s.openFiles.tail := by
  have hcopy : ∀ (t : Correction) (range : LineRange),
      (t.addCopyRange range).openFiles = t.openFiles := by
    intro t range
    unfold addCopyRange
    split
    · split <;> rfl
    · rfl
  unfold closeFile
  simp only
  split
  · split
    · rfl
    · split
      · exact hcopy _ _
      · rfl
  · rfl

/-- The pass knows which files are open. -/
theorem openFiles_foldl (records before : List Record) :
    (before.foldl (apply records) start).openFiles = (openStarts before).map (·.fileId) := by
  induction before using List.reverseRecOn with
  | nil => rfl
  | append_singleton before record ih =>
    rw [List.foldl_append, List.foldl_cons, List.foldl_nil, openStarts_concat]
    cases record with
    | fileStart r => exact congrArg (r.fileId :: ·) ih
    | fileEnd r =>
      rw [apply, openFiles_closeFile, ih, openAfter, List.map_tail]
    | expansion r => exact (stacks_addExpansion _ r).1.trans ih
    | error r => exact (stacks_addError _ r).1.trans ih
    | processor | namePart | ignored | unrecognized => exact ih

section WellNested

variable {before after : List Record} {r : Record.FileEnd} {f : Record.FileStart}
  {outer : List Record.FileStart}

/-- At a file end, the pass knows of what kind the file is that it closes. -/
theorem includeAt_of_fileEnd (records : List Record)
    (h : WellNested (before ++ .fileEnd r :: after)) (hopen : openStarts before = f :: outer) :
    (before.foldl (apply records) start).includeAt r.fileId = f.isInclude := by
  obtain ⟨f', outer', hopen', hid⟩ := h.openStarts_of_fileEnd
  rw [hopen] at hopen'
  obtain ⟨rfl, rfl⟩ := List.cons_eq_cons.mp hopen'
  have hf : f ∈ fileStarts before := openStarts_subset before (hopen ▸ List.mem_cons_self)
  have hknown : f.fileId ∈ openings before :=
    List.mem_filterMap.mpr ⟨_, mem_fileStarts.mp hf, rfl⟩
  obtain ⟨g, hg⟩ := Option.isSome_iff_exists.mp (isSome_firstStart?.mpr hknown)
  obtain ⟨hmem, hgid⟩ := UnitName.of_firstStart? hg
  rw [includeAt_foldl, ← hid, hg]
  exact h.left.isInclude_eq (mem_fileStarts.mpr hmem) hf hgid

/-- The ranges of the open included members wait on top of all others. -/
theorem openRanges_foldl (records : List Record) (h : WellNested before) :
    ∃ stale, (before.foldl (apply records) start).openRanges =
      ((openStarts before).filter (·.isInclude)).map waiting ++ stale := by
  induction before using List.reverseRecOn with
  | nil => exact ⟨[], rfl⟩
  | append_singleton before record ih =>
    obtain ⟨stale, hstale⟩ := ih h.left
    rw [List.foldl_append, List.foldl_cons, List.foldl_nil, openStarts_concat]
    set s := before.foldl (apply records) start with hs
    cases record with
    | fileStart r =>
      have hopened : (s.openFile records r).openRanges = waiting r :: s.openRanges := rfl
      rw [apply, hopened, hstale, openAfter]
      cases hkind : r.isInclude with
      | true =>
        rw [List.filter_cons_of_pos hkind]
        exact ⟨stale, rfl⟩
      | false =>
        -- no included member is open around a root
        have hnone : (openStarts before).filter (·.isInclude) = [] := by
          refine List.filter_eq_nil_iff.mpr fun f hf => ?_
          have hlast : NestsBehind before (.fileStart r) := h.nestsBehind
          simp [hlast.2 hkind f hf]
        rw [List.filter_cons_of_neg (by simp [hkind]), hnone]
        exact ⟨waiting r :: stale, rfl⟩
    | fileEnd r =>
      obtain ⟨f, outer, hopen, -⟩ := h.openStarts_of_fileEnd
      have hkind := includeAt_of_fileEnd records h hopen
      rw [← hs] at hkind
      have hafter : openAfter (openStarts before) (.fileEnd r) = outer := by
        rw [hopen]
        rfl
      rw [apply, hafter]
      rw [hopen] at hstale
      cases hinclude : f.isInclude with
      | true =>
        rw [List.filter_cons_of_pos hinclude, List.map_cons, List.cons_append] at hstale
        refine ⟨stale, ?_⟩
        rw [closeFile_of_include (hkind.trans hinclude) _ _ hstale]
        split
        · exact openRanges_addCopyRange _ _
        · rfl
      | false =>
        -- around the root that is closed there are only roots
        have hroots := hopen ▸ h.left.pairwise_openStarts
        have hnone : outer.filter (·.isInclude) = [] := by
          refine List.filter_eq_nil_iff.mpr fun g hg => ?_
          simp [List.rel_of_pairwise_cons hroots hg hinclude]
        rw [closeFile_of_root (hkind.trans hinclude), hnone]
        exact ⟨_, rfl⟩
    | expansion r => exact ⟨stale, (stacks_addExpansion s r).2.trans hstale⟩
    | error r => exact ⟨stale, (stacks_addError s r).2.trans hstale⟩
    | processor | namePart | ignored | unrecognized => exact ⟨stale, hstale⟩

/-- The file end of an included member takes the range that its own file start left,
and closes the file. -/
theorem closeFile_of_wellNested (records : List Record)
    (h : WellNested (before ++ .fileEnd r :: after)) (hopen : openStarts before = f :: outer)
    (hinclude : f.isInclude) :
    ∃ rest, let s := before.foldl (apply records) start
      let closed : Correction := ⟨s.files, outer.map (·.fileId), rest⟩
      s.closeFile r = match waiting f, r.length with
        | some opened, some length => closed.addCopyRange (copyRange r.fileId opened length)
        | _, _ => closed := by
  obtain ⟨stale, hstale⟩ := openRanges_foldl records h.left
  rw [hopen, List.filter_cons_of_pos hinclude, List.map_cons, List.cons_append] at hstale
  have hkind := (includeAt_of_fileEnd records h hopen).trans hinclude
  have hclose := closeFile_of_include hkind _ _ hstale
  rw [openFiles_foldl, hopen] at hclose
  exact ⟨_, hclose⟩

/-- Which files are known was settled by the file starts. -/
theorem contains_foldl (records before : List Record) (id : FileId) :
    (before.foldl (apply records) start).files.contains id ↔ id ∈ openings before := by
  unfold OrderedMap.contains
  rw [← OrderedMap.mem_keys_iff, keys_foldl, openedIds, List.mem_eraseDups]

/-- Whatever is open is known. -/
theorem contains_of_mem_openStarts (records : List Record) {g : Record.FileStart}
    (hg : g ∈ openStarts before) :
    (before.foldl (apply records) start).files.contains g.fileId := by
  rw [contains_foldl]
  exact List.mem_filterMap.mpr ⟨_, mem_fileStarts.mp (openStarts_subset before hg), rfl⟩

/-! ## The ranges behind a file end -/

/-- The range of an included member goes to the file around it. -/
theorem rangesOf_closeFile_of_include (records : List Record)
    (h : WellNested (before ++ .fileEnd r :: after)) (hopen : openStarts before = f :: outer)
    (hinclude : f.isInclude) {low length : Int} (hlow : f.line = some low)
    (hlength : r.length = some length) (id : FileId) :
    ((before.foldl (apply records) start).closeFile r).rangesOf id =
      (before.foldl (apply records) start).rangesOf id ++
        if FileId.baseUnit ∈ openings before ∧ 2 ≤ outer.length ∧
          outer.head?.map (·.fileId) = some id
        then [copyRange r.fileId ⟨low, 0, none⟩ length] else [] := by
  obtain ⟨rest, hclose⟩ := closeFile_of_wellNested records h hopen hinclude
  set s := before.foldl (apply records) start with hs
  simp only [waiting, hlow, hlength, Option.map_some] at hclose
  -- the file around is open, so it is known
  have hknown : outer.head?.map (·.fileId) = some id → s.files.contains id := by
    intro hhead
    obtain ⟨g, hg, rfl⟩ := Option.map_eq_some_iff.mp hhead
    refine contains_of_mem_openStarts records ?_
    rw [hopen]
    exact List.mem_cons_of_mem _ (List.mem_of_head? hg)
  have hbase : s.files.contains FileId.baseUnit ↔ FileId.baseUnit ∈ openings before :=
    contains_foldl _ _ _
  rw [hclose, rangesOf_addCopyRange]
  simp only [List.length_map, List.head?_map, hbase]
  refine congrArg (s.rangesOf id ++ ·) (if_congr ?_ rfl rfl)
  constructor
  · rintro ⟨hunit, htwo, hhead, -⟩
    exact ⟨hunit, htwo, hhead⟩
  · rintro ⟨hunit, htwo, hhead⟩
    exact ⟨hunit, htwo, hhead, hknown hhead⟩

/-- A line or a length that does not read gives no range. -/
theorem rangesOf_closeFile_of_unread (records : List Record)
    (h : WellNested (before ++ .fileEnd r :: after)) (hopen : openStarts before = f :: outer)
    (hinclude : f.isInclude) (hunread : f.line = none ∨ r.length = none) (id : FileId) :
    ((before.foldl (apply records) start).closeFile r).rangesOf id =
      (before.foldl (apply records) start).rangesOf id := by
  obtain ⟨rest, hclose⟩ := closeFile_of_wellNested records h hopen hinclude
  rcases hunread with hline | hlength
  · simp only [waiting, hline, Option.map_none] at hclose
    rw [hclose]
    rfl
  · cases hwaiting : waiting f <;> simp only [hwaiting, hlength] at hclose <;> rw [hclose] <;> rfl

/-- A root gives no range. -/
theorem rangesOf_closeFile_of_root (records : List Record)
    (h : WellNested (before ++ .fileEnd r :: after)) (hopen : openStarts before = f :: outer)
    (hroot : f.isInclude = false) (id : FileId) :
    ((before.foldl (apply records) start).closeFile r).rangesOf id =
      (before.foldl (apply records) start).rangesOf id := by
  rw [closeFile_of_root ((includeAt_of_fileEnd records h hopen).trans hroot)]
  rfl

end WellNested

end Resolution.Correction

/-! ## The law -/

open Resolution Correction Record

/-- In a listing that nests well, each file end closes the file of an earlier file
start, behind which all files were closed again. If that file is an included member,
the range that its file gives away begins at the line of this very file start and has
as many lines as the file end says. It goes to the file around it, once the
precompiler's unit is known and if two files stay open. A line or a length that does
not read gives no range, and a root gives none either. -/
theorem copy_ranges_match_their_starts (listing : Listing) (h : WellNested listing.records)
    (before after : List Record) (r : Record.FileEnd)
    (hsplit : listing.records = before ++ .fileEnd r :: after) :
    let s := before.foldl (apply listing.records) start
    let t := s.apply listing.records (.fileEnd r)
    ∃ opened outer outside inside, opened.fileId = r.fileId ∧
      before = outside ++ .fileStart opened :: inside ∧ Balanced inside ∧
      openStarts outside = outer ∧ openStarts before = opened :: outer ∧
      (opened.isInclude →
        (∀ low length, opened.line = some low → r.length = some length → ∀ id,
          t.rangesOf id = s.rangesOf id ++
            if FileId.baseUnit ∈ openings before ∧ 2 ≤ outer.length ∧
              outer.head?.map (·.fileId) = some id
            then [⟨low, Saturating.sub (Saturating.add low length) 1, some r.fileId⟩] else []) ∧
        (opened.line = none ∨ r.length = none → ∀ id, t.rangesOf id = s.rangesOf id)) ∧
      (opened.isInclude = false → ∀ id, t.rangesOf id = s.rangesOf id) := by
  intro s t
  rw [hsplit] at h
  obtain ⟨f, outer, hopen, hid⟩ := h.openStarts_of_fileEnd
  obtain ⟨outside, inside, hbefore, houter, hinside⟩ := exists_balanced hopen
  refine ⟨f, outer, outside, inside, hid, hbefore, hinside, houter, hopen, ?_, ?_⟩
  · intro hinclude
    refine ⟨?_, ?_⟩
    · intro low length hlow hlength id
      exact rangesOf_closeFile_of_include _ h hopen hinclude hlow hlength id
    · intro hunread id
      exact rangesOf_closeFile_of_unread _ h hopen hinclude hunread id
  · intro hroot id
    exact rangesOf_closeFile_of_root _ h hopen hroot id

/-- A root is closed again inside the root, so its range waits for good. Behind it,
one copied member is copied into another. -/
def nestedCopies : Listing := Listing.ofLines [
  "FILEID     0 999 000000 014 LIB/SRC(STEPS) 20230101120000 0",
  "FILEID     0 001 000000 013 LIB/SRC(ROOT) 20230101120000 0",
  "FILEID     0 004 000000 012 LIB/SRC(SQL) 20230101120000 0",
  "FILEEND    0 004 000009",
  "FILEID     0 002 000003 012 LIB/CPY(CPA) 20230101120000 0",
  "FILEID     0 003 000002 012 LIB/CPY(CPB) 20230101120000 0",
  "FILEEND    0 003 000001",
  "FILEEND    0 002 000006",
  "FILEEND    0 001 000008",
  "FILEEND    0 999 000008"]

def outerCopyEnd : Record.FileEnd := ⟨⟨2⟩, some 6⟩

theorem nested_copy_takes_its_own_range :
    let before := nestedCopies.records.take 7
    WellNested nestedCopies.records ∧
      nestedCopies.records = before ++ .fileEnd outerCopyEnd :: nestedCopies.records.drop 8 ∧
      ((before.foldl (apply nestedCopies.records) start).apply nestedCopies.records
        (.fileEnd outerCopyEnd)).rangesOf FileId.root = [⟨3, 8, some ⟨2⟩⟩] := by
  intro before
  have hlisting : WellNested nestedCopies.records ∧
      nestedCopies.records = before ++ .fileEnd outerCopyEnd :: nestedCopies.records.drop 8 ∧
      (openStarts before).head?.map (fun f => (f.isInclude, f.line)) = some (true, some 3) ∧
      (openStarts before).tail.map (·.fileId) = [FileId.root, FileId.baseUnit] ∧
      FileId.baseUnit ∈ openings before ∧
      (before.foldl (apply nestedCopies.records) start).rangesOf FileId.root = [] := by
    decide +kernel
  obtain ⟨hnest, hsplit, hopened, houter, hunit, hnone⟩ := hlisting
  refine ⟨hnest, hsplit, ?_⟩
  obtain ⟨opened, outer, -, -, -, -, -, -, hopen, hinclude, -⟩ :=
    copy_ranges_match_their_starts nestedCopies hnest _ _ _ hsplit
  rw [hopen] at hopened houter
  obtain ⟨hkind, hline⟩ := Prod.mk.inj (Option.some.inj hopened)
  have htaken := (hinclude hkind).1 3 6 hline rfl FileId.root
  have htwo : 2 ≤ outer.length := by
    rw [← List.length_map (f := (·.fileId))]
    exact Nat.le_of_eq (congrArg List.length houter).symm
  have hhead : outer.head?.map (·.fileId) = some FileId.root := by
    rw [← List.head?_map]
    exact congrArg List.head? houter
  rw [htaken, hnone, if_pos ⟨hunit, htwo, hhead⟩]
  rfl

end EventListing
