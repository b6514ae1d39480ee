-- What a splice does to a map of lines: which entries it puts in, which ones
-- it keeps and in what order, and that a splice inside a part of the map is
-- a splice of that part.
import Mathlib.Data.List.Count
import EventListing.LineMap

namespace EventListing.LineMap

/-! ## The lines of a file -/

theorem length_numbered (path : String) (count : Nat) (isSql : Bool) :
    (numbered path count isSql).length = count := by
  simp [numbered]

theorem mem_numbered {path : String} {count : Nat} {isSql : Bool} {o : Origin} :
    o ∈ numbered path count isSql ↔
      o.path = path ∧ o.isSql = isSql ∧ 1 ≤ o.line ∧ o.line ≤ count := by
  unfold numbered
  rw [List.mem_map]
  constructor
  · rintro ⟨line, hl, rfl⟩
    rw [List.mem_range'_1] at hl
    exact ⟨rfl, rfl, hl.1, by simp only; omega⟩
  · rintro ⟨rfl, rfl, h1, h2⟩
    exact ⟨o.line, List.mem_range'_1.mpr ⟨h1, by omega⟩, rfl⟩

theorem getElem?_numbered {path : String} {count : Nat} {isSql : Bool} {i : Nat}
    (h : i < count) : (numbered path count isSql)[i]? = some ⟨path, i + 1, isSql⟩ := by
  unfold numbered
  rw [List.getElem?_map, List.getElem?_range' h]
  simp [Nat.add_comm]

/-- The lines of a file stand in the order of their numbers. -/
theorem pairwise_numbered (path : String) (count : Nat) (isSql : Bool) :
    (numbered path count isSql).Pairwise (·.line < ·.line) := by
  unfold numbered
  rw [List.pairwise_map]
  exact List.pairwise_lt_range'

/-- No line of a file stands twice among its lines. -/
theorem nodup_numbered (path : String) (count : Nat) (isSql : Bool) :
    (numbered path count isSql).Nodup := by
  refine (pairwise_numbered path count isSql).imp ?_
  intro a b hab he
  subst he
  exact Nat.lt_irrefl _ hab

/-! ## Positions inside the map -/

theorem spliceIndex_natCast {len n : Nat} (h : n ≤ len) : spliceIndex len (n : Int) = n := by
  unfold spliceIndex
  rw [if_pos (by omega)]
  omega

theorem insert_natCast {m : LineMap} {n : Nat} (h : n ≤ m.len) (entries : List Origin) :
    m.insert n entries = ⟨m.lines.take n ++ entries ++ m.lines.drop n⟩ := by
  unfold insert
  rw [spliceIndex_natCast h]

theorem spliceIndex_le (len : Nat) (position : Int) : spliceIndex len position ≤ len := by
  unfold spliceIndex
  split <;> omega

theorem len_insert (m : LineMap) (position : Int) (entries : List Origin) :
    (m.insert position entries).len = m.len + entries.length := by
  have := spliceIndex_le m.len position
  unfold insert len at *
  simp only [List.length_append, List.length_take, List.length_drop]
  omega

theorem getElem?_insert_of_lt {m : LineMap} {n i : Nat} (h : n ≤ m.len) (hi : i < n)
    (entries : List Origin) : (m.insert n entries).lines[i]? = m.lines[i]? := by
  have hlen : (m.lines.take n).length = n := List.length_take_of_le h
  rw [insert_natCast h]
  simp only
  rw [List.append_assoc, List.getElem?_append_left (by omega), List.getElem?_take_of_lt hi]

theorem getElem?_insert_of_mem {m : LineMap} {n i : Nat} (h : n ≤ m.len) (hi : n ≤ i)
    {entries : List Origin} (hlt : i < n + entries.length) :
    (m.insert n entries).lines[i]? = entries[i - n]? := by
  have hlen : (m.lines.take n).length = n := List.length_take_of_le h
  rw [insert_natCast h]
  simp only
  rw [List.append_assoc, List.getElem?_append_right (by omega), hlen,
    List.getElem?_append_left (by omega)]

theorem getElem?_insert_of_ge {m : LineMap} {n i : Nat} (h : n ≤ m.len) {entries : List Origin}
    (hi : n + entries.length ≤ i) :
    (m.insert n entries).lines[i]? = m.lines[i - entries.length]? := by
  have hlen : (m.lines.take n).length = n := List.length_take_of_le h
  rw [insert_natCast h]
  simp only
  rw [List.append_assoc, List.getElem?_append_right (by omega), hlen,
    List.getElem?_append_right (by omega), List.getElem?_drop]
  congr 1
  omega

/-! ## What a splice keeps -/

theorem insert_perm (m : LineMap) (position : Int) (entries : List Origin) :
    (m.insert position entries).lines.Perm (entries ++ m.lines) := by
  unfold insert
  refine (List.perm_append_comm.append_right _).trans ?_
  rw [List.append_assoc, List.take_append_drop]

theorem count_insert (m : LineMap) (position : Int) (entries : List Origin) (o : Origin) :
    (m.insert position entries).lines.count o = entries.count o + m.lines.count o := by
  rw [(m.insert_perm position entries).count_eq, List.count_append]

/-- Entries that `p` does not choose leave no trace among the chosen ones. -/
theorem filter_insert_of_forall {m : LineMap} {position : Int} {entries : List Origin}
    {p : Origin → Bool} (h : ∀ o ∈ entries, p o = false) :
    (m.insert position entries).lines.filter p = m.lines.filter p := by
  have hnone : entries.filter p = [] := List.filter_eq_nil_iff.mpr (by simpa using h)
  unfold insert
  rw [List.filter_append, List.filter_append, hnone, List.append_nil, ← List.filter_append,
    List.take_append_drop]

/-- Where `p` chooses nothing of the map, it chooses only new entries. -/
theorem filter_insert_of_filter_eq_nil {m : LineMap} {position : Int} {entries : List Origin}
    {p : Origin → Bool} (h : m.lines.filter p = []) :
    (m.insert position entries).lines.filter p = entries.filter p := by
  rw [List.filter_eq_nil_iff] at h
  have hpart : ∀ part : List Origin, part.Sublist m.lines → part.filter p = [] := fun part hs =>
    List.filter_eq_nil_iff.mpr fun o ho => h o (hs.mem ho)
  unfold insert
  rw [List.filter_append, List.filter_append, hpart _ (List.take_sublist _ _),
    hpart _ (List.drop_sublist _ _), List.nil_append, List.append_nil]

theorem remove_sublist (m : LineMap) (position : Int) (count : Nat) :
    (m.remove position count).lines.Sublist m.lines := by
  unfold remove
  set start := spliceIndex m.len position
  have hdrop : (m.lines.drop (start + count)).Sublist (m.lines.drop start) := by
    rw [← List.drop_drop]
    exact List.drop_sublist _ _
  have hall := hdrop.append_left (m.lines.take start)
  rwa [List.take_append_drop] at hall

/-! ## Looking up -/

theorem get?_eq_some_iff {m : LineMap} {index : Int} {o : Origin} :
    m.get? index = some o ↔ ∃ i : Nat, i = index ∧ m.lines[i]? = some o := by
  unfold get?
  constructor
  · intro h
    split at h
    · exact ⟨index.toNat, by omega, h⟩
    · cases h
  · rintro ⟨i, rfl, h⟩
    rwa [if_pos (by omega), Int.toNat_natCast]

theorem resolve?_eq_some_iff {m : LineMap} {index : Int} {o : Origin} :
    m.resolve? index = some o ↔ m.get? index = some o ∧ o.isSql = false := by
  unfold resolve?
  rw [Option.filter_eq_some_iff, Bool.not_eq_true']

/-- What a look-up finds stands at its index and is not the precompiler's. -/
theorem of_resolve? {m : LineMap} {index : Int} {o : Origin} (h : m.resolve? index = some o) :
    0 ≤ index ∧ m.lines[index.toNat]? = some o ∧ o.isSql = false := by
  obtain ⟨hget, hsql⟩ := resolve?_eq_some_iff.mp h
  obtain ⟨i, rfl, hat⟩ := get?_eq_some_iff.mp hget
  exact ⟨Int.natCast_nonneg i, by rwa [Int.toNat_natCast], hsql⟩

theorem resolve?_natCast (m : LineMap) (i : Nat) :
    m.resolve? i = (m.lines[i]?).filter (!·.isSql) := by
  unfold resolve? get?
  rw [if_pos (by omega), Int.toNat_natCast]

end EventListing.LineMap
