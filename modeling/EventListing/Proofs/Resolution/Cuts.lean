-- Cutting ranges out of the numbers from one on, by their positions. A cut
-- takes the numbers of its range as long as all smaller ones are still there.
-- So several cuts take the numbers of their ranges exactly when each range
-- lies before the ones that were cut out first.
import Mathlib.Data.List.Nodup
import EventListing.Proofs.Resolution.Rank

namespace EventListing

/-! ## Numbers that rise -/

/-- In a list that rises from `first` or later, what stands behind `p` numbers
is at least `first + p`. -/
theorem le_of_mem_drop {l : List Nat} {first : Nat} (hl : l.Pairwise (· < ·))
    (hfirst : ∀ x ∈ l, first ≤ x) {p x : Nat} (hx : x ∈ l.drop p) : first + p ≤ x := by
  induction l generalizing first p with
  | nil => simp at hx
  | cons a l ih =>
    cases p with
    | zero => exact hfirst x hx
    | succ p =>
      rw [List.pairwise_cons] at hl
      have ha := hfirst a List.mem_cons_self
      have hrest : ∀ y ∈ l, first + 1 ≤ y := by
        intro y hy
        have := hl.1 y hy
        omega
      have := ih hl.2 hrest hx
      omega

/-- Where the least possible number stands, all smaller ones stand before it. -/
theorem mem_of_getElem? {l : List Nat} {first : Nat} (hl : l.Pairwise (· < ·))
    (hfirst : ∀ x ∈ l, first ≤ x) {p : Nat} (hp : l[p]? = some (first + p)) {x : Nat}
    (hlow : first ≤ x) (hhigh : x ≤ first + p) : x ∈ l := by
  induction l generalizing first p with
  | nil => simp at hp
  | cons a l ih =>
    rw [List.pairwise_cons] at hl
    have ha := hfirst a List.mem_cons_self
    cases p with
    | zero =>
      have hax : a = first := by simpa using hp
      have : x = a := by omega
      exact this ▸ List.mem_cons_self
    | succ p =>
      rw [List.getElem?_cons_succ] at hp
      have hrest : ∀ y ∈ l, a + 1 ≤ y := hl.1
      have hmem : first + (p + 1) ∈ l.drop p := by
        obtain ⟨hlt, hat⟩ := List.getElem?_eq_some_iff.mp hp
        rw [List.drop_eq_getElem_cons hlt, hat]
        exact List.mem_cons_self
      have hle := le_of_mem_drop hl.2 hrest hmem
      have hax : a = first := by omega
      subst hax
      by_cases hxa : x = a
      · exact hxa ▸ List.mem_cons_self
      · have hnext : l[p]? = some (a + 1 + p) := by
          rw [hp]
          congr 1
          omega
        exact List.mem_cons_of_mem _ (ih hl.2 hrest hnext (by omega) (by omega))

/-! ## Weights -/

/-- The weight of a list of numbers up to `count`. A smaller number weighs
more. -/
def weight (count : Nat) : List Nat → Nat
  | [] => 0
  | x :: l => (count + 1 - x) + weight count l

theorem weight_append (count : Nat) (xs ys : List Nat) :
    weight count (xs ++ ys) = weight count xs + weight count ys := by
  induction xs with
  | nil => exact (Nat.zero_add _).symm
  | cons x xs ih => rw [List.cons_append, weight, weight, ih, Nat.add_assoc]

/-- The order of the numbers does not matter. -/
theorem weight_perm (count : Nat) {xs ys : List Nat} (h : xs.Perm ys) :
    weight count xs = weight count ys := by
  induction h with
  | nil => rfl
  | cons x _ ih => rw [weight, weight, ih]
  | swap x y l =>
    simp only [weight]
    omega
  | trans _ _ hxy hyz => exact hxy.trans hyz

/-- Among the short lists that rise from `first` or later, the run of numbers
from `first` on weighs most, and no other one weighs as much. -/
theorem weight_le_range' {count : Nat} {l : List Nat} {first size : Nat}
    (hl : l.Pairwise (· < ·)) (hfirst : ∀ x ∈ l, first ≤ x) (hlen : l.length ≤ size)
    (hcount : first + size ≤ count + 1) :
    weight count l ≤ weight count (List.range' first size) ∧
      (weight count l = weight count (List.range' first size) → l = List.range' first size) := by
  induction size generalizing first l with
  | zero =>
    rw [List.length_eq_zero_iff.mp (Nat.le_zero.mp hlen)]
    exact ⟨Nat.le_refl _, fun _ => rfl⟩
  | succ size ih =>
    have hrange : weight count (List.range' first (size + 1)) =
        (count + 1 - first) + weight count (List.range' (first + 1) size) := by
      rw [List.range'_succ, weight]
    rw [hrange]
    cases l with
    | nil => simp [weight]; omega
    | cons x l =>
      rw [List.pairwise_cons] at hl
      have hx := hfirst x List.mem_cons_self
      have hrest : ∀ y ∈ l, first + 1 ≤ y := by
        intro y hy
        have := hl.1 y hy
        omega
      obtain ⟨hle, heq⟩ := ih hl.2 hrest (by simpa using hlen) (by omega)
      rw [weight]
      refine ⟨by omega, ?_⟩
      intro h
      have hfirst : x = first := by omega
      subst hfirst
      rw [List.range'_succ, heq (by omega)]

/-! ## One cut -/

/-- The list without what stands at the positions of the range. The first
position is one. -/
def cut {α : Type} (l : List α) (r : LineRange) : List α :=
  l.take (r.low - 1).toNat ++ l.drop ((r.low - 1).toNat + r.size.toNat)

/-- What stands at the positions of the range. -/
def cutOut {α : Type} (l : List α) (r : LineRange) : List α :=
  (l.drop (r.low - 1).toNat).take r.size.toNat

/-- The numbers of the range. -/
def LineRange.numbers (r : LineRange) : List Nat := List.range' r.low.toNat r.size.toNat

theorem LineRange.mem_numbers {r : LineRange} (h : r.Proper) {x : Nat} :
    x ∈ r.numbers ↔ r.contains x := by
  obtain ⟨hlow, hhigh⟩ := h
  rw [numbers, List.mem_range'_1, contains_iff]
  unfold size
  omega

section Cut

variable {α : Type} (l : List α) (r : LineRange)

theorem cut_append_cutOut : ∃ front back,
    l = front ++ cutOut l r ++ back ∧ cut l r = front ++ back := by
  refine ⟨l.take (r.low - 1).toNat, l.drop ((r.low - 1).toNat + r.size.toNat), ?_, rfl⟩
  unfold cutOut
  rw [← List.drop_drop, List.append_assoc, List.take_append_drop, List.take_append_drop]

theorem cut_sublist : (cut l r).Sublist l := by
  obtain ⟨front, back, hl, hcut⟩ := cut_append_cutOut l r
  have hsub : (front ++ back).Sublist (front ++ cutOut l r ++ back) :=
    (List.sublist_append_left front _).append (List.Sublist.refl back)
  rw [hcut]
  rwa [← hl] at hsub

theorem map_cut {β : Type} (f : α → β) : (cut l r).map f = cut (l.map f) r := by
  simp [cut, List.map_take, List.map_drop]

end Cut

section Numbers

variable {count : Nat} {l : List Nat} {r : LineRange}

/-- What stands at the positions of a range weighs at most as much as its
numbers. If it weighs as much, it is its numbers. -/
theorem weight_cutOut_le (hl : l.Pairwise (· < ·)) (hone : ∀ x ∈ l, 1 ≤ x) (hr : r.Proper)
    (hcount : r.high ≤ count) :
    weight count (cutOut l r) ≤ weight count r.numbers ∧
      (weight count (cutOut l r) = weight count r.numbers → cutOut l r = r.numbers) := by
  obtain ⟨hlow, hhigh⟩ := hr
  have hsize : r.size = r.high - r.low + 1 := rfl
  have hsub : (cutOut l r).Sublist (l.drop (r.low - 1).toNat) := List.take_sublist _ _
  refine weight_le_range' (hl.sublist (hsub.trans (List.drop_sublist _ _))) ?_
    (List.length_take_le _ _) (by omega)
  intro x hx
  have := le_of_mem_drop hl hone (hsub.mem hx)
  omega

/-- Where the numbers of a range stand at its positions, all smaller numbers
stand there too. -/
theorem mem_of_cutOut_eq (hl : l.Pairwise (· < ·)) (hone : ∀ x ∈ l, 1 ≤ x) (hr : r.Proper)
    (hcut : cutOut l r = r.numbers) {x : Nat} (hx : 1 ≤ x) (hlow : x < r.low) : x ∈ l := by
  obtain ⟨hfirst, hhigh⟩ := hr
  have hsize : 0 < r.size.toNat := by
    unfold LineRange.size
    omega
  have hget : (cutOut l r)[0]? = some r.low.toNat := by
    rw [hcut, LineRange.numbers, List.getElem?_range' hsize]
    rfl
  rw [cutOut, List.getElem?_take_of_lt hsize, List.getElem?_drop, Nat.add_zero] at hget
  have hat : l[(r.low - 1).toNat]? = some (1 + (r.low - 1).toNat) := by
    rw [hget]
    congr 1
    omega
  exact mem_of_getElem? hl hone hat hx (by omega)

/-- No number of the range is left where its numbers were cut out. -/
theorem not_mem_cut (hl : l.Pairwise (· < ·)) (hcut : cutOut l r = r.numbers) {x : Nat}
    (hx : x ∈ r.numbers) : x ∉ cut l r := by
  obtain ⟨front, back, hsplit, hrest⟩ := cut_append_cutOut l r
  have hnodup : l.Nodup := hl.imp fun h => Nat.ne_of_lt h
  rw [hsplit, hcut, List.nodup_append, List.nodup_append] at hnodup
  obtain ⟨⟨-, -, hfront⟩, -, hback⟩ := hnodup
  rw [hrest, List.mem_append]
  rintro (hmem | hmem)
  · exact hfront x hmem x hx rfl
  · exact hback x (List.mem_append_right _ hx) x hmem rfl

/-- Such a cut leaves the other numbers. -/
theorem cut_eq_filter (hl : l.Pairwise (· < ·)) (hr : r.Proper) (hcut : cutOut l r = r.numbers) :
    cut l r = l.filter fun x : Nat => !r.contains x := by
  obtain ⟨front, back, hsplit, hrest⟩ := cut_append_cutOut l r
  have hkept : ∀ x ∈ cut l r, r.contains x = false := by
    intro x hx
    rw [Bool.eq_false_iff]
    intro hin
    exact not_mem_cut hl hcut ((LineRange.mem_numbers hr).mpr hin) hx
  have hgone : ∀ x ∈ cutOut l r, r.contains x := by
    intro x hx
    rw [hcut] at hx
    exact (LineRange.mem_numbers hr).mp hx
  have hfilter : l.filter (fun x : Nat => !r.contains x) =
      (front ++ cutOut l r ++ back).filter fun x : Nat => !r.contains x := by rw [← hsplit]
  have hnone : (cutOut l r).filter (fun x : Nat => !r.contains x) = [] := by
    rw [List.filter_eq_nil_iff]
    intro x hx
    simp [hgone x hx]
  rw [hrest] at hkept ⊢
  have hall : (front ++ back).filter (fun x : Nat => !r.contains x) = front ++ back := by
    rw [List.filter_eq_self]
    intro x hx
    simp [hkept x hx]
  rw [hfilter, List.filter_append, List.filter_append, hnone, List.append_nil,
    ← List.filter_append, hall]

end Numbers

/-! ## All cuts -/

/-- The number lies in none of the ranges. -/
def outside (ranges : List LineRange) (x : Nat) : Bool := ranges.all (!·.contains x)

theorem outside_cons (r : LineRange) (ranges : List LineRange) (x : Nat) :
    outside (r :: ranges) x = (!r.contains x && outside ranges x) := List.all_cons

/-- Every cut takes the numbers of its range. -/
def CutsExactly : List Nat → List LineRange → Prop
  | _, [] => True
  | l, r :: rest => cutOut l r = r.numbers ∧ CutsExactly (cut l r) rest

section Run

variable {count : Nat} {l : List Nat} {ranges : List LineRange}

/-- The cuts take at most the weight of the numbers of their ranges. If they
take all of it, every cut takes the numbers of its range. -/
theorem weight_le_foldl_cut (hl : l.Pairwise (· < ·)) (hone : ∀ x ∈ l, 1 ≤ x)
    (hranges : ∀ r ∈ ranges, r.Proper ∧ r.high ≤ count) :
    weight count l ≤
        weight count (ranges.foldl cut l) + weight count (ranges.flatMap LineRange.numbers) ∧
      (weight count l =
        weight count (ranges.foldl cut l) + weight count (ranges.flatMap LineRange.numbers) →
        CutsExactly l ranges) := by
  induction ranges generalizing l with
  | nil => simp [CutsExactly]
  | cons r ranges ih =>
    obtain ⟨hr, hrest⟩ := List.forall_mem_cons.mp hranges
    have hsub := cut_sublist l r
    obtain ⟨hle, heq⟩ := ih (hl.sublist hsub) (fun x hx => hone x (hsub.mem hx)) hrest
    obtain ⟨hcutLe, hcutEq⟩ := weight_cutOut_le hl hone hr.1 hr.2
    have hweight : weight count l = weight count (cut l r) + weight count (cutOut l r) := by
      obtain ⟨front, back, hsplit, hcut⟩ := cut_append_cutOut l r
      rw [hcut]
      nth_rewrite 1 [hsplit]
      simp only [weight_append]
      omega
    rw [List.foldl_cons, List.flatMap_cons, weight_append]
    refine ⟨by omega, ?_⟩
    intro h
    exact ⟨hcutEq (by omega), heq (by omega)⟩

/-- A number that is not there lies before no range that is cut out. -/
theorem CutsExactly.le_low (h : CutsExactly l ranges) (hl : l.Pairwise (· < ·))
    (hone : ∀ x ∈ l, 1 ≤ x) (hproper : ∀ r ∈ ranges, r.Proper) {x : Nat} (hx : 1 ≤ x)
    (hnot : x ∉ l) : ∀ r ∈ ranges, r.low ≤ x := by
  induction ranges generalizing l with
  | nil => exact List.forall_mem_nil _
  | cons r ranges ih =>
    obtain ⟨hcut, hrest⟩ := h
    obtain ⟨hr, hproper'⟩ := List.forall_mem_cons.mp hproper
    have hsub := cut_sublist l r
    rw [List.forall_mem_cons]
    refine ⟨?_, ih hrest (hl.sublist hsub) (fun y hy => hone y (hsub.mem hy)) hproper'
      fun hmem => hnot (hsub.mem hmem)⟩
    by_contra hlt
    exact hnot (mem_of_cutOut_eq hl hone hr hcut hx (by omega))

/-- Cuts that take the numbers of ranges that lie apart come from last to
first. -/
theorem CutsExactly.pairwise (h : CutsExactly l ranges) (hl : l.Pairwise (· < ·))
    (hone : ∀ x ∈ l, 1 ≤ x) (hproper : ∀ r ∈ ranges, r.Proper)
    (hapart : ranges.Pairwise LineRange.Apart) :
    ranges.Pairwise fun earlier later => later.high < earlier.low := by
  induction ranges generalizing l with
  | nil => exact List.Pairwise.nil
  | cons r ranges ih =>
    obtain ⟨hcut, hrest⟩ := h
    obtain ⟨hr, hproper'⟩ := List.forall_mem_cons.mp hproper
    rw [List.pairwise_cons] at hapart ⊢
    have hsub := cut_sublist l r
    have hone' : ∀ y ∈ cut l r, 1 ≤ y := fun y hy => hone y (hsub.mem hy)
    refine ⟨?_, ih hrest (hl.sublist hsub) hone' hproper' hapart.2⟩
    intro later hlater
    obtain ⟨hlow, hhigh⟩ := hr
    have hfirst : r.low.toNat ∈ r.numbers := by
      rw [LineRange.numbers, List.mem_range'_1]
      unfold LineRange.size
      omega
    have hle := hrest.le_low (hl.sublist hsub) hone' hproper' (x := r.low.toNat) (by omega)
      (not_mem_cut hl hcut hfirst) later hlater
    have := hproper' later hlater
    rcases hapart.1 later hlater with hbefore | hbehind
    · omega
    · exact hbehind

/-- Such cuts leave the numbers that lie in none of their ranges. -/
theorem CutsExactly.foldl_cut (h : CutsExactly l ranges) (hl : l.Pairwise (· < ·))
    (hproper : ∀ r ∈ ranges, r.Proper) :
    ranges.foldl cut l = l.filter (outside ranges) := by
  induction ranges generalizing l with
  | nil => exact (List.filter_eq_self.mpr fun _ _ => rfl).symm
  | cons r ranges ih =>
    obtain ⟨hcut, hrest⟩ := h
    obtain ⟨hr, hproper'⟩ := List.forall_mem_cons.mp hproper
    rw [List.foldl_cons, ih hrest (hl.sublist (cut_sublist l r)) hproper', cut_eq_filter hl hr hcut,
      List.filter_filter]
    refine List.filter_congr ?_
    intro x _
    rw [outside_cons, Bool.and_comm]

/-- A list that begins with the numbers up to `k` begins with those up to any
smaller number. -/
theorem take_of_take {k j : Nat} (h : l.take k = List.range' 1 k) (hj : j ≤ k) :
    l.take j = List.range' 1 j := by
  have hsplit : List.range' 1 k = List.range' 1 j ++ List.range' (1 + j) (k - j) := by
    rw [List.range'_append_1]
    congr 1
    omega
  have htake : l.take j = (l.take k).take j := by
    rw [List.take_take]
    congr 1
    omega
  rw [htake, h, hsplit, List.take_left' (by simp)]

/-- Ranges that come from last to first are cut out by their numbers. -/
theorem cutsExactly_of_pairwise (hproper : ∀ r ∈ ranges, r.Proper)
    (hdown : ranges.Pairwise fun earlier later => later.high < earlier.low) {k : Nat}
    (hl : l.take k = List.range' 1 k) (hk : ∀ r ∈ ranges, r.high ≤ k) : CutsExactly l ranges := by
  induction ranges generalizing l k with
  | nil => trivial
  | cons r ranges ih =>
    obtain ⟨⟨hlow, hhigh⟩, hproper'⟩ := List.forall_mem_cons.mp hproper
    rw [List.pairwise_cons] at hdown
    have hrk := hk r List.mem_cons_self
    refine ⟨?_, ih hproper' hdown.2 (k := (r.low - 1).toNat) ?_ ?_⟩
    · have hsize : (r.low - 1).toNat + r.size.toNat = r.high.toNat := by
        unfold LineRange.size
        omega
      have hfront := take_of_take hl (j := r.high.toNat) (by omega)
      have hdrop : (l.take r.high.toNat).drop (r.low - 1).toNat = cutOut l r := by
        rw [List.drop_take, cutOut]
        congr 1
        omega
      rw [← hdrop, hfront, List.drop_range', LineRange.numbers]
      congr 1 <;> omega
    · have hfront := take_of_take hl (j := (r.low - 1).toNat) (by omega)
      have hlen : (l.take (r.low - 1).toNat).length = (r.low - 1).toNat := by
        rw [hfront, List.length_range']
      rw [cut, List.take_left' hlen, hfront]
    · intro later hlater
      have := hdown.1 later hlater
      omega

/-- A range that lies apart from the others has its numbers outside of them. -/
theorem filter_contains_perm {r : LineRange} (hr : r.Proper) (hcount : r.high ≤ count)
    (hapart : ∀ other ∈ ranges, r.Apart other) :
    (((List.range' 1 count).filter (outside ranges)).filter fun x : Nat => r.contains x).Perm
      r.numbers := by
  have hrange : (List.range' 1 count).Nodup := List.nodup_range'
  have hnumbers : r.numbers.Nodup := List.nodup_range'
  rw [List.perm_ext_iff_of_nodup ((hrange.filter _).filter _) hnumbers]
  intro x
  rw [List.mem_filter, List.mem_filter, List.mem_range'_1, LineRange.mem_numbers hr]
  refine ⟨And.right, fun hin => ⟨?_, hin⟩⟩
  rw [LineRange.contains_iff] at hin
  obtain ⟨hlow, hhigh⟩ := hr
  refine ⟨by omega, List.all_eq_true.mpr ?_⟩
  intro other hother
  rw [Bool.not_eq_true', Bool.eq_false_iff]
  intro hx
  rw [LineRange.contains_iff] at hx
  rcases hapart other hother with h | h <;> omega

/-- The numbers up to `count` are those outside of the ranges and those of the
ranges. -/
theorem filter_outside_perm (hranges : ∀ r ∈ ranges, r.Proper ∧ r.high ≤ count)
    (hapart : ranges.Pairwise LineRange.Apart) :
    ((List.range' 1 count).filter (outside ranges) ++ ranges.flatMap LineRange.numbers).Perm
      (List.range' 1 count) := by
  induction ranges with
  | nil =>
    rw [List.flatMap_nil, List.append_nil]
    exact List.Perm.of_eq (List.filter_eq_self.mpr fun _ _ => rfl)
  | cons r ranges ih =>
    obtain ⟨⟨hr, hcount⟩, hrest⟩ := List.forall_mem_cons.mp hranges
    rw [List.pairwise_cons] at hapart
    set kept := (List.range' 1 count).filter (outside ranges) with hkept
    have hothers : (List.range' 1 count).filter (outside (r :: ranges)) =
        kept.filter fun x : Nat => !r.contains x := by
      rw [hkept, List.filter_filter]
      refine List.filter_congr ?_
      intro x _
      exact outside_cons r ranges x
    have hsplit : ((kept.filter fun x : Nat => !r.contains x) ++ r.numbers).Perm kept :=
      ((filter_contains_perm hr hcount hapart.1).symm.append_left _).trans
        (List.perm_append_comm.trans (List.filter_append_perm (fun x : Nat => r.contains x) kept))
    rw [hothers, List.flatMap_cons, ← List.append_assoc]
    exact (hsplit.append_right _).trans (ih hrest hapart.2)

/-- Cutting ranges that lie apart out of the numbers up to `count` leaves the
numbers that lie in none of them exactly when the ranges come from last to
first. -/
theorem foldl_cut_eq_filter_iff (hranges : ∀ r ∈ ranges, r.Proper ∧ r.high ≤ count)
    (hapart : ranges.Pairwise LineRange.Apart) :
    ranges.foldl cut (List.range' 1 count) =
        (List.range' 1 count).filter (outside ranges) ↔
      ranges.Pairwise fun earlier later => later.high < earlier.low := by
  have hproper : ∀ r ∈ ranges, r.Proper := fun r hr => (hranges r hr).1
  have hrises : (List.range' 1 count).Pairwise (· < ·) := List.pairwise_lt_range'
  have hone : ∀ x ∈ List.range' 1 count, 1 ≤ x := fun x hx => (List.mem_range'_1.mp hx).1
  constructor
  · intro h
    have hexact : CutsExactly (List.range' 1 count) ranges := by
      refine (weight_le_foldl_cut hrises hone hranges).2 ?_
      rw [h, ← weight_append]
      exact (weight_perm count (filter_outside_perm hranges hapart)).symm
    exact hexact.pairwise hrises hone hproper hapart
  · intro hdown
    have hexact : CutsExactly (List.range' 1 count) ranges :=
      cutsExactly_of_pairwise hproper hdown (k := count) (by simp) fun r hr => (hranges r hr).2
    exact hexact.foldl_cut hrises hproper

end Run

end EventListing
