-- Two lists that are the same but for at most one element, which only the old
-- one has. Taking that element away carries over to what is made of the lists.
import Mathlib.Data.List.Basic

namespace EventListing

variable {α β κ : Type} {a : Option α} {old new : List α}

/-- The new list is the old one without `a`, which stood at one place of it.
Without an `a` both are the same. -/
def OneLess (a : Option α) (old new : List α) : Prop :=
  ∃ xs ys, old = xs ++ a.toList ++ ys ∧ new = xs ++ ys

namespace OneLess

theorem refl (l : List α) : OneLess none l l := ⟨l, [], by simp, by simp⟩

theorem eq_of_none (h : OneLess none old new) : old = new := by
  obtain ⟨xs, ys, rfl, rfl⟩ := h
  simp

theorem append_left (h : OneLess a old new) (l : List α) : OneLess a (l ++ old) (l ++ new) := by
  obtain ⟨xs, ys, rfl, rfl⟩ := h
  exact ⟨l ++ xs, ys, by simp, by simp⟩

theorem append_right (h : OneLess a old new) (l : List α) : OneLess a (old ++ l) (new ++ l) := by
  obtain ⟨xs, ys, rfl, rfl⟩ := h
  exact ⟨xs, ys ++ l, by simp, by simp⟩

theorem filterMap (h : OneLess a old new) (f : α → Option β) :
    OneLess (a.bind f) (old.filterMap f) (new.filterMap f) := by
  obtain ⟨xs, ys, rfl, rfl⟩ := h
  refine ⟨xs.filterMap f, ys.filterMap f, ?_, List.filterMap_append⟩
  rw [List.filterMap_append, List.filterMap_append]
  congr 2
  cases a with
  | none => rfl
  | some c => cases hc : f c <;> simp [hc]

theorem map (h : OneLess a old new) (f : α → β) : OneLess (a.map f) (old.map f) (new.map f) := by
  obtain ⟨xs, ys, rfl, rfl⟩ := h
  refine ⟨xs.map f, ys.map f, ?_, List.map_append⟩
  cases a <;> simp

theorem filter (h : OneLess a old new) (p : α → Bool) :
    OneLess (a.filter p) (old.filter p) (new.filter p) := by
  obtain ⟨xs, ys, rfl, rfl⟩ := h
  refine ⟨xs.filter p, ys.filter p, ?_, List.filter_append _ _⟩
  cases a with
  | none => simp
  | some c => cases hc : p c <;> simp [hc, Option.filter_some]

/-- Grouped by distinct keys, the lists still differ at one place only: in the
group of the element, if there is one. -/
theorem flatMap_filter [DecidableEq κ] (h : OneLess a old new) (key : α → κ) {keys : List κ}
    (hnodup : keys.Nodup) :
    OneLess (a.filter (key · ∈ keys)) (keys.flatMap fun k => old.filter (key · = k))
      (keys.flatMap fun k => new.filter (key · = k)) := by
  induction keys with
  | nil => cases a <;> exact refl []
  | cons k keys ih =>
    rw [List.nodup_cons] at hnodup
    rw [List.flatMap_cons, List.flatMap_cons]
    have hhead := h.filter (key · = k)
    have htail := ih hnodup.2
    cases a with
    | none =>
      rw [hhead.eq_of_none]
      exact htail.append_left _
    | some c =>
      simp only [Option.filter_some, decide_eq_true_eq, List.mem_cons] at *
      by_cases hk : key c = k
      · have hnot : key c ∉ keys := hk ▸ hnodup.1
        rw [if_neg hnot] at htail
        rw [if_pos hk] at hhead
        rw [if_pos (Or.inl hk), htail.eq_of_none]
        exact hhead.append_right _
      · rw [if_neg hk] at hhead
        simp only [hk, false_or]
        rw [hhead.eq_of_none]
        exact htail.append_left _

end OneLess

end EventListing
