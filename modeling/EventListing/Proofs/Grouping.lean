-- Lists grouped by a key. The entries of each key keep their order, and the
-- groups stand in the order of the keys.
import Mathlib.Data.List.Basic

namespace EventListing

variable {α κ : Type} [DecidableEq κ] {key : α → κ}

/-- Entries put together by their keys are the same entries, when each key
comes once and none is missing. -/
theorem flatMap_filter_perm {keys : List κ} {entries : List α} (hnodup : keys.Nodup)
    (hmem : ∀ a ∈ entries, key a ∈ keys) :
    (keys.flatMap fun k => entries.filter (key · = k)).Perm entries := by
  induction keys generalizing entries with
  | nil =>
    rw [List.eq_nil_iff_forall_not_mem.mpr fun a ha => List.not_mem_nil (hmem a ha)]
    rfl
  | cons k keys ih =>
    rw [List.nodup_cons] at hnodup
    have hrest := @ih (entries.filter (¬ key · = k)) hnodup.2 (by
      intro a ha
      obtain ⟨hin, hne⟩ := List.mem_filter.mp ha
      rcases List.mem_cons.mp (hmem a hin) with he | hkeys
      · simp [he] at hne
      · exact hkeys)
    have hsame : (keys.flatMap fun i => (entries.filter (¬ key · = k)).filter (key · = i)) =
        keys.flatMap fun i => entries.filter (key · = i) := by
      refine List.flatMap_congr ?_
      intro i hi
      rw [List.filter_filter]
      refine List.filter_congr ?_
      intro a ha
      by_cases he : key a = i
      · have hne : ¬ i = k := fun e => hnodup.1 (e ▸ hi)
        simp [he, hne]
      · simp [he]
    rw [hsame] at hrest
    rw [List.flatMap_cons]
    refine (hrest.append_left _).trans ?_
    have := List.filter_append_perm (key · = k) entries
    simpa using this

/-- Put together by some of the keys only, they are the entries of those keys. -/
theorem flatMap_filter_keys_perm {keys : List κ} {entries : List α} (hnodup : keys.Nodup)
    (p : κ → Bool) (hmem : ∀ a ∈ entries, p (key a) → key a ∈ keys) :
    ((keys.filter p).flatMap fun k => entries.filter (key · = k)).Perm
      (entries.filter fun a => p (key a)) := by
  have hsame : ((keys.filter p).flatMap fun k => entries.filter (key · = k)) =
      (keys.filter p).flatMap fun k =>
        (entries.filter fun a => p (key a)).filter (key · = k) := by
    refine List.flatMap_congr ?_
    intro k hk
    have hp : p k := (List.mem_filter.mp hk).2
    rw [List.filter_filter]
    refine List.filter_congr ?_
    intro a _
    by_cases he : key a = k <;> simp [he, hp]
  rw [hsame]
  refine flatMap_filter_perm (hnodup.filter _) ?_
  intro a ha
  obtain ⟨hin, hp⟩ := List.mem_filter.mp ha
  exact List.mem_filter.mpr ⟨hmem a hin hp, hp⟩

/-- Put together by keys in their order, entries are in order, when they were so
before and an entry that has to move in front of another one may stand there. -/
theorem pairwise_flatMap_filter {R : α → α → Prop} {before : κ → κ → Prop} {keys : List κ}
    {entries : List α} (hirrefl : ∀ k, ¬ before k k) (hkeys : keys.Pairwise before)
    (hentries : entries.Pairwise fun a b => R a b ∧ (before (key b) (key a) → R b a)) :
    (keys.flatMap fun k => entries.filter (key · = k)).Pairwise R := by
  have hall := List.Pairwise.forall_of_forall_of_flip
    (R := fun a b => before (key a) (key b) → R a b)
    (fun a _ hbefore => absurd hbefore (hirrefl _)) (hentries.imp fun h _ => h.1)
    (hentries.imp fun h => h.2)
  rw [List.pairwise_flatMap]
  refine ⟨fun k _ => (hentries.imp And.left).filter _, hkeys.imp ?_⟩
  intro k k' hbefore a ha b hb
  obtain ⟨hain, hka⟩ := List.mem_filter.mp ha
  obtain ⟨hbin, hkb⟩ := List.mem_filter.mp hb
  rw [decide_eq_true_eq] at hka hkb
  subst hka hkb
  exact hall hain hbin hbefore

end EventListing
