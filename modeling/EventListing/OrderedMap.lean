-- Maps that keep the order in which their keys came. No key occurs twice.
-- Main statements: what a look-up finds, and which keys there are, after
-- each change.
namespace EventListing

structure OrderedMap (κ : Type) (ν : Type) where
  entries : List (κ × ν)
  nodup_keys : (entries.map Prod.fst).Nodup
deriving Repr, DecidableEq

namespace OrderedMap

variable {κ ν : Type}

/-- The keys in the order in which they came. -/
def keys (m : OrderedMap κ ν) : List κ := m.entries.map Prod.fst

/-- The values in the order of their keys. -/
def values (m : OrderedMap κ ν) : List ν := m.entries.map Prod.snd

/-- The map without keys. -/
def empty : OrderedMap κ ν := ⟨[], List.nodup_nil⟩

instance : EmptyCollection (OrderedMap κ ν) := ⟨empty⟩

instance : Inhabited (OrderedMap κ ν) := ⟨empty⟩

@[ext] theorem ext {m n : OrderedMap κ ν} (h : m.entries = n.entries) : m = n := by
  cases m; cases n; cases h; rfl

variable [DecidableEq κ]

/-! ## Looking up -/

/-- The value of the first entry with the key. -/
def lookup (k : κ) : List (κ × ν) → Option ν
  | [] => none
  | (k', v) :: rest => if k' = k then some v else lookup k rest

def get? (m : OrderedMap κ ν) (k : κ) : Option ν := lookup k m.entries

def contains (m : OrderedMap κ ν) (k : κ) : Bool := (m.get? k).isSome

@[simp] theorem get?_empty (k : κ) : (∅ : OrderedMap κ ν).get? k = none := rfl

theorem mem_keys_iff (m : OrderedMap κ ν) (k : κ) : k ∈ m.keys ↔ (m.get? k).isSome := by
  unfold keys get?
  induction m.entries with
  | nil => simp [lookup]
  | cons e es ih =>
    rw [List.map_cons, List.mem_cons, ih]
    by_cases h : e.1 = k
    · simp [lookup, h]
    · have h' : ¬ k = e.1 := fun he => h he.symm
      simp [lookup, h, h']

/-- Every entry is found by its key. -/
theorem get?_of_mem {m : OrderedMap κ ν} {k : κ} {v : ν} (h : (k, v) ∈ m.entries) :
    m.get? k = some v := by
  obtain ⟨entries, hnodup⟩ := m
  unfold get?
  simp only at *
  induction entries with
  | nil => cases h
  | cons e es ih =>
    rw [List.map_cons, List.nodup_cons] at hnodup
    rcases List.mem_cons.mp h with rfl | hes
    · simp [lookup]
    · have hne : ¬ e.1 = k := fun he => hnodup.1 (he ▸ List.mem_map_of_mem hes)
      simp [lookup, hne, ih hnodup.2 hes]

/-- The values are what the keys find. -/
theorem values_eq (m : OrderedMap κ ν) : m.values = m.keys.filterMap m.get? := by
  have hentries : ∀ es : List (κ × ν), (∀ e ∈ es, e ∈ m.entries) →
      es.map Prod.snd = (es.map Prod.fst).filterMap m.get? := by
    intro es hes
    induction es with
    | nil => rfl
    | cons e es ih =>
      rw [List.forall_mem_cons] at hes
      simp [get?_of_mem (k := e.1) (v := e.2) hes.1, ih hes.2]
  exact hentries m.entries fun _ he => he

/-! ## Changing an entry or adding one -/

/-- The entries after the value of `k` has become `f` of what it was. A new
key goes to the end. -/
def alterEntries (k : κ) (f : Option ν → ν) : List (κ × ν) → List (κ × ν)
  | [] => [(k, f none)]
  | (k', v) :: rest =>
    if k' = k then (k', f (some v)) :: rest else (k', v) :: alterEntries k f rest

theorem keys_alterEntries (k : κ) (f : Option ν → ν) (es : List (κ × ν)) :
    (alterEntries k f es).map Prod.fst =
      if k ∈ es.map Prod.fst then es.map Prod.fst else es.map Prod.fst ++ [k] := by
  induction es with
  | nil => simp [alterEntries]
  | cons e es ih =>
    obtain ⟨k', v⟩ := e
    by_cases h : k' = k
    · simp [alterEntries, h]
    · have h' : ¬ k = k' := fun e => h e.symm
      simp only [alterEntries, h, if_false, List.map_cons, ih, List.mem_cons, h', false_or]
      split <;> simp

theorem nodup_alterEntries (k : κ) (f : Option ν → ν) {es : List (κ × ν)}
    (h : (es.map Prod.fst).Nodup) : ((alterEntries k f es).map Prod.fst).Nodup := by
  rw [keys_alterEntries]
  split
  · exact h
  · rename_i hk
    rw [List.nodup_append]
    refine ⟨h, by simp, ?_⟩
    intro a ha b hb
    simp only [List.mem_singleton] at hb
    exact fun e => hk (hb ▸ e ▸ ha)

theorem lookup_alterEntries (k q : κ) (f : Option ν → ν) (es : List (κ × ν)) :
    lookup q (alterEntries k f es) = if q = k then some (f (lookup k es)) else lookup q es := by
  induction es with
  | nil =>
    by_cases h : q = k
    · simp [alterEntries, lookup, h]
    · have h' : ¬ k = q := fun e => h e.symm
      simp [alterEntries, lookup, h, h']
  | cons e es ih =>
    obtain ⟨k', v⟩ := e
    by_cases hk : k' = k
    · subst hk
      by_cases hq : q = k'
      · simp [alterEntries, lookup, hq]
      · have hq' : ¬ k' = q := fun e => hq e.symm
        simp [alterEntries, lookup, hq, hq']
    · by_cases hq : k' = q
      · subst hq
        simp [alterEntries, lookup, hk]
      · simp [alterEntries, lookup, hk, hq, ih]

/-- The map after the value of `k` has become `f` of what it was. A known
key keeps its place, a new one goes to the end. -/
def alter (m : OrderedMap κ ν) (k : κ) (f : Option ν → ν) : OrderedMap κ ν :=
  ⟨alterEntries k f m.entries, nodup_alterEntries k f m.nodup_keys⟩

theorem get?_alter (m : OrderedMap κ ν) (k q : κ) (f : Option ν → ν) :
    (m.alter k f).get? q = if q = k then some (f (m.get? k)) else m.get? q :=
  lookup_alterEntries k q f m.entries

theorem keys_alter (m : OrderedMap κ ν) (k : κ) (f : Option ν → ν) :
    (m.alter k f).keys = if k ∈ m.keys then m.keys else m.keys ++ [k] :=
  keys_alterEntries k f m.entries

/-- The map with the value for a new key. A known key keeps its value. -/
def insertNew (m : OrderedMap κ ν) (k : κ) (v : ν) : OrderedMap κ ν :=
  m.alter k fun old => old.getD v

/-! ## Changing an entry that is there -/

/-- The entries after the value of `k`, if there is one, has become `f` of
what it was. -/
def modifyEntries (k : κ) (f : ν → ν) : List (κ × ν) → List (κ × ν)
  | [] => []
  | (k', v) :: rest => (k', if k' = k then f v else v) :: modifyEntries k f rest

theorem keys_modifyEntries (k : κ) (f : ν → ν) (es : List (κ × ν)) :
    (modifyEntries k f es).map Prod.fst = es.map Prod.fst := by
  induction es with
  | nil => rfl
  | cons e es ih => simp only [modifyEntries, List.map_cons, ih]

theorem lookup_modifyEntries (k q : κ) (f : ν → ν) (es : List (κ × ν)) :
    lookup q (modifyEntries k f es) =
      if q = k then (lookup k es).map f else lookup q es := by
  induction es with
  | nil => simp [modifyEntries, lookup]
  | cons e es ih =>
    obtain ⟨k', v⟩ := e
    by_cases hq : k' = q
    · subst hq
      by_cases hk : k' = k <;> simp [modifyEntries, lookup, hk]
    · by_cases hk : k' = k
      · subst hk
        have hq' : ¬ q = k' := fun e => hq e.symm
        simp [modifyEntries, lookup, hq, hq', ih]
      · simp [modifyEntries, lookup, hq, hk, ih]

/-- The map after the value of `k`, if there is one, has become `f` of what
it was. -/
def modify (m : OrderedMap κ ν) (k : κ) (f : ν → ν) : OrderedMap κ ν :=
  ⟨modifyEntries k f m.entries, by rw [keys_modifyEntries]; exact m.nodup_keys⟩

theorem get?_modify (m : OrderedMap κ ν) (k q : κ) (f : ν → ν) :
    (m.modify k f).get? q = if q = k then (m.get? k).map f else m.get? q :=
  lookup_modifyEntries k q f m.entries

/-- Only what the change makes of the value that is there matters. -/
theorem modify_congr {m : OrderedMap κ ν} {k : κ} {f g : ν → ν}
    (h : ∀ v, m.get? k = some v → f v = g v) : m.modify k f = m.modify k g := by
  have hentries : ∀ es : List (κ × ν), (∀ e ∈ es, e ∈ m.entries) →
      modifyEntries k f es = modifyEntries k g es := by
    intro es hes
    induction es with
    | nil => rfl
    | cons e es ih =>
      rw [List.forall_mem_cons] at hes
      simp only [modifyEntries, ih hes.2]
      by_cases hk : e.1 = k
      · rw [if_pos hk, if_pos hk, h e.2 (get?_of_mem (hk ▸ hes.1))]
      · rw [if_neg hk, if_neg hk]
  exact ext (hentries m.entries fun _ he => he)

theorem keys_modify (m : OrderedMap κ ν) (k : κ) (f : ν → ν) : (m.modify k f).keys = m.keys :=
  keys_modifyEntries k f m.entries

end OrderedMap

end EventListing
