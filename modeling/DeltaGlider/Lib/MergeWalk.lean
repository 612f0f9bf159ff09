import Mathlib.Data.Finset.Card
import Mathlib.Order.Basic

/-!
# Merge walks over ordered maps

Two maps kept as lists strictly sorted by key (what a `BTreeMap` holds, in
the order its iterator yields), walked together by two cursors: the smaller
key is visited alone, an equal key on both sides is visited once as a pair.
Nothing here names a program: a diff over two ordered maps instantiates it.

* `OrdMap`: a list strictly sorted by key.
* `visits s d`: the walk, as the list of its visits.
* What the walk visits, for sorted `s` and `d`:

    (visits s d).filterMap Visit.leftOf  = leftOnly s d    (filterMap_leftOf_visits)
    (visits s d).filterMap Visit.rightOf = rightOnly s d   (filterMap_rightOf_visits)
    (visits s d).filterMap Visit.bothOf  = common s d      (filterMap_bothOf_visits)

  and how many keys each holds (`length_leftOnly`, `length_common`), and
  when some key is on one side only, or on both with values that pass a test
  (`leftOnly_ne_nil_iff`, `filter_common_ne_nil_iff`).
* `OrdMap.erase`: after removing several keys, a map holds the other keys
  with their values (`mem_keys_foldl_erase`, `lookup_foldl_erase_eq_some_iff`).
* A sample capped at `cap` entries, filled one entry at a time, is the first
  `cap` entries (`capped_take_append`).
-/

/-- A map kept as a list strictly sorted by key. -/
structure OrdMap (κ : Type*) [LinearOrder κ] (α : Type*) where
  entries : List (κ × α)
  sorted : entries.Pairwise fun a b => a.1 < b.1

namespace OrdMap

variable {κ α : Type*} [LinearOrder κ]

/-- The keys, in increasing order. -/
def keys (m : OrdMap κ α) : List κ := m.entries.map Prod.fst

/-- The keys as a set. -/
def keySet (m : OrdMap κ α) : Finset κ := m.keys.toFinset

theorem nodup_keys (m : OrdMap κ α) : m.keys.Nodup :=
  List.nodup_iff_pairwise_ne.mpr (List.pairwise_map.mpr (m.sorted.imp ne_of_lt))

/-- Removes the entry of a key, if there is one. -/
def erase (m : OrdMap κ α) (k : κ) : OrdMap κ α :=
  ⟨m.entries.filter fun e => e.1 ≠ k, m.sorted.sublist List.filter_sublist⟩

end OrdMap

namespace MergeWalk

variable {κ α β : Type*}

/-! ## The walk -/

/-- One visit of the walk: a key on the left only, on the right only, or on
both sides. -/
inductive Visit (κ α β : Type*) where
  | left (k : κ) (a : α)
  | right (k : κ) (b : β)
  | both (k : κ) (a : α) (b : β)
  deriving DecidableEq, Repr

/-- The entry of a visit of the left side alone. -/
def Visit.leftOf : Visit κ α β → Option (κ × α)
  | .left k a => some (k, a)
  | _ => none

/-- The entry of a visit of the right side alone. -/
def Visit.rightOf : Visit κ α β → Option (κ × β)
  | .right k b => some (k, b)
  | _ => none

/-- The key and both values of a visit of both sides. -/
def Visit.bothOf : Visit κ α β → Option (κ × α × β)
  | .both k a b => some (k, a, b)
  | _ => none

@[simp] theorem Visit.leftOf_left (k : κ) (a : α) : (Visit.left k a : Visit κ α β).leftOf = some (k, a) :=
  rfl

@[simp] theorem Visit.rightOf_right (k : κ) (b : β) :
    (Visit.right k b : Visit κ α β).rightOf = some (k, b) := rfl

@[simp] theorem Visit.bothOf_both (k : κ) (a : α) (b : β) :
    (Visit.both k a b).bothOf = some (k, a, b) := rfl

@[simp] theorem Visit.leftOf_right (k : κ) (b : β) : (Visit.right k b : Visit κ α β).leftOf = none := rfl

@[simp] theorem Visit.leftOf_both (k : κ) (a : α) (b : β) : (Visit.both k a b).leftOf = none := rfl

@[simp] theorem Visit.rightOf_left (k : κ) (a : α) : (Visit.left k a : Visit κ α β).rightOf = none := rfl

@[simp] theorem Visit.rightOf_both (k : κ) (a : α) (b : β) : (Visit.both k a b).rightOf = none := rfl

@[simp] theorem Visit.bothOf_left (k : κ) (a : α) : (Visit.left k a : Visit κ α β).bothOf = none := rfl

@[simp] theorem Visit.bothOf_right (k : κ) (b : β) : (Visit.right k b : Visit κ α β).bothOf = none := rfl

variable [LinearOrder κ]

/-- The walk of two lists sorted by key: the visits in the order the two
cursors make them. -/
def visits : List (κ × α) → List (κ × β) → List (Visit κ α β)
  | (k, a) :: s, (k', b) :: d =>
    match compare k k' with
    | .eq => .both k a b :: visits s d
    | .lt => .left k a :: visits s ((k', b) :: d)
    | .gt => .right k' b :: visits ((k, a) :: s) d
  | (k, a) :: s, [] => .left k a :: visits s []
  | [], (k', b) :: d => .right k' b :: visits [] d
  | [], [] => []
termination_by s d => s.length + d.length

@[simp] theorem visits_nil : visits ([] : List (κ × α)) ([] : List (κ × β)) = [] := by
  rw [visits.eq_4]

theorem visits_cons_cons {k k' : κ} {a : α} {b : β} {s : List (κ × α)} {d : List (κ × β)} :
    visits ((k, a) :: s) ((k', b) :: d) =
      match compare k k' with
      | .eq => .both k a b :: visits s d
      | .lt => .left k a :: visits s ((k', b) :: d)
      | .gt => .right k' b :: visits ((k, a) :: s) d := by
  rw [visits.eq_1]

theorem visits_cons_of_eq {k : κ} {a : α} {b : β} {s : List (κ × α)} {d : List (κ × β)} :
    visits ((k, a) :: s) ((k, b) :: d) = .both k a b :: visits s d := by
  rw [visits_cons_cons, compare_eq_iff_eq.mpr rfl]

theorem visits_cons_of_lt {k k' : κ} {a : α} {b : β} {s : List (κ × α)} {d : List (κ × β)}
    (h : k < k') : visits ((k, a) :: s) ((k', b) :: d) = .left k a :: visits s ((k', b) :: d) := by
  rw [visits_cons_cons, compare_lt_iff_lt.mpr h]

theorem visits_cons_of_gt {k k' : κ} {a : α} {b : β} {s : List (κ × α)} {d : List (κ × β)}
    (h : k' < k) : visits ((k, a) :: s) ((k', b) :: d) = .right k' b :: visits ((k, a) :: s) d := by
  rw [visits_cons_cons, compare_gt_iff_gt.mpr h]

theorem visits_cons_nil {k : κ} {a : α} {s : List (κ × α)} :
    visits ((k, a) :: s) ([] : List (κ × β)) = .left k a :: visits s [] := by
  rw [visits.eq_2]

theorem visits_nil_cons {k' : κ} {b : β} {d : List (κ × β)} :
    visits ([] : List (κ × α)) ((k', b) :: d) = .right k' b :: visits [] d := by
  rw [visits.eq_3]

/-! ## What the walk should visit -/

/-- The entries of `s` whose key `d` lacks. -/
def leftOnly (s : List (κ × α)) (d : List (κ × β)) : List (κ × α) :=
  s.filter fun e => e.1 ∉ d.map Prod.fst

/-- The entries of `d` whose key `s` lacks. -/
def rightOnly (s : List (κ × α)) (d : List (κ × β)) : List (κ × β) :=
  d.filter fun e => e.1 ∉ s.map Prod.fst

/-- The keys on both sides, in the order of `s`, with both values. -/
def common (s : List (κ × α)) (d : List (κ × β)) : List (κ × α × β) :=
  s.filterMap fun e => (d.lookup e.1).map fun b => (e.1, e.2, b)

/-- Sorted strictly by key. -/
abbrev Sorted (s : List (κ × α)) : Prop := s.Pairwise fun a b => a.1 < b.1

/-! ## Lemmas -/

section Keys

variable {k : κ} {a : α} {s : List (κ × α)}

/-- Below the first key of a sorted list, no key is in it. -/
theorem not_mem_keys_of_lt (hs : Sorted ((k, a) :: s)) {x : κ} (hx : x < k) :
    x ∉ ((k, a) :: s).map Prod.fst := by
  rw [List.map_cons, List.mem_cons, not_or]
  refine ⟨hx.ne, fun hmem => ?_⟩
  obtain ⟨e, he, rfl⟩ := List.mem_map.mp hmem
  exact lt_asymm hx (List.rel_of_pairwise_cons hs he)

/-- Every key after the first of a sorted list is above it. -/
theorem lt_of_mem_tail (hs : Sorted ((k, a) :: s)) {e : κ × α} (he : e ∈ s) : k < e.1 :=
  List.rel_of_pairwise_cons hs he

theorem lookup_cons_of_ne {b : α} {x : κ} (h : x ≠ k) : ((k, b) :: s).lookup x = s.lookup x := by
  have hbeq : (x == k) = false := by simpa [beq_iff_eq] using h
  simp [List.lookup_cons, hbeq]

theorem lookup_eq_none_of_not_mem {x : κ} (h : x ∉ s.map Prod.fst) : s.lookup x = none := by
  induction s with
  | nil => rfl
  | cons e s ih =>
    rw [List.map_cons, List.mem_cons, not_or] at h
    rw [← ih h.2]
    exact lookup_cons_of_ne h.1

/-- A filter over keys all unlike `k'` ignores an entry of key `k'`. -/
theorem filter_not_mem_cons {γ : Type*} {k' : κ} {b : γ} {d : List (κ × γ)}
    (hne : ∀ e ∈ s, e.1 ≠ k') :
    s.filter (fun e => e.1 ∉ ((k', b) :: d).map Prod.fst) = s.filter fun e => e.1 ∉ d.map Prod.fst := by
  refine List.filter_congr fun e he => ?_
  simp [hne e he]

theorem isSome_lookup_iff {x : κ} : (s.lookup x).isSome ↔ x ∈ s.map Prod.fst := by
  induction s with
  | nil => simp
  | cons e s ih =>
    by_cases hx : x = e.1
    · subst hx
      simp
    · rw [lookup_cons_of_ne hx, ih, List.map_cons, List.mem_cons]
      simp [hx]

/-- In a list of distinct keys, a lookup finds exactly the entries. -/
theorem lookup_eq_some_iff_mem (hs : (s.map Prod.fst).Nodup) {x : κ} {b : α} :
    s.lookup x = some b ↔ (x, b) ∈ s := by
  induction s with
  | nil => simp
  | cons e s ih =>
    obtain ⟨k, a⟩ := e
    rw [List.map_cons, List.nodup_cons] at hs
    by_cases hx : x = k
    · subst hx
      -- the first entry answers, and no later entry has its key
      have hlater : (x, b) ∉ s := fun h => hs.1 (List.mem_map.mpr ⟨_, h, rfl⟩)
      simp [hlater, eq_comm]
    · rw [lookup_cons_of_ne hx, ih hs.2, List.mem_cons]
      simp [hx]

/-- Filtering by key keeps the lookups of the keys kept. -/
theorem lookup_filter_key (p : κ → Bool) {x : κ} :
    (s.filter fun e => p e.1).lookup x = if p x then s.lookup x else none := by
  induction s with
  | nil => simp
  | cons e s ih =>
    obtain ⟨k, a⟩ := e
    by_cases hx : x = k
    · subst hx
      by_cases hp : p x <;> simp [hp, ih]
    · rw [List.filter_cons, lookup_cons_of_ne hx]
      split
      · rw [lookup_cons_of_ne hx, ih]
      · exact ih

theorem filterMap_lookup_cons {γ : Type*} {k' : κ} {b : γ} {d : List (κ × γ)}
    (hne : ∀ e ∈ s, e.1 ≠ k') :
    s.filterMap (fun e => (((k', b) :: d).lookup e.1).map fun c => (e.1, e.2, c)) =
      s.filterMap fun e => (d.lookup e.1).map fun c => (e.1, e.2, c) := by
  refine List.filterMap_congr fun e he => ?_
  rw [lookup_cons_of_ne (hne e he)]

end Keys

section Walk

variable {s : List (κ × α)} {d : List (κ × β)}

/-- The three views of the walk, by one induction along it: the visits
alone on the left, alone on the right, and on both sides. -/
theorem filterMap_visits (hs : Sorted s) (hd : Sorted d) :
    (visits s d).filterMap Visit.leftOf = leftOnly s d ∧
      (visits s d).filterMap Visit.rightOf = rightOnly s d ∧
      (visits s d).filterMap Visit.bothOf = common s d := by
  fun_induction visits s d with
  | case1 k a s k' b d hcmp ih =>
    -- equal keys: `k` is on both sides, and the rest of each side lies above it
    have hk : k = k' := compare_eq_iff_eq.mp hcmp
    subst hk
    obtain ⟨ihl, ihr, ihb⟩ := ih hs.of_cons hd.of_cons
    have hnes : ∀ e ∈ s, e.1 ≠ k := fun e he => (lt_of_mem_tail hs he).ne'
    have hned : ∀ e ∈ d, e.1 ≠ k := fun e he => (lt_of_mem_tail hd he).ne'
    refine ⟨?_, ?_, ?_⟩
    · rw [List.filterMap_cons_none rfl, ihl, leftOnly, leftOnly,
        List.filter_cons_of_neg (by simp), filter_not_mem_cons hnes]
    · rw [List.filterMap_cons_none rfl, ihr, rightOnly, rightOnly,
        List.filter_cons_of_neg (by simp), filter_not_mem_cons hned]
    · rw [List.filterMap_cons_some (Visit.bothOf_both k a b), ihb, common, common,
        List.filterMap_cons, filterMap_lookup_cons hnes]
      simp
  | case2 k a s k' b d hcmp ih =>
    -- the left key is below every right key: it is missing on the right
    have hk : k < k' := compare_lt_iff_lt.mp hcmp
    obtain ⟨ihl, ihr, ihb⟩ := ih hs.of_cons hd
    have hne : ∀ e ∈ (k', b) :: d, e.1 ≠ k := by
      intro e he
      rcases List.mem_cons.mp he with rfl | he
      · exact hk.ne'
      · exact (hk.trans (lt_of_mem_tail hd he)).ne'
    refine ⟨?_, ?_, ?_⟩
    · rw [List.filterMap_cons_some (Visit.leftOf_left k a), ihl, leftOnly, leftOnly,
        List.filter_cons_of_pos (by simpa using not_mem_keys_of_lt hd hk)]
    · rw [List.filterMap_cons_none rfl, ihr, rightOnly, rightOnly, filter_not_mem_cons hne]
    · rw [List.filterMap_cons_none rfl, ihb, common, common,
        List.filterMap_cons_none (by rw [lookup_eq_none_of_not_mem (not_mem_keys_of_lt hd hk)]; rfl)]
  | case3 k a s k' b d hcmp ih =>
    -- the right key is below every left key: it is missing on the left
    have hk : k' < k := compare_gt_iff_gt.mp hcmp
    obtain ⟨ihl, ihr, ihb⟩ := ih hs hd.of_cons
    have hne : ∀ e ∈ (k, a) :: s, e.1 ≠ k' := by
      intro e he
      rcases List.mem_cons.mp he with rfl | he
      · exact hk.ne'
      · exact (hk.trans (lt_of_mem_tail hs he)).ne'
    refine ⟨?_, ?_, ?_⟩
    · rw [List.filterMap_cons_none rfl, ihl, leftOnly, leftOnly, filter_not_mem_cons hne]
    · rw [List.filterMap_cons_some (Visit.rightOf_right k' b), ihr, rightOnly, rightOnly,
        List.filter_cons_of_pos (by simpa using not_mem_keys_of_lt hs hk)]
    · rw [List.filterMap_cons_none rfl, ihb, common, common, filterMap_lookup_cons hne]
  | case4 k a s ih =>
    obtain ⟨ihl, ihr, ihb⟩ := ih hs.of_cons hd
    refine ⟨?_, ?_, ?_⟩
    · rw [List.filterMap_cons_some (Visit.leftOf_left k a), ihl]
      simp [leftOnly]
    · rw [List.filterMap_cons_none rfl, ihr]
      rfl
    · rw [List.filterMap_cons_none rfl, ihb]
      rfl
  | case5 k' b d ih =>
    obtain ⟨ihl, ihr, ihb⟩ := ih hs hd.of_cons
    refine ⟨?_, ?_, ?_⟩
    · rw [List.filterMap_cons_none rfl, ihl]
      rfl
    · rw [List.filterMap_cons_some (Visit.rightOf_right k' b), ihr]
      simp [rightOnly]
    · rw [List.filterMap_cons_none rfl, ihb]
      rfl
  | case6 => exact ⟨rfl, rfl, rfl⟩

/-- The walk visits alone exactly the left entries whose key the right lacks,
in order. -/
theorem filterMap_leftOf_visits (hs : Sorted s) (hd : Sorted d) :
    (visits s d).filterMap Visit.leftOf = leftOnly s d :=
  (filterMap_visits hs hd).1

/-- The walk visits alone exactly the right entries whose key the left
lacks, in order. -/
theorem filterMap_rightOf_visits (hs : Sorted s) (hd : Sorted d) :
    (visits s d).filterMap Visit.rightOf = rightOnly s d :=
  (filterMap_visits hs hd).2.1

/-- The walk visits as pairs exactly the keys on both sides, in order, with
both values. -/
theorem filterMap_bothOf_visits (hs : Sorted s) (hd : Sorted d) :
    (visits s d).filterMap Visit.bothOf = common s d :=
  (filterMap_visits hs hd).2.2

end Walk

/-! ## How many keys -/

section Count

variable {s : List (κ × α)} {d : List (κ × β)}

theorem rightOnly_eq_leftOnly : rightOnly s d = leftOnly d s := rfl

/-- The keys only on the left are the set difference of the key sets. -/
theorem length_leftOnly (hs : (s.map Prod.fst).Nodup) :
    (leftOnly s d).length = ((s.map Prod.fst).toFinset \ (d.map Prod.fst).toFinset).card := by
  have hkeys : (leftOnly s d).map Prod.fst = (s.map Prod.fst).filter fun x => x ∉ d.map Prod.fst := by
    rw [leftOnly, List.filter_map]
    rfl
  rw [← List.length_map Prod.fst, hkeys, ← List.toFinset_card_of_nodup (hs.filter _),
    List.toFinset_filter, Finset.sdiff_eq_filter]
  refine congrArg Finset.card (Finset.filter_congr fun x _ => ?_)
  simp

/-- The keys on both sides are the intersection of the key sets. -/
theorem length_common (hs : (s.map Prod.fst).Nodup) :
    (common s d).length = ((s.map Prod.fst).toFinset ∩ (d.map Prod.fst).toFinset).card := by
  have hkeys : (common s d).map Prod.fst = (s.map Prod.fst).filter fun x => x ∈ d.map Prod.fst := by
    induction s with
    | nil => rfl
    | cons e s ih =>
      rw [common, List.filterMap_cons, List.map_cons, List.filter_cons]
      by_cases he : e.1 ∈ d.map Prod.fst
      · obtain ⟨b, hb⟩ := Option.isSome_iff_exists.mp (isSome_lookup_iff.mpr he)
        rw [hb, if_pos (by simpa using he)]
        simpa [common] using ih (List.nodup_cons.mp hs).2
      · rw [lookup_eq_none_of_not_mem he, if_neg (by simpa using he)]
        exact ih (List.nodup_cons.mp hs).2
  rw [← List.length_map Prod.fst, hkeys, ← List.toFinset_card_of_nodup (hs.filter _),
    List.toFinset_filter, ← Finset.filter_mem_eq_inter]
  refine congrArg Finset.card (Finset.filter_congr fun x _ => ?_)
  simp

/-- Some key of `s` is missing from `d`. -/
theorem leftOnly_ne_nil_iff : leftOnly s d ≠ [] ↔ ∃ k ∈ s.map Prod.fst, k ∉ d.map Prod.fst := by
  rw [ne_eq, leftOnly, List.filter_eq_nil_iff]
  constructor
  · intro h
    simp only [not_forall, not_not] at h
    obtain ⟨e, he, hk⟩ := h
    exact ⟨e.1, List.mem_map_of_mem he, by simpa using hk⟩
  · rintro ⟨_, hk, hd⟩ h
    obtain ⟨e, he, rfl⟩ := List.mem_map.mp hk
    exact h e he (by simpa using hd)

/-- The entries of `s` with a key in `d`, each with its two values. -/
theorem mem_common_iff (hs : (s.map Prod.fst).Nodup) {k : κ} {a : α} {b : β} :
    (k, a, b) ∈ common s d ↔ s.lookup k = some a ∧ d.lookup k = some b := by
  rw [common, List.mem_filterMap, lookup_eq_some_iff_mem hs]
  constructor
  · rintro ⟨⟨k', a'⟩, he, hmap⟩
    obtain ⟨b', hb', heq⟩ := Option.map_eq_some_iff.mp hmap
    simp only [Prod.mk.injEq] at heq
    obtain ⟨rfl, rfl, rfl⟩ := heq
    exact ⟨he, hb'⟩
  · rintro ⟨he, hb⟩
    exact ⟨(k, a), he, by simp [hb]⟩

/-- Some common key passes a test on its two values. -/
theorem filter_common_ne_nil_iff (hs : (s.map Prod.fst).Nodup) (f : κ × α × β → Bool) :
    (common s d).filter f ≠ [] ↔
      ∃ k a b, s.lookup k = some a ∧ d.lookup k = some b ∧ f (k, a, b) = true := by
  rw [← List.length_pos_iff, List.length_pos_iff_exists_mem]
  constructor
  · rintro ⟨⟨k, a, b⟩, hp⟩
    rw [List.mem_filter] at hp
    obtain ⟨ha, hb⟩ := (mem_common_iff hs).mp hp.1
    exact ⟨k, a, b, ha, hb, hp.2⟩
  · rintro ⟨k, a, b, ha, hb, hf⟩
    exact ⟨(k, a, b), List.mem_filter.mpr ⟨(mem_common_iff hs).mpr ⟨ha, hb⟩, hf⟩⟩

end Count

/-! ## Capped samples -/

/-- Pushing onto the first `cap` entries of a list while fewer than `cap`
are kept gives the first `cap` entries of the longer list. -/
theorem capped_take_append {γ : Type*} (l : List γ) (x : γ) (cap : Nat) :
    (if (l.take cap).length < cap then l.take cap ++ [x] else l.take cap) = (l ++ [x]).take cap := by
  by_cases hl : l.length < cap
  · have hlen : (l ++ [x]).length ≤ cap := by
      rw [List.length_append, List.length_singleton]
      omega
    rw [List.take_of_length_le hl.le, if_pos hl, List.take_of_length_le hlen]
  · have hle : cap ≤ l.length := not_lt.mp hl
    rw [if_neg (by rw [List.length_take]; omega), List.take_append_of_le_length hle]

end MergeWalk

namespace OrdMap

variable {κ α : Type*} [LinearOrder κ]

/-! ## Removing keys -/

/-- Removing keys one after another keeps the entries of the other keys. -/
theorem entries_foldl_erase (ks : List κ) (m : OrdMap κ α) :
    (ks.foldl erase m).entries = m.entries.filter fun e => e.1 ∉ ks := by
  induction ks generalizing m with
  | nil => simp
  | cons k ks ih =>
    rw [List.foldl_cons, ih, erase, List.filter_filter]
    refine List.filter_congr fun e _ => ?_
    simp [Bool.and_comm]

theorem mem_keys_foldl_erase {ks : List κ} {m : OrdMap κ α} {x : κ} :
    x ∈ (ks.foldl erase m).keys ↔ x ∈ m.keys ∧ x ∉ ks := by
  simp only [keys, entries_foldl_erase, List.mem_map, List.mem_filter]
  constructor
  · rintro ⟨e, ⟨he, hk⟩, rfl⟩
    exact ⟨⟨e, he, rfl⟩, by simpa using hk⟩
  · rintro ⟨⟨e, he, rfl⟩, hk⟩
    exact ⟨e, ⟨he, by simpa using hk⟩, rfl⟩

theorem lookup_foldl_erase_eq_some_iff {ks : List κ} {m : OrdMap κ α} {x : κ} {a : α} :
    (ks.foldl erase m).entries.lookup x = some a ↔ x ∉ ks ∧ m.entries.lookup x = some a := by
  rw [entries_foldl_erase, MergeWalk.lookup_filter_key (fun k => decide (k ∉ ks))]
  by_cases hx : x ∈ ks <;> simp [hx]

/-- Two maps have one key set when each holds every key of the other. -/
theorem keySet_eq_iff {β : Type*} {m : OrdMap κ α} {n : OrdMap κ β} :
    m.keySet = n.keySet ↔ (∀ k ∈ m.keys, k ∈ n.keys) ∧ ∀ k ∈ n.keys, k ∈ m.keys := by
  simp only [keySet, Finset.ext_iff, List.mem_toFinset]
  constructor
  · intro h
    exact ⟨fun k hk => (h k).mp hk, fun k hk => (h k).mpr hk⟩
  · rintro ⟨hmn, hnm⟩ k
    exact ⟨hmn k, hnm k⟩

end OrdMap
