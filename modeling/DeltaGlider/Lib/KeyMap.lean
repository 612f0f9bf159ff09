import Mathlib

/-!
# Finite maps: retaining, updating in place, and the total of a weight

A hash map whose iteration order is unspecified is modelled by Mathlib's
`AList`, whose entries have distinct keys.  This adds the three things a
store kept in such maps does besides `insert`, `erase` and `lookup`:

* `retain p s` (`HashMap::retain`): the entries that satisfy `p`;
* `updateEach f s` (a `for (k, v) in map.iter_mut()` loop with `?` in its
  body): each value replaced by what `f` answers, in the map's order, up to
  the first failure, which keeps the updates made before it;
* `total w s`: the sum of a weight over the entries.

An accounting invariant ("this counter is the sum of those sizes") needs how
the total moves: `total_insert` and `total_erase` (by the weight of the entry
replaced or removed, `weightAt`), `total_retain_add` (what is retained plus
what is dropped), `total_updateEach` (unchanged when `f` keeps the weight).
The lookups after `retain` and `updateEach` are `lookup_retain`,
`lookup_updateEach_map` and `lookup_updateEach_eq_some`.  Erasing a list of
keys one by one is a `retain` (`foldl_erase_eq_retain`), which removes one
entry per distinct key present (`length_foldl_erase`).
-/

namespace KeyMap

variable {α : Type*} [DecidableEq α] {β : α → Type*}

/-! ## Definitions -/

/-- `HashMap::retain`: the entries that satisfy `p`, in their order. -/
def retain (p : (a : α) → β a → Bool) (s : AList β) : AList β :=
  ⟨s.entries.filter (fun e => p e.1 e.2), s.nodupKeys.sublist List.filter_sublist⟩

/-- The sum of `w` over the entries. -/
def total (w : (a : α) → β a → Nat) (s : AList β) : Nat :=
  (s.entries.map fun e => w e.1 e.2).sum

/-- The weight of the entry at `a`, zero when there is none. -/
def weightAt (w : (a : α) → β a → Nat) (a : α) (s : AList β) : Nat :=
  ((s.lookup a).map (w a)).getD 0

/-- The loop of `updateEach` over the entries. -/
def updateEntries {ε : Type*} (f : (a : α) → β a → Except ε (β a)) :
    List (Sigma β) → List (Sigma β) × Except ε Unit
  | [] => ([], .ok ())
  | ⟨a, b⟩ :: rest =>
    match f a b with
    | .error e => (⟨a, b⟩ :: rest, .error e)
    | .ok b' => (⟨a, b'⟩ :: (updateEntries f rest).1, (updateEntries f rest).2)

omit [DecidableEq α] in
theorem updateEntries_cons {ε : Type*} (f : (a : α) → β a → Except ε (β a)) (a : α) (b : β a)
    (rest : List (Sigma β)) :
    updateEntries f (⟨a, b⟩ :: rest) =
      match f a b with
      | .error e => (⟨a, b⟩ :: rest, .error e)
      | .ok b' => (⟨a, b'⟩ :: (updateEntries f rest).1, (updateEntries f rest).2) := rfl

omit [DecidableEq α] in
theorem keys_updateEntries {ε : Type*} (f : (a : α) → β a → Except ε (β a)) :
    ∀ l : List (Sigma β), (updateEntries f l).1.keys = l.keys
  | [] => rfl
  | ⟨a, b⟩ :: rest => by
    rw [updateEntries_cons]
    cases f a b with
    | error e => rfl
    | ok b' => simp only [List.keys_cons, keys_updateEntries f rest]

omit [DecidableEq α] in
theorem nodupKeys_updateEntries {ε : Type*} (f : (a : α) → β a → Except ε (β a)) (s : AList β) :
    (updateEntries f s.entries).1.NodupKeys := by
  rw [List.NodupKeys, keys_updateEntries]
  exact s.nodupKeys

/-- Each value replaced by what `f` answers, in the map's order, up to the
first failure: the map holds the updates made before it. -/
def updateEach {ε : Type*} (f : (a : α) → β a → Except ε (β a)) (s : AList β) :
    AList β × Except ε Unit :=
  (⟨(updateEntries f s.entries).1, nodupKeys_updateEntries f s⟩, (updateEntries f s.entries).2)

/-! ## Lookups -/

variable {p : (a : α) → β a → Bool} {w : (a : α) → β a → Nat} {a : α} {b : β a} {s : AList β}

theorem lookup_retain (p : (a : α) → β a → Bool) (a : α) (s : AList β) :
    (retain p s).lookup a = (s.lookup a).filter (p a) := by
  obtain ⟨l, nd⟩ := s
  delta retain AList.lookup
  dsimp only
  induction l with
  | nil => rfl
  | cons e l ih =>
    obtain ⟨a', b'⟩ := e
    have ih' := ih (List.nodupKeys_cons.mp nd).2
    by_cases ha : a = a'
    · subst ha
      -- the key is absent from the tail, so filtering it leaves nothing to find
      have hnone : (l.filter fun e => p e.1 e.2).dlookup a = none := by
        rw [List.dlookup_eq_none]
        exact fun hm => (List.nodupKeys_cons.mp nd).1 ((List.filter_sublist.map Sigma.fst).subset hm)
      by_cases hp : p a b' <;> simp [hp, hnone, Option.filter_some]
    · by_cases hp : p a' b' <;>
        simp [hp, List.dlookup_cons_ne _ ⟨a', b'⟩ ha, ih']

/-- The lookup of a view of the values that `f` keeps is unchanged by
`updateEach`, whether it ran to the end or stopped. -/
theorem lookup_updateEach_map {ε γ : Type*} (f : (a : α) → β a → Except ε (β a))
    (g : (a : α) → β a → γ) (hf : ∀ a b b', f a b = .ok b' → g a b' = g a b) (a : α)
    (s : AList β) : ((updateEach f s).1.lookup a).map (g a) = (s.lookup a).map (g a) := by
  obtain ⟨l, nd⟩ := s
  delta updateEach AList.lookup
  dsimp only
  clear nd
  induction l with
  | nil => rfl
  | cons e l ih =>
    obtain ⟨a', b'⟩ := e
    rw [updateEntries_cons]
    cases hfb : f a' b' with
    | error e => rfl
    | ok b'' =>
      by_cases ha : a = a'
      · subst ha
        simp [hf a b' b'' hfb]
      · simp only [List.dlookup_cons_ne _ ⟨a', _⟩ ha, ih]

/-- What a lookup after `updateEach` finds: `f`'s answer for the entry that
was there, or, only when the loop stopped early, that entry as it was. -/
theorem lookup_updateEach_eq_some {ε : Type*} {f : (a : α) → β a → Except ε (β a)} {b' : β a}
    (h : (updateEach f s).1.lookup a = some b') :
    ∃ b, s.lookup a = some b ∧ (f a b = .ok b' ∨ (b' = b ∧ (updateEach f s).2 ≠ .ok ())) := by
  obtain ⟨l, nd⟩ := s
  delta updateEach AList.lookup at h ⊢
  dsimp only at h ⊢
  clear nd
  induction l with
  | nil => cases h
  | cons e l ih =>
    obtain ⟨a', b₀⟩ := e
    rw [updateEntries_cons] at h ⊢
    cases hfb : f a' b₀ with
    | error e =>
      -- the loop stopped here: every entry is as it was
      rw [hfb] at h
      exact ⟨b', h, .inr ⟨rfl, nofun⟩⟩
    | ok b₁ =>
      rw [hfb] at h
      dsimp only at h ⊢
      by_cases ha : a = a'
      · subst ha
        rw [List.dlookup_cons_eq, Option.some_inj] at h
        subst h
        exact ⟨b₀, List.dlookup_cons_eq _ _ _, .inl hfb⟩
      · rw [List.dlookup_cons_ne _ ⟨a', _⟩ ha] at h
        rw [List.dlookup_cons_ne _ ⟨a', _⟩ ha]
        exact ih h

/-! ## Totals -/

/-- Erasing a key from an entry list takes its first entry's weight off the
sum. -/
theorem sum_map_kerase (f : Sigma β → Nat) (a : α) (l : List (Sigma β)) :
    ((l.kerase a).map f).sum + ((l.dlookup a).map fun b => f ⟨a, b⟩).getD 0 = (l.map f).sum := by
  induction l with
  | nil => simp
  | cons e l ih =>
    obtain ⟨a', b'⟩ := e
    by_cases ha : a = a'
    · subst ha
      simp only [List.kerase_cons_eq (show a = (⟨a, b'⟩ : Sigma β).1 from rfl), List.dlookup_cons_eq, Option.map_some, Option.getD_some,
        List.map_cons, List.sum_cons]
      omega
    · simp only [List.kerase_cons_ne (show a ≠ (⟨a', b'⟩ : Sigma β).1 from ha), List.dlookup_cons_ne _ ⟨a', b'⟩ ha, List.map_cons,
        List.sum_cons]
      omega

omit [DecidableEq α] in
@[simp] theorem total_empty (w : (a : α) → β a → Nat) : total w (∅ : AList β) = 0 := rfl

theorem weightAt_of_lookup (h : s.lookup a = some b) : weightAt w a s = w a b := by
  delta weightAt
  rw [h]
  rfl

theorem weightAt_of_lookup_none (h : s.lookup a = none) : weightAt w a s = 0 := by
  delta weightAt
  rw [h]
  rfl

theorem total_erase (w : (a : α) → β a → Nat) (a : α) (s : AList β) :
    total w (s.erase a) + weightAt w a s = total w s :=
  sum_map_kerase (fun e => w e.1 e.2) a s.entries

theorem total_insert (w : (a : α) → β a → Nat) (a : α) (b : β a) (s : AList β) :
    total w (s.insert a b) + weightAt w a s = w a b + total w s := by
  have herase := total_erase w a s
  -- inserting is erasing the key, then putting the new entry in front
  have hinsert : total w (s.insert a b) = w a b + total w (s.erase a) := by
    delta total
    simp only [AList.entries_insert, List.map_cons, List.sum_cons]
    rfl
  omega

theorem weightAt_le_total (w : (a : α) → β a → Nat) (a : α) (s : AList β) :
    weightAt w a s ≤ total w s := by
  have := total_erase w a s
  omega

omit [DecidableEq α] in
theorem total_retain_add (w : (a : α) → β a → Nat) (p : (a : α) → β a → Bool) (s : AList β) :
    total w (retain p s) + total w (retain (fun a b => !p a b) s) = total w s := by
  obtain ⟨l, nd⟩ := s
  delta total retain
  dsimp only
  clear nd
  induction l with
  | nil => rfl
  | cons e l ih =>
    by_cases hp : p e.1 e.2 <;> simp [hp] <;> omega

omit [DecidableEq α] in
/-- `updateEach` with an `f` that keeps the weight keeps the total. -/
theorem total_updateEach {ε : Type*} (f : (a : α) → β a → Except ε (β a))
    (hf : ∀ a b b', f a b = .ok b' → w a b' = w a b) (s : AList β) :
    total w (updateEach f s).1 = total w s := by
  obtain ⟨l, nd⟩ := s
  delta total updateEach
  dsimp only
  clear nd
  induction l with
  | nil => rfl
  | cons e l ih =>
    obtain ⟨a', b'⟩ := e
    rw [updateEntries_cons]
    cases hfb : f a' b' with
    | error e => rfl
    | ok b'' => simp only [List.map_cons, List.sum_cons, hf a' b' b'' hfb, ih]

/-! ## Erasing several keys

A pass that removes entries one key at a time (a `remove` per key, or a
`retain` whose closure runs once per entry) leaves what `retain` leaves
(`foldl_erase_eq_retain`); each removal of a key that is there takes one
entry off (`length_foldl_erase`). -/

omit [DecidableEq α] in
theorem retain_congr {q : (a : α) → β a → Bool} (h : ∀ e ∈ s.entries, p e.1 e.2 = q e.1 e.2) :
    retain p s = retain q s :=
  AList.ext (List.filter_congr h)

omit [DecidableEq α] in
theorem retain_retain (q : (a : α) → β a → Bool) :
    retain p (retain q s) = retain (fun a b => p a b && q a b) s :=
  AList.ext List.filter_filter

theorem erase_eq_retain (a : α) (s : AList β) : s.erase a = retain (fun a' _ => decide (a' ≠ a)) s := by
  obtain ⟨l, nd⟩ := s
  apply AList.ext
  show l.kerase a = l.filter _
  induction l with
  | nil => rfl
  | cons e l ih =>
    have ih' := ih (List.nodupKeys_cons.mp nd).2
    by_cases ha : a = e.1
    · -- the key is absent from the tail, so the filter keeps all of it
      subst ha
      have hkeep : l.filter (fun e' => decide (e'.1 ≠ e.1)) = l := by
        apply List.filter_eq_self.mpr
        intro e' he'
        refine decide_eq_true fun heq => (List.nodupKeys_cons.mp nd).1 ?_
        exact heq ▸ List.mem_keys_of_mem he'
      rw [List.kerase_cons_eq rfl, List.filter_cons_of_neg (by simp), hkeep]
    · simp [List.kerase_cons_ne ha, ih', Ne.symm ha]

theorem foldl_erase_eq_retain (ks : List α) (s : AList β) :
    ks.foldl (fun s k => s.erase k) s = retain (fun a _ => decide (a ∉ ks)) s := by
  induction ks generalizing s with
  | nil => exact AList.ext (List.filter_true _).symm
  | cons k ks ih =>
    rw [List.foldl_cons, ih, erase_eq_retain, retain_retain]
    apply retain_congr
    intro e _
    simp [Bool.and_comm]

theorem lookup_foldl_erase (ks : List α) (a : α) (s : AList β) :
    (ks.foldl (fun s k => s.erase k) s).lookup a = if a ∈ ks then none else s.lookup a := by
  rw [foldl_erase_eq_retain, lookup_retain]
  by_cases ha : a ∈ ks
  · simp [ha]
  · rw [if_neg ha]
    cases s.lookup a <;> simp [ha]

theorem length_foldl_erase {ks : List α} (hks : ks.Nodup) (hmem : ∀ k ∈ ks, k ∈ s) :
    (ks.foldl (fun s k => s.erase k) s).entries.length = s.entries.length - ks.length := by
  induction ks generalizing s with
  | nil => rfl
  | cons k ks ih =>
    have hk : k ∈ s.keys := hmem k List.mem_cons_self
    -- the rest of the keys are still there once `k` is gone
    have hrest : ∀ k' ∈ ks, k' ∈ s.erase k := by
      intro k' hk'
      rw [AList.mem_erase]
      exact ⟨fun h => (List.nodup_cons.mp hks).1 (h ▸ hk'), hmem k' (List.mem_cons_of_mem _ hk')⟩
    have hlen : (s.erase k).entries.length = s.entries.length - 1 := by
      have := List.length_erase_of_mem hk
      rw [← AList.keys_erase] at this
      simpa [AList.keys, List.keys] using this
    rw [List.foldl_cons, ih (List.nodup_cons.mp hks).2 hrest, hlen, List.length_cons]
    omega

end KeyMap
