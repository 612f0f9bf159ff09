import Mathlib

/-!
# Sorted lists: ordered sets and cursor pages

Two things a listing over an ordered key space does, neither tied to a
program:

* `OrdSet`: a set kept as a strictly increasing list, which is what a
  B-tree set holds and the order it yields it in, with `insert`; popping its
  front while it lies in a lower set pops the set's elements in it
  (`takeWhile_eq_filter_of_isLowerSet`);
* cursor pagination of a list sorted by a key: the page after a cursor is the
  first `limit` entries whose key is above the cursor (`page`), and the next
  cursor is the key of the last of them while entries were left out (`next`).

Over a list strictly sorted by its key, the entries after the next cursor are
those after the page (`after_next`), so a client that follows the cursors reads
every entry once, in order, and stops within `l.length + 1` pages:

    (ts.map (page key limit · l)).flatten = after key token l   (cursors_flatten)

`follow_eq_cursors` reads a client loop over any type of answer as the
cursors it sends, and `follow_eq_cursors_of_truncated` one whose answers give
their cursor only when cut.  A call that filters above its cursor before it
sorts answers a page all the same (`mergeSort_filter`, `KeySorted.eq_of_perm`).
-/

/-! ## Ordered sets -/

/-- A set kept as a strictly increasing list. -/
structure OrdSet (α : Type*) [LinearOrder α] where
  toList : List α
  sorted : toList.Pairwise (· < ·)

namespace OrdSet

variable {α : Type*} [LinearOrder α]

/-- Inserting into a strictly increasing list: in front of the first larger
element, and nowhere when the element is there. -/
def insertSorted (a : α) : List α → List α
  | [] => [a]
  | b :: l => if a < b then a :: b :: l else if a = b then b :: l else b :: insertSorted a l

@[simp] theorem insertSorted_nil (a : α) : insertSorted a [] = [a] := rfl

theorem insertSorted_cons (a b : α) (l : List α) :
    insertSorted a (b :: l) = if a < b then a :: b :: l else if a = b then b :: l else b :: insertSorted a l :=
  rfl

theorem mem_insertSorted {a x : α} {l : List α} : x ∈ insertSorted a l ↔ x = a ∨ x ∈ l := by
  induction l with
  | nil => simp
  | cons b l ih =>
    rw [insertSorted_cons]
    split_ifs with hlt heq
    · simp
    · subst heq
      simp
    · rw [List.mem_cons, ih, List.mem_cons]
      tauto

theorem pairwise_insertSorted (a : α) {l : List α} (h : l.Pairwise (· < ·)) :
    (insertSorted a l).Pairwise (· < ·) := by
  induction l with
  | nil => exact List.pairwise_singleton _ _
  | cons b l ih =>
    rw [List.pairwise_cons] at h
    rw [insertSorted_cons]
    split_ifs with hlt heq
    · refine List.Pairwise.cons (fun x hx => ?_) (List.pairwise_cons.mpr h)
      rcases List.mem_cons.mp hx with rfl | hx
      · exact hlt
      · exact hlt.trans (h.1 x hx)
    · exact List.pairwise_cons.mpr h
    · -- `b < a`, so `b` stays in front of everything the insertion yields
      have hba : b < a := lt_of_le_of_ne (not_lt.mp hlt) (Ne.symm heq)
      refine List.pairwise_cons.mpr ⟨fun x hx => ?_, ih h.2⟩
      rcases mem_insertSorted.mp hx with rfl | hx
      · exact hba
      · exact h.1 x hx

theorem length_insertSorted_le (a : α) (l : List α) : (insertSorted a l).length ≤ l.length + 1 := by
  induction l with
  | nil => simp
  | cons b l ih =>
    rw [insertSorted_cons]
    split_ifs <;> simp only [List.length_cons] <;> omega

/-- The empty set. -/
def empty : OrdSet α := ⟨[], List.Pairwise.nil⟩

/-- `insert`: the set with `a` added. -/
def insert (a : α) (s : OrdSet α) : OrdSet α := ⟨insertSorted a s.toList, pairwise_insertSorted a s.sorted⟩

@[simp] theorem toList_empty : (empty : OrdSet α).toList = [] := rfl

@[simp] theorem mem_insert {a x : α} {s : OrdSet α} : x ∈ (s.insert a).toList ↔ x = a ∨ x ∈ s.toList :=
  mem_insertSorted

theorem length_insert_le (a : α) (s : OrdSet α) : (s.insert a).toList.length ≤ s.toList.length + 1 :=
  length_insertSorted_le a s.toList

theorem nodup (s : OrdSet α) : s.toList.Nodup :=
  List.nodup_iff_pairwise_ne.mpr (s.sorted.imp ne_of_lt)

/-! ### Popping a lower set

Popping the first element of an increasing list while it lies in a lower
set pops exactly the list's elements in that set: once one is outside, so is
everything after it. -/

section LowerSet

variable {l : List α} {p : α → Bool}

theorem takeWhile_eq_filter_of_isLowerSet (hs : l.Pairwise (· < ·)) (hp : IsLowerSet {x | p x = true}) :
    l.takeWhile p = l.filter p := by
  induction l with
  | nil => rfl
  | cons a l ih =>
    obtain ⟨ha, hl⟩ := List.pairwise_cons.mp hs
    rw [List.takeWhile_cons, List.filter_cons]
    by_cases hpa : p a = true
    · rw [if_pos hpa, if_pos hpa, ih hl]
    · rw [if_neg hpa, if_neg hpa]
      -- an element after `a` in the set would bring `a` into it
      refine (List.filter_eq_nil_iff.mpr fun b hb hpb => hpa ?_).symm
      exact hp (ha b hb).le hpb

theorem dropWhile_eq_filter_of_isLowerSet (hs : l.Pairwise (· < ·)) (hp : IsLowerSet {x | p x = true}) :
    l.dropWhile p = l.filter fun x => !p x := by
  induction l with
  | nil => rfl
  | cons a l ih =>
    obtain ⟨ha, hl⟩ := List.pairwise_cons.mp hs
    rw [List.dropWhile_cons, List.filter_cons]
    by_cases hpa : p a = true
    · rw [if_pos hpa, ih hl, if_neg (by simp [hpa])]
    · rw [if_neg hpa, if_pos (by simpa using hpa)]
      refine congrArg (a :: ·) (List.filter_eq_self.mpr fun b hb => ?_).symm
      have hpb : ¬ p b = true := fun hpb => hpa (hp (ha b hb).le hpb)
      simpa using hpb

/-- The last element of an increasing list is its largest. -/
theorem le_of_getLast? (hs : l.Pairwise (· < ·)) {m x : α} (h : l.getLast? = some m) (hx : x ∈ l) :
    x ≤ m := by
  obtain ⟨l', rfl⟩ := List.getLast?_eq_some_iff.mp h
  rcases List.mem_append.mp hx with hx' | hx'
  · exact ((List.pairwise_append.mp hs).2.2 x hx' m (List.mem_singleton_self m)).le
  · rw [List.mem_singleton.mp hx']

end LowerSet

end OrdSet

/-! ## Cursor pages -/

namespace Cursor

variable {ι κ : Type*} [LinearOrder κ] (key : ι → κ)

/-- The entries after the cursor: those whose key is above it, all of them
without a cursor. -/
def after (token : Option κ) (l : List ι) : List ι :=
  match token with
  | none => l
  | some t => l.filter fun i => t < key i

/-- The page after the cursor: the first `limit` entries after it. -/
def page (limit : Nat) (token : Option κ) (l : List ι) : List ι := (after key token l).take limit

theorem page_def (limit : Nat) (token : Option κ) (l : List ι) :
    page key limit token l = (after key token l).take limit := rfl

/-- The cursor of the following page: the key of the page's last entry, when
the page left entries out. -/
def next (limit : Nat) (token : Option κ) (l : List ι) : Option κ :=
  if limit < (after key token l).length then (page key limit token l).getLast?.map key else none

theorem next_def (limit : Nat) (token : Option κ) (l : List ι) :
    next key limit token l =
      if limit < (after key token l).length then (page key limit token l).getLast?.map key else none := rfl

/-- The cursors a client sends when it reads `l` from `token` on, page after
page, while a page leaves entries out; `none` when `fuel` pages were not
enough. -/
def cursors (limit : Nat) (l : List ι) : Nat → Option κ → Option (List (Option κ))
  | 0, _ => none
  | fuel + 1, token =>
    if limit < (after key token l).length then
      (cursors limit l fuel (next key limit token l)).map (token :: ·)
    else some [token]

theorem cursors_succ (limit : Nat) (l : List ι) (fuel : Nat) (token : Option κ) :
    cursors key limit l (fuel + 1) token =
      if limit < (after key token l).length then
        (cursors key limit l fuel (next key limit token l)).map (token :: ·)
      else some [token] := rfl

/-- A client loop over answers of any type: it asks for the answer after
`token`, and again after the cursor that answer gives while the answer says it
was cut; `none` when `fuel` requests were not enough. -/
def follow {P : Type*} (fetch : Option κ → P) (truncated : P → Bool) (cursor : P → Option κ) :
    Nat → Option κ → Option (List P)
  | 0, _ => none
  | fuel + 1, token =>
    if truncated (fetch token) then
      (follow fetch truncated cursor fuel (cursor (fetch token))).map (fetch token :: ·)
    else some [fetch token]

/-- The list is strictly sorted by the key. -/
def KeySorted (l : List ι) : Prop := l.Pairwise fun a b => key a < key b

variable {key} {limit : Nat} {token : Option κ} {l : List ι}

/-- A list sorted by a key with no key twice is strictly sorted by it. -/
theorem keySorted_of_le (hle : l.Pairwise fun a b => key a ≤ key b) (hnodup : (l.map key).Nodup) :
    KeySorted key l := by
  have hne : l.Pairwise fun a b => key a ≠ key b := List.pairwise_map.mp (List.nodup_iff_pairwise_ne.mp hnodup)
  exact (hle.and hne).imp fun h => lt_of_le_of_ne h.1 h.2

theorem KeySorted.nodup (hs : KeySorted key l) : (l.map key).Nodup :=
  List.nodup_iff_pairwise_ne.mpr (List.pairwise_map.mpr (hs.imp ne_of_lt))

/-- Sorting by a key with no key twice sorts strictly. -/
theorem keySorted_mergeSort (hnodup : (l.map key).Nodup) :
    KeySorted key (l.mergeSort fun a b => key a ≤ key b) := by
  have hle : (l.mergeSort fun a b => key a ≤ key b).Pairwise fun a b => decide (key a ≤ key b) = true :=
    List.pairwise_mergeSort
      (fun a b c hab hbc => by simp only [decide_eq_true_eq] at *; exact le_trans hab hbc)
      (fun a b => by simpa using le_total (key a) (key b)) l
  refine keySorted_of_le (hle.imp of_decide_eq_true) ?_
  exact ((List.mergeSort_perm l _).map key).nodup_iff.mpr hnodup

theorem KeySorted.sublist {l' : List ι} (hs : KeySorted key l) (hsub : l'.Sublist l) : KeySorted key l' :=
  List.Pairwise.sublist hsub hs

theorem KeySorted.after (hs : KeySorted key l) : KeySorted key (after key token l) := by
  cases token with
  | none => exact hs
  | some t => exact hs.filter _

@[simp] theorem after_none : after key none l = l := rfl

@[simp] theorem after_some {t : κ} : after key (some t) l = l.filter fun i => t < key i := rfl

theorem after_sublist : (after key token l).Sublist l := by
  cases token with
  | none => exact List.Sublist.refl l
  | some t => exact List.filter_sublist

theorem lt_key_of_mem_after {t : κ} {i : ι} (h : i ∈ after key (some t) l) : t < key i := by
  simpa [after] using (List.mem_filter.mp h).2

theorem length_page_le : (page key limit token l).length ≤ limit := List.length_take_le _ _

/-- Over a list strictly sorted by its key, the entries above the key of the
entry at `j` are those after it. -/
theorem filter_lt_key_getElem (hs : KeySorted key l) (j : Nat) (hj : j < l.length) :
    l.filter (fun i => key l[j] < key i) = l.drop (j + 1) := by
  induction l generalizing j with
  | nil => cases hj
  | cons a l ih =>
    rw [KeySorted, List.pairwise_cons] at hs
    cases j with
    | zero =>
      rw [List.filter_cons_of_neg (by simp), List.filter_eq_self.mpr (fun b hb => by simpa using hs.1 b hb)]
      rfl
    | succ j =>
      have hj' : j < l.length := by simpa using hj
      have hlt : key a < key l[j] := hs.1 _ (List.getElem_mem hj')
      rw [List.getElem_cons_succ, List.filter_cons_of_neg (by simpa using hlt.le), ih hs.2 j hj']
      rfl

/-- Above the key of an entry after the cursor, the entries of `l` are
entries after the cursor. -/
theorem filter_lt_key_after {x : ι} (hx : x ∈ after key token l) :
    l.filter (fun i => key x < key i) = (after key token l).filter (fun i => key x < key i) := by
  cases token with
  | none => rfl
  | some t =>
    have ht : t < key x := lt_key_of_mem_after hx
    rw [after_some, List.filter_filter]
    refine List.filter_congr fun i _ => ?_
    by_cases hi : key x < key i
    · simp [hi, ht.trans hi]
    · simp [hi]

/-- The next cursor skips exactly the page: the entries after it are those
after the page. -/
theorem after_next (hs : KeySorted key l) (hlimit : 0 < limit)
    (htrunc : limit < (after key token l).length) :
    after key (next key limit token l) l = (after key token l).drop limit := by
  have hidx : limit - 1 < (after key token l).length := by omega
  -- the next cursor is the key of the entry at `limit - 1`
  have hnext : next key limit token l = some (key (after key token l)[limit - 1]) := by
    rw [next_def, if_pos htrunc, page_def, List.getLast?_take, if_neg (by omega),
      List.getElem?_eq_getElem hidx]
    rfl
  rw [hnext, after_some, filter_lt_key_after (List.getElem_mem hidx),
    filter_lt_key_getElem hs.after (limit - 1) hidx, Nat.sub_add_cancel hlimit]

/-- The run of a client over a sorted list: with more fuel than entries after
the cursor, it stops, and its pages put back together are those entries. -/
theorem cursors_flatten (hs : KeySorted key l) (hlimit : 0 < limit) (fuel : Nat) (token : Option κ)
    (hfuel : (after key token l).length < fuel) :
    ∃ ts, cursors key limit l fuel token = some ts ∧
      (ts.map fun t => page key limit t l).flatten = after key token l := by
  induction fuel generalizing token with
  | zero => cases hfuel
  | succ fuel ih =>
    by_cases htrunc : limit < (after key token l).length
    · -- the page is cut: the rest is read from the next cursor, with fewer entries left
      have hrest : (after key (next key limit token l) l).length < fuel := by
        rw [after_next hs hlimit htrunc, List.length_drop]
        omega
      obtain ⟨ts, hts, hflat⟩ := ih _ hrest
      refine ⟨token :: ts, by rw [cursors_succ, if_pos htrunc, hts]; rfl, ?_⟩
      rw [List.map_cons, List.flatten_cons, hflat, after_next hs hlimit htrunc, page_def,
        List.take_append_drop]
    · refine ⟨[token], by rw [cursors_succ, if_neg htrunc], ?_⟩
      rw [List.map_singleton, List.flatten_singleton, page_def, List.take_of_length_le (not_lt.mp htrunc)]

/-- Pages read in order hold increasing keys: every entry of a page is below
every entry of a later one. -/
theorem pages_ordered {pages : List (List ι)} (hs : KeySorted key pages.flatten) :
    pages.Pairwise fun p q => ∀ a ∈ p, ∀ b ∈ q, key a < key b :=
  (List.pairwise_flatten.mp hs).2

/-- A client loop whose answers say whether they were cut, and, when cut, give
the next cursor as the pages of `l` do, sends the cursors `cursors` computes:
what a whole answer says as its cursor is never read. -/
theorem follow_eq_cursors_of_truncated {P : Type*} {fetch : Option κ → P} {truncated : P → Bool}
    {cursor : P → Option κ}
    (htrunc : ∀ t, truncated (fetch t) = decide (limit < (after key t l).length))
    (hcursor : ∀ t, truncated (fetch t) = true → cursor (fetch t) = next key limit t l) (fuel : Nat)
    (token : Option κ) :
    follow fetch truncated cursor fuel token = (cursors key limit l fuel token).map (·.map fetch) := by
  induction fuel generalizing token with
  | zero => rfl
  | succ fuel ih =>
    by_cases h : limit < (after key token l).length
    · have hcut : truncated (fetch token) = true := by simp [htrunc, h]
      rw [follow, cursors, if_pos hcut, if_pos h, hcursor token hcut, ih]
      simp [Option.map_map, Function.comp_def]
    · have hcut : truncated (fetch token) = false := by simp [htrunc, h]
      rw [follow, cursors, hcut, if_neg h]
      simp

/-- A client loop whose answers say whether they were cut and give the next
cursor as the pages of `l` do sends the cursors `cursors` computes. -/
theorem follow_eq_cursors {P : Type*} {fetch : Option κ → P} {truncated : P → Bool}
    {cursor : P → Option κ}
    (htrunc : ∀ t, truncated (fetch t) = decide (limit < (after key t l).length))
    (hcursor : ∀ t, cursor (fetch t) = next key limit t l) (fuel : Nat) (token : Option κ) :
    follow fetch truncated cursor fuel token = (cursors key limit l fuel token).map (·.map fetch) :=
  follow_eq_cursors_of_truncated htrunc (fun t _ => hcursor t) fuel token

/-- Two lists strictly sorted by one key with the same entries are equal: a
listing is determined by what it lists. -/
theorem KeySorted.eq_of_perm {l' : List ι} (hs : KeySorted key l) (hs' : KeySorted key l')
    (hp : l.Perm l') : l = l' :=
  hp.eq_of_pairwise (fun _ _ _ _ hab hba => absurd (hab.trans hba) (lt_irrefl _)) hs hs'

/-- Two lists strictly sorted by one key that hold the same entries are
equal. -/
theorem KeySorted.eq_of_mem_iff {l' : List ι} (hs : KeySorted key l) (hs' : KeySorted key l')
    (hmem : ∀ i, i ∈ l ↔ i ∈ l') : l = l' :=
  hs.eq_of_perm hs' ((List.perm_ext_iff_of_nodup hs.nodup.of_map hs'.nodup.of_map).mpr hmem)

/-- An entry whose key is at most every key of a strictly sorted list heads
it. -/
theorem KeySorted.head?_eq (hs : KeySorted key l) {x : ι} (hx : x ∈ l) (hmin : ∀ y ∈ l, key x ≤ key y) :
    l.head? = some x := by
  cases l with
  | nil => cases hx
  | cons y l =>
    rw [List.head?_cons, Option.some.injEq]
    rcases List.mem_cons.mp hx with rfl | hx'
    · rfl
    · rw [KeySorted, List.pairwise_cons] at hs
      exact absurd (hmin y List.mem_cons_self) (not_le.mpr (hs.1 x hx'))

/-- Keeping one key after a `filterMap` whose outputs carry the key of their
input keeps the inputs of that key first. -/
theorem filter_filterMap_key {α β : Type*} (g : α → Option β) (kb : β → κ) (ka : α → κ)
    {l : List α} (hk : ∀ a ∈ l, ∀ b, g a = some b → kb b = ka a) (k : κ) :
    (l.filterMap g).filter (fun b => kb b = k) = (l.filter fun a => ka a = k).filterMap g := by
  induction l with
  | nil => rfl
  | cons a l ih =>
    have ih' := ih fun a' ha' => hk a' (List.mem_cons_of_mem a ha')
    cases hg : g a with
    | none =>
      rw [List.filterMap_cons_none hg, ih']
      by_cases ha : ka a = k
      · rw [List.filter_cons_of_pos (by simpa using ha), List.filterMap_cons_none hg]
      · rw [List.filter_cons_of_neg (by simpa using ha)]
    | some b =>
      have hb := hk a List.mem_cons_self b hg
      rw [List.filterMap_cons_some hg]
      by_cases ha : ka a = k
      · rw [List.filter_cons_of_pos (by simpa [hb] using ha), List.filter_cons_of_pos (by simpa using ha),
          List.filterMap_cons_some hg, ih']
      · rw [List.filter_cons_of_neg (by simpa [hb] using ha), List.filter_cons_of_neg (by simpa using ha), ih']

/-- With at least `n` entries below a bound, the first `n` entries of a
sorted list are the first `n` below it. -/
theorem take_eq_take_filter_lt (hs : KeySorted key l) (a : κ) {n : Nat}
    (hn : n ≤ (l.filter fun i => key i < a).length) :
    l.take n = (l.filter fun i => key i < a).take n := by
  induction l generalizing n with
  | nil => simp
  | cons x l ih =>
    rw [KeySorted, List.pairwise_cons] at hs
    cases n with
    | zero => simp
    | succ n =>
      by_cases hx : key x < a
      · rw [List.filter_cons_of_pos (by simpa using hx), List.length_cons] at hn
        rw [List.filter_cons_of_pos (by simpa using hx), List.take_succ_cons, List.take_succ_cons,
          ih hs.2 (by omega)]
      · -- every later entry is above `x`, so none is below the bound
        have hnone : l.filter (fun i => key i < a) = [] := by
          refine List.filter_eq_nil_iff.mpr fun i hi hlt => hx ?_
          exact lt_trans (hs.1 i hi) (by simpa using hlt)
        rw [List.filter_cons_of_neg (by simpa using hx), hnone] at hn
        simp at hn

/-- Two sorted listings that agree below a bound past the cursor, with at
least `limit` entries there and an entry at or above the bound in each,
serve the same page and are both cut. -/
theorem page_eq_of_agree_below {l' : List ι} (hs : KeySorted key l) (hs' : KeySorted key l') (a : κ)
    (hagree : (after key token l).filter (fun i => key i < a) =
      (after key token l').filter (fun i => key i < a))
    (hlen : limit ≤ ((after key token l).filter fun i => key i < a).length)
    (habove : ∃ i ∈ after key token l, ¬ key i < a) (habove' : ∃ i ∈ after key token l', ¬ key i < a) :
    page key limit token l = page key limit token l' ∧ limit < (after key token l).length ∧
      limit < (after key token l').length := by
  have hlen' : limit ≤ ((after key token l').filter fun i => key i < a).length := hagree ▸ hlen
  refine ⟨?_, ?_, ?_⟩
  · rw [page_def, page_def, take_eq_take_filter_lt hs.after a hlen, take_eq_take_filter_lt hs'.after a hlen', hagree]
  · obtain ⟨i, hi, hia⟩ := habove
    have hlt : ((after key token l).filter fun i => key i < a).length < (after key token l).length :=
      List.length_filter_lt_length_iff_exists.mpr ⟨i, hi, by simpa using hia⟩
    omega
  · obtain ⟨i, hi, hia⟩ := habove'
    have hlt : ((after key token l').filter fun i => key i < a).length < (after key token l').length :=
      List.length_filter_lt_length_iff_exists.mpr ⟨i, hi, by simpa using hia⟩
    omega

/-- Filtering and sorting by a key with no key twice commute: a listing that
filters before it sorts lists what the sorted list filtered holds. -/
theorem mergeSort_filter (hnodup : (l.map key).Nodup) (p : ι → Bool) :
    (l.filter p).mergeSort (fun a b => key a ≤ key b) = (l.mergeSort fun a b => key a ≤ key b).filter p := by
  have hnodup' : ((l.filter p).map key).Nodup := hnodup.sublist (List.filter_sublist.map key)
  refine (keySorted_mergeSort hnodup').eq_of_perm ((keySorted_mergeSort hnodup).filter p) ?_
  exact (List.mergeSort_perm _ _).trans ((List.mergeSort_perm l _).symm.filter p)

/-- A call that cuts its answer only when it is longer than the page answers
the page. -/
theorem page_eq_if : (if limit < (after key token l).length then (after key token l).take limit
    else after key token l) = page key limit token l := by
  split_ifs with h
  · rfl
  · exact (List.take_of_length_le (not_lt.mp h)).symm

/-- A cut page is not empty, and the next cursor is the key of its last
entry. -/
theorem next_of_truncated (hlimit : 0 < limit) (htrunc : limit < (after key token l).length) :
    ∃ x, (page key limit token l).getLast? = some x ∧ next key limit token l = some (key x) := by
  have hne : page key limit token l ≠ [] := by
    intro h
    have := congrArg List.length h
    rw [page_def, List.length_take, List.length_nil] at this
    omega
  obtain ⟨x, hx⟩ := Option.ne_none_iff_exists'.mp (mt List.getLast?_eq_none_iff.mp hne)
  exact ⟨x, hx, by rw [next_def, if_pos htrunc, hx, Option.map_some]⟩

end Cursor
