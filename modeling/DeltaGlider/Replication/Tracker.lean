import DeltaGlider.Lib.Cursor

/-!
# The contiguous-progress tracker of the reconcile walk

`ContiguousTracker` (replication/walk.rs) decides how far the reconcile walk
may persist its resume cursor.  Open work comes in two kinds: an *item*
(a copy, a delete, a pending pair) guards its own path, a *marker* (a
listing frontier) guards what lies strictly beyond it.  Settled paths wait in
`settled_ahead`, and `promote` pops them into the watermark while no open
work holds the first one back.

`promote` pops exactly the settled paths that open work leaves free
(`promote_settledAhead`, `promote_watermark`): freedom is a lower set, so
the loop that stops at the first blocked path has taken every free one.

Over every run that keeps the contract the source's debug assertions state
(opens at or above the watermark, releases of tracked paths, markers moved
forward), `TrackerInv` holds (`tracker_run_inv`): no open work lies below the
watermark, the watermark is a settled path, and every settled path is at or
below it or still waits ahead.  From it:

* the watermark never moves back (`tracker_watermark_mono`);
* once nothing is open, the watermark is the largest settled path
  (`drained_watermark_eq_max`);
* when items only open strictly above the watermark, as when the walk
  never reopens settled ground, the watermark is the largest settled path
  that open work leaves free (`tracker_watermark_eq_max_free`), the value the
  source's brute-force model checks it against.
-/

namespace DeltaGlider.Replication

/-! ## Algorithm -/

/-- `ContiguousTracker`.  A `BTreeMap<String, u32>` of open counts is the
multiset of its paths, a path of count `n` standing there `n` times. -/
structure ContiguousTracker where
  items : List String
  markers : List String
  settledAhead : OrdSet String
  watermark : Option String

namespace ContiguousTracker

def new : ContiguousTracker := ⟨[], [], OrdSet.empty, none⟩

/-- `open_item`. -/
def openItem (t : ContiguousTracker) (path : String) : ContiguousTracker :=
  { t with items := path :: t.items }

/-- `open_marker`. -/
def openMarker (t : ContiguousTracker) (path : String) : ContiguousTracker :=
  { t with markers := path :: t.markers }

/-- `release`: one count of the path off; an untracked path is left alone
(its `debug_assert!` aside). -/
def release (map : List String) (path : String) : List String := map.erase path

/-- The test of `promote`: an open item at or below the first settled path,
or an open marker below it (`first_key_value` is the least open path). -/
def blocks (items markers : List String) (first : String) : Bool :=
  (items.min?.any fun o => decide (o ≤ first)) || (markers.min?.any fun m => decide (m < first))

/-- The loop of `promote` over `settled_ahead` in order: pop the first
settled path into the watermark until open work blocks it. -/
def promoteLoop (items markers : List String) : List String → Option String → List String × Option String
  | [], watermark => ([], watermark)
  | first :: rest, watermark =>
    if blocks items markers first then (first :: rest, watermark)
    else promoteLoop items markers rest (some first)

theorem promoteLoop_fst (items markers l : List String) (w : Option String) :
    (promoteLoop items markers l w).1 = l.dropWhile fun f => !blocks items markers f := by
  induction l generalizing w with
  | nil => rfl
  | cons f l ih =>
    by_cases hb : blocks items markers f = true
    · simp [promoteLoop, hb]
    · simp [promoteLoop, hb, ih]

/-- `promote`. -/
def promote (t : ContiguousTracker) : ContiguousTracker :=
  let r := promoteLoop t.items t.markers t.settledAhead.toList t.watermark
  { t with
    settledAhead := ⟨r.1, t.settledAhead.sorted.sublist
      (promoteLoop_fst t.items t.markers _ t.watermark ▸ (List.dropWhile_suffix _).sublist)⟩
    watermark := r.2 }

/-- `settle`. -/
def settle (t : ContiguousTracker) (path : String) : ContiguousTracker :=
  promote { t with items := release t.items path, settledAhead := t.settledAhead.insert path }

/-- `close_marker`. -/
def closeMarker (t : ContiguousTracker) (path : String) : ContiguousTracker :=
  promote { t with markers := release t.markers path }

/-- `advance_marker`: `new` is opened before `old` is released. -/
def advanceMarker (t : ContiguousTracker) (old new : String) : ContiguousTracker :=
  promote { t with markers := release (new :: t.markers) old }

/-- `is_empty`. -/
def isEmpty (t : ContiguousTracker) : Bool := t.items.isEmpty && t.markers.isEmpty

end ContiguousTracker

open ContiguousTracker

/-- A call on the tracker. -/
inductive TrackerCall
  | openItem (path : String)
  | openMarker (path : String)
  | settle (path : String)
  | closeMarker (path : String)
  | advanceMarker (old new : String)
  deriving DecidableEq, Repr

namespace ContiguousTracker

def step (t : ContiguousTracker) : TrackerCall → ContiguousTracker
  | .openItem path => t.openItem path
  | .openMarker path => t.openMarker path
  | .settle path => t.settle path
  | .closeMarker path => t.closeMarker path
  | .advanceMarker old new => t.advanceMarker old new

def run (t : ContiguousTracker) (calls : List TrackerCall) : ContiguousTracker := calls.foldl step t

/-- The contract the source's debug assertions state: opens at or above the
watermark (`is_none_or(|w| path >= w)`), releases of tracked paths, markers
moved forward.  With `strict`, items open strictly above the watermark, as
they do in a walk that never reopens settled ground. -/
def allowed (strict : Bool) (t : ContiguousTracker) : TrackerCall → Bool
  | .openItem path => t.watermark.all fun w => if strict then decide (w < path) else decide (w ≤ path)
  | .openMarker path => t.watermark.all fun w => decide (w ≤ path)
  | .settle path => t.items.contains path
  | .closeMarker path => t.markers.contains path
  | .advanceMarker old new => decide (old < new) && t.markers.contains old

/-- Every call of the run keeps the contract in the state it meets. -/
def respects (strict : Bool) : ContiguousTracker → List TrackerCall → Bool
  | _, [] => true
  | t, c :: cs => allowed strict t c && respects strict (t.step c) cs

end ContiguousTracker

/-- The paths a run settles. -/
def settledPaths (calls : List TrackerCall) : List String :=
  calls.filterMap fun
    | .settle path => some path
    | _ => none

/-! ## Lemmas -/

namespace ContiguousTracker

/-- A settled path open work leaves free: every open item lies above it,
every open marker at or above it. -/
def Free (items markers : List String) (s : String) : Prop := (∀ i ∈ items, s < i) ∧ ∀ m ∈ markers, s ≤ m

theorem any_min?_le_iff {l : List String} {f : String} :
    (l.min?.any fun o => decide (o ≤ f)) = true ↔ ∃ o ∈ l, o ≤ f := by
  cases h : l.min? with
  | none => simp [List.min?_eq_none_iff.mp h]
  | some m =>
    obtain ⟨hm, hmin⟩ := List.min?_eq_some_iff.mp h
    simp only [Option.any_some, decide_eq_true_eq]
    exact ⟨fun hle => ⟨m, hm, hle⟩, fun ⟨o, ho, hle⟩ => (hmin o ho).trans hle⟩

theorem any_min?_lt_iff {l : List String} {f : String} :
    (l.min?.any fun o => decide (o < f)) = true ↔ ∃ o ∈ l, o < f := by
  cases h : l.min? with
  | none => simp [List.min?_eq_none_iff.mp h]
  | some m =>
    obtain ⟨hm, hmin⟩ := List.min?_eq_some_iff.mp h
    simp only [Option.any_some, decide_eq_true_eq]
    exact ⟨fun hlt => ⟨m, hm, hlt⟩, fun ⟨o, ho, hlt⟩ => lt_of_le_of_lt (hmin o ho) hlt⟩

theorem blocks_eq_false_iff {items markers : List String} {f : String} :
    blocks items markers f = false ↔ Free items markers f := by
  rw [← Bool.not_eq_true, blocks, Bool.or_eq_true, any_min?_le_iff, any_min?_lt_iff, Free]
  simp only [not_or, not_exists, not_and, not_le, not_lt]

theorem not_blocks_iff {items markers : List String} {f : String} :
    (!blocks items markers f) = true ↔ Free items markers f := by
  rw [Bool.not_eq_true', blocks_eq_false_iff]

/-- Whatever open work frees, it frees everything below. -/
theorem isLowerSet_free (items markers : List String) :
    IsLowerSet {f | (!blocks items markers f) = true} := by
  intro a b hba ha
  have hfree : Free items markers a := not_blocks_iff.mp ha
  exact not_blocks_iff.mpr ⟨fun i hi => lt_of_le_of_lt hba (hfree.1 i hi), fun m hm => hba.trans (hfree.2 m hm)⟩

theorem Free.of_subset {items markers items' markers' : List String} {s : String}
    (h : Free items markers s) (hi : items' ⊆ items) (hm : markers' ⊆ markers) : Free items' markers' s :=
  ⟨fun i hi' => h.1 i (hi hi'), fun m hm' => h.2 m (hm hm')⟩

theorem free_cons_iff {items markers : List String} {s p : String} :
    Free (p :: items) markers s ↔ s < p ∧ Free items markers s := by
  simp only [Free, List.forall_mem_cons]
  tauto

theorem promoteLoop_snd (items markers l : List String) (w : Option String) :
    (promoteLoop items markers l w).2 = (l.takeWhile fun f => !blocks items markers f).getLast?.or w := by
  induction l generalizing w with
  | nil => rfl
  | cons f l ih =>
    by_cases hb : blocks items markers f = true
    · simp [promoteLoop, hb]
    · simp only [promoteLoop, hb, Bool.false_eq_true, if_false, ih, List.takeWhile_cons, Bool.not_false,
        if_true, List.getLast?_cons]
      cases (l.takeWhile fun f => !blocks items markers f).getLast? <;> rfl

/-- `promote` keeps the settled paths open work blocks. -/
theorem promote_settledAhead (t : ContiguousTracker) :
    (promote t).settledAhead.toList = t.settledAhead.toList.filter fun s => blocks t.items t.markers s := by
  show (promoteLoop t.items t.markers t.settledAhead.toList t.watermark).1 = _
  rw [promoteLoop_fst, OrdSet.dropWhile_eq_filter_of_isLowerSet t.settledAhead.sorted (isLowerSet_free _ _)]
  simp

/-- `promote` moves the watermark to the last settled path open work
frees, when there is one. -/
theorem promote_watermark (t : ContiguousTracker) :
    (promote t).watermark =
      (t.settledAhead.toList.filter fun s => !blocks t.items t.markers s).getLast?.or t.watermark := by
  show (promoteLoop t.items t.markers t.settledAhead.toList t.watermark).2 = _
  rw [promoteLoop_snd, OrdSet.takeWhile_eq_filter_of_isLowerSet t.settledAhead.sorted (isLowerSet_free _ _)]

@[simp] theorem promote_items (t : ContiguousTracker) : (promote t).items = t.items := rfl

@[simp] theorem promote_markers (t : ContiguousTracker) : (promote t).markers = t.markers := rfl

/-! ### The invariant -/

/-- What holds of the tracker before `promote` runs, `settled` listing the
paths settled so far. -/
structure Guarded (settled : List String) (t : ContiguousTracker) : Prop where
  /-- No open item lies below the watermark. -/
  items_above : ∀ w ∈ t.watermark, ∀ i ∈ t.items, w ≤ i
  /-- No open marker lies below the watermark. -/
  markers_above : ∀ w ∈ t.watermark, ∀ m ∈ t.markers, w ≤ m
  /-- The paths waiting ahead are not below the watermark. -/
  ahead_above : ∀ w ∈ t.watermark, ∀ s ∈ t.settledAhead.toList, w ≤ s
  /-- The paths waiting ahead were settled. -/
  ahead_settled : ∀ s ∈ t.settledAhead.toList, s ∈ settled
  /-- Every settled path waits ahead or is at or below the watermark. -/
  settled_covered : ∀ s ∈ settled, s ∈ t.settledAhead.toList ∨ ∃ w ∈ t.watermark, s ≤ w
  /-- The watermark is a settled path. -/
  watermark_settled : ∀ w ∈ t.watermark, w ∈ settled

/-- The tracker's invariant: `Guarded`, and every path waiting ahead is
blocked by open work. -/
structure TrackerInv (settled : List String) (t : ContiguousTracker) : Prop extends Guarded settled t where
  ahead_blocked : ∀ s ∈ t.settledAhead.toList, ¬ Free t.items t.markers s

theorem trackerInv_new : TrackerInv [] new where
  items_above := fun _ h => nomatch h
  markers_above := fun _ h => nomatch h
  ahead_above := fun _ h => nomatch h
  ahead_settled := fun _ h => nomatch h
  settled_covered := fun _ h => nomatch h
  watermark_settled := fun _ h => nomatch h
  ahead_blocked := fun _ h => nomatch h

section Promote

variable {settled : List String} {t : ContiguousTracker}

/-- The watermark `promote` pops to is free and above every path left
ahead. -/
theorem promote_popped {f : String}
    (hf : (t.settledAhead.toList.filter fun s => !blocks t.items t.markers s).getLast? = some f) :
    f ∈ t.settledAhead.toList ∧ Free t.items t.markers f ∧
      ∀ s ∈ t.settledAhead.toList, (!blocks t.items t.markers s) = true → s ≤ f := by
  obtain ⟨hmem, hfree⟩ := List.mem_filter.mp (List.mem_of_getLast? hf)
  refine ⟨hmem, not_blocks_iff.mp hfree, fun s hs hsf => ?_⟩
  exact OrdSet.le_of_getLast? (t.settledAhead.sorted.filter _) hf (List.mem_filter.mpr ⟨hs, hsf⟩)

/-- **`promote` restores the invariant.** -/
theorem Guarded.trackerInv_promote (h : Guarded settled t) : TrackerInv settled (promote t) := by
  have hahead : ∀ s, s ∈ (promote t).settledAhead.toList ↔
      s ∈ t.settledAhead.toList ∧ ¬ Free t.items t.markers s := by
    intro s
    rw [promote_settledAhead, List.mem_filter, ← blocks_eq_false_iff, Bool.not_eq_false]
  cases hf : (t.settledAhead.toList.filter fun s => !blocks t.items t.markers s).getLast? with
  | none =>
    -- nothing is free: the watermark stays, every path ahead stays
    have hw : (promote t).watermark = t.watermark := by rw [promote_watermark, hf]; rfl
    have hnone : ∀ s ∈ t.settledAhead.toList, ¬ Free t.items t.markers s := by
      intro s hs hfree
      have hmem : s ∈ t.settledAhead.toList.filter fun s => !blocks t.items t.markers s :=
        List.mem_filter.mpr ⟨hs, not_blocks_iff.mpr hfree⟩
      rw [List.getLast?_eq_none_iff.mp hf] at hmem
      exact List.not_mem_nil hmem
    refine ⟨⟨?_, ?_, ?_, ?_, ?_, ?_⟩, ?_⟩
    · simpa [hw] using h.items_above
    · simpa [hw] using h.markers_above
    · intro w hw' s hs
      exact h.ahead_above w (hw ▸ hw') s ((hahead s).mp hs).1
    · exact fun s hs => h.ahead_settled s ((hahead s).mp hs).1
    · intro s hs
      rcases h.settled_covered s hs with ha | hle
      · exact .inl ((hahead s).mpr ⟨ha, hnone s ha⟩)
      · exact .inr (hw ▸ hle)
    · simpa [hw] using h.watermark_settled
    · exact fun s hs => ((hahead s).mp hs).2
  | some f =>
    -- the watermark moves to the last free path
    have hw : (promote t).watermark = some f := by rw [promote_watermark, hf]; rfl
    obtain ⟨hfmem, hffree, hfmax⟩ := promote_popped hf
    have hfw : ∀ w ∈ t.watermark, w ≤ f := fun w hw' => h.ahead_above w hw' f hfmem
    refine ⟨⟨?_, ?_, ?_, ?_, ?_, ?_⟩, ?_⟩
    · intro w hw' i hi
      obtain rfl := Option.some.inj (hw.symm.trans hw')
      exact (hffree.1 i hi).le
    · intro w hw' m hm
      obtain rfl := Option.some.inj (hw.symm.trans hw')
      exact hffree.2 m hm
    · intro w hw' s hs
      obtain rfl := Option.some.inj (hw.symm.trans hw')
      obtain ⟨-, hsfree⟩ := (hahead s).mp hs
      -- a path at or below a free one is free
      by_contra hlt
      exact hsfree (not_blocks_iff.mp (isLowerSet_free _ _ (le_of_not_ge hlt) (not_blocks_iff.mpr hffree)))
    · exact fun s hs => h.ahead_settled s ((hahead s).mp hs).1
    · intro s hs
      rw [hw]
      rcases h.settled_covered s hs with ha | ⟨w, hw', hle⟩
      · by_cases hsfree : Free t.items t.markers s
        · exact .inr ⟨f, rfl, hfmax s ha (not_blocks_iff.mpr hsfree)⟩
        · exact .inl ((hahead s).mpr ⟨ha, hsfree⟩)
      · exact .inr ⟨f, rfl, hle.trans (hfw w hw')⟩
    · intro w hw'
      obtain rfl := Option.some.inj (hw.symm.trans hw')
      exact h.ahead_settled f hfmem
    · exact fun s hs => ((hahead s).mp hs).2

/-- `promote` never moves the watermark back. -/
theorem Guarded.watermark_le_promote (h : Guarded settled t) :
    ∀ w ∈ t.watermark, ∃ w' ∈ (promote t).watermark, w ≤ w' := by
  intro w hw
  cases hf : (t.settledAhead.toList.filter fun s => !blocks t.items t.markers s).getLast? with
  | none => exact ⟨w, by rw [promote_watermark, hf]; exact hw, le_rfl⟩
  | some f =>
    refine ⟨f, by rw [promote_watermark, hf]; rfl, ?_⟩
    exact h.ahead_above w hw f (promote_popped hf).1

/-- `promote` keeps the watermark free. -/
theorem free_promote (hfree : ∀ w ∈ t.watermark, Free t.items t.markers w) :
    ∀ w ∈ (promote t).watermark, Free (promote t).items (promote t).markers w := by
  intro w hw
  cases hf : (t.settledAhead.toList.filter fun s => !blocks t.items t.markers s).getLast? with
  | none =>
    rw [promote_watermark, hf] at hw
    exact hfree w hw
  | some f =>
    rw [promote_watermark, hf] at hw
    obtain rfl := Option.some.inj hw
    exact (promote_popped hf).2.1

end Promote

/-! ### One call -/

section Step

variable {strict : Bool} {settled : List String} {t : ContiguousTracker}

theorem allowed_open {path : String} (h : (t.watermark.all fun w => decide (w ≤ path)) = true) :
    ∀ w ∈ t.watermark, w ≤ path := by
  intro w hw
  rw [Option.mem_def] at hw
  rw [hw] at h
  simpa using h

theorem allowed_openItem {path : String} (h : allowed strict t (.openItem path) = true) :
    ∀ w ∈ t.watermark, w ≤ path ∧ (strict = true → w < path) := by
  intro w hw
  rw [Option.mem_def] at hw
  simp only [allowed, hw, Option.all_some] at h
  cases strict
  · exact ⟨of_decide_eq_true h, nofun⟩
  · exact ⟨(of_decide_eq_true h).le, fun _ => of_decide_eq_true h⟩

/-- Before its `promote`, `settle` keeps the invariant's first part, the
path added to the settled ones. -/
theorem TrackerInv.guarded_settle (h : TrackerInv settled t) {path : String} (hpath : path ∈ t.items) :
    Guarded (settled ++ [path]) { t with items := release t.items path, settledAhead := t.settledAhead.insert path } := by
  refine ⟨?_, h.markers_above, ?_, ?_, ?_, ?_⟩
  · exact fun w hw i hi => h.items_above w hw i (List.mem_of_mem_erase hi)
  · intro w hw s hs
    rcases OrdSet.mem_insert.mp hs with rfl | hs
    · exact h.items_above w hw s hpath
    · exact h.ahead_above w hw s hs
  · intro s hs
    rcases OrdSet.mem_insert.mp hs with rfl | hs
    · exact List.mem_append_right _ (List.mem_singleton_self _)
    · exact List.mem_append_left _ (h.ahead_settled s hs)
  · intro s hs
    rcases List.mem_append.mp hs with hs | hs
    · rcases h.settled_covered s hs with ha | hle
      · exact .inl (OrdSet.mem_insert.mpr (.inr ha))
      · exact .inr hle
    · exact .inl (OrdSet.mem_insert.mpr (.inl (List.mem_singleton.mp hs)))
  · exact fun w hw => List.mem_append_left _ (h.watermark_settled w hw)

/-- Before its `promote`, a marker's release keeps the invariant's first
part, and so does a move forward. -/
theorem TrackerInv.guarded_markers (h : TrackerInv settled t) {markers : List String}
    (hm : ∀ w ∈ t.watermark, ∀ m ∈ markers, w ≤ m) : Guarded settled { t with markers := markers } :=
  ⟨h.items_above, hm, h.ahead_above, h.ahead_settled, h.settled_covered, h.watermark_settled⟩

theorem TrackerInv.markers_above_advance (h : TrackerInv settled t) {old new : String} (hold : old ∈ t.markers)
    (hlt : old < new) : ∀ w ∈ t.watermark, ∀ m ∈ release (new :: t.markers) old, w ≤ m := by
  intro w hw m hm
  rcases List.mem_cons.mp (List.mem_of_mem_erase hm) with rfl | hm
  · exact (h.markers_above w hw old hold).trans hlt.le
  · exact h.markers_above w hw m hm

/-- A call that keeps the contract keeps the invariant, the paths it
settles added. -/
theorem TrackerInv.step (h : TrackerInv settled t) {c : TrackerCall} (hc : allowed strict t c = true) :
    TrackerInv (settled ++ settledPaths [c]) (t.step c) := by
  cases c with
  | openItem path =>
    have hpath := allowed_openItem hc
    simp only [settledPaths, List.filterMap_cons, List.filterMap_nil, List.append_nil]
    refine ⟨⟨?_, h.markers_above, h.ahead_above, h.ahead_settled, h.settled_covered, h.watermark_settled⟩, ?_⟩
    · intro w hw i hi
      rcases List.mem_cons.mp hi with rfl | hi
      · exact (hpath w hw).1
      · exact h.items_above w hw i hi
    · intro s hs hfree
      exact h.ahead_blocked s hs (free_cons_iff.mp hfree).2
  | openMarker path =>
    have hpath := allowed_open hc
    simp only [settledPaths, List.filterMap_cons, List.filterMap_nil, List.append_nil]
    refine ⟨⟨h.items_above, ?_, h.ahead_above, h.ahead_settled, h.settled_covered, h.watermark_settled⟩, ?_⟩
    · intro w hw m hm
      rcases List.mem_cons.mp hm with rfl | hm
      · exact hpath w hw
      · exact h.markers_above w hw m hm
    · intro s hs hfree
      exact h.ahead_blocked s hs (hfree.of_subset (List.Subset.refl _) (List.subset_cons_self _ _))
  | settle path =>
    simp only [settledPaths, List.filterMap_cons, List.filterMap_nil]
    exact (h.guarded_settle (List.contains_iff_mem.mp hc)).trackerInv_promote
  | closeMarker path =>
    simp only [settledPaths, List.filterMap_cons, List.filterMap_nil, List.append_nil]
    exact (h.guarded_markers fun w hw m hm => h.markers_above w hw m (List.mem_of_mem_erase hm)).trackerInv_promote
  | advanceMarker old new =>
    simp only [allowed, Bool.and_eq_true, decide_eq_true_eq, List.contains_iff_mem] at hc
    simp only [settledPaths, List.filterMap_cons, List.filterMap_nil, List.append_nil]
    exact (h.guarded_markers (h.markers_above_advance hc.2 hc.1)).trackerInv_promote

/-- A call that keeps the contract never moves the watermark back. -/
theorem TrackerInv.watermark_le_step (h : TrackerInv settled t) {c : TrackerCall}
    (hc : allowed strict t c = true) : ∀ w ∈ t.watermark, ∃ w' ∈ (t.step c).watermark, w ≤ w' := by
  cases c with
  | openItem path => exact fun w hw => ⟨w, hw, le_rfl⟩
  | openMarker path => exact fun w hw => ⟨w, hw, le_rfl⟩
  | settle path => exact (h.guarded_settle (List.contains_iff_mem.mp hc)).watermark_le_promote
  | closeMarker path =>
    exact (h.guarded_markers fun w hw m hm => h.markers_above w hw m (List.mem_of_mem_erase hm)).watermark_le_promote
  | advanceMarker old new =>
    simp only [allowed, Bool.and_eq_true, decide_eq_true_eq, List.contains_iff_mem] at hc
    exact (h.guarded_markers (h.markers_above_advance hc.2 hc.1)).watermark_le_promote

/-- Under the strict contract a call keeps the watermark free. -/
theorem free_step (hfree : ∀ w ∈ t.watermark, Free t.items t.markers w) {c : TrackerCall}
    (hc : allowed true t c = true) : ∀ w ∈ (t.step c).watermark, Free (t.step c).items (t.step c).markers w := by
  cases c with
  | openItem path =>
    intro w hw
    exact free_cons_iff.mpr ⟨(allowed_openItem hc w hw).2 rfl, hfree w hw⟩
  | openMarker path =>
    intro w hw
    refine ⟨(hfree w hw).1, fun m hm => ?_⟩
    rcases List.mem_cons.mp hm with rfl | hm
    · exact allowed_open hc w hw
    · exact (hfree w hw).2 m hm
  | settle path =>
    exact free_promote fun w hw => (hfree w hw).of_subset List.erase_subset (List.Subset.refl _)
  | closeMarker path =>
    exact free_promote fun w hw => (hfree w hw).of_subset (List.Subset.refl _) List.erase_subset
  | advanceMarker old new =>
    simp only [allowed, Bool.and_eq_true, decide_eq_true_eq, List.contains_iff_mem] at hc
    refine free_promote fun w hw => ⟨(hfree w hw).1, fun m hm => ?_⟩
    rcases List.mem_cons.mp (List.mem_of_mem_erase hm) with rfl | hm
    · exact ((hfree w hw).2 old hc.2).trans hc.1.le
    · exact (hfree w hw).2 m hm

end Step

/-! ### Runs -/

section Run

variable {strict : Bool} {settled : List String} {t : ContiguousTracker}

theorem run_append (t : ContiguousTracker) (calls more : List TrackerCall) :
    t.run (calls ++ more) = (t.run calls).run more :=
  List.foldl_append

theorem respects_append (t : ContiguousTracker) (calls more : List TrackerCall) :
    respects strict t (calls ++ more) = (respects strict t calls && respects strict (t.run calls) more) := by
  induction calls generalizing t with
  | nil => simp [run, respects]
  | cons c cs ih => simp [respects, ih, run, Bool.and_assoc]

theorem settledPaths_cons (c : TrackerCall) (calls : List TrackerCall) :
    settledPaths (c :: calls) = settledPaths [c] ++ settledPaths calls := by
  cases c <;> simp [settledPaths]

/-- The invariant holds along every run that keeps the contract. -/
theorem TrackerInv.run (h : TrackerInv settled t) {calls : List TrackerCall}
    (hr : respects strict t calls = true) : TrackerInv (settled ++ settledPaths calls) (t.run calls) := by
  induction calls generalizing settled t with
  | nil => simpa [run, settledPaths] using h
  | cons c cs ih =>
    simp only [respects, Bool.and_eq_true] at hr
    have hrest := ih (h.step hr.1) hr.2
    rw [settledPaths_cons, ← List.append_assoc]
    exact hrest

theorem TrackerInv.watermark_le_run (h : TrackerInv settled t) {calls : List TrackerCall}
    (hr : respects strict t calls = true) : ∀ w ∈ t.watermark, ∃ w' ∈ (t.run calls).watermark, w ≤ w' := by
  induction calls generalizing settled t with
  | nil => exact fun w hw => ⟨w, hw, le_rfl⟩
  | cons c cs ih =>
    simp only [respects, Bool.and_eq_true] at hr
    intro w hw
    obtain ⟨w₁, hw₁, hle₁⟩ := h.watermark_le_step hr.1 w hw
    obtain ⟨w₂, hw₂, hle₂⟩ := ih (h.step hr.1) hr.2 w₁ hw₁
    exact ⟨w₂, hw₂, hle₁.trans hle₂⟩

theorem free_run (hfree : ∀ w ∈ t.watermark, Free t.items t.markers w) {calls : List TrackerCall}
    (hr : respects true t calls = true) :
    ∀ w ∈ (t.run calls).watermark, Free (t.run calls).items (t.run calls).markers w := by
  induction calls generalizing t with
  | nil => exact hfree
  | cons c cs ih =>
    simp only [respects, Bool.and_eq_true] at hr
    exact ih (free_step hfree hr.1) hr.2

/-- A settled path that open work leaves free is at or below the
watermark. -/
theorem TrackerInv.le_of_free (h : TrackerInv settled t) {s : String} (hs : s ∈ settled)
    (hfree : Free t.items t.markers s) : ∃ w ∈ t.watermark, s ≤ w := by
  rcases h.settled_covered s hs with ha | hle
  · exact absurd hfree (h.ahead_blocked s ha)
  · exact hle

end Run

/-- **The tracker's invariant over every run** that keeps the contract of
the source's debug assertions, from a new tracker: no open item or marker
lies below the watermark, the watermark is a settled path, and every settled
path is at or below it or waits ahead, blocked by open work. -/
theorem tracker_run_inv {strict : Bool} {calls : List TrackerCall} (hr : respects strict new calls = true) :
    TrackerInv (settledPaths calls) (new.run calls) := by
  simpa using trackerInv_new.run hr

theorem tracker_run_inv_in_order :
    TrackerInv (settledPaths [.openItem "a", .openItem "b", .openItem "c", .settle "b", .settle "a", .settle "c"])
      (new.run [.openItem "a", .openItem "b", .openItem "c", .settle "b", .settle "a", .settle "c"]) :=
  @tracker_run_inv false _ (by decide)

/-- **The watermark never moves back** along a run that keeps the
contract. -/
theorem tracker_watermark_mono {strict : Bool} {calls more : List TrackerCall}
    (hr : respects strict new (calls ++ more) = true) :
    ∀ w ∈ (new.run calls).watermark, ∃ w' ∈ (new.run (calls ++ more)).watermark, w ≤ w' := by
  rw [respects_append, Bool.and_eq_true] at hr
  rw [run_append]
  exact (trackerInv_new.run hr.1).watermark_le_run hr.2

theorem tracker_watermark_mono_out_of_order :
    (new.run [.openItem "a", .openItem "b", .openItem "c", .settle "b", .settle "a"]).watermark = some "b" ∧
      ∃ w' ∈ (new.run ([.openItem "a", .openItem "b", .openItem "c", .settle "b", .settle "a"] ++
        [.openItem "d", .settle "c"])).watermark, "b" ≤ w' :=
  ⟨by decide, @tracker_watermark_mono false _ _ (by decide) "b" (by decide)⟩

/-- **Drained, the watermark is the largest settled path**: once no item and
no marker is open, everything the run settled is at or below it. -/
theorem drained_watermark_eq_max {strict : Bool} {calls : List TrackerCall}
    (hr : respects strict new calls = true) (hempty : (new.run calls).isEmpty = true) :
    (new.run calls).watermark = (settledPaths calls).max? := by
  have h : TrackerInv (settledPaths calls) (new.run calls) := by simpa using trackerInv_new.run hr
  simp only [isEmpty, Bool.and_eq_true, List.isEmpty_iff] at hempty
  -- with nothing open, every settled path is free
  have hfree : ∀ s, Free (new.run calls).items (new.run calls).markers s := by
    intro s
    rw [hempty.1, hempty.2]
    exact ⟨nofun, nofun⟩
  cases hw : (new.run calls).watermark with
  | none =>
    refine (List.max?_eq_none_iff.mpr (List.eq_nil_iff_forall_not_mem.mpr fun s hs => ?_)).symm
    obtain ⟨w, hw', -⟩ := h.le_of_free hs (hfree s)
    rw [hw] at hw'
    exact nomatch hw'
  | some w =>
    refine (List.max?_eq_some_iff.mpr ⟨h.watermark_settled w hw, fun s hs => ?_⟩).symm
    obtain ⟨w', hw', hle⟩ := h.le_of_free hs (hfree s)
    rw [hw] at hw'
    exact Option.some.inj hw' ▸ hle

theorem drained_watermark_eq_max_marker :
    (new.run [.openMarker "d/", .openItem "d/a", .settle "d/a", .advanceMarker "d/" "d/a",
      .closeMarker "d/a"]).watermark =
      (settledPaths [.openMarker "d/", .openItem "d/a", .settle "d/a", .advanceMarker "d/" "d/a",
        .closeMarker "d/a"]).max? :=
  @drained_watermark_eq_max false _ (by decide) (by decide)

/-- **The watermark is the largest settled path open work leaves free**,
along every run whose items open strictly above the watermark: the value the
source's brute-force model of the tracker predicts. -/
theorem tracker_watermark_eq_max_free {calls : List TrackerCall} (hr : respects true new calls = true) :
    (new.run calls).watermark =
      ((settledPaths calls).filter fun s => !blocks (new.run calls).items (new.run calls).markers s).max? := by
  have h : TrackerInv (settledPaths calls) (new.run calls) := by simpa using trackerInv_new.run hr
  have hfree := free_run (t := new) (fun _ hw => nomatch hw) hr
  cases hw : (new.run calls).watermark with
  | none =>
    -- nothing settled is free: it would be at or below a watermark
    refine (List.max?_eq_none_iff.mpr (List.eq_nil_iff_forall_not_mem.mpr fun s hs => ?_)).symm
    obtain ⟨hs, hsfree⟩ := List.mem_filter.mp hs
    obtain ⟨w, hw', -⟩ := h.le_of_free hs (not_blocks_iff.mp hsfree)
    rw [hw] at hw'
    exact nomatch hw'
  | some w =>
    have hwmem : w ∈ (settledPaths calls).filter fun s => !blocks (new.run calls).items (new.run calls).markers s :=
      List.mem_filter.mpr ⟨h.watermark_settled w hw, not_blocks_iff.mpr (hfree w hw)⟩
    refine (List.max?_eq_some_iff.mpr ⟨hwmem, fun s hs => ?_⟩).symm
    obtain ⟨hs, hsfree⟩ := List.mem_filter.mp hs
    obtain ⟨w', hw', hle⟩ := h.le_of_free hs (not_blocks_iff.mp hsfree)
    rw [hw] at hw'
    exact Option.some.inj hw' ▸ hle

theorem tracker_watermark_eq_max_free_marker :
    (new.run [.openMarker "!", .openItem "a", .advanceMarker "!" "a", .openItem "b", .advanceMarker "a" "b",
      .settle "b", .settle "a"]).watermark =
      ((settledPaths [.openMarker "!", .openItem "a", .advanceMarker "!" "a", .openItem "b",
        .advanceMarker "a" "b", .settle "b", .settle "a"]).filter fun s =>
          !blocks (new.run [.openMarker "!", .openItem "a", .advanceMarker "!" "a", .openItem "b",
            .advanceMarker "a" "b", .settle "b", .settle "a"]).items
            (new.run [.openMarker "!", .openItem "a", .advanceMarker "!" "a", .openItem "b",
              .advanceMarker "a" "b", .settle "b", .settle "a"]).markers s).max? :=
  tracker_watermark_eq_max_free (by decide)

end ContiguousTracker

end DeltaGlider.Replication
