import Mathlib.Data.String.Basic
import Mathlib.Data.List.Sort
import Mathlib.Data.List.Dedup
import DeltaGlider.Types
import DeltaGlider.Lib.RustStd

/-!
# Bucket routing across backends

`RoutingBackend` of `src/storage/routing.rs` sends every bucket operation to
one of several backends: an explicit route wins, then the default backend if
its HEAD finds the bucket, then the other backends in name order
(`resolve_existing`).  `list_buckets` and `list_bucket_origins` list what the
backends hold under the names clients may use: a real bucket some route maps
to is shown under the route's virtual name (`reverse_lookup`), and
`list_bucket_origins` keeps one entry per name, preferring a route, then the
default backend, then the lowest backend name.

Backends are given by what they hold (`rosters`), with no backend failing
(`Healthy`).  Then:

    list_buckets names exactly the names list_bucket_origins lists, with no name twice
                                                          (origins_agree_with_routing)
    every listed entry e has resolve_existing e.name = (e.backend, e.real_bucket or e.name)
      when every route's real bucket exists, no two routes share a target, and a route's
      real bucket lies on no other backend unless a route is named after it
                                                          (origins_agree_with_routing)
    without those conditions an entry can name a backend the bucket is not routed to
                                                          (listing_misroutes)
-/

namespace DeltaGlider.Routing

/-! ## Algorithm -/

/-- `BucketRoute`: a virtual bucket's backend and real bucket (`None`: the
virtual name itself). -/
structure BucketRoute where
  backendName : String
  realBucket : Option String
  deriving DecidableEq, Repr

/-- `BucketListing`, with creation dates as numbers. -/
structure BucketListing where
  name : String
  creationDate : Option Nat
  backendName : Option String
  realBucket : Option String
  unavailable : Option String
  deriving DecidableEq, Repr

/-- `BackendRoster`: one backend's `(real_bucket, creation_date)` list. -/
abbrev BackendRoster := List (String × Nat)

/-- `BackendListing`: a backend's name and its listing outcome, a failure
carried as its error's text. -/
abbrev BackendListing := String × Except String BackendRoster

/-- The configuration of a `RoutingBackend`: the names of its backends, in
the sorted order every scan and every listing takes them in; its routes, in
the route map's iteration order; and the default backend.  The fields after
them hold by construction (a map has distinct keys; `with_health_config`
checks that the default and every route name a configured backend). -/
structure RoutingBackend where
  backends : List String
  routes : List (String × BucketRoute)
  defaultBackend : String
  backends_sorted : backends.Pairwise (· < ·)
  routes_nodup : (routes.map Prod.fst).Nodup
  default_mem : defaultBackend ∈ backends
  route_backend_mem : ∀ r ∈ routes, r.2.backendName ∈ backends

namespace RoutingBackend

variable (rb : RoutingBackend)

/-- `reverse_lookup`: the first route (in iteration order) whose backend and
real bucket are the given ones. -/
def reverseLookup (backendName realBucket : String) : Option String :=
  (rb.routes.find? fun r =>
    r.2.backendName == backendName && r.2.realBucket.getD r.1 == realBucket).map Prod.fst

/-- `listed_bucket_virtual_name`. -/
def listedBucketVirtualName (backendName realBucket : String) : String :=
  (rb.reverseLookup backendName realBucket).getD realBucket

/-- `TRANSIENT_PREFIX` of `src/maintenance/migrate.rs`. -/
def transientPrefix : String := "__dgmigrate_"

/-- `is_listing_plumbing`. -/
def isListingPlumbing (virtualName : String) : Bool :=
  RustStd.startsWith virtualName transientPrefix

/-- `explicit_route`: the route's backend and real bucket. -/
def explicitRoute (virtualBucket : String) : Option (String × String) :=
  (rb.routes.lookup virtualBucket).map fun route =>
    (route.backendName, route.realBucket.getD virtualBucket)

/-- The loop of `resolve_existing` over the backends in name order, the
default skipped: the first whose HEAD does not answer a clean `Ok(false)`. -/
def scanBackends (head : String → String → Except String Bool) (virtualBucket : String) :
    List String → Option String
  | [] => none
  | name :: names =>
    if name = rb.defaultBackend then scanBackends head virtualBucket names
    else
      match head name virtualBucket with
      | .ok false => scanBackends head virtualBucket names
      | _ => some name

/-- `resolve_existing`, with `head name bucket` the outcome of that
backend's `head_bucket`: an explicit route, else the default backend unless
its HEAD answers a clean `Ok(false)`, else the scan, else the default. -/
def resolveExisting (head : String → String → Except String Bool) (virtualBucket : String) :
    String × String :=
  match rb.explicitRoute virtualBucket with
  | some route => route
  | none =>
    match head rb.defaultBackend virtualBucket with
    | .ok false =>
      ((rb.scanBackends head virtualBucket rb.backends).getD rb.defaultBackend, virtualBucket)
    | _ => (rb.defaultBackend, virtualBucket)

/-- `total_failure_error`: an error only when no backend answered. -/
def totalFailureError (results : List BackendListing) : Option StorageError :=
  if results.any (fun r => r.2.isOk) then none
  else
    let msgs := results.filterMap fun r =>
      match r.2 with
      | .error e => some (r.1 ++ ": " ++ e)
      | .ok _ => none
    if msgs.isEmpty then none else some (.s3 ("; ".intercalate msgs))

/-- The virtual names one backend's listing contributes to `list_buckets`. -/
def listedNames (backendName : String) (roster : BackendRoster) : List String :=
  roster.filterMap fun entry =>
    let virtualName := rb.listedBucketVirtualName backendName entry.1
    if isListingPlumbing virtualName then none else some virtualName

/-- `list_buckets`: the virtual names of every answered listing, as a set,
sorted. -/
def listBuckets (results : List BackendListing) : Except StorageError (List String) :=
  match totalFailureError results with
  | some e => .error e
  | none =>
    let allBuckets := results.flatMap fun r =>
      match r.2 with
      | .ok roster => rb.listedNames r.1 roster
      | .error _ => []
    .ok (allBuckets.dedup.insertionSort (· ≤ ·))

end RoutingBackend

/-- A dedup candidate `(virtual_name, priority, backend_name, listing)` of
`list_bucket_origins`. -/
structure Candidate where
  name : String
  priority : Nat
  backendName : String
  listing : BucketListing

/-- The order `list_bucket_origins` sorts its candidates by: name, then
priority, then backend name. -/
def candidateLe (a b : Candidate) : Prop :=
  a.name < b.name ∨ (a.name = b.name ∧
    (a.priority < b.priority ∨ (a.priority = b.priority ∧ a.backendName ≤ b.backendName)))

instance : DecidableRel candidateLe := fun a b =>
  inferInstanceAs (Decidable (a.name < b.name ∨ (a.name = b.name ∧
    (a.priority < b.priority ∨ (a.priority = b.priority ∧ a.backendName ≤ b.backendName)))))

/-- `all_buckets.entry(name).or_insert(bucket)` over the sorted candidates:
the first candidate of each name, `seen` holding the names inserted so far. -/
def firstPerName (seen : List String) : List Candidate → List Candidate
  | [] => []
  | c :: cs =>
    if c.name ∈ seen then firstPerName seen cs else c :: firstPerName (c.name :: seen) cs

namespace RoutingBackend

variable (rb : RoutingBackend)

/-- The candidate a live listing of `real_bucket` on a backend gives:
priority 0 under a route's name, 1 on the default backend, 2 elsewhere. -/
def liveCandidate (backendName : String) (entry : String × Nat) : Option Candidate :=
  let virtualName := rb.listedBucketVirtualName backendName entry.1
  if isListingPlumbing virtualName then none
  else
    let priority :=
      if (rb.reverseLookup backendName entry.1).isSome then 0
      else if backendName = rb.defaultBackend then 1 else 2
    some ⟨virtualName, priority, backendName,
      { name := virtualName, creationDate := some entry.2, backendName := some backendName,
        realBucket := if entry.1 ≠ virtualName then some entry.1 else none,
        unavailable := none }⟩

/-- The `push` closure of the failure branch: a priority-3 placeholder,
flagged unavailable with the backend's error. -/
def placeholder (backendName origin virtualName : String) (realAlias : Option String) :
    List Candidate :=
  if isListingPlumbing virtualName then []
  else
    [⟨virtualName, 3, backendName,
      { name := virtualName, creationDate := none, backendName := some backendName,
        realBucket := realAlias, unavailable := some origin }⟩]

/-- The failure branch of `list_bucket_origins`: placeholders for the
backend's routes, then for its last known roster. -/
def placeholderCandidates (backendName origin : String) (snapshot : Option BackendRoster) :
    List Candidate :=
  (rb.routes.flatMap fun r =>
    if r.2.backendName ≠ backendName then []
    else placeholder backendName origin r.1 (r.2.realBucket.filter (· ≠ r.1))) ++
  ((snapshot.getD []).flatMap fun entry =>
    let virtualName := rb.listedBucketVirtualName backendName entry.1
    placeholder backendName origin virtualName
      (if entry.1 ≠ virtualName then some entry.1 else none))

/-- Every candidate of `list_bucket_origins`, backend by backend;
`lastKnown` is the health snapshot's last good roster of each backend. -/
def gatherCandidates (lastKnown : String → Option BackendRoster) (results : List BackendListing) :
    List Candidate :=
  results.flatMap fun r =>
    match r.2 with
    | .ok roster => roster.filterMap (rb.liveCandidate r.1)
    | .error e => rb.placeholderCandidates r.1 e (lastKnown r.1)

/-- `list_bucket_origins`: the candidates sorted, the first of each name
kept, the result sorted by name. -/
def listBucketOrigins (lastKnown : String → Option BackendRoster) (results : List BackendListing) :
    Except StorageError (List BucketListing) :=
  let candidates := rb.gatherCandidates lastKnown results
  let anyOk := results.any fun r => r.2.isOk
  let origins :=
    ((firstPerName [] (candidates.insertionSort candidateLe)).map (·.listing)).insertionSort
      fun a b => a.name ≤ b.name
  if !anyOk && candidates.isEmpty then
    match totalFailureError results with
    | some e => .error e
    | none => .ok origins
  else .ok origins

end RoutingBackend

/-! ## Lemmas -/

/-! ### The candidate order -/

theorem candidateLe_refl (a : Candidate) : candidateLe a a :=
  .inr ⟨rfl, .inr ⟨rfl, le_rfl⟩⟩

theorem candidateLe_trans {a b c : Candidate} (hab : candidateLe a b) (hbc : candidateLe b c) :
    candidateLe a c := by
  unfold candidateLe at *
  rcases hab with h1 | ⟨h1, h2 | ⟨h2, h3⟩⟩ <;> rcases hbc with h4 | ⟨h4, h5 | ⟨h5, h6⟩⟩
  · exact .inl (lt_trans h1 h4)
  · exact .inl (h4 ▸ h1)
  · exact .inl (h4 ▸ h1)
  · exact .inl (h1 ▸ h4)
  · exact .inr ⟨h1.trans h4, .inl (lt_trans h2 h5)⟩
  · exact .inr ⟨h1.trans h4, .inl (h5 ▸ h2)⟩
  · exact .inl (h1 ▸ h4)
  · exact .inr ⟨h1.trans h4, .inl (h2 ▸ h5)⟩
  · exact .inr ⟨h1.trans h4, .inr ⟨h2.trans h5, le_trans h3 h6⟩⟩

theorem candidateLe_total (a b : Candidate) : candidateLe a b ∨ candidateLe b a := by
  unfold candidateLe
  rcases lt_trichotomy a.name b.name with h | h | h
  · exact .inl (.inl h)
  · rcases lt_trichotomy a.priority b.priority with hp | hp | hp
    · exact .inl (.inr ⟨h, .inl hp⟩)
    · rcases le_total a.backendName b.backendName with hb | hb
      · exact .inl (.inr ⟨h, .inr ⟨hp, hb⟩⟩)
      · exact .inr (.inr ⟨h.symm, .inr ⟨hp.symm, hb⟩⟩)
    · exact .inr (.inr ⟨h.symm, .inl hp⟩)
  · exact .inr (.inl h)

instance : Std.Total candidateLe := ⟨candidateLe_total⟩

instance : IsTrans Candidate candidateLe := ⟨fun _ _ _ => candidateLe_trans⟩

/-- Between candidates of one name the order is priority, then backend. -/
theorem candidateLe_of_name_eq {a b : Candidate} (h : candidateLe a b) (hname : a.name = b.name) :
    a.priority < b.priority ∨ (a.priority = b.priority ∧ a.backendName ≤ b.backendName) := by
  rcases h with h | ⟨-, h⟩
  · exact absurd hname (ne_of_lt h)
  · exact h

/-! ### The first candidate of each name -/

theorem mem_firstPerName {seen : List String} {l : List Candidate} {c : Candidate}
    (h : c ∈ firstPerName seen l) : c ∈ l ∧ c.name ∉ seen := by
  induction l generalizing seen with
  | nil => simp [firstPerName] at h
  | cons d ds ih =>
    unfold firstPerName at h
    split at h
    · exact ⟨List.mem_cons_of_mem _ (ih h).1, (ih h).2⟩
    · rename_i hd
      rcases List.mem_cons.mp h with rfl | h
      · exact ⟨List.mem_cons_self, hd⟩
      · obtain ⟨hmem, hseen⟩ := ih h
        exact ⟨List.mem_cons_of_mem _ hmem, fun hc => hseen (List.mem_cons_of_mem _ hc)⟩

/-- On a sorted list, the kept candidate of a name is the least of that name. -/
theorem firstPerName_least {seen : List String} {l : List Candidate} {c : Candidate}
    (hl : l.Pairwise candidateLe) (h : c ∈ firstPerName seen l) :
    ∀ d ∈ l, d.name = c.name → candidateLe c d := by
  induction l generalizing seen with
  | nil => simp [firstPerName] at h
  | cons d ds ih =>
    rw [List.pairwise_cons] at hl
    intro e he hname
    unfold firstPerName at h
    split at h
    · -- the head's name was seen, so the kept candidate is not of that name
      rename_i hd
      rcases List.mem_cons.mp he with rfl | he
      · exact absurd (hname ▸ hd) (mem_firstPerName h).2
      · exact ih hl.2 h e he hname
    · rcases List.mem_cons.mp h with rfl | h
      · rcases List.mem_cons.mp he with rfl | he
        · exact candidateLe_refl _
        · exact hl.1 e he
      · have hne : c.name ≠ d.name := fun hc =>
          (mem_firstPerName h).2 (hc ▸ List.mem_cons_self)
        rcases List.mem_cons.mp he with rfl | he
        · exact absurd hname.symm hne
        · exact ih hl.2 h e he hname

theorem exists_mem_firstPerName {seen : List String} {l : List Candidate} {d : Candidate}
    (hd : d ∈ l) (hseen : d.name ∉ seen) : ∃ c ∈ firstPerName seen l, c.name = d.name := by
  induction l generalizing seen with
  | nil => simp at hd
  | cons e es ih =>
    unfold firstPerName
    split
    · rename_i he
      rcases List.mem_cons.mp hd with rfl | hd
      · exact absurd he hseen
      · exact ih hd hseen
    · by_cases hname : e.name = d.name
      · exact ⟨e, List.mem_cons_self, hname⟩
      · rcases List.mem_cons.mp hd with rfl | hd
        · exact absurd rfl hname
        · obtain ⟨c, hc, hcd⟩ := @ih (e.name :: seen) hd (by
            simp only [List.mem_cons, not_or]
            exact ⟨Ne.symm hname, hseen⟩)
          exact ⟨c, List.mem_cons_of_mem _ hc, hcd⟩

theorem nodup_firstPerName (seen : List String) (l : List Candidate) :
    ((firstPerName seen l).map (·.name)).Nodup := by
  induction l generalizing seen with
  | nil => simp [firstPerName]
  | cons d ds ih =>
    unfold firstPerName
    split
    · exact ih seen
    · rw [List.map_cons, List.nodup_cons]
      refine ⟨?_, ih _⟩
      intro hmem
      obtain ⟨c, hc, hcd⟩ := List.mem_map.mp hmem
      exact (mem_firstPerName hc).2 (hcd ▸ List.mem_cons_self)

/-! ### Routes -/

theorem lookup_of_mem {l : List (String × BucketRoute)} (hnd : (l.map Prod.fst).Nodup)
    {v : String} {route : BucketRoute} (h : (v, route) ∈ l) : l.lookup v = some route := by
  induction l with
  | nil => simp at h
  | cons p ps ih =>
    obtain ⟨k, b⟩ := p
    rw [List.map_cons, List.nodup_cons] at hnd
    rcases List.mem_cons.mp h with h | h
    · cases h
      simp
    · have hv : v ∈ ps.map Prod.fst := List.mem_map.mpr ⟨(v, route), h, rfl⟩
      have hne : (v == k) = false := beq_false_of_ne fun he => hnd.1 (he ▸ hv)
      rw [List.lookup_cons, hne, ih hnd.2 h]

theorem mem_of_lookup {l : List (String × BucketRoute)} {v : String} {route : BucketRoute}
    (h : l.lookup v = some route) : (v, route) ∈ l := by
  obtain ⟨l₁, l₂, rfl, -⟩ := List.lookup_eq_some_iff.mp h
  simp

namespace RoutingBackend

variable (rb : RoutingBackend)

theorem explicitRoute_of_mem {v : String} {route : BucketRoute} (h : (v, route) ∈ rb.routes) :
    rb.explicitRoute v = some (route.backendName, route.realBucket.getD v) := by
  rw [explicitRoute, lookup_of_mem rb.routes_nodup h, Option.map_some]

theorem explicitRoute_of_lookup {v : String} (h : rb.routes.lookup v = none) :
    rb.explicitRoute v = none := by
  rw [explicitRoute, h, Option.map_none]

theorem reverseLookup_eq_some {b r w : String} (h : rb.reverseLookup b r = some w) :
    ∃ route, (w, route) ∈ rb.routes ∧ route.backendName = b ∧ route.realBucket.getD w = r := by
  unfold reverseLookup at h
  obtain ⟨x, hx, rfl⟩ := Option.map_eq_some_iff.mp h
  have hp := List.find?_some hx
  simp only [Bool.and_eq_true, beq_iff_eq] at hp
  exact ⟨x.2, List.mem_of_find?_eq_some hx, hp.1, hp.2⟩

/-- With route targets distinct, a route's own target looks back to it. -/
theorem reverseLookup_of_mem {v : String} {route : BucketRoute} (h : (v, route) ∈ rb.routes)
    (hinj : ∀ r ∈ rb.routes, ∀ s ∈ rb.routes, r.2.backendName = s.2.backendName →
      r.2.realBucket.getD r.1 = s.2.realBucket.getD s.1 → r.1 = s.1) :
    rb.reverseLookup route.backendName (route.realBucket.getD v) = some v := by
  cases hrev : rb.reverseLookup route.backendName (route.realBucket.getD v) with
  | none =>
    simp only [reverseLookup, Option.map_eq_none_iff, List.find?_eq_none, Bool.and_eq_true,
      beq_iff_eq] at hrev
    exact absurd ⟨rfl, rfl⟩ (hrev _ h)
  | some w =>
    obtain ⟨route', hmem, hbk, hrb⟩ := rb.reverseLookup_eq_some hrev
    exact congrArg some (hinj _ hmem _ h hbk hrb)

/-! ### The scan over the other backends -/

theorem scanBackends_spec {head : String → String → Except String Bool} {v X : String}
    {names : List String} (hs : names.Pairwise (· < ·)) (h : rb.scanBackends head v names = some X) :
    X ∈ names ∧ X ≠ rb.defaultBackend ∧ head X v ≠ .ok false ∧
      ∀ Y ∈ names, Y < X → Y = rb.defaultBackend ∨ head Y v = .ok false := by
  induction names with
  | nil => simp [scanBackends] at h
  | cons n ns ih =>
    rw [List.pairwise_cons] at hs
    unfold scanBackends at h
    split at h
    · -- the default is skipped
      rename_i hn
      obtain ⟨hX, hXD, hhead, hbelow⟩ := ih hs.2 h
      refine ⟨List.mem_cons_of_mem _ hX, hXD, hhead, fun Y hY hYX => ?_⟩
      rcases List.mem_cons.mp hY with rfl | hY
      · exact .inl hn
      · exact hbelow Y hY hYX
    · rename_i hn
      split at h
      · -- a clean `Ok(false)`: keep looking
        rename_i hfalse
        obtain ⟨hX, hXD, hhead, hbelow⟩ := ih hs.2 h
        refine ⟨List.mem_cons_of_mem _ hX, hXD, hhead, fun Y hY hYX => ?_⟩
        rcases List.mem_cons.mp hY with rfl | hY
        · exact .inr hfalse
        · exact hbelow Y hY hYX
      · -- the first backend that answers anything else is chosen
        rename_i hother
        cases h
        refine ⟨List.mem_cons_self, hn, hother, fun Y hY hYX => ?_⟩
        rcases List.mem_cons.mp hY with rfl | hY
        · exact absurd hYX (lt_irrefl _)
        · exact absurd (lt_trans hYX (hs.1 Y hY)) (lt_irrefl _)

theorem scanBackends_isSome {head : String → String → Except String Bool} {v Y : String}
    {names : List String} (hY : Y ∈ names) (hD : Y ≠ rb.defaultBackend)
    (hhead : head Y v ≠ .ok false) : (rb.scanBackends head v names).isSome := by
  induction names with
  | nil => simp at hY
  | cons n ns ih =>
    unfold scanBackends
    split
    · rename_i hn
      rcases List.mem_cons.mp hY with rfl | hY
      · exact absurd hn hD
      · exact ih hY
    · split
      · rename_i hfalse
        rcases List.mem_cons.mp hY with rfl | hY
        · exact absurd hfalse hhead
        · exact ih hY
      · rfl

end RoutingBackend

/-! ### Healthy backends -/

namespace RoutingBackend

variable (rb : RoutingBackend)

/-- Each backend holds exactly its roster and none fails: the listings are
the rosters, in backend order, and every HEAD answers whether the bucket is
in the roster. -/
structure Healthy (rosters : String → BackendRoster) (head : String → String → Except String Bool)
    (results : List BackendListing) : Prop where
  results_eq : results = rb.backends.map fun b => (b, .ok (rosters b))
  head_eq : ∀ b v, head b v = .ok (decide (v ∈ (rosters b).map Prod.fst))

/-- The routes under which listing and routing agree: every route's real
bucket exists, no two routes share a target, and a route's real bucket lies
on no other backend unless a route carries its name. -/
structure RoutesFaithful (rosters : String → BackendRoster) : Prop where
  target_exists : ∀ r ∈ rb.routes, r.2.realBucket.getD r.1 ∈ (rosters r.2.backendName).map Prod.fst
  target_injective : ∀ r ∈ rb.routes, ∀ s ∈ rb.routes, r.2.backendName = s.2.backendName →
    r.2.realBucket.getD r.1 = s.2.realBucket.getD s.1 → r.1 = s.1
  no_shadow : ∀ r ∈ rb.routes, ∀ b ∈ rb.backends, b ≠ r.2.backendName →
    r.2.realBucket.getD r.1 ∈ (rosters b).map Prod.fst →
    (rb.routes.lookup (r.2.realBucket.getD r.1)).isSome

section Healthy

variable {rb} {rosters : String → BackendRoster} {head : String → String → Except String Bool}
  {results : List BackendListing} (lastKnown : String → Option BackendRoster)

theorem Healthy.head_ne_false (hh : rb.Healthy rosters head results) {b v : String} :
    head b v ≠ .ok false ↔ v ∈ (rosters b).map Prod.fst := by
  rw [hh.head_eq]
  by_cases hv : v ∈ (rosters b).map Prod.fst <;> simp [hv]

theorem Healthy.mem_gatherCandidates (hh : rb.Healthy rosters head results) {c : Candidate} :
    c ∈ rb.gatherCandidates lastKnown results ↔
      ∃ b ∈ rb.backends, ∃ entry ∈ rosters b, rb.liveCandidate b entry = some c := by
  rw [gatherCandidates, hh.results_eq]
  simp [List.mem_flatMap, List.mem_filterMap]

theorem Healthy.totalFailureError (hh : rb.Healthy rosters head results) :
    totalFailureError results = none := by
  have hany : results.any (fun r => r.2.isOk) = true := by
    rw [hh.results_eq, List.any_map, List.any_eq_true]
    exact ⟨rb.defaultBackend, rb.default_mem, rfl⟩
  rw [RoutingBackend.totalFailureError, if_pos hany]

end Healthy

/-! ### Live candidates -/

/-- What a live candidate records: the listed virtual name, not plumbing;
its backend; the real bucket, recovered with the name as default; and its
priority. -/
theorem liveCandidate_eq_some {b : String} {entry : String × Nat} {c : Candidate}
    (h : rb.liveCandidate b entry = some c) :
    c.name = rb.listedBucketVirtualName b entry.1 ∧ isListingPlumbing c.name = false ∧
      c.backendName = b ∧ c.listing.name = c.name ∧ c.listing.backendName = some b ∧
      c.listing.realBucket.getD c.name = entry.1 ∧
      c.priority = (if (rb.reverseLookup b entry.1).isSome then 0
        else if b = rb.defaultBackend then 1 else 2) := by
  unfold liveCandidate at h
  by_cases hplumb : isListingPlumbing (rb.listedBucketVirtualName b entry.1) = true
  · rw [if_pos hplumb] at h
    cases h
  · rw [if_neg hplumb] at h
    cases h
    refine ⟨rfl, by simpa using hplumb, rfl, rfl, rfl, ?_, rfl⟩
    dsimp only
    by_cases hsame : entry.1 = rb.listedBucketVirtualName b entry.1
    · rw [if_neg (not_not.mpr hsame), Option.getD_none]
      exact hsame.symm
    · rw [if_pos hsame, Option.getD_some]

theorem listedNames_eq (b : String) (roster : BackendRoster) :
    rb.listedNames b roster = (roster.filterMap (rb.liveCandidate b)).map (·.name) := by
  rw [List.map_filterMap, listedNames]
  congr 1
  funext entry
  unfold liveCandidate
  by_cases h : isListingPlumbing (rb.listedBucketVirtualName b entry.1) = true <;> simp [h]

theorem liveCandidate_of_not_plumbing {b : String} {entry : String × Nat}
    (h : isListingPlumbing (rb.listedBucketVirtualName b entry.1) = false) :
    ∃ c, rb.liveCandidate b entry = some c := by
  unfold liveCandidate
  simp [h]

/-! ### The entries routing agrees with -/

section Agreement

variable {rb} {rosters : String → BackendRoster} {head : String → String → Except String Bool}
  {results : List BackendListing} (lastKnown : String → Option BackendRoster)

/-- A route named `n` gives a priority-0 candidate of that name. -/
theorem Healthy.routed_candidate (hh : rb.Healthy rosters head results)
    (hf : rb.RoutesFaithful rosters) {n : String} {route : BucketRoute}
    (hmem : (n, route) ∈ rb.routes) (hplumb : isListingPlumbing n = false) :
    ∃ d ∈ rb.gatherCandidates lastKnown results, d.name = n ∧ d.priority = 0 := by
  obtain ⟨entry, hentry, htarget⟩ := List.mem_map.mp (hf.target_exists _ hmem)
  have hrev : rb.reverseLookup route.backendName entry.1 = some n := by
    rw [htarget]
    exact rb.reverseLookup_of_mem hmem hf.target_injective
  have hvirt : rb.listedBucketVirtualName route.backendName entry.1 = n := by
    rw [listedBucketVirtualName, hrev, Option.getD_some]
  obtain ⟨d, hd⟩ := rb.liveCandidate_of_not_plumbing (by rw [hvirt]; exact hplumb)
  obtain ⟨hname, -, -, -, -, -, hprio⟩ := rb.liveCandidate_eq_some hd
  refine ⟨d, (hh.mem_gatherCandidates lastKnown).mpr
    ⟨route.backendName, rb.route_backend_mem _ hmem, entry, hentry, hd⟩, hname.trans hvirt, ?_⟩
  rw [hprio, hrev]
  rfl

/-- A backend `X` listing `n`, with no route named `n` and another backend
listing `n` as well, gives a candidate of that name from `X`: priority 1 on
the default backend, 2 elsewhere. -/
theorem Healthy.listed_candidate (hh : rb.Healthy rosters head results)
    (hf : rb.RoutesFaithful rosters) {n X b : String} (hX : X ∈ rb.backends)
    (hXn : n ∈ (rosters X).map Prod.fst) (hb : b ∈ rb.backends) (hbn : n ∈ (rosters b).map Prod.fst)
    (hbX : b ≠ X) (hroute : rb.routes.lookup n = none) (hplumb : isListingPlumbing n = false) :
    ∃ d ∈ rb.gatherCandidates lastKnown results, d.name = n ∧ d.backendName = X ∧
      d.priority = if X = rb.defaultBackend then 1 else 2 := by
  obtain ⟨entry, hentry, rfl⟩ := List.mem_map.mp hXn
  cases hrev : rb.reverseLookup X entry.1 with
  | some w =>
    -- a route onto `(X, n)` while `b` lists `n` too: only a route named `n` allows it
    obtain ⟨route, hmem, hbk, hrb⟩ := rb.reverseLookup_eq_some hrev
    have hshadow := hf.no_shadow _ hmem b hb (by rw [hbk]; exact hbX) (by rw [hrb]; exact hbn)
    rw [hrb, hroute] at hshadow
    exact absurd hshadow (by simp)
  | none =>
    have hvirt : rb.listedBucketVirtualName X entry.1 = entry.1 := by
      rw [listedBucketVirtualName, hrev, Option.getD_none]
    obtain ⟨d, hd⟩ := rb.liveCandidate_of_not_plumbing (by rw [hvirt]; exact hplumb)
    obtain ⟨hname, -, hback, -, -, -, hprio⟩ := rb.liveCandidate_eq_some hd
    refine ⟨d, (hh.mem_gatherCandidates lastKnown).mpr ⟨X, hX, entry, hentry, hd⟩,
      hname.trans hvirt, hback, ?_⟩
    rw [hprio, hrev]
    rfl

/-- The least candidate of its name is where routing sends that name. -/
theorem Healthy.resolveExisting_of_least (hh : rb.Healthy rosters head results)
    (hf : rb.RoutesFaithful rosters) {c : Candidate} (hc : c ∈ rb.gatherCandidates lastKnown results)
    (hleast : ∀ d ∈ rb.gatherCandidates lastKnown results, d.name = c.name → candidateLe c d) :
    rb.resolveExisting head c.name = (c.backendName, c.listing.realBucket.getD c.name) := by
  obtain ⟨b, hb, entry, hentry, hlive⟩ := (hh.mem_gatherCandidates lastKnown).mp hc
  obtain ⟨hname, hplumb, hback, -, -, hreal, hprio⟩ := rb.liveCandidate_eq_some hlive
  rw [hreal, hback]
  have hbn : entry.1 ∈ (rosters b).map Prod.fst := List.mem_map_of_mem hentry
  cases hrev : rb.reverseLookup b entry.1 with
  | some w =>
    -- listed under a route's name: that route sends the name back here
    obtain ⟨route, hmem, hbk, hrb⟩ := rb.reverseLookup_eq_some hrev
    have hw : c.name = w := by rw [hname, listedBucketVirtualName, hrev, Option.getD_some]
    rw [hw, resolveExisting, rb.explicitRoute_of_mem hmem, hbk, hrb]
  | none =>
    have hn : c.name = entry.1 := by rw [hname, listedBucketVirtualName, hrev, Option.getD_none]
    have hprio' : c.priority = if b = rb.defaultBackend then 1 else 2 := by
      rw [hprio, hrev]
      rfl
    rw [hn] at hplumb hleast ⊢
    -- a route named after the bucket would give a priority-0 candidate, which would have won
    have hroute : rb.routes.lookup entry.1 = none := by
      cases hl : rb.routes.lookup entry.1 with
      | none => rfl
      | some route =>
        obtain ⟨d, hd, hdn, hdp⟩ := hh.routed_candidate lastKnown hf (mem_of_lookup hl) hplumb
        have hcd := candidateLe_of_name_eq (hleast d hd hdn) (hn.trans hdn.symm)
        rw [hdp, hprio'] at hcd
        split at hcd <;> omega
    rw [resolveExisting, rb.explicitRoute_of_lookup hroute]
    dsimp only
    by_cases hD : entry.1 ∈ (rosters rb.defaultBackend).map Prod.fst
    · -- the default holds the bucket and routing stops there
      rw [hh.head_eq, decide_eq_true hD]
      by_cases hbD : b = rb.defaultBackend
      · rw [hbD]
      · obtain ⟨d, hd, hdn, -, hdp⟩ :=
          hh.listed_candidate lastKnown hf rb.default_mem hD hb hbn hbD hroute hplumb
        have hcd := candidateLe_of_name_eq (hleast d hd hdn) (hn.trans hdn.symm)
        rw [hdp, hprio', if_neg hbD, if_pos rfl] at hcd
        omega
    · -- the default answers a clean no: the scan picks the least other backend holding it
      have hbD : b ≠ rb.defaultBackend := fun h => hD (h ▸ hbn)
      rw [hh.head_eq, decide_eq_false hD]
      obtain ⟨X, hX⟩ := Option.isSome_iff_exists.mp
        (rb.scanBackends_isSome hb hbD (hh.head_ne_false.mpr hbn))
      obtain ⟨hXmem, hXD, hXhead, hbelow⟩ := rb.scanBackends_spec rb.backends_sorted hX
      dsimp only
      rw [hX, Option.getD_some]
      rcases lt_trichotomy X b with hlt | heq | hgt
      · -- a lower backend holding it would have given the winning candidate
        obtain ⟨d, hd, hdn, hdb, hdp⟩ := hh.listed_candidate lastKnown hf hXmem
          (hh.head_ne_false.mp hXhead) hb hbn (ne_of_gt hlt) hroute hplumb
        have hcd := candidateLe_of_name_eq (hleast d hd hdn) (hn.trans hdn.symm)
        rw [hdp, hprio', if_neg hbD, if_neg hXD, hback, hdb] at hcd
        rcases hcd with h | ⟨-, h⟩
        · omega
        · exact absurd hlt (not_lt.mpr h)
      · rw [heq]
      · rcases hbelow b hb hgt with h | h
        · exact absurd h hbD
        · exact absurd h (hh.head_ne_false.mpr hbn)

theorem Healthy.listBucketOrigins_eq (hh : rb.Healthy rosters head results) :
    rb.listBucketOrigins lastKnown results =
      .ok (((firstPerName [] ((rb.gatherCandidates lastKnown results).insertionSort candidateLe)).map
        (·.listing)).insertionSort fun a b => a.name ≤ b.name) := by
  have hany : results.any (fun r => r.2.isOk) = true := by
    rw [hh.results_eq, List.any_map, List.any_eq_true]
    exact ⟨rb.defaultBackend, rb.default_mem, rfl⟩
  simp only [listBucketOrigins, hany, Bool.not_true, Bool.false_and, Bool.false_eq_true, if_false]

theorem Healthy.listBuckets_eq (hh : rb.Healthy rosters head results) :
    rb.listBuckets results =
      .ok ((((rb.gatherCandidates lastKnown results).map (·.name)).dedup).insertionSort (· ≤ ·)) := by
  rw [listBuckets, hh.totalFailureError, gatherCandidates, hh.results_eq]
  simp only [List.flatMap_map, List.map_flatMap, listedNames_eq]

/-- A candidate's listing carries its name and backend. -/
theorem Healthy.listing_of_mem (hh : rb.Healthy rosters head results) {c : Candidate}
    (hc : c ∈ rb.gatherCandidates lastKnown results) :
    c.listing.name = c.name ∧ c.listing.backendName = some c.backendName := by
  obtain ⟨b, -, entry, -, hlive⟩ := (hh.mem_gatherCandidates lastKnown).mp hc
  obtain ⟨-, -, hback, hlname, hlback, -, -⟩ := rb.liveCandidate_eq_some hlive
  exact ⟨hlname, by rw [hlback, hback]⟩

end Agreement

/-- Listing agrees with routing: with healthy backends and faithful routes,
`list_buckets` and `list_bucket_origins` both answer and name the same
buckets, each once, and every entry of `list_bucket_origins` is where
`resolve_existing` sends its name. -/
theorem origins_agree_with_routing (rosters : String → BackendRoster)
    (head : String → String → Except String Bool) (lastKnown : String → Option BackendRoster)
    (results : List BackendListing) (hh : rb.Healthy rosters head results)
    (hf : rb.RoutesFaithful rosters) :
    ∃ origins names, rb.listBucketOrigins lastKnown results = .ok origins ∧
      rb.listBuckets results = .ok names ∧
      (∀ e ∈ origins, ∃ b, e.backendName = some b ∧
        rb.resolveExisting head e.name = (b, e.realBucket.getD e.name)) ∧
      (∀ n, n ∈ names ↔ ∃ e ∈ origins, e.name = n) ∧ names.Nodup ∧
      (origins.map (·.name)).Nodup := by
  have hsorted : ((rb.gatherCandidates lastKnown results).insertionSort candidateLe).Pairwise
      candidateLe := List.pairwise_insertionSort candidateLe _
  have hmem_sorted : ∀ c, c ∈ (rb.gatherCandidates lastKnown results).insertionSort candidateLe ↔
      c ∈ rb.gatherCandidates lastKnown results := fun _ => List.mem_insertionSort candidateLe
  -- every kept candidate is a candidate, and its listing names it
  have hkept : ∀ c ∈ firstPerName [] ((rb.gatherCandidates lastKnown results).insertionSort
      candidateLe), c ∈ rb.gatherCandidates lastKnown results :=
    fun c hc => (hmem_sorted c).mp (mem_firstPerName hc).1
  refine ⟨_, _, hh.listBucketOrigins_eq lastKnown, hh.listBuckets_eq lastKnown, ?_, ?_, ?_, ?_⟩
  · intro e he
    obtain ⟨c, hc, rfl⟩ := List.mem_map.mp ((List.mem_insertionSort _).mp he)
    obtain ⟨hname, hback⟩ := hh.listing_of_mem lastKnown (hkept c hc)
    refine ⟨c.backendName, hback, ?_⟩
    rw [hname]
    exact hh.resolveExisting_of_least lastKnown hf (hkept c hc) fun d hd hdn =>
      firstPerName_least hsorted hc d ((hmem_sorted d).mpr hd) hdn
  · intro n
    rw [List.mem_insertionSort, List.mem_dedup]
    constructor
    · intro hn
      obtain ⟨d, hd, rfl⟩ := List.mem_map.mp hn
      obtain ⟨c, hc, hcd⟩ := exists_mem_firstPerName ((hmem_sorted d).mpr hd) List.not_mem_nil
      refine ⟨c.listing, (List.mem_insertionSort _).mpr (List.mem_map_of_mem hc), ?_⟩
      rw [(hh.listing_of_mem lastKnown (hkept c hc)).1, hcd]
    · rintro ⟨e, he, rfl⟩
      obtain ⟨c, hc, rfl⟩ := List.mem_map.mp ((List.mem_insertionSort _).mp he)
      rw [(hh.listing_of_mem lastKnown (hkept c hc)).1]
      exact List.mem_map_of_mem (hkept c hc)
  · exact (List.perm_insertionSort _ _).nodup_iff.mpr (List.nodup_dedup _)
  · rw [((List.perm_insertionSort (fun a b : BucketListing => a.name ≤ b.name) _).map
      (fun e : BucketListing => e.name)).nodup_iff, List.map_map]
    have hnames : (firstPerName [] ((rb.gatherCandidates lastKnown results).insertionSort
        candidateLe)).map ((·.name) ∘ (·.listing)) =
          (firstPerName [] ((rb.gatherCandidates lastKnown results).insertionSort
            candidateLe)).map (·.name) :=
      List.map_congr_left fun c hc => (hh.listing_of_mem lastKnown (hkept c hc)).1
    rw [hnames]
    exact nodup_firstPerName [] _

/-- A route `v → B/r` onto an existing bucket, and the default backend `D`
holding `w`. -/
theorem origins_agree_with_routing_route :
    let rb : RoutingBackend :=
      ⟨["B", "D"], [("v", ⟨"B", some "r"⟩)], "D", by decide, by decide, by decide, by decide⟩
    let rosters : String → BackendRoster := fun b => if b = "B" then [("r", 0)] else if b = "D" then [("w", 0)] else []
    let head : String → String → Except String Bool :=
      fun b v => .ok (decide (v ∈ (rosters b).map Prod.fst))
    rb.Healthy rosters head [("B", .ok [("r", 0)]), ("D", .ok [("w", 0)])] ∧ rb.RoutesFaithful rosters ∧
      ∃ origins names, rb.listBucketOrigins (fun _ => none) [("B", .ok [("r", 0)]), ("D", .ok [("w", 0)])] =
          .ok origins ∧
        rb.listBuckets [("B", .ok [("r", 0)]), ("D", .ok [("w", 0)])] = .ok names ∧
        (∀ e ∈ origins, ∃ b, e.backendName = some b ∧
          rb.resolveExisting head e.name = (b, e.realBucket.getD e.name)) ∧
        (∀ n, n ∈ names ↔ ∃ e ∈ origins, e.name = n) ∧ names.Nodup ∧
        (origins.map (·.name)).Nodup := by
  intro rb rosters head
  have hh : rb.Healthy rosters head [("B", .ok [("r", 0)]), ("D", .ok [("w", 0)])] := ⟨rfl, fun _ _ => rfl⟩
  have hf : rb.RoutesFaithful rosters := ⟨by decide, by decide, by decide⟩
  exact ⟨hh, hf, origins_agree_with_routing rb rosters head (fun _ => none) _ hh hf⟩

/-- Without faithful routes the listing can misroute: a route `v → B/r`
whose real bucket `r` does not exist, while the default backend `D` holds a
bucket named `v`, lists `v` on `D`, yet every request for `v` goes to `B/r`. -/
theorem listing_misroutes :
    let rb : RoutingBackend :=
      ⟨["B", "D"], [("v", ⟨"B", some "r"⟩)], "D", by decide, by decide, by decide, by decide⟩
    let rosters : String → BackendRoster := fun b => if b = "D" then [("v", 0)] else []
    let head : String → String → Except String Bool :=
      fun b v => .ok (decide (v ∈ (rosters b).map Prod.fst))
    rb.Healthy rosters head [("B", .ok []), ("D", .ok [("v", 0)])] ∧
      rb.listBucketOrigins (fun _ => none) [("B", .ok []), ("D", .ok [("v", 0)])] =
        .ok [⟨"v", some 0, some "D", none, none⟩] ∧
      rb.resolveExisting head "v" = ("B", "r") := by
  refine ⟨⟨rfl, fun _ _ => rfl⟩, ?_, ?_⟩ <;> decide

/- Two routes onto one real bucket: `w → B/r` is listed under `v`, and the
default's bucket `w` is listed in its place, though `w` routes to `B/r`. -/
example :
    let rb : RoutingBackend := ⟨["B", "D"], [("v", ⟨"B", some "r"⟩), ("w", ⟨"B", some "r"⟩)], "D",
      by decide, by decide, by decide, by decide⟩
    rb.listBucketOrigins (fun _ => none) [("B", .ok [("r", 0)]), ("D", .ok [("w", 0)])] =
        .ok [⟨"v", some 0, some "B", some "r", none⟩, ⟨"w", some 0, some "D", none, none⟩] ∧
      rb.resolveExisting (fun b v => .ok (decide ((b, v) ∈ [("B", "r"), ("D", "w")]))) "w" =
        ("B", "r") := by
  decide

/- A route's real bucket held by a later backend as well: `B`'s `r` is
listed as `r`, but `r` resolves to `A`, whose `r` is listed as `v`. -/
example :
    let rb : RoutingBackend := ⟨["A", "B", "D"], [("v", ⟨"A", some "r"⟩)], "D",
      by decide, by decide, by decide, by decide⟩
    rb.listBucketOrigins (fun _ => none) [("A", .ok [("r", 0)]), ("B", .ok [("r", 0)]),
        ("D", .ok [])] =
        .ok [⟨"r", some 0, some "B", none, none⟩, ⟨"v", some 0, some "A", some "r", none⟩] ∧
      rb.resolveExisting (fun b v => .ok (decide ((b, v) ∈ [("A", "r"), ("B", "r")]))) "r" =
        ("A", "r") := by
  decide

end RoutingBackend

end DeltaGlider.Routing
