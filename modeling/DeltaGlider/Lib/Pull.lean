import Mathlib

/-!
# Filling a buffer from a stream of deliveries

A pull-based decoder reads a byte stream that arrives cut into arbitrary
deliveries, each an `Except ε (List α)` (the stream's own error, or bytes,
possibly none).  `fill need buf items` is the loop

    while buf.len() < need { match inner.next() { Some(Ok(b)) => buf.extend(b),
                                                  Some(Err(e)) => fail e,
                                                  None => end } }

The lemmas say that on a stream with no errors the result depends only on
the bytes, not on how they were cut: the buffer and the undelivered rest
always concatenate to the bytes seen (`fill_filled`, `fill_ended`).
-/

namespace Pull

variable {ε α : Type}

/-- Outcome of `fill`. -/
inductive Fill (ε α : Type) where
  /-- The buffer holds at least `need` elements. -/
  | filled (buf : List α) (rest : List (Except ε (List α)))
  /-- The stream delivered an error first. -/
  | failed (e : ε) (buf : List α) (rest : List (Except ε (List α)))
  /-- The stream ended first. -/
  | ended (buf : List α)

/-- Pull deliveries into `buf` until it holds `need` elements. -/
def fill (need : Nat) (buf : List α) (items : List (Except ε (List α))) : Fill ε α :=
  if need ≤ buf.length then .filled buf items
  else
    match items with
    | [] => .ended buf
    | .error e :: rest => .failed e buf rest
    | .ok more :: rest => fill need (buf ++ more) rest

theorem fill_nil (need : Nat) (buf : List α) :
    fill need buf ([] : List (Except ε (List α))) =
      if need ≤ buf.length then .filled buf [] else .ended buf := rfl

theorem fill_error (need : Nat) (buf : List α) (e : ε) (rest : List (Except ε (List α))) :
    fill need buf (.error e :: rest) =
      if need ≤ buf.length then .filled buf (.error e :: rest) else .failed e buf rest := rfl

theorem fill_ok (need : Nat) (buf more : List α) (rest : List (Except ε (List α))) :
    fill need buf (.ok more :: rest) =
      if need ≤ buf.length then .filled buf (.ok more :: rest) else fill need (buf ++ more) rest := rfl

/-- The bytes of a stream of deliveries. -/
def bytes : List (Except ε (List α)) → List α
  | [] => []
  | .ok b :: rest => b ++ bytes rest
  | .error _ :: rest => bytes rest

@[simp] theorem bytes_nil : bytes ([] : List (Except ε (List α))) = [] := rfl

@[simp] theorem bytes_ok (b : List α) (rest : List (Except ε (List α))) :
    bytes (.ok b :: rest) = b ++ bytes rest := rfl

@[simp] theorem bytes_error (e : ε) (rest : List (Except ε (List α))) :
    bytes (.error e :: rest : List (Except ε (List α))) = bytes rest := rfl

/-- A stream with no errors. -/
def deliver (ds : List (List α)) : List (Except ε (List α)) := ds.map .ok

@[simp] theorem bytes_deliver (ds : List (List α)) : bytes (deliver ds : List (Except ε (List α))) = ds.flatten := by
  induction ds with
  | nil => rfl
  | cons d ds ih =>
    show bytes (.ok d :: deliver ds) = (d :: ds).flatten
    rw [bytes_ok, ih, List.flatten_cons]

@[simp] theorem deliver_nil : (deliver [] : List (Except ε (List α))) = [] := rfl

@[simp] theorem deliver_cons (d : List α) (ds : List (List α)) :
    (deliver (d :: ds) : List (Except ε (List α))) = .ok d :: deliver ds := rfl

theorem fill_of_le {need : Nat} {buf : List α} (items : List (Except ε (List α)))
    (h : need ≤ buf.length) : fill need buf items = .filled buf items := by
  cases items with
  | nil => rw [fill_nil, if_pos h]
  | cons item items =>
    cases item with
    | error e => rw [fill_error, if_pos h]
    | ok more => rw [fill_ok, if_pos h]

/-- On an error-free stream holding enough elements, `fill` succeeds: the
buffer holds `need` elements and nothing is lost or reordered. -/
theorem fill_filled (need : Nat) (ds : List (List α)) :
    ∀ buf : List α, need ≤ buf.length + ds.flatten.length →
      ∃ buf' ds', fill need buf (deliver ds : List (Except ε (List α))) = .filled buf' (deliver ds') ∧
        need ≤ buf'.length ∧ buf' ++ ds'.flatten = buf ++ ds.flatten := by
  induction ds with
  | nil =>
    intro buf h
    exact ⟨buf, [], fill_of_le _ (by simpa using h), by simpa using h, by simp⟩
  | cons d ds ih =>
    intro buf h
    by_cases hle : need ≤ buf.length
    · exact ⟨buf, d :: ds, fill_of_le _ hle, hle, rfl⟩
    · obtain ⟨buf', ds', hfill, hlen, hcat⟩ := ih (buf ++ d)
        (by simp only [List.flatten_cons, List.length_append] at h ⊢; omega)
      refine ⟨buf', ds', ?_, hlen, ?_⟩
      · rw [deliver_cons, fill_ok, if_neg hle]
        exact hfill
      · rw [hcat, List.flatten_cons, List.append_assoc]

/-- On an error-free stream holding too few elements, `fill` reports the
end of the stream with everything in the buffer. -/
theorem fill_ended (need : Nat) (ds : List (List α)) :
    ∀ buf : List α, buf.length + ds.flatten.length < need →
      fill need buf (deliver ds : List (Except ε (List α))) = .ended (buf ++ ds.flatten) := by
  induction ds with
  | nil =>
    intro buf h
    simp only [List.flatten_nil, List.length_nil, Nat.add_zero] at h
    rw [deliver_nil, fill_nil, if_neg (Nat.not_le.mpr h), List.flatten_nil, List.append_nil]
  | cons d ds ih =>
    intro buf h
    have hlt : ¬ need ≤ buf.length := by
      simp only [List.flatten_cons, List.length_append] at h
      omega
    rw [deliver_cons, fill_ok, if_neg hlt, ih (buf ++ d)
      (by simp only [List.flatten_cons, List.length_append] at h ⊢; omega)]
    simp

/-- A buffer that holds at least the first `a.length` elements of `a ++ r`
holds exactly `a` there, and the rest is `r`. -/
theorem take_drop_of_append_eq {buf t a r : List α} (h : buf ++ t = a ++ r)
    (hle : a.length ≤ buf.length) : buf.take a.length = a ∧ buf.drop a.length ++ t = r := by
  have htake := congrArg (List.take a.length) h
  have hdrop := congrArg (List.drop a.length) h
  rw [List.take_append_of_le_length hle, List.take_left' rfl] at htake
  rw [List.drop_append_of_le_length hle, List.drop_left' rfl] at hdrop
  exact ⟨htake, hdrop⟩

/-- Whatever the stream delivers, a successful `fill` loses and reorders
nothing. -/
theorem fill_eq_filled {need : Nat} {buf buf' : List α} {items rest : List (Except ε (List α))}
    (h : fill need buf items = .filled buf' rest) :
    buf' ++ bytes rest = buf ++ bytes items ∧ need ≤ buf'.length := by
  induction items generalizing buf with
  | nil =>
    rw [fill_nil] at h
    split at h
    · next hle => cases h; exact ⟨rfl, hle⟩
    · cases h
  | cons item items ih =>
    cases item with
    | error e =>
      rw [fill_error] at h
      split at h
      · next hle => cases h; exact ⟨rfl, hle⟩
      · cases h
    | ok more =>
      rw [fill_ok] at h
      split at h
      · next hle => cases h; exact ⟨rfl, hle⟩
      · obtain ⟨hcat, hle⟩ := ih h
        refine ⟨?_, hle⟩
        rw [hcat, bytes_ok, List.append_assoc]

/-- A `fill` that meets an error has absorbed only the bytes before it. -/
theorem fill_eq_failed {need : Nat} {buf buf' : List α} {e : ε}
    {items rest : List (Except ε (List α))} (h : fill need buf items = .failed e buf' rest) :
    buf' ++ bytes rest = buf ++ bytes items := by
  induction items generalizing buf with
  | nil =>
    rw [fill_nil] at h
    split at h <;> cases h
  | cons item items ih =>
    cases item with
    | error e' =>
      rw [fill_error] at h
      split at h
      · cases h
      · cases h
        rw [bytes_error]
    | ok more =>
      rw [fill_ok] at h
      split at h
      · cases h
      · rw [ih h, bytes_ok, List.append_assoc]

/-- A `fill` that reaches the end holds every byte. -/
theorem fill_eq_ended {need : Nat} {buf buf' : List α} {items : List (Except ε (List α))}
    (h : fill need buf items = .ended buf') : buf' = buf ++ bytes items := by
  induction items generalizing buf with
  | nil =>
    rw [fill_nil] at h
    split at h
    · cases h
    · cases h
      rw [bytes_nil, List.append_nil]
  | cons item items ih =>
    cases item with
    | error e =>
      rw [fill_error] at h
      split at h <;> cases h
    | ok more =>
      rw [fill_ok] at h
      split at h
      · cases h
      · rw [ih h, bytes_ok, List.append_assoc]

end Pull
