import Mathlib

/-!
# Cutting a list into blocks of a fixed size

`blocks k l` is `l` cut into consecutive blocks of `k` elements, the last
one possibly shorter and never empty.  It is the window partition a framed
writer produces when it re-slices arbitrary input.  The lemmas say what a
consumer of the blocks needs: they concatenate back to `l`
(`flatten_blocks`), every block but the last is full
(`length_of_mem_dropLast_blocks`), every block holds between one and `k`
elements, there are `⌈|l| / k⌉` of them (`length_blocks`), block `a` starts
at element `a * k` (`drop_blocks`, `flatten_take_blocks`), and full blocks
followed by a short tail are their own partition (`blocks_append_full`).
-/

namespace Blocks

variable {α : Type}

/-- `l` cut into consecutive blocks of `k` elements, the last one shorter. -/
def blocks (k : Nat) (l : List α) : List (List α) :=
  if _h : 0 < k ∧ l ≠ [] then l.take k :: blocks k (l.drop k) else []
termination_by l.length
decreasing_by
  have : l.length ≠ 0 := by simpa using _h.2
  simp only [List.length_drop]
  omega

theorem blocks_eq_cons {k : Nat} {l : List α} (hk : 0 < k) (hl : l ≠ []) :
    blocks k l = l.take k :: blocks k (l.drop k) := by
  rw [blocks, dif_pos ⟨hk, hl⟩]

@[simp] theorem blocks_nil (k : Nat) : blocks k ([] : List α) = [] := by
  rw [blocks, dif_neg (by simp)]

theorem blocks_of_length_le {k : Nat} {l : List α} (hk : 0 < k) (hl : l ≠ []) (h : l.length ≤ k) :
    blocks k l = [l] := by
  rw [blocks_eq_cons hk hl, List.take_of_length_le h, List.drop_of_length_le h, blocks_nil]

theorem flatten_blocks {k : Nat} (hk : 0 < k) (l : List α) : (blocks k l).flatten = l := by
  fun_induction blocks k l with
  | case1 l _ ih => rw [List.flatten_cons, ih, List.take_append_drop]
  | case2 l h =>
    have hl : l = [] := by
      by_contra hne
      exact h ⟨hk, hne⟩
    simp [hl]

theorem ne_nil_of_mem_blocks {k : Nat} {l b : List α} (h : b ∈ blocks k l) : b ≠ [] := by
  fun_induction blocks k l with
  | case1 l hkl ih =>
    rw [List.mem_cons] at h
    rcases h with rfl | h
    · have : k ≠ 0 := Nat.pos_iff_ne_zero.mp hkl.1
      simp [this, hkl.2]
    · exact ih h
  | case2 => cases h

theorem length_le_of_mem_blocks {k : Nat} {l b : List α} (h : b ∈ blocks k l) : b.length ≤ k := by
  fun_induction blocks k l with
  | case1 l _ ih =>
    rw [List.mem_cons] at h
    rcases h with rfl | h
    · simp
    · exact ih h
  | case2 => cases h

/-- Every block but the last is full. -/
theorem length_of_mem_dropLast_blocks {k : Nat} {l b : List α} (h : b ∈ (blocks k l).dropLast) :
    b.length = k := by
  fun_induction blocks k l with
  | case1 l hkl ih =>
    by_cases hrest : l.drop k = []
    · simp [hrest] at h
    · rw [blocks_eq_cons hkl.1 hrest, List.dropLast_cons_cons, List.mem_cons] at h
      rcases h with rfl | h
      · have : k < l.length := by
          by_contra hle
          exact hrest (List.drop_of_length_le (by omega))
        simp only [List.length_take]
        omega
      · apply ih
        rwa [blocks_eq_cons hkl.1 hrest]
  | case2 => cases h

theorem length_blocks {k : Nat} (hk : 0 < k) (l : List α) :
    (blocks k l).length = (l.length + k - 1) / k := by
  fun_induction blocks k l with
  | case1 l hkl ih =>
    have hpos : l.length ≠ 0 := by simpa using hkl.2
    rw [List.length_cons, ih, List.length_drop]
    by_cases hle : l.length ≤ k
    · rw [Nat.sub_eq_zero_of_le hle, Nat.div_eq_of_lt (by omega)]
      exact (Nat.div_eq_of_lt_le (by omega) (by omega)).symm
    · have e : l.length + k - 1 = (l.length - k + k - 1) + 1 * k := by omega
      rw [e, Nat.add_mul_div_right _ _ hk]
  | case2 l h =>
    have hl : l = [] := by
      by_contra hne
      exact h ⟨hk, hne⟩
    simp only [hl, List.length_nil, Nat.zero_add]
    exact (Nat.div_eq_of_lt (by omega)).symm

/-- Dropping `a` blocks drops `a * k` elements. -/
theorem drop_blocks {k : Nat} (hk : 0 < k) (a : Nat) (l : List α) :
    (blocks k l).drop a = blocks k (l.drop (a * k)) := by
  induction a generalizing l with
  | zero => simp
  | succ a ih =>
    by_cases hl : l = []
    · simp [hl]
    · rw [blocks_eq_cons hk hl, List.drop_succ_cons, ih, List.drop_drop, Nat.succ_mul,
        Nat.add_comm]

/-- The first `b` blocks hold the first `b * k` elements. -/
theorem flatten_take_blocks {k : Nat} (hk : 0 < k) (b : Nat) (l : List α) :
    ((blocks k l).take b).flatten = l.take (b * k) := by
  induction b generalizing l with
  | zero => simp
  | succ b ih =>
    by_cases hl : l = []
    · simp [hl]
    · rw [blocks_eq_cons hk hl, List.take_succ_cons, List.flatten_cons, ih, Nat.succ_mul,
        Nat.add_comm, List.take_add]

/-- Full blocks followed by a short tail: the blocks are the full ones and
then the tail, if it is not empty. -/
theorem blocks_append_full {k : Nat} (hk : 0 < k) (ws : List (List α)) (t : List α)
    (hws : ∀ w ∈ ws, w.length = k) (ht : t.length < k) :
    blocks k (ws.flatten ++ t) = ws ++ (if t = [] then [] else [t]) := by
  induction ws with
  | nil =>
    by_cases h : t = []
    · simp [h]
    · simp [h, blocks_of_length_le hk h (by omega)]
  | cons w ws ih =>
    have hw : w.length = k := hws w (by simp)
    have hne : w ++ (ws.flatten ++ t) ≠ [] := by
      intro h
      have := congrArg List.length h
      simp only [List.length_append, List.length_nil] at this
      omega
    rw [List.flatten_cons, List.append_assoc, blocks_eq_cons hk hne,
      List.take_left' hw, List.drop_left' hw, ih (fun w' h' => hws w' (List.mem_cons_of_mem w h'))]
    simp

end Blocks
