import DeltaGlider.Lib.RustStd
import Mathlib.Algebra.BigOperators.Group.List.Basic

/-!
# The multipart part plan

`plan_parts` of `src/transfer_plan.rs`: the cut of an object of `total`
bytes into the parts of a multipart copy.  The part size is floored at S3's
5 MiB minimum and grown until 10000 parts hold the object; the loop then
cuts parts of that size from byte 0 on, fusing a tail below the minimum into
the part before it.

A plan tiles a byte range when its parts, numbered on from one number, follow
each other from the range's start to its end with no gap and no overlap
(`Tiles`).  The loop keeps that (`tiles_planLoop`); every part but the last
has the part size (`len_of_mem_dropLast_planLoop`), and no part is longer
than the part size and a fused tail (`len_le_of_mem_planLoop`):

    planParts_legal   for total = 0 no parts; for every 1 ≤ total ≤ u64::MAX and every
                      part_size, parts 1..n with n ≤ 10000 tiling [0, total), every part
                      but the last at least 5 MiB, every part at most
                      max(part_size, ⌈total / 10000⌉, 5 MiB) + 5 MiB - 1
-/

namespace DeltaGlider.Transfer

open RustStd

/-! ## Algorithm -/

/-- `S3_MIN_PART_SIZE`: 5 MiB. -/
def s3MinPartSize : Nat := 5 * 1024 * 1024

/-- `S3_MAX_PARTS`. -/
def s3MaxParts : Nat := 10000

/-- `PartSpan`; the `i32` part number is a natural number here, as a plan
has at most 10000 parts. -/
structure PartSpan where
  number : Nat
  start : Nat
  endInclusive : Nat
  deriving DecidableEq, Repr

/-- `PartSpan::len`. -/
def PartSpan.len (p : PartSpan) : Nat := p.endInclusive - p.start + 1

/-- The part size `plan_parts` cuts with: floored at the S3 minimum, and
grown to `total.div_ceil(S3_MAX_PARTS)` when that is more. -/
def planPartSize (total partSize : Nat) : Nat :=
  let partSize := max partSize s3MinPartSize
  let minSizeForCap := divCeil total s3MaxParts
  if partSize < minSizeForCap then max minSizeForCap s3MinPartSize else partSize

/-- The exclusive end of the part the loop cuts at `start`: `part_size` on,
saturating, within the object, and the whole rest when it would leave a
non-final tail below the minimum. -/
def partEnd (total partSize start : Nat) : Nat :=
  let endExclusive := min (u64SaturatingAdd start partSize) total
  let remainder := total - endExclusive
  if 0 < remainder ∧ remainder < s3MinPartSize then total else endExclusive

/-- The `while start < total` loop, for at most `fuel` turns. -/
def planLoop (total partSize : Nat) : Nat → Nat → Nat → List PartSpan
  | 0, _, _ => []
  | fuel + 1, start, number =>
    if start < total then
      ⟨number, start, partEnd total partSize start - 1⟩ ::
        planLoop total partSize fuel (partEnd total partSize start) (number + 1)
    else []

/-- `plan_parts`; each turn of the loop takes a byte at least, so `total`
turns are enough (`tiles_planLoop`). -/
def planParts (total partSize : Nat) : List PartSpan :=
  if total = 0 then [] else planLoop total (planPartSize total partSize) total 0 1

/-- The parts follow each other from `start` to `stop`, numbered on from
`number`, each at least one byte long. -/
inductive Tiles : Nat → Nat → List PartSpan → Nat → Prop
  | nil (start number : Nat) : Tiles start number [] start
  | cons {p : PartSpan} {ps : List PartSpan} {start number stop : Nat} :
      p.number = number → p.start = start → p.start ≤ p.endInclusive →
      Tiles (p.endInclusive + 1) (number + 1) ps stop → Tiles start number (p :: ps) stop

/-! ## Lemmas -/

theorem s3MinPartSize_eq : s3MinPartSize = 5242880 := rfl

/-! ### Tiles -/

section Tiles

variable {start number stop : Nat} {ps : List PartSpan}

/-- The parts of a tiling add up to the range. -/
theorem Tiles.sum_len (h : Tiles start number ps stop) : start + (ps.map PartSpan.len).sum = stop := by
  induction h with
  | nil => simp
  | cons hnum hstart hle _ ih =>
    rw [List.map_cons, List.sum_cons, ← ih, PartSpan.len]
    omega

theorem Tiles.numbers (h : Tiles start number ps stop) :
    ps.map PartSpan.number = List.range' number ps.length := by
  induction h with
  | nil => rfl
  | cons hnum _ _ _ ih => rw [List.map_cons, ih, hnum, List.length_cons, List.range'_succ]

theorem Tiles.len_pos (h : Tiles start number ps stop) : ∀ p ∈ ps, 1 ≤ p.len := by
  induction h with
  | nil => simp
  | cons _ _ _ _ ih =>
    intro p hp
    rcases List.mem_cons.mp hp with rfl | hp
    · simp [PartSpan.len]
    · exact ih p hp

end Tiles

/-! ### One part -/

section PartEnd

variable {total partSize start : Nat}

/-- The loop's first `min` never saturates below an object of `u64` size. -/
theorem min_saturatingAdd (htotal : total ≤ u64Max) :
    min (u64SaturatingAdd start partSize) total = min (start + partSize) total := by
  unfold u64SaturatingAdd
  omega

/-- Each part ends past its start and within the object. -/
theorem start_lt_partEnd (htotal : total ≤ u64Max) (hps : 0 < partSize) (hstart : start < total) :
    start < partEnd total partSize start := by
  unfold partEnd
  dsimp only
  rw [min_saturatingAdd htotal]
  split_ifs <;> omega

theorem partEnd_le (htotal : total ≤ u64Max) : partEnd total partSize start ≤ total := by
  unfold partEnd
  dsimp only
  rw [min_saturatingAdd htotal]
  split_ifs <;> omega

/-- A part that leaves bytes after it has the part size, and leaves at
least the minimum. -/
theorem partEnd_of_lt (htotal : total ≤ u64Max) (hend : partEnd total partSize start < total) :
    partEnd total partSize start = start + partSize ∧ s3MinPartSize ≤ total - partEnd total partSize start := by
  unfold partEnd at hend ⊢
  dsimp only at hend ⊢
  rw [min_saturatingAdd htotal] at hend ⊢
  split_ifs at hend ⊢ with hfuse <;> omega

/-- A part is at most the part size and a fused tail. -/
theorem partEnd_le_add (htotal : total ≤ u64Max) :
    partEnd total partSize start ≤ start + partSize + s3MinPartSize - 1 := by
  have hmin := s3MinPartSize_eq
  unfold partEnd
  dsimp only
  rw [min_saturatingAdd htotal]
  split_ifs <;> omega

end PartEnd

/-! ### The loop -/

section Loop

variable {total partSize : Nat}

theorem planLoop_of_le {fuel start number : Nat} (h : total ≤ start) :
    planLoop total partSize fuel start number = [] := by
  cases fuel with
  | zero => rfl
  | succ fuel => rw [planLoop, if_neg (not_lt.mpr h)]

theorem planLoop_succ {fuel start number : Nat} (h : start < total) :
    planLoop total partSize (fuel + 1) start number =
      ⟨number, start, partEnd total partSize start - 1⟩ ::
        planLoop total partSize fuel (partEnd total partSize start) (number + 1) := by
  rw [planLoop, if_pos h]

/-- With a turn for each byte left, the loop tiles the rest of the object. -/
theorem tiles_planLoop (htotal : total ≤ u64Max) (hps : 0 < partSize) (fuel : Nat) :
    ∀ start number, start ≤ total → total - start ≤ fuel →
      Tiles start number (planLoop total partSize fuel start number) total := by
  induction fuel with
  | zero =>
    intro start number hstart hfuel
    obtain rfl : start = total := by omega
    exact .nil _ _
  | succ fuel ih =>
    intro start number hstart hfuel
    by_cases hlt : start < total
    · -- one part up to `partEnd`, then the rest from there
      have hgt := start_lt_partEnd htotal hps hlt
      have hle := @partEnd_le total partSize start htotal
      rw [planLoop_succ hlt]
      refine .cons rfl rfl (by dsimp only; omega) ?_
      rw [Nat.sub_add_cancel (by omega)]
      exact ih _ _ hle (by omega)
    · obtain rfl : start = total := by omega
      rw [planLoop_of_le le_rfl]
      exact .nil _ _

/-- No part is longer than the part size and a fused tail. -/
theorem len_le_of_mem_planLoop (htotal : total ≤ u64Max) (fuel : Nat) :
    ∀ start number, ∀ p ∈ planLoop total partSize fuel start number,
      p.len ≤ partSize + s3MinPartSize - 1 := by
  induction fuel with
  | zero => simp [planLoop]
  | succ fuel ih =>
    intro start number p hp
    by_cases hlt : start < total
    · rw [planLoop_succ hlt] at hp
      rcases List.mem_cons.mp hp with rfl | hp
      · have := @partEnd_le_add total partSize start htotal
        simp only [PartSpan.len, s3MinPartSize_eq] at this ⊢
        omega
      · exact ih _ _ p hp
    · rw [planLoop_of_le (not_lt.mp hlt)] at hp
      cases hp

/-- Every part but the last has the part size. -/
theorem len_of_mem_dropLast_planLoop (htotal : total ≤ u64Max) (hps : 0 < partSize) (fuel : Nat) :
    ∀ start number, ∀ p ∈ (planLoop total partSize fuel start number).dropLast, p.len = partSize := by
  induction fuel with
  | zero => simp [planLoop]
  | succ fuel ih =>
    intro start number p hp
    by_cases hlt : start < total
    · rw [planLoop_succ hlt] at hp
      by_cases hend : partEnd total partSize start < total
      · -- the part leaves bytes: it has the part size, and more parts follow
        have hsize := (partEnd_of_lt htotal hend).1
        have hgt := start_lt_partEnd htotal hps hlt
        have hrest : planLoop total partSize fuel (partEnd total partSize start) (number + 1) ≠ [] ∨
            planLoop total partSize fuel (partEnd total partSize start) (number + 1) = [] := by tauto
        rcases hrest with hne | hnil
        · rw [List.dropLast_cons_of_ne_nil hne] at hp
          rcases List.mem_cons.mp hp with rfl | hp
          · simp only [PartSpan.len]
            omega
          · exact ih _ _ p hp
        · rw [hnil] at hp
          cases hp
      · -- the part ends the object: it is the last
        rw [planLoop_of_le (not_lt.mp hend)] at hp
        cases hp
    · rw [planLoop_of_le (not_lt.mp hlt)] at hp
      cases hp

end Loop

/-! ### The plan -/

section Plan

variable {total partSize : Nat}

/-- The part size is the largest of the requested size, the size that fits
10000 parts and the S3 minimum. -/
theorem planPartSize_eq :
    planPartSize total partSize = max (max partSize (divCeil total s3MaxParts)) s3MinPartSize := by
  unfold planPartSize
  dsimp only
  split_ifs <;> omega

theorem planPartSize_pos : 0 < planPartSize total partSize := by
  rw [planPartSize_eq, s3MinPartSize_eq]
  omega

/-- 10000 parts of the part size hold the object. -/
theorem total_le_planPartSize : total ≤ s3MaxParts * planPartSize total partSize := by
  rw [planPartSize_eq, divCeil, s3MaxParts]
  omega

/-- A plan of `n` parts whose parts but the last have length `c` spans more
than `n - 1` lengths `c`. -/
theorem mul_lt_sum_len {ps : List PartSpan} {c : Nat} (hne : ps ≠ [])
    (hdrop : ∀ p ∈ ps.dropLast, p.len = c) (hpos : ∀ p ∈ ps, 1 ≤ p.len) :
    (ps.length - 1) * c < (ps.map PartSpan.len).sum := by
  have hsplit := List.dropLast_append_getLast hne
  have hdropSum : (ps.dropLast.map PartSpan.len).sum = ps.dropLast.length * c := by
    rw [List.map_congr_left hdrop, List.map_const', List.sum_replicate, smul_eq_mul]
  have hlast : 1 ≤ (ps.getLast hne).len := hpos _ (List.getLast_mem hne)
  calc (ps.length - 1) * c
      = (ps.dropLast.map PartSpan.len).sum := by rw [hdropSum, List.length_dropLast]
    _ < (ps.dropLast.map PartSpan.len).sum + (ps.getLast hne).len := by omega
    _ = (ps.map PartSpan.len).sum := by
      conv_rhs => rw [← hsplit]
      rw [List.map_append, List.sum_append, List.map_singleton, List.sum_singleton]

/-- `plan_parts` is legal for S3: nothing for an empty object; otherwise parts
numbered from one tiling the object, at most 10000 of them, every part but the
last of at least 5 MiB, and none longer than the part size and a fused tail. -/
theorem planParts_legal (total partSize : Nat) (htotal : total ≤ u64Max) :
    (total = 0 → planParts total partSize = []) ∧
    (1 ≤ total →
      Tiles 0 1 (planParts total partSize) total ∧
      (planParts total partSize).map PartSpan.number = List.range' 1 (planParts total partSize).length ∧
      ((planParts total partSize).map PartSpan.len).sum = total ∧
      (planParts total partSize).length ≤ s3MaxParts ∧
      (∀ p ∈ (planParts total partSize).dropLast, s3MinPartSize ≤ p.len) ∧
      ∀ p ∈ planParts total partSize,
        p.len ≤ max (max partSize (divCeil total s3MaxParts)) s3MinPartSize + s3MinPartSize - 1) := by
  refine ⟨fun h0 => by rw [planParts, if_pos h0], fun h1 => ?_⟩
  have hplan : planParts total partSize = planLoop total (planPartSize total partSize) total 0 1 := by
    rw [planParts, if_neg (by omega)]
  have hps := @planPartSize_pos total partSize
  have htiles : Tiles 0 1 (planParts total partSize) total :=
    hplan ▸ tiles_planLoop htotal hps total 0 1 (Nat.zero_le _) (by omega)
  have hsum : ((planParts total partSize).map PartSpan.len).sum = total := by
    simpa using htiles.sum_len
  have hdrop : ∀ p ∈ (planParts total partSize).dropLast, p.len = planPartSize total partSize :=
    hplan ▸ len_of_mem_dropLast_planLoop htotal hps total 0 1
  refine ⟨htiles, htiles.numbers, hsum, ?_, fun p hp => ?_, fun p hp => ?_⟩
  · -- all parts but the last have the part size, and 10000 of those hold the object
    have hne : planParts total partSize ≠ [] := by
      intro hnil
      rw [hnil] at hsum
      simp at hsum
      omega
    have hlt := mul_lt_sum_len hne hdrop htiles.len_pos
    rw [hsum] at hlt
    have hcap := @total_le_planPartSize total partSize
    have hcount : (planParts total partSize).length - 1 < s3MaxParts :=
      Nat.lt_of_mul_lt_mul_right (lt_of_lt_of_le hlt hcap)
    rw [s3MaxParts] at hcount ⊢
    omega
  · rw [hdrop p hp, planPartSize_eq]
    omega
  · rw [← planPartSize_eq]
    exact len_le_of_mem_planLoop htotal total 0 1 p (hplan ▸ hp)

/-- A 12 MiB object in 5 MiB parts: the 2 MiB tail is fused into the second
part. -/
example : planParts (12 * 1024 * 1024) (5 * 1024 * 1024) =
    [⟨1, 0, 5 * 1024 * 1024 - 1⟩, ⟨2, 5 * 1024 * 1024, 12 * 1024 * 1024 - 1⟩] := by decide

/-- A 12 MiB object copied in 5 MiB parts. -/
theorem planParts_legal_twelve_mib :
    (12 * 1024 * 1024 = 0 → planParts (12 * 1024 * 1024) (5 * 1024 * 1024) = []) ∧
    (1 ≤ 12 * 1024 * 1024 →
      Tiles 0 1 (planParts (12 * 1024 * 1024) (5 * 1024 * 1024)) (12 * 1024 * 1024) ∧
      (planParts (12 * 1024 * 1024) (5 * 1024 * 1024)).map PartSpan.number =
        List.range' 1 (planParts (12 * 1024 * 1024) (5 * 1024 * 1024)).length ∧
      ((planParts (12 * 1024 * 1024) (5 * 1024 * 1024)).map PartSpan.len).sum = 12 * 1024 * 1024 ∧
      (planParts (12 * 1024 * 1024) (5 * 1024 * 1024)).length ≤ s3MaxParts ∧
      (∀ p ∈ (planParts (12 * 1024 * 1024) (5 * 1024 * 1024)).dropLast, s3MinPartSize ≤ p.len) ∧
      ∀ p ∈ planParts (12 * 1024 * 1024) (5 * 1024 * 1024),
        p.len ≤ max (max (5 * 1024 * 1024) (divCeil (12 * 1024 * 1024) s3MaxParts)) s3MinPartSize +
          s3MinPartSize - 1) :=
  planParts_legal (12 * 1024 * 1024) (5 * 1024 * 1024) (by decide)

end Plan

end DeltaGlider.Transfer
