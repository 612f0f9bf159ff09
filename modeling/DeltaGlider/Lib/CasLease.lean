import Mathlib.Logic.Function.Basic
import Mathlib.Data.List.Basic

/-!
# Leases granted through a compare-and-swap register

Holders race for a key through a register that names, per key, the holder
that wrote it last, the node that holder wrote from, and the expiry it
wrote.  Each successful write grants its writer a *term* `[start, expiresAt]`
of the lease; the terms are ghost state, what the holders believe they hold.
This file is the protocol-independent side of such a lease:

* `Exclusive ts`: two terms of one key held by different holders never
  overlap — the safety property;
* `Covered reg now ts`: every term still live at `now` is named by the
  register, with an expiry no earlier than the term's;
* `Started now ts`: no term starts in the future.

A grant at `now` keeps all three when every other holder's term of the key
has lapsed (`Lapsed`, `grant_exclusive`, `Covered.grant`).  A covered
register guarantees that when it names the grantee itself
(`Covered.lapsed_of_holder`, a renewal), and when its entry has expired or
was written from a node whose live terms all belong to the grantee
(`Covered.lapsed_of_reclaimable`, a steal); the latter is where a protocol
that lets a node reclaim its own entry needs the node to give the key to one
holder at a time (`Turn`).  A holder giving its terms up, possibly deleting
its register entry, keeps all three (`Covered.drop`, `Covered.erase`).
-/

namespace CasLease

variable {κ α ν : Type*}

/-- A term `[start, expiresAt]` of the lease on `key`, granted to `holder` by
a call made on node `node`. -/
structure Term (κ α ν : Type*) where
  key : κ
  holder : α
  node : ν
  start : Int
  expiresAt : Int
deriving DecidableEq, Repr

/-- What the register names for one key. -/
structure Entry (α ν : Type*) where
  holder : α
  node : ν
  expiresAt : Int
deriving DecidableEq, Repr

/-- The two terms share no instant. -/
def Term.Disjoint (t₁ t₂ : Term κ α ν) : Prop :=
  t₁.expiresAt < t₂.start ∨ t₂.expiresAt < t₁.start

/-- Terms of one key held by different holders never overlap. -/
def Exclusive (ts : List (Term κ α ν)) : Prop :=
  ∀ t₁ ∈ ts, ∀ t₂ ∈ ts, t₁.key = t₂.key → t₁.holder ≠ t₂.holder → t₁.Disjoint t₂

/-- No term starts after `now`. -/
def Started (now : Int) (ts : List (Term κ α ν)) : Prop :=
  ∀ t ∈ ts, t.start ≤ now

/-- Every term live at `now` is the register's entry for its key, with an
expiry no earlier than the term's. -/
def Covered (reg : κ → Option (Entry α ν)) (now : Int) (ts : List (Term κ α ν)) : Prop :=
  ∀ t ∈ ts, now ≤ t.expiresAt → ∃ e, reg t.key = some e ∧ e.holder = t.holder ∧
    e.node = t.node ∧ t.expiresAt ≤ e.expiresAt

/-- Every term of `key` held by a holder other than `holder` has lapsed at `now`. -/
def Lapsed (now : Int) (ts : List (Term κ α ν)) (key : κ) (holder : α) : Prop :=
  ∀ t ∈ ts, t.key = key → t.holder ≠ holder → t.expiresAt < now

/-- Every live term of `key` granted on `node` belongs to `holder`: the node
lets one holder at a time take the key. -/
def Turn (now : Int) (ts : List (Term κ α ν)) (key : κ) (node : ν) (holder : α) : Prop :=
  ∀ t ∈ ts, t.key = key → t.node = node → now ≤ t.expiresAt → t.holder = holder

instance [DecidableEq κ] [DecidableEq α] [DecidableEq ν] (now : Int) (ts : List (Term κ α ν))
    (key : κ) (node : ν) (holder : α) : Decidable (Turn now ts key node holder) :=
  inferInstanceAs (Decidable (∀ t ∈ ts, t.key = key → t.node = node → now ≤ t.expiresAt →
    t.holder = holder))

variable {reg : κ → Option (Entry α ν)} {now : Int} {ts : List (Term κ α ν)}
  {key : κ} {holder : α} {node : ν} {t : Term κ α ν}

/-! ## Time passing, and what a covered register guarantees -/

theorem Started.mono {now' : Int} (h : Started now ts) (hle : now ≤ now') : Started now' ts :=
  fun t' ht => by have := h t' ht; omega

theorem Covered.mono {now' : Int} (h : Covered reg now ts) (hle : now ≤ now') :
    Covered reg now' ts :=
  fun t' ht hlive => h t' ht (by omega)

/-- A register naming `holder` leaves every other holder's term lapsed. -/
theorem Covered.lapsed_of_holder (h : Covered reg now ts)
    (hname : ∀ e, reg key = some e → e.holder = holder) : Lapsed now ts key holder := by
  intro t' ht hkey hne
  by_contra hlive
  obtain ⟨e, he, hholder, -, -⟩ := h t' ht (by omega)
  exact hne (hholder.symm.trans (hname e (hkey ▸ he)))

/-- A register whose entry for the key has expired or was written from
`node`, whose live terms of the key all belong to `holder`, leaves every
other holder's term lapsed. -/
theorem Covered.lapsed_of_reclaimable (h : Covered reg now ts)
    (hreg : ∀ e, reg key = some e → e.expiresAt < now ∨ e.node = node)
    (hturn : Turn now ts key node holder) : Lapsed now ts key holder := by
  intro t' ht hkey hne
  by_contra hlive
  have hlive : now ≤ t'.expiresAt := by omega
  obtain ⟨e, he, -, hn, hle⟩ := h t' ht hlive
  rcases hreg e (hkey ▸ he) with hexp | hnode
  · omega
  · -- the entry's node is the term's node, so the turn names its holder
    exact hne (hturn t' ht hkey (hn.symm.trans hnode) hlive)

variable [DecidableEq κ] [DecidableEq α]

/-- `holder` gives up its terms of `key`. -/
def drop (ts : List (Term κ α ν)) (key : κ) (holder : α) : List (Term κ α ν) :=
  ts.filter fun t => !(t.key == key && t.holder == holder)

/-- A new term replaces its holder's earlier terms of the key. -/
def grant (ts : List (Term κ α ν)) (t : Term κ α ν) : List (Term κ α ν) :=
  t :: drop ts t.key t.holder

/-- The register after `holder` wrote `expiresAt` for `key` from `node`. -/
def write (reg : κ → Option (Entry α ν)) (t : Term κ α ν) : κ → Option (Entry α ν) :=
  Function.update reg t.key (some ⟨t.holder, t.node, t.expiresAt⟩)

theorem mem_drop {t' : Term κ α ν} :
    t' ∈ drop ts key holder ↔ t' ∈ ts ∧ ¬(t'.key = key ∧ t'.holder = holder) := by
  simp [drop, imp_iff_not_or]

theorem mem_grant {t' : Term κ α ν} :
    t' ∈ grant ts t ↔ t' = t ∨ (t' ∈ ts ∧ ¬(t'.key = t.key ∧ t'.holder = t.holder)) := by
  rw [grant, List.mem_cons, mem_drop]

theorem drop_subset : drop ts key holder ⊆ ts :=
  fun _ h => (mem_drop.mp h).1

/-! ## Exclusion -/

theorem Exclusive.drop (h : Exclusive ts) : Exclusive (CasLease.drop ts key holder) :=
  fun t₁ h₁ t₂ h₂ => h t₁ (drop_subset h₁) t₂ (drop_subset h₂)

/-- **A fresh grant cannot overlap a term of another holder** once all those
terms have lapsed: the new term starts at `now`, after each of them ends. -/
theorem grant_exclusive (h : Exclusive ts) (hlap : Lapsed now ts t.key t.holder)
    (hstart : t.start = now) : Exclusive (grant ts t) := by
  intro t₁ h₁ t₂ h₂ hkey hne
  rcases mem_grant.mp h₁ with rfl | ⟨h₁', -⟩ <;> rcases mem_grant.mp h₂ with rfl | ⟨h₂', -⟩
  · exact absurd rfl hne
  · -- the other term, of the same key and another holder, ended before `now`
    have := hlap t₂ h₂' hkey.symm (Ne.symm hne)
    exact .inr (by omega)
  · have := hlap t₁ h₁' hkey hne
    exact .inl (by omega)
  · exact h t₁ h₁' t₂ h₂' hkey hne

/-! ## Start times -/

theorem Started.drop (h : Started now ts) : Started now (CasLease.drop ts key holder) :=
  fun t' ht => h t' (drop_subset ht)

theorem Started.grant (h : Started now ts) (hstart : t.start = now) :
    Started now (CasLease.grant ts t) := by
  intro t' ht
  rcases mem_grant.mp ht with rfl | ⟨ht, -⟩
  · exact Int.le_of_eq hstart
  · exact h t' ht

/-! ## The register covers the live terms -/

theorem Covered.drop (h : Covered reg now ts) : Covered reg now (CasLease.drop ts key holder) :=
  fun t' ht hlive => h t' (drop_subset ht) hlive

/-- A grant whose holder writes the register keeps it covering the terms. -/
theorem Covered.grant (h : Covered reg now ts) (hlap : Lapsed now ts t.key t.holder) :
    Covered (write reg t) now (CasLease.grant ts t) := by
  intro t' ht hlive
  rcases mem_grant.mp ht with rfl | ⟨ht, hnot⟩
  · exact ⟨_, Function.update_self .., rfl, rfl, Int.le_refl _⟩
  · by_cases hkey : t'.key = t.key
    · -- another holder's term of the same key: it has lapsed
      have := hlap t' ht hkey fun hh => hnot ⟨hkey, hh⟩
      omega
    · rw [write, Function.update_of_ne hkey]
      exact h t' ht hlive

/-- When the entry's holder gives its terms up and deletes the entry, the
register still covers the terms left. -/
theorem Covered.erase (h : Covered reg now ts)
    (hname : ∀ e, reg key = some e → e.holder = holder) :
    Covered (Function.update reg key none) now (CasLease.drop ts key holder) := by
  intro t' ht hlive
  obtain ⟨ht, hnot⟩ := mem_drop.mp ht
  obtain ⟨e, he, hh, hn, hle⟩ := h t' ht hlive
  by_cases hkey : t'.key = key
  · exact absurd ⟨hkey, hh.symm.trans (hname e (hkey ▸ he))⟩ hnot
  · exact ⟨e, by rw [Function.update_of_ne hkey]; exact he, hh, hn, hle⟩

end CasLease
