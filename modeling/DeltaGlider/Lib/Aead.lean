import Mathlib

/-!
# An ideal AEAD

Authenticated encryption as the models of its callers use it: a keyed,
nonce- and associated-data-parameterised cipher whose decryption inverts
encryption (`decrypt_encrypt`), whose ciphertext is the plaintext plus a
tag of `tagLen` bytes (`length_encrypt`), and whose decryption fails on
a ciphertext made for other associated data (`aad_binding`).

The binding is required among associated data of `tagLen` bytes only: a
deterministic cipher with a `tagLen`-byte tag cannot separate more
associated-data values than it has tags, so binding over all of them would
be unsatisfiable.  `tagged` is an instance, so the assumptions hold of at
least one cipher.
-/

namespace Aead

/-- An ideal AEAD with keys `K` and `tagLen`-byte tags. -/
structure IdealAead (K : Type) (tagLen : Nat) where
  encrypt : K → List UInt8 → List UInt8 → List UInt8 → List UInt8
  decrypt : K → List UInt8 → List UInt8 → List UInt8 → Option (List UInt8)
  decrypt_encrypt : ∀ k n a m, decrypt k n a (encrypt k n a m) = some m
  length_encrypt : ∀ k n a m, (encrypt k n a m).length = m.length + tagLen
  aad_binding : ∀ k n n' a a' m m', a.length = tagLen → a'.length = tagLen →
    decrypt k n a (encrypt k n' a' m) = some m' → a = a'

variable {K : Type} {tagLen : Nat}

/-- Decryption with other associated data of the same size fails. -/
theorem IdealAead.decrypt_encrypt_of_ne (E : IdealAead K tagLen) {k : K} {n n' a a' m : List UInt8}
    (ha : a.length = tagLen) (ha' : a'.length = tagLen) (hne : a ≠ a') :
    E.decrypt k n a (E.encrypt k n' a' m) = none := by
  cases h : E.decrypt k n a (E.encrypt k n' a' m) with
  | none => rfl
  | some m' => exact absurd (E.aad_binding k n n' a a' m m' ha ha' h) hne

/-- The tag is the associated data itself (padded or cut to `tagLen`). -/
def taggedTag (tagLen : Nat) (a : List UInt8) : List UInt8 :=
  (a ++ List.replicate tagLen 0).take tagLen

theorem length_taggedTag (tagLen : Nat) (a : List UInt8) : (taggedTag tagLen a).length = tagLen := by
  simp [taggedTag]

/-- A cipher that meets the assumptions: the ciphertext is the message
followed by the associated data as the tag. -/
def tagged (K : Type) (tagLen : Nat) : IdealAead K tagLen where
  encrypt _ _ a m := m ++ taggedTag tagLen a
  decrypt _ _ a c :=
    if c.drop (c.length - tagLen) = taggedTag tagLen a then some (c.take (c.length - tagLen))
    else none
  decrypt_encrypt k n a m := by
    have h := length_taggedTag tagLen a
    simp [h]
  length_encrypt k n a m := by simp [length_taggedTag]
  aad_binding k n n' a a' m m' ha ha' h := by
    have h' := length_taggedTag tagLen a'
    simp only [List.length_append, h', Nat.add_sub_cancel, List.drop_left'] at h
    split at h
    · next heq =>
      have hta : taggedTag tagLen a = a := by simp [taggedTag, ha]
      have hta' : taggedTag tagLen a' = a' := by simp [taggedTag, ha']
      rw [← hta, ← hta', heq]
    · cases h

end Aead
