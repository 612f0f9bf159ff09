import DeltaGlider.Lib.RustStd

/-!
# Base64

The `STANDARD` engine of the `base64` crate: the alphabet of RFC 4648 §4,
padded output, and a decoder that requires canonical padding and refuses a
last symbol with nonzero trailing bits.

* `encode`: three bytes to four symbols, a last group of one or two bytes
  padded with `=`.
* `decode`: groups of four symbols; only the last may hold padding, `xx==`
  or `xxx=`, and the bits its padding drops are zero.
-/

namespace Base64

/-- The symbols, in the order of their values (RFC 4648, Table 1). -/
def alphabet : List Char :=
  "ABCDEFGHIJKLMNOPQRSTUVWXYZabcdefghijklmnopqrstuvwxyz0123456789+/".toList

/-- The value of a symbol, read off the table's runs of capitals, small
letters and digits and its two signs. -/
def sextet (c : Char) : Option Nat :=
  if 'A' ≤ c ∧ c ≤ 'Z' then some (c.toNat - 'A'.toNat)
  else if 'a' ≤ c ∧ c ≤ 'z' then some (c.toNat - 'a'.toNat + 26)
  else if '0' ≤ c ∧ c ≤ '9' then some (c.toNat - '0'.toNat + 52)
  else if c = '+' then some 62
  else if c = '/' then some 63
  else none

/-- The symbol of a value below 64. -/
def symbol (n : Nat) : Char :=
  if n < 26 then Char.ofNat ('A'.toNat + n)
  else if n < 52 then Char.ofNat ('a'.toNat + (n - 26))
  else if n < 62 then Char.ofNat ('0'.toNat + (n - 52))
  else if n = 62 then '+' else '/'

/- The runs are the table: `symbol` reads it and `sextet` inverts it. -/
example : ∀ n < 64, symbol n = alphabet.getD n '=' ∧ sextet (alphabet.getD n '=') = some n := by
  decide +kernel

/-- Encode in groups of three bytes, the last one padded. -/
def encodeBytes : List UInt8 → List Char
  | [] => []
  | [a] =>
    let x := a.toNat * 65536
    [symbol (x / 262144), symbol (x / 4096 % 64), '=', '=']
  | [a, b] =>
    let x := a.toNat * 65536 + b.toNat * 256
    [symbol (x / 262144), symbol (x / 4096 % 64), symbol (x / 64 % 64), '=']
  | a :: b :: c :: rest =>
    let x := a.toNat * 65536 + b.toNat * 256 + c.toNat
    symbol (x / 262144) :: symbol (x / 4096 % 64) :: symbol (x / 64 % 64) :: symbol (x % 64) ::
      encodeBytes rest

/-- `STANDARD.encode`. -/
def encode (bytes : List UInt8) : String := String.ofList (encodeBytes bytes)

/-- Decode in groups of four symbols; padding ends the input. -/
def decodeChars : List Char → Option (List UInt8)
  | [] => some []
  | [a, b, '=', '='] => do
    let x ← sextet a
    let y ← sextet b
    guard (y % 16 = 0)
    pure [UInt8.ofNat (x * 4 + y / 16)]
  | [a, b, c, '='] => do
    let x ← sextet a
    let y ← sextet b
    let z ← sextet c
    guard (z % 4 = 0)
    let v := x * 4096 + y * 64 + z
    pure [UInt8.ofNat (v / 1024), UInt8.ofNat (v / 4 % 256)]
  | a :: b :: c :: d :: rest => do
    let v := ((← sextet a) * 64 + (← sextet b)) * 4096 + (← sextet c) * 64 + (← sextet d)
    let tail ← decodeChars rest
    pure (UInt8.ofNat (v / 65536) :: UInt8.ofNat (v / 256 % 256) :: UInt8.ofNat (v % 256) :: tail)
  | _ => none

/-- `STANDARD.decode`. -/
def decode (s : String) : Option (List UInt8) := decodeChars s.toList

example : encode (RustStd.utf8Bytes "policy".toList) = "cG9saWN5" ∧
    decode "cG9saWN5" = some (RustStd.utf8Bytes "policy".toList) ∧
    decode "cG9saWN4" = some [112, 111, 108, 105, 99, 120] ∧
    decode "cG9saWN" = none ∧ decode "cG9saWM=" = some [112, 111, 108, 105, 99] ∧
    decode "cG9saWN=" = none := by
  decide

end Base64
