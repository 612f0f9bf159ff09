import DeltaGlider.Lib.IamPolicy

/-!
# JSON text

`serde_json::from_slice::<Value>`: the bytes read as UTF-8, then one value
of RFC 8259 with whitespace around it, into `IamPolicy.Json`.

* `decodeUtf8` is `str::from_utf8`: shortest forms only, no surrogate, nothing
  past U+10FFFF.
* Whitespace is space, tab, line feed and carriage return.
* A string holds no character below U+0020; its escapes are `\" \\ \/ \b \f
  \n \r \t` and `\uXXXX`, a surrogate pair joined and a lone surrogate
  refused.
* An object is a `BTreeMap`: its keys in order, a repeated key holding its
  last value.
* Arrays and objects nest at most 127 deep (`serde_json`'s recursion limit
  of 128).
* An integer is kept exact.  A number with a fraction or an exponent, an
  `f64` to `serde_json`, has no `Json` here and is refused.

The reader takes fuel: every second call reads a character, so twice the
length of the text and one more is enough (`parse`).
-/

namespace JsonText

open IamPolicy (Json)

/-! ## UTF-8 -/

def isCont (b : UInt8) : Bool := 0x80 ≤ b && b < 0xC0

/-- The low six bits of a continuation byte. -/
def low6 (b : UInt8) : Nat := b.toNat % 64

/-- `str::from_utf8`, as characters. -/
def decodeUtf8 : List UInt8 → Option (List Char)
  | [] => some []
  | b :: rest =>
    if b < 0x80 then (Char.ofNat b.toNat :: ·) <$> decodeUtf8 rest
    else match rest with
      | c1 :: rest₁ =>
        if 0xC2 ≤ b && b < 0xE0 && isCont c1 then
          (Char.ofNat ((b.toNat % 32) * 64 + low6 c1) :: ·) <$> decodeUtf8 rest₁
        else match rest₁ with
          | c2 :: rest₂ =>
            let v := (b.toNat % 16) * 4096 + low6 c1 * 64 + low6 c2
            if 0xE0 ≤ b && b < 0xF0 && isCont c1 && isCont c2 && 0x800 ≤ v &&
                !(0xD800 ≤ v && v < 0xE000) then
              (Char.ofNat v :: ·) <$> decodeUtf8 rest₂
            else match rest₂ with
              | c3 :: rest₃ =>
                let w := (b.toNat % 8) * 262144 + low6 c1 * 4096 + low6 c2 * 64 + low6 c3
                if 0xF0 ≤ b && b < 0xF5 && isCont c1 && isCont c2 && isCont c3 && 0x10000 ≤ w &&
                    w < 0x110000 then
                  (Char.ofNat w :: ·) <$> decodeUtf8 rest₃
                else none
              | [] => none
          | [] => none
      | [] => none

/-! ## Tokens -/

def isWs (c : Char) : Bool := c = ' ' || c = '\t' || c = '\n' || c = '\r'

def skipWs (cs : List Char) : List Char := cs.dropWhile isWs

def hexValue (c : Char) : Option Nat :=
  if '0' ≤ c ∧ c ≤ '9' then some (c.toNat - '0'.toNat)
  else if 'a' ≤ c ∧ c ≤ 'f' then some (c.toNat - 'a'.toNat + 10)
  else if 'A' ≤ c ∧ c ≤ 'F' then some (c.toNat - 'A'.toNat + 10)
  else none

/-- Four hex digits. -/
def hex4 (a b c d : Char) : Option Nat := do
  pure ((((← hexValue a) * 16 + (← hexValue b)) * 16 + (← hexValue c)) * 16 + (← hexValue d))

/-- The rest of a string after its opening quote, the characters read so far
in reverse. -/
def parseString (acc : List Char) : List Char → Option (String × List Char)
  | '"' :: rest => some (String.ofList acc.reverse, rest)
  | '\\' :: 'u' :: a :: b :: c :: d :: rest => do
    let n ← hex4 a b c d
    if 0xDC00 ≤ n ∧ n < 0xE000 then none
    else if 0xD800 ≤ n ∧ n < 0xDC00 then
      match rest with
      | '\\' :: 'u' :: e :: f :: g :: h :: rest' => do
        let m ← hex4 e f g h
        if 0xDC00 ≤ m ∧ m < 0xE000 then
          parseString (Char.ofNat (0x10000 + (n - 0xD800) * 1024 + (m - 0xDC00)) :: acc) rest'
        else none
      | _ => none
    else parseString (Char.ofNat n :: acc) rest
  | '\\' :: e :: rest =>
    let c? : Option Char := match e with
      | '"' => some '"' | '\\' => some '\\' | '/' => some '/' | 'b' => some '\x08'
      | 'f' => some '\x0c' | 'n' => some '\n' | 'r' => some '\r' | 't' => some '\t'
      | _ => none
    c?.bind fun c => parseString (c :: acc) rest
  | c :: rest => if c.toNat < 0x20 then none else parseString (c :: acc) rest
  | [] => none

/-- The digits at the front. -/
def spanDigits (cs : List Char) : List Char × List Char := (cs.takeWhile Char.isDigit, cs.dropWhile Char.isDigit)

/-- An integer: `-`, then `0` or a nonzero digit and more digits, and no
fraction or exponent after it. -/
def parseNumber (cs : List Char) : Option (Json × List Char) := do
  let (neg, cs) := match cs with
    | '-' :: rest => (true, rest)
    | _ => (false, cs)
  let (digits, rest) ← match cs with
    | '0' :: rest => some (['0'], rest)
    | c :: _ => if c.isDigit then some (spanDigits cs) else none
    | [] => none
  match rest with
  | '.' :: _ | 'e' :: _ | 'E' :: _ => none
  | _ =>
    let n : Int := digits.foldl (fun acc d => acc * 10 + (d.toNat - '0'.toNat)) 0
    pure (.num (if neg then -n else n), rest)

/-- `BTreeMap::insert`: the keys in order, a repeated key replaced. -/
def insertKey (k : String) (v : Json) : List (String × Json) → List (String × Json)
  | [] => [(k, v)]
  | (k', v') :: rest =>
    if k = k' then (k, v) :: rest
    else if k < k' then (k, v) :: (k', v') :: rest
    else (k', v') :: insertKey k v rest

/-! ## Values -/

mutual

/-- One value, with `depth` levels of nesting left. -/
def parseValue : Nat → Nat → List Char → Option (Json × List Char)
  | 0, _, _ => none
  | fuel + 1, depth, cs =>
    match skipWs cs with
    | 'n' :: 'u' :: 'l' :: 'l' :: rest => some (.null, rest)
    | 't' :: 'r' :: 'u' :: 'e' :: rest => some (.bool true, rest)
    | 'f' :: 'a' :: 'l' :: 's' :: 'e' :: rest => some (.bool false, rest)
    | '"' :: rest => (parseString [] rest).map fun (s, r) => (.str s, r)
    | '[' :: rest =>
      if depth ≤ 1 then none
      else match skipWs rest with
        | ']' :: rest' => some (.arr [], rest')
        | _ => parseElements fuel (depth - 1) [] rest
    | '{' :: rest =>
      if depth ≤ 1 then none
      else match skipWs rest with
        | '}' :: rest' => some (.obj [], rest')
        | _ => parseMembers fuel (depth - 1) [] rest
    | cs' => parseNumber cs'

/-- The elements of an array from the next one on, those read so far in
reverse. -/
def parseElements : Nat → Nat → List Json → List Char → Option (Json × List Char)
  | 0, _, _, _ => none
  | fuel + 1, depth, acc, cs => do
    let (v, rest) ← parseValue fuel depth cs
    match skipWs rest with
    | ',' :: rest' => parseElements fuel depth (v :: acc) rest'
    | ']' :: rest' => some (.arr (v :: acc).reverse, rest')
    | _ => none

/-- The members of an object from the next one on, into the map read so far. -/
def parseMembers : Nat → Nat → List (String × Json) → List Char → Option (Json × List Char)
  | 0, _, _, _ => none
  | fuel + 1, depth, acc, cs =>
    match skipWs cs with
    | '"' :: rest => do
      let (k, rest) ← parseString [] rest
      match skipWs rest with
      | ':' :: rest => do
        let (v, rest) ← parseValue fuel depth rest
        match skipWs rest with
        | ',' :: rest' => parseMembers fuel depth (insertKey k v acc) rest'
        | '}' :: rest' => some (.obj (insertKey k v acc), rest')
        | _ => none
      | _ => none
    | _ => none

end

/-- `serde_json::from_slice::<Value>`. -/
def parse (bytes : List UInt8) : Option Json := do
  let cs ← decodeUtf8 bytes
  let (v, rest) ← parseValue (2 * cs.length + 1) 128 cs
  guard (skipWs rest).isEmpty
  pure v

end JsonText
