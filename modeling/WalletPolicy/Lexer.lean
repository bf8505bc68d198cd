import WalletPolicy.Syntax

/-!
# Lexical primitives

The character classes and the small readers of `wallet.c` that `parse_script` and
`parse_policy_map_key_info` are built from. The input buffer is the list of the characters
not read yet; a reader returns what it read together with the rest, and `none` where the C
function returns `-1` (or `false`). `size_t` has `sizeTBits` bits, as on the device.
-/
namespace WalletPolicy

/-- Width of `size_t` on the device (32-bit ARM). -/
def sizeTBits : Nat := 32

/-- `(size_t) -1`, the error value of `parse_key_index`. -/
def sizeMax : Nat := 2 ^ sizeTBits - 1

def isDigit (c : Char) : Bool := '0' ≤ c && c ≤ '9'

def isAlpha (c : Char) : Bool := ('a' ≤ c && c ≤ 'z') || ('A' ≤ c && c ≤ 'Z')

def isAlphanumeric (c : Char) : Bool := isAlpha c || isDigit c

def isLowercaseHex (c : Char) : Bool := isDigit c || ('a' ≤ c && c ≤ 'f')

def lowercaseHexToInt (c : Char) : Nat :=
  if isDigit c then c.toNat - '0'.toNat else c.toNat - 'a'.toNat + 10

/-- `consume_character`: the next character must be `expected`. -/
def consumeCharacter (expected : Char) : List Char → Option (List Char)
  | c :: rest => if c = expected then some rest else none
  | [] => none

/-- The loop of `read_token`, also the loop of `parse_policy_map_key_info` that reads the
extended public key: up to `outLen` characters satisfying `p`. -/
def readWhile (p : Char → Bool) : Nat → List Char → List Char × List Char
  | 0, s => ([], s)
  | _ + 1, [] => ([], [])
  | outLen + 1, c :: s =>
    if p c then
      let (word, rest) := readWhile p outLen s
      (c :: word, rest)
    else ([], c :: s)

/-- `read_token`: up to `outLen` characters of `[A-Za-z0-9_]`. -/
def readToken (outLen : Nat) (s : List Char) : List Char × List Char :=
  readWhile (fun c => isAlphanumeric c || c = '_') outLen s

/-- `MAX_TOKEN_LENGTH`, the length of `sortedmulti`. -/
def maxTokenLength : Nat := "sortedmulti".length

/-- `parse_token`: the next word, looked up in `KNOWN_TOKENS`. -/
def parseToken (s : List Char) : PolicyNodeType × List Char :=
  let (word, rest) := readToken maxTokenLength s
  (((knownTokens.find? fun tok => tok.2.toList = word).map Prod.fst).getD .invalid, rest)

/-- The loop of `parse_unsigned_decimal` for a `size_t` of `w` bits: the value read so far,
the number of digits read and the rest of the input. -/
def parseUnsignedDecimalLoop (w : Nat) :
    (result digitsRead : Nat) → List Char → Option (Nat × Nat × List Char)
  | result, digitsRead, c :: rest =>
    if isDigit c then
      let nextDigit := c.toNat - '0'.toNat
      -- a first digit 0 must be the only digit
      if digitsRead + 1 = 2 ∧ result = 0 then none
      -- `10 * result + next_digit` is computed modulo `2 ^ w`
      else if (10 * result + nextDigit) % 2 ^ w < result then none
      else parseUnsignedDecimalLoop w ((10 * result + nextDigit) % 2 ^ w) (digitsRead + 1) rest
    else some (result, digitsRead, c :: rest)
  | result, digitsRead, [] => some (result, digitsRead, [])

/-- `parse_unsigned_decimal` for a `size_t` of `w` bits. -/
def parseUnsignedDecimal (w : Nat) (s : List Char) : Option (Nat × List Char) := do
  let (result, digitsRead, rest) ← parseUnsignedDecimalLoop w 0 0 s
  guard (digitsRead ≠ 0)
  some (result, rest)

/-- The loop of `buffer_read_hex_hash`: `n` bytes, two lowercase hex characters each. -/
def readHexBytes : (n : Nat) → List Char → Option (Mathlib.Vector UInt8 n × List Char)
  | 0, s => some (Mathlib.Vector.nil, s)
  | n + 1, c1 :: c2 :: s =>
    if isLowercaseHex c1 && isLowercaseHex c2 then do
      let (bytes, rest) ← readHexBytes n s
      some (Mathlib.Vector.cons
        (UInt8.ofNat (16 * lowercaseHexToInt c1 + lowercaseHexToInt c2)) bytes, rest)
    else none
  | _ + 1, _ => none

/-- `buffer_read_hex_hash`. -/
def bufferReadHexHash (n : Nat) (s : List Char) : Option (Mathlib.Vector UInt8 n × List Char) :=
  if s.length < 2 * n then none else readHexBytes n s

/-- `parse_key_index`: `@` followed by a decimal. The C function returns `(size_t) -1` on
failure, which its callers cannot tell from a parsed `SIZE_MAX`; they reject both. -/
def parseKeyIndex (s : List Char) : Option (Nat × List Char) := do
  let s ← consumeCharacter '@' s
  parseUnsignedDecimal sizeTBits s

end WalletPolicy
