import WalletPolicy.Parser

/-!
# The arena of `parse_script`

`parse_policy_map` builds the policy in the caller's buffer `out` of `out_len` bytes. Every node
struct, every entry of a thresh list and every entry of a key-index array is allocated there
by `buffer_alloc`, a bump allocator that pads each allocation to 4 bytes and returns `NULL`
("Out of memory") when the buffer is full; the structs point to each other inside the buffer.

`parseScriptA` is `parse_script` on this buffer: the reads and checks of `parseScript`, with the
allocations in the order of the C code, the pointers it stores, and the flags of the children
read back through those pointers. Offsets are counted from `out`. A struct is written into the
arena as one `Cell` once its fields are known: no read of the parser looks at a struct before
its case is done, except the wrapper loop, which reads the wrapper nodes once they are linked.

The sizes of the structs come from `wallet.h` and the compiler; they are the parameter
`sizes`, and every result holds for all of them.
-/
namespace WalletPolicy

/-- `sizeof` of the structs `parse_script` allocates. -/
structure StructSizes where
  constant : ℕ+
  withScript : ℕ+
  withScript2 : ℕ+
  withScript3 : ℕ+
  thresh : ℕ+
  scriptlist : ℕ+
  withKey : ℕ+
  withHash256 : ℕ+
  withHash160 : ℕ+
  withUint32 : ℕ+
  multisig : ℕ+

/-- `sizeof(size_t)`, the size of an entry of a key-index array. -/
def sizeTBytes : Nat := sizeTBits / 8

/-- A struct of the arena, its pointers given as offsets: the node structs of `wallet.h`, an
entry `policy_node_scriptlist_t` of a thresh list (`next` is `NULL` on the last one), and one
`size_t` of a key-index array. -/
inductive Cell where
  | constant (type : PolicyNodeType) (flags : Option Flags)
  | withScript (type : PolicyNodeType) (flags : Option Flags) (script : Nat)
  | withScript2 (type : PolicyNodeType) (flags : Option Flags) (x y : Nat)
  | withScript3 (type : PolicyNodeType) (flags : Option Flags) (x y z : Nat)
  | thresh (flags : Option Flags) (k n scriptlist : Nat)
  | scriptlist (script : Nat) (next : Option Nat)
  | withKey (type : PolicyNodeType) (flags : Option Flags) (keyIndex : Nat)
  | withHash256 (type : PolicyNodeType) (flags : Option Flags) (h : Mathlib.Vector UInt8 32)
  | withHash160 (type : PolicyNodeType) (flags : Option Flags) (h : Mathlib.Vector UInt8 20)
  | withUint32 (type : PolicyNodeType) (flags : Option Flags) (n : Nat)
  | multisig (type : PolicyNodeType) (flags : Option Flags) (k n keyIndexes : Nat)
  | keyIndex (value : Nat)
  deriving DecidableEq

/-- `base.flags` of a node struct, read through a `policy_node_t *`. -/
@[simp] def Cell.flags : Cell → Option Flags
  | constant _ f | withScript _ f _ | withScript2 _ f _ _ | withScript3 _ f _ _ _ | thresh f ..
  | withKey _ f _ | withHash256 _ f _ | withHash160 _ f _ | withUint32 _ f _ | multisig _ f .. => f
  | scriptlist .. | keyIndex _ => none

/-- `buffer_t out_buf`: the bytes used so far, the size of the buffer, and the structs written,
by offset. -/
structure Arena where
  offset : Nat
  size : Nat
  heap : Nat → Option Cell

namespace Arena

/-- Writing the fields of the struct at `addr`. -/
def write (a : Arena) (addr : Nat) (cell : Cell) : Arena :=
  { a with heap := Function.update a.heap addr (some cell) }

/-- The flags of the node at `addr`, `none` unless it is a miniscript node. -/
def flagsAt (a : Arena) (addr : Nat) : Option Flags := (a.heap addr).bind Cell.flags

/-- The node `i` steps down a wrapper chain from `node`, following the `script` pointers. -/
def follow (a : Arena) : Nat → Nat → Option Nat
  | 0, node => some node
  | i + 1, node => do
    let some (.withScript _ _ script) := a.heap node | none
    a.follow i script

@[simp] theorem write_offset (a : Arena) (addr : Nat) (cell : Cell) :
    (a.write addr cell).offset = a.offset := rfl

@[simp] theorem write_size (a : Arena) (addr : Nat) (cell : Cell) :
    (a.write addr cell).size = a.size := rfl

@[simp] theorem write_heap_self (a : Arena) (addr : Nat) (cell : Cell) :
    (a.write addr cell).heap addr = some cell := by
  simp [write]

theorem write_heap_of_ne {a : Arena} {addr p : Nat} (cell : Cell) (h : p ≠ addr) :
    (a.write addr cell).heap p = a.heap p := by
  simp [write, h]

end Arena

/-- Modelled from the spec: the first 4-aligned offset from `offset` (the buffer itself starts
4-aligned, which `parse_policy_map` checks). -/
def alignUp (offset : Nat) : Nat := offset + (4 - offset % 4) % 4

/-- Modelled from the spec: `buffer_create(out, out_len)`, the buffer at `out` with nothing
used yet. -/
def bufferCreate (outLen : Nat) : Arena := ⟨0, outLen, fun _ => none⟩

/-- Modelled from the spec: `buffer_alloc(out_buf, size, true)`, the offset of the new block
after the padding, or `NULL` (`none`) with the buffer left as it was. -/
def bufferAlloc (a : Arena) (size : Nat) : Option (Nat × Arena) :=
  if alignUp a.offset + size ≤ a.size then
    some (alignUp a.offset, { a with offset := alignUp a.offset + size })
  else none

/-- `buffer_alloc(out_buf, 0, true)` ("ensure alignment of current pointer"), whose result the
parser ignores. -/
def ensureAlignment (a : Arena) : Arena := ((bufferAlloc a 0).map Prod.snd).getD a

/-! ### The allocator -/

theorem le_alignUp (o : Nat) : o ≤ alignUp o := Nat.le_add_right _ _

theorem alignUp_lt (o : Nat) : alignUp o < o + 4 := by unfold alignUp; omega

theorem alignUp_mod (o : Nat) : alignUp o % 4 = 0 := by unfold alignUp; omega

theorem alignUp_of_mod {o : Nat} (h : o % 4 = 0) : alignUp o = o := by unfold alignUp; omega

@[simp] theorem alignUp_alignUp (o : Nat) : alignUp (alignUp o) = alignUp o :=
  alignUp_of_mod (alignUp_mod o)

theorem alignUp_mono {o o' : Nat} (h : o ≤ o') : alignUp o ≤ alignUp o' := by unfold alignUp; omega

theorem bufferAlloc_eq_some {a a' : Arena} {size p : Nat} :
    bufferAlloc a size = some (p, a') ↔
      alignUp a.offset + size ≤ a.size ∧ p = alignUp a.offset ∧
        a' = { a with offset := alignUp a.offset + size } := by
  unfold bufferAlloc
  split <;> simp_all [eq_comm]

theorem bufferAlloc_of_le {a : Arena} {size : Nat} (h : alignUp a.offset + size ≤ a.size) :
    bufferAlloc a size = some (alignUp a.offset, { a with offset := alignUp a.offset + size }) :=
  if_pos h

theorem bufferAlloc_of_not_le {a : Arena} {size : Nat} (h : ¬alignUp a.offset + size ≤ a.size) :
    bufferAlloc a size = none :=
  if_neg h

theorem bufferAlloc_eq_none {a : Arena} {size : Nat} :
    bufferAlloc a size = none ↔ a.size < alignUp a.offset + size := by
  unfold bufferAlloc
  split <;> simp_all

/-- The allocation after `ensureAlignment` is the one without it: both pad to the same offset. -/
@[simp] theorem bufferAlloc_ensureAlignment (a : Arena) (size : Nat) :
    bufferAlloc (ensureAlignment a) size = bufferAlloc a size := by
  unfold ensureAlignment bufferAlloc
  by_cases h : alignUp a.offset ≤ a.size <;> simp [h]

theorem ensureAlignment_write (a : Arena) (p : Nat) (cell : Cell) :
    ensureAlignment (a.write p cell) = (ensureAlignment a).write p cell := by
  unfold ensureAlignment bufferAlloc
  by_cases h : alignUp a.offset ≤ a.size <;> simp [h, Arena.write]

@[simp] theorem ensureAlignment_size (a : Arena) : (ensureAlignment a).size = a.size := by
  unfold ensureAlignment bufferAlloc
  split <;> rfl

@[simp] theorem ensureAlignment_heap (a : Arena) : (ensureAlignment a).heap = a.heap := by
  unfold ensureAlignment bufferAlloc
  split <;> rfl

/-- `ensureAlignment` pads the position, unless the padding does not fit. -/
theorem ensureAlignment_offset (a : Arena) :
    (ensureAlignment a).offset = alignUp a.offset ∧ alignUp a.offset ≤ a.size ∨
      ensureAlignment a = a ∧ a.size < alignUp a.offset := by
  unfold ensureAlignment bufferAlloc
  by_cases h : alignUp a.offset ≤ a.size
  · simp [h]
  · simp [h]
    omega

section
variable (sizes : StructSizes)

/-- `parse_child_scripts`: each child is parsed at the current position of the arena, and that
position is stored in `child_scripts`. -/
def parseChildScriptsA (child : List Char → Arena → Option (List Char × Arena)) :
    Nat → List Char → Arena → Option (List Nat × List Char × Arena)
  | 0, s, a => some ([], s, a)
  | 1, s, a => do
    let a := ensureAlignment a
    let (s, a') ← child s a
    some ([a.offset], s, a')
  | remaining + 2, s, a => do
    let a := ensureAlignment a
    let (s, a') ← child s a
    -- the next character must be a comma (except after the last child)
    let s ← consumeCharacter ',' s
    let (scripts, s, a') ← parseChildScriptsA child (remaining + 1) s a'
    some (a.offset :: scripts, s, a')

/-- The child loop of `thresh`; `cur` is the list entry the next child is stored in. It returns
`n`, `count_z`, `count_o` and the rest. -/
def parseThreshScriptsA (child : List Char → Arena → Option (List Char × Arena)) :
    (fuel n countZ countO cur : Nat) → List Char → Arena →
      Option (Nat × Nat × Nat × List Char × Arena)
  | 0, _, _, _, _, _, _ => none
  | fuel + 1, n, countZ, countO, cur, s, a => do
    let n := n + 1
    let a := ensureAlignment a
    let script := a.offset
    let (s, a) ← child s a
    let some X := a.flagsAt script | none
    -- the first child's type must be B, every other child's W
    guard (if n = 1 then X.type = .B else X.type = .W)
    guard (X.d && X.u)
    let countZ := if X.z then countZ + 1 else countZ
    let countO := if X.o then countO + 1 else countO
    match consumeCharacter ',' s with
    | some s => do
      let (next, a) ← bufferAlloc a sizes.scriptlist
      parseThreshScriptsA child fuel n countZ countO next s
        (a.write cur (.scriptlist script (some next)))
    | none => some (n, countZ, countO, s, a.write cur (.scriptlist script none))

/-- The key loop of `multi` and `sortedmulti`: each key index is stored in a new `size_t` of the
arena. It returns `n` and the rest. -/
def parseMultisigKeysA : (fuel n : Nat) → List Char → Arena → Option (Nat × List Char × Arena)
  | 0, _, _, _ => none
  | fuel + 1, n, s, a =>
    if s.head? = some ')' then some (n, s, a)
    else do
      let s ← consumeCharacter ',' s
      let (keyIndex, s) ← parseKeyIndex s
      guard (keyIndex ≠ sizeMax)
      let (keyIndexOut, a) ← bufferAlloc a sizeTBytes
      parseMultisigKeysA fuel (n + 1) s (a.write keyIndexOut (.keyIndex keyIndex))

/-- The key cases after the allocation of `node` and their context checks. -/
def parseKeyNodeA (token : PolicyNodeType) (node : Nat) (s : List Char) (a : Arena) :
    Option (Nat × List Char × Arena) := do
  let (keyIndex, s) ← parseKeyIndex s
  guard (keyIndex ≠ sizeMax)
  some (node, s, a.write node (.withKey token (keyFlags token) keyIndex))

/-- The cases `TOKEN_AND_V` to `TOKEN_OR_I`. -/
def parseScript2A (child : List Char → Arena → Option (List Char × Arena))
    (token : PolicyNodeType) (s : List Char) (a : Arena) : Option (Nat × List Char × Arena) := do
  let (node, a) ← bufferAlloc a sizes.withScript2
  let ([x, y], s, a) ← parseChildScriptsA child 2 s a | none
  let (some fX, some fY) := (a.flagsAt x, a.flagsAt y) | none
  let flags ← script2Flags token fX fY
  some (node, s, a.write node (.withScript2 token (some flags) x y))

/-- The cases `TOKEN_MULTI` and `TOKEN_SORTEDMULTI`; the key-index array starts at the aligned
position after the node. -/
def parseMultisigA (fuel contextFlags : Nat) (token : PolicyNodeType) (s : List Char)
    (a : Arena) : Option (Nat × List Char × Arena) := do
  let (node, a) ← bufferAlloc a sizes.multisig
  guard ¬(token = .sortedmulti ∧ contextFlags &&& contextWithinSh ≠ 0 ∧
    contextFlags &&& contextWithinWsh ≠ 0)
  let (k, s) ← parseUnsignedDecimal sizeTBits s
  let a := ensureAlignment a
  let keyIndexes := a.offset
  let (n, s, a) ← parseMultisigKeysA fuel 0 s a
  guard (1 ≤ k ∧ k ≤ n ∧ n ≤ maxPolicyMapCosigners)
  let flags := if token = .sortedmulti then none else some multiFlags
  some (node, s, a.write node (.multisig token flags k n keyIndexes))

/-- The token switch of `parse_script` on the arena: the offset of the parsed node, the rest and
the arena. `child contextFlags` parses a child script one level deeper. -/
def parseBodyA (child : Nat → List Char → Arena → Option (List Char × Arena))
    (fuel depth contextFlags : Nat) :
    PolicyNodeType → List Char → Arena → Option (Nat × List Char × Arena)
  | .zero, s, a => do
    let (node, a) ← bufferAlloc a sizes.constant
    some (node, s, a.write node (.constant .zero (some flagsZero)))
  | .one, s, a => do
    let (node, a) ← bufferAlloc a sizes.constant
    some (node, s, a.write node (.constant .one (some flagsOne)))
  | .sh, s, a => do
    guard ¬(depth ≠ 0)
    let (node, a) ← bufferAlloc a sizes.withScript
    let a := ensureAlignment a
    let (s, a) ← child contextWithinSh s (a.write node (.withScript .sh none a.offset))
    some (node, s, a)
  | .wsh, s, a => do
    guard ¬(depth ≠ 0 ∧ contextFlags &&& contextWithinSh = 0)
    let (node, a) ← bufferAlloc a sizes.withScript
    let a := ensureAlignment a
    let (s, a) ← child contextWithinWsh s (a.write node (.withScript .wsh none a.offset))
    some (node, s, a)
  | .sha256, s, a => do
    let (node, a) ← bufferAlloc a sizes.withHash256
    let (h, s) ← bufferReadHexHash 32 s
    some (node, s, a.write node (.withHash256 .sha256 (some hashFlags) h))
  | .hash256, s, a => do
    let (node, a) ← bufferAlloc a sizes.withHash256
    let (h, s) ← bufferReadHexHash 32 s
    some (node, s, a.write node (.withHash256 .hash256 (some hashFlags) h))
  | .ripemd160, s, a => do
    let (node, a) ← bufferAlloc a sizes.withHash160
    let (h, s) ← bufferReadHexHash 20 s
    some (node, s, a.write node (.withHash160 .ripemd160 (some hashFlags) h))
  | .hash160, s, a => do
    let (node, a) ← bufferAlloc a sizes.withHash160
    let (h, s) ← bufferReadHexHash 20 s
    some (node, s, a.write node (.withHash160 .hash160 (some hashFlags) h))
  | .andor, s, a => do
    let (node, a) ← bufferAlloc a sizes.withScript3
    let ([x, y, z], s, a) ← parseChildScriptsA (child 0) 3 s a | none
    let (some fX, some fY, some fZ) := (a.flagsAt x, a.flagsAt y, a.flagsAt z) | none
    let flags ← andorFlags fX fY fZ
    some (node, s, a.write node (.withScript3 .andor (some flags) x y z))
  | .andV, s, a => parseScript2A sizes (child 0) .andV s a
  | .andB, s, a => parseScript2A sizes (child 0) .andB s a
  | .andN, s, a => parseScript2A sizes (child 0) .andN s a
  | .orB, s, a => parseScript2A sizes (child 0) .orB s a
  | .orC, s, a => parseScript2A sizes (child 0) .orC s a
  | .orD, s, a => parseScript2A sizes (child 0) .orD s a
  | .orI, s, a => parseScript2A sizes (child 0) .orI s a
  | .thresh, s, a => do
    let (node, a) ← bufferAlloc a sizes.thresh
    let (k, s) ← parseUnsignedDecimal sizeTBits s
    let s ← consumeCharacter ',' s
    guard ¬(k < 1)
    let (scriptlist, a) ← bufferAlloc a sizes.scriptlist
    let (n, countZ, countO, s, a) ← parseThreshScriptsA sizes (child 0) fuel 0 0 0 scriptlist s a
    some (node, s, a.write node (.thresh (some (threshFlags n countZ countO)) k n scriptlist))
  | .pk, s, a => do
    let (node, a) ← bufferAlloc a sizes.withKey
    parseKeyNodeA .pk node s a
  | .pkh, s, a => do
    let (node, a) ← bufferAlloc a sizes.withKey
    parseKeyNodeA .pkh node s a
  | .pkK, s, a => do
    let (node, a) ← bufferAlloc a sizes.withKey
    parseKeyNodeA .pkK node s a
  | .pkH, s, a => do
    let (node, a) ← bufferAlloc a sizes.withKey
    parseKeyNodeA .pkH node s a
  | .wpkh, s, a => do
    let (node, a) ← bufferAlloc a sizes.withKey
    guard ¬(depth > 0 ∧ contextFlags &&& contextWithinSh = 0)
    parseKeyNodeA .wpkh node s a
  | .tr, s, a => do
    let (node, a) ← bufferAlloc a sizes.withKey
    guard ¬(depth > 1)
    parseKeyNodeA .tr node s a
  | .older, s, a => do
    let (node, a) ← bufferAlloc a sizes.withUint32
    let (n, s) ← parseUnsignedDecimal sizeTBits s
    guard ¬(n < 1 ∨ n ≥ 2 ^ 31)
    some (node, s, a.write node (.withUint32 .older (some timelockFlags) n))
  | .after, s, a => do
    let (node, a) ← bufferAlloc a sizes.withUint32
    let (n, s) ← parseUnsignedDecimal sizeTBits s
    guard ¬(n < 1 ∨ n ≥ 2 ^ 31)
    some (node, s, a.write node (.withUint32 .after (some timelockFlags) n))
  | .multi, s, a => parseMultisigA sizes fuel contextFlags .multi s a
  | .sortedmulti, s, a => parseMultisigA sizes fuel contextFlags .sortedmulti s a
  | _, _, _ => none

/-- The allocation of the wrapper nodes, outermost first, before the token is read. -/
def allocWrappers : Nat → Arena → Option (List Nat × Arena)
  | 0, a => some ([], a)
  | n + 1, a => do
    let (node, a) ← bufferAlloc a sizes.withScript
    let (nodes, a) ← allocWrappers n a
    some (node :: nodes, a)

end

/-- The type and `script` pointer of each wrapper node: each one points to the next, the
innermost to `parsedNode`. -/
def linkWrappers (parsedNode : Nat) : List PolicyNodeType → List Nat → Arena → Arena
  | w :: ws, node :: nodes, a =>
    linkWrappers parsedNode ws nodes (a.write node (.withScript w none (nodes.head?.getD parsedNode)))
  | _, _, a => a

/-- The loop of `parse_script` that computes the flags of the wrappers, for
`i = n_wrappers - 1` down to `0`: it finds wrapper `i` by following `i` pointers from the
outermost node, and computes its flags from those of the node it points to. -/
def wrapperFlagsLoop (outermostNode : Nat) : Nat → Arena → Option Arena
  | 0, a => some a
  | i + 1, a => do
    let node ← a.follow i outermostNode
    let some (.withScript type _ script) := a.heap node | none
    -- "wrappers can only be applied to miniscript"
    let some X := a.flagsAt script | none
    let flags ← wrapperFlags type X
    wrapperFlagsLoop outermostNode i (a.write node (.withScript type (some flags) script))

section
variable (sizes : StructSizes)

/-- `parse_script` on the arena: the rest of the input and the arena. The node is at the
position of the arena on entry. -/
def parseScriptA : (fuel depth contextFlags : Nat) → List Char → Arena → Option (List Char × Arena)
  | 0, _, _, _, _ => none
  | fuel + 1, depth, contextFlags, s, a => do
    let outermostNode := a.offset
    let (wrappers, s) := parseWrappers s
    let (wrapperNodes, a) ← allocWrappers sizes wrappers.length a
    let (token, s) := parseToken s
    -- all tokens but '0' and '1' have opening and closing parentheses
    let hasParentheses := token ≠ .zero && token ≠ .one
    let s ← consumeParenthesis hasParentheses '(' s
    let (parsedNode, s, a) ←
      parseBodyA sizes (parseScriptA fuel (depth + 1)) fuel depth contextFlags token s a
    let s ← consumeParenthesis hasParentheses ')' s
    guard ¬(depth = 0 ∧ s ≠ [])
    let a ← wrapperFlagsLoop outermostNode wrappers.length
      (linkWrappers parsedNode wrappers wrapperNodes a)
    some (s, a)

/-- `parse_policy_map` with the output buffer at address `out`, of `outLen` bytes: the arena
after the parse, the root node at offset `0`. -/
def parsePolicyMapA (out outLen : Nat) (s : List Char) : Option Arena :=
  if out % 4 ≠ 0 then none
  else do
    let (_, a) ← parseScriptA sizes (s.length + 1) 0 0 s (bufferCreate outLen)
    some a

end

end WalletPolicy
