import WalletPolicy.Lexer
import WalletPolicy.FlagRules

/-!
# `parse_script` and `parse_policy_map`

The recursive-descent parser of the policy body. `parseScript fuel depth contextFlags s`
returns the parsed node and the unread input, or `none` where the C function returns `-1`.
The body of each token is parsed by `parseBody`, which receives the recursive call as the
function `child`; the two loops of the source (`thresh` children, `multi` keys) are
`parseThreshScripts` and `parseMultisigKeys`. The tree is returned as a value: the arena
`out_buf` and its `Out of memory` failures are not modelled (a run is described with an
arena large enough for all its allocations). `fuel` bounds the recursion and the loops;
`parsePolicyMap` gives one more than the input's length, and every call and iteration
reads at least one character.
-/
namespace WalletPolicy

/-- `CONTEXT_WITHIN_SH`: parsing a direct child of `sh`. -/
def contextWithinSh : Nat := 1

/-- `CONTEXT_WITHIN_WSH`: parsing a direct child of `wsh`. -/
def contextWithinWsh : Nat := 2

/-- Modelled from the spec: `MAX_POLICY_MAP_COSIGNERS` of `wallet.h`, the cosigner limit 16. -/
def maxPolicyMapCosigners : Nat := 16

/-- `is_valid_miniscript_wrapper`, indexed by `c - 'a'`. -/
def isValidMiniscriptWrapperTable : List Bool :=
  [true, false, true, true, false, false, false, false, false, true, false, true, false,
   true, false, false, false, false, true, true, true, true, false, false, false, false]

def isValidMiniscriptWrapper (c : Char) : Bool :=
  'a' ≤ c && c ≤ 'z' && isValidMiniscriptWrapperTable.getD (c.toNat - 'a'.toNat) false

/-- The switch that allocates the wrapper nodes of `parse_script`. -/
def wrapperToken : Char → PolicyNodeType
  | 'a' => .a | 's' => .s | 'c' => .c | 't' => .t | 'd' => .d
  | 'v' => .v | 'j' => .j | 'n' => .n | 'l' => .l | 'u' => .u
  | _ => .invalid

/-- The lookahead of `parse_script`: the run of valid wrapper letters is a list of wrappers,
outermost first, when the character after it is a `:`, which is consumed too. -/
def parseWrappers (s : List Char) : List PolicyNodeType × List Char :=
  let run := s.takeWhile isValidMiniscriptWrapper
  match s.drop run.length with
  | ':' :: rest => (run.map wrapperToken, rest)
  | _ => ([], s)

/-- The wrapper loop of `parse_script`: from the innermost wrapper outwards, each one's
child must be miniscript and its flags are `wrapperFlags` of the child's. -/
def applyWrappers : List PolicyNodeType → Node → Option Node
  | [], body => some body
  | w :: ws, body => do
    let inner ← applyWrappers ws body
    let some X := inner.flags | none
    let flags ← wrapperFlags w X
    some (.withScript w (some flags) inner)

/-- `parse_child_scripts`: `remaining` children, separated by commas. -/
def parseChildScripts (child : List Char → Option (Node × List Char)) :
    Nat → List Char → Option (List Node × List Char)
  | 0, s => some ([], s)
  | 1, s => do
    let (script, s) ← child s
    some ([script], s)
  | remaining + 2, s => do
    let (script, s) ← child s
    -- the next character must be a comma (except after the last child)
    let s ← consumeCharacter ',' s
    let (scripts, s) ← parseChildScripts child (remaining + 1) s
    some (script :: scripts, s)

/-- The child loop of `thresh`: the children, `n`, `count_z`, `count_o` and the rest. -/
def parseThreshScripts (child : List Char → Option (Node × List Char)) :
    (fuel n countZ countO : Nat) → List Char → Option (ScriptList × Nat × Nat × Nat × List Char)
  | 0, _, _, _, _ => none
  | fuel + 1, n, countZ, countO, s => do
    let n := n + 1
    let (script, s) ← child s
    let some X := script.flags | none
    -- the first child's type must be B, every other child's W
    guard (if n = 1 then X.type = .B else X.type = .W)
    guard (X.d && X.u)
    let countZ := if X.z then countZ + 1 else countZ
    let countO := if X.o then countO + 1 else countO
    match consumeCharacter ',' s with
    | some s => do
      let (next, n, countZ, countO, s) ← parseThreshScripts child fuel n countZ countO s
      some (.cons script next, n, countZ, countO, s)
    | none => some (.cons script .nil, n, countZ, countO, s)

/-- The key loop of `multi` and `sortedmulti`: key indices up to a `)`, which stays unread. -/
def parseMultisigKeys : (fuel n : Nat) → List Char → Option (List Nat × Nat × List Char)
  | 0, _, _ => none
  | fuel + 1, n, s =>
    if s.head? = some ')' then some ([], n, s)
    else do
      let s ← consumeCharacter ',' s
      let (keyIndex, s) ← parseKeyIndex s
      guard (keyIndex ≠ sizeMax)
      let (keyIndexes, n, s) ← parseMultisigKeys fuel (n + 1) s
      some (keyIndex :: keyIndexes, n, s)

/-- The cases `TOKEN_PK` to `TOKEN_WPKH` and `TOKEN_TR` after their context checks. -/
def parseKeyNode (token : PolicyNodeType) (s : List Char) : Option (Node × List Char) := do
  let (keyIndex, s) ← parseKeyIndex s
  guard (keyIndex ≠ sizeMax)
  some (.withKey token (keyFlags token) keyIndex, s)

/-- The cases `TOKEN_AND_V` to `TOKEN_OR_I`: two miniscript children and the token's rule. -/
def parseScript2 (child : List Char → Option (Node × List Char)) (token : PolicyNodeType)
    (s : List Char) : Option (Node × List Char) := do
  let ([X, Y], s) ← parseChildScripts child 2 s | none
  let (some fX, some fY) := (X.flags, Y.flags) | none
  let flags ← script2Flags token fX fY
  some (.withScript2 token (some flags) X Y, s)

/-- The cases `TOKEN_MULTI` and `TOKEN_SORTEDMULTI`. -/
def parseMultisig (fuel contextFlags : Nat) (token : PolicyNodeType) (s : List Char) :
    Option (Node × List Char) := do
  guard ¬(token = .sortedmulti ∧ contextFlags &&& contextWithinSh ≠ 0 ∧
    contextFlags &&& contextWithinWsh ≠ 0)
  let (k, s) ← parseUnsignedDecimal sizeTBits s
  let (keyIndexes, n, s) ← parseMultisigKeys fuel 0 s
  guard (1 ≤ k ∧ k ≤ n ∧ n ≤ maxPolicyMapCosigners)
  let flags := if token = .sortedmulti then none else some multiFlags
  some (.multisig token flags k n keyIndexes, s)

/-- The token switch of `parse_script`, between the parentheses. `child contextFlags` parses
a child script one level deeper. -/
def parseBody (child : Nat → List Char → Option (Node × List Char))
    (fuel depth contextFlags : Nat) : PolicyNodeType → List Char → Option (Node × List Char)
  | .zero, s => some (.constant .zero (some flagsZero), s)
  | .one, s => some (.constant .one (some flagsOne), s)
  | .sh, s => do
    guard ¬(depth ≠ 0)
    let (script, s) ← child contextWithinSh s
    some (.withScript .sh none script, s)
  | .wsh, s => do
    guard ¬(depth ≠ 0 ∧ contextFlags &&& contextWithinSh = 0)
    let (script, s) ← child contextWithinWsh s
    some (.withScript .wsh none script, s)
  | .sha256, s => do
    let (h, s) ← bufferReadHexHash 32 s
    some (.withHash256 .sha256 (some hashFlags) h, s)
  | .hash256, s => do
    let (h, s) ← bufferReadHexHash 32 s
    some (.withHash256 .hash256 (some hashFlags) h, s)
  | .ripemd160, s => do
    let (h, s) ← bufferReadHexHash 20 s
    some (.withHash160 .ripemd160 (some hashFlags) h, s)
  | .hash160, s => do
    let (h, s) ← bufferReadHexHash 20 s
    some (.withHash160 .hash160 (some hashFlags) h, s)
  | .andor, s => do
    let ([X, Y, Z], s) ← parseChildScripts (child 0) 3 s | none
    let (some fX, some fY, some fZ) := (X.flags, Y.flags, Z.flags) | none
    let flags ← andorFlags fX fY fZ
    some (.withScript3 .andor (some flags) X Y Z, s)
  | .andV, s => parseScript2 (child 0) .andV s
  | .andB, s => parseScript2 (child 0) .andB s
  | .andN, s => parseScript2 (child 0) .andN s
  | .orB, s => parseScript2 (child 0) .orB s
  | .orC, s => parseScript2 (child 0) .orC s
  | .orD, s => parseScript2 (child 0) .orD s
  | .orI, s => parseScript2 (child 0) .orI s
  | .thresh, s => do
    let (k, s) ← parseUnsignedDecimal sizeTBits s
    let s ← consumeCharacter ',' s
    guard ¬(k < 1)
    let (scriptlist, n, countZ, countO, s) ← parseThreshScripts (child 0) fuel 0 0 0 s
    some (.thresh (some (threshFlags n countZ countO)) k n scriptlist, s)
  | .pk, s => parseKeyNode .pk s
  | .pkh, s => parseKeyNode .pkh s
  | .pkK, s => parseKeyNode .pkK s
  | .pkH, s => parseKeyNode .pkH s
  | .wpkh, s => do
    guard ¬(depth > 0 ∧ contextFlags &&& contextWithinSh = 0)
    parseKeyNode .wpkh s
  | .tr, s => do
    guard ¬(depth > 1)
    parseKeyNode .tr s
  | .older, s => do
    let (n, s) ← parseUnsignedDecimal sizeTBits s
    guard ¬(n < 1 ∨ n ≥ 2 ^ 31)
    some (.withUint32 .older (some timelockFlags) n, s)
  | .after, s => do
    let (n, s) ← parseUnsignedDecimal sizeTBits s
    guard ¬(n < 1 ∨ n ≥ 2 ^ 31)
    some (.withUint32 .after (some timelockFlags) n, s)
  | .multi, s => parseMultisig fuel contextFlags .multi s
  | .sortedmulti, s => parseMultisig fuel contextFlags .sortedmulti s
  | _, _ => none

/-- `consume_character` of a parenthesis, for the tokens that have them. -/
def consumeParenthesis (hasParentheses : Bool) (expected : Char) (s : List Char) :
    Option (List Char) :=
  if hasParentheses then consumeCharacter expected s else some s

/-- `parse_script`. -/
def parseScript : (fuel depth contextFlags : Nat) → List Char → Option (Node × List Char)
  | 0, _, _, _ => none
  | fuel + 1, depth, contextFlags, s => do
    let (wrappers, s) := parseWrappers s
    let (token, s) := parseToken s
    -- all tokens but '0' and '1' have opening and closing parentheses
    let hasParentheses := token ≠ .zero && token ≠ .one
    let s ← consumeParenthesis hasParentheses '(' s
    let (parsedNode, s) ← parseBody (parseScript fuel (depth + 1)) fuel depth contextFlags token s
    let s ← consumeParenthesis hasParentheses ')' s
    guard ¬(depth = 0 ∧ s ≠ [])
    let node ← applyWrappers wrappers parsedNode
    some (node, s)

/-- `parse_policy_map`: the whole input is one script, parsed at depth 0. -/
def parsePolicyMap (s : List Char) : Option Node := do
  let (node, _) ← parseScript (s.length + 1) 0 0 s
  some node

end WalletPolicy
