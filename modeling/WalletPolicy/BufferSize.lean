import WalletPolicy.ArenaRefinement
import WalletPolicy.Decimal

/-!
# How large a buffer `parse_policy_map` needs

The caller of `parse_policy_map` gives it a buffer of `out_len` bytes, and the parse fails
with "Out of memory" when the tree does not fit. This module bounds what the tree takes by
the length of the text: every struct costs at most `sizes.largest` bytes and 3 of padding, and
`parse_script` allocates at most one struct per character it reads.

## Main results

`storeEnd_le_structCount`: the layout of a tree ends within `largest + 3` bytes per struct.

`parseScript_structCount`: a tree read by `parse_script` has no more structs than the
characters it was read from.

`parsePolicyMapA_isSome_of_le`: with `largest + 3` bytes of buffer per character of the text,
`parse_policy_map` fails only on a misaligned buffer or a text it rejects.

`parsePolicyMapA_print`: with that much buffer, the canonical text of every well-formed policy
is stored as exactly that tree.

## Proof strategy

The count of structs, `Node.structCount`, splits the bound in two halves that meet only in it:
the layout half is a structural induction over the tree, the parser half an induction on the
fuel of `parse_script` with one consumption lemma per reader. A thresh node is counted with
one list entry per child and one more, so its count is at least what `storeNode` allocates
whatever its list.
-/
namespace WalletPolicy

/-- The sizes of the structs `parse_script` allocates, a key index included. -/
def StructSizes.toList (sizes : StructSizes) : List Nat :=
  [sizeTBytes, sizes.constant, sizes.withScript, sizes.withScript2, sizes.withScript3,
    sizes.thresh, sizes.scriptlist, sizes.withKey, sizes.withHash256, sizes.withHash160,
    sizes.withUint32, sizes.multisig]

/-- The size of the largest struct `parse_script` allocates. -/
def StructSizes.largest (sizes : StructSizes) : Nat := sizes.toList.foldr max ⊥

mutual
/-- The structs of the layout of a tree: one per node, one per key index, and for a thresh
node one list entry per child and one more. -/
def Node.structCount : Node → Nat
  | .withScript _ _ x => x.structCount + 1
  | .withScript2 _ _ x y => x.structCount + y.structCount + 1
  | .withScript3 _ _ x y z => x.structCount + y.structCount + z.structCount + 1
  | .thresh _ _ _ scripts => scripts.structCount + 2
  | .multisig _ _ _ _ keyIndexes => keyIndexes.length + 1
  | .constant .. | .withKey .. | .withHash256 .. | .withHash160 .. | .withUint32 .. => 1

/-- The structs of the children of a thresh node, each with its list entry. -/
def ScriptList.structCount : ScriptList → Nat
  | .nil => 0
  | .cons x next => x.structCount + 1 + next.structCount
end

/-! ### The layout half -/

/-- A struct allocated at `o`, with its padding, ends within `largest + 3` bytes of `o`. -/
theorem alignUp_add_le (sizes : StructSizes) (o size : Nat) (h : size ∈ sizes.toList) :
    alignUp o + size ≤ o + (sizes.largest + 3) := by
  have := alignUp_lt o
  have : size ≤ sizes.largest := List.le_max_of_le h le_rfl
  omega

theorem keysEnd_le (sizes : StructSizes) : ∀ (o : Nat) (keyIndexes : List Nat),
    keysEnd o keyIndexes ≤ o + (sizes.largest + 3) * keyIndexes.length
  | o, [] => by simp [keysEnd]
  | o, _ :: keyIndexes => by
    have ih := keysEnd_le sizes (alignUp o + sizeTBytes) keyIndexes
    have := alignUp_add_le sizes o sizeTBytes (by simp [StructSizes.toList])
    simp only [keysEnd, List.length_cons, Nat.mul_succ] at ih ⊢
    omega

section
variable {sizes : StructSizes}

mutual
/-- The layout of a tree ends within `largest + 3` bytes per struct of it. -/
theorem storeEnd_le_structCount : ∀ (o : Nat) (t : Node),
    storeEnd sizes o t ≤ o + (sizes.largest + 3) * t.structCount
  | o, .constant .. | o, .withKey .. | o, .withHash256 .. | o, .withHash160 ..
  | o, .withUint32 .. => by
    simp only [storeEnd, Node.structCount, Nat.mul_one]
    exact alignUp_add_le sizes o _ (by simp [StructSizes.toList])
  | o, .withScript _ _ x => by
    have hx := storeEnd_le_structCount (alignUp o + sizes.withScript) x
    have := alignUp_add_le sizes o sizes.withScript (by simp [StructSizes.toList])
    simp only [storeEnd, Node.structCount, Nat.mul_succ] at hx ⊢
    omega
  | o, .withScript2 _ _ x y => by
    have hx := storeEnd_le_structCount (alignUp o + sizes.withScript2) x
    have hy := storeEnd_le_structCount (storeEnd sizes (alignUp o + sizes.withScript2) x) y
    have := alignUp_add_le sizes o sizes.withScript2 (by simp [StructSizes.toList])
    simp only [storeEnd, Node.structCount, Nat.mul_succ, Nat.mul_add] at hx hy ⊢
    omega
  | o, .withScript3 _ _ x y z => by
    have hx := storeEnd_le_structCount (alignUp o + sizes.withScript3) x
    have hy := storeEnd_le_structCount (storeEnd sizes (alignUp o + sizes.withScript3) x) y
    have hz := storeEnd_le_structCount
      (storeEnd sizes (storeEnd sizes (alignUp o + sizes.withScript3) x) y) z
    have := alignUp_add_le sizes o sizes.withScript3 (by simp [StructSizes.toList])
    simp only [storeEnd, Node.structCount, Nat.mul_succ, Nat.mul_add] at hx hy hz ⊢
    omega
  | o, .thresh _ _ _ scripts => by
    have hs := scriptsEnd_le_structCount
      (alignUp (alignUp o + sizes.thresh) + sizes.scriptlist) scripts
    have := alignUp_add_le sizes o sizes.thresh (by simp [StructSizes.toList])
    have := alignUp_add_le sizes (alignUp o + sizes.thresh) sizes.scriptlist
      (by simp [StructSizes.toList])
    simp only [storeEnd, Node.structCount, Nat.mul_succ] at hs ⊢
    omega
  | o, .multisig _ _ _ _ keyIndexes => by
    have hk := keysEnd_le sizes (alignUp o + sizes.multisig) keyIndexes
    have := alignUp_add_le sizes o sizes.multisig (by simp [StructSizes.toList])
    simp only [storeEnd, Node.structCount, Nat.mul_succ] at hk ⊢
    omega

theorem scriptsEnd_le_structCount : ∀ (o : Nat) (scripts : ScriptList),
    scriptsEnd sizes o scripts ≤ o + (sizes.largest + 3) * scripts.structCount
  | o, .nil => by simp [scriptsEnd]
  | o, .cons x .nil => by
    have hx := storeEnd_le_structCount o x
    simp only [scriptsEnd, ScriptList.structCount, Nat.mul_add] at hx ⊢
    omega
  | o, .cons x (.cons y rest) => by
    have hx := storeEnd_le_structCount o x
    have hs := scriptsEnd_le_structCount
      (alignUp (storeEnd sizes o x) + sizes.scriptlist) (.cons y rest)
    have := alignUp_add_le sizes (storeEnd sizes o x) sizes.scriptlist
      (by simp [StructSizes.toList])
    simp only [scriptsEnd, ScriptList.structCount, Nat.mul_add, Nat.mul_one] at hx hs ⊢
    omega
end

end

/-! ### What each reader consumes -/

theorem consumeCharacter_length {c : Char} :
    ∀ {s r : List Char}, consumeCharacter c s = some r → r.length + 1 = s.length
  | [], _, h => by cases h
  | d :: rest, r, h => by
    simp only [consumeCharacter] at h
    split at h
    · cases h; rfl
    · cases h

theorem consumeParenthesis_length {b : Bool} {c : Char} {s r : List Char}
    (h : consumeParenthesis b c s = some r) : r.length ≤ s.length := by
  unfold consumeParenthesis at h
  split at h
  · have := consumeCharacter_length h
    omega
  · cases h; exact le_rfl

/-- `parse_unsigned_decimal` reads at least one digit. -/
theorem parseUnsignedDecimal_length {w : Nat} {s r : List Char} {v : Nat}
    (h : parseUnsignedDecimal w s = some (v, r)) : r.length < s.length := by
  obtain ⟨k, hloop, hk⟩ := parseUnsignedDecimal_eq_some.mp h
  obtain ⟨-, hk', rfl⟩ := parseUnsignedDecimalLoop_sound (Nat.two_pow_pos w) hloop
  have hsplit := congrArg List.length (List.takeWhile_append_dropWhile isDigit s)
  rw [List.length_append] at hsplit
  omega

theorem parseKeyIndex_length {s r : List Char} {keyIndex : Nat}
    (h : parseKeyIndex s = some (keyIndex, r)) : r.length < s.length := by
  simp only [parseKeyIndex, Option.bind_eq_bind, Option.bind_eq_some] at h
  obtain ⟨s1, h1, h2⟩ := h
  have := consumeCharacter_length h1
  have := parseUnsignedDecimal_length h2
  omega

theorem readHexBytes_length : ∀ {n : Nat} {s r : List Char} {bytes : Mathlib.Vector UInt8 n},
    readHexBytes n s = some (bytes, r) → r.length ≤ s.length
  | 0, s, r, _, h => by cases h; exact le_rfl
  | n + 1, c1 :: c2 :: s, r, bytes, h => by
    simp only [readHexBytes] at h
    split at h
    · simp only [Option.bind_eq_bind, Option.bind_eq_some, Option.some.injEq, Prod.mk.injEq] at h
      obtain ⟨⟨bytes', s'⟩, h', -, rfl⟩ := h
      have := readHexBytes_length h'
      simp only [List.length_cons]
      omega
    · cases h
  | _ + 1, [], _, _, h | _ + 1, [_], _, _, h => by cases h

theorem bufferReadHexHash_length {n : Nat} {s r : List Char} {h : Mathlib.Vector UInt8 n}
    (hread : bufferReadHexHash n s = some (h, r)) : r.length ≤ s.length := by
  unfold bufferReadHexHash at hread
  split at hread
  · cases hread
  · exact readHexBytes_length hread

theorem readWhile_length (p : Char → Bool) :
    ∀ n s, (readWhile p n s).1.length + (readWhile p n s).2.length = s.length
  | 0, _ => by simp [readWhile]
  | _ + 1, [] => rfl
  | n + 1, c :: s => by
    have ih := readWhile_length p n s
    simp only [readWhile]
    split
    · simp only [List.length_cons]
      omega
    · simp

/-- No known token has an empty name. -/
theorem knownTokens_find_nil : (knownTokens.find? fun tok => tok.2.toList = []) = none := by
  decide

/-- A token `parse_token` knows is at least one character long. -/
theorem parseToken_length {s r : List Char} {token : PolicyNodeType}
    (h : parseToken s = (token, r)) (hvalid : token ≠ .invalid) : r.length < s.length := by
  unfold parseToken readToken at h
  have hlen := readWhile_length (fun c => isAlphanumeric c || c = '_') maxTokenLength s
  rcases hw : readWhile (fun c => isAlphanumeric c || c = '_') maxTokenLength s with
    ⟨word, rest⟩
  rw [hw] at h hlen
  simp only [Prod.mk.injEq] at h
  obtain ⟨htoken, rfl⟩ := h
  cases word with
  | nil => exact absurd (by rw [← htoken, knownTokens_find_nil]; rfl) hvalid
  | cons c word =>
    simp only [List.length_cons] at hlen
    omega

/-- Each wrapper is one letter of the text. -/
theorem parseWrappers_length {s r : List Char} {ws : List PolicyNodeType}
    (h : parseWrappers s = (ws, r)) : ws.length + r.length ≤ s.length := by
  unfold parseWrappers at h
  dsimp only at h
  split at h
  · next rest hdrop =>
    simp only [Prod.mk.injEq] at h
    obtain ⟨rfl, rfl⟩ := h
    have hlen := congrArg List.length hdrop
    simp only [List.length_drop, List.length_cons] at hlen
    simp only [List.length_map]
    omega
  · simp only [Prod.mk.injEq] at h
    obtain ⟨rfl, rfl⟩ := h
    simp

/-! ### The parser half -/

theorem applyWrappers_structCount :
    ∀ {ws : List PolicyNodeType} {body t : Node}, applyWrappers ws body = some t →
      t.structCount = body.structCount + ws.length
  | [], _, _, h => by cases h; rfl
  | _ :: _, _, _, h => by
    obtain ⟨inner, -, -, hinner, -, -, rfl⟩ := applyWrappers_cons_eq_some h
    simp only [Node.structCount, applyWrappers_structCount hinner, List.length_cons,
      Nat.add_assoc]

theorem parseChildScripts_structCount {child : List Char → Option (Node × List Char)}
    (hchild : ∀ {s x r}, child s = some (x, r) → x.structCount + r.length ≤ s.length) :
    ∀ {k s xs r}, parseChildScripts child k s = some (xs, r) →
      (xs.map Node.structCount).sum + r.length ≤ s.length
  | 0, _, _, _, h => by cases h; simp
  | 1, s, xs, r, h => by
    simp only [parseChildScripts, Option.bind_eq_bind, Option.bind_eq_some, Option.some.injEq,
      Prod.mk.injEq] at h
    obtain ⟨⟨x, s1⟩, h1, rfl, rfl⟩ := h
    simpa using hchild h1
  | k + 2, s, xs, r, h => by
    simp only [parseChildScripts, Option.bind_eq_bind, Option.bind_eq_some, Option.some.injEq,
      Prod.mk.injEq] at h
    obtain ⟨⟨x, s1⟩, h1, s2, h2, ⟨xs', s3⟩, h3, rfl, rfl⟩ := h
    have := hchild h1
    have : s2.length + 1 = s1.length := consumeCharacter_length h2
    have := parseChildScripts_structCount hchild h3
    simp only [List.map_cons, List.sum_cons]
    omega

/-- Every child of a thresh node but the last is followed by a comma, which pays for the list
entry of the next one. -/
theorem parseThreshScripts_structCount {child : List Char → Option (Node × List Char)}
    (hchild : ∀ {s x r}, child s = some (x, r) → x.structCount + r.length ≤ s.length) :
    ∀ {fuel n countZ countO s scripts n' countZ' countO' r},
      parseThreshScripts child fuel n countZ countO s = some (scripts, n', countZ', countO', r) →
        scripts.structCount + r.length ≤ s.length + 1
  | 0, _, _, _, _, _, _, _, _, _, h => by cases h
  | fuel + 1, n, countZ, countO, s, scripts, n', countZ', countO', r, h => by
    simp only [parseThreshScripts, Option.bind_eq_bind, Option.bind_eq_some] at h
    obtain ⟨⟨x, s1⟩, h1, h⟩ := h
    have := hchild h1
    split at h
    · simp only [Option.bind_eq_some, Option.guard_eq_some'] at h
      obtain ⟨-, -, -, -, h⟩ := h
      split at h
      · next s2 hcomma =>
        simp only [Option.bind_eq_some, Option.some.injEq, Prod.mk.injEq] at h
        obtain ⟨⟨next, _, _, _, s3⟩, hrec, rfl, -, -, -, rfl⟩ := h
        have := consumeCharacter_length hcomma
        have := parseThreshScripts_structCount hchild hrec
        simp only [ScriptList.structCount]
        omega
      · simp only [Option.some.injEq, Prod.mk.injEq] at h
        obtain ⟨rfl, -, -, -, rfl⟩ := h
        simp only [ScriptList.structCount]
        omega
    · cases h

theorem parseMultisigKeys_length :
    ∀ {fuel n s keyIndexes n' r}, parseMultisigKeys fuel n s = some (keyIndexes, n', r) →
      keyIndexes.length + r.length ≤ s.length
  | 0, _, _, _, _, _, h => by cases h
  | fuel + 1, n, s, keyIndexes, n', r, h => by
    simp only [parseMultisigKeys] at h
    split at h
    · cases h; simp
    · simp only [Option.bind_eq_bind, Option.bind_eq_some, Option.guard_eq_some'] at h
      obtain ⟨s1, h1, ⟨i, s2⟩, hi, -, -, ⟨is, n'', s3⟩, h3, h⟩ := h
      cases h
      have := consumeCharacter_length h1
      have := parseKeyIndex_length hi
      have : is.length + s3.length ≤ s2.length := parseMultisigKeys_length h3
      simp only [List.length_cons]
      omega

theorem parseKeyNode_structCount {token : PolicyNodeType} {s : List Char} {t : Node}
    {r : List Char} (h : parseKeyNode token s = some (t, r)) :
    t.structCount + r.length ≤ s.length := by
  simp only [parseKeyNode, Option.bind_eq_bind, Option.bind_eq_some, Option.guard_eq_some',
    Option.some.injEq, Prod.mk.injEq] at h
  obtain ⟨⟨keyIndex, s1⟩, hkey, -, -, rfl, rfl⟩ := h
  have := parseKeyIndex_length hkey
  simp only [Node.structCount]
  omega

theorem parseScript2_structCount {child : List Char → Option (Node × List Char)}
    (hchild : ∀ {s x r}, child s = some (x, r) → x.structCount + r.length ≤ s.length)
    {token : PolicyNodeType} {s : List Char} {t : Node} {r : List Char}
    (h : parseScript2 child token s = some (t, r)) : t.structCount + r.length ≤ s.length + 1 := by
  simp only [parseScript2, Option.bind_eq_bind, Option.bind_eq_some] at h
  obtain ⟨⟨xs, s1⟩, h1, h⟩ := h
  split at h
  · next X Y _ hxs =>
    simp only [Prod.mk.injEq] at hxs
    obtain ⟨rfl, rfl⟩ := hxs
    split at h
    · simp only [Option.bind_eq_some, Option.some.injEq, Prod.mk.injEq] at h
      obtain ⟨flags, -, rfl, rfl⟩ := h
      have := parseChildScripts_structCount hchild h1
      simp only [List.map_cons, List.map_nil, List.sum_cons, List.sum_nil] at this
      simp only [Node.structCount]
      omega
    · cases h
  · cases h

theorem parseMultisig_structCount {fuel contextFlags : Nat} {token : PolicyNodeType}
    {s : List Char} {t : Node} {r : List Char}
    (h : parseMultisig fuel contextFlags token s = some (t, r)) :
    t.structCount + r.length ≤ s.length := by
  simp only [parseMultisig, Option.bind_eq_bind, Option.bind_eq_some, Option.guard_eq_some',
    Option.some.injEq, Prod.mk.injEq] at h
  obtain ⟨-, -, ⟨k, s1⟩, hk, ⟨keyIndexes, n, s2⟩, hkeys, -, -, rfl, rfl⟩ := h
  have := parseUnsignedDecimal_length hk
  have : keyIndexes.length + s2.length ≤ s1.length := parseMultisigKeys_length hkeys
  simp only [Node.structCount]
  omega

/-- The token switch allocates at most one struct per character it reads, and one for the
token read before it. -/
theorem parseBody_structCount {child : Nat → List Char → Option (Node × List Char)}
    {fuel depth contextFlags : Nat}
    (hchild : ∀ {c s x r}, child c s = some (x, r) → x.structCount + r.length ≤ s.length) :
    ∀ {token s t r}, parseBody child fuel depth contextFlags token s = some (t, r) →
      t.structCount + r.length ≤ s.length + 1 := by
  intro token s t r h
  unfold parseBody at h
  cases token <;> simp only [Option.bind_eq_bind, Option.bind_eq_some,
    Option.guard_eq_some', Option.some.injEq, Prod.mk.injEq, reduceCtorEq] at h
  case zero | one =>
    obtain ⟨rfl, rfl⟩ := h
    simp only [Node.structCount]
    omega
  case sh | wsh =>
    obtain ⟨-, -, ⟨x, s1⟩, h1, rfl, rfl⟩ := h
    have := hchild h1
    simp only [Node.structCount]
    omega
  case sha256 | hash256 | ripemd160 | hash160 =>
    obtain ⟨⟨_, s1⟩, h1, rfl, rfl⟩ := h
    have := bufferReadHexHash_length h1
    simp only [Node.structCount]
    omega
  case andor =>
    obtain ⟨⟨xs, s1⟩, h1, h⟩ := h
    split at h
    · next X Y Z _ hxs =>
      simp only [Prod.mk.injEq] at hxs
      obtain ⟨rfl, rfl⟩ := hxs
      split at h
      · simp only [Option.bind_eq_some, Option.some.injEq, Prod.mk.injEq] at h
        obtain ⟨flags, -, rfl, rfl⟩ := h
        have := parseChildScripts_structCount hchild h1
        simp only [List.map_cons, List.map_nil, List.sum_cons, List.sum_nil] at this
        simp only [Node.structCount]
        omega
      · cases h
    · cases h
  case andV | andB | andN | orB | orC | orD | orI => exact parseScript2_structCount hchild h
  case thresh =>
    obtain ⟨⟨k, s1⟩, hk, s2, hcomma, -, -, ⟨scriptlist, n, countZ, countO, s3⟩, hloop, rfl,
      rfl⟩ := h
    have := parseUnsignedDecimal_length hk
    have : s2.length + 1 = s1.length := consumeCharacter_length hcomma
    have := parseThreshScripts_structCount hchild hloop
    simp only [Node.structCount]
    omega
  case pk | pkh | pkK | pkH => exact (parseKeyNode_structCount h).trans (Nat.le_succ _)
  case wpkh | tr =>
    obtain ⟨-, -, h⟩ := h
    exact (parseKeyNode_structCount h).trans (Nat.le_succ _)
  case older | after =>
    obtain ⟨⟨n, s1⟩, h1, -, -, rfl, rfl⟩ := h
    have := parseUnsignedDecimal_length h1
    simp only [Node.structCount]
    omega
  case multi | sortedmulti => exact (parseMultisig_structCount h).trans (Nat.le_succ _)

/-- A tree read by `parse_script` has no more structs than the characters it was read from. -/
theorem parseScript_structCount :
    ∀ {fuel depth contextFlags s t r}, parseScript fuel depth contextFlags s = some (t, r) →
      t.structCount + r.length ≤ s.length
  | 0, _, _, _, _, _, h => by cases h
  | fuel + 1, depth, contextFlags, s, t, r, h => by
    unfold parseScript at h
    rcases hw : parseWrappers s with ⟨ws, s1⟩
    rcases htoken : parseToken s1 with ⟨token, s2⟩
    simp only [hw, htoken, Option.bind_eq_bind, Option.bind_eq_some, Option.guard_eq_some'] at h
    obtain ⟨s3, h3, ⟨body, s4⟩, hbody, s5, h5, -, -, t', ht, h⟩ := h
    simp only [Option.some.injEq, Prod.mk.injEq] at h
    obtain ⟨rfl, rfl⟩ := h
    -- the token switch reads nothing for an unknown token
    have hvalid : token ≠ .invalid := by
      rintro rfl
      cases hbody
    have := parseBody_structCount (fun h => parseScript_structCount h) hbody
    have := parseToken_length htoken hvalid
    have := parseWrappers_length hw
    have := consumeParenthesis_length h3
    have : s5.length ≤ s4.length := consumeParenthesis_length h5
    have : t'.structCount = body.structCount + ws.length := applyWrappers_structCount ht
    omega

theorem parsePolicyMap_structCount {s : List Char} {t : Node} (h : parsePolicyMap s = some t) :
    t.structCount ≤ s.length := by
  simp only [parsePolicyMap, Option.bind_eq_bind, Option.bind_eq_some, Option.some.injEq] at h
  obtain ⟨⟨t', r⟩, h, rfl⟩ := h
  exact Nat.le_of_add_right_le (parseScript_structCount h)

/-! ### The buffer -/

/-- The layout of a tree `parse_policy_map` reads takes at most `largest + 3` bytes per
character of its text. -/
theorem parsePolicyMap_storeEnd_le (sizes : StructSizes) {s : List Char} {t : Node}
    (h : parsePolicyMap s = some t) : storeEnd sizes 0 t ≤ (sizes.largest + 3) * s.length :=
  calc storeEnd sizes 0 t
      ≤ 0 + (sizes.largest + 3) * t.structCount := storeEnd_le_structCount 0 t
    _ ≤ (sizes.largest + 3) * s.length := by
      rw [Nat.zero_add]
      exact Nat.mul_le_mul_left _ (parsePolicyMap_structCount h)

/-- With `largest + 3` bytes of buffer per character of the text, `parse_policy_map` never runs
out of memory: it fails only on a misaligned buffer or a text the parser rejects. -/
theorem parsePolicyMapA_isSome_of_le {sizes : StructSizes} {out outLen : Nat} {s : List Char}
    (hlen : (sizes.largest + 3) * s.length ≤ outLen) :
    (parsePolicyMapA sizes out outLen s).isSome ↔ out % 4 = 0 ∧ (parsePolicyMap s).isSome := by
  rw [parsePolicyMapA_eq]
  split
  · next hout =>
    cases ht : parsePolicyMap s with
    | none => simp
    | some t =>
      have hfit : storeEnd sizes (bufferCreate outLen).offset t ≤ (bufferCreate outLen).size :=
        (parsePolicyMap_storeEnd_le sizes ht).trans hlen
      simpa [hout] using storeNode_isSome_iff.mpr hfit
  · next hout => simp [hout]

theorem pk_fits_buffer :
    (smallSizes.largest + 3) * "pk(@0)".toList.length ≤ 258 ∧
      ((parsePolicyMapA smallSizes 0 258 "pk(@0)".toList).isSome ↔
        0 % 4 = 0 ∧ (parsePolicyMap "pk(@0)".toList).isSome) :=
  ⟨by decide, parsePolicyMapA_isSome_of_le (by decide)⟩

/-! ### Well-formed policies -/

/-- `parse_policy_map` stores every well-formed policy: its canonical text, parsed into an
aligned buffer of `largest + 3` bytes per character, leaves that tree in the buffer at offset
`0`, and no other. -/
theorem parsePolicyMapA_print {sizes : StructSizes} {out outLen : Nat} {t : Node}
    (hw : WellFormed t) (hout : out % 4 = 0)
    (hlen : (sizes.largest + 3) * (t.print false).length ≤ outLen) :
    ∃ a, parsePolicyMapA sizes out outLen (t.print false) = some a ∧
      ∀ t', Stored a.heap 0 t' ↔ t' = t :=
  parsePolicyMapA_print_of_le sizes hw hout ((parsePolicyMap_storeEnd_le sizes
    (parsePolicyMap_print_of_accepted hw.accepted fun hx => (hw.fields hx).fits)).trans hlen)

theorem pkTree_wellFormed : WellFormed pkTree := by
  refine ⟨.key (.inl rfl), ?_, ?_, ?_, ?_, ?_⟩ <;> intro depth x hx <;>
    obtain ⟨rfl, rfl⟩ := hx.eq_of_children_nil rfl <;>
    simp [pkTree, Node.type, Node.children, Node.FieldsOk]

theorem pk_print_stored :
    WellFormed pkTree ∧ 0 % 4 = 0 ∧ (smallSizes.largest + 3) * (pkTree.print false).length ≤ 258 ∧
      ∃ a, parsePolicyMapA smallSizes 0 258 (pkTree.print false) = some a ∧
        ∀ t', Stored a.heap 0 t' ↔ t' = pkTree :=
  ⟨pkTree_wellFormed, rfl, by decide, parsePolicyMapA_print pkTree_wellFormed rfl (by decide)⟩

end WalletPolicy
