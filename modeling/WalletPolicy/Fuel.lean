import WalletPolicy.BufferSize

/-!
# The fuel of the parser

`parse_script` recurses into its children, and its thresh and multisig cases loop over the
text, with no bound but the text itself. The model gives the recursion and the two loops a fuel,
`parsePolicyMap` the length of the text plus one. Every recursive call reads a token and a
parenthesis first, and every pass of a loop reads a child or a key index, so the fuel is never
what ends a parse: any fuel above the length of the text gives the same result, which is then
the result of the unbounded recursion of the C code, and the depth of that recursion is at most
the length of the text.

## Main results

`parseScript_fuel`: `parseScript` gives the same result for every fuel above the length of the
text.

`readDerivationSteps_fuel`: so does the derivation loop of `parse_policy_map_key_info`.

## Proof strategy

Induction on the fuel. The token switch gets the same result from two child parsers that agree
on every text no longer than its own (`parseBody_congr`), and the loops get the same result from
any two fuels above the length of what they read, since each pass reads at least one character.
-/
namespace WalletPolicy

theorem Node.structCount_pos (t : Node) : 0 < t.structCount := by
  cases t <;> simp only [Node.structCount] <;> omega

/-- A script `parse_script` reads is at least one character long. -/
theorem parseScript_length {fuel depth contextFlags : Nat} {s t : List Char} {x : Node}
    (h : parseScript fuel depth contextFlags s = some (x, t)) : t.length < s.length := by
  have := parseScript_structCount h
  have := x.structCount_pos
  omega

section
variable {child child' : List Char → Option (Node × List Char)} {B : Nat}

theorem parseChildScripts_congr (hagree : ∀ s, s.length ≤ B → child' s = child s)
    (hcons : ∀ {s x r}, child s = some (x, r) → r.length < s.length) :
    ∀ {k s}, s.length ≤ B → parseChildScripts child' k s = parseChildScripts child k s
  | 0, _, _ => rfl
  | 1, s, hs => by simp only [parseChildScripts, hagree s hs]
  | k + 2, s, hs => by
    simp only [parseChildScripts, hagree s hs, Option.bind_eq_bind]
    cases h : child s with
    | none => rfl
    | some p =>
      obtain ⟨x, r⟩ := p
      have := hcons h
      simp only [Option.some_bind]
      cases h2 : consumeCharacter ',' r with
      | none => rfl
      | some r2 =>
        have := consumeCharacter_length h2
        simp only [Option.some_bind,
          parseChildScripts_congr hagree hcons (by omega : r2.length ≤ B)]

/-- Each pass of the thresh loop reads a child and a comma. -/
theorem parseThreshScripts_fuel (hagree : ∀ s, s.length ≤ B → child' s = child s)
    (hcons : ∀ {s x r}, child s = some (x, r) → r.length < s.length) :
    ∀ {fuel fuel' n countZ countO s}, s.length < fuel → fuel ≤ fuel' → s.length ≤ B →
      parseThreshScripts child' fuel' n countZ countO s =
        parseThreshScripts child fuel n countZ countO s
  | 0, _, _, _, _, _, hs, _, _ => absurd hs (Nat.not_lt_zero _)
  | _ + 1, 0, _, _, _, _, _, hle, _ => absurd hle (Nat.not_succ_le_zero _)
  | fuel + 1, fuel' + 1, n, countZ, countO, s, hs, hle, hB => by
    simp only [parseThreshScripts, hagree s hB, Option.bind_eq_bind]
    cases h : child s with
    | none => rfl
    | some p =>
      obtain ⟨x, r⟩ := p
      have := hcons h
      simp only [Option.some_bind]
      rcases x.flags with _ | X
      · rfl
      · cases h2 : consumeCharacter ',' r with
        | none => rfl
        | some r2 =>
          have := consumeCharacter_length h2
          simp only [parseThreshScripts_fuel hagree hcons (by omega : r2.length < fuel)
            (by omega : fuel ≤ fuel') (by omega : r2.length ≤ B)]

end

/-- Each pass of the key loop reads a comma and a key index. -/
theorem parseMultisigKeys_fuel : ∀ {fuel fuel' n s}, s.length < fuel → fuel ≤ fuel' →
    parseMultisigKeys fuel' n s = parseMultisigKeys fuel n s
  | 0, _, _, _, hs, _ => absurd hs (Nat.not_lt_zero _)
  | _ + 1, 0, _, _, _, hle => absurd hle (Nat.not_succ_le_zero _)
  | fuel + 1, fuel' + 1, n, s, hs, hle => by
    simp only [parseMultisigKeys, Option.bind_eq_bind]
    split
    · rfl
    · cases h1 : consumeCharacter ',' s with
      | none => rfl
      | some s1 =>
        have := consumeCharacter_length h1
        simp only [Option.some_bind]
        cases hk : parseKeyIndex s1 with
        | none => rfl
        | some p =>
          obtain ⟨keyIndex, s2⟩ := p
          have := parseKeyIndex_length hk
          simp only [Option.some_bind,
            parseMultisigKeys_fuel (by omega : s2.length < fuel) (by omega : fuel ≤ fuel')]

/-- The token switch reads the same with two child parsers that agree on every text no longer
than its own, and with any two fuels above its length. -/
theorem parseBody_congr {child child' : Nat → List Char → Option (Node × List Char)}
    {fuel fuel' depth contextFlags : Nat} {token : PolicyNodeType} {s : List Char}
    (hs : s.length < fuel) (hle : fuel ≤ fuel')
    (hagree : ∀ c s', s'.length ≤ s.length → child' c s' = child c s')
    (hcons : ∀ {c s' x r}, child c s' = some (x, r) → r.length < s'.length) :
    parseBody child' fuel' depth contextFlags token s =
      parseBody child fuel depth contextFlags token s := by
  have hchildren : ∀ k, parseChildScripts (child' 0) k s = parseChildScripts (child 0) k s :=
    fun _ => parseChildScripts_congr (hagree 0) hcons le_rfl
  unfold parseBody
  cases token
  case sh | wsh => simp only [hagree _ s le_rfl]
  case andor => simp only [hchildren]
  case andV | andB | andN | orB | orC | orD | orI => simp only [parseScript2, hchildren]
  case thresh =>
    simp only [Option.bind_eq_bind]
    cases hk : parseUnsignedDecimal sizeTBits s with
    | none => rfl
    | some p =>
      obtain ⟨k, s1⟩ := p
      have := parseUnsignedDecimal_length hk
      simp only [Option.some_bind]
      cases h2 : consumeCharacter ',' s1 with
      | none => rfl
      | some s2 =>
        have := consumeCharacter_length h2
        simp only [Option.some_bind, parseThreshScripts_fuel (hagree 0) hcons
          (by omega : s2.length < fuel) hle (by omega : s2.length ≤ s.length)]
  case multi | sortedmulti =>
    simp only [parseMultisig, Option.bind_eq_bind]
    cases hk : parseUnsignedDecimal sizeTBits s with
    | none => simp only [Option.none_bind, Option.bind_none]
    | some p =>
      obtain ⟨k, s1⟩ := p
      have := parseUnsignedDecimal_length hk
      simp only [Option.some_bind, parseMultisigKeys_fuel (by omega : s1.length < fuel) hle]
  all_goals rfl

/-- `parseScript` gives the same result for every fuel above the length of the text: the fuel
`parsePolicyMap` gives it never runs out, and the recursion of `parse_script` and its loops
end within the text whatever the fuel. -/
theorem parseScript_fuel : ∀ {fuel fuel' depth contextFlags : Nat} {s : List Char},
    s.length < fuel → fuel ≤ fuel' →
      parseScript fuel' depth contextFlags s = parseScript fuel depth contextFlags s
  | 0, _, _, _, _, hs, _ => absurd hs (Nat.not_lt_zero _)
  | _ + 1, 0, _, _, _, _, hle => absurd hle (Nat.not_succ_le_zero _)
  | fuel + 1, fuel' + 1, depth, contextFlags, s, hs, hle => by
    simp only [parseScript, Option.bind_eq_bind]
    rcases hw : parseWrappers s with ⟨ws, s1⟩
    rcases ht : parseToken s1 with ⟨token, s2⟩
    by_cases hvalid : token = .invalid
    · subst hvalid
      rfl
    have := parseWrappers_length hw
    have := parseToken_length ht hvalid
    cases h3 : consumeParenthesis (token ≠ .zero && token ≠ .one) '(' s2 with
    | none => rfl
    | some s3 =>
      have := consumeParenthesis_length h3
      have hagree : ∀ c s', s'.length ≤ s3.length →
          parseScript fuel' (depth + 1) c s' = parseScript fuel (depth + 1) c s' :=
        fun _ _ _ => parseScript_fuel (by omega) (by omega)
      simp only [Option.some_bind]
      rw [parseBody_congr (by omega : s3.length < fuel) (by omega : fuel ≤ fuel') hagree
        (fun h => parseScript_length h)]

theorem pk_fuel :
    ("pk(@0)".toList.length < 7 ∧ 7 ≤ 100) ∧
      parseScript 100 0 0 "pk(@0)".toList = parseScript 7 0 0 "pk(@0)".toList :=
  ⟨⟨by decide, by decide⟩, parseScript_fuel (by decide) (by decide)⟩

/-! ### The derivation loop of the key-information parser -/

/-- `buffer_read_derivation_step` reads at least one digit. -/
theorem bufferReadDerivationStep_length {s r : List Char} {step : Nat}
    (h : bufferReadDerivationStep s = some (step, r)) : r.length < s.length := by
  obtain ⟨⟨derStep, s'⟩, hdec, h⟩ := Option.bind_eq_some.mp h
  have := parseUnsignedDecimal_length hdec
  dsimp only at h
  split at h
  · cases h
  · split at h <;> cases h
    · next h' =>
      have := consumeCharacter_length h'
      omega
    · omega

/-- Each round of the derivation loop reads a `/` and a step: `parseKeyOrigin`'s fuel of the
length of the text plus one gives the same result as any larger fuel. -/
theorem readDerivationSteps_fuel : ∀ {fuel fuel' : Nat} {d : DerivationState} {s : List Char},
    s.length < fuel → fuel ≤ fuel' → readDerivationSteps fuel' d s = readDerivationSteps fuel d s
  | 0, _, _, _, hs, _ => absurd hs (Nat.not_lt_zero _)
  | _ + 1, 0, _, _, _, hle => absurd hle (Nat.not_succ_le_zero _)
  | fuel + 1, fuel' + 1, d, s, hs, hle => by
    simp only [readDerivationSteps, Option.bind_eq_bind]
    rcases h1 : consumeCharacter '/' s with _ | s1
    · rfl
    have := consumeCharacter_length h1
    simp only
    split
    · rfl
    rcases hstep : bufferReadDerivationStep s1 with _ | ⟨step, s2⟩
    · rfl
    have := bufferReadDerivationStep_length hstep
    simp only [Option.some_bind,
      readDerivationSteps_fuel (by omega : s2.length < fuel) (by omega : fuel ≤ fuel')]

end WalletPolicy
