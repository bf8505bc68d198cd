import WalletPolicy.LexerRoundtrip

/-!
# The key-information parser

`parse_policy_map_key_info` reads one entry of a wallet's key list: an optional origin
`[fingerprint/step/...]`, the extended public key and an optional `/**`, into a
`policy_map_key_info_t`. The struct holds `MAX_BIP32_PATH_STEPS` derivation steps, with
`ext_pubkey` after them.

## Main results

`parsePolicyMapKeyInfo_valid`: every entry the parser returns has at most
`MAX_BIP32_PATH_STEPS + 1` steps, a key of 111 or 112 alphanumeric characters, and no origin
data without an origin.

`parsePolicyMapKeyInfo_keyInfoText`: every such entry the struct can hold is read back from
its canonical text `keyInfoText`.

`parsePolicyMapKeyInfo_nine_steps`: the loop checks the number of steps read so far against
`MAX_BIP32_PATH_STEPS` with `>` before it writes the next one, so a ninth step is written past
the end of the array, into `ext_pubkey`, where the key then overwrites it.

## Proof strategy

`DerivationState.ofSteps` is what the derivation loop has written once it read a list of steps:
the array, and four bytes of `ext_pubkey` for each step past its end. One write extends it by
one step (`DerivationState.writeStep_ofSteps`), and the loop reads the canonical text of the
steps into it by induction on the steps.
-/
namespace WalletPolicy

/-- Modelled from the spec: `MAX_BIP32_PATH_STEPS`, "at most 8 steps" in a key origin. -/
def maxBip32PathSteps : Nat := 8

/-- Modelled from the spec: `BIP32_FIRST_HARDENED_CHILD`, the hardened-bit mask `0x80000000`. -/
def bip32FirstHardenedChild : Nat := 0x80000000

theorem or_bip32FirstHardenedChild {n : Nat} (h : n < bip32FirstHardenedChild) :
    n ||| bip32FirstHardenedChild = n + bip32FirstHardenedChild := by
  rw [Nat.or_comm, Nat.add_comm]
  exact (Nat.mul_add_lt_is_or (show n < 2 ^ 31 from h) 1).symm

/-- `policy_map_key_info_t`. `master_key_derivation` is the array of `MAX_BIP32_PATH_STEPS`
entries; `ext_pubkey` is the string its array of characters holds, up to the `'\0'` that ends it.
In the struct `ext_pubkey` follows `master_key_derivation`. -/
structure PolicyMapKeyInfo where
  hasKeyOrigin : Bool
  masterKeyFingerprint : Mathlib.Vector UInt8 4
  masterKeyDerivationLen : Nat
  masterKeyDerivation : Mathlib.Vector Nat maxBip32PathSteps
  extPubkey : List Char
  hasWildcard : Bool
  deriving DecidableEq

/-- `bytes` written into an array of characters from index `off` on; `mem` are the characters
written to the array so far, the `memset` having left `'\0'` past them. -/
def overwrite (mem : List Char) (off : Nat) (bytes : List Char) : List Char :=
  mem.take off ++
    (List.replicate (off - mem.length) '\x00' ++ (bytes ++ mem.drop (off + bytes.length)))

/-- The string an array of characters holds: the characters before the first `'\0'`. -/
def cString (mem : List Char) : List Char := mem.takeWhile (· ≠ '\x00')

/-- The four bytes of a `uint32_t` in memory, least significant first. -/
def uint32Chars (v : Nat) : List Char :=
  [v % 256, v / 256 % 256, v / 65536 % 256, v / 16777216 % 256].map Char.ofNat

/-- The number that bytes of memory hold, least significant first. -/
def uint32OfChars (cs : List Char) : Nat := cs.foldr (fun c v => c.toNat + 256 * v) 0

/-- What the derivation loop of `parse_policy_map_key_info` writes: `master_key_derivation_len`,
the array `master_key_derivation`, and the characters it writes past the end of the array, which
are the first ones of `ext_pubkey`. -/
structure DerivationState where
  len : Nat
  derivation : Mathlib.Vector Nat maxBip32PathSteps
  pubkey : List Char
  deriving DecidableEq

/-- The state the `memset` of `parse_policy_map_key_info` leaves. -/
def DerivationState.zero : DerivationState := ⟨0, Mathlib.Vector.replicate maxBip32PathSteps 0, []⟩

/-- `master_key_derivation[master_key_derivation_len] = step`, then the increment of the length.
Past the end of the array the four bytes of the step land in `ext_pubkey`. -/
def DerivationState.writeStep (d : DerivationState) (step : Nat) : DerivationState :=
  if h : d.len < maxBip32PathSteps then ⟨d.len + 1, d.derivation.set ⟨d.len, h⟩ step, d.pubkey⟩
  else ⟨d.len + 1, d.derivation,
    overwrite d.pubkey (4 * (d.len - maxBip32PathSteps)) (uint32Chars step)⟩

/-- `buffer_read_derivation_step`: a decimal below `BIP32_FIRST_HARDENED_CHILD`, with that bit
set when a `'` follows. -/
def bufferReadDerivationStep (s : List Char) : Option (Nat × List Char) := do
  let (derStep, s) ← parseUnsignedDecimal sizeTBits s
  if derStep ≥ bip32FirstHardenedChild then none
  else
    match consumeCharacter '\'' s with
    | some s => some (derStep ||| bip32FirstHardenedChild, s)
    | none => some (derStep, s)

/-- The loop of `parse_policy_map_key_info` over the derivation steps. The length is checked
against `MAX_BIP32_PATH_STEPS` before the step is read and written. A round reads at least two
characters, so fuel beyond the length of the input never runs out (`readDerivationSteps_fuel`). -/
def readDerivationSteps : Nat → DerivationState → List Char → Option (DerivationState × List Char)
  | 0, _, _ => none
  | fuel + 1, d, s =>
    match consumeCharacter '/' s with
    | none => some (d, s)
    | some s =>
      if d.len > maxBip32PathSteps then none
      else do
        let (step, s) ← bufferReadDerivationStep s
        readDerivationSteps fuel (d.writeStep step) s

/-- The key origin of `parse_policy_map_key_info`: `has_key_origin`, the fingerprint and what the
derivation loop wrote, as the `memset` left them when the entry does not start with `[`. The
fingerprint is read by the loop of `buffer_read_hex_hash`. -/
def parseKeyOrigin (s : List Char) :
    Option (Bool × Mathlib.Vector UInt8 4 × DerivationState × List Char) :=
  match consumeCharacter '[' s with
  | none => some (false, Mathlib.Vector.replicate 4 0, .zero, s)
  | some s =>
    -- eight hex characters, then the closing bracket or a step
    if s.length < 9 then none
    else do
      let (fingerprint, s) ← readHexBytes 4 s
      let (d, s) ← readDerivationSteps (s.length + 1) .zero s
      let s ← consumeCharacter ']' s
      some (true, fingerprint, d, s)

/-- The end of `parse_policy_map_key_info`: nothing is left, or exactly `/**`, which sets
`has_wildcard`. -/
def parseWildcard : List Char → Option Bool
  | [] => some false
  | [w0, w1, w2] => if w0 = '/' ∧ w1 = '*' ∧ w2 = '*' then some true else none
  | _ => none

/-- `parse_policy_map_key_info`, `none` where it returns `-1`. `MAX_SERIALIZED_PUBKEY_LENGTH`
is not defined in `wallet.c` and is the parameter `maxSerializedPubkeyLength`. The characters of
the key and the `'\0'` after them are written over what the derivation loop left in
`ext_pubkey`. -/
def parsePolicyMapKeyInfo (maxSerializedPubkeyLength : Nat) (s : List Char) :
    Option PolicyMapKeyInfo := do
  let (hasKeyOrigin, masterKeyFingerprint, d, s) ← parseKeyOrigin s
  let (extPubkey, s) := readWhile isAlphanumeric maxSerializedPubkeyLength s
  -- pubkeys in bitcoin can be 111 or 112 characters long
  if extPubkey.length < 111 ∨ extPubkey.length > 112 then none
  else do
    let hasWildcard ← parseWildcard s
    some ⟨hasKeyOrigin, masterKeyFingerprint, d.len, d.derivation,
      cString (overwrite d.pubkey 0 (extPubkey ++ ['\x00'])), hasWildcard⟩

/-- The value a reader of `master_key_derivation[i]` gets. Past the end of the array it reads
`ext_pubkey`, which follows it, and the `'\0'` that ends the string. -/
def PolicyMapKeyInfo.derivationAt (k : PolicyMapKeyInfo) (i : Nat) : Nat :=
  if h : i < maxBip32PathSteps then k.masterKeyDerivation.get ⟨i, h⟩
  else uint32OfChars (((k.extPubkey ++ ['\x00']).drop (4 * (i - maxBip32PathSteps)) ++
    List.replicate 4 '\x00').take 4)

/-- The derivation steps of an entry, as a reader of its first `master_key_derivation_len`
entries gets them. -/
def PolicyMapKeyInfo.derivation (k : PolicyMapKeyInfo) : List Nat :=
  (List.range k.masterKeyDerivationLen).map k.derivationAt

/-! ### The entries the parser returns -/

/-- What every entry returned by `parse_policy_map_key_info` satisfies. -/
structure PolicyMapKeyInfo.Valid (maxSerializedPubkeyLength : Nat) (k : PolicyMapKeyInfo) :
    Prop where
  no_origin : k.hasKeyOrigin = false →
    k.masterKeyFingerprint = Mathlib.Vector.replicate 4 0 ∧ k.masterKeyDerivationLen = 0 ∧
      k.masterKeyDerivation = Mathlib.Vector.replicate maxBip32PathSteps 0
  derivation_length : k.masterKeyDerivationLen ≤ maxBip32PathSteps + 1
  step_lt : ∀ step ∈ k.masterKeyDerivation.toList, step < 2 * bip32FirstHardenedChild
  pubkey_length : 111 ≤ k.extPubkey.length ∧ k.extPubkey.length ≤ 112
  pubkey_fits : k.extPubkey.length ≤ maxSerializedPubkeyLength
  pubkey_alphanumeric : ∀ c ∈ k.extPubkey, isAlphanumeric c = true

/-- The characters of the key and the `'\0'` after them hide whatever was in the array. -/
theorem cString_overwrite {p : List Char} (hp : ∀ c ∈ p, isAlphanumeric c = true)
    (mem : List Char) : cString (overwrite mem 0 (p ++ ['\x00'])) = p := by
  have hne : ∀ c ∈ p, decide (c ≠ '\x00') = true := fun c hc => by
    have := hp c hc
    simp only [decide_eq_true_eq]
    rintro rfl
    exact absurd this (by decide)
  unfold cString overwrite
  rw [List.take_zero, Nat.zero_sub, List.replicate_zero, List.nil_append, List.nil_append,
    List.append_assoc, List.takeWhile_append_of_pos hne]
  simp

theorem bufferReadDerivationStep_lt {s r : List Char} {step : Nat}
    (h : bufferReadDerivationStep s = some (step, r)) : step < 2 * bip32FirstHardenedChild := by
  obtain ⟨⟨derStep, s'⟩, -, h⟩ := Option.bind_eq_some.mp h
  dsimp only at h
  split at h
  · cases h
  · have hlt : derStep < bip32FirstHardenedChild := by omega
    split at h <;> cases h
    · rw [or_bip32FirstHardenedChild hlt]; omega
    · omega

/-- The derivation loop keeps at most `MAX_BIP32_PATH_STEPS + 1` steps, every entry of the array
below `2 ^ 32`. -/
def DerivationState.Bounded (d : DerivationState) : Prop :=
  d.len ≤ maxBip32PathSteps + 1 ∧ ∀ x ∈ d.derivation.toList, x < 2 * bip32FirstHardenedChild

theorem DerivationState.Bounded.writeStep {d : DerivationState} {step : Nat} (hd : d.Bounded)
    (hlen : d.len ≤ maxBip32PathSteps) (hstep : step < 2 * bip32FirstHardenedChild) :
    (d.writeStep step).Bounded := by
  unfold DerivationState.writeStep
  split
  · refine ⟨by dsimp only; omega, fun x hx => ?_⟩
    rw [Mathlib.Vector.toList_set] at hx
    rcases List.mem_or_eq_of_mem_set hx with hx | rfl
    exacts [hd.2 x hx, hstep]
  · exact ⟨by dsimp only; omega, hd.2⟩

theorem readDerivationSteps_valid : ∀ {fuel : Nat} {d d' : DerivationState} {s r : List Char},
    readDerivationSteps fuel d s = some (d', r) → d.Bounded → d'.Bounded
  | 0, _, _, _, _, h => by cases h
  | fuel + 1, d, d', s, r, h => by
    intro hd
    simp only [readDerivationSteps] at h
    split at h
    · cases h
      exact hd
    · split at h
      · cases h
      · obtain ⟨⟨step, s''⟩, hstep, h⟩ := Option.bind_eq_some.mp h
        exact readDerivationSteps_valid h (hd.writeStep (by omega) (bufferReadDerivationStep_lt hstep))

theorem parseKeyOrigin_valid {s r : List Char} {o : Bool} {f : Mathlib.Vector UInt8 4}
    {d : DerivationState} (h : parseKeyOrigin s = some (o, f, d, r)) :
    (o = false → f = Mathlib.Vector.replicate 4 0 ∧ d = .zero) ∧ d.Bounded := by
  have hzero : DerivationState.zero.Bounded := ⟨by decide, by decide⟩
  unfold parseKeyOrigin at h
  split at h
  · cases h
    exact ⟨fun _ => ⟨rfl, rfl⟩, hzero⟩
  · split at h
    · cases h
    · obtain ⟨⟨f', s₁⟩, -, h⟩ := Option.bind_eq_some.mp h
      obtain ⟨⟨d', s₂⟩, hd, h⟩ := Option.bind_eq_some.mp h
      obtain ⟨s₃, -, h⟩ := Option.bind_eq_some.mp h
      cases h
      exact ⟨by simp, readDerivationSteps_valid hd hzero⟩

theorem parsePolicyMapKeyInfo_valid {maxSerializedPubkeyLength : Nat} {s : List Char}
    {k : PolicyMapKeyInfo} (h : parsePolicyMapKeyInfo maxSerializedPubkeyLength s = some k) :
    k.Valid maxSerializedPubkeyLength := by
  obtain ⟨⟨o, f, d, s₁⟩, horigin, h⟩ := Option.bind_eq_some.mp h
  have hread := readWhile_spec isAlphanumeric maxSerializedPubkeyLength s₁
  dsimp only at h
  split at h
  · cases h
  · obtain ⟨w, -, h⟩ := Option.bind_eq_some.mp h
    cases h
    obtain ⟨hno, hlen, hlt⟩ := parseKeyOrigin_valid horigin
    rw [cString_overwrite hread.2]
    exact ⟨fun ho => by obtain ⟨rfl, rfl⟩ := hno ho; exact ⟨rfl, rfl, rfl⟩, hlen, hlt,
      by dsimp only; omega, hread.1, hread.2⟩

/-! ### The canonical text of an entry -/

/-- A derivation step as `buffer_read_derivation_step` reads it: the index, then `'` when the
hardened bit is set. -/
def derivationStepText (step : Nat) : List Char :=
  decimal (step % bip32FirstHardenedChild) ++
    if bip32FirstHardenedChild ≤ step then ['\''] else []

def derivationText (steps : List Nat) : List Char :=
  steps.flatMap fun step => '/' :: derivationStepText step

def keyInfoText (k : PolicyMapKeyInfo) : List Char :=
  (if k.hasKeyOrigin then
    '[' :: (hex k.masterKeyFingerprint ++ (derivationText k.derivation ++ [']']))
  else []) ++ (k.extPubkey ++ if k.hasWildcard then ['/', '*', '*'] else [])

@[simp] theorem derivationText_nil : derivationText [] = [] := rfl

@[simp] theorem derivationText_cons (step : Nat) (steps : List Nat) :
    derivationText (step :: steps) =
      '/' :: (derivationStepText step ++ derivationText steps) := rfl

theorem length_le_derivationText : ∀ steps : List Nat, steps.length ≤ (derivationText steps).length
  | [] => Nat.le_refl 0
  | step :: steps => by
    have := length_le_derivationText steps
    simp only [derivationText_cons, List.length_cons, List.length_append]
    omega

theorem consumeCharacter_of_head {expected : Char} {s : List Char}
    (h : ∀ c ∈ s.head?, c ≠ expected) : consumeCharacter expected s = none := by
  rcases s with _ | ⟨c, s⟩
  · rfl
  · simp [consumeCharacter, h c rfl]

theorem bufferReadDerivationStep_derivationStepText {step : Nat} {r : List Char}
    (hstep : step < 2 * bip32FirstHardenedChild) (hr : ∀ c ∈ r.head?, c = '/' ∨ c = ']') :
    bufferReadDerivationStep (derivationStepText step ++ r) = some (step, r) := by
  have hmod : step % bip32FirstHardenedChild < bip32FirstHardenedChild := Nat.mod_lt _ (by decide)
  have hr' : ∀ c ∈ r.head?, isDigit c = false ∧ c ≠ '\'' := fun c hc => by
    rcases hr c hc with rfl | rfl <;> decide
  by_cases hh : bip32FirstHardenedChild ≤ step
  · have hdec := @parseUnsignedDecimal_decimal sizeTBits _ ('\'' :: r)
      (Nat.lt_trans hmod (by decide)) (by simp; decide)
    have hsplit : step % bip32FirstHardenedChild + bip32FirstHardenedChild = step := by
      rw [Nat.mod_eq_sub_mod hh, Nat.mod_eq_of_lt (by omega)]
      omega
    simp only [derivationStepText, if_pos hh, List.append_assoc, List.singleton_append,
      bufferReadDerivationStep, hdec, Option.bind_eq_bind, Option.some_bind,
      if_neg (Nat.not_le.mpr hmod), consumeCharacter, if_true, or_bip32FirstHardenedChild hmod,
      hsplit]
  · have hlt : step < bip32FirstHardenedChild := Nat.not_le.mp hh
    have hdec := @parseUnsignedDecimal_decimal sizeTBits _ r
      (Nat.lt_trans hlt (by decide)) fun c hc => (hr' c hc).1
    simp only [derivationStepText, if_neg hh, List.append_nil, Nat.mod_eq_of_lt hlt,
      bufferReadDerivationStep, hdec, Option.bind_eq_bind, Option.some_bind,
      if_neg (Nat.not_le.mpr hlt), consumeCharacter_of_head fun c hc => (hr' c hc).2]

/-! ### What the derivation loop writes -/

/-- The array `master_key_derivation` once `steps` are written from its start: the steps that
fit, then the zeros of the `memset`. -/
def derivationArray (steps : List Nat) : Mathlib.Vector Nat maxBip32PathSteps :=
  ⟨steps.take maxBip32PathSteps ++ List.replicate (maxBip32PathSteps - steps.length) 0, by
    simp only [List.length_append, List.length_take, List.length_replicate]; omega⟩

/-- The state of the derivation loop once it wrote `steps`: the steps past the end of the array
are in `ext_pubkey`, four bytes each. -/
def DerivationState.ofSteps (steps : List Nat) : DerivationState :=
  ⟨steps.length, derivationArray steps, (steps.drop maxBip32PathSteps).flatMap uint32Chars⟩

theorem DerivationState.ofSteps_nil : DerivationState.ofSteps [] = .zero := rfl

theorem length_uint32Chars (v : Nat) : (uint32Chars v).length = 4 := rfl

theorem length_flatMap_uint32Chars : ∀ steps : List Nat,
    (steps.flatMap uint32Chars).length = 4 * steps.length
  | [] => rfl
  | step :: steps => by
    simp only [List.flatMap_cons, List.length_append, length_flatMap_uint32Chars steps,
      List.length_cons, length_uint32Chars]
    omega

/-- A step written at index `steps.length` extends the written steps by one. -/
theorem DerivationState.writeStep_ofSteps (steps : List Nat) (step : Nat) :
    (DerivationState.ofSteps steps).writeStep step = .ofSteps (steps ++ [step]) := by
  unfold DerivationState.writeStep DerivationState.ofSteps
  split
  · next h =>
    -- below the end of the array: the step replaces the first zero of the `memset`
    obtain ⟨k, hk⟩ : ∃ k, maxBip32PathSteps - steps.length = k + 1 :=
      ⟨_, (Nat.succ_pred_eq_of_pos (Nat.sub_pos_of_lt h)).symm⟩
    have hdrop : steps.drop maxBip32PathSteps = [] := List.drop_eq_nil_of_le (by omega)
    have hdrop' : (steps ++ [step]).drop maxBip32PathSteps = [] :=
      List.drop_eq_nil_of_le (by simp only [List.length_append, List.length_singleton]; omega)
    have hk' : maxBip32PathSteps - (steps.length + 1) = k := by omega
    simp only [List.length_append, List.length_singleton, hdrop, hdrop',
      DerivationState.mk.injEq, true_and, and_true]
    apply Mathlib.Vector.toList_injective
    simp only [derivationArray, Mathlib.Vector.toList_set, Mathlib.Vector.toList_mk,
      List.take_of_length_le (Nat.le_of_lt h), hk, List.length_append, List.length_singleton,
      List.take_of_length_le (show (steps ++ [step]).length ≤ maxBip32PathSteps by
        simp only [List.length_append, List.length_singleton]; omega), hk',
      List.set_append_right _ _ (le_refl _), Nat.sub_self, List.replicate_succ,
      List.set_cons_zero, List.append_assoc, List.singleton_append]
  · next h =>
    -- past the end: the array is full and the four bytes follow the earlier ones in `ext_pubkey`
    have hle : maxBip32PathSteps ≤ steps.length := Nat.not_lt.mp h
    have hlen : ((steps.drop maxBip32PathSteps).flatMap uint32Chars).length =
        4 * (steps.length - maxBip32PathSteps) := by
      rw [length_flatMap_uint32Chars, List.length_drop]
    have harray : derivationArray (steps ++ [step]) = derivationArray steps :=
      Mathlib.Vector.toList_injective (by
        simp only [derivationArray, Mathlib.Vector.toList_mk, List.length_append,
          List.length_singleton, List.take_append_of_le_length hle,
          Nat.sub_eq_zero_of_le hle, Nat.sub_eq_zero_of_le (Nat.le_succ_of_le hle)])
    have hpubkey : overwrite ((steps.drop maxBip32PathSteps).flatMap uint32Chars)
        (4 * (steps.length - maxBip32PathSteps)) (uint32Chars step) =
        ((steps ++ [step]).drop maxBip32PathSteps).flatMap uint32Chars := by
      rw [List.drop_append_of_le_length hle, List.flatMap_append, ← hlen]
      generalize (steps.drop maxBip32PathSteps).flatMap uint32Chars = P
      simp [overwrite]
    simp only [harray, hpubkey, List.length_append, List.length_singleton]

/-- The loop reads the canonical text of the steps back, writing them after those written
before. -/
theorem readDerivationSteps_derivationText {rest : List Char} :
    ∀ (steps acc : List Nat) (fuel : Nat), acc.length + steps.length ≤ maxBip32PathSteps + 1 →
      (∀ x ∈ steps, x < 2 * bip32FirstHardenedChild) → steps.length < fuel →
      readDerivationSteps fuel (.ofSteps acc) (derivationText steps ++ ']' :: rest) =
        some (.ofSteps (acc ++ steps), ']' :: rest)
  | [], acc, fuel + 1, _, _, _ => by simp [readDerivationSteps, consumeCharacter]
  | step :: steps, acc, fuel + 1, hlen, hlt, hfuel => by
    have hnext : ∀ c ∈ (derivationText steps ++ ']' :: rest).head?, c = '/' ∨ c = ']' := by
      rcases steps with _ | ⟨_, _⟩ <;> simp
    simp only [List.length_cons, List.mem_cons, forall_eq_or_imp] at hlen hlt hfuel
    have hcheck : ¬(DerivationState.ofSteps acc).len > maxBip32PathSteps :=
      show ¬acc.length > maxBip32PathSteps by omega
    simp only [readDerivationSteps, derivationText_cons, List.cons_append, consumeCharacter,
      if_true, List.append_assoc, if_neg hcheck,
      bufferReadDerivationStep_derivationStepText hlt.1 hnext, Option.bind_eq_bind,
      Option.some_bind]
    rw [DerivationState.writeStep_ofSteps,
      readDerivationSteps_derivationText steps (acc ++ [step]) fuel (by simp; omega) hlt.2
        (by omega), List.append_assoc, List.singleton_append]

theorem parseKeyOrigin_text {f : Mathlib.Vector UInt8 4} {d : List Nat} {rest : List Char}
    (hlen : d.length ≤ maxBip32PathSteps + 1) (hlt : ∀ x ∈ d, x < 2 * bip32FirstHardenedChild) :
    parseKeyOrigin ('[' :: (hex f ++ (derivationText d ++ ']' :: rest))) =
      some (true, f, .ofSteps d, rest) := by
  have hfuel := length_le_derivationText d
  have h9 : ¬(hex f ++ (derivationText d ++ ']' :: rest)).length < 9 := by
    simp only [List.length_append, List.length_cons, hex_length]
    omega
  have hsteps := @readDerivationSteps_derivationText rest d []
    ((derivationText d ++ ']' :: rest).length + 1) (by simpa using hlen) hlt
    (by simp only [List.length_append, List.length_cons]; omega)
  rw [List.nil_append, DerivationState.ofSteps_nil] at hsteps
  simp only [parseKeyOrigin, consumeCharacter, if_true, if_neg h9, readHexBytes_hex,
    Option.bind_eq_bind, Option.some_bind, hsteps]

/-! ### The round trip -/

/-- An entry the struct can hold: at most `MAX_BIP32_PATH_STEPS` steps, the entries of
`master_key_derivation` past them zero as the `memset` left them. -/
def PolicyMapKeyInfo.InStruct (k : PolicyMapKeyInfo) : Prop :=
  k.masterKeyDerivationLen ≤ maxBip32PathSteps ∧
    ∀ x ∈ k.masterKeyDerivation.toList.drop k.masterKeyDerivationLen, x = 0

instance (k : PolicyMapKeyInfo) : Decidable k.InStruct :=
  inferInstanceAs (Decidable (_ ∧ _))

/-- The steps of an entry the struct holds are the first entries of its array, and the loop
writing them leaves the array as it is. -/
theorem PolicyMapKeyInfo.InStruct.ofSteps {k : PolicyMapKeyInfo} (hk : k.InStruct) :
    DerivationState.ofSteps k.derivation =
        ⟨k.masterKeyDerivationLen, k.masterKeyDerivation, []⟩ ∧
      ∀ x ∈ k.derivation, x ∈ k.masterKeyDerivation.toList := by
  obtain ⟨hlen, hpad⟩ := hk
  have htake : k.derivation = k.masterKeyDerivation.toList.take k.masterKeyDerivationLen := by
    apply List.ext_getElem (by simp [PolicyMapKeyInfo.derivation]; omega)
    intro i h₁ _
    have hi : i < k.masterKeyDerivationLen := by simpa [PolicyMapKeyInfo.derivation] using h₁
    simp [PolicyMapKeyInfo.derivation, PolicyMapKeyInfo.derivationAt,
      dif_pos (show i < maxBip32PathSteps by omega), Mathlib.Vector.get_eq_get]
  have hdrop : k.masterKeyDerivation.toList.drop k.masterKeyDerivationLen =
      List.replicate (maxBip32PathSteps - k.masterKeyDerivationLen) 0 :=
    List.eq_replicate_iff.mpr ⟨by simp, hpad⟩
  refine ⟨?_, fun x hx => List.mem_of_mem_take (htake ▸ hx)⟩
  have hempty : k.derivation.drop maxBip32PathSteps = [] :=
    List.drop_eq_nil_of_le (by rw [htake]; simp)
  simp only [DerivationState.ofSteps, hempty, List.flatMap_nil, DerivationState.mk.injEq,
    and_true]
  refine ⟨by rw [htake]; simp [hlen], Mathlib.Vector.toList_injective ?_⟩
  simp only [derivationArray, Mathlib.Vector.toList_mk, htake, List.length_take,
    Mathlib.Vector.toList_length, Nat.min_eq_left hlen, List.take_take, ← hdrop]
  rw [inf_eq_right.mpr hlen, List.take_append_drop]

/-- Every entry the struct can hold that `parse_policy_map_key_info` could return is read back,
with exactly its fields, from its canonical text. -/
theorem parsePolicyMapKeyInfo_keyInfoText {maxSerializedPubkeyLength : Nat}
    {k : PolicyMapKeyInfo} (hk : k.Valid maxSerializedPubkeyLength) (hin : k.InStruct) :
    parsePolicyMapKeyInfo maxSerializedPubkeyLength (keyInfoText k) = some k := by
  obtain ⟨hsteps, hmem⟩ := hin.ofSteps
  have hlen : k.derivation.length ≤ maxBip32PathSteps + 1 := by
    simpa [PolicyMapKeyInfo.derivation] using Nat.le_succ_of_le hin.1
  obtain ⟨o, f, len, array, p, w⟩ := k
  obtain ⟨hno, -, hlt, hplen, hfits, halnum⟩ := hk
  dsimp only at *
  have hwild : ∀ c ∈ (if w then ['/', '*', '*'] else []).head?, isAlphanumeric c = false := by
    cases w <;> simp
    decide
  have hread := readWhile_append halnum hwild hfits
  have horigin : parseKeyOrigin (keyInfoText ⟨o, f, len, array, p, w⟩) =
      some (o, f, ⟨len, array, []⟩, p ++ if w then ['/', '*', '*'] else []) := by
    cases o
    · obtain ⟨rfl, rfl, rfl⟩ := hno rfl
      obtain ⟨c, p, rfl⟩ : ∃ c p', p = c :: p' := List.exists_cons_of_ne_nil
        (List.ne_nil_of_length_pos (by omega))
      have hc : c ≠ '[' := fun hc => absurd (halnum c (List.mem_cons_self _ _)) (by rw [hc]; decide)
      simp [keyInfoText, parseKeyOrigin, consumeCharacter, hc, DerivationState.zero]
    · simp only [keyInfoText, if_pos (show true = true from rfl), if_true, List.cons_append,
        List.append_assoc, List.singleton_append]
      rw [parseKeyOrigin_text hlen fun x hx => hlt x (hmem x hx), hsteps, List.nil_append]
  simp only [parsePolicyMapKeyInfo, horigin, hread, Option.bind_eq_bind, Option.some_bind,
    if_neg (show ¬(p.length < 111 ∨ p.length > 112) by omega), cString_overwrite halnum]
  cases w <;> rfl

/-! ### The step bound -/

/-- The entry `parse_policy_map_key_info` returns for nine zero steps and the key `a…a`. -/
def nineStepsKeyInfo : PolicyMapKeyInfo :=
  ⟨true, ⟨[0xde, 0xad, 0xbe, 0xef], rfl⟩, maxBip32PathSteps + 1,
    Mathlib.Vector.replicate maxBip32PathSteps 0, List.replicate 111 'a', false⟩

/-- A ninth step passes the check of the length and is written one entry past the end of
`master_key_derivation`, into `ext_pubkey`; the entry is accepted with nine steps, and a reader
of the ninth one gets the characters `aaaa` of the key. -/
theorem parsePolicyMapKeyInfo_nine_steps (extra : Nat) :
    parseKeyOrigin ("[deadbeef/0/0/0/0/0/0/0/0/0]".toList ++ List.replicate 111 'a') =
        some (true, ⟨[0xde, 0xad, 0xbe, 0xef], rfl⟩,
          ⟨maxBip32PathSteps + 1, Mathlib.Vector.replicate maxBip32PathSteps 0, uint32Chars 0⟩,
          List.replicate 111 'a') ∧
      parsePolicyMapKeyInfo (111 + extra)
          ("[deadbeef/0/0/0/0/0/0/0/0/0]".toList ++ List.replicate 111 'a') =
        some nineStepsKeyInfo ∧
      nineStepsKeyInfo.derivationAt maxBip32PathSteps = 0x61616161 := by
  have htext : "[deadbeef/0/0/0/0/0/0/0/0/0]".toList =
      '[' :: (hex ⟨[0xde, 0xad, 0xbe, 0xef], rfl⟩ ++
        (derivationText (List.replicate (maxBip32PathSteps + 1) 0) ++ [']'])) := by
    decide
  have hsteps : DerivationState.ofSteps (List.replicate (maxBip32PathSteps + 1) 0) =
      ⟨maxBip32PathSteps + 1, Mathlib.Vector.replicate maxBip32PathSteps 0, uint32Chars 0⟩ := by
    decide
  have hread : readWhile isAlphanumeric (111 + extra) (List.replicate 111 'a') =
      (List.replicate 111 'a', []) := by
    simpa using @readWhile_append isAlphanumeric (List.replicate 111 'a') []
      (by simp [List.mem_replicate]; decide) (by simp) (111 + extra) (by simp)
  rw [htext, List.cons_append, List.append_assoc, List.append_assoc, List.singleton_append]
  have horigin := @parseKeyOrigin_text ⟨[0xde, 0xad, 0xbe, 0xef], rfl⟩
    (List.replicate (maxBip32PathSteps + 1) 0) (List.replicate 111 'a') (by decide) (by decide)
  have halnum : ∀ c ∈ List.replicate 111 'a', isAlphanumeric c = true := fun c hc => by
    rw [List.eq_of_mem_replicate hc]
    decide
  rw [hsteps] at horigin
  refine ⟨horigin, ?_, by decide⟩
  simp only [parsePolicyMapKeyInfo, horigin, hread, Option.bind_eq_bind, Option.some_bind,
    List.length_replicate, if_neg (show ¬(111 < 111 ∨ 111 > 112) by decide), parseWildcard,
    cString_overwrite halnum, nineStepsKeyInfo]

/-! ### The entry of the spec's example -/

/-- `[deadbeef/84'/0'/0']` followed by the extended public key of the first BIP32 test vector
and `/**`. -/
def exampleKeyInfo : PolicyMapKeyInfo :=
  ⟨true, ⟨[0xde, 0xad, 0xbe, 0xef], rfl⟩, 3,
    ⟨[84 + bip32FirstHardenedChild, bip32FirstHardenedChild, bip32FirstHardenedChild,
      0, 0, 0, 0, 0], rfl⟩,
    ("xpub661MyMwAqRbcFtXgS5sYJABqqG9YLmC4Q1Rdap9gSE8NqtwybGhePY2gZ29ESFjqJoCu1Rupje8YtGqsefD2" ++
      "65TMg7usUDFdp6W1EGMcet8").toList, true⟩

set_option maxRecDepth 4000 in
theorem exampleKeyInfo_parse_valid :
    parsePolicyMapKeyInfo 112
        ("[deadbeef/84'/0'/0']xpub661MyMwAqRbcFtXgS5sYJABqqG9YLmC4Q1Rdap9gSE8NqtwybGhePY2gZ29ES" ++
          "FjqJoCu1Rupje8YtGqsefD265TMg7usUDFdp6W1EGMcet8/**").toList = some exampleKeyInfo ∧
      exampleKeyInfo.Valid 112 :=
  have h : parsePolicyMapKeyInfo 112
      ("[deadbeef/84'/0'/0']xpub661MyMwAqRbcFtXgS5sYJABqqG9YLmC4Q1Rdap9gSE8NqtwybGhePY2gZ29ES" ++
        "FjqJoCu1Rupje8YtGqsefD265TMg7usUDFdp6W1EGMcet8/**").toList = some exampleKeyInfo := by
    decide
  ⟨h, parsePolicyMapKeyInfo_valid h⟩

theorem exampleKeyInfo_round_trip :
    exampleKeyInfo.Valid 112 ∧ exampleKeyInfo.InStruct ∧
      parsePolicyMapKeyInfo 112 (keyInfoText exampleKeyInfo) = some exampleKeyInfo :=
  have hv : exampleKeyInfo.Valid 112 :=
    ⟨by decide, by decide, by decide, by decide, by decide, by decide⟩
  have hin : exampleKeyInfo.InStruct := by decide
  ⟨hv, hin, parsePolicyMapKeyInfo_keyInfoText hv hin⟩

end WalletPolicy
