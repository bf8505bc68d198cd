import Mathlib

/-!
# The wallet header

`read_policy_map_wallet` decodes the header of a policy-map wallet, and `get_policy_wallet_id`
hashes the header's fields as the wallet id; `walletIdPreimage` is the byte string it hashes.
Every valid header is read back from those bytes (`readPolicyMapWallet_walletIdPreimage`).
Conversely the bytes a successful read consumes are the preimage except for its two varints,
which may be in any form `buffer_read_varint` accepts, the policy length being narrowed to 16
bits before it is checked; they are the preimage exactly when both varints are in their
shortest form and the length is below `2 ^ 16` (`readPolicyMapWallet_consumed`). The preimage
determines the valid header it is built from, so two different valid headers share a wallet id
only through a collision of SHA-256 (`getPolicyWalletId_collision`).
-/
namespace WalletPolicy

/-! ### Buffer primitives -/

/-- Modelled from the spec: `buffer_read_u8`. -/
def bufferReadU8 : List UInt8 → Option (UInt8 × List UInt8)
  | b :: s => some (b, s)
  | [] => none

/-- Modelled from the spec: `buffer_read_bytes`, exactly `n` bytes. -/
def bufferReadBytes (n : Nat) (s : List UInt8) : Option (List UInt8 × List UInt8) :=
  if s.length < n then none else some (s.take n, s.drop n)

/-- The value of the next `n` bytes, least significant first. -/
def readLittleEndian : Nat → List UInt8 → Option (Nat × List UInt8)
  | 0, s => some (0, s)
  | n + 1, b :: s => (readLittleEndian n s).map fun (v, rest) => (b.toNat + 256 * v, rest)
  | _ + 1, [] => none

/-- Modelled from the spec: `buffer_read_varint`, "one byte, or prefix `0xFD`/`0xFE`/`0xFF`
then 2/4/8 little-endian bytes". -/
def bufferReadVarint : List UInt8 → Option (Nat × List UInt8)
  | [] => none
  | tag :: s =>
    if tag = 0xFD then readLittleEndian 2 s
    else if tag = 0xFE then readLittleEndian 4 s
    else if tag = 0xFF then readLittleEndian 8 s
    else some (tag.toNat, s)

/-- The `n` bytes of `v` modulo `256 ^ n`, least significant first. -/
def littleEndianBytes : Nat → Nat → List UInt8
  | 0, _ => []
  | n + 1, v => UInt8.ofNat v :: littleEndianBytes n (v / 256)

/-- Modelled from the spec: the bytes `crypto_hash_update_varint` hashes, the varint of `v` in
its shortest form. -/
def varintBytes (v : Nat) : List UInt8 :=
  if v < 0xFD then [UInt8.ofNat v]
  else if v ≤ 0xFFFF then 0xFD :: littleEndianBytes 2 v
  else if v ≤ 0xFFFFFFFF then 0xFE :: littleEndianBytes 4 v
  else 0xFF :: littleEndianBytes 8 v

/-! ### The header -/

/-- Modelled from the spec: `WALLET_TYPE_POLICY_MAP`, the policy-map discriminant 2. -/
def walletTypePolicyMap : UInt8 := 2

/-- Modelled from the spec: `MAX_WALLET_NAME_LENGTH`, names of at most 64 bytes. -/
def maxWalletNameLength : Nat := 64

/-- Modelled from the spec: `MAX_POLICY_MAP_STR_LENGTH`, the default limit of 74 bytes. -/
def maxPolicyMapStrLength : Nat := 74

/-- `policy_map_wallet_header_t`; `name` and `policyMap` are the bytes read into the arrays
`name` and `policy_map`. -/
structure PolicyMapWalletHeader where
  type : UInt8
  nameLen : UInt8
  name : List UInt8
  policyMapLen : UInt16
  policyMap : List UInt8
  nKeys : UInt16
  keysInfoMerkleRoot : List UInt8
  deriving DecidableEq

/-- A buffer read, failing with the error code its caller returns. -/
def orThrow {α : Type} (code : Int) : Option α → Except Int α
  | some a => .ok a
  | none => .error code

/-- A check of `read_policy_map_wallet`, failing with `code` when `c` holds. -/
def failIf (c : Prop) [Decidable c] (code : Int) : Except Int Unit :=
  if c then .error code else .ok ()

/-- `read_policy_map_wallet`: the header and the bytes after it, or the C function's error
code. -/
def readPolicyMapWallet (buf : List UInt8) : Except Int (PolicyMapWalletHeader × List UInt8) := do
  let (type, buf) ← orThrow (-1) (bufferReadU8 buf)
  failIf (type ≠ walletTypePolicyMap) (-2)
  let (nameLen, buf) ← orThrow (-3) (bufferReadU8 buf)
  failIf (nameLen.toNat > maxWalletNameLength) (-4)
  let (name, buf) ← orThrow (-5) (bufferReadBytes nameLen.toNat buf)
  let (policyMapLen, buf) ← orThrow (-6) (bufferReadVarint buf)
  -- the 64-bit value is narrowed to the 16-bit field before the bound is checked
  let policyMapLen := UInt16.ofNat policyMapLen
  failIf (policyMapLen.toNat > maxPolicyMapStrLength) (-7)
  let (policyMap, buf) ← orThrow (-8) (bufferReadBytes policyMapLen.toNat buf)
  let (nKeys, buf) ← orThrow (-9) (bufferReadVarint buf)
  failIf (nKeys > 252) (-9)
  let (keysInfoMerkleRoot, buf) ← orThrow (-10) (bufferReadBytes 32 buf)
  pure (⟨type, nameLen, name, policyMapLen, policyMap, UInt16.ofNat nKeys, keysInfoMerkleRoot⟩,
    buf)

/-- The bytes `get_policy_wallet_id` feeds to SHA-256, in order. -/
def walletIdPreimage (h : PolicyMapWalletHeader) : List UInt8 :=
  h.type :: h.nameLen :: (h.name.take h.nameLen.toNat ++ (varintBytes h.policyMapLen.toNat ++
    (h.policyMap.take h.policyMapLen.toNat ++ (varintBytes h.nKeys.toNat ++
      h.keysInfoMerkleRoot.take 32))))

/-- `get_policy_wallet_id`, for the SHA-256 implementation `sha256`, which `wallet.c` does not
contain. -/
def getPolicyWalletId (sha256 : List UInt8 → Mathlib.Vector UInt8 32)
    (h : PolicyMapWalletHeader) : Mathlib.Vector UInt8 32 :=
  sha256 (walletIdPreimage h)

/-- The headers `read_policy_map_wallet` returns: the bounds it checks, with fields of the
lengths it read. -/
structure PolicyMapWalletHeader.Valid (h : PolicyMapWalletHeader) : Prop where
  type_eq : h.type = walletTypePolicyMap
  name_len_le : h.nameLen.toNat ≤ maxWalletNameLength
  name_length : h.name.length = h.nameLen.toNat
  policy_map_len_le : h.policyMapLen.toNat ≤ maxPolicyMapStrLength
  policy_map_length : h.policyMap.length = h.policyMapLen.toNat
  n_keys_le : h.nKeys.toNat ≤ 252
  root_length : h.keysInfoMerkleRoot.length = 32

/-! ### The error monad of the reader -/

@[simp] theorem except_ok_bind {α β : Type} (a : α) (f : α → Except Int β) :
    (Except.ok a >>= f) = f a := rfl

@[simp] theorem except_map_ok {α β : Type} (a : α) (f : α → β) :
    (f <$> (Except.ok a : Except Int α)) = .ok (f a) := rfl

theorem except_bind_eq_ok {α β : Type} {x : Except Int α} {f : α → Except Int β} {b : β} :
    x >>= f = .ok b ↔ ∃ a, x = .ok a ∧ f a = .ok b := by
  cases x <;> simp [bind, Except.bind]

@[simp] theorem orThrow_eq_ok {α : Type} {code : Int} {o : Option α} {a : α} :
    orThrow code o = .ok a ↔ o = some a := by
  cases o <;> simp [orThrow]

@[simp] theorem failIf_eq_ok {c : Prop} [Decidable c] {code : Int} {u : Unit} :
    failIf c code = .ok u ↔ ¬c := by
  unfold failIf
  split <;> simp_all

/-! ### Reading the preimage -/

theorem toNat_uInt8_ofNat (v : Nat) : (UInt8.ofNat v).toNat = v % 256 := rfl

theorem toNat_uInt16_ofNat (v : Nat) : (UInt16.ofNat v).toNat = v % 65536 := rfl

theorem uInt16_ofNat_toNat (x : UInt16) : UInt16.ofNat x.toNat = x :=
  UInt16.toNat.inj (by rw [toNat_uInt16_ofNat]; exact Nat.mod_eq_of_lt x.toNat_lt_size)

theorem uInt16_toNat_lt (x : UInt16) : x.toNat < 2 ^ 64 :=
  x.toNat_lt_size.trans (by decide)

theorem readLittleEndian_littleEndianBytes (s : List UInt8) :
    ∀ n v, readLittleEndian n (littleEndianBytes n v ++ s) = some (v % 256 ^ n, s)
  | 0, v => by simp [readLittleEndian, littleEndianBytes, Nat.mod_one]
  | n + 1, v => by
    simp only [littleEndianBytes, List.cons_append, List.append_eq, readLittleEndian,
      readLittleEndian_littleEndianBytes s n, Option.map_some', toNat_uInt8_ofNat,
      Nat.pow_succ', Nat.mod_mul]

theorem bufferReadVarint_varintBytes {v : Nat} (hv : v < 2 ^ 64) (s : List UInt8) :
    bufferReadVarint (varintBytes v ++ s) = some (v, s) := by
  unfold varintBytes
  split
  · have hb : (UInt8.ofNat v).toNat = v := by rw [toNat_uInt8_ofNat]; omega
    have hbyte : UInt8.ofNat v ≠ 0xFD ∧ UInt8.ofNat v ≠ 0xFE ∧ UInt8.ofNat v ≠ 0xFF := by
      refine ⟨?_, ?_, ?_⟩ <;> intro h <;> rw [h] at hb
      exacts [absurd hb (by change ¬253 = v; omega), absurd hb (by change ¬254 = v; omega),
        absurd hb (by change ¬255 = v; omega)]
    simp only [List.singleton_append, bufferReadVarint, if_neg hbyte.1, if_neg hbyte.2.1,
      if_neg hbyte.2.2, hb]
  split
  · have hmod : v % 256 ^ 2 = v := Nat.mod_eq_of_lt (by omega)
    simp only [List.cons_append, bufferReadVarint, if_pos rfl, if_true,
      readLittleEndian_littleEndianBytes, hmod]
  split
  · have hmod : v % 256 ^ 4 = v := Nat.mod_eq_of_lt (by omega)
    simp only [List.cons_append, bufferReadVarint, if_neg (by decide : (0xFE : UInt8) ≠ 0xFD),
      if_pos rfl, if_true, readLittleEndian_littleEndianBytes, hmod]
  · have hmod : v % 256 ^ 8 = v := Nat.mod_eq_of_lt (by omega)
    simp only [List.cons_append, bufferReadVarint, if_neg (by decide : (0xFF : UInt8) ≠ 0xFD),
      if_neg (by decide : (0xFF : UInt8) ≠ 0xFE), if_pos rfl, if_true, readLittleEndian_littleEndianBytes,
      hmod]

theorem bufferReadBytes_append {n : Nat} {l : List UInt8} (hl : l.length = n) (s : List UInt8) :
    bufferReadBytes n (l ++ s) = some (l, s) := by
  simp [bufferReadBytes, ← hl]

theorem readPolicyMapWallet_walletIdPreimage {h : PolicyMapWalletHeader} (hv : h.Valid)
    (r : List UInt8) : readPolicyMapWallet (walletIdPreimage h ++ r) = .ok (h, r) := by
  obtain ⟨type, nameLen, name, policyMapLen, policyMap, nKeys, root⟩ := h
  obtain ⟨rfl, hname, hnameLen, hpolicy, hpolicyLen, hkeys, hroot⟩ := hv
  dsimp only at *
  have hpolicy' : policyMapLen.toNat < 2 ^ 64 := Nat.lt_of_le_of_lt hpolicy (by decide)
  have hkeys' : nKeys.toNat < 2 ^ 64 := Nat.lt_of_le_of_lt hkeys (by decide)
  simp only [readPolicyMapWallet, orThrow, bufferReadU8, walletIdPreimage,
    List.take_of_length_le (Nat.le_of_eq hnameLen), List.take_of_length_le (Nat.le_of_eq hpolicyLen),
    List.take_of_length_le (Nat.le_of_eq hroot), List.cons_append, List.append_assoc, failIf, ne_eq,
    ite_not, gt_iff_lt, bind_pure_comp, except_ok_bind, ↓reduceIte, Nat.not_lt.mpr hname,
    bufferReadBytes_append hnameLen, bufferReadVarint_varintBytes hpolicy', uInt16_ofNat_toNat,
    Nat.not_lt.mpr hpolicy, bufferReadBytes_append hpolicyLen, bufferReadVarint_varintBytes hkeys',
    Nat.not_lt.mpr hkeys, bufferReadBytes_append hroot, Except.map_ok]

/-! ### What a successful read consumed -/

/-- The byte strings `buffer_read_varint` reads as `v`, whatever follows them. -/
def VarintEncoding (e : List UInt8) (v : Nat) : Prop :=
  ∀ s, bufferReadVarint (e ++ s) = some (v, s)

theorem bufferReadU8_eq_some {s r : List UInt8} {b : UInt8} (h : bufferReadU8 s = some (b, r)) :
    s = b :: r := by
  rcases s with _ | ⟨b', s⟩ <;> cases h
  rfl

theorem bufferReadBytes_eq_some {n : Nat} {s l r : List UInt8}
    (h : bufferReadBytes n s = some (l, r)) : s = l ++ r ∧ l.length = n := by
  unfold bufferReadBytes at h
  split at h
  · cases h
  · cases h
    exact ⟨(List.take_append_drop n s).symm, by simp; omega⟩

theorem readLittleEndian_eq_some : ∀ {n : Nat} {s r : List UInt8} {v : Nat},
    readLittleEndian n s = some (v, r) →
      ∃ e, s = e ++ r ∧ ∀ s', readLittleEndian n (e ++ s') = some (v, s')
  | 0, s, r, v, h => by
    cases h
    exact ⟨[], rfl, fun _ => rfl⟩
  | n + 1, b :: s, r, v, h => by
    obtain ⟨⟨v', r'⟩, hread, hv⟩ := Option.map_eq_some'.mp h
    cases hv
    obtain ⟨e, rfl, he⟩ := readLittleEndian_eq_some hread
    exact ⟨b :: e, rfl, fun s' => by simp [readLittleEndian, he]⟩
  | _ + 1, [], _, _, h => by cases h

theorem bufferReadVarint_eq_some {s r : List UInt8} {v : Nat}
    (h : bufferReadVarint s = some (v, r)) : ∃ e, s = e ++ r ∧ VarintEncoding e v := by
  rcases s with _ | ⟨tag, s⟩
  · cases h
  simp only [bufferReadVarint] at h
  split at h
  next h253 =>
    obtain ⟨e, rfl, he⟩ := readLittleEndian_eq_some h
    exact ⟨tag :: e, rfl, fun s' => by simp [bufferReadVarint, h253, he]⟩
  split at h
  next h253 h254 =>
    obtain ⟨e, rfl, he⟩ := readLittleEndian_eq_some h
    exact ⟨tag :: e, rfl, fun s' => by simp [bufferReadVarint, h253, h254, he]⟩
  split at h
  next h253 h254 h255 =>
    obtain ⟨e, rfl, he⟩ := readLittleEndian_eq_some h
    exact ⟨tag :: e, rfl, fun s' => by simp [bufferReadVarint, h253, h254, h255, he]⟩
  next h253 h254 h255 =>
    cases h
    exact ⟨[tag], rfl, fun s' => by simp [bufferReadVarint, h253, h254, h255]⟩

/-- Bytes laid out as a successful read consumes them are the preimage of the header exactly
when both varints are in their shortest form and the policy length fits in 16 bits. -/
theorem consumed_eq_walletIdPreimage_iff {h : PolicyMapWalletHeader} (hv : h.Valid)
    {e₁ e₂ r : List UInt8} {v₁ : Nat} (he₁ : VarintEncoding e₁ v₁)
    (hv₁ : UInt16.ofNat v₁ = h.policyMapLen) (he₂ : VarintEncoding e₂ h.nKeys.toNat) :
    h.type :: h.nameLen :: (h.name ++ (e₁ ++ (h.policyMap ++ (e₂ ++
        (h.keysInfoMerkleRoot ++ r))))) = walletIdPreimage h ++ r ↔
      e₁ = varintBytes v₁ ∧ v₁ < 2 ^ 16 ∧ e₂ = varintBytes h.nKeys.toNat := by
  obtain ⟨type, nameLen, name, policyMapLen, policyMap, nKeys, root⟩ := h
  obtain ⟨-, -, hname, -, hpolicy, -, hroot⟩ := hv
  dsimp only at *
  simp only [walletIdPreimage, List.take_of_length_le (Nat.le_of_eq hname),
    List.take_of_length_le (Nat.le_of_eq hpolicy), List.take_of_length_le (Nat.le_of_eq hroot),
    List.cons_append, List.append_assoc, List.cons.injEq, true_and, List.append_cancel_left_eq]
  constructor
  · intro heq
    -- `buffer_read_varint` reads the same value and rest from both sides
    have h₁ := he₁ (policyMap ++ (e₂ ++ (root ++ r)))
    rw [heq, bufferReadVarint_varintBytes (uInt16_toNat_lt _)] at h₁
    obtain ⟨hlen, hrest⟩ := Prod.mk.inj (Option.some.inj h₁)
    rw [← hrest] at heq
    exact ⟨(List.append_cancel_right heq).trans (congrArg varintBytes hlen),
      by rw [← hlen]; exact policyMapLen.toNat_lt_size,
      (List.append_cancel_right (List.append_cancel_left hrest)).symm⟩
  · rintro ⟨rfl, hlt, rfl⟩
    have : policyMapLen.toNat = v₁ := by
      rw [← hv₁, toNat_uInt16_ofNat]
      exact Nat.mod_eq_of_lt hlt
    rw [this]

theorem readPolicyMapWallet_consumed {buf r : List UInt8} {h : PolicyMapWalletHeader}
    (hread : readPolicyMapWallet buf = .ok (h, r)) :
    h.Valid ∧ ∃ e₁ v₁ e₂, VarintEncoding e₁ v₁ ∧ UInt16.ofNat v₁ = h.policyMapLen ∧
      VarintEncoding e₂ h.nKeys.toNat ∧
      buf = h.type :: h.nameLen :: (h.name ++ (e₁ ++ (h.policyMap ++ (e₂ ++
        (h.keysInfoMerkleRoot ++ r))))) ∧
      (buf = walletIdPreimage h ++ r ↔
        e₁ = varintBytes v₁ ∧ v₁ < 2 ^ 16 ∧ e₂ = varintBytes h.nKeys.toNat) := by
  obtain ⟨⟨type, buf₁⟩, h₁, hread⟩ := except_bind_eq_ok.mp hread
  obtain ⟨_, h₂, hread⟩ := except_bind_eq_ok.mp hread
  obtain ⟨⟨nameLen, buf₂⟩, h₃, hread⟩ := except_bind_eq_ok.mp hread
  obtain ⟨_, h₄, hread⟩ := except_bind_eq_ok.mp hread
  obtain ⟨⟨name, buf₃⟩, h₅, hread⟩ := except_bind_eq_ok.mp hread
  obtain ⟨⟨v₁, buf₄⟩, h₆, hread⟩ := except_bind_eq_ok.mp hread
  obtain ⟨_, h₇, hread⟩ := except_bind_eq_ok.mp hread
  obtain ⟨⟨policyMap, buf₅⟩, h₈, hread⟩ := except_bind_eq_ok.mp hread
  obtain ⟨⟨nKeys, buf₆⟩, h₉, hread⟩ := except_bind_eq_ok.mp hread
  obtain ⟨_, h₁₀, hread⟩ := except_bind_eq_ok.mp hread
  obtain ⟨⟨root, buf₇⟩, h₁₁, hread⟩ := except_bind_eq_ok.mp hread
  cases hread
  obtain rfl := bufferReadU8_eq_some (orThrow_eq_ok.mp h₁)
  obtain rfl := bufferReadU8_eq_some (orThrow_eq_ok.mp h₃)
  obtain ⟨rfl, hname⟩ := bufferReadBytes_eq_some (orThrow_eq_ok.mp h₅)
  obtain ⟨e₁, rfl, he₁⟩ := bufferReadVarint_eq_some (orThrow_eq_ok.mp h₆)
  obtain ⟨rfl, hpolicy⟩ := bufferReadBytes_eq_some (orThrow_eq_ok.mp h₈)
  obtain ⟨e₂, rfl, he₂⟩ := bufferReadVarint_eq_some (orThrow_eq_ok.mp h₉)
  obtain ⟨rfl, hroot⟩ := bufferReadBytes_eq_some (orThrow_eq_ok.mp h₁₁)
  have hkeys : (UInt16.ofNat nKeys).toNat = nKeys := by
    have := Nat.not_lt.mp (failIf_eq_ok.mp h₁₀)
    rw [toNat_uInt16_ofNat]
    omega
  have hvalid : PolicyMapWalletHeader.Valid
      ⟨type, nameLen, name, UInt16.ofNat v₁, policyMap, UInt16.ofNat nKeys, root⟩ :=
    ⟨not_not.mp (failIf_eq_ok.mp h₂), Nat.not_lt.mp (failIf_eq_ok.mp h₄), hname,
      Nat.not_lt.mp (failIf_eq_ok.mp h₇), hpolicy,
      by rw [hkeys]; exact Nat.not_lt.mp (failIf_eq_ok.mp h₁₀), hroot⟩
  have he₂' : VarintEncoding e₂ (UInt16.ofNat nKeys).toNat := by rwa [hkeys]
  have hbuf := consumed_eq_walletIdPreimage_iff hvalid he₁ rfl he₂' (r := r)
  simp only [List.cons_append, List.append_assoc] at hbuf ⊢
  exact ⟨hvalid, e₁, v₁, e₂, he₁, rfl, he₂', rfl, hbuf⟩

/-! ### The wallet id -/

theorem varintBytes_append_inj {v v' : Nat} {s s' : List UInt8} (hv : v < 2 ^ 64)
    (hv' : v' < 2 ^ 64) (h : varintBytes v ++ s = varintBytes v' ++ s') : v = v' ∧ s = s' := by
  have h := congrArg bufferReadVarint h
  rw [bufferReadVarint_varintBytes hv, bufferReadVarint_varintBytes hv'] at h
  simpa using h

/-- The preimage of a valid header determines it and where it ends: no valid header's preimage
is a proper prefix of another's. -/
theorem walletIdPreimage_append_inj {h h' : PolicyMapWalletHeader} {r r' : List UInt8}
    (hv : h.Valid) (hv' : h'.Valid) (he : walletIdPreimage h ++ r = walletIdPreimage h' ++ r') :
    h = h' ∧ r = r' := by
  obtain ⟨type, nameLen, name, policyMapLen, policyMap, nKeys, root⟩ := h
  obtain ⟨type', nameLen', name', policyMapLen', policyMap', nKeys', root'⟩ := h'
  obtain ⟨-, -, hname, -, hpolicy, -, hroot⟩ := hv
  obtain ⟨-, -, hname', -, hpolicy', -, hroot'⟩ := hv'
  dsimp only at *
  simp only [walletIdPreimage, List.take_of_length_le (Nat.le_of_eq hname),
    List.take_of_length_le (Nat.le_of_eq hname'), List.take_of_length_le (Nat.le_of_eq hpolicy),
    List.take_of_length_le (Nat.le_of_eq hpolicy'), List.take_of_length_le (Nat.le_of_eq hroot),
    List.take_of_length_le (Nat.le_of_eq hroot'), List.cons_append, List.append_assoc,
    List.cons.injEq] at he
  obtain ⟨rfl, rfl, he⟩ := he
  -- each field is read back in turn: the name and the policy by their length, the varints by
  -- `buffer_read_varint`
  obtain ⟨rfl, he₁⟩ := List.append_inj he (hname.trans hname'.symm)
  obtain ⟨hlen, he₂⟩ := varintBytes_append_inj (uInt16_toNat_lt _) (uInt16_toNat_lt _) he₁
  obtain rfl := UInt16.toNat.inj hlen
  obtain ⟨rfl, he₃⟩ := List.append_inj he₂ (hpolicy.trans hpolicy'.symm)
  obtain ⟨hkeys, he₄⟩ := varintBytes_append_inj (uInt16_toNat_lt _) (uInt16_toNat_lt _) he₃
  obtain rfl := UInt16.toNat.inj hkeys
  obtain ⟨rfl, rfl⟩ := List.append_inj he₄ (hroot.trans hroot'.symm)
  exact ⟨rfl, rfl⟩

/-- `get_policy_wallet_id` commits to the whole header: two different valid headers with one
wallet id give `sha256` two different inputs with one digest. -/
theorem getPolicyWalletId_collision (sha256 : List UInt8 → Mathlib.Vector UInt8 32)
    {h h' : PolicyMapWalletHeader} (hv : h.Valid) (hv' : h'.Valid) (hne : h ≠ h')
    (hid : getPolicyWalletId sha256 h = getPolicyWalletId sha256 h') :
    walletIdPreimage h ≠ walletIdPreimage h' ∧
      sha256 (walletIdPreimage h) = sha256 (walletIdPreimage h') :=
  ⟨fun he => hne (walletIdPreimage_append_inj hv hv' (congrArg (· ++ []) he)).1, hid⟩

/-! ### The spec's example header -/

/-- The header of the spec's example: name `wal`, policy `pkh(@0)`, one key and a zero Merkle
root. -/
def exampleHeader : PolicyMapWalletHeader :=
  ⟨2, 3, [0x77, 0x61, 0x6c], 7, [0x70, 0x6b, 0x68, 0x28, 0x40, 0x30, 0x29], 1,
    List.replicate 32 0⟩

theorem exampleHeader_valid : exampleHeader.Valid :=
  ⟨rfl, by decide, rfl, by decide, rfl, by decide, rfl⟩

theorem readPolicyMapWallet_exampleHeader :
    readPolicyMapWallet (walletIdPreimage exampleHeader) = .ok (exampleHeader, []) := rfl

theorem exampleHeader_round_trip :
    exampleHeader.Valid ∧
      readPolicyMapWallet (walletIdPreimage exampleHeader ++ []) = .ok (exampleHeader, []) :=
  ⟨exampleHeader_valid, readPolicyMapWallet_walletIdPreimage exampleHeader_valid []⟩

theorem exampleHeader_consumed :
    readPolicyMapWallet (walletIdPreimage exampleHeader) = .ok (exampleHeader, []) ∧
      exampleHeader.Valid ∧ ∃ e₁ v₁ e₂, VarintEncoding e₁ v₁ ∧
        UInt16.ofNat v₁ = exampleHeader.policyMapLen ∧
        VarintEncoding e₂ exampleHeader.nKeys.toNat ∧
        walletIdPreimage exampleHeader = exampleHeader.type :: exampleHeader.nameLen ::
          (exampleHeader.name ++ (e₁ ++ (exampleHeader.policyMap ++ (e₂ ++
            (exampleHeader.keysInfoMerkleRoot ++ []))))) ∧
        (walletIdPreimage exampleHeader = walletIdPreimage exampleHeader ++ [] ↔
          e₁ = varintBytes v₁ ∧ v₁ < 2 ^ 16 ∧ e₂ = varintBytes exampleHeader.nKeys.toNat) :=
  ⟨readPolicyMapWallet_exampleHeader,
    readPolicyMapWallet_consumed readPolicyMapWallet_exampleHeader⟩

/-- `exampleHeader` registered with two keys. -/
def twoKeyHeader : PolicyMapWalletHeader := { exampleHeader with nKeys := 2 }

/-- A hash that maps every input to zero. -/
def zeroHash (_ : List UInt8) : Mathlib.Vector UInt8 32 := Mathlib.Vector.replicate 32 0

theorem zeroHash_collision :
    exampleHeader.Valid ∧ twoKeyHeader.Valid ∧ exampleHeader ≠ twoKeyHeader ∧
      getPolicyWalletId zeroHash exampleHeader = getPolicyWalletId zeroHash twoKeyHeader ∧
      (walletIdPreimage exampleHeader ≠ walletIdPreimage twoKeyHeader ∧
        zeroHash (walletIdPreimage exampleHeader) = zeroHash (walletIdPreimage twoKeyHeader)) :=
  have hv : twoKeyHeader.Valid := ⟨rfl, by decide, rfl, by decide, rfl, by decide, rfl⟩
  have hne : exampleHeader ≠ twoKeyHeader := by decide
  ⟨exampleHeader_valid, hv, hne, rfl,
    getPolicyWalletId_collision zeroHash exampleHeader_valid hv hne rfl⟩

/-- The bytes of `exampleHeader` with its policy length written as the four-byte varint of
`0x10007`, which the 16-bit field keeps as 7. -/
theorem readPolicyMapWallet_narrowed_policy_length :
    readPolicyMapWallet (walletIdPreimage exampleHeader) = .ok (exampleHeader, []) ∧
      readPolicyMapWallet ([0x02, 0x03, 0x77, 0x61, 0x6c, 0xFE, 0x07, 0x00, 0x01, 0x00,
        0x70, 0x6b, 0x68, 0x28, 0x40, 0x30, 0x29, 0x01] ++ List.replicate 32 0) =
        .ok (exampleHeader, []) ∧
      walletIdPreimage exampleHeader ≠ [0x02, 0x03, 0x77, 0x61, 0x6c, 0xFE, 0x07, 0x00, 0x01,
        0x00, 0x70, 0x6b, 0x68, 0x28, 0x40, 0x30, 0x29, 0x01] ++ List.replicate 32 0 :=
  ⟨readPolicyMapWallet_exampleHeader, rfl, by decide⟩

end WalletPolicy
