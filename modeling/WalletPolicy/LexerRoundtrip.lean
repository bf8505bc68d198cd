import WalletPolicy.Printer

/-!
# The readers on canonical text

Each reader of `Lexer` and the wrapper lookahead of `parse_script`, applied to the text
`Node.print` writes followed by any continuation that stops it, reads exactly that text. The
continuation conditions are the ones the printed separators `(`, `,` and `)` meet.
-/
namespace WalletPolicy

/-! ### Tokens -/

theorem readWhile_append {p : Char → Bool} {w s : List Char} (hw : ∀ c ∈ w, p c = true)
    (hs : ∀ c ∈ s.head?, p c = false) :
    ∀ {outLen}, w.length ≤ outLen → readWhile p outLen (w ++ s) = (w, s) := by
  induction w with
  | nil =>
    intro outLen _
    rcases outLen with _ | outLen
    · rfl
    · rcases s with _ | ⟨c, s⟩
      · rfl
      · simp [readWhile, hs c rfl]
  | cons c w ih =>
    intro outLen hlen
    obtain ⟨outLen, rfl⟩ : ∃ n, outLen = n + 1 := ⟨outLen - 1, by simp at hlen; omega⟩
    simp only [List.mem_cons, forall_eq_or_imp] at hw
    simp only [List.cons_append, readWhile, hw.1, if_true, List.append_eq,
      ih hw.2 (by simpa using hlen)]

theorem readWhile_spec (p : Char → Bool) :
    ∀ n s, (readWhile p n s).1.length ≤ n ∧ ∀ c ∈ (readWhile p n s).1, p c = true
  | 0, _ => by simp [readWhile]
  | _ + 1, [] => by simp [readWhile]
  | n + 1, c :: s => by
    have ih := readWhile_spec p n s
    by_cases hc : p c
    · simp [readWhile, hc, ih.1]
      exact ih.2
    · simp [readWhile, hc]

theorem readWhile_prefix (p : Char → Bool) : ∀ n s, (readWhile p n s).1 <+: s
  | 0, _ => List.nil_prefix
  | _ + 1, [] => List.nil_prefix
  | n + 1, c :: s => by
    by_cases hc : p c
    · simpa [readWhile, hc] using readWhile_prefix p n s
    · simp [readWhile, hc]

theorem dropWhile_eq_drop {p : Char → Bool} (s : List Char) :
    s.dropWhile p = s.drop (s.takeWhile p).length :=
  calc s.dropWhile p = (s.takeWhile p ++ s.dropWhile p).drop (s.takeWhile p).length :=
        (List.drop_left _ _).symm
    _ = s.drop (s.takeWhile p).length := by rw [List.takeWhile_append_dropWhile]

/-- Every token of `KNOWN_TOKENS` is read back by `parse_token` from its name. -/
theorem parseToken_tokenName {type : PolicyNodeType} (htype : type ∈ knownTokens.map Prod.fst)
    {s : List Char} (hs : ∀ c ∈ s.head?, (isAlphanumeric c || c = '_') = false) :
    parseToken (tokenName type ++ s) = (type, s) := by
  -- the names of the table are token characters, fit the buffer and are looked up to themselves
  have hknown : ∀ token ∈ knownTokens.map Prod.fst,
      (∀ c ∈ tokenName token, (isAlphanumeric c || c = '_') = true) ∧
        (tokenName token).length ≤ maxTokenLength ∧
        ((knownTokens.find? fun tok => tok.2.toList = tokenName token).map Prod.fst).getD
          .invalid = token := by
    decide
  obtain ⟨hchars, hlen, hfind⟩ := hknown type htype
  rw [parseToken, readToken, readWhile_append hchars hs hlen]
  exact congrArg (·, s) hfind

/-! ### The wrapper lookahead -/

/-- When the run of wrapper letters stops inside `w`, what follows `w` is not looked at. -/
theorem parseWrappers_append {w s : List Char}
    (hstop : (w.takeWhile isValidMiniscriptWrapper).length ≠ w.length) :
    parseWrappers (w ++ s) = ((parseWrappers w).1, (parseWrappers w).2 ++ s) := by
  have hle : (w.takeWhile isValidMiniscriptWrapper).length ≤ w.length :=
    List.Sublist.length_le (List.takeWhile_sublist _)
  obtain ⟨c, post, hdrop⟩ : ∃ c post, w.drop (w.takeWhile isValidMiniscriptWrapper).length =
      c :: post := List.exists_cons_of_ne_nil (by simp; omega)
  simp only [parseWrappers, List.takeWhile_append, if_neg hstop,
    List.drop_append_of_le_length hle, hdrop, List.cons_append]
  split <;> split <;> simp_all

theorem parseWrappers_tokenName {type : PolicyNodeType} (htype : type ∈ knownTokens.map Prod.fst)
    (s : List Char) : parseWrappers (tokenName type ++ s) = ([], tokenName type ++ s) := by
  -- the run of wrapper letters stops inside every name of the table and reads no wrapper
  have hknown : ∀ token ∈ knownTokens.map Prod.fst,
      ((tokenName token).takeWhile isValidMiniscriptWrapper).length ≠ (tokenName token).length ∧
        parseWrappers (tokenName token) = ([], tokenName token) := by
    decide
  obtain ⟨hstop, hnone⟩ := hknown type htype
  rw [parseWrappers_append hstop, hnone]

theorem wrapperToken_wrapperLetter {type : PolicyNodeType} (h : type.isWrapper) :
    wrapperToken (wrapperLetter type) = type := by
  revert h; cases type <;> decide

theorem isValidMiniscriptWrapper_wrapperLetter {type : PolicyNodeType} (h : type.isWrapper) :
    isValidMiniscriptWrapper (wrapperLetter type) := by
  revert h; cases type <;> decide

/-- A chain of wrapper letters ended by `:` is read as the list of its wrappers. -/
theorem parseWrappers_chain {ws : List PolicyNodeType} (hws : ∀ w ∈ ws, w.isWrapper)
    (s : List Char) : parseWrappers (ws.map wrapperLetter ++ ':' :: s) = (ws, s) := by
  have hvalid : ∀ c ∈ ws.map wrapperLetter, isValidMiniscriptWrapper c := by
    simpa using fun w hw => isValidMiniscriptWrapper_wrapperLetter (hws w hw)
  simp only [parseWrappers, List.takeWhile_append_of_pos hvalid, List.takeWhile_cons,
    show isValidMiniscriptWrapper ':' = false by decide, Bool.false_eq_true, if_false,
    List.append_nil, List.drop_left, List.map_map, Prod.mk.injEq, and_true]
  exact (List.map_congr_left fun w hw => wrapperToken_wrapperLetter (hws w hw)).trans
    (List.map_id ws)

/-- A text whose first word is a token starts with no wrapper run: letters before a colon would be
the whole first word, and no name of `KNOWN_TOKENS` is made of wrapper letters. -/
theorem parseWrappers_of_parseToken {s : List Char} (h : (parseToken s).1 ≠ .invalid) :
    parseWrappers s = ([], s) := by
  unfold parseWrappers
  dsimp only
  split
  · next rest hdrop =>
    exfalso
    have hknown : ∀ tok ∈ knownTokens, ∃ c ∈ tok.2.toList, isValidMiniscriptWrapper c = false := by
      decide
    have hcolon : ¬((isAlphanumeric ':' || ':' = '_') = true) := by decide
    have hrun : s.takeWhile isValidMiniscriptWrapper ++ [':'] <+: s := by
      rw [← dropWhile_eq_drop] at hdrop
      refine ⟨rest, ?_⟩
      rw [List.append_assoc, List.singleton_append, ← hdrop, List.takeWhile_append_dropWhile]
    rcases hw : readToken maxTokenLength s with ⟨word, r⟩
    have hread : readWhile (fun c => isAlphanumeric c || c = '_') maxTokenLength s = (word, r) := hw
    have hword := (readWhile_spec (fun c => isAlphanumeric c || c = '_') maxTokenLength s).2
    have hprefix := readWhile_prefix (fun c => isAlphanumeric c || c = '_') maxTokenLength s
    rw [hread] at hword hprefix
    -- the first word is made of wrapper letters
    have hwrap : ∀ c ∈ word, isValidMiniscriptWrapper c = true := by
      rcases List.prefix_or_prefix_of_prefix hprefix hrun with hp | hp
      · intro c hc
        rcases List.mem_append.mp (hp.subset hc) with hc' | hc'
        · exact List.mem_takeWhile_imp hc'
        · rw [List.mem_singleton.mp hc'] at hc
          exact absurd (hword _ hc) hcolon
      · exact absurd (hword ':' (hp.subset (by simp))) hcolon
    apply h
    have hnone : knownTokens.find? (fun tok => tok.2.toList = word) = none :=
      List.find?_eq_none.mpr fun tok htok heq => by
        obtain ⟨c, hc, hcw⟩ := hknown tok htok
        rw [of_decide_eq_true heq] at hc
        exact absurd (hwrap c hc) (by simp [hcw])
    simp only [parseToken, hw, hnone, Option.map_none', Option.getD_none]
  · rfl

/-! ### Decimals -/

theorem isDigit_digitChar {d : Nat} (h : d < 10) : isDigit (Nat.digitChar d) = true := by
  revert d; decide

theorem digitChar_toNat_sub {d : Nat} (h : d < 10) : (Nat.digitChar d).toNat - '0'.toNat = d := by
  revert d; decide

/-- One digit of `parse_unsigned_decimal` that neither follows a leading zero nor overflows. -/
theorem parseUnsignedDecimalLoop_digitChar {w result digitsRead d : Nat} {s : List Char}
    (hd : d < 10) (hlead : ¬(digitsRead + 1 = 2 ∧ result = 0)) (hfit : 10 * result + d < 2 ^ w) :
    parseUnsignedDecimalLoop w result digitsRead (Nat.digitChar d :: s) =
      parseUnsignedDecimalLoop w (10 * result + d) (digitsRead + 1) s := by
  simp only [parseUnsignedDecimalLoop, isDigit_digitChar hd, digitChar_toNat_sub hd, if_true,
    if_neg hlead, Nat.mod_eq_of_lt hfit]
  rw [if_neg (by omega)]

theorem parseUnsignedDecimalLoop_stop {w result digitsRead : Nat} {s : List Char}
    (hs : ∀ c ∈ s.head?, isDigit c = false) :
    parseUnsignedDecimalLoop w result digitsRead s = some (result, digitsRead, s) := by
  rcases s with _ | ⟨c, s⟩
  · rfl
  · simp [parseUnsignedDecimalLoop, hs c rfl]

/-- The digits `Nat.toDigitsCore` writes in front of `acc` are read back as `n`. -/
theorem parseUnsignedDecimalLoop_toDigitsCore {w : Nat} {s : List Char} :
    ∀ fuel n acc, n < fuel → n < 2 ^ w → ∃ k, 0 < k ∧
      parseUnsignedDecimalLoop w 0 0 (Nat.toDigitsCore 10 fuel n acc ++ s) =
        parseUnsignedDecimalLoop w n k (acc ++ s)
  | 0, _, _, hfuel, _ => absurd hfuel (Nat.not_lt_zero _)
  | fuel + 1, n, acc, hfuel, hfit => by
    have hmod : n % 10 < 10 := Nat.mod_lt _ (by decide)
    simp only [Nat.toDigitsCore]
    split
    · refine ⟨1, by decide, ?_⟩
      rw [List.cons_append, parseUnsignedDecimalLoop_digitChar hmod (by simp) (by omega),
        show 10 * 0 + n % 10 = n by omega]
    · obtain ⟨k, hk, h⟩ := @parseUnsignedDecimalLoop_toDigitsCore w s fuel (n / 10)
        (Nat.digitChar (n % 10) :: acc) (by omega) (by omega)
      refine ⟨k + 1, by omega, ?_⟩
      rw [h, List.cons_append, parseUnsignedDecimalLoop_digitChar hmod (by omega) (by omega),
        show 10 * (n / 10) + n % 10 = n by omega]

/-- `parse_unsigned_decimal` reads back every value below `2 ^ w` from its decimal text. -/
theorem parseUnsignedDecimal_decimal {w n : Nat} {s : List Char} (hfit : n < 2 ^ w)
    (hs : ∀ c ∈ s.head?, isDigit c = false) :
    parseUnsignedDecimal w (decimal n ++ s) = some (n, s) := by
  obtain ⟨k, hk, h⟩ := @parseUnsignedDecimalLoop_toDigitsCore w s (n + 1) n [] (by omega) hfit
  simp only [parseUnsignedDecimal, decimal, Nat.toDigits, h, List.nil_append,
    parseUnsignedDecimalLoop_stop hs, Option.bind_eq_bind, Option.some_bind]
  simp [show k ≠ 0 by omega, guard]

theorem parseKeyIndex_keyText {keyIndex : Nat} {s : List Char} (hfit : keyIndex < 2 ^ sizeTBits)
    (hs : ∀ c ∈ s.head?, isDigit c = false) :
    parseKeyIndex (keyText keyIndex ++ s) = some (keyIndex, s) := by
  simp [parseKeyIndex, keyText, consumeCharacter, parseUnsignedDecimal_decimal hfit hs]

/-! ### Hashes -/

theorem isLowercaseHex_digitChar {d : Nat} (h : d < 16) : isLowercaseHex (Nat.digitChar d) = true := by
  revert d; decide

theorem lowercaseHexToInt_digitChar {d : Nat} (h : d < 16) :
    lowercaseHexToInt (Nat.digitChar d) = d := by
  revert d; decide

@[simp] theorem hex_nil : hex Mathlib.Vector.nil = [] := rfl

@[simp] theorem hex_cons {n : Nat} (b : UInt8) (h : Mathlib.Vector UInt8 n) :
    hex (Mathlib.Vector.cons b h) = hexByte b ++ hex h := by
  simp [hex]

theorem hex_length : ∀ {n} (h : Mathlib.Vector UInt8 n), (hex h).length = 2 * n
  | 0, h => by rw [Mathlib.Vector.eq_nil h]; rfl
  | n + 1, h => by
    rw [← Mathlib.Vector.cons_head_tail h, hex_cons, List.length_append, hex_length]
    simp [hexByte]
    omega

theorem readHexBytes_hex : ∀ {n} (h : Mathlib.Vector UInt8 n) (s : List Char),
    readHexBytes n (hex h ++ s) = some (h, s)
  | 0, h, s => by rw [Mathlib.Vector.eq_nil h]; rfl
  | n + 1, h, s => by
    have hhi : h.head.toNat / 16 < 16 := by
      have := UInt8.toNat_lt_size h.head
      unfold UInt8.size at this
      omega
    have hlo : h.head.toNat % 16 < 16 := Nat.mod_lt _ (by decide)
    have hbyte : UInt8.ofNat (16 * (h.head.toNat / 16) + h.head.toNat % 16) = h.head := by
      rw [Nat.div_add_mod]
      exact UInt8.toNat.inj (UInt8.toNat_ofNat_of_lt (UInt8.toNat_lt_size _))
    rw [← Mathlib.Vector.cons_head_tail h, hex_cons]
    simp only [hexByte, List.cons_append, List.nil_append, List.append_eq, readHexBytes,
      isLowercaseHex_digitChar hhi, isLowercaseHex_digitChar hlo, Bool.and_self, if_true,
      readHexBytes_hex, Option.bind_eq_bind, Option.some_bind, lowercaseHexToInt_digitChar hhi,
      lowercaseHexToInt_digitChar hlo, hbyte]

theorem bufferReadHexHash_hex {n : Nat} (h : Mathlib.Vector UInt8 n) (s : List Char) :
    bufferReadHexHash n (hex h ++ s) = some (h, s) := by
  rw [bufferReadHexHash, if_neg (by simp [hex_length]), readHexBytes_hex]

end WalletPolicy
