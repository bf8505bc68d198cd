import WalletPolicy.KeyInfo

/-!
# `parse_unsigned_decimal` against the value of its digits

`parse_unsigned_decimal` reads the maximal run of digits at the start of its input. It rejects
a leading zero and, in its own words, an "integer too large", by comparing
`10 * result + next_digit`, computed in `size_t`, with `result`. That comparison only sees the
wrap-arounds that land below `result`.

## Main results

`parseUnsignedDecimal_sound`: whatever the width `w` of `size_t`, a run that is read is
nonempty and has no leading zero, the value returned is the run's value modulo `2 ^ w`, and
exactly the run is consumed.

`parseUnsignedDecimal_of_canonical`: every such run whose value is below `2 ^ w` is read.

`parseUnsignedDecimal_wraps`: some runs past `2 ^ w` are read too, with the wrapped value.
-/
namespace WalletPolicy

/-- One digit of a decimal, most significant first, as the loop computes it before the
reduction to `size_t`. -/
def decimalStep (acc : Nat) (c : Char) : Nat := 10 * acc + (c.toNat - '0'.toNat)

/-- The numeric value of a run of decimal digits. -/
def decimalValue (d : List Char) : Nat := d.foldl decimalStep 0

/-- A run of digits without a leading zero: nonempty, and starting with `0` only when it is
`0` itself. -/
def IsCanonicalDecimal (d : List Char) : Prop := d ≠ [] ∧ (d = ['0'] ∨ d.head? ≠ some '0')

instance : DecidablePred IsCanonicalDecimal :=
  fun d => inferInstanceAs (Decidable (d ≠ [] ∧ (d = ['0'] ∨ d.head? ≠ some '0')))

/-! ### The value of a run -/

theorem decimalStep_mod (m x : Nat) (c : Char) :
    decimalStep (x % m) c % m = decimalStep x c % m := by
  simp [decimalStep, Nat.add_mod, Nat.mul_mod]

/-- Reducing the accumulator modulo `m` at every digit gives the value modulo `m`. -/
theorem foldl_decimalStep_mod (m : Nat) :
    ∀ (d : List Char) (x : Nat), d.foldl decimalStep (x % m) % m = d.foldl decimalStep x % m
  | [], x => Nat.mod_mod x m
  | c :: d, x => by
    rw [List.foldl_cons, List.foldl_cons, ← foldl_decimalStep_mod m d (decimalStep (x % m) c),
      decimalStep_mod, foldl_decimalStep_mod m d]

theorem le_foldl_decimalStep : ∀ (d : List Char) (x : Nat), x ≤ d.foldl decimalStep x
  | [], _ => Nat.le_refl _
  | c :: d, x => Nat.le_trans (by unfold decimalStep; omega) (le_foldl_decimalStep d _)

theorem eq_zero_char_of_decimalStep {c : Char} (hc : isDigit c) (h : decimalStep 0 c = 0) :
    c = '0' := by
  simp only [isDigit, Bool.and_eq_true, decide_eq_true_eq] at hc
  have h48 : '0'.toNat ≤ c.toNat := hc.1
  have hval : c.toNat = '0'.toNat := by
    unfold decimalStep at h
    omega
  rw [← Char.ofNat_toNat c, hval]
  rfl

/-! ### The loop -/

/-- One digit that neither follows a leading zero nor leaves `size_t`. -/
theorem parseUnsignedDecimalLoop_digit {w r k : Nat} {c : Char} {s : List Char}
    (hc : isDigit c) (hlead : ¬(k + 1 = 2 ∧ r = 0)) (hfit : decimalStep r c < 2 ^ w) :
    parseUnsignedDecimalLoop w r k (c :: s) =
      parseUnsignedDecimalLoop w (decimalStep r c) (k + 1) s := by
  unfold decimalStep at hfit ⊢
  simp only [parseUnsignedDecimalLoop, hc, if_true, if_neg hlead, Nat.mod_eq_of_lt hfit]
  rw [if_neg (by omega)]

/-- What the loop returns: the digits it read, reduced modulo `2 ^ w` at every step, and the
input after the run. -/
theorem parseUnsignedDecimalLoop_sound {w : Nat} :
    ∀ {s : List Char} {r k v k' : Nat} {rest : List Char}, r < 2 ^ w →
      parseUnsignedDecimalLoop w r k s = some (v, k', rest) →
      v = (s.takeWhile isDigit).foldl decimalStep r % 2 ^ w ∧
        k' = k + (s.takeWhile isDigit).length ∧ rest = s.dropWhile isDigit
  | [], r, k, v, k', rest, hr, h => by
    cases h
    exact ⟨(Nat.mod_eq_of_lt hr).symm, rfl, rfl⟩
  | c :: s, r, k, v, k', rest, hr, h => by
    by_cases hc : isDigit c
    · simp only [parseUnsignedDecimalLoop, hc, if_true] at h
      split at h
      · cases h
      split at h
      · cases h
      obtain ⟨hv, hk, hrest⟩ := parseUnsignedDecimalLoop_sound (Nat.mod_lt _ (Nat.two_pow_pos w)) h
      rw [List.takeWhile_cons_of_pos hc, List.dropWhile_cons_of_pos hc, List.foldl_cons,
        List.length_cons, ← foldl_decimalStep_mod]
      exact ⟨hv, by omega, hrest⟩
    · simp only [parseUnsignedDecimalLoop, hc, Bool.false_eq_true, if_false, Option.some.injEq,
        Prod.mk.injEq] at h
      obtain ⟨rfl, rfl, rfl⟩ := h
      simp [List.takeWhile_cons_of_neg hc, List.dropWhile_cons_of_neg hc, Nat.mod_eq_of_lt hr]

/-- After a first digit `0`, the loop stops at once or fails. -/
theorem takeWhile_eq_nil_of_leading_zero {w : Nat} {s : List Char} {v k' : Nat}
    {rest : List Char} (h : parseUnsignedDecimalLoop w 0 1 s = some (v, k', rest)) :
    s.takeWhile isDigit = [] := by
  rcases s with _ | ⟨c, s⟩
  · rfl
  · by_cases hc : isDigit c
    · simp [parseUnsignedDecimalLoop, hc] at h
    · exact List.takeWhile_cons_of_neg hc

/-- The digits of a run whose value fits are read one by one, after the first. -/
theorem parseUnsignedDecimalLoop_complete {w : Nat} (s : List Char)
    (hs : ∀ c ∈ s.head?, isDigit c = false) :
    ∀ {d : List Char} {r k : Nat}, (∀ c ∈ d, isDigit c) → 1 ≤ k → (k = 1 → r = 0 → d = []) →
      d.foldl decimalStep r < 2 ^ w →
      parseUnsignedDecimalLoop w r k (d ++ s) = some (d.foldl decimalStep r, k + d.length, s)
  | [], r, k, _, _, _, _ => parseUnsignedDecimalLoop_stop hs
  | c :: d, r, k, hd, hk, hlead, hfit => by
    have hc := hd c (List.mem_cons_self c d)
    have hstep : decimalStep r c < 2 ^ w :=
      Nat.lt_of_le_of_lt (le_foldl_decimalStep d _) hfit
    rw [List.cons_append, parseUnsignedDecimalLoop_digit hc
      (fun h => List.cons_ne_nil c d (hlead (by omega) h.2)) hstep,
      parseUnsignedDecimalLoop_complete s hs (fun x hx => hd x (List.mem_cons_of_mem c hx))
        (by omega) (fun h => absurd h (by omega)) hfit]
    simp only [List.foldl_cons, List.length_cons, Option.some.injEq, Prod.mk.injEq, true_and,
      and_true]
    omega

/-! ### `parse_unsigned_decimal` -/

theorem parseUnsignedDecimal_eq_some {w : Nat} {s rest : List Char} {v : Nat} :
    parseUnsignedDecimal w s = some (v, rest) ↔
      ∃ k, parseUnsignedDecimalLoop w 0 0 s = some (v, k, rest) ∧ k ≠ 0 := by
  simp only [parseUnsignedDecimal, Option.bind_eq_bind, Option.bind_eq_some, guard, Prod.exists]
  constructor
  · rintro ⟨v', k, rest', hloop, h⟩
    -- the guard `digits_read ≠ 0`: `failure` when it fails
    split at h <;> simp_all
  · rintro ⟨k, hloop, hk⟩
    exact ⟨v, k, rest, hloop, by simp [hk]⟩

/-- A run `parse_unsigned_decimal` reads is nonempty and has no leading zero; it returns the
run's value modulo `2 ^ w` and consumes exactly the run. -/
theorem parseUnsignedDecimal_sound {w : Nat} {s rest : List Char} {v : Nat}
    (h : parseUnsignedDecimal w s = some (v, rest)) :
    IsCanonicalDecimal (s.takeWhile isDigit) ∧ v = decimalValue (s.takeWhile isDigit) % 2 ^ w ∧
      rest = s.drop (s.takeWhile isDigit).length := by
  obtain ⟨k, hloop, hk⟩ := parseUnsignedDecimal_eq_some.mp h
  obtain ⟨hv, hlen, hrest⟩ := parseUnsignedDecimalLoop_sound (Nat.two_pow_pos w) hloop
  refine ⟨⟨fun hnil => hk (by simp [hlen, hnil]), ?_⟩, hv, hrest.trans (dropWhile_eq_drop s)⟩
  rcases s with _ | ⟨c, s⟩
  · exact absurd (by simpa using hlen) hk
  by_cases hc : isDigit c
  · rw [List.takeWhile_cons_of_pos hc]
    by_cases hzero : c = '0'
    · subst hzero
      rw [parseUnsignedDecimalLoop_digit hc (by omega) (Nat.two_pow_pos w)] at hloop
      exact .inl (by rw [takeWhile_eq_nil_of_leading_zero hloop])
    · exact .inr (by simpa using hzero)
  · exact absurd (by simpa [List.takeWhile_cons_of_neg hc] using hlen) hk

theorem wrapped_decimal_sound :
    parseUnsignedDecimal sizeTBits "5000000000".toList = some (705032704, []) ∧
      IsCanonicalDecimal ("5000000000".toList.takeWhile isDigit) ∧
      705032704 = decimalValue ("5000000000".toList.takeWhile isDigit) % 2 ^ sizeTBits ∧
      [] = "5000000000".toList.drop ("5000000000".toList.takeWhile isDigit).length :=
  have h : parseUnsignedDecimal sizeTBits "5000000000".toList = some (705032704, []) := by decide
  ⟨h, parseUnsignedDecimal_sound h⟩

/-- Every run without a leading zero whose value fits `size_t` is read, with its value, and
exactly the run is consumed. -/
theorem parseUnsignedDecimal_of_canonical {w : Nat} {s : List Char}
    (hcanon : IsCanonicalDecimal (s.takeWhile isDigit))
    (hfit : decimalValue (s.takeWhile isDigit) < 2 ^ w) :
    parseUnsignedDecimal w s =
      some (decimalValue (s.takeWhile isDigit), s.drop (s.takeWhile isDigit).length) := by
  obtain ⟨hne, hlead⟩ := hcanon
  obtain ⟨c, d, hcd⟩ := List.exists_cons_of_ne_nil hne
  have hdigits : ∀ x ∈ c :: d, isDigit x := fun x hx =>
    List.all_eq_true.mp List.all_takeWhile x (hcd ▸ hx)
  have hc := hdigits c (List.mem_cons_self c d)
  have hsplit : s = c :: (d ++ s.dropWhile isDigit) := by
    rw [← List.cons_append, ← hcd, List.takeWhile_append_dropWhile]
  have hvalue : decimalValue (s.takeWhile isDigit) = d.foldl decimalStep (decimalStep 0 c) := by
    rw [hcd]
    rfl
  rw [hvalue] at hfit
  have hstep : decimalStep 0 c < 2 ^ w := Nat.lt_of_le_of_lt (le_foldl_decimalStep d _) hfit
  have hzero : decimalStep 0 c = 0 → d = [] := fun h => by
    rcases hlead with hd | hd
    · rw [hcd] at hd
      exact (List.cons.inj hd).2
    · exact absurd (by rw [hcd, eq_zero_char_of_decimalStep hc h]; rfl) hd
  have hrest : ∀ x ∈ (s.dropWhile isDigit).head?, isDigit x = false := fun x hx => by
    have hnot := List.head?_dropWhile_not isDigit s
    rwa [Option.mem_def.mp hx] at hnot
  refine parseUnsignedDecimal_eq_some.mpr ⟨0 + 1 + d.length, ?_, by omega⟩
  rw [hvalue, ← dropWhile_eq_drop]
  generalize s.dropWhile isDigit = rest at hsplit hrest
  subst hsplit
  rw [parseUnsignedDecimalLoop_digit hc (by omega) hstep]
  exact parseUnsignedDecimalLoop_complete rest hrest
    (fun x hx => hdigits x (List.mem_cons_of_mem c hx)) (Nat.le_refl _) (fun _ => hzero) hfit

/-- The largest `size_t` is read back from its decimal text. -/
theorem max_size_t_decimal :
    (IsCanonicalDecimal ("4294967295)".toList.takeWhile isDigit) ∧
      decimalValue ("4294967295)".toList.takeWhile isDigit) < 2 ^ sizeTBits) ∧
    parseUnsignedDecimal sizeTBits "4294967295)".toList =
      some (decimalValue ("4294967295)".toList.takeWhile isDigit),
        "4294967295)".toList.drop ("4294967295)".toList.takeWhile isDigit).length) :=
  ⟨⟨by decide, by decide⟩, parseUnsignedDecimal_of_canonical (by decide) (by decide)⟩

/-! ### Wrap-arounds the overflow check misses -/

/-- `5000000000`, past `2 ^ 32`, is read by a 32-bit `size_t` as `705032704`, also as a
derivation step; `30000000000000000000`, past `2 ^ 64`, is read by a 64-bit one as
`11553255926290448384`. -/
theorem parseUnsignedDecimal_wraps :
    parseUnsignedDecimal sizeTBits "5000000000".toList = some (705032704, []) ∧
      "5000000000".toList.takeWhile isDigit = "5000000000".toList ∧
      2 ^ sizeTBits ≤ decimalValue "5000000000".toList ∧
      bufferReadDerivationStep "5000000000".toList = some (705032704, []) ∧
    parseUnsignedDecimal 64 "30000000000000000000".toList = some (11553255926290448384, []) ∧
      "30000000000000000000".toList.takeWhile isDigit = "30000000000000000000".toList ∧
      2 ^ 64 ≤ decimalValue "30000000000000000000".toList := by
  decide

end WalletPolicy
