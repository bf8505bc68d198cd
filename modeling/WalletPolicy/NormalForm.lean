import WalletPolicy.Decimal
import WalletPolicy.Thresholds

/-!
# The canonical text of every accepted policy

`parse_policy_map` accepts texts that are not canonical (`parsePolicyMap_non_canonical`), but
no tree that the canonical text of some policy would not give: every number it stores went
through `parse_unsigned_decimal` into a `size_t`, so the tree it returns fits, and the
completeness of the parser reads its canonical text back into it.

## Main results

`parsePolicyMap_print_normal`: whatever text a tree was read from, its canonical text is
accepted and gives the same tree.

`parsePolicyMap_range`: the trees `parse_policy_map` returns are exactly those `Accepted`
describes at the root whose numbers fit a `size_t`.
-/
namespace WalletPolicy

/-- Every number of every node of the tree fits a `size_t`. -/
def Node.AllFit (t : Node) : Prop := ∀ depth x, t.SubtreeAt depth x → x.Fits

theorem Node.allFit_iff {t : Node} : t.AllFit ↔ t.Fits ∧ ∀ c ∈ t.children, c.AllFit :=
  ⟨fun h => ⟨h 0 t .root, fun _ hc _ _ hx => h _ _ (hx.of_child hc)⟩,
    fun h _ _ => Node.forall_subtree_of h.1 fun c hc _ _ => h.2 c hc _ _⟩

/-! ### The numbers the readers return -/

theorem parseUnsignedDecimal_lt {w : Nat} {s r : List Char} {v : Nat}
    (h : parseUnsignedDecimal w s = some (v, r)) : v < 2 ^ w := by
  obtain ⟨k, hloop, -⟩ := parseUnsignedDecimal_eq_some.mp h
  rw [(parseUnsignedDecimalLoop_sound (Nat.two_pow_pos w) hloop).1]
  exact Nat.mod_lt _ (Nat.two_pow_pos w)

theorem parseKeyIndex_lt {s r : List Char} {keyIndex : Nat}
    (h : parseKeyIndex s = some (keyIndex, r)) : keyIndex < 2 ^ sizeTBits := by
  simp only [parseKeyIndex, Option.bind_eq_bind, Option.bind_eq_some] at h
  obtain ⟨_, -, h⟩ := h
  exact parseUnsignedDecimal_lt h

theorem parseMultisigKeys_lt :
    ∀ {fuel n s keyIndexes n' r}, parseMultisigKeys fuel n s = some (keyIndexes, n', r) →
      ∀ i ∈ keyIndexes, i < 2 ^ sizeTBits
  | 0, _, _, _, _, _, h => by cases h
  | fuel + 1, n, s, keyIndexes, n', r, h => by
    simp only [parseMultisigKeys] at h
    split at h
    · cases h; simp
    · simp only [Option.bind_eq_bind, Option.bind_eq_some, Option.guard_eq_some'] at h
      obtain ⟨s1, -, ⟨i, s2⟩, hi, -, -, ⟨is, n'', s3⟩, h3, h⟩ := h
      cases h
      exact List.forall_mem_cons.mpr ⟨parseKeyIndex_lt hi, parseMultisigKeys_lt h3⟩

/-! ### Every tree the parser returns fits -/

theorem applyWrappers_allFit :
    ∀ {ws : List PolicyNodeType} {body t : Node}, body.AllFit →
      applyWrappers ws body = some t → t.AllFit
  | [], _, _, hbody, h => by cases h; exact hbody
  | w :: ws, body, t, hbody, h => by
    simp only [applyWrappers, Option.bind_eq_bind, Option.bind_eq_some] at h
    obtain ⟨inner, hinner, h⟩ := h
    split at h
    · simp only [Option.bind_eq_some, Option.some.injEq] at h
      obtain ⟨flags, -, rfl⟩ := h
      have hinnerFit := applyWrappers_allFit hbody hinner
      exact Node.allFit_iff.mpr ⟨trivial, by simpa [Node.children] using hinnerFit⟩
    · cases h

theorem parseKeyNode_allFit {token : PolicyNodeType} {s : List Char} {t : Node} {r : List Char}
    (h : parseKeyNode token s = some (t, r)) : t.AllFit := by
  simp only [parseKeyNode, Option.bind_eq_bind, Option.bind_eq_some, Option.guard_eq_some',
    Option.some.injEq, Prod.mk.injEq] at h
  obtain ⟨⟨keyIndex, s1⟩, hkey, -, -, rfl, -⟩ := h
  exact Node.allFit_iff.mpr ⟨parseKeyIndex_lt hkey, by simp [Node.children]⟩

theorem parseScript2_allFit {child : List Char → Option (Node × List Char)}
    {token : PolicyNodeType} {s : List Char} {t : Node} {r : List Char}
    (hchild : ∀ {s x r}, child s = some (x, r) → x.AllFit)
    (h : parseScript2 child token s = some (t, r)) : t.AllFit := by
  simp only [parseScript2, Option.bind_eq_bind, Option.bind_eq_some] at h
  obtain ⟨⟨xs, s1⟩, h1, h⟩ := h
  split at h
  · next X Y _ hxs =>
    simp only [Prod.mk.injEq] at hxs
    obtain ⟨rfl, rfl⟩ := hxs
    split at h
    · simp only [Option.bind_eq_some, Option.some.injEq, Prod.mk.injEq] at h
      obtain ⟨flags, -, rfl, -⟩ := h
      exact Node.allFit_iff.mpr ⟨trivial, parseChildScripts_forall hchild h1⟩
    · cases h
  · cases h

theorem parseMultisig_allFit {fuel contextFlags : Nat} {token : PolicyNodeType}
    {s : List Char} {t : Node} {r : List Char}
    (h : parseMultisig fuel contextFlags token s = some (t, r)) : t.AllFit := by
  simp only [parseMultisig, Option.bind_eq_bind, Option.bind_eq_some, Option.guard_eq_some',
    Option.some.injEq, Prod.mk.injEq] at h
  obtain ⟨-, -, ⟨k, s1⟩, -, ⟨keyIndexes, n, s2⟩, hkeys, -, -, rfl, -⟩ := h
  exact Node.allFit_iff.mpr ⟨parseMultisigKeys_lt hkeys, by simp [Node.children]⟩

theorem parseBody_allFit {child : Nat → List Char → Option (Node × List Char)}
    {fuel depth contextFlags : Nat} (hchild : ∀ {c s x r}, child c s = some (x, r) → x.AllFit) :
    ∀ {token s t r}, parseBody child fuel depth contextFlags token s = some (t, r) → t.AllFit := by
  intro token s t r h
  -- the leaves that store no number
  have hleaf : ∀ {x : Node}, x.children = [] → x.Fits → x.AllFit := fun hnil hfits =>
    Node.allFit_iff.mpr ⟨hfits, by simp [hnil]⟩
  unfold parseBody at h
  cases token <;> simp only [Option.bind_eq_bind, Option.bind_eq_some,
    Option.guard_eq_some', Option.some.injEq, Prod.mk.injEq, reduceCtorEq] at h
  case zero | one => obtain ⟨rfl, -⟩ := h; exact hleaf rfl trivial
  case sh | wsh =>
    obtain ⟨-, -, ⟨x, s1⟩, h1, rfl, -⟩ := h
    exact Node.allFit_iff.mpr ⟨trivial, by simpa [Node.children] using hchild h1⟩
  case sha256 | hash256 | ripemd160 | hash160 => obtain ⟨_, -, rfl, -⟩ := h; exact hleaf rfl trivial
  case andor =>
    obtain ⟨⟨xs, s1⟩, h1, h⟩ := h
    split at h
    · next X Y Z _ hxs =>
      simp only [Prod.mk.injEq] at hxs
      obtain ⟨rfl, rfl⟩ := hxs
      split at h
      · simp only [Option.bind_eq_some, Option.some.injEq, Prod.mk.injEq] at h
        obtain ⟨flags, -, rfl, -⟩ := h
        exact Node.allFit_iff.mpr ⟨trivial, parseChildScripts_forall hchild h1⟩
      · cases h
    · cases h
  case andV | andB | andN | orB | orC | orD | orI => exact parseScript2_allFit hchild h
  case thresh =>
    obtain ⟨⟨k, s1⟩, hk, s2, -, -, -, ⟨scriptlist, n, countZ, countO, s3⟩, hloop, rfl, -⟩ := h
    exact Node.allFit_iff.mpr
      ⟨parseUnsignedDecimal_lt hk, (parseThreshScripts_spec hchild hloop).1⟩
  case pk | pkh | pkK | pkH => exact parseKeyNode_allFit h
  case wpkh | tr => obtain ⟨-, -, h⟩ := h; exact parseKeyNode_allFit h
  case older | after => obtain ⟨⟨n, s1⟩, -, -, -, rfl, -⟩ := h; exact hleaf rfl trivial
  case multi | sortedmulti => exact parseMultisig_allFit h

theorem parseScript_allFit :
    ∀ {fuel depth contextFlags s t r}, parseScript fuel depth contextFlags s = some (t, r) →
      t.AllFit
  | 0, _, _, _, _, _, h => by cases h
  | fuel + 1, depth, contextFlags, s, t, r, h => by
    unfold parseScript at h
    rcases hw : parseWrappers s with ⟨ws, s1⟩
    rcases htoken : parseToken s1 with ⟨token, s2⟩
    simp only [hw, htoken, Option.bind_eq_bind, Option.bind_eq_some, Option.guard_eq_some'] at h
    obtain ⟨s3, -, ⟨body, s4⟩, hbody, s5, -, -, -, t', ht, h⟩ := h
    simp only [Option.some.injEq, Prod.mk.injEq] at h
    obtain ⟨rfl, -⟩ := h
    exact applyWrappers_allFit (parseBody_allFit (fun h => parseScript_allFit h) hbody) ht

theorem parsePolicyMap_allFit {s : List Char} {t : Node} (h : parsePolicyMap s = some t) :
    t.AllFit := by
  simp only [parsePolicyMap, Option.bind_eq_bind, Option.bind_eq_some, Option.some.injEq] at h
  obtain ⟨⟨t', r⟩, h, rfl⟩ := h
  exact parseScript_allFit h

/-! ### The canonical text -/

/-- Whatever text `parse_policy_map` read a tree from, the canonical text of the tree is
accepted and gives the same tree. -/
theorem parsePolicyMap_print_normal {s : List Char} {t : Node} (h : parsePolicyMap s = some t) :
    parsePolicyMap (t.print false) = some t :=
  parsePolicyMap_print_of_accepted (parsePolicyMap_accepted h) (parsePolicyMap_allFit h _ _)

theorem colon_pk_print_normal :
    parsePolicyMap ":pk(@0)".toList = some (.withKey .pk (keyFlags .pk) 0) ∧
      parsePolicyMap ((Node.withKey .pk (keyFlags .pk) 0).print false) =
        some (.withKey .pk (keyFlags .pk) 0) :=
  have h : parsePolicyMap ":pk(@0)".toList = some (.withKey .pk (keyFlags .pk) 0) := by decide
  ⟨h, parsePolicyMap_print_normal h⟩

/-- The trees `parse_policy_map` returns are exactly the trees accepted at the root whose
numbers all fit a `size_t`. -/
theorem parsePolicyMap_range {t : Node} :
    (∃ s, parsePolicyMap s = some t) ↔ Accepted 0 0 t ∧ t.AllFit :=
  ⟨fun ⟨_, h⟩ => ⟨parsePolicyMap_accepted h, parsePolicyMap_allFit h⟩,
    fun ⟨h, hfits⟩ => ⟨_, parsePolicyMap_print_of_accepted h (hfits _ _)⟩⟩

end WalletPolicy
