import WalletPolicy.Layout
import WalletPolicy.Thresholds

/-!
# The token switch on the arena

`LaysOut sizes childA child` says that the arena parser `childA` reads the text as `child`
reads it and then leaves in the arena the layout `storeNode` of the tree `child` returns, from
any position `parse_script` may start on (`Arena.Ready`). Each case of the token switch of
`parse_script` is shown to have this form once its child scripts do: the loops over the
children, the thresh list and the key indices first, then the cases one by one. What the cases
must match is where the C code allocates: the node before its children, each child after an
`ensureAlignment`, the first thresh list entry before the first child, the key-index array at
the aligned position after the multisig node, and an "Out of memory" at any of these points.

## Main results

`parseChildScriptsA_eq`, `parseThreshScriptsA_eq` and `parseMultisigKeysA_eq`: the three loops.

`parseBodyA_eq`: the token switch.
-/
namespace WalletPolicy

/-- An arena `parse_script` may start on: the position is aligned, or nothing fits any more. -/
def Arena.Ready (a : Arena) : Prop := a.offset % 4 = 0 ∨ a.size < alignUp a.offset

theorem ensureAlignment_ready (a : Arena) : (ensureAlignment a).Ready := by
  rcases ensureAlignment_offset a with ⟨h, -⟩ | ⟨h, hlt⟩
  · exact .inl (h ▸ alignUp_mod _)
  · exact .inr (by rw [h]; exact hlt)

@[simp] theorem Arena.ready_write {a : Arena} {p : Nat} {cell : Cell} :
    (a.write p cell).Ready ↔ a.Ready := Iff.rfl

/-- `childA` is `child` on the arena: the text is parsed as `child` parses it, and the tree is
then laid out from the current position. -/
def LaysOut (sizes : StructSizes) (childA : List Char → Arena → Option (List Char × Arena))
    (child : List Char → Option (Node × List Char)) : Prop :=
  ∀ s a, a.Ready →
    childA s a = (child s).bind fun (x, r) => (storeNode sizes a x).map fun a' => (r, a')

section
variable (sizes : StructSizes)

/-- The children of `parse_child_scripts`, laid out one after the other, and their roots. -/
def storeChildren : Arena → List Node → Option (List Nat × Arena)
  | a, [] => some ([], a)
  | a, x :: xs => do
    let a' ← storeNode sizes a x
    let (roots, a'') ← storeChildren a' xs
    some (alignUp a.offset :: roots, a'')

end

section
variable {sizes : StructSizes}

/-- Once a child is laid out, the alignment before it had fit. -/
theorem ensureAlignment_offset_of_store {a a' : Arena} {x : Node}
    (h : storeNode sizes a x = some a') : (ensureAlignment a).offset = alignUp a.offset := by
  rcases ensureAlignment_offset a with ⟨h', -⟩ | ⟨-, hlt⟩
  · exact h'
  · rw [storeNode_eq_none_of_lt hlt] at h
    cases h

variable {childA : List Char → Arena → Option (List Char × Arena)}
  {child : List Char → Option (Node × List Char)}

theorem parseChildScriptsA_eq
    (hchild : LaysOut sizes childA child) :
    ∀ n s a, parseChildScriptsA childA n s a =
      (parseChildScripts child n s).bind fun (xs, r) =>
        (storeChildren sizes a xs).map fun (roots, a') => (roots, r, a')
  | 0, s, a => rfl
  | 1, s, a => by
    simp only [parseChildScriptsA, parseChildScripts, hchild _ _ (ensureAlignment_ready a),
      storeNode_ensureAlignment, Option.bind_eq_bind]
    cases hc : child s with
    | none => simp only [Option.none_bind]
    | some p =>
      obtain ⟨x, r⟩ := p
      cases hx : storeNode sizes a x with
      | none => simp only [Option.some_bind, hx, storeChildren, Option.bind_eq_bind, Option.none_bind, Option.map_none']
      | some a' => simp only [Option.some_bind, hx, storeChildren, Option.bind_eq_bind, Option.map_some', ensureAlignment_offset_of_store hx]
  | n + 2, s, a => by
    simp only [parseChildScriptsA, parseChildScripts, hchild _ _ (ensureAlignment_ready a),
      storeNode_ensureAlignment, Option.bind_eq_bind]
    cases hc : child s with
    | none => simp only [Option.none_bind]
    | some p =>
      obtain ⟨x, r⟩ := p
      cases hx : storeNode sizes a x with
      | none =>
        simp only [Option.some_bind, hx, storeChildren, Option.bind_eq_bind, Option.none_bind, Option.map_none', Option.bind_assoc, Option.bind_none]
      | some a' =>
        simp only [Option.some_bind, hx, storeChildren, Option.bind_eq_bind, Option.map_some', ensureAlignment_offset_of_store hx, parseChildScriptsA_eq hchild, Option.bind_assoc, Option.bind_map, Function.comp_def, Option.map_eq_bind]

theorem parseThreshScripts_ne_nil :
    ∀ {fuel n countZ countO s scripts n' countZ' countO' r},
      parseThreshScripts child fuel n countZ countO s = some (scripts, n', countZ', countO', r) →
        scripts ≠ .nil
  | 0, _, _, _, _, _, _, _, _, _, h => by cases h
  | fuel + 1, n, countZ, countO, s, scripts, n', countZ', countO', r, h => by
    simp only [parseThreshScripts, Option.bind_eq_bind, Option.bind_eq_some] at h
    obtain ⟨⟨x, s1⟩, -, h⟩ := h
    split at h
    · simp only [Option.bind_eq_some, Option.guard_eq_some'] at h
      obtain ⟨-, -, -, -, h⟩ := h
      split at h
      · simp only [Option.bind_eq_some, Option.some.injEq, Prod.mk.injEq] at h
        obtain ⟨-, -, rfl, -⟩ := h
        exact ScriptList.noConfusion
      · simp only [Option.some.injEq, Prod.mk.injEq] at h
        obtain ⟨rfl, -⟩ := h
        exact ScriptList.noConfusion
    · cases h

theorem parseThreshScriptsA_eq
    (hchild : LaysOut sizes childA child) :
    ∀ fuel n countZ countO cur s a, parseThreshScriptsA sizes childA fuel n countZ countO cur s a =
      (parseThreshScripts child fuel n countZ countO s).bind fun (scripts, n', countZ', countO', r) =>
        (storeScripts sizes a cur scripts).map fun a' => (n', countZ', countO', r, a')
  | 0, _, _, _, _, _, _ => rfl
  | fuel + 1, n, countZ, countO, cur, s, a => by
    simp only [parseThreshScriptsA, parseThreshScripts, hchild _ _ (ensureAlignment_ready a),
      storeNode_ensureAlignment, Option.bind_eq_bind]
    cases hc : child s with
    | none => simp only [Option.none_bind]
    | some p =>
      obtain ⟨x, r⟩ := p
      simp only [Option.some_bind]
      cases hx : storeNode sizes a x with
      | none =>
        rcases x.flags with _ | X
        · rfl
        · cases consumeCharacter ',' r <;>
            simp only [storeScripts, hx, Option.bind_eq_bind, Option.bind_assoc, Option.some_bind, Option.none_bind,
              Option.map_none', Option.bind_none]
      | some a1 =>
        simp only [Option.map_some', Option.some_bind, ensureAlignment_offset_of_store hx,
          storeNode_root hx]
        rcases x.flags with _ | X
        · rfl
        · simp only [Option.bind_assoc]
          congr 1; funext; congr 1; funext
          cases consumeCharacter ',' r with
          | none => simp only [storeScripts, hx, Option.bind_eq_bind, Option.some_bind, Option.map_some']
          | some s2 =>
            simp only [parseThreshScriptsA_eq hchild]
            cases hrec : parseThreshScripts child fuel (n + 1) (if X.z = true then countZ + 1 else countZ)
                (if X.o = true then countO + 1 else countO) s2 with
            | none => simp only [Option.none_bind, Option.bind_none]
            | some res =>
              obtain ⟨next, n', countZ', countO', r'⟩ := res
              cases next with
              | nil => exact absurd rfl (parseThreshScripts_ne_nil hrec)
              | cons y rest =>
                simp only [storeScripts, hx, Option.bind_eq_bind, Option.bind_assoc, Option.some_bind,
                  Option.map_eq_bind, Function.comp_def]

theorem parseMultisigKeysA_eq : ∀ fuel n s a, parseMultisigKeysA fuel n s a =
    (parseMultisigKeys fuel n s).bind fun (keyIndexes, n', r) =>
      (storeKeys a keyIndexes).map fun a' => (n', r, a')
  | 0, _, _, _ => rfl
  | fuel + 1, n, s, a => by
    simp only [parseMultisigKeysA, parseMultisigKeys]
    split
    · simp only [storeKeys, Option.some_bind, Option.map_some']
    · cases consumeCharacter ',' s with
      | none => rfl
      | some s1 =>
        cases hk : parseKeyIndex s1 with
        | none => simp only [Option.bind_eq_bind, Option.some_bind, hk, Option.none_bind]
        | some p =>
          obtain ⟨keyIndex, s2⟩ := p
          cases halloc : bufferAlloc a sizeTBytes with
          | none => simp only [storeKeys, hk, halloc, Option.bind_eq_bind, Option.some_bind, Option.none_bind, Option.bind_assoc, Option.map_none', Option.bind_none]
          | some q => simp only [storeKeys, hk, halloc, Option.bind_eq_bind, Option.some_bind, Option.bind_assoc, parseMultisigKeysA_eq, Option.map_eq_bind, Function.comp_def]

end

theorem guard_eq_none_of {p : Prop} [Decidable p] (h : ¬p) : (guard p : Option Unit) = none := by
  simp only [guard, if_neg h]
  rfl

section
variable {sizes : StructSizes}

theorem parseChildScripts_length {child : List Char → Option (Node × List Char)} :
    ∀ {n s xs r}, parseChildScripts child n s = some (xs, r) → xs.length = n
  | 0, _, _, _, h => by cases h; rfl
  | 1, s, xs, r, h => by
    simp only [parseChildScripts, Option.bind_eq_bind, Option.bind_eq_some, Option.some.injEq,
      Prod.mk.injEq] at h
    obtain ⟨_, -, rfl, -⟩ := h
    rfl
  | n + 2, s, xs, r, h => by
    simp only [parseChildScripts, Option.bind_eq_bind, Option.bind_eq_some, Option.some.injEq,
      Prod.mk.injEq] at h
    obtain ⟨_, -, _, -, ⟨xs', _⟩, h3, rfl, -⟩ := h
    simp [parseChildScripts_length h3]

theorem storeChildren_spec : ∀ {a : Arena} {xs : List Node} {roots : List Nat} {a' : Arena},
    storeChildren sizes a xs = some (roots, a') → a.Grows a' ∧ roots.map a'.flagsAt = xs.map Node.flags
  | a, [], roots, a', h => by cases h; exact ⟨.refl a, rfl⟩
  | a, x :: xs, roots, a', h => by
    simp only [storeChildren, Option.bind_eq_bind, Option.bind_eq_some, Option.some.injEq,
      Prod.mk.injEq] at h
    obtain ⟨a1, h1, ⟨roots', a2⟩, h2, rfl, rfl⟩ := h
    obtain ⟨hg1, hoff1⟩ := storeNode_spec h1
    obtain ⟨hg2, hflags⟩ := storeChildren_spec h2
    have : alignUp a.offset < storeEnd sizes a.offset x := alignUp_lt_storeEnd _ _
    refine ⟨hg1.trans hg2, ?_⟩
    simp only [List.map_cons, hflags, List.cons.injEq, and_true]
    rw [Arena.flagsAt, hg2.frame _ (by omega)]
    exact storeNode_root h1

theorem storeChildren_length : ∀ {a : Arena} {xs : List Node} {roots : List Nat} {a' : Arena},
    storeChildren sizes a xs = some (roots, a') → roots.length = xs.length := fun h => by
  simpa using congrArg List.length (storeChildren_spec h).2

theorem storeNode_withScript2 (a : Arena) (type : PolicyNodeType) (f : Option Flags) (x y : Node) :
    storeNode sizes a (.withScript2 type f x y) =
      (bufferAlloc a sizes.withScript2).bind fun (node, a1) =>
        (storeChildren sizes a1 [x, y]).bind fun (roots, a3) => match roots with
          | [px, py] => some (a3.write node (.withScript2 type f px py))
          | _ => none := by
  simp only [storeNode, storeChildren, Option.bind_eq_bind, Option.bind_assoc, Option.some_bind]

theorem storeNode_withScript3 (a : Arena) (type : PolicyNodeType) (f : Option Flags) (x y z : Node) :
    storeNode sizes a (.withScript3 type f x y z) =
      (bufferAlloc a sizes.withScript3).bind fun (node, a1) =>
        (storeChildren sizes a1 [x, y, z]).bind fun (roots, a4) => match roots with
          | [px, py, pz] => some (a4.write node (.withScript3 type f px py pz))
          | _ => none := by
  simp only [storeNode, storeChildren, Option.bind_eq_bind, Option.bind_assoc, Option.some_bind]

theorem parseScript2A_eq {childA : List Char → Arena → Option (List Char × Arena)}
    {child : List Char → Option (Node × List Char)}
    (hchild : LaysOut sizes childA child)
    (token : PolicyNodeType) (s : List Char) (a : Arena) :
    parseScript2A sizes childA token s a = (parseScript2 child token s).bind fun (t, r) =>
      (storeNode sizes a t).map fun a' => (alignUp a.offset, r, a') := by
  simp only [parseScript2A, parseScript2, parseChildScriptsA_eq hchild, Option.bind_eq_bind]
  cases hp : parseChildScripts child 2 s with
  | none => simp only [Option.none_bind, Option.bind_none]
  | some p =>
    obtain ⟨xs, r⟩ := p
    obtain ⟨X, Y, rfl⟩ := List.length_eq_two.mp (parseChildScripts_length hp)
    simp only [Option.some_bind]
    by_cases hfit : alignUp a.offset + sizes.withScript2 ≤ a.size
    · simp only [bufferAlloc_of_le hfit, Option.some_bind]
      cases hs : storeChildren sizes { a with offset := alignUp a.offset + sizes.withScript2 }
          [X, Y] with
      | none =>
        rcases X.flags with _ | fX <;> rcases Y.flags with _ | fY <;>
          simp only [Option.map_none', Option.none_bind, Option.some_bind, Option.bind_assoc,
            storeNode_withScript2, bufferAlloc_of_le hfit, hs, Option.bind_none]
      | some q =>
        obtain ⟨roots, a3⟩ := q
        obtain ⟨px, py, rfl⟩ := List.length_eq_two.mp (storeChildren_length hs)
        have hfl := (storeChildren_spec hs).2
        simp only [List.map_cons, List.map_nil, List.cons.injEq, and_true] at hfl
        simp only [Option.map_some', Option.some_bind, hfl.1, hfl.2]
        rcases X.flags with _ | fX <;> rcases Y.flags with _ | fY <;>
          simp only [Option.none_bind, Option.some_bind, Option.bind_assoc, storeNode_withScript2,
            bufferAlloc_of_le hfit, hs, Option.map_some']
    · simp only [bufferAlloc_of_not_le hfit, Option.none_bind]
      rcases X.flags with _ | fX <;> rcases Y.flags with _ | fY <;>
        simp only [Option.none_bind, Option.some_bind, Option.bind_assoc, storeNode_withScript2,
          bufferAlloc_of_not_le hfit, Option.map_none', Option.bind_none]

theorem storeNode_write_eq_none_of_lt {a : Arena} (h : a.size < alignUp a.offset) (p : Nat)
    (cell : Cell) (t : Node) : storeNode sizes (a.write p cell) t = none :=
  @storeNode_eq_none_of_lt sizes (a.write p cell) h t

/-- The child of `sh` and `wsh` is parsed at the aligned position after the node. -/
theorem storeNode_write_ensureAlignment (a : Arena) (p : Nat) (type : PolicyNodeType)
    (x : Node) :
    storeNode sizes ((ensureAlignment a).write p (.withScript type none (ensureAlignment a).offset)) x =
      storeNode sizes (a.write p (.withScript type none (alignUp a.offset))) x := by
  rcases ensureAlignment_offset a with ⟨h, -⟩ | ⟨h, hlt⟩
  · rw [h, ← ensureAlignment_write, storeNode_ensureAlignment]
  · rw [h, storeNode_write_eq_none_of_lt hlt, storeNode_write_eq_none_of_lt hlt]

theorem storeKeys_ensureAlignment (a : Arena) (keyIndex : Nat) (keyIndexes : List Nat) :
    storeKeys (ensureAlignment a) (keyIndex :: keyIndexes) = storeKeys a (keyIndex :: keyIndexes) := by
  simp only [storeKeys, bufferAlloc_ensureAlignment]

/-- Once a key index is stored, the alignment before the array had fit. -/
theorem ensureAlignment_offset_of_storeKeys {a a' : Arena} {keyIndex : Nat}
    {keyIndexes : List Nat} (h : storeKeys a (keyIndex :: keyIndexes) = some a') :
    (ensureAlignment a).offset = alignUp a.offset := by
  rcases ensureAlignment_offset a with ⟨h', -⟩ | ⟨-, hlt⟩
  · exact h'
  · simp [storeKeys, bufferAlloc_of_not_le (by omega : ¬alignUp a.offset + sizeTBytes ≤ a.size)] at h

theorem parseMultisigA_eq (fuel contextFlags : Nat) (token : PolicyNodeType) (s : List Char)
    (a : Arena) :
    parseMultisigA sizes fuel contextFlags token s a =
      (parseMultisig fuel contextFlags token s).bind fun (t, r) =>
        (storeNode sizes a t).map fun a' => (alignUp a.offset, r, a') := by
  simp only [parseMultisigA, parseMultisig, Option.bind_eq_bind, parseMultisigKeysA_eq]
  by_cases hfit : alignUp a.offset + sizes.multisig ≤ a.size
  swap
  · simp only [bufferAlloc_of_not_le hfit, storeNode, Option.bind_eq_bind, Option.none_bind,
      Option.bind_assoc, Option.some_bind, Option.map_none', Option.bind_none]
  simp only [bufferAlloc_of_le hfit, Option.some_bind]
  by_cases hg : ¬(token = .sortedmulti ∧ contextFlags &&& contextWithinSh ≠ 0 ∧
    contextFlags &&& contextWithinWsh ≠ 0)
  swap
  · simp only [guard_eq_none_of hg, Option.none_bind]
  simp only [guard_eq_some_of hg, Option.some_bind]
  cases parseUnsignedDecimal sizeTBits s with
  | none => rfl
  | some p =>
    obtain ⟨k, s1⟩ := p
    cases hkeys : parseMultisigKeys fuel 0 s1 with
    | none => simp only [Option.some_bind, hkeys, Option.none_bind, Option.bind_none]
    | some q =>
      obtain ⟨keyIndexes, n, s2⟩ := q
      obtain ⟨hn, -⟩ := parseMultisigKeys_spec hkeys
      rw [Nat.zero_add] at hn
      subst hn
      by_cases hkn : 1 ≤ k ∧ k ≤ keyIndexes.length ∧ keyIndexes.length ≤ maxPolicyMapCosigners
      swap
      · simp only [Option.some_bind, hkeys, guard_eq_none_of hkn, Option.bind_assoc,
          Option.none_bind, Option.map_eq_bind, Function.comp_def, Option.bind_none]
      obtain ⟨k0, ks, rfl⟩ : ∃ k0 ks, keyIndexes = k0 :: ks :=
        List.exists_cons_of_ne_nil (by rintro rfl; simp at hkn; omega)
      cases hs : storeKeys { a with offset := alignUp a.offset + sizes.multisig } (k0 :: ks) with
      | none =>
        simp only [Option.some_bind, hkeys, storeKeys_ensureAlignment, hs, guard_eq_some_of hkn,
          storeNode, Option.bind_eq_bind, bufferAlloc_of_le hfit, Option.bind_assoc,
          Option.none_bind, Option.map_none', Option.bind_none]
      | some a2 =>
        simp only [Option.some_bind, hkeys, storeKeys_ensureAlignment, hs,
          ensureAlignment_offset_of_storeKeys hs, guard_eq_some_of hkn, storeNode,
          Option.bind_eq_bind, bufferAlloc_of_le hfit, Option.bind_assoc, Option.map_some']

variable {childA : Nat → List Char → Arena → Option (List Char × Arena)}
  {child : Nat → List Char → Option (Node × List Char)}

theorem parseBodyA_thresh_eq (hchild : ∀ c, LaysOut sizes (childA c) (child c))
    (fuel depth contextFlags : Nat) (s : List Char) (a : Arena) :
    parseBodyA sizes childA fuel depth contextFlags .thresh s a =
      (parseBody child fuel depth contextFlags .thresh s).bind fun (t, r) =>
        (storeNode sizes a t).map fun a' => (alignUp a.offset, r, a') := by
  unfold parseBodyA parseBody
  simp only [Option.bind_eq_bind]
  by_cases hfit : alignUp a.offset + sizes.thresh ≤ a.size
  swap
  · simp only [bufferAlloc_of_not_le hfit, storeNode, Option.bind_eq_bind, Option.none_bind, Option.bind_assoc, Option.some_bind, Option.map_none', Option.bind_none]
  simp only [bufferAlloc_of_le hfit, Option.some_bind]
  cases parseUnsignedDecimal sizeTBits s with
  | none => rfl
  | some p =>
    obtain ⟨k, s1⟩ := p
    simp only [Option.some_bind]
    cases consumeCharacter ',' s1 with
    | none => rfl
    | some s2 =>
      simp only [Option.some_bind]
      by_cases hk : ¬k < 1
      swap
      · simp only [guard_eq_none_of hk, Option.none_bind]
      simp only [guard_eq_some_of hk, Option.some_bind]
      by_cases hfit2 : alignUp (alignUp a.offset + sizes.thresh) + sizes.scriptlist ≤ a.size
      · simp only [@bufferAlloc_of_le { a with offset := alignUp a.offset + sizes.thresh } sizes.scriptlist hfit2,
          parseThreshScriptsA_eq (hchild 0), storeNode, bufferAlloc_of_le hfit, Option.bind_assoc,
          Option.bind_map, Function.comp_def, Option.bind_eq_bind, Option.some_bind, Option.map_eq_bind]
      · simp only [@bufferAlloc_of_not_le { a with offset := alignUp a.offset + sizes.thresh } sizes.scriptlist hfit2,
          storeNode, bufferAlloc_of_le hfit, Option.bind_assoc, Option.bind_eq_bind, Option.some_bind, Option.none_bind, Option.bind_none, Option.map_none']

theorem parseBodyA_andor_eq (hchild : ∀ c, LaysOut sizes (childA c) (child c))
    (fuel depth contextFlags : Nat) (s : List Char) (a : Arena) :
    parseBodyA sizes childA fuel depth contextFlags .andor s a =
      (parseBody child fuel depth contextFlags .andor s).bind fun (t, r) =>
        (storeNode sizes a t).map fun a' => (alignUp a.offset, r, a') := by
  unfold parseBodyA parseBody
  simp only [parseChildScriptsA_eq (hchild 0), Option.bind_eq_bind]
  cases hp : parseChildScripts (child 0) 3 s with
  | none => simp only [Option.none_bind, Option.bind_none]
  | some p =>
    obtain ⟨xs, r⟩ := p
    obtain ⟨X, Y, Z, rfl⟩ := List.length_eq_three.mp (parseChildScripts_length hp)
    simp only [Option.some_bind]
    by_cases hfit : alignUp a.offset + sizes.withScript3 ≤ a.size
    · simp only [bufferAlloc_of_le hfit, Option.some_bind]
      cases hs : storeChildren sizes { a with offset := alignUp a.offset + sizes.withScript3 }
          [X, Y, Z] with
      | none =>
        rcases X.flags with _ | fX <;> rcases Y.flags with _ | fY <;>
          rcases Z.flags with _ | fZ <;>
          simp only [Option.map_none', Option.none_bind, Option.some_bind, Option.bind_assoc,
            storeNode_withScript3, bufferAlloc_of_le hfit, hs, Option.bind_none]
      | some q =>
        obtain ⟨roots, a4⟩ := q
        obtain ⟨px, py, pz, rfl⟩ := List.length_eq_three.mp (storeChildren_length hs)
        have hfl := (storeChildren_spec hs).2
        simp only [List.map_cons, List.map_nil, List.cons.injEq, and_true] at hfl
        simp only [Option.map_some', Option.some_bind, hfl.1, hfl.2.1, hfl.2.2]
        rcases X.flags with _ | fX <;> rcases Y.flags with _ | fY <;>
          rcases Z.flags with _ | fZ <;>
          simp only [Option.none_bind, Option.some_bind, Option.bind_assoc, storeNode_withScript3,
            bufferAlloc_of_le hfit, hs, Option.map_some']
    · simp only [bufferAlloc_of_not_le hfit, Option.none_bind]
      rcases X.flags with _ | fX <;> rcases Y.flags with _ | fY <;>
        rcases Z.flags with _ | fZ <;>
        simp only [Option.none_bind, Option.some_bind, Option.bind_assoc, storeNode_withScript3,
          bufferAlloc_of_not_le hfit, Option.map_none', Option.bind_none]

theorem parseBodyA_eq (hchild : ∀ c, LaysOut sizes (childA c) (child c)) (fuel depth contextFlags : Nat)
    (token : PolicyNodeType) (s : List Char) (a : Arena) :
    parseBodyA sizes childA fuel depth contextFlags token s a =
      (parseBody child fuel depth contextFlags token s).bind fun (t, r) =>
        (storeNode sizes a t).map fun a' => (alignUp a.offset, r, a') := by
  simp only [LaysOut] at hchild
  unfold parseBodyA parseBody
  cases token
  case sh | wsh =>
    simp only [Option.bind_eq_bind, guard]
    split
    · by_cases hfit : alignUp a.offset + sizes.withScript ≤ a.size <;>
        simp only [Option.pure_def, Option.some_bind, bufferAlloc_of_le, bufferAlloc_of_not_le, hfit, hchild,
          ensureAlignment_ready, Arena.ready_write, storeNode_write_ensureAlignment, storeNode,
          Option.bind_eq_bind, PolicyNodeType.isWrapper, Bool.false_eq_true, ↓reduceIte,
          Option.bind_assoc, Option.bind_map, Option.map_eq_bind, Function.comp_def,
          Option.none_bind, Option.bind_none, not_false_eq_true]
    · rfl
  case zero | one =>
    by_cases hfit : alignUp a.offset + sizes.constant ≤ a.size <;>
      simp only [storeNode, Option.bind_eq_bind, bufferAlloc_of_le,
        bufferAlloc_of_not_le, hfit, not_false_eq_true, Option.some_bind, Option.none_bind,
        Option.bind_assoc, Option.map_some', Option.map_none', Option.bind_none]
  case sha256 | hash256 =>
    by_cases hfit : alignUp a.offset + sizes.withHash256 ≤ a.size <;>
      simp only [storeNode, Option.bind_eq_bind, bufferAlloc_of_le,
        bufferAlloc_of_not_le, hfit, not_false_eq_true, Option.some_bind, Option.none_bind,
        Option.bind_assoc, Option.map_some', Option.map_none', Option.bind_none]
  case ripemd160 | hash160 =>
    by_cases hfit : alignUp a.offset + sizes.withHash160 ≤ a.size <;>
      simp only [storeNode, Option.bind_eq_bind, bufferAlloc_of_le,
        bufferAlloc_of_not_le, hfit, not_false_eq_true, Option.some_bind, Option.none_bind,
        Option.bind_assoc, Option.map_some', Option.map_none', Option.bind_none]
  case older | after =>
    by_cases hfit : alignUp a.offset + sizes.withUint32 ≤ a.size <;>
      simp only [storeNode, Option.bind_eq_bind, bufferAlloc_of_le,
        bufferAlloc_of_not_le, hfit, not_false_eq_true, Option.some_bind, Option.none_bind,
        Option.bind_assoc, Option.map_some', Option.map_none', Option.bind_none]
  case pk | pkh | pkK | pkH | wpkh | tr =>
    by_cases hfit : alignUp a.offset + sizes.withKey ≤ a.size <;>
      simp only [parseKeyNodeA, parseKeyNode, storeNode,
        Option.bind_eq_bind, bufferAlloc_of_le, bufferAlloc_of_not_le, hfit, not_false_eq_true,
        Option.some_bind, Option.none_bind, Option.bind_assoc, Option.map_some', Option.map_none',
        Option.bind_none]
  case andV | andB | andN | orB | orC | orD | orI => exact parseScript2A_eq (hchild 0) _ _ _
  case multi | sortedmulti => exact parseMultisigA_eq _ _ _ _ _
  case thresh => exact parseBodyA_thresh_eq hchild fuel depth contextFlags s a
  case andor => exact parseBodyA_andor_eq hchild fuel depth contextFlags s a
  all_goals rfl
end

end WalletPolicy
