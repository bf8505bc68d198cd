import WalletPolicy.Arena

/-!
# A tree laid out in the arena

`storeNode sizes a t` writes the tree `t` into the arena `a` in the order `parse_script`
allocates it: a node before its children, the children from left to right, each one at the
aligned position after the one before; the entry of a thresh list before each child, and the
key indices of a multisig in one array after the node. The arena parser is compared with it
(`parseScriptA_eq`); this module says what it leaves in the arena.

## Main results

`storeNode_spec`: the layout only writes the part of the buffer it allocates, and ends at
`storeEnd a.offset t`, computed from the tree alone.

`storeNode_isSome_iff`: the layout of `t` fits exactly when `storeEnd a.offset t` is within the
buffer.

`storeNode_root`: the root struct carries the flags of the tree, where the parser reads them.
-/
namespace WalletPolicy

section
variable (sizes : StructSizes)

/-- The key indices of a multisig, one `size_t` each. -/
def storeKeys : Arena → List Nat → Option Arena
  | a, [] => some a
  | a, keyIndex :: keyIndexes => do
    let (keyIndexOut, a) ← bufferAlloc a sizeTBytes
    storeKeys (a.write keyIndexOut (.keyIndex keyIndex)) keyIndexes

mutual
/-- The tree `t` laid out from the current position of the arena; its root is at
`alignUp a.offset`. -/
def storeNode : Arena → Node → Option Arena
  | a, .constant type f => do
    let (node, a) ← bufferAlloc a sizes.constant
    some (a.write node (.constant type f))
  | a, .withScript type f x =>
    if type.isWrapper then do
      let (node, a) ← bufferAlloc a sizes.withScript
      let a' ← storeNode a x
      some (a'.write node (.withScript type f (alignUp a.offset)))
    else do
      let (node, a) ← bufferAlloc a sizes.withScript
      storeNode (a.write node (.withScript type f (alignUp a.offset))) x
  | a, .withScript2 type f x y => do
    let (node, a1) ← bufferAlloc a sizes.withScript2
    let a2 ← storeNode a1 x
    let a3 ← storeNode a2 y
    some (a3.write node (.withScript2 type f (alignUp a1.offset) (alignUp a2.offset)))
  | a, .withScript3 type f x y z => do
    let (node, a1) ← bufferAlloc a sizes.withScript3
    let a2 ← storeNode a1 x
    let a3 ← storeNode a2 y
    let a4 ← storeNode a3 z
    some (a4.write node
      (.withScript3 type f (alignUp a1.offset) (alignUp a2.offset) (alignUp a3.offset)))
  | a, .thresh f k n scripts => do
    let (node, a) ← bufferAlloc a sizes.thresh
    let (list, a) ← bufferAlloc a sizes.scriptlist
    let a ← storeScripts a list scripts
    some (a.write node (.thresh f k n list))
  | a, .withKey type f keyIndex => do
    let (node, a) ← bufferAlloc a sizes.withKey
    some (a.write node (.withKey type f keyIndex))
  | a, .withHash256 type f h => do
    let (node, a) ← bufferAlloc a sizes.withHash256
    some (a.write node (.withHash256 type f h))
  | a, .withHash160 type f h => do
    let (node, a) ← bufferAlloc a sizes.withHash160
    some (a.write node (.withHash160 type f h))
  | a, .withUint32 type f n => do
    let (node, a) ← bufferAlloc a sizes.withUint32
    some (a.write node (.withUint32 type f n))
  | a, .multisig type f k n keyIndexes => do
    let (node, a) ← bufferAlloc a sizes.multisig
    let a' ← storeKeys a keyIndexes
    some (a'.write node (.multisig type f k n (alignUp a.offset)))

/-- The children of a thresh node from the list entry `cur` on, each entry allocated after
the child before it. -/
def storeScripts : Arena → Nat → ScriptList → Option Arena
  | a, _, .nil => some a
  | a, cur, .cons x next => do
    let a' ← storeNode a x
    match next with
    | .nil => some (a'.write cur (.scriptlist (alignUp a.offset) none))
    | .cons _ _ => do
      let (nextEntry, a') ← bufferAlloc a' sizes.scriptlist
      storeScripts (a'.write cur (.scriptlist (alignUp a.offset) (some nextEntry))) nextEntry next
end

/-- The position of the arena after the key indices `keyIndexes` from position `o`. -/
def keysEnd : Nat → List Nat → Nat
  | o, [] => o
  | o, _ :: keyIndexes => keysEnd (alignUp o + sizeTBytes) keyIndexes

mutual
/-- The position of the arena after the layout of `t` from position `o`. -/
def storeEnd : Nat → Node → Nat
  | o, .constant .. => alignUp o + sizes.constant
  | o, .withScript _ _ x => storeEnd (alignUp o + sizes.withScript) x
  | o, .withScript2 _ _ x y => storeEnd (storeEnd (alignUp o + sizes.withScript2) x) y
  | o, .withScript3 _ _ x y z =>
    storeEnd (storeEnd (storeEnd (alignUp o + sizes.withScript3) x) y) z
  | o, .thresh _ _ _ scripts =>
    scriptsEnd (alignUp (alignUp o + sizes.thresh) + sizes.scriptlist) scripts
  | o, .withKey .. => alignUp o + sizes.withKey
  | o, .withHash256 .. => alignUp o + sizes.withHash256
  | o, .withHash160 .. => alignUp o + sizes.withHash160
  | o, .withUint32 .. => alignUp o + sizes.withUint32
  | o, .multisig _ _ _ _ keyIndexes => keysEnd (alignUp o + sizes.multisig) keyIndexes

def scriptsEnd : Nat → ScriptList → Nat
  | o, .nil => o
  | o, .cons x next =>
    match next with
    | .nil => storeEnd o x
    | .cons _ _ => scriptsEnd (alignUp (storeEnd o x) + sizes.scriptlist) next
end

end

/-! ### The extent of a layout -/

section
variable {sizes : StructSizes}

theorem le_keysEnd : ∀ (o : Nat) (keyIndexes : List Nat), o ≤ keysEnd o keyIndexes
  | _, [] => Nat.le_refl _
  | o, _ :: keyIndexes => Nat.le_trans (by have := le_alignUp o; omega) (le_keysEnd _ keyIndexes)

mutual
/-- A layout occupies at least one byte after its root. -/
theorem alignUp_lt_storeEnd : ∀ (o : Nat) (t : Node), alignUp o < storeEnd sizes o t
  | o, .constant .. => by simp only [storeEnd]; have := sizes.constant.pos; omega
  | o, .withScript _ _ x => by
    have := alignUp_lt_storeEnd (alignUp o + sizes.withScript) x
    have := le_alignUp (alignUp o + sizes.withScript)
    simp only [storeEnd]; omega
  | o, .withScript2 _ _ x y => by
    have := alignUp_lt_storeEnd (alignUp o + sizes.withScript2) x
    have := le_alignUp (alignUp o + sizes.withScript2)
    have := alignUp_lt_storeEnd (storeEnd sizes (alignUp o + sizes.withScript2) x) y
    have := le_alignUp (storeEnd sizes (alignUp o + sizes.withScript2) x)
    simp only [storeEnd]; omega
  | o, .withScript3 _ _ x y z => by
    have := alignUp_lt_storeEnd (alignUp o + sizes.withScript3) x
    have := le_alignUp (alignUp o + sizes.withScript3)
    have := alignUp_lt_storeEnd (storeEnd sizes (alignUp o + sizes.withScript3) x) y
    have := le_alignUp (storeEnd sizes (alignUp o + sizes.withScript3) x)
    have := alignUp_lt_storeEnd
      (storeEnd sizes (storeEnd sizes (alignUp o + sizes.withScript3) x) y) z
    have := le_alignUp (storeEnd sizes (storeEnd sizes (alignUp o + sizes.withScript3) x) y)
    simp only [storeEnd]; omega
  | o, .thresh _ _ _ scripts => by
    have := le_scriptsEnd (alignUp (alignUp o + sizes.thresh) + sizes.scriptlist) scripts
    have := le_alignUp (alignUp o + sizes.thresh)
    have := sizes.thresh.pos
    simp only [storeEnd]; omega
  | o, .withKey .. => by simp only [storeEnd]; have := sizes.withKey.pos; omega
  | o, .withHash256 .. => by simp only [storeEnd]; have := sizes.withHash256.pos; omega
  | o, .withHash160 .. => by simp only [storeEnd]; have := sizes.withHash160.pos; omega
  | o, .withUint32 .. => by simp only [storeEnd]; have := sizes.withUint32.pos; omega
  | o, .multisig _ _ _ _ keyIndexes => by
    have := le_keysEnd (alignUp o + sizes.multisig) keyIndexes
    have := sizes.multisig.pos
    simp only [storeEnd]; omega

theorem le_scriptsEnd : ∀ (o : Nat) (l : ScriptList), o ≤ scriptsEnd sizes o l
  | o, .nil => Nat.le_refl o
  | o, .cons x next => by
    have hx : alignUp o < storeEnd sizes o x := alignUp_lt_storeEnd o x
    have hle := le_alignUp o
    have hnext := le_scriptsEnd (alignUp (storeEnd sizes o x) + sizes.scriptlist) next
    have := le_alignUp (storeEnd sizes o x)
    cases next <;> simp only [scriptsEnd] at hnext ⊢ <;> omega
end

theorem le_storeEnd (o : Nat) (t : Node) : o ≤ storeEnd sizes o t :=
  (le_alignUp o).trans (alignUp_lt_storeEnd o t).le

/-! ### What a layout writes -/

/-- `a'` is `a` with more of the buffer used: the structs outside the new positions are as they
were, and once anything is allocated the position is within the buffer. -/
structure Arena.Grows (a a' : Arena) : Prop where
  offset_le : a.offset ≤ a'.offset
  size_eq : a'.size = a.size
  frame : ∀ p, p < a.offset ∨ a'.offset ≤ p → a'.heap p = a.heap p
  fits : a.offset < a'.offset → a'.offset ≤ a'.size

theorem Arena.Grows.refl (a : Arena) : a.Grows a :=
  ⟨Nat.le_refl _, rfl, fun _ _ => rfl, fun h => absurd h (Nat.lt_irrefl _)⟩

theorem Arena.Grows.trans {a b c : Arena} (hab : a.Grows b) (hbc : b.Grows c) : a.Grows c where
  offset_le := hab.offset_le.trans hbc.offset_le
  size_eq := hbc.size_eq.trans hab.size_eq
  frame p hp := by
    have := hab.offset_le
    have := hbc.offset_le
    rw [hbc.frame p (by omega), hab.frame p (by omega)]
  fits h := by
    by_cases hb : b.offset < c.offset
    · exact hbc.fits hb
    · have := hbc.offset_le
      have := hab.fits (by omega)
      rw [hbc.size_eq]
      omega

/-- An arena grown from one within its buffer is within its buffer. -/
theorem Arena.Grows.offset_le_size {a a' : Arena} (h : a.Grows a') (ha : a.offset ≤ a.size) :
    a'.offset ≤ a'.size := by
  rcases Nat.lt_or_ge a.offset a'.offset with hlt | hge
  · exact h.fits hlt
  · have := h.offset_le
    have := h.size_eq
    omega

theorem Arena.Grows.write {a a' : Arena} {p : Nat} (cell : Cell) (h : a.Grows a')
    (hlo : a.offset ≤ p) (hhi : p < a'.offset) : a.Grows (a'.write p cell) :=
  ⟨h.offset_le, h.size_eq, fun q hq => by
    simp only [Arena.write_offset] at hq
    rw [Arena.write_heap_of_ne _ (by omega), h.frame q hq], h.fits⟩

theorem bufferAlloc_grows {a a' : Arena} {size p : Nat} (h : bufferAlloc a size = some (p, a')) :
    a.Grows a' ∧ p = alignUp a.offset ∧ a'.offset = alignUp a.offset + size := by
  obtain ⟨hfit, rfl, rfl⟩ := bufferAlloc_eq_some.mp h
  have := le_alignUp a.offset
  exact ⟨⟨by simp only; omega, rfl, fun _ _ => rfl, fun _ => hfit⟩, rfl, rfl⟩

/-- A node allocated at `p` and written once the arena has grown past it. -/
theorem Arena.Grows.alloc_write {a a1 a2 : Arena} {n p : Nat}
    (halloc : bufferAlloc a n = some (p, a1)) (hn : 0 < n) (h12 : a1.Grows a2) (cell : Cell) :
    a.Grows (a2.write p cell) := by
  obtain ⟨hgrow, rfl, hoff⟩ := bufferAlloc_grows halloc
  have := h12.offset_le
  exact (hgrow.trans h12).write cell (le_alignUp _) (by omega)

theorem storeKeys_spec : ∀ {a : Arena} {keyIndexes : List Nat} {a' : Arena},
    storeKeys a keyIndexes = some a' → a.Grows a' ∧ a'.offset = keysEnd a.offset keyIndexes
  | a, [], a', h => by cases h; exact ⟨.refl a, rfl⟩
  | a, k :: ks, a', h => by
    simp only [storeKeys, Option.bind_eq_bind, Option.bind_eq_some, Prod.exists] at h
    obtain ⟨p, a1, halloc, h⟩ := h
    obtain ⟨hgrow, rfl, hoff⟩ := bufferAlloc_grows halloc
    obtain ⟨hrest, hend⟩ := storeKeys_spec h
    have hp := le_alignUp a.offset
    have hsize : 0 < sizeTBytes := by decide
    exact ⟨(hgrow.write _ hp (by omega)).trans hrest, by rw [hend]; simp [keysEnd, hoff]⟩

mutual
/-- The layout of `t` grows the arena to `storeEnd a.offset t`. -/
theorem storeNode_spec : ∀ {a : Arena} {t : Node} {a' : Arena}, storeNode sizes a t = some a' →
    a.Grows a' ∧ a'.offset = storeEnd sizes a.offset t
  | a, .constant type f, a', h => by
    simp only [storeNode, Option.bind_eq_bind, Option.bind_eq_some, Prod.exists,
      Option.some.injEq] at h
    obtain ⟨p, a1, halloc, rfl⟩ := h
    exact ⟨.alloc_write halloc sizes.constant.pos (.refl a1) _,
      by simp [storeEnd, (bufferAlloc_grows halloc).2.2]⟩
  | a, .withScript type f x, a', h => by
    simp only [storeNode] at h
    split at h
    · simp only [Option.bind_eq_bind, Option.bind_eq_some, Prod.exists, Option.some.injEq] at h
      obtain ⟨p, a1, halloc, a2, h2, rfl⟩ := h
      obtain ⟨hx, hxoff⟩ := storeNode_spec h2
      exact ⟨.alloc_write halloc sizes.withScript.pos hx _,
        by simp [storeEnd, hxoff, (bufferAlloc_grows halloc).2.2]⟩
    · simp only [Option.bind_eq_bind, Option.bind_eq_some, Prod.exists] at h
      obtain ⟨p, a1, halloc, h2⟩ := h
      obtain ⟨hx, hxoff⟩ := storeNode_spec h2
      exact ⟨(Arena.Grows.alloc_write halloc sizes.withScript.pos (.refl a1) _).trans hx,
        by simp [storeEnd, hxoff, (bufferAlloc_grows halloc).2.2]⟩
  | a, .withScript2 type f x y, a', h => by
    simp only [storeNode, Option.bind_eq_bind, Option.bind_eq_some, Prod.exists,
      Option.some.injEq] at h
    obtain ⟨p, a1, halloc, a2, h2, a3, h3, rfl⟩ := h
    obtain ⟨hx, hxoff⟩ := storeNode_spec h2
    obtain ⟨hy, hyoff⟩ := storeNode_spec h3
    exact ⟨.alloc_write halloc sizes.withScript2.pos (hx.trans hy) _,
      by simp [storeEnd, hxoff, hyoff, (bufferAlloc_grows halloc).2.2]⟩
  | a, .withScript3 type f x y z, a', h => by
    simp only [storeNode, Option.bind_eq_bind, Option.bind_eq_some, Prod.exists,
      Option.some.injEq] at h
    obtain ⟨p, a1, halloc, a2, h2, a3, h3, a4, h4, rfl⟩ := h
    obtain ⟨hx, hxoff⟩ := storeNode_spec h2
    obtain ⟨hy, hyoff⟩ := storeNode_spec h3
    obtain ⟨hz, hzoff⟩ := storeNode_spec h4
    exact ⟨.alloc_write halloc sizes.withScript3.pos ((hx.trans hy).trans hz) _,
      by simp [storeEnd, hxoff, hyoff, hzoff, (bufferAlloc_grows halloc).2.2]⟩
  | a, .thresh f k n scripts, a', h => by
    simp only [storeNode, Option.bind_eq_bind, Option.bind_eq_some, Prod.exists,
      Option.some.injEq] at h
    obtain ⟨p, a1, halloc, l, a2, hlist, a3, h3, rfl⟩ := h
    obtain ⟨hgrow, rfl, hoff2⟩ := bufferAlloc_grows hlist
    obtain ⟨hoff3, hsize3, hframe3, hfit3⟩ := storeScripts_spec h3
    have hl := le_alignUp a1.offset
    have hs := sizes.scriptlist.pos
    have h23 : a2.offset ≤ scriptsEnd sizes a2.offset scripts := le_scriptsEnd _ _
    have h13 : a1.Grows a3 := ⟨by omega, hsize3.trans hgrow.size_eq, fun q hq =>
      (hframe3 q (by omega) (by omega)).trans (hgrow.frame q (by omega)),
      fun _ => hfit3 (hgrow.fits (by omega))⟩
    exact ⟨.alloc_write halloc sizes.thresh.pos h13 _,
      by simp [storeEnd, hoff3, hoff2, (bufferAlloc_grows halloc).2.2]⟩
  | a, .withKey type f keyIndex, a', h => by
    simp only [storeNode, Option.bind_eq_bind, Option.bind_eq_some, Prod.exists,
      Option.some.injEq] at h
    obtain ⟨p, a1, halloc, rfl⟩ := h
    exact ⟨.alloc_write halloc sizes.withKey.pos (.refl a1) _,
      by simp [storeEnd, (bufferAlloc_grows halloc).2.2]⟩
  | a, .withHash256 type f hash, a', h => by
    simp only [storeNode, Option.bind_eq_bind, Option.bind_eq_some, Prod.exists,
      Option.some.injEq] at h
    obtain ⟨p, a1, halloc, rfl⟩ := h
    exact ⟨.alloc_write halloc sizes.withHash256.pos (.refl a1) _,
      by simp [storeEnd, (bufferAlloc_grows halloc).2.2]⟩
  | a, .withHash160 type f hash, a', h => by
    simp only [storeNode, Option.bind_eq_bind, Option.bind_eq_some, Prod.exists,
      Option.some.injEq] at h
    obtain ⟨p, a1, halloc, rfl⟩ := h
    exact ⟨.alloc_write halloc sizes.withHash160.pos (.refl a1) _,
      by simp [storeEnd, (bufferAlloc_grows halloc).2.2]⟩
  | a, .withUint32 type f n, a', h => by
    simp only [storeNode, Option.bind_eq_bind, Option.bind_eq_some, Prod.exists,
      Option.some.injEq] at h
    obtain ⟨p, a1, halloc, rfl⟩ := h
    exact ⟨.alloc_write halloc sizes.withUint32.pos (.refl a1) _,
      by simp [storeEnd, (bufferAlloc_grows halloc).2.2]⟩
  | a, .multisig type f k n keyIndexes, a', h => by
    simp only [storeNode, Option.bind_eq_bind, Option.bind_eq_some, Prod.exists,
      Option.some.injEq] at h
    obtain ⟨p, a1, halloc, a2, h2, rfl⟩ := h
    obtain ⟨hkeys, hkoff⟩ := storeKeys_spec h2
    exact ⟨.alloc_write halloc sizes.multisig.pos hkeys _,
      by simp [storeEnd, hkoff, (bufferAlloc_grows halloc).2.2]⟩

/-- The thresh list from the entry `cur` on: the entry `cur` is written, as the rest of what the
layout allocates. -/
theorem storeScripts_spec : ∀ {a : Arena} {cur : Nat} {scripts : ScriptList} {a' : Arena},
    storeScripts sizes a cur scripts = some a' →
      a'.offset = scriptsEnd sizes a.offset scripts ∧ a'.size = a.size ∧
        (∀ q, q ≠ cur → q < a.offset ∨ a'.offset ≤ q → a'.heap q = a.heap q) ∧
        (a.offset ≤ a.size → a'.offset ≤ a'.size)
  | a, cur, .nil, a', h => by cases h; exact ⟨rfl, rfl, fun _ _ _ => rfl, id⟩
  | a, cur, .cons x next, a', h => by
    simp only [storeScripts, Option.bind_eq_bind, Option.bind_eq_some] at h
    obtain ⟨a1, h1, h⟩ := h
    obtain ⟨hx, hxoff⟩ := storeNode_spec h1
    cases next with
    | nil =>
      simp only [Option.some.injEq] at h
      subst h
      have hx1 : alignUp a.offset < storeEnd sizes a.offset x := alignUp_lt_storeEnd _ _
      have := le_alignUp a.offset
      refine ⟨by simp [scriptsEnd, hxoff], hx.size_eq, fun q hne hq => ?_,
        fun _ => hx.fits (by omega)⟩
      rw [Arena.write_heap_of_ne _ hne, hx.frame q (by simpa using hq)]
    | cons y rest =>
      simp only [Option.bind_eq_some, Prod.exists] at h
      obtain ⟨ne, a2, halloc, h⟩ := h
      obtain ⟨hgrow, rfl, hoff2⟩ := bufferAlloc_grows halloc
      obtain ⟨hoff, hsize, hframe, hfit⟩ := storeScripts_spec h
      simp only [Arena.write_offset, Arena.write_size] at hoff hsize hframe hfit
      have hl := le_alignUp a1.offset
      have hx1 := hx.offset_le
      have h2end : a2.offset ≤ scriptsEnd sizes a2.offset (.cons y rest) := le_scriptsEnd _ _
      have hs := sizes.scriptlist.pos
      refine ⟨by simp [scriptsEnd, hoff, hoff2, hxoff], hsize.trans (hgrow.size_eq.trans hx.size_eq),
        fun q hne hq => ?_, fun _ => hfit (hgrow.fits (by omega))⟩
      rw [hframe q (by omega) (by omega), Arena.write_heap_of_ne _ hne,
        hgrow.frame q (by omega), hx.frame q (by omega)]
end

/-! ### When the layout fits -/

theorem storeKeys_isSome : ∀ (a : Arena) (keyIndexes : List Nat),
    keysEnd a.offset keyIndexes ≤ a.size → ∃ a', storeKeys a keyIndexes = some a'
  | a, [], _ => ⟨a, rfl⟩
  | a, k :: ks, h => by
    simp only [keysEnd] at h
    have := le_keysEnd (alignUp a.offset + sizeTBytes) ks
    obtain ⟨a', h'⟩ := storeKeys_isSome
      ({ a with offset := alignUp a.offset + sizeTBytes }.write (alignUp a.offset) (.keyIndex k))
      ks h
    exact ⟨a', by simp [storeKeys, bufferAlloc_of_le (by omega : alignUp a.offset + sizeTBytes ≤ a.size), h']⟩

mutual
theorem storeNode_isSome : ∀ (a : Arena) (t : Node),
    storeEnd sizes a.offset t ≤ a.size → ∃ a', storeNode sizes a t = some a'
  | a, .constant type f, h => by
    simp only [storeEnd] at h
    simp [storeNode, bufferAlloc_of_le h]
  | a, .withScript type f x, h => by
    simp only [storeEnd] at h
    have : alignUp a.offset + sizes.withScript ≤ storeEnd sizes (alignUp a.offset + sizes.withScript) x :=
      le_storeEnd _ _
    obtain ⟨a2, h2⟩ := storeNode_isSome { a with offset := alignUp a.offset + sizes.withScript } x h
    obtain ⟨a3, h3⟩ := storeNode_isSome ({ a with offset := alignUp a.offset + sizes.withScript }.write
      (alignUp a.offset) (.withScript type f (alignUp (alignUp a.offset + sizes.withScript)))) x h
    simp only [storeNode, bufferAlloc_of_le (by omega : alignUp a.offset + sizes.withScript ≤ a.size)]
    split <;> simp [h2, h3]
  | a, .withScript2 type f x y, h => by
    simp only [storeEnd] at h
    have hx : alignUp a.offset + sizes.withScript2 ≤
        storeEnd sizes (alignUp a.offset + sizes.withScript2) x := le_storeEnd _ _
    have hy : storeEnd sizes (alignUp a.offset + sizes.withScript2) x ≤
        storeEnd sizes (storeEnd sizes (alignUp a.offset + sizes.withScript2) x) y := le_storeEnd _ _
    obtain ⟨a2, h2⟩ := storeNode_isSome { a with offset := alignUp a.offset + sizes.withScript2 } x
      (by simp only; omega)
    obtain ⟨hg2, hoff2⟩ := storeNode_spec h2
    obtain ⟨a3, h3⟩ := storeNode_isSome a2 y (by rw [hoff2, hg2.size_eq]; exact h)
    simp [storeNode, bufferAlloc_of_le (by omega : alignUp a.offset + sizes.withScript2 ≤ a.size),
      h2, h3]
  | a, .withScript3 type f x y z, h => by
    simp only [storeEnd] at h
    have hx : alignUp a.offset + sizes.withScript3 ≤
        storeEnd sizes (alignUp a.offset + sizes.withScript3) x := le_storeEnd _ _
    have hy : storeEnd sizes (alignUp a.offset + sizes.withScript3) x ≤
        storeEnd sizes (storeEnd sizes (alignUp a.offset + sizes.withScript3) x) y := le_storeEnd _ _
    have hz : storeEnd sizes (storeEnd sizes (alignUp a.offset + sizes.withScript3) x) y ≤
        storeEnd sizes (storeEnd sizes (storeEnd sizes (alignUp a.offset + sizes.withScript3) x) y) z :=
      le_storeEnd _ _
    obtain ⟨a2, h2⟩ := storeNode_isSome { a with offset := alignUp a.offset + sizes.withScript3 } x
      (by simp only; omega)
    obtain ⟨hg2, hoff2⟩ := storeNode_spec h2
    obtain ⟨a3, h3⟩ := storeNode_isSome a2 y (by rw [hoff2, hg2.size_eq]; simp only; omega)
    obtain ⟨hg3, hoff3⟩ := storeNode_spec h3
    obtain ⟨a4, h4⟩ := storeNode_isSome a3 z
      (by rw [hoff3, hg3.size_eq, hoff2, hg2.size_eq]; exact h)
    simp [storeNode, bufferAlloc_of_le (by omega : alignUp a.offset + sizes.withScript3 ≤ a.size),
      h2, h3, h4]
  | a, .thresh f k n scripts, h => by
    simp only [storeEnd] at h
    have : alignUp (alignUp a.offset + sizes.thresh) + sizes.scriptlist ≤
        scriptsEnd sizes (alignUp (alignUp a.offset + sizes.thresh) + sizes.scriptlist) scripts :=
      le_scriptsEnd _ _
    have := le_alignUp (alignUp a.offset + sizes.thresh)
    obtain ⟨a3, h3⟩ := storeScripts_isSome
      { a with offset := alignUp (alignUp a.offset + sizes.thresh) + sizes.scriptlist }
      (alignUp (alignUp a.offset + sizes.thresh)) scripts h
    simp [storeNode, bufferAlloc_of_le (by omega : alignUp a.offset + sizes.thresh ≤ a.size),
      bufferAlloc_of_le (by simp only; omega :
        alignUp { a with offset := alignUp a.offset + sizes.thresh }.offset + sizes.scriptlist ≤ a.size), h3]
  | a, .withKey type f keyIndex, h => by
    simp only [storeEnd] at h
    simp [storeNode, bufferAlloc_of_le h]
  | a, .withHash256 type f hash, h => by
    simp only [storeEnd] at h
    simp [storeNode, bufferAlloc_of_le h]
  | a, .withHash160 type f hash, h => by
    simp only [storeEnd] at h
    simp [storeNode, bufferAlloc_of_le h]
  | a, .withUint32 type f n, h => by
    simp only [storeEnd] at h
    simp [storeNode, bufferAlloc_of_le h]
  | a, .multisig type f k n keyIndexes, h => by
    simp only [storeEnd] at h
    have := le_keysEnd (alignUp a.offset + sizes.multisig) keyIndexes
    obtain ⟨a2, h2⟩ := storeKeys_isSome { a with offset := alignUp a.offset + sizes.multisig }
      keyIndexes h
    simp [storeNode, bufferAlloc_of_le (by omega : alignUp a.offset + sizes.multisig ≤ a.size), h2]

theorem storeScripts_isSome : ∀ (a : Arena) (cur : Nat) (scripts : ScriptList),
    scriptsEnd sizes a.offset scripts ≤ a.size → ∃ a', storeScripts sizes a cur scripts = some a'
  | a, _, .nil, _ => ⟨a, rfl⟩
  | a, cur, .cons x .nil, h => by
    simp only [scriptsEnd] at h
    obtain ⟨a1, h1⟩ := storeNode_isSome a x h
    simp [storeScripts, h1]
  | a, cur, .cons x (.cons y rest), h => by
    replace h : scriptsEnd sizes (alignUp (storeEnd sizes a.offset x) + sizes.scriptlist)
      (.cons y rest) ≤ a.size := h
    have : alignUp (storeEnd sizes a.offset x) + sizes.scriptlist ≤
        scriptsEnd sizes (alignUp (storeEnd sizes a.offset x) + sizes.scriptlist) (.cons y rest) :=
      le_scriptsEnd _ _
    have := le_alignUp (storeEnd sizes a.offset x)
    obtain ⟨a1, h1⟩ := storeNode_isSome a x (by omega)
    obtain ⟨hg1, hoff1⟩ := storeNode_spec h1
    obtain ⟨a2, h2⟩ := storeScripts_isSome
      ({ a1 with offset := alignUp a1.offset + sizes.scriptlist }.write cur
        (.scriptlist (alignUp a.offset) (some (alignUp a1.offset))))
      (alignUp a1.offset) (.cons y rest) (by simp only [Arena.write_offset, Arena.write_size, hoff1, hg1.size_eq]; exact h)
    rw [storeScripts]
    simp [h1, bufferAlloc_of_le (by rw [hoff1, hg1.size_eq]; omega :
      alignUp a1.offset + sizes.scriptlist ≤ a1.size), h2]
end

/-- The layout of `t` fits in the buffer exactly when it ends within it. -/
theorem storeNode_isSome_iff {a : Arena} {t : Node} :
    (storeNode sizes a t).isSome ↔ storeEnd sizes a.offset t ≤ a.size := by
  constructor
  · intro h
    obtain ⟨a', h'⟩ := Option.isSome_iff_exists.mp h
    obtain ⟨hg, hoff⟩ := storeNode_spec h'
    have : alignUp a.offset < storeEnd sizes a.offset t := alignUp_lt_storeEnd _ _
    have := le_alignUp a.offset
    rw [← hoff, ← hg.size_eq]
    exact hg.fits (by omega)
  · intro h
    obtain ⟨a', h'⟩ := storeNode_isSome a t h
    simp [h']

/-- Nothing fits once the padding runs past the end of the buffer. -/
theorem storeNode_eq_none_of_lt {a : Arena} (h : a.size < alignUp a.offset) (t : Node) :
    storeNode sizes a t = none := by
  have : alignUp a.offset < storeEnd sizes a.offset t := alignUp_lt_storeEnd _ _
  exact Option.not_isSome_iff_eq_none.mp fun hs => by
    have := storeNode_isSome_iff.mp hs
    omega

/-- A layout pads its first allocation: aligning the arena before it changes nothing. -/
@[simp] theorem storeNode_ensureAlignment (a : Arena) (t : Node) :
    storeNode sizes (ensureAlignment a) t = storeNode sizes a t := by
  cases t <;> simp only [storeNode, bufferAlloc_ensureAlignment]

@[simp] theorem Arena.flagsAt_write_self (a : Arena) (p : Nat) (cell : Cell) :
    (a.write p cell).flagsAt p = cell.flags := by
  simp [Arena.flagsAt]

/-- The struct at the root of the layout carries the flags of the tree. -/
theorem storeNode_root {a a' : Arena} {t : Node} (h : storeNode sizes a t = some a') :
    a'.flagsAt (alignUp a.offset) = t.flags := by
  cases t with
  | withScript type f x =>
    simp only [storeNode] at h
    split at h
    · simp only [Option.bind_eq_bind, Option.bind_eq_some, Prod.exists, Option.some.injEq] at h
      obtain ⟨p, a1, halloc, a2, -, rfl⟩ := h
      obtain ⟨-, rfl, -⟩ := bufferAlloc_grows halloc
      simp [Cell.flags, Node.flags]
    · simp only [Option.bind_eq_bind, Option.bind_eq_some, Prod.exists] at h
      obtain ⟨p, a1, halloc, h2⟩ := h
      obtain ⟨-, rfl, hoff⟩ := bufferAlloc_grows halloc
      have := sizes.withScript.pos
      rw [Arena.flagsAt, (storeNode_spec h2).1.frame _ (by simp only [Arena.write_offset]; omega)]
      simp [Cell.flags, Node.flags]
  | _ =>
    simp only [storeNode, Option.bind_eq_bind, Option.bind_eq_some, Prod.exists,
      Option.some.injEq] at h
    obtain ⟨p, a1, halloc, h⟩ := h
    obtain ⟨-, rfl, -⟩ := bufferAlloc_grows halloc
    simp only [Node.flags]
    aesop

end

end WalletPolicy
