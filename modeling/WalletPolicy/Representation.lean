import WalletPolicy.Layout

/-!
# The tree the arena holds

`Stored heap addr t` is what a reader of the buffer finds from the struct at `addr`: the struct
of the root of `t`, the structs of its children at the offsets its pointers hold, the entries of
a thresh list one after the other and the `n` key indices of a multisig in one array, every
pointer leading forward. Nothing here reads the arena in another order than the pointers: the
relation is about the heap alone, so it carries over to any heap that agrees on the cells a
tree occupies.

## Main results

`storeNode_stored`: the layout of a tree holds the tree at its root, in every heap that agrees
with it on the part of the buffer the layout used.

`Stored.unique`: an offset of the arena holds at most one tree.
-/
namespace WalletPolicy

/-- `StoredKeys heap addr keyIndexes`: the `size_t` entries from `addr` on hold `keyIndexes`. -/
inductive StoredKeys (heap : Nat → Option Cell) : Nat → List Nat → Prop
  | nil {addr} : StoredKeys heap addr []
  | cons {addr keyIndex keyIndexes} (cell : heap addr = some (.keyIndex keyIndex))
      (rest : StoredKeys heap (addr + sizeTBytes) keyIndexes) :
      StoredKeys heap addr (keyIndex :: keyIndexes)

mutual
/-- `Stored heap addr t`: following the pointers of the arena from the node at `addr` reads the
tree `t`, every pointer leading forward: a node comes before its children, and a child before
the children after it. -/
inductive Stored (heap : Nat → Option Cell) : Nat → Node → Prop
  | constant {addr type f} (cell : heap addr = some (.constant type f)) :
      Stored heap addr (.constant type f)
  | withScript {addr type f script x} (cell : heap addr = some (.withScript type f script))
      (forward : addr < script) (child : Stored heap script x) :
      Stored heap addr (.withScript type f x)
  | withScript2 {addr type f px py x y} (cell : heap addr = some (.withScript2 type f px py))
      (forward : addr < px ∧ px < py) (childX : Stored heap px x) (childY : Stored heap py y) :
      Stored heap addr (.withScript2 type f x y)
  | withScript3 {addr type f px py pz x y z}
      (cell : heap addr = some (.withScript3 type f px py pz))
      (forward : addr < px ∧ px < py ∧ py < pz) (childX : Stored heap px x)
      (childY : Stored heap py y) (childZ : Stored heap pz z) :
      Stored heap addr (.withScript3 type f x y z)
  | thresh {addr f k n list scripts} (cell : heap addr = some (.thresh f k n list))
      (forward : addr < list) (children : StoredList heap list scripts) :
      Stored heap addr (.thresh f k n scripts)
  | withKey {addr type f keyIndex} (cell : heap addr = some (.withKey type f keyIndex)) :
      Stored heap addr (.withKey type f keyIndex)
  | withHash256 {addr type f h} (cell : heap addr = some (.withHash256 type f h)) :
      Stored heap addr (.withHash256 type f h)
  | withHash160 {addr type f h} (cell : heap addr = some (.withHash160 type f h)) :
      Stored heap addr (.withHash160 type f h)
  | withUint32 {addr type f n} (cell : heap addr = some (.withUint32 type f n)) :
      Stored heap addr (.withUint32 type f n)
  | multisig {addr type f k n keys keyIndexes} (cell : heap addr = some (.multisig type f k n keys))
      (forward : addr < keys) (count : n = keyIndexes.length)
      (array : StoredKeys heap keys keyIndexes) :
      Stored heap addr (.multisig type f k n keyIndexes)

/-- `StoredList heap addr scripts`: the thresh list from the entry at `addr` holds `scripts`. -/
inductive StoredList (heap : Nat → Option Cell) : Nat → ScriptList → Prop
  | last {addr script x} (cell : heap addr = some (.scriptlist script none))
      (forward : addr < script) (child : Stored heap script x) :
      StoredList heap addr (.cons x .nil)
  | cons {addr script next x rest} (cell : heap addr = some (.scriptlist script (some next)))
      (forward : addr < script ∧ script < next) (child : Stored heap script x)
      (tail : StoredList heap next rest) :
      StoredList heap addr (.cons x rest)
end

/-- The counts a node struct can hold: a multisig node has its `n` key indices, a thresh node at
least one child. -/
def Node.ShapeOk : Node → Prop
  | .multisig _ _ _ n keyIndexes => n = keyIndexes.length
  | .thresh _ _ _ scripts => scripts ≠ .nil
  | _ => True

section
variable {sizes : StructSizes}

theorem storeKeys_stored : ∀ {a : Arena} {keyIndexes : List Nat} {a' : Arena},
    storeKeys a keyIndexes = some a' → ∀ heap : Nat → Option Cell,
      (∀ p, a.offset ≤ p → p < a'.offset → heap p = a'.heap p) →
      StoredKeys heap (alignUp a.offset) keyIndexes
  | a, [], a', h, heap, hheap => .nil
  | a, k :: ks, a', h, heap, hheap => by
    simp only [storeKeys, Option.bind_eq_bind, Option.bind_eq_some, Prod.exists] at h
    obtain ⟨p, a1, halloc, h⟩ := h
    obtain ⟨hgrow, rfl, hoff⟩ := bufferAlloc_grows halloc
    obtain ⟨hrest, -⟩ := storeKeys_spec h
    have hp := le_alignUp a.offset
    have hsize : sizeTBytes = 4 := rfl
    have hnext : alignUp (a1.write (alignUp a.offset) (.keyIndex k)).offset =
        alignUp a.offset + sizeTBytes := by
      simp only [Arena.write_offset, hoff]
      exact alignUp_of_mod (by have := alignUp_mod a.offset; omega)
    have hr := hrest.offset_le
    simp only [Arena.write_offset] at hr
    refine .cons ?_ (hnext ▸ storeKeys_stored h heap fun q hq1 hq2 => hheap q (by simp at hq1; omega) hq2)
    rw [hheap _ hp (by omega), hrest.frame _ (by simp; omega)]
    simp

/-- `heap` holds the structs of `a` from position `lo` to `hi`. -/
def Agrees (heap : Nat → Option Cell) (a : Arena) (lo hi : Nat) : Prop :=
  ∀ q, lo ≤ q → q < hi → heap q = a.heap q

theorem Agrees.mono {heap : Nat → Option Cell} {a : Arena} {lo hi lo' hi' : Nat}
    (h : Agrees heap a lo hi) (hlo : lo ≤ lo') (hhi : hi' ≤ hi) : Agrees heap a lo' hi' :=
  fun q h1 h2 => h q (by omega) (by omega)

theorem Agrees.of_write {heap : Nat → Option Cell} {a : Arena} {lo hi p : Nat} {cell : Cell}
    (h : Agrees heap (a.write p cell) lo hi) (hp : p < lo ∨ hi ≤ p) : Agrees heap a lo hi :=
  fun q h1 h2 => (h q h1 h2).trans (Arena.write_heap_of_ne _ (by omega))

theorem Agrees.of_grows {heap : Nat → Option Cell} {a a' : Arena} {lo hi : Nat}
    (h : Agrees heap a' lo hi) (hg : a.Grows a') (hhi : hi ≤ a.offset) : Agrees heap a lo hi :=
  fun q h1 h2 => (h q h1 h2).trans (hg.frame q (by omega))

theorem Agrees.cell {heap : Nat → Option Cell} {a : Arena} {lo hi p : Nat} {cell : Cell}
    (h : Agrees heap (a.write p cell) lo hi) (h1 : lo ≤ p) (h2 : p < hi) : heap p = some cell :=
  (h p h1 h2).trans (by simp)

theorem shapeOk_child {t c : Node} (h : ∀ e x, t.SubtreeAt e x → x.ShapeOk) (hc : c ∈ t.children) :
    ∀ e x, c.SubtreeAt e x → x.ShapeOk :=
  fun _ _ hx => h _ _ (hx.of_child hc)

mutual
theorem storeNode_stored : ∀ {a : Arena} {t : Node} {a' : Arena}, storeNode sizes a t = some a' →
    (∀ e x, t.SubtreeAt e x → x.ShapeOk) → ∀ heap : Nat → Option Cell,
      Agrees heap a' a.offset a'.offset → Stored heap (alignUp a.offset) t
  | a, .constant type f, a', h, _, heap, hheap => by
    simp only [storeNode, Option.bind_eq_bind, Option.bind_eq_some, Prod.exists,
      Option.some.injEq] at h
    obtain ⟨p, a1, halloc, rfl⟩ := h
    obtain ⟨-, rfl, hoff⟩ := bufferAlloc_grows halloc
    have := sizes.constant.pos
    exact .constant (hheap.cell (le_alignUp _) (by simp only [Arena.write_offset]; omega))
  | a, .withScript type f x, a', h, hshape, heap, hheap => by
    have := sizes.withScript.pos
    have h0 := le_alignUp a.offset
    have hx : ∀ e y, x.SubtreeAt e y → y.ShapeOk := shapeOk_child hshape (by simp [Node.children])
    simp only [storeNode] at h
    split at h
    · simp only [Option.bind_eq_bind, Option.bind_eq_some, Prod.exists, Option.some.injEq] at h
      obtain ⟨p, a1, halloc, a2, h2, rfl⟩ := h
      obtain ⟨-, rfl, hoff⟩ := bufferAlloc_grows halloc
      obtain ⟨hg, -⟩ := storeNode_spec h2
      have := hg.offset_le
      have := le_alignUp a1.offset
      simp only [Arena.write_offset] at hheap
      exact .withScript (hheap.cell h0 (by omega)) (by omega)
        (storeNode_stored h2 hx heap ((hheap.mono (by omega) (le_refl _)).of_write (by omega)))
    · simp only [Option.bind_eq_bind, Option.bind_eq_some, Prod.exists] at h
      obtain ⟨p, a1, halloc, h2⟩ := h
      obtain ⟨-, rfl, hoff⟩ := bufferAlloc_grows halloc
      obtain ⟨hg, -⟩ := storeNode_spec h2
      have hg1 : a1.offset ≤ a'.offset := hg.offset_le
      have := le_alignUp a1.offset
      refine .withScript ?_ (by simp only [Arena.write_offset]; omega)
        (storeNode_stored h2 hx heap (hheap.mono (by simp; omega) (le_refl _)))
      rw [hheap _ h0 (by omega), hg.frame _ (by simp; omega)]
      simp
  | a, .withScript2 type f x y, a', h, hshape, heap, hheap => by
    simp only [storeNode, Option.bind_eq_bind, Option.bind_eq_some, Prod.exists,
      Option.some.injEq] at h
    obtain ⟨p, a1, halloc, a2, h2, a3, h3, rfl⟩ := h
    obtain ⟨-, rfl, hoff⟩ := bufferAlloc_grows halloc
    obtain ⟨hgx, hxoff⟩ := storeNode_spec h2
    obtain ⟨hgy, hyoff⟩ := storeNode_spec h3
    have := sizes.withScript2.pos
    have := le_alignUp a.offset
    have hx1 : alignUp a1.offset < storeEnd sizes a1.offset x := alignUp_lt_storeEnd _ _
    have hy1 : alignUp a2.offset < storeEnd sizes a2.offset y := alignUp_lt_storeEnd _ _
    have := le_alignUp a1.offset
    have := le_alignUp a2.offset
    simp only [Arena.write_offset] at hheap
    exact .withScript2 (hheap.cell (le_alignUp _) (by omega)) ⟨by omega, by omega⟩
      (storeNode_stored h2 (shapeOk_child hshape (by simp [Node.children])) heap
        (((hheap.mono (by omega) (by omega)).of_write (by omega)).of_grows hgy (le_refl _)))
      (storeNode_stored h3 (shapeOk_child hshape (by simp [Node.children])) heap
        ((hheap.mono (by omega) (le_refl _)).of_write (by omega)))
  | a, .withScript3 type f x y z, a', h, hshape, heap, hheap => by
    simp only [storeNode, Option.bind_eq_bind, Option.bind_eq_some, Prod.exists,
      Option.some.injEq] at h
    obtain ⟨p, a1, halloc, a2, h2, a3, h3, a4, h4, rfl⟩ := h
    obtain ⟨-, rfl, hoff⟩ := bufferAlloc_grows halloc
    obtain ⟨hgx, hxoff⟩ := storeNode_spec h2
    obtain ⟨hgy, hyoff⟩ := storeNode_spec h3
    obtain ⟨hgz, hzoff⟩ := storeNode_spec h4
    have := sizes.withScript3.pos
    have := le_alignUp a.offset
    have hx1 : alignUp a1.offset < storeEnd sizes a1.offset x := alignUp_lt_storeEnd _ _
    have hy1 : alignUp a2.offset < storeEnd sizes a2.offset y := alignUp_lt_storeEnd _ _
    have hz1 : alignUp a3.offset < storeEnd sizes a3.offset z := alignUp_lt_storeEnd _ _
    have := le_alignUp a1.offset
    have := le_alignUp a2.offset
    have := le_alignUp a3.offset
    simp only [Arena.write_offset] at hheap
    exact .withScript3 (hheap.cell (le_alignUp _) (by omega)) ⟨by omega, by omega, by omega⟩
      (storeNode_stored h2 (shapeOk_child hshape (by simp [Node.children])) heap
        ((((hheap.mono (by omega) (by omega)).of_write (by omega)).of_grows hgz
          (by omega)).of_grows hgy (le_refl _)))
      (storeNode_stored h3 (shapeOk_child hshape (by simp [Node.children])) heap
        (((hheap.mono (by omega) (by omega)).of_write (by omega)).of_grows hgz (le_refl _)))
      (storeNode_stored h4 (shapeOk_child hshape (by simp [Node.children])) heap
        ((hheap.mono (by omega) (le_refl _)).of_write (by omega)))
  | a, .thresh f k n scripts, a', h, hshape, heap, hheap => by
    simp only [storeNode, Option.bind_eq_bind, Option.bind_eq_some, Prod.exists,
      Option.some.injEq] at h
    obtain ⟨p, a1, halloc, l, a2, hlist, a3, h3, rfl⟩ := h
    obtain ⟨-, rfl, hoff⟩ := bufferAlloc_grows halloc
    obtain ⟨hg2, rfl, hoff2⟩ := bufferAlloc_grows hlist
    obtain ⟨hoff3, -, -, -⟩ := storeScripts_spec h3
    have := sizes.thresh.pos
    have := sizes.scriptlist.pos
    have := le_alignUp a.offset
    have := le_alignUp a1.offset
    have h23 : a2.offset ≤ scriptsEnd sizes a2.offset scripts := le_scriptsEnd _ _
    have hroot : scripts ≠ .nil := hshape 0 _ .root
    simp only [Arena.write_offset] at hheap
    refine .thresh (hheap.cell (le_alignUp _) (by omega)) (by omega)
      (storeScripts_stored h3 hroot (by omega)
        (fun x hx => shapeOk_child hshape (by simpa [Node.children] using hx)) heap
        ((hheap.mono (by omega) (le_refl _)).of_write (by omega)) ?_)
    rw [hheap _ (by omega) (by omega), Arena.write_heap_of_ne _ (by omega)]
  | a, .withKey type f keyIndex, a', h, _, heap, hheap => by
    simp only [storeNode, Option.bind_eq_bind, Option.bind_eq_some, Prod.exists,
      Option.some.injEq] at h
    obtain ⟨p, a1, halloc, rfl⟩ := h
    obtain ⟨-, rfl, hoff⟩ := bufferAlloc_grows halloc
    have := sizes.withKey.pos
    exact .withKey (hheap.cell (le_alignUp _) (by simp only [Arena.write_offset]; omega))
  | a, .withHash256 type f hash, a', h, _, heap, hheap => by
    simp only [storeNode, Option.bind_eq_bind, Option.bind_eq_some, Prod.exists,
      Option.some.injEq] at h
    obtain ⟨p, a1, halloc, rfl⟩ := h
    obtain ⟨-, rfl, hoff⟩ := bufferAlloc_grows halloc
    have := sizes.withHash256.pos
    exact .withHash256 (hheap.cell (le_alignUp _) (by simp only [Arena.write_offset]; omega))
  | a, .withHash160 type f hash, a', h, _, heap, hheap => by
    simp only [storeNode, Option.bind_eq_bind, Option.bind_eq_some, Prod.exists,
      Option.some.injEq] at h
    obtain ⟨p, a1, halloc, rfl⟩ := h
    obtain ⟨-, rfl, hoff⟩ := bufferAlloc_grows halloc
    have := sizes.withHash160.pos
    exact .withHash160 (hheap.cell (le_alignUp _) (by simp only [Arena.write_offset]; omega))
  | a, .withUint32 type f n, a', h, _, heap, hheap => by
    simp only [storeNode, Option.bind_eq_bind, Option.bind_eq_some, Prod.exists,
      Option.some.injEq] at h
    obtain ⟨p, a1, halloc, rfl⟩ := h
    obtain ⟨-, rfl, hoff⟩ := bufferAlloc_grows halloc
    have := sizes.withUint32.pos
    exact .withUint32 (hheap.cell (le_alignUp _) (by simp only [Arena.write_offset]; omega))
  | a, .multisig type f k n keyIndexes, a', h, hshape, heap, hheap => by
    simp only [storeNode, Option.bind_eq_bind, Option.bind_eq_some, Prod.exists,
      Option.some.injEq] at h
    obtain ⟨p, a1, halloc, a2, h2, rfl⟩ := h
    obtain ⟨-, rfl, hoff⟩ := bufferAlloc_grows halloc
    obtain ⟨hg, -⟩ := storeKeys_spec h2
    have := hg.offset_le
    have := sizes.multisig.pos
    have := le_alignUp a.offset
    have := le_alignUp a1.offset
    simp only [Arena.write_offset] at hheap
    exact .multisig (hheap.cell (le_alignUp _) (by omega)) (by omega) (hshape 0 _ .root)
      (storeKeys_stored h2 heap ((hheap.mono (by omega) (le_refl _)).of_write (by omega)))

theorem storeScripts_stored : ∀ {a : Arena} {cur : Nat} {scripts : ScriptList} {a' : Arena},
    storeScripts sizes a cur scripts = some a' → scripts ≠ .nil → cur < a.offset →
      (∀ x ∈ scripts.toList, ∀ e y, x.SubtreeAt e y → y.ShapeOk) → ∀ heap : Nat → Option Cell,
        Agrees heap a' a.offset a'.offset → heap cur = a'.heap cur → StoredList heap cur scripts
  | a, cur, .nil, a', _, hne, _, _, _, _, _ => absurd rfl hne
  | a, cur, .cons x next, a', h, _, hcur, hshape, heap, hheap, hcell => by
    simp only [storeScripts, Option.bind_eq_bind, Option.bind_eq_some] at h
    obtain ⟨a1, h1, h⟩ := h
    obtain ⟨hgx, hxoff⟩ := storeNode_spec h1
    have hx1 : alignUp a.offset < storeEnd sizes a.offset x := alignUp_lt_storeEnd _ _
    have := le_alignUp a.offset
    have hshapeX := hshape x (List.mem_cons_self _ _)
    cases next with
    | nil =>
      simp only [Option.some.injEq] at h
      subst h
      simp only [Arena.write_offset] at hheap
      exact .last (hcell.trans (by simp)) (by omega)
        (storeNode_stored h1 hshapeX heap (hheap.of_write (by omega)))
    | cons y rest =>
      simp only [Option.bind_eq_some, Prod.exists] at h
      obtain ⟨ne, a2, halloc, h⟩ := h
      obtain ⟨hg2, rfl, hoff2⟩ := bufferAlloc_grows halloc
      obtain ⟨hoff, -, hframe, -⟩ := storeScripts_spec h
      simp only [Arena.write_offset] at hoff hframe
      have := sizes.scriptlist.pos
      have := le_alignUp a1.offset
      have h2end : a2.offset ≤ scriptsEnd sizes a2.offset (.cons y rest) := le_scriptsEnd _ _
      have hgx1 := hgx.offset_le
      refine .cons ?_ ⟨by omega, by omega⟩
        (storeNode_stored h1 hshapeX heap fun q h1 h2 => ?_)
        (storeScripts_stored h (ScriptList.noConfusion) (by simp; omega)
          (fun z hz => hshape z (List.mem_cons_of_mem _ hz)) heap
          (hheap.mono (by simp only [Arena.write_offset]; omega) (le_refl _))
          (hheap _ (by omega) (by omega)))
      · rw [hcell, hframe cur (by omega) (by omega)]
        simp
      · rw [hheap q h1 (by omega), hframe q (by omega) (by omega),
          Arena.write_heap_of_ne _ (by omega), hg2.frame q (by omega)]
end

end

theorem StoredKeys.unique {heap : Nat → Option Cell} :
    ∀ {addr ks ks'}, StoredKeys heap addr ks → StoredKeys heap addr ks' → ks.length = ks'.length → ks = ks'
  | _, _, _, .nil, .nil, _ => rfl
  | _, _, _, .cons c1 r1, .cons c2 r2, hlen => by
    simp only [c1, Option.some.injEq, Cell.keyIndex.injEq] at c2
    simp only [List.length_cons, add_left_inj] at hlen
    rw [c2, r1.unique r2 hlen]

mutual
/-- An offset of the arena holds at most one tree. -/
theorem Stored.unique {heap : Nat → Option Cell} :
    ∀ (t : Node) {addr t'}, Stored heap addr t → Stored heap addr t' → t = t'
  | .constant .., _, _, .constant c1, h2 => by cases h2 <;> simp_all
  | .withScript _ _ x, _, _, .withScript c1 _ x1, h2 => by
    cases h2 with
    | withScript c2 _ x2 =>
      rw [c1, Option.some.injEq, Cell.withScript.injEq] at c2
      obtain ⟨rfl, rfl, rfl⟩ := c2
      rw [Stored.unique x x1 x2]
    | _ => simp_all
  | .withScript2 _ _ x y, _, _, .withScript2 c1 _ x1 y1, h2 => by
    cases h2 with
    | withScript2 c2 _ x2 y2 =>
      rw [c1, Option.some.injEq, Cell.withScript2.injEq] at c2
      obtain ⟨rfl, rfl, rfl, rfl⟩ := c2
      rw [Stored.unique x x1 x2, Stored.unique y y1 y2]
    | _ => simp_all
  | .withScript3 _ _ x y z, _, _, .withScript3 c1 _ x1 y1 z1, h2 => by
    cases h2 with
    | withScript3 c2 _ x2 y2 z2 =>
      rw [c1, Option.some.injEq, Cell.withScript3.injEq] at c2
      obtain ⟨rfl, rfl, rfl, rfl, rfl⟩ := c2
      rw [Stored.unique x x1 x2, Stored.unique y y1 y2, Stored.unique z z1 z2]
    | _ => simp_all
  | .thresh _ _ _ scripts, _, _, .thresh c1 _ l1, h2 => by
    cases h2 with
    | thresh c2 _ l2 =>
      rw [c1, Option.some.injEq, Cell.thresh.injEq] at c2
      obtain ⟨rfl, rfl, rfl, rfl⟩ := c2
      rw [StoredList.unique scripts l1 l2]
    | _ => simp_all
  | .withKey .., _, _, .withKey c1, h2 => by cases h2 <;> simp_all
  | .withHash256 .., _, _, .withHash256 c1, h2 => by cases h2 <;> simp_all
  | .withHash160 .., _, _, .withHash160 c1, h2 => by cases h2 <;> simp_all
  | .withUint32 .., _, _, .withUint32 c1, h2 => by cases h2 <;> simp_all
  | .multisig .., _, _, .multisig c1 _ count1 keys1, h2 => by
    cases h2 with
    | multisig c2 _ count2 keys2 =>
      rw [c1, Option.some.injEq, Cell.multisig.injEq] at c2
      obtain ⟨rfl, rfl, rfl, rfl, rfl⟩ := c2
      rw [keys1.unique keys2 (count1.symm.trans count2)]
    | _ => simp_all

theorem StoredList.unique {heap : Nat → Option Cell} :
    ∀ (l : ScriptList) {addr l'}, StoredList heap addr l → StoredList heap addr l' → l = l'
  | .cons x .nil, _, _, .last c1 _ x1, h2 => by
    cases h2 with
    | last c2 _ x2 =>
      rw [c1, Option.some.injEq, Cell.scriptlist.injEq] at c2
      obtain ⟨rfl, -⟩ := c2
      rw [Stored.unique x x1 x2]
    | cons c2 => simp_all
  | .cons x rest, _, _, .cons c1 _ x1 t1, h2 => by
    cases h2 with
    | cons c2 _ x2 t2 =>
      rw [c1, Option.some.injEq, Cell.scriptlist.injEq, Option.some.injEq] at c2
      obtain ⟨rfl, rfl⟩ := c2
      rw [Stored.unique x x1 x2, StoredList.unique rest t1 t2]
    | last c2 => simp_all
end

end WalletPolicy
