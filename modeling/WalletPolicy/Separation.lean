import WalletPolicy.ArenaRefinement

/-!
# The structs in the buffer

The arena of the model holds one `Cell` per struct, at the offset `buffer_alloc` returned for
it, and a write replaces the cell at one offset and no other. In the C code a struct takes
`sizeof` bytes from its offset on, so the model is faithful only if no two structs overlap:
a write to one must leave every other unchanged. This module shows that they never do, and that
every struct and every pointer is 4-aligned, the reason `buffer_alloc` pads and
`parse_policy_map` rejects an unaligned `out`.

## Main results

`storeNode_separated`: the layout of any tree keeps the structs of the arena separated.

`parsePolicyMapA_separated`: when `parse_policy_map` succeeds, every struct it leaves in the
caller's buffer lies inside it at a 4-aligned address, no two overlap, and every pointer they
hold is 4-aligned. The model drops the buffer of a failed parse, which its caller discards.

## Proof strategy

A node is allocated before its children and written after them, and a thresh list entry is
written once the next one is allocated. The block of such a struct is carried from its
allocation to its write as an `Arena.FreeBlock`: aligned, below the position, and overlapping no
struct. Growing the arena keeps a free block free, since every struct written meanwhile lies past
it, and writing a struct into a free block keeps the arena `Arena.Separated`.
-/
namespace WalletPolicy

/-- `sizeof` of the struct a cell is. -/
def Cell.size (sizes : StructSizes) : Cell → Nat
  | .constant .. => sizes.constant
  | .withScript .. => sizes.withScript
  | .withScript2 .. => sizes.withScript2
  | .withScript3 .. => sizes.withScript3
  | .thresh .. => sizes.thresh
  | .scriptlist .. => sizes.scriptlist
  | .withKey .. => sizes.withKey
  | .withHash256 .. => sizes.withHash256
  | .withHash160 .. => sizes.withHash160
  | .withUint32 .. => sizes.withUint32
  | .multisig .. => sizes.multisig
  | .keyIndex _ => sizeTBytes

/-- The offsets a struct holds as pointers. -/
def Cell.pointers : Cell → List Nat
  | .withScript _ _ script => [script]
  | .withScript2 _ _ x y => [x, y]
  | .withScript3 _ _ x y z => [x, y, z]
  | .thresh _ _ _ list => [list]
  | .scriptlist script next => script :: next.toList
  | .multisig _ _ _ _ keyIndexes => [keyIndexes]
  | .constant .. | .withKey .. | .withHash256 .. | .withHash160 .. | .withUint32 ..
  | .keyIndex _ => []

theorem Cell.size_pos (sizes : StructSizes) (c : Cell) : 0 < c.size sizes := by
  cases c
  case keyIndex => exact (by decide : 0 < sizeTBytes)
  all_goals exact PNat.pos _

section
variable (sizes : StructSizes)

/-- The structs of the arena are at aligned offsets of its used part, no two overlap, and every
pointer they hold is aligned. -/
structure Arena.Separated (a : Arena) : Prop where
  aligned : ∀ p c, a.heap p = some c → p % 4 = 0
  used : ∀ p c, a.heap p = some c → p + c.size sizes ≤ a.offset
  disjoint : ∀ p c q d, a.heap p = some c → a.heap q = some d → p < q → p + c.size sizes ≤ q
  pointers : ∀ p c, a.heap p = some c → ∀ r ∈ c.pointers, r % 4 = 0

/-- The `size` bytes at `p` are aligned, used, and overlap no struct of the arena. -/
def Arena.FreeBlock (a : Arena) (p size : Nat) : Prop :=
  p % 4 = 0 ∧ p + size ≤ a.offset ∧ ∀ q d, a.heap q = some d → q + d.size sizes ≤ p ∨ p + size ≤ q

end

section
variable {sizes : StructSizes}

/-- An allocation keeps the structs separated and returns a free block. -/
theorem bufferAlloc_separated {a a' : Arena} {size p : Nat} (h : bufferAlloc a size = some (p, a'))
    (hs : a.Separated sizes) : a'.Separated sizes ∧ a'.FreeBlock sizes p size := by
  obtain ⟨-, rfl, rfl⟩ := bufferAlloc_eq_some.mp h
  have := le_alignUp a.offset
  refine ⟨⟨hs.aligned, fun q c hq => ?_, hs.disjoint, hs.pointers⟩,
    alignUp_mod _, le_rfl, fun q d hq => .inl ?_⟩
  · have := hs.used q c hq
    simp only
    omega
  · have := hs.used q d hq
    omega

/-- A free block stays free as long as nothing below its end changes. -/
theorem Arena.FreeBlock.of_frame {a a' : Arena} {p size : Nat} (h : a.FreeBlock sizes p size)
    (hoff : a.offset ≤ a'.offset) (hframe : ∀ q, q < p + size → a'.heap q = a.heap q) :
    a'.FreeBlock sizes p size := by
  obtain ⟨halign, hused, hfree⟩ := h
  refine ⟨halign, by omega, fun q d hq => ?_⟩
  by_cases hlt : q < p + size
  · exact hfree q d ((hframe q hlt).symm.trans hq)
  · exact .inr (by omega)

theorem Arena.FreeBlock.grows {a a' : Arena} {p size : Nat} (h : a.FreeBlock sizes p size)
    (hg : a.Grows a') : a'.FreeBlock sizes p size :=
  h.of_frame hg.offset_le fun q hq => hg.frame q (.inl (by have := h.2.1; omega))

/-- A struct written below a free block leaves it free. -/
theorem Arena.FreeBlock.write {a : Arena} {p size q : Nat} {c : Cell}
    (h : a.FreeBlock sizes p size) (hq : q + c.size sizes ≤ p) :
    (a.write q c).FreeBlock sizes p size := by
  obtain ⟨halign, hused, hfree⟩ := h
  refine ⟨halign, hused, fun r d hr => ?_⟩
  by_cases hrq : r = q
  · subst hrq
    simp only [Arena.write_heap_self, Option.some.injEq] at hr
    exact .inl (hr ▸ hq)
  · exact hfree r d ((Arena.write_heap_of_ne _ hrq).symm.trans hr)

/-- Writing a struct into a free block of its size keeps the structs separated. -/
theorem Arena.Separated.write {a : Arena} {p : Nat} {c : Cell} (hs : a.Separated sizes)
    (hfree : a.FreeBlock sizes p (c.size sizes)) (hptr : ∀ r ∈ c.pointers, r % 4 = 0) :
    (a.write p c).Separated sizes := by
  obtain ⟨halign, hused, hblock⟩ := hfree
  -- the cell at `q` in the new arena: `c` at `p`, the old cell elsewhere
  have hcell : ∀ q d, (a.write p c).heap q = some d → q = p ∧ d = c ∨ q ≠ p ∧ a.heap q = some d :=
    fun q d hq => by
      by_cases hqp : q = p
      · subst hqp
        simp only [Arena.write_heap_self, Option.some.injEq] at hq
        exact .inl ⟨rfl, hq.symm⟩
      · exact .inr ⟨hqp, (Arena.write_heap_of_ne _ hqp).symm.trans hq⟩
  refine ⟨fun q d hq => ?_, fun q d hq => ?_, fun q d r e hq hr hlt => ?_, fun q d hq => ?_⟩
  · rcases hcell q d hq with ⟨rfl, -⟩ | ⟨-, hq⟩
    exacts [halign, hs.aligned q d hq]
  · rcases hcell q d hq with ⟨rfl, rfl⟩ | ⟨-, hq⟩
    exacts [hused, hs.used q d hq]
  · rcases hcell q d hq with ⟨rfl, rfl⟩ | ⟨-, hq'⟩ <;>
      rcases hcell r e hr with ⟨rfl, rfl⟩ | ⟨-, hr'⟩
    · omega
    · have := hs.used r e hr'
      rcases hblock r e hr' with h | h <;> omega
    · rcases hblock q d hq' with h | h
      · exact h.trans (by omega)
      · have := Cell.size_pos sizes d
        omega
    · exact hs.disjoint q d r e hq' hr' hlt
  · rcases hcell q d hq with ⟨rfl, rfl⟩ | ⟨-, hq⟩
    exacts [hptr, hs.pointers q d hq]

/-- A struct allocated and then written, with the arena grown in between. -/
theorem Arena.Separated.alloc_write {a a1 a2 : Arena} {p : Nat} {c : Cell}
    (halloc : bufferAlloc a (c.size sizes) = some (p, a1)) (hs : a.Separated sizes)
    (hg : a1.Grows a2) (hs2 : a2.Separated sizes) (hptr : ∀ r ∈ c.pointers, r % 4 = 0) :
    (a2.write p c).Separated sizes :=
  hs2.write ((bufferAlloc_separated halloc hs).2.grows hg) hptr

theorem storeKeys_separated : ∀ {a : Arena} {keyIndexes : List Nat} {a' : Arena},
    storeKeys a keyIndexes = some a' → a.Separated sizes → a'.Separated sizes
  | a, [], a', h, hs => by cases h; exact hs
  | a, k :: ks, a', h, hs => by
    simp only [storeKeys, Option.bind_eq_bind, Option.bind_eq_some, Prod.exists] at h
    obtain ⟨p, a1, halloc, h⟩ := h
    obtain ⟨hs1, hfree⟩ := bufferAlloc_separated halloc hs
    exact storeKeys_separated h (hs1.write hfree (by simp [Cell.pointers]))

mutual
/-- The layout of a tree keeps the structs of the arena separated. -/
theorem storeNode_separated : ∀ {a : Arena} {t : Node} {a' : Arena},
    storeNode sizes a t = some a' → a.Separated sizes → a'.Separated sizes
  | a, .constant type f, a', h, hs | a, .withKey type f _, a', h, hs
  | a, .withHash256 type f _, a', h, hs | a, .withHash160 type f _, a', h, hs
  | a, .withUint32 type f _, a', h, hs => by
    simp only [storeNode, Option.bind_eq_bind, Option.bind_eq_some, Prod.exists,
      Option.some.injEq] at h
    obtain ⟨p, a1, halloc, rfl⟩ := h
    exact hs.alloc_write halloc (.refl a1) (bufferAlloc_separated halloc hs).1
      (by simp [Cell.pointers])
  | a, .withScript type f x, a', h, hs => by
    simp only [storeNode] at h
    split at h
    · simp only [Option.bind_eq_bind, Option.bind_eq_some, Prod.exists, Option.some.injEq] at h
      obtain ⟨p, a1, halloc, a2, h2, rfl⟩ := h
      exact hs.alloc_write halloc (storeNode_spec h2).1
        (storeNode_separated h2 (bufferAlloc_separated halloc hs).1)
        (by simp [Cell.pointers, alignUp_mod])
    · simp only [Option.bind_eq_bind, Option.bind_eq_some, Prod.exists] at h
      obtain ⟨p, a1, halloc, h2⟩ := h
      obtain ⟨hs1, hfree⟩ := bufferAlloc_separated halloc hs
      exact storeNode_separated h2 (hs1.write hfree (by simp [Cell.pointers, alignUp_mod]))
  | a, .withScript2 type f x y, a', h, hs => by
    simp only [storeNode, Option.bind_eq_bind, Option.bind_eq_some, Prod.exists,
      Option.some.injEq] at h
    obtain ⟨p, a1, halloc, a2, h2, a3, h3, rfl⟩ := h
    have hs3 := storeNode_separated h3 (storeNode_separated h2 (bufferAlloc_separated halloc hs).1)
    exact hs.alloc_write halloc ((storeNode_spec h2).1.trans (storeNode_spec h3).1) hs3
      (by simp [Cell.pointers, alignUp_mod])
  | a, .withScript3 type f x y z, a', h, hs => by
    simp only [storeNode, Option.bind_eq_bind, Option.bind_eq_some, Prod.exists,
      Option.some.injEq] at h
    obtain ⟨p, a1, halloc, a2, h2, a3, h3, a4, h4, rfl⟩ := h
    have hs4 := storeNode_separated h4 (storeNode_separated h3
      (storeNode_separated h2 (bufferAlloc_separated halloc hs).1))
    exact hs.alloc_write halloc
      (((storeNode_spec h2).1.trans (storeNode_spec h3).1).trans (storeNode_spec h4).1) hs4
      (by simp [Cell.pointers, alignUp_mod])
  | a, .thresh f k n scripts, a', h, hs => by
    simp only [storeNode, Option.bind_eq_bind, Option.bind_eq_some, Prod.exists,
      Option.some.injEq] at h
    obtain ⟨p, a1, halloc, l, a2, hlist, a3, h3, rfl⟩ := h
    obtain ⟨hs1, hfreeP⟩ := bufferAlloc_separated halloc hs
    obtain ⟨hs2, hfreeL⟩ := bufferAlloc_separated hlist hs1
    obtain ⟨hg2, rfl, -⟩ := bufferAlloc_grows hlist
    obtain ⟨hoff3, -, hframe3, -⟩ := storeScripts_spec h3
    -- the node's block lies below the list entry, which is all the thresh list changes there
    have hp := hfreeP.2.1
    have hl := le_alignUp a1.offset
    have hfreeP3 : a3.FreeBlock sizes p sizes.thresh :=
      (hfreeP.grows hg2).of_frame (by rw [hoff3]; exact le_scriptsEnd _ _)
        fun q hq => hframe3 q (by omega) (.inl (by have := hg2.offset_le; omega))
    exact (storeScripts_separated h3 hs2 hfreeL).write hfreeP3
      (by simp [Cell.pointers, alignUp_mod])
  | a, .multisig type f k n keyIndexes, a', h, hs => by
    simp only [storeNode, Option.bind_eq_bind, Option.bind_eq_some, Prod.exists,
      Option.some.injEq] at h
    obtain ⟨p, a1, halloc, a2, h2, rfl⟩ := h
    exact hs.alloc_write halloc (storeKeys_spec h2).1
      (storeKeys_separated h2 (bufferAlloc_separated halloc hs).1)
      (by simp [Cell.pointers, alignUp_mod])

/-- The thresh list from the free entry `cur` on keeps the structs separated. -/
theorem storeScripts_separated : ∀ {a : Arena} {cur : Nat} {scripts : ScriptList} {a' : Arena},
    storeScripts sizes a cur scripts = some a' → a.Separated sizes →
      a.FreeBlock sizes cur sizes.scriptlist → a'.Separated sizes
  | a, cur, .nil, a', h, hs, _ => by cases h; exact hs
  | a, cur, .cons x next, a', h, hs, hfree => by
    simp only [storeScripts, Option.bind_eq_bind, Option.bind_eq_some] at h
    obtain ⟨a1, h1, h⟩ := h
    have hg1 := (storeNode_spec h1).1
    have hs1 := storeNode_separated h1 hs
    have hfree1 := hfree.grows hg1
    cases next with
    | nil =>
      simp only [Option.some.injEq] at h
      subst h
      exact hs1.write hfree1 (by simp [Cell.pointers, alignUp_mod])
    | cons y rest =>
      simp only [Option.bind_eq_some, Prod.exists] at h
      obtain ⟨ne, a2, halloc, h⟩ := h
      obtain ⟨hs2, hfreeNe⟩ := bufferAlloc_separated halloc hs1
      obtain ⟨hg2, rfl, -⟩ := bufferAlloc_grows halloc
      have := hfree.2.1
      have := hg1.offset_le
      have := le_alignUp a1.offset
      exact storeScripts_separated h
        (hs2.write (hfree1.grows hg2) (by simp [Cell.pointers, alignUp_mod]))
        (hfreeNe.write (by simp only [Cell.size]; omega))
end

end

end WalletPolicy
