import WalletPolicy.WellFormed

/-!
# The thresholds of accepted policies

`multi` and `sortedmulti` count the key indices their loop stores and check
`1 ≤ k ≤ n ≤ MAX_POLICY_MAP_COSIGNERS` once the loop is done. The thresh loop counts its
children in the same way, but the thresh case checks only `k ≥ 1`, before the loop: a
threshold above the number of children is accepted (`parsePolicyMap_thresh_above_count`).
-/
namespace WalletPolicy

/-- The counts `parse_script` establishes for a node: the threshold, number of keys and
stored key indices of a multisig, the threshold and number of children of a thresh. -/
def Node.CountsOk : Node → Prop
  | .multisig _ _ k n keyIndexes =>
    1 ≤ k ∧ k ≤ n ∧ n ≤ maxPolicyMapCosigners ∧ n = keyIndexes.length
  | .thresh _ k n scriptlist => 1 ≤ k ∧ n = scriptlist.toList.length
  | _ => True

theorem Accepted.countsOk {depth contextFlags : Nat} {t : Node}
    (h : Accepted depth contextFlags t) : t.CountsOk := by
  cases h with
  | multisig _ _ range count _ => exact ⟨range.1, range.2.1, range.2.2, count⟩
  | thresh threshold _ hfs _ count => exact ⟨by omega, count.trans (mapM_flags_length hfs)⟩
  | _ => trivial

theorem Accepted.of_mem_children {depth contextFlags : Nat} {p x : Node}
    (h : Accepted depth contextFlags p) (hx : x ∈ p.children) : ∃ d c, Accepted d c x := by
  cases h with
  | sh _ child | wsh _ child | wrapper child =>
    obtain rfl := List.mem_singleton.mp hx
    exact ⟨_, _, child⟩
  | andor childX childY childZ =>
    simp only [Node.children, List.mem_cons, List.mem_singleton, List.not_mem_nil, or_false] at hx
    rcases hx with rfl | rfl | rfl
    exacts [⟨_, _, childX⟩, ⟨_, _, childY⟩, ⟨_, _, childZ⟩]
  | script2 childX childY =>
    simp only [Node.children, List.mem_cons, List.mem_singleton, List.not_mem_nil, or_false] at hx
    rcases hx with rfl | rfl
    exacts [⟨_, _, childX⟩, ⟨_, _, childY⟩]
  | thresh _ children => exact ⟨_, _, children x hx⟩
  | _ => cases hx

/-- Every node of an accepted tree is accepted where its parent parsed it. -/
theorem Accepted.subtree {depth contextFlags e : Nat} {t x : Node}
    (h : Accepted depth contextFlags t) (hx : t.SubtreeAt e x) : ∃ d c, Accepted d c x := by
  induction hx with
  | root => exact ⟨_, _, h⟩
  | child _ hmem ih =>
    obtain ⟨d, c, hp⟩ := ih
    exact hp.of_mem_children hmem

/-- Every multisig node of an accepted policy has `1 ≤ k ≤ n ≤ MAX_POLICY_MAP_COSIGNERS` and
`n` key indices, and every thresh node has `k ≥ 1` and `n` children. -/
theorem parsePolicyMap_counts {s : List Char} {t : Node} (h : parsePolicyMap s = some t) :
    ∀ {depth x}, t.SubtreeAt depth x → x.CountsOk := fun hx =>
  let ⟨_, _, hacc⟩ := (parsePolicyMap_accepted h).subtree hx
  hacc.countsOk

/-- The tree of `multi(1,@0,@1)`. -/
def multiTree : Node := .multisig .multi (some multiFlags) 1 2 [0, 1]

theorem multiTree_counts :
    parsePolicyMap "multi(1,@0,@1)".toList = some multiTree ∧ multiTree.CountsOk :=
  have h : parsePolicyMap "multi(1,@0,@1)".toList = some multiTree := by decide
  ⟨h, parsePolicyMap_counts h .root⟩

/-! ### Thresholds above the number of children -/

/-- `thresh(2,pk(@0))` is accepted as a thresh node with `k = 2` and `n = 1`, its one child. -/
theorem parsePolicyMap_thresh_above_count :
    parsePolicyMap "thresh(2,pk(@0))".toList =
      some (.thresh (some (threshFlags 1 0 1)) 2 1 (.cons (.withKey .pk (keyFlags .pk) 0) .nil)) := by
  decide

end WalletPolicy
