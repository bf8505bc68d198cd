import WalletPolicy.Completeness
import WalletPolicy.Nesting
import WalletPolicy.Typing

/-!
# Every well-formed policy is accepted

`WellFormed t` collects the documented rules of a policy tree: the §4.7 tables, where `sh`,
`wsh`, `wpkh`, `tr` and the other nodes that are not miniscript may sit, and the bounds of
thresholds, timelocks and key indices. A well-formed tree is one `parse_script` may return at
the root (`WellFormed.accepted`), and its canonical text is parsed back into it
(`parsePolicyMap_print`). On the buffer, where the tree is laid out, the same holds for every
aligned buffer the layout fits (`parsePolicyMapA_print_of_le`, with the arena model).
-/
namespace WalletPolicy

/-- The bounds the documented rules put on a node's fields. The counts `n` are the lengths of
the node's lists, as in `thresh(k, X1, ..., Xn)`, and fit the `size_t` that holds them. -/
def Node.FieldsOk : Node → Prop
  | .multisig _ _ k n keyIndexes =>
    1 ≤ k ∧ k ≤ n ∧ n ≤ maxPolicyMapCosigners ∧ n = keyIndexes.length ∧ ∀ i ∈ keyIndexes, i < 2 ^ 31
  | .thresh _ k n scriptlist => 1 ≤ k ∧ k ≤ n ∧ n = scriptlist.toList.length ∧ n < 2 ^ sizeTBits
  | .withUint32 _ _ n => 1 ≤ n ∧ n < 2 ^ 31
  | .withKey _ _ keyIndex => keyIndex < 2 ^ 31
  | _ => True

/-- The documented rules of a policy tree. -/
structure WellFormed (t : Node) : Prop where
  typed : FollowsTables t
  sh_top : ∀ {depth x}, t.SubtreeAt depth x → x.type = .sh → depth = 0
  wsh_wpkh_top : ∀ {depth x}, t.SubtreeAt depth x → x.type = .wsh ∨ x.type = .wpkh →
    depth = 0 ∨ depth = 1 ∧ t.type = .sh
  tr_top : ∀ {depth x}, t.SubtreeAt depth x → x.type = .tr → depth = 0
  non_miniscript : ∀ {depth x}, t.SubtreeAt depth x →
    ∀ y ∈ x.children, y.isMiniscript = false → x.type = .sh ∨ x.type = .wsh
  fields : ∀ {depth x}, t.SubtreeAt depth x → x.FieldsOk

theorem Node.FieldsOk.fits {x : Node} (h : x.FieldsOk) : x.Fits := by
  cases x <;> simp only [Node.FieldsOk, Node.Fits, sizeTBits] at h ⊢
  case withKey => omega
  case thresh => omega
  case multisig => exact fun i hi => by have := h.2.2.2.2 i hi; omega

theorem mapM_flags_length {xs : List Node} {fs : List Flags} (h : xs.mapM Node.flags = some fs) :
    fs.length = xs.length := by
  induction xs generalizing fs with
  | nil => cases h; rfl
  | cons x xs ih =>
    obtain ⟨X, fs', -, hfs', rfl⟩ := mapM_flags_cons_eq_some h
    simp [ih hfs']

/-! ### Well-formed trees are accepted -/

theorem Node.SubtreeAt.not_child_of_sh_top {t x : Node} {e : Nat} (hsub : t.SubtreeAt e x)
    (hx : x.type ≠ .sh) (he : e + 1 = 1) (hsh : t.type = .sh) : False := by
  obtain rfl : e = 0 := by omega
  exact hx (hsub.zero_inv ▸ hsh)

/-- A node of a well-formed tree at depth `e` is accepted at the depth and context its parent
parses it in: the root at depth 0 in no context, a child of the root `sh` in
`contextWithinSh`. -/
theorem WellFormed.accepted_subtree {t : Node} (hw : WellFormed t) {x : Node}
    (hx : FollowsTables x) :
    ∀ {e depth contextFlags}, t.SubtreeAt e x → (e = 0 → depth = 0 ∧ contextFlags = 0) →
      (e = 1 → t.type = .sh → contextFlags = contextWithinSh) →
      (contextFlags = 0 ∨ contextFlags = contextWithinSh ∨ contextFlags = contextWithinWsh) →
      Accepted depth contextFlags x := by
  induction hx with
  | constant token =>
    intro e depth contextFlags _ _ _ _
    rcases token with rfl | rfl
    exacts [.zero, .one]
  | @descriptor type script token _ ih =>
    intro e depth contextFlags hsub h0 h1 _
    have hchild : t.SubtreeAt (e + 1) script := .child hsub (by simp [Node.children])
    rcases token with rfl | rfl
    · have he : e = 0 := hw.sh_top hsub rfl
      exact .sh (h0 he).1 (ih hchild (by omega) (fun _ _ => rfl) (.inr (.inl rfl)))
    · refine .wsh ?_ (ih hchild (by omega)
        (fun he hsh => (hsub.not_child_of_sh_top (by simp [Node.type]) he hsh).elim)
        (.inr (.inr rfl)))
      rcases hw.wsh_wpkh_top hsub (.inl rfl) with he | ⟨he, hsh⟩
      · exact fun h => h.1 (h0 he).1
      · rw [h1 he hsh]
        exact fun h => absurd h.2 (by decide)
  | @wrapper type script X token _ hX ok ih =>
    intro e depth contextFlags hsub h0 h1 hctx
    have hnot : type ≠ .sh := by rintro rfl; cases token
    exact .wrapper (ih (.child hsub (by simp [Node.children])) (by omega)
      (fun he hsh => (hsub.not_child_of_sh_top hnot he hsh).elim) hctx) hX
      (wrapperFlags_eq_some.mpr ⟨token, ok, rfl⟩)
  | andor _ _ _ hX hY hZ ok ihX ihY ihZ =>
    intro e depth contextFlags hsub _ _ _
    have h1 : e + 1 = 1 → t.type = .sh → 0 = contextWithinSh :=
      fun he hsh => (hsub.not_child_of_sh_top (by simp [Node.type]) he hsh).elim
    exact .andor (ihX (.child hsub (by simp [Node.children])) (by omega) h1 (.inl rfl))
      (ihY (.child hsub (by simp [Node.children])) (by omega) h1 (.inl rfl))
      (ihZ (.child hsub (by simp [Node.children])) (by omega) h1 (.inl rfl)) hX hY hZ
      (andorFlags_eq_some.mpr ⟨ok, rfl⟩)
  | @script2 type _ _ _ _ _ _ hX hY ok ihX ihY =>
    intro e depth contextFlags hsub _ _ _
    have hnot : type ≠ .sh := by rintro rfl; exact ok
    have h1 : e + 1 = 1 → t.type = .sh → 0 = contextWithinSh :=
      fun he hsh => (hsub.not_child_of_sh_top hnot he hsh).elim
    exact .script2 (ihX (.child hsub (by simp [Node.children])) (by omega) h1 (.inl rfl))
      (ihY (.child hsub (by simp [Node.children])) (by omega) h1 (.inl rfl)) hX hY
      (script2Flags_eq_some.mpr ⟨ok, rfl⟩)
  | @thresh k n scriptlist fs _ hfs ok ih =>
    intro e depth contextFlags hsub _ _ _
    obtain ⟨hk, -, hn, -⟩ : 1 ≤ k ∧ k ≤ n ∧ n = scriptlist.toList.length ∧ n < 2 ^ sizeTBits :=
      hw.fields hsub
    have count : n = fs.length := by rw [hn, mapM_flags_length hfs]
    have h1 : e + 1 = 1 → t.type = .sh → 0 = contextWithinSh :=
      fun he hsh => (hsub.not_child_of_sh_top (by simp [Node.type]) he hsh).elim
    have hflags : Spec.thresh fs = threshFlags n (fs.countP (·.z)) (fs.countP (·.o)) := by
      rw [count]
      rfl
    rw [hflags]
    exact .thresh (by omega)
      (fun c hc => ih c hc (.child hsub (by simpa [Node.children] using hc)) (by omega) h1
        (.inl rfl)) hfs (threshChildrenOk_iff.mpr ok) count
  | @key type keyIndex token =>
    intro e depth contextFlags hsub h0 h1 _
    have hindex : keyIndex ≠ sizeMax := by
      have : keyIndex < 2 ^ 31 := hw.fields hsub
      simp only [sizeMax, sizeTBits]
      omega
    rcases token with rfl | rfl | rfl | rfl | rfl | rfl
    iterate 4 exact .key (by simp) hindex
    · refine .wpkh ?_ hindex
      rcases hw.wsh_wpkh_top hsub (.inr rfl) with he | ⟨he, hsh⟩
      · exact fun h => absurd (h0 he).1 (by omega)
      · rw [h1 he hsh]
        exact fun h => absurd h.2 (by decide)
    · exact .tr (by have := (h0 (hw.tr_top hsub rfl)).1; omega) hindex
  | hash256 token => intros; rcases token with rfl | rfl <;> exact .hash256 (by simp)
  | hash160 token => intros; rcases token with rfl | rfl <;> exact .hash160 (by simp)
  | @timelock type n token =>
    intro e depth contextFlags hsub _ _ _
    have range : 1 ≤ n ∧ n < 2 ^ 31 := hw.fields hsub
    rcases token with rfl | rfl <;> exact .timelock (by simp) (by omega)
  | @multisig type k n keyIndexes token =>
    intro e depth contextFlags hsub _ _ hctx
    obtain ⟨hk, hkn, hn, count, hkeys⟩ := (hw.fields hsub : Node.FieldsOk (.multisig _ _ _ _ _))
    have context : ¬(type = .sortedmulti ∧ contextFlags &&& contextWithinSh ≠ 0 ∧
        contextFlags &&& contextWithinWsh ≠ 0) := by
      rcases hctx with rfl | rfl | rfl <;> exact fun h => absurd h.2 (by decide)
    have indices : ∀ i ∈ keyIndexes, i ≠ sizeMax := fun i hi => by
      have := hkeys i hi
      simp only [sizeMax, sizeTBits]
      omega
    rcases token with rfl | rfl <;> exact .multisig (by simp) context ⟨hk, hkn, hn⟩ count indices

theorem WellFormed.accepted {t : Node} (hw : WellFormed t) : Accepted 0 0 t :=
  hw.accepted_subtree hw.typed .root (fun _ => ⟨rfl, rfl⟩) (fun h => absurd h (by decide))
    (.inl rfl)

/-! ### The round trip -/

theorem parsePolicyMap_print_of_accepted {t : Node} (h : Accepted 0 0 t)
    (hfits : ∀ {e x}, t.SubtreeAt e x → x.Fits) : parsePolicyMap (t.print false) = some t := by
  have h := h.printedReadsBack hfits [] (by simp) rfl ⟨fun _ => rfl, by simp⟩
    (Nat.lt_succ_self (t.print false ++ []).length)
  simp only [List.map_nil, List.isEmpty_nil, Bool.not_true, List.nil_append,
    List.append_nil] at h
  simp [parsePolicyMap, h]

/-- `parse_policy_map` accepts the canonical text of every well-formed policy and builds
exactly that tree, flags included. -/
theorem parsePolicyMap_print {t : Node} (hw : WellFormed t) :
    parsePolicyMap (t.print false) = some t :=
  parsePolicyMap_print_of_accepted hw.accepted fun hx => (hw.fields hx).fits

theorem Node.SubtreeAt.eq_of_children_nil {t x : Node} {depth : Nat} (h : t.SubtreeAt depth x)
    (hnil : t.children = []) : depth = 0 ∧ x = t := by
  cases depth with
  | zero => exact ⟨rfl, h.zero_inv⟩
  | succ depth =>
    obtain ⟨c, hc, -⟩ := h.succ_inv
    simp [hnil] at hc

/-- The tree of `pk(@0)`. -/
def pkTree : Node := .withKey .pk (Spec.leafFlags .pk) 0

theorem pk_print_round_trip : WellFormed pkTree ∧ parsePolicyMap (pkTree.print false) = some pkTree := by
  have hw : WellFormed pkTree := by
    refine ⟨.key (.inl rfl), ?_, ?_, ?_, ?_, ?_⟩ <;> intro depth x hx <;>
      obtain ⟨rfl, rfl⟩ := hx.eq_of_children_nil rfl <;> simp [pkTree, Node.type, Node.children,
        Node.FieldsOk]
  exact ⟨hw, parsePolicyMap_print hw⟩

/-! ### Top-level expressions of any type -/

/-- A miniscript tree is accepted at every depth and in every context: only `sh`, `wsh`,
`wpkh`, `tr` and `sortedmulti`, which are not miniscript, look at them. -/
theorem Accepted.rebase {depth contextFlags : Nat} {t : Node} (h : Accepted depth contextFlags t) :
    t.isMiniscript → ∀ depth' contextFlags', Accepted depth' contextFlags' t := by
  induction h with
  | zero => exact fun _ _ _ => .zero
  | one => exact fun _ _ _ => .one
  | sh | wsh | wpkh | tr => simp [Node.isMiniscript, Node.flags]
  | hash256 token => exact fun _ _ _ => .hash256 token
  | hash160 token => exact fun _ _ _ => .hash160 token
  | andor _ _ _ hX hY hZ rule ihX ihY ihZ =>
    exact fun _ _ _ => .andor (ihX (by simp [Node.isMiniscript, hX]) _ _)
      (ihY (by simp [Node.isMiniscript, hY]) _ _) (ihZ (by simp [Node.isMiniscript, hZ]) _ _)
      hX hY hZ rule
  | script2 _ _ hX hY rule ihX ihY =>
    exact fun _ _ _ => .script2 (ihX (by simp [Node.isMiniscript, hX]) _ _)
      (ihY (by simp [Node.isMiniscript, hY]) _ _) hX hY rule
  | thresh threshold _ hfs types count ih =>
    exact fun _ _ _ => .thresh threshold
      (fun x hx => ih x hx (isMiniscript_of_mapM_flags hfs x hx) _ _) hfs types count
  | key token index => exact fun _ _ _ => .key token index
  | timelock token range => exact fun _ _ _ => .timelock token range
  | @multisig _ _ type _ _ _ token _ range count indices =>
    intro hms _ _
    have hmulti : type ≠ .sortedmulti := by
      rintro rfl
      simp [Node.isMiniscript, Node.flags] at hms
    exact .multisig token (fun h => hmulti h.1) range count indices
  | wrapper _ hX rule ih =>
    exact fun _ _ _ => .wrapper (ih (by simp [Node.isMiniscript, hX]) _ _) hX rule

theorem fits_descriptor {type : PolicyNodeType} {X : Node} (hw : WellFormed X) :
    ∀ {e x}, (Node.withScript type none X).SubtreeAt e x → x.Fits
  | 0, _, hx => by cases hx.zero_inv; trivial
  | _ + 1, _, hx => by
    obtain ⟨c, hc, hsub⟩ := hx.succ_inv
    simp only [Node.children, List.mem_singleton] at hc
    subst hc
    exact (hw.fields hsub).fits

/-- `parse_policy_map` puts no bound on the type of a top-level expression: a well-formed
miniscript tree of any type is accepted as the whole policy and as the script of `wsh` and
of `sh`. -/
theorem parsePolicyMap_top_level_any_type {X : Node} (hw : WellFormed X)
    (hms : X.isMiniscript) :
    parsePolicyMap (X.print false) = some X ∧
      parsePolicyMap ((Node.withScript .wsh none X).print false) = some (.withScript .wsh none X) ∧
      parsePolicyMap ((Node.withScript .sh none X).print false) = some (.withScript .sh none X) :=
  ⟨parsePolicyMap_print_of_accepted hw.accepted fun hx => (hw.fields hx).fits,
    parsePolicyMap_print_of_accepted (.wsh (fun h => h.1 rfl) (hw.accepted.rebase hms _ _))
      (fits_descriptor hw),
    parsePolicyMap_print_of_accepted (.sh rfl (hw.accepted.rebase hms _ _)) (fits_descriptor hw)⟩

/-- The tree of `pk_k(@0)`, of type `K`. -/
def pkKTree : Node := .withKey .pkK (Spec.leafFlags .pkK) 0

theorem pk_k_top_level :
    WellFormed pkKTree ∧ pkKTree.isMiniscript ∧
      (parsePolicyMap (pkKTree.print false) = some pkKTree ∧
        parsePolicyMap ((Node.withScript .wsh none pkKTree).print false) =
          some (.withScript .wsh none pkKTree) ∧
        parsePolicyMap ((Node.withScript .sh none pkKTree).print false) =
          some (.withScript .sh none pkKTree)) := by
  have hw : WellFormed pkKTree := by
    refine ⟨.key (.inr (.inr (.inl rfl))), ?_, ?_, ?_, ?_, ?_⟩ <;> intro depth x hx <;>
      obtain ⟨rfl, rfl⟩ := hx.eq_of_children_nil rfl <;> simp [pkKTree, Node.type, Node.children,
        Node.FieldsOk]
  have hms : pkKTree.isMiniscript := rfl
  exact ⟨hw, hms, parsePolicyMap_top_level_any_type hw hms⟩

/-- `pk_k(@0)` is accepted as a policy, and as the script of `wsh`, with type `K`. -/
theorem parsePolicyMap_pk_k_type_K :
    parsePolicyMap "pk_k(@0)".toList = some (.withKey .pkK (keyFlags .pkK) 0) ∧
      parsePolicyMap "wsh(pk_k(@0))".toList =
        some (.withScript .wsh none (.withKey .pkK (keyFlags .pkK) 0)) ∧
      (keyFlags .pkK).map Flags.type = some .K := by
  decide

/-! ### `sortedmulti` in every context -/

/-- The check of `sortedmulti` rejects it only when both context flags are set, and `sh` and
`wsh` each pass their script their own flag alone: `sortedmulti` is accepted in every context
`parse_script` is called in. -/
theorem sortedmulti_accepted {depth contextFlags k : Nat} {keyIndexes : List Nat}
    (hctx : contextFlags = 0 ∨ contextFlags = contextWithinSh ∨ contextFlags = contextWithinWsh)
    (hk : 1 ≤ k ∧ k ≤ keyIndexes.length ∧ keyIndexes.length ≤ maxPolicyMapCosigners)
    (hkeys : ∀ i ∈ keyIndexes, i ≠ sizeMax) :
    Accepted depth contextFlags (.multisig .sortedmulti none k keyIndexes.length keyIndexes) :=
  .multisig (.inr rfl) (by rcases hctx with rfl | rfl | rfl <;> decide) hk rfl hkeys

theorem Node.withScript_fits {type : PolicyNodeType} {f : Option Flags} {x : Node}
    (h : ∀ {e y}, x.SubtreeAt e y → y.Fits) :
    ∀ {e y}, (Node.withScript type f x).SubtreeAt e y → y.Fits :=
  Node.forall_subtree_of trivial fun _ hc => List.mem_singleton.mp hc ▸ h

/-- The tree of `sortedmulti(k,@i1,...)`. -/
def sortedmultiTree (k : Nat) (keyIndexes : List Nat) : Node :=
  .multisig .sortedmulti none k keyIndexes.length keyIndexes

/-- The tree of `sh(wsh(x))`. -/
def shWshTree (x : Node) : Node := .withScript .sh none (.withScript .wsh none x)

/-- `sortedmulti` is accepted at the root and under `sh(wsh(...))`, where the message of its
check says it cannot be: the check never rejects anything. -/
theorem parsePolicyMap_sortedmulti_unchecked {k : Nat} {keyIndexes : List Nat}
    (hk : 1 ≤ k ∧ k ≤ keyIndexes.length ∧ keyIndexes.length ≤ maxPolicyMapCosigners)
    (hkeys : ∀ i ∈ keyIndexes, i < sizeMax) :
    parsePolicyMap ((sortedmultiTree k keyIndexes).print false) = some (sortedmultiTree k keyIndexes) ∧
      parsePolicyMap ((shWshTree (sortedmultiTree k keyIndexes)).print false) =
        some (shWshTree (sortedmultiTree k keyIndexes)) := by
  have hne : ∀ i ∈ keyIndexes, i ≠ sizeMax := fun i hi => (hkeys i hi).ne
  have hfits : ∀ {e x}, (sortedmultiTree k keyIndexes).SubtreeAt e x → x.Fits :=
    Node.forall_subtree_of (fun i hi => (hkeys i hi).trans (by decide))
      fun _ hc => absurd hc (List.not_mem_nil _)
  exact ⟨parsePolicyMap_print_of_accepted (sortedmulti_accepted (.inl rfl) hk hne) hfits,
    parsePolicyMap_print_of_accepted
      (.sh rfl (.wsh (by decide) (sortedmulti_accepted (.inr (.inr rfl)) hk hne)))
      (Node.withScript_fits (Node.withScript_fits hfits))⟩

/-- The spec's example of a rejected policy, `sh(wsh(sortedmulti(1,@0)))`, is accepted. -/
theorem sh_wsh_sortedmulti_accepted :
    (1 ≤ 1 ∧ 1 ≤ [0].length ∧ [0].length ≤ maxPolicyMapCosigners) ∧ (∀ i ∈ [0], i < sizeMax) ∧
      (parsePolicyMap ((sortedmultiTree 1 [0]).print false) = some (sortedmultiTree 1 [0]) ∧
        parsePolicyMap ((shWshTree (sortedmultiTree 1 [0])).print false) =
          some (shWshTree (sortedmultiTree 1 [0]))) :=
  have hk : 1 ≤ 1 ∧ 1 ≤ [0].length ∧ [0].length ≤ maxPolicyMapCosigners := by decide
  have hkeys : ∀ i ∈ [0], i < sizeMax := by decide
  ⟨hk, hkeys, parsePolicyMap_sortedmulti_unchecked hk hkeys⟩

end WalletPolicy
