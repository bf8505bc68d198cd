import WalletPolicy.Accepted
import WalletPolicy.LexerRoundtrip
import WalletPolicy.Tables

/-!
# Accepted policies are well typed

Every tree `parse_script` accepts follows the §4.7 tables (`Accepted.followsTables`), and
the tables keep Miniscript's type sanity rules, so every miniscript node of an accepted
policy has consistent flags. A run of wrapper letters `w1...wk:` gives the chain
`w1 -> ... -> wk -> body` in the order of the text (`parseScript_wrapper_run`).
-/
namespace WalletPolicy

theorem threshChildrenOk_iff {fs : List Flags} : ThreshChildrenOk fs ↔ Spec.ThreshOk fs := by
  cases fs <;> rfl

theorem Accepted.followsTables {depth contextFlags : Nat} {t : Node}
    (h : Accepted depth contextFlags t) : FollowsTables t := by
  induction h with
  | zero => exact .constant (.inl rfl)
  | one => exact .constant (.inr rfl)
  | sh _ _ ih => exact .descriptor (.inl rfl) ih
  | wsh _ _ ih => exact .descriptor (.inr rfl) ih
  | hash256 token => rcases token with rfl | rfl <;> exact .hash256 (by simp)
  | hash160 token => rcases token with rfl | rfl <;> exact .hash160 (by simp)
  | andor _ _ _ hX hY hZ rule ihX ihY ihZ =>
    obtain ⟨ok, rfl⟩ := andorFlags_eq_some.mp rule
    exact .andor ihX ihY ihZ hX hY hZ ok
  | script2 _ _ hX hY rule ihX ihY =>
    obtain ⟨ok, rfl⟩ := script2Flags_eq_some.mp rule
    exact .script2 ihX ihY hX hY ok
  | thresh _ _ hfs types count ih =>
    subst count
    exact .thresh ih hfs (threshChildrenOk_iff.mp types)
  | key token => rcases token with rfl | rfl | rfl | rfl <;> exact .key (by simp)
  | wpkh => exact .key (by simp)
  | tr => exact .key (by simp)
  | timelock token => rcases token with rfl | rfl <;> exact .timelock (by simp)
  | multisig token => rcases token with rfl | rfl <;> exact .multisig (by simp)
  | wrapper _ hX rule ih =>
    obtain ⟨token, ok, rfl⟩ := wrapperFlags_eq_some.mp rule
    exact .wrapper token ih hX ok

theorem parseBody_invalid (child : Nat → List Char → Option (Node × List Char))
    (fuel depth contextFlags : Nat) (s : List Char) :
    parseBody child fuel depth contextFlags .invalid s = none := rfl

/-- `parse_script` on a run of wrapper letters `w1...wk:` returns the chain
`w1 -> ... -> wk -> body`, `w1` outermost, over the node `body` it reads after the colon. -/
theorem parseScript_wrapper_run {fuel depth contextFlags : Nat} {ws : List PolicyNodeType}
    {rest r : List Char} {t : Node} (hws : ∀ w ∈ ws, w.isWrapper)
    (h : parseScript fuel depth contextFlags (ws.map wrapperLetter ++ ':' :: rest) = some (t, r)) :
    ∃ body, parseScript fuel depth contextFlags rest = some (body, r) ∧
      applyWrappers ws body = some t := by
  cases fuel with
  | zero => cases h
  | succ fuel =>
    rcases ht : parseToken rest with ⟨token, s2⟩
    by_cases hvalid : token = .invalid
    · subst hvalid
      simp [parseScript, parseWrappers_chain hws, ht, parseBody_invalid] at h
    -- after the colon the text starts with its token, so the same call reads no wrapper
    have hw : parseWrappers rest = ([], rest) :=
      parseWrappers_of_parseToken (by rw [ht]; exact hvalid)
    simp only [parseScript, parseWrappers_chain hws, hw, ht, Option.bind_eq_bind,
      Option.bind_eq_some] at h ⊢
    obtain ⟨s3, h3, ⟨node, s4⟩, h4, s5, h5, u, hg, t', hwr, heq⟩ := h
    obtain ⟨rfl, rfl⟩ := Prod.mk.inj (Option.some.inj heq)
    exact ⟨node, ⟨s3, h3, (node, s4), h4, _, h5, u, hg, node, rfl, rfl⟩, hwr⟩

/-- Every tree `parse_policy_map` returns follows the tables, and every wrapper run
`w1...wk:` that `parse_script` reads, at any depth, gives the chain `w1 -> ... -> wk -> body` over
the body read after the colon, its flags computed from the inside out by `applyWrappers`. -/
theorem parsePolicyMap_follows_tables {s : List Char} {t : Node}
    (h : parsePolicyMap s = some t) :
    FollowsTables t ∧
      ∀ {fuel depth contextFlags : Nat} {ws : List PolicyNodeType} {rest r : List Char}
        {t' : Node}, (∀ w ∈ ws, w.isWrapper) →
        parseScript fuel depth contextFlags (ws.map wrapperLetter ++ ':' :: rest) = some (t', r) →
          ∃ body, parseScript fuel depth contextFlags rest = some (body, r) ∧
            applyWrappers ws body = some t' :=
  ⟨(parsePolicyMap_accepted h).followsTables, parseScript_wrapper_run⟩

/-- The tree of `and_v(v:pk(@0),older(1000))`, scenario 5 of the specification. -/
def andVOlderTree : Node :=
  .withScript2 .andV (some ⟨.B, false, true, true, false, false⟩)
    (.withScript .v (some ⟨.V, false, true, true, false, false⟩)
      (.withKey .pk (some ⟨.B, false, true, true, true, true⟩) 0))
    (.withUint32 .older (some timelockFlags) 1000)

theorem and_v_older_follows_tables :
    parsePolicyMap "and_v(v:pk(@0),older(1000))".toList = some andVOlderTree ∧
      FollowsTables andVOlderTree ∧
      ∀ {fuel depth contextFlags : Nat} {ws : List PolicyNodeType} {rest r : List Char}
        {t' : Node}, (∀ w ∈ ws, w.isWrapper) →
        parseScript fuel depth contextFlags (ws.map wrapperLetter ++ ':' :: rest) = some (t', r) →
          ∃ body, parseScript fuel depth contextFlags rest = some (body, r) ∧
            applyWrappers ws body = some t' := by
  have h : parsePolicyMap "and_v(v:pk(@0),older(1000))".toList = some andVOlderTree := by decide
  exact ⟨h, parsePolicyMap_follows_tables h⟩

/-! ### Type sanity -/

/-- Miniscript's type sanity rules: `K` implies `u`; `V` implies neither `d` nor `u`; `z`
implies not `n`; `W` implies neither `z` nor `n`. -/
def Flags.Sane (f : Flags) : Prop :=
  (f.type = .K → f.u) ∧ (f.type = .V → ¬f.d ∧ ¬f.u) ∧ (f.z → ¬f.n) ∧ (f.type = .W → ¬f.z ∧ ¬f.n)

theorem leafFlags_sane {type : PolicyNodeType} {f : Flags} (h : Spec.leafFlags type = some f) :
    f.Sane := by
  cases type <;> simp only [Spec.leafFlags, Option.some.injEq, reduceCtorEq] at h <;> subst h <;>
    simp [Flags.Sane]

theorem andor_sane {X Y Z : Flags} (ok : Spec.AndorOk X Y Z) (hY : Y.Sane) (hZ : Z.Sane) :
    (Spec.andor X Y Z).Sane := by
  obtain ⟨-, -, -, same, kind⟩ := ok
  rcases Y with ⟨tY, zY, oY, nY, dY, uY⟩
  rcases Z with ⟨tZ, zZ, oZ, nZ, dZ, uZ⟩
  simp only at same
  subst same
  cases tY <;> simp_all [Flags.Sane, Spec.andor]

theorem script2_sane {type : PolicyNodeType} {X Y : Flags} (ok : Spec.Script2Ok type X Y)
    (hX : X.Sane) (hY : Y.Sane) : (Spec.script2 type X Y).Sane := by
  rcases X with ⟨tX, zX, oX, nX, dX, uX⟩
  rcases Y with ⟨tY, zY, oY, nY, dY, uY⟩
  cases type <;> simp only [Spec.Script2Ok] at ok <;> cases tX <;> cases tY <;>
    simp only [reduceCtorEq, false_and, and_false, List.mem_cons, List.mem_singleton, or_self,
      List.not_mem_nil, or_false] at ok <;>
    simp_all only [Flags.Sane, Spec.script2, Bool.and_eq_true, Bool.and_false, Bool.and_self,
      Bool.and_true, Bool.false_and, Bool.false_eq_true, Bool.not_eq_true, Bool.or_false,
      Bool.or_self, Bool.true_and, IsEmpty.forall_iff, and_false, and_self, and_true, false_and,
      forall_const, imp_false, imp_self, implies_true, not_false_eq_true, not_true_eq_false,
      or_true, true_and, reduceCtorEq]

theorem wrapper_sane {type : PolicyNodeType} {X : Flags} (ok : Spec.WrapperOk type X)
    (hX : X.Sane) : (Spec.wrapper type X).Sane := by
  rcases X with ⟨tX, zX, oX, nX, dX, uX⟩
  cases type <;> simp only [Spec.WrapperOk] at ok <;> cases tX <;>
    simp only [reduceCtorEq, false_and] at ok <;>
    simp_all [Flags.Sane, Spec.wrapper]

theorem FollowsTables.sane {t : Node} (h : FollowsTables t) : ∀ {f}, t.flags = some f → f.Sane := by
  induction h with
  | constant | descriptor | key | hash256 | hash160 | timelock | multisig =>
    exact fun hf => leafFlags_sane hf
  | wrapper _ _ hX ok ih =>
    intro f hf; cases hf; exact wrapper_sane ok (ih hX)
  | andor _ _ _ _ hY hZ ok _ ihY ihZ =>
    intro f hf; cases hf; exact andor_sane ok (ihY hY) (ihZ hZ)
  | script2 _ _ hX hY ok ihX ihY =>
    intro f hf; cases hf; exact script2_sane ok (ihX hX) (ihY hY)
  | thresh =>
    intro f hf; cases hf; simp [Flags.Sane, Spec.thresh]

theorem FollowsTables.of_mem_children {p x : Node} (h : FollowsTables p) (hx : x ∈ p.children) :
    FollowsTables x := by
  cases h <;> simp only [Node.children, List.mem_cons, List.mem_singleton, List.not_mem_nil,
    or_false] at hx
  case descriptor child | wrapper child _ _ => subst hx; exact child
  case andor childX childY childZ _ _ _ _ => rcases hx with rfl | rfl | rfl <;> assumption
  case script2 childX childY _ _ _ => rcases hx with rfl | rfl <;> assumption
  case thresh children _ _ => exact children x hx

theorem FollowsTables.subtree {t x : Node} {depth : Nat} (h : FollowsTables t)
    (hx : t.SubtreeAt depth x) : FollowsTables x := by
  induction hx with
  | root => exact h
  | child _ hmem ih => exact ih.of_mem_children hmem

/-- Every miniscript node of an accepted policy has sane flags. -/
theorem parsePolicyMap_flags_sane {s : List Char} {t : Node} (h : parsePolicyMap s = some t) :
    ∀ {depth x f}, t.SubtreeAt depth x → x.flags = some f → f.Sane :=
  fun hx hf => ((parsePolicyMap_accepted h).followsTables.subtree hx).sane hf

theorem and_v_older_flags_sane :
    parsePolicyMap "and_v(v:pk(@0),older(1000))".toList = some andVOlderTree ∧
      andVOlderTree.SubtreeAt 1 (.withScript .v (some ⟨.V, false, true, true, false, false⟩)
        (.withKey .pk (some ⟨.B, false, true, true, true, true⟩) 0)) ∧
      (⟨.V, false, true, true, false, false⟩ : Flags).Sane := by
  have h : parsePolicyMap "and_v(v:pk(@0),older(1000))".toList = some andVOlderTree := by decide
  have hx : andVOlderTree.SubtreeAt 1
      (.withScript .v (some ⟨.V, false, true, true, false, false⟩)
        (.withKey .pk (some ⟨.B, false, true, true, true, true⟩) 0)) :=
    .child .root (by simp [andVOlderTree, Node.children])
  exact ⟨h, hx, parsePolicyMap_flags_sane h hx rfl⟩

end WalletPolicy
