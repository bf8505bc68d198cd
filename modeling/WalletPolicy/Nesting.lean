import WalletPolicy.Accepted

/-!
# Where the descriptor-level nodes of an accepted policy sit

`sh`, `wsh`, `wpkh` and `tr` are gated by the `depth` and `contextFlags` arguments of
`parse_script`, and every combinator and wrapper rejects a child that is not miniscript.
`NestingOk depth contextFlags t` records what this allows for every node of a tree accepted
at `depth` in `contextFlags`; it is established by induction on `Accepted` and read off at
the root for the nesting rules of accepted policies.
-/
namespace WalletPolicy

/-- Positions allowed to `sh`, `wsh`, `wpkh`, `tr` and to nodes that are not miniscript, in a
tree accepted at `depth` in `contextFlags`. -/
def NestingOk (depth contextFlags : Nat) (t : Node) : Prop :=
  ∀ {e x}, t.SubtreeAt e x →
    (x.type = .sh → e = 0 ∧ depth = 0) ∧
    (x.type = .wsh ∨ x.type = .wpkh →
      e = 0 ∧ (depth = 0 ∨ contextFlags &&& contextWithinSh ≠ 0) ∨
        e = 1 ∧ depth = 0 ∧ t.type = .sh) ∧
    (x.type = .tr → e = 0 ∧ depth ≤ 1 ∨ e = 1 ∧ depth = 0 ∧ (t.type = .sh ∨ t.type = .wsh)) ∧
    (∀ y ∈ x.children, y.isMiniscript = false → x.type = .sh ∨ x.type = .wsh)

/-- `sh`, `wsh`, `wpkh` and `tr` nodes are never miniscript. -/
theorem Accepted.flags_eq_none {depth contextFlags : Nat} {t : Node}
    (h : Accepted depth contextFlags t)
    (htype : t.type = .sh ∨ t.type = .wsh ∨ t.type = .wpkh ∨ t.type = .tr) : t.flags = none := by
  cases h with
  | sh | wsh | wpkh | tr => rfl
  | script2 _ _ _ _ rule =>
    simp only [Node.type] at htype
    rcases htype with rfl | rfl | rfl | rfl <;> simp [script2Flags.eq_def] at rule
  | wrapper _ _ rule =>
    simp only [Node.type] at htype
    rcases htype with rfl | rfl | rfl | rfl <;> simp [wrapperFlags.eq_def] at rule
  | hash256 token | hash160 token | timelock token | multisig token =>
    simp only [Node.type] at htype
    rcases token with rfl | rfl <;> simp at htype
  | key token =>
    simp only [Node.type] at htype
    rcases token with rfl | rfl | rfl | rfl <;> simp at htype
  | zero | one | andor | thresh => simp [Node.type] at htype

theorem nestingOk_of_children_nil {depth contextFlags : Nat} {t : Node} (hnil : t.children = [])
    (hsh : t.type ≠ .sh)
    (hwsh : t.type = .wsh ∨ t.type = .wpkh → depth = 0 ∨ contextFlags &&& contextWithinSh ≠ 0)
    (htr : t.type = .tr → depth ≤ 1) : NestingOk depth contextFlags t := by
  intro e x hx
  cases e with
  | zero =>
    cases hx.zero_inv
    exact ⟨fun h => absurd h hsh, fun h => .inl ⟨rfl, hwsh h⟩, fun h => .inl ⟨rfl, htr h⟩,
      by simp [hnil]⟩
  | succ e =>
    obtain ⟨c, hc, -⟩ := hx.succ_inv
    simp [hnil] at hc

/-- A node whose children are all miniscript keeps the positions of its children's nodes. -/
theorem nestingOk_of_miniscript_children {depth contextFlags : Nat} {t : Node}
    (htype : ¬(t.type = .sh ∨ t.type = .wsh ∨ t.type = .wpkh ∨ t.type = .tr))
    (hchildren : ∀ c ∈ t.children, c.isMiniscript = true ∧
      ∃ d' c', Accepted d' c' c ∧ NestingOk d' c' c) :
    NestingOk depth contextFlags t := by
  intro e x hx
  cases e with
  | zero =>
    cases hx.zero_inv
    refine ⟨fun h => absurd (.inl h) htype, fun h => absurd (.inr (h.imp_right .inl)) htype,
      fun h => absurd (.inr (.inr (.inr h))) htype, fun y hy hms => ?_⟩
    simp [(hchildren y hy).1] at hms
  | succ e =>
    obtain ⟨c, hc, hsub⟩ := hx.succ_inv
    obtain ⟨hms, d', c', hacc, hnest⟩ := hchildren c hc
    have miniscript : ¬(c.type = .sh ∨ c.type = .wsh ∨ c.type = .wpkh ∨ c.type = .tr) :=
      fun h => by simp [Node.isMiniscript, hacc.flags_eq_none h] at hms
    obtain ⟨hsh, hwsh, htr, hparent⟩ := hnest hsub
    refine ⟨fun h => ?_, fun h => ?_, fun h => ?_, hparent⟩
    · obtain ⟨rfl, -⟩ := hsh h
      exact absurd (.inl (hsub.zero_inv ▸ h)) miniscript
    · rcases hwsh h with ⟨rfl, -⟩ | ⟨rfl, -, hroot⟩
      · exact absurd (.inr ((hsub.zero_inv ▸ h).imp_right .inl)) miniscript
      · exact absurd (.inl hroot) miniscript
    · rcases htr h with ⟨rfl, -⟩ | ⟨rfl, -, hroot⟩
      · exact absurd (.inr (.inr (.inr (hsub.zero_inv ▸ h)))) miniscript
      · exact absurd (hroot.imp_right .inl) miniscript

theorem Accepted.not_descriptor {depth contextFlags : Nat} {t : Node} {f : Flags}
    (h : Accepted depth contextFlags t) (hf : t.flags = some f) :
    ¬(t.type = .sh ∨ t.type = .wsh ∨ t.type = .wpkh ∨ t.type = .tr) :=
  fun htype => by simp [h.flags_eq_none htype] at hf

theorem Accepted.nestingOk {depth contextFlags : Nat} {t : Node}
    (h : Accepted depth contextFlags t) : NestingOk depth contextFlags t := by
  induction h with
  | zero | one =>
    refine nestingOk_of_children_nil ?_ ?_ ?_ ?_ <;> simp [Node.children, Node.type]
  | hash256 token | hash160 token | timelock token | multisig token =>
    rcases token with rfl | rfl <;>
      refine nestingOk_of_children_nil ?_ ?_ ?_ ?_ <;> simp [Node.children, Node.type]
  | key token =>
    rcases token with rfl | rfl | rfl | rfl <;>
      refine nestingOk_of_children_nil ?_ ?_ ?_ ?_ <;> simp [Node.children, Node.type]
  | wpkh context =>
    refine nestingOk_of_children_nil ?_ ?_ (fun _ => by omega) ?_ <;>
      simp [Node.children, Node.type]
  | tr context =>
    refine nestingOk_of_children_nil ?_ ?_ ?_ (fun _ => by omega) <;>
      simp [Node.children, Node.type]
  | @sh depth contextFlags script top _ ih =>
    intro e x hx
    cases e with
    | zero =>
      cases hx.zero_inv
      exact ⟨fun _ => ⟨rfl, top⟩, by simp [Node.type], by simp [Node.type],
        fun _ _ _ => .inl rfl⟩
    | succ e =>
      obtain ⟨c, hc, hsub⟩ := hx.succ_inv
      simp only [Node.children, List.mem_singleton] at hc
      subst hc
      obtain ⟨hsh, hwsh, htr, hparent⟩ := ih hsub
      refine ⟨fun h => absurd (hsh h).2 (by omega), fun h => ?_, fun h => ?_, hparent⟩
      · rcases hwsh h with ⟨rfl, -⟩ | ⟨-, h1, -⟩
        · exact .inr ⟨rfl, top, rfl⟩
        · omega
      · rcases htr h with ⟨rfl, -⟩ | ⟨-, h1, -⟩
        · exact .inr ⟨rfl, top, .inl rfl⟩
        · omega
  | @wsh depth contextFlags script context _ ih =>
    intro e x hx
    cases e with
    | zero =>
      cases hx.zero_inv
      refine ⟨by simp [Node.type], fun _ => .inl ⟨rfl, ?_⟩, by simp [Node.type],
        fun _ _ _ => .inr rfl⟩
      by_cases top : depth = 0
      · exact .inl top
      · exact .inr fun h => context ⟨top, h⟩
    | succ e =>
      obtain ⟨c, hc, hsub⟩ := hx.succ_inv
      simp only [Node.children, List.mem_singleton] at hc
      subst hc
      obtain ⟨hsh, hwsh, htr, hparent⟩ := ih hsub
      refine ⟨fun h => absurd (hsh h).2 (by omega), fun h => ?_, fun h => ?_, hparent⟩
      · rcases hwsh h with ⟨-, h1 | h1⟩ | ⟨-, h1, -⟩
        · omega
        · exact absurd h1 (by decide)
        · omega
      · rcases htr h with ⟨rfl, h1⟩ | ⟨-, h1, -⟩
        · exact .inr ⟨rfl, by omega, .inr rfl⟩
        · omega
  | andor childX childY childZ hX hY hZ rule ihX ihY ihZ =>
    refine nestingOk_of_miniscript_children (by simp [Node.type]) ?_
    simp only [Node.children, List.mem_cons, List.mem_singleton, List.not_mem_nil, or_false]
    rintro c (rfl | rfl | rfl)
    · exact ⟨by simp [Node.isMiniscript, hX], _, _, childX, ihX⟩
    · exact ⟨by simp [Node.isMiniscript, hY], _, _, childY, ihY⟩
    · exact ⟨by simp [Node.isMiniscript, hZ], _, _, childZ, ihZ⟩
  | script2 childX childY hX hY rule ihX ihY =>
    refine nestingOk_of_miniscript_children
      ((show Accepted _ 0 _ from .script2 childX childY hX hY rule).not_descriptor rfl) ?_
    simp only [Node.children, List.mem_cons, List.mem_singleton, List.not_mem_nil, or_false]
    rintro c (rfl | rfl)
    · exact ⟨by simp [Node.isMiniscript, hX], _, _, childX, ihX⟩
    · exact ⟨by simp [Node.isMiniscript, hY], _, _, childY, ihY⟩
  | thresh _ children hfs _ _ ih =>
    refine nestingOk_of_miniscript_children (by simp [Node.type]) fun c hc => ?_
    exact ⟨isMiniscript_of_mapM_flags hfs c hc, _, _, children c hc, ih c hc⟩
  | wrapper body hX rule ih =>
    refine nestingOk_of_miniscript_children
      ((show Accepted _ _ _ from .wrapper body hX rule).not_descriptor rfl) ?_
    simp only [Node.children, List.mem_singleton]
    rintro c rfl
    exact ⟨by simp [Node.isMiniscript, hX], _, _, body, ih⟩

/-! ### Nesting in accepted policies -/

/-- `sh` only at the root, `wsh` and `wpkh` at the root or under a root `sh`, and a node that
is not miniscript only under `sh` or `wsh`. -/
theorem parsePolicyMap_nesting {s : List Char} {t : Node} (h : parsePolicyMap s = some t) :
    ∀ {depth x}, t.SubtreeAt depth x →
      (x.type = .sh → depth = 0) ∧
      (x.type = .wsh ∨ x.type = .wpkh → depth = 0 ∨ depth = 1 ∧ t.type = .sh) ∧
      (∀ y ∈ x.children, y.isMiniscript = false → x.type = .sh ∨ x.type = .wsh) := by
  intro depth x hx
  obtain ⟨hsh, hwsh, -, hparent⟩ := (parsePolicyMap_accepted h).nestingOk hx
  exact ⟨fun h => (hsh h).1, fun h => (hwsh h).imp And.left fun h => ⟨h.1, h.2.2⟩,
    hparent⟩

/-- The tree of `sh(wpkh(@0))`. -/
def shWpkhTree : Node := .withScript .sh none (.withKey .wpkh none 0)

theorem sh_wpkh_nesting :
    parsePolicyMap "sh(wpkh(@0))".toList = some shWpkhTree ∧
      shWpkhTree.SubtreeAt 1 (.withKey .wpkh none 0) ∧ (1 = 0 ∨ 1 = 1 ∧ shWpkhTree.type = .sh) := by
  have h : parsePolicyMap "sh(wpkh(@0))".toList = some shWpkhTree := by decide
  have hx : shWpkhTree.SubtreeAt 1 (.withKey .wpkh none 0) := .child .root (by simp [shWpkhTree,
    Node.children])
  exact ⟨h, hx, (parsePolicyMap_nesting h hx).2.1 (.inr rfl)⟩

/-- `tr` sits at the root or directly under a root `sh` or `wsh`: its check bounds the depth
by one and `sh`, `wsh` take any child. -/
theorem parsePolicyMap_tr_depth {s : List Char} {t : Node} (h : parsePolicyMap s = some t)
    {depth : Nat} {x : Node} (hx : t.SubtreeAt depth x) (htr : x.type = .tr) :
    depth = 0 ∨ depth = 1 ∧ (t.type = .sh ∨ t.type = .wsh) :=
  ((parsePolicyMap_accepted h).nestingOk hx).2.2.1 htr |>.imp And.left fun h => ⟨h.1, h.2.2⟩

/-- The tree of `wsh(tr(@0))`. -/
def wshTrTree : Node := .withScript .wsh none (.withKey .tr none 0)

theorem wsh_tr_depth :
    parsePolicyMap "wsh(tr(@0))".toList = some wshTrTree ∧
      wshTrTree.SubtreeAt 1 (.withKey .tr none 0) ∧
      (1 = 0 ∨ 1 = 1 ∧ (wshTrTree.type = .sh ∨ wshTrTree.type = .wsh)) := by
  have h : parsePolicyMap "wsh(tr(@0))".toList = some wshTrTree := by decide
  have hx : wshTrTree.SubtreeAt 1 (.withKey .tr none 0) := .child .root (by simp [wshTrTree,
    Node.children])
  exact ⟨h, hx, parsePolicyMap_tr_depth h hx rfl⟩

/-- The tree of `sh(tr(@0))`. -/
def shTrTree : Node := .withScript .sh none (.withKey .tr none 0)

/-- `parse_script` accepts `tr` one level below the root, under `sh`. -/
theorem parsePolicyMap_sh_tr :
    parsePolicyMap "sh(tr(@0))".toList = some shTrTree ∧ shTrTree.SubtreeAt 1 (.withKey .tr none 0) :=
  ⟨by decide, .child .root (by simp [shTrTree, Node.children])⟩

end WalletPolicy
