import WalletPolicy.Typing

/-!
# Witness sizes

Miniscript's satisfaction table, by the number of witness elements: `Node.witness` gives the
sizes of the satisfactions and of the dissatisfactions of a node. The modifiers the parser
stores promise witnesses of zero elements (`z`), of one element (`o`), and a dissatisfaction
(`d`). The promise of `d` holds on every accepted policy; the one of `z` on the policies
without hash leaves, and the one of `o` on those without hash leaves, `or_c` or `or_d`: the
hash leaves are flagged `z` for a one-element witness, and `or_c`, `or_d` take `o` from both
children where the second one is run after a dissatisfaction of the first.
-/
namespace WalletPolicy

/-! ### The satisfaction table -/

/-- The sizes of the witness stacks of a node's satisfactions and of its dissatisfactions. -/
structure WitnessSizes where
  sat : List Nat
  dsat : List Nat

/-- `A + B`: a witness of each, one after the other. -/
def sumSizes (A B : List Nat) : List Nat := A.flatMap fun a => B.map (a + ·)

/-- `0`: no satisfaction, the empty dissatisfaction. -/
def zeroSizes : WitnessSizes := ⟨[], [0]⟩

/-- `1`: the empty satisfaction, no dissatisfaction. -/
def oneSizes : WitnessSizes := ⟨[0], []⟩

def andorSizes (X Y Z : WitnessSizes) : WitnessSizes :=
  ⟨sumSizes X.sat Y.sat ++ sumSizes X.dsat Z.sat, sumSizes X.dsat Z.dsat⟩

def orISizes (X Z : WitnessSizes) : WitnessSizes :=
  ⟨(X.sat ++ Z.sat).map (· + 1), (X.dsat ++ Z.dsat).map (· + 1)⟩

/-- The two-child combinators; `and_n(X,Y)` is `andor(X,Y,0)`. -/
def script2Sizes : PolicyNodeType → WitnessSizes → WitnessSizes → WitnessSizes
  | .andV, X, Y => ⟨sumSizes X.sat Y.sat, []⟩
  | .andB, X, Y => ⟨sumSizes X.sat Y.sat, sumSizes X.dsat Y.dsat⟩
  | .andN, X, Y => andorSizes X Y zeroSizes
  | .orB, X, Z => ⟨sumSizes X.sat Z.dsat ++ sumSizes X.dsat Z.sat, sumSizes X.dsat Z.dsat⟩
  | .orC, X, Z => ⟨X.sat ++ sumSizes X.dsat Z.sat, []⟩
  | .orD, X, Z => ⟨X.sat ++ sumSizes X.dsat Z.sat, sumSizes X.dsat Z.dsat⟩
  | _, X, Z => orISizes X Z

/-- The wrappers; `l:X` is `or_i(0,X)` and `u:X` is `or_i(X,0)`. -/
def wrapperSizes : PolicyNodeType → WitnessSizes → WitnessSizes
  | .t, X | .v, X => ⟨X.sat, []⟩
  | .d, X => ⟨X.sat.map (· + 1), [1]⟩
  | .j, X => ⟨X.sat, [1]⟩
  | .l, X => orISizes zeroSizes X
  | .u, X => orISizes X zeroSizes
  | _, X => X

def keySizes : PolicyNodeType → WitnessSizes
  | .pk | .pkK => ⟨[1], [1]⟩
  | .pkh | .pkH => ⟨[2], [2]⟩
  | _ => ⟨[], []⟩

/-- The witnesses of `thresh` that satisfy exactly `k` of the children. -/
def threshSizes : List WitnessSizes → Nat → List Nat
  | [], 0 => [0]
  | [], _ + 1 => []
  | c :: cs, 0 => sumSizes c.dsat (threshSizes cs 0)
  | c :: cs, k + 1 => sumSizes c.sat (threshSizes cs k) ++ sumSizes c.dsat (threshSizes cs (k + 1))

mutual
/-- The witness sizes of a node by the satisfaction table. -/
def Node.witness : Node → WitnessSizes
  | .constant .zero _ => zeroSizes
  | .constant _ _ => oneSizes
  | .withScript type _ x => wrapperSizes type x.witness
  | .withScript2 type _ x y => script2Sizes type x.witness y.witness
  | .withScript3 _ _ x y z => andorSizes x.witness y.witness z.witness
  | .thresh _ k _ scripts => ⟨threshSizes scripts.witnesses k, threshSizes scripts.witnesses 0⟩
  | .withKey type _ _ => keySizes type
  | .withHash256 .. | .withHash160 .. => ⟨[1], [1]⟩
  | .withUint32 .. => ⟨[0], []⟩
  | .multisig _ _ k _ _ => ⟨[k + 1], [k + 1]⟩

def ScriptList.witnesses : ScriptList → List WitnessSizes
  | .nil => []
  | .cons x next => x.witness :: next.witnesses
end

theorem ScriptList.witnesses_eq : ∀ scripts : ScriptList,
    scripts.witnesses = scripts.toList.map Node.witness
  | .nil => rfl
  | .cons x next => by simp [ScriptList.witnesses, witnesses_eq next]

@[simp] theorem Node.witness_withScript (type : PolicyNodeType) (f : Option Flags) (x : Node) :
    (Node.withScript type f x).witness = wrapperSizes type x.witness := by
  simp [Node.witness]

@[simp] theorem Node.witness_withScript2 (type : PolicyNodeType) (f : Option Flags) (x y : Node) :
    (Node.withScript2 type f x y).witness = script2Sizes type x.witness y.witness := by
  simp [Node.witness]

@[simp] theorem Node.witness_withScript3 (type : PolicyNodeType) (f : Option Flags) (x y z : Node) :
    (Node.withScript3 type f x y z).witness = andorSizes x.witness y.witness z.witness := by
  simp [Node.witness]

@[simp] theorem Node.witness_thresh (f : Option Flags) (k n : Nat) (scripts : ScriptList) :
    (Node.thresh f k n scripts).witness =
      ⟨threshSizes scripts.witnesses k, threshSizes scripts.witnesses 0⟩ := by
  simp [Node.witness]

/-- Every witness, satisfying or not, has `v` elements. -/
def WitnessSizes.AllOf (w : WitnessSizes) (v : Nat) : Prop :=
  (∀ k ∈ w.sat, k = v) ∧ ∀ k ∈ w.dsat, k = v

/-! ### Sizes of the combinators -/

theorem mem_sumSizes {A B : List Nat} {x : Nat} :
    x ∈ sumSizes A B ↔ ∃ a ∈ A, ∃ b ∈ B, a + b = x := by
  simp [sumSizes]

theorem sumSizes_ne_nil {A B : List Nat} (hA : A ≠ []) (hB : B ≠ []) : sumSizes A B ≠ [] := by
  obtain ⟨a, ha⟩ := List.exists_mem_of_ne_nil A hA
  obtain ⟨b, hb⟩ := List.exists_mem_of_ne_nil B hB
  exact List.ne_nil_of_mem (mem_sumSizes.mpr ⟨a, ha, b, hb, rfl⟩)

theorem forall_sumSizes {A B : List Nat} {u v : Nat} (hA : ∀ a ∈ A, a = u)
    (hB : ∀ b ∈ B, b = v) : ∀ x ∈ sumSizes A B, x = u + v := by
  intro x hx
  obtain ⟨a, ha, b, hb, rfl⟩ := mem_sumSizes.mp hx
  rw [hA a ha, hB b hb]

theorem forall_map_add_one {A : List Nat} {u : Nat} (hA : ∀ a ∈ A, a = u) :
    ∀ x ∈ A.map (· + 1), x = u + 1 := by
  simpa using fun a ha => hA a ha

theorem zeroSizes_allOf : zeroSizes.AllOf 0 := ⟨by simp [zeroSizes], by simp [zeroSizes]⟩

theorem andorSizes_allOf {X Y Z : WitnessSizes} {a b : Nat} (hX : X.AllOf a) (hY : Y.AllOf b)
    (hZ : Z.AllOf b) : (andorSizes X Y Z).AllOf (a + b) :=
  ⟨List.forall_mem_append.mpr ⟨forall_sumSizes hX.1 hY.1, forall_sumSizes hX.2 hZ.1⟩,
    forall_sumSizes hX.2 hZ.2⟩

theorem orISizes_allOf {X Z : WitnessSizes} {a : Nat} (hX : X.AllOf a) (hZ : Z.AllOf a) :
    (orISizes X Z).AllOf (a + 1) :=
  ⟨forall_map_add_one (List.forall_mem_append.mpr ⟨hX.1, hZ.1⟩),
    forall_map_add_one (List.forall_mem_append.mpr ⟨hX.2, hZ.2⟩)⟩

/-- Each witness of `thresh` takes one witness of every child. -/
theorem forall_threshSizes {val : Flags → Nat} : ∀ {xs : List Node} {fs : List Flags},
    xs.mapM Node.flags = some fs → (∀ x ∈ xs, ∀ f, x.flags = some f → x.witness.AllOf (val f)) →
    ∀ k, ∀ v ∈ threshSizes (xs.map Node.witness) k, v = (fs.map val).sum
  | [], fs, hfs, _, k, v, hv => by
    cases hfs
    rcases k with _ | k <;> simp_all [threshSizes]
  | x :: xs, fs, hfs, hall, k, v, hv => by
    simp only [List.mapM_cons, Option.bind_eq_bind, Option.bind_eq_some, Option.pure_def,
      Option.some.injEq] at hfs
    obtain ⟨f, hf, fs', hfs', rfl⟩ := hfs
    have hx := hall x (List.mem_cons_self _ _) f hf
    have ih := forall_threshSizes hfs' fun y hy => hall y (List.mem_cons_of_mem _ hy)
    rw [List.map_cons, List.sum_cons]
    rcases k with _ | k
    · exact forall_sumSizes hx.2 (ih 0) v hv
    · rcases List.mem_append.mp hv with hv | hv
      exacts [forall_sumSizes hx.1 (ih k) v hv, forall_sumSizes hx.2 (ih (k + 1)) v hv]

theorem sum_map_const_zero : ∀ fs : List Flags, (fs.map fun _ => 0).sum = 0
  | [] => rfl
  | _ :: fs => by simp [sum_map_const_zero fs]

theorem sum_map_indicator_o : ∀ fs : List Flags,
    (fs.map fun g => if g.o then 1 else 0).sum = fs.countP (·.o)
  | [] => rfl
  | g :: fs => by
    rw [List.map_cons, List.sum_cons, sum_map_indicator_o fs, List.countP_cons]
    by_cases hg : g.o <;> simp [hg, Nat.add_comm]

/-- Flags that are never both `z` and `o`, with `n - 1` of the `n` being `z` and one `o`, are
each `z` or `o`. -/
theorem z_or_o_of_counts {fs : List Flags} (hex : ∀ g ∈ fs, ¬(g.z ∧ g.o))
    (hz : fs.countP (·.z) = fs.length - 1) (ho : fs.countP (·.o) = 1) : ∀ g ∈ fs, g.z ∨ g.o := by
  have hsplit : ∀ fs : List Flags, (∀ g ∈ fs, ¬(g.z ∧ g.o)) →
      fs.countP (·.z) + fs.countP (·.o) + fs.countP (fun g => !g.z && !g.o) = fs.length := by
    intro fs hex
    induction fs with
    | nil => rfl
    | cons g fs ih =>
      simp only [List.mem_cons, forall_eq_or_imp] at hex
      have hg : ((if g.z then 1 else 0) + (if g.o then 1 else 0) +
          if (!g.z && !g.o) then 1 else 0) = 1 := by
        rcases g with ⟨_, _ | _, _ | _, _, _, _⟩ <;> first | rfl | exact absurd ⟨rfl, rfl⟩ hex.1
      simp only [List.countP_cons, List.length_cons, ← ih hex.2]
      omega
  have hle := List.countP_le_length (·.o) (l := fs)
  have hnone := List.countP_eq_zero.mp (by have := hsplit fs hex; omega :
    fs.countP (fun g => !g.z && !g.o) = 0)
  intro g hg
  have hg' := hnone g hg
  revert hg'
  cases g.z <;> cases g.o <;> simp

theorem mapM_flags_forall {P : Flags → Prop} : ∀ {xs : List Node} {fs : List Flags},
    xs.mapM Node.flags = some fs → (∀ x ∈ xs, ∀ g, x.flags = some g → P g) → ∀ g ∈ fs, P g
  | [], _, hfs, _, g, hg => by cases hfs; cases hg
  | x :: xs, fs, hfs, hall, g, hg => by
    simp only [List.mapM_cons, Option.bind_eq_bind, Option.bind_eq_some, Option.pure_def,
      Option.some.injEq] at hfs
    obtain ⟨g', hg', fs', hfs', rfl⟩ := hfs
    rcases List.mem_cons.mp hg with rfl | hg
    · exact hall x (List.mem_cons_self _ _) g hg'
    · exact mapM_flags_forall hfs' (fun y hy => hall y (List.mem_cons_of_mem _ hy)) g hg

theorem mem_of_mapM_flags : ∀ {xs : List Node} {fs : List Flags} {x : Node} {f : Flags},
    xs.mapM Node.flags = some fs → x ∈ xs → x.flags = some f → f ∈ fs
  | [], _, _, _, _, hx, _ => absurd hx (List.not_mem_nil _)
  | y :: xs, fs, x, f, hfs, hx, hf => by
    simp only [List.mapM_cons, Option.bind_eq_bind, Option.bind_eq_some, Option.pure_def,
      Option.some.injEq] at hfs
    obtain ⟨g, hg, fs', hfs', rfl⟩ := hfs
    rcases List.mem_cons.mp hx with rfl | hx
    · rw [hf] at hg
      cases hg
      exact List.mem_cons_self _ _
    · exact List.mem_cons_of_mem _ (mem_of_mapM_flags hfs' hx hf)

/-! ### `d`: a dissatisfaction exists -/

theorem FollowsTables.dsat_ne_nil {t : Node} (h : FollowsTables t) :
    ∀ {f}, t.flags = some f → f.d → t.witness.dsat ≠ [] := by
  induction h with
  | constant token =>
    rcases token with rfl | rfl <;> intro f hf hd <;> cases hf
    · simp [Node.witness, zeroSizes]
    · cases hd
  | descriptor token => rcases token with rfl | rfl <;> intro f hf <;> cases hf
  | @wrapper type _ _ _ _ hX ok ih =>
    intro f hf hd
    cases hf
    cases type <;> simp only [Spec.WrapperOk] at ok <;>
      simp only [Spec.wrapper, Bool.false_eq_true] at hd <;>
      first
      | exact ih hX hd
      | simp [Node.witness, wrapperSizes, orISizes, zeroSizes]
  | andor _ _ _ hX _ hZ ok ihX _ ihZ =>
    intro f hf hd
    cases hf
    exact sumSizes_ne_nil (ihX hX ok.2.1) (ihZ hZ hd)
  | @script2 type _ _ _ _ _ _ hX hY ok ihX ihY =>
    intro f hf hd
    cases hf
    cases type <;> simp only [Spec.Script2Ok] at ok <;>
      simp only [Spec.script2, Bool.false_eq_true, Bool.and_eq_true, Bool.or_eq_true] at hd
    case andB => exact sumSizes_ne_nil (ihX hX hd.1) (ihY hY hd.2)
    case andN => exact sumSizes_ne_nil (ihX hX ok.2.1) (by simp [zeroSizes])
    case orB => exact sumSizes_ne_nil (ihX hX ok.2.1) (ihY hY ok.2.2.2)
    case orD => exact sumSizes_ne_nil (ihX hX ok.2.1) (ihY hY hd)
    case orI =>
      rcases hd with hd | hd
      · simp [Node.witness, script2Sizes, orISizes, ihX hX hd]
      · simp [Node.witness, script2Sizes, orISizes, ihY hY hd]
  | thresh => intro f hf hd; cases hf; cases hd
  | key token =>
    rcases token with rfl | rfl | rfl | rfl | rfl | rfl <;> intro f hf <;> cases hf <;>
      simp [Node.witness, keySizes]
  | hash256 | hash160 => intro f hf _; simp [Node.witness]
  | timelock token => rcases token with rfl | rfl <;> intro f hf hd <;> cases hf <;> cases hd
  | multisig token => rcases token with rfl | rfl <;> intro f hf <;> cases hf; simp [Node.witness]

/-! ### `z`: witnesses of zero elements -/

/-- The hash leaves, whose one-element witness `z` does not describe. -/
def hashTokens : List PolicyNodeType := [.sha256, .hash256, .ripemd160, .hash160]

theorem forall_subtree_of_child {P : Node → Prop} {t c : Node} (hc : c ∈ t.children)
    (h : ∀ {depth x}, t.SubtreeAt depth x → P x) : ∀ {depth x}, c.SubtreeAt depth x → P x :=
  fun hx => h (hx.of_child hc)

theorem FollowsTables.zero_sound {t : Node} (h : FollowsTables t) :
    (∀ {depth x}, t.SubtreeAt depth x → x.type ∉ hashTokens) →
      ∀ {f}, t.flags = some f → (f.z → t.witness.AllOf 0) ∧ ¬(f.z ∧ f.o) := by
  induction h with
  | constant token =>
    rcases token with rfl | rfl <;> intro _ f hf <;> cases hf
    · exact ⟨fun _ => zeroSizes_allOf, by simp [Spec.leafFlags]⟩
    · exact ⟨fun _ => ⟨by simp [Node.witness, oneSizes], by simp [Node.witness, oneSizes]⟩,
        by simp [Spec.leafFlags]⟩
  | descriptor token => rcases token with rfl | rfl <;> intro _ f hf <;> cases hf
  | @wrapper type _ X _ _ hX ok ih =>
    intro hfree f hf
    cases hf
    obtain ⟨ihz, ihzo⟩ := ih (forall_subtree_of_child (by simp [Node.children]) hfree) hX
    cases type <;> simp only [Spec.WrapperOk] at ok <;>
      simp only [Spec.wrapper, Bool.false_eq_true, false_and, false_implies, not_false_eq_true,
        and_self, and_true]
    case t | v => exact ⟨fun hz => ⟨(ihz hz).1, by simp [Node.witness, wrapperSizes]⟩, ihzo⟩
    case n => exact ⟨ihz, ihzo⟩
  | andor _ _ _ hX hY hZ _ ihX ihY ihZ =>
    intro hfree f hf
    cases hf
    obtain ⟨hzX, hzoX⟩ := ihX (forall_subtree_of_child (by simp [Node.children]) hfree) hX
    obtain ⟨hzY, hzoY⟩ := ihY (forall_subtree_of_child (by simp [Node.children]) hfree) hY
    obtain ⟨hzZ, hzoZ⟩ := ihZ (forall_subtree_of_child (by simp [Node.children]) hfree) hZ
    simp only [Spec.andor, Bool.and_eq_true, Bool.or_eq_true]
    refine ⟨fun ⟨⟨hx, hy⟩, hz⟩ => andorSizes_allOf (hzX hx) (hzY hy) (hzZ hz), ?_⟩
    rintro ⟨⟨⟨hx, hy⟩, hz⟩, ⟨⟨-, hy'⟩, -⟩ | ⟨⟨hx', -⟩, -⟩⟩
    exacts [hzoY ⟨hy, hy'⟩, hzoX ⟨hx, hx'⟩]
  | @script2 type _ _ _ _ _ _ hX hY ok ihX ihY =>
    intro hfree f hf
    cases hf
    obtain ⟨hzX, hzoX⟩ := ihX (forall_subtree_of_child (by simp [Node.children]) hfree) hX
    obtain ⟨hzY, hzoY⟩ := ihY (forall_subtree_of_child (by simp [Node.children]) hfree) hY
    cases type <;> simp only [Spec.Script2Ok] at ok <;>
      simp only [Spec.script2, Bool.and_eq_true, Bool.or_eq_true, Bool.false_eq_true,
        false_and, false_implies, not_false_eq_true, and_self, Node.witness_withScript2,
        script2Sizes, WitnessSizes.AllOf]
    case andV =>
      exact ⟨fun ⟨hx, hy⟩ => ⟨forall_sumSizes (hzX hx).1 (hzY hy).1, by simp⟩,
        fun ⟨⟨hx, hy⟩, h⟩ => h.elim (fun h => hzoY ⟨hy, h.2⟩) (fun h => hzoX ⟨hx, h.1⟩)⟩
    case andB =>
      exact ⟨fun ⟨hx, hy⟩ => ⟨forall_sumSizes (hzX hx).1 (hzY hy).1,
        forall_sumSizes (hzX hx).2 (hzY hy).2⟩,
        fun ⟨⟨hx, hy⟩, h⟩ => h.elim (fun h => hzoY ⟨hy, h.2⟩) (fun h => hzoX ⟨hx, h.1⟩)⟩
    case andN =>
      exact ⟨fun ⟨hx, hy⟩ => andorSizes_allOf (hzX hx) (hzY hy) zeroSizes_allOf,
        fun ⟨⟨hx, _⟩, h⟩ => hzoX ⟨hx, h.1⟩⟩
    case orB =>
      exact ⟨fun ⟨hx, hy⟩ => ⟨List.forall_mem_append.mpr ⟨forall_sumSizes (hzX hx).1 (hzY hy).2,
        forall_sumSizes (hzX hx).2 (hzY hy).1⟩, forall_sumSizes (hzX hx).2 (hzY hy).2⟩,
        fun ⟨⟨hx, hy⟩, h⟩ => h.elim (fun h => hzoY ⟨hy, h.2⟩) (fun h => hzoX ⟨hx, h.1⟩)⟩
    case orC =>
      exact ⟨fun ⟨hx, hy⟩ => ⟨List.forall_mem_append.mpr ⟨(hzX hx).1,
        forall_sumSizes (hzX hx).2 (hzY hy).1⟩, by simp⟩, fun ⟨⟨hx, _⟩, h⟩ => hzoX ⟨hx, h.1⟩⟩
    case orD =>
      exact ⟨fun ⟨hx, hy⟩ => ⟨List.forall_mem_append.mpr ⟨(hzX hx).1,
        forall_sumSizes (hzX hx).2 (hzY hy).1⟩, forall_sumSizes (hzX hx).2 (hzY hy).2⟩,
        fun ⟨⟨hx, _⟩, h⟩ => hzoX ⟨hx, h.1⟩⟩
  | @thresh k n scriptlist fs _ hfs ok ih =>
    intro hfree f hf
    cases hf
    have hchild : ∀ x ∈ scriptlist.toList, ∀ g, x.flags = some g →
        (g.z → x.witness.AllOf 0) ∧ ¬(g.z ∧ g.o) := fun x hx _ hg =>
      ih x hx (forall_subtree_of_child (by simpa [Node.children] using hx) hfree) hg
    constructor
    · intro hz
      have hall : ∀ g ∈ fs, g.z := List.countP_eq_length.mp (by simpa [Spec.thresh] using hz)
      have hsizes := @forall_threshSizes (fun _ => 0) _ _ hfs fun x hx g hg =>
        (hchild x hx g hg).1 (hall g (mem_of_mapM_flags hfs hx hg))
      rw [sum_map_const_zero] at hsizes
      rw [Node.witness_thresh, ScriptList.witnesses_eq]
      exact ⟨hsizes k, hsizes 0⟩
    · rintro ⟨hz, ho⟩
      simp only [Spec.thresh, decide_eq_true_eq, Bool.and_eq_true] at hz ho
      obtain rfl : fs = [] := List.length_eq_zero.mp (by omega)
      exact ok
  | key token =>
    rcases token with rfl | rfl | rfl | rfl | rfl | rfl <;> intro _ f hf <;> cases hf <;>
      simp [Spec.leafFlags]
  | hash256 token | hash160 token =>
    intro hfree
    exact absurd (hfree .root) (by rcases token with rfl | rfl <;> simp [Node.type, hashTokens])
  | timelock token =>
    rcases token with rfl | rfl <;> intro _ f hf <;> cases hf <;>
      exact ⟨fun _ => ⟨by simp [Node.witness], by simp [Node.witness]⟩, by simp⟩
  | multisig token => rcases token with rfl | rfl <;> intro _ f hf <;> cases hf; simp

/-! ### `o`: witnesses of one element -/

theorem FollowsTables.one_sound {t : Node} (h : FollowsTables t) :
    (∀ {depth x}, t.SubtreeAt depth x → x.type ∉ hashTokens ++ [.orC, .orD]) →
      ∀ {f}, t.flags = some f → f.o → t.witness.AllOf 1 := by
  have hashFree : ∀ {t : Node},
      (∀ {depth x}, t.SubtreeAt depth x → x.type ∉ hashTokens ++ [.orC, .orD]) →
        ∀ {depth x}, t.SubtreeAt depth x → x.type ∉ hashTokens :=
    fun hfree _ _ hx hmem => hfree hx (List.mem_append_left _ hmem)
  induction h with
  | constant token => rcases token with rfl | rfl <;> intro _ f hf ho <;> cases hf <;> cases ho
  | descriptor token => rcases token with rfl | rfl <;> intro _ f hf <;> cases hf
  | @wrapper type script X _ child hX ok ih =>
    intro hfree f hf ho
    cases hf
    have hfreeX := @forall_subtree_of_child _ _ script (by simp [Node.children]) hfree
    have hzX := (child.zero_sound (hashFree hfreeX) hX).1
    cases type <;> simp only [Spec.WrapperOk] at ok <;>
      simp only [Spec.wrapper, Bool.false_eq_true] at ho <;>
      simp only [Node.witness_withScript, wrapperSizes, WitnessSizes.AllOf]
    case c | n => exact ih hfreeX hX ho
    case t | v => exact ⟨(ih hfreeX hX ho).1, by simp⟩
    case d => exact ⟨forall_map_add_one (hzX ok.2).1, by simp⟩
    case j => exact ⟨(ih hfreeX hX ho).1, by simp⟩
    case l => exact orISizes_allOf zeroSizes_allOf (hzX ho)
    case u => exact orISizes_allOf (hzX ho) zeroSizes_allOf
  | @andor X Y Z _ _ _ childX childY childZ hX hY hZ _ ihX ihY ihZ =>
    intro hfree f hf ho
    cases hf
    have hfreeX := @forall_subtree_of_child _ _ X (by simp [Node.children]) hfree
    have hfreeY := @forall_subtree_of_child _ _ Y (by simp [Node.children]) hfree
    have hfreeZ := @forall_subtree_of_child _ _ Z (by simp [Node.children]) hfree
    simp only [Spec.andor, Bool.or_eq_true, Bool.and_eq_true] at ho
    rw [Node.witness_withScript3]
    rcases ho with ⟨⟨hx, hy⟩, hz⟩ | ⟨⟨hx, hy⟩, hz⟩
    · exact andorSizes_allOf ((childX.zero_sound (hashFree hfreeX) hX).1 hx) (ihY hfreeY hY hy)
        (ihZ hfreeZ hZ hz)
    · exact andorSizes_allOf (ihX hfreeX hX hx) ((childY.zero_sound (hashFree hfreeY) hY).1 hy)
        ((childZ.zero_sound (hashFree hfreeZ) hZ).1 hz)
  | @script2 type X Y _ _ childX childY hX hY ok ihX ihY =>
    intro hfree f hf ho
    cases hf
    have hfreeX := @forall_subtree_of_child _ _ X (by simp [Node.children]) hfree
    have hfreeY := @forall_subtree_of_child _ _ Y (by simp [Node.children]) hfree
    have hzX := (childX.zero_sound (hashFree hfreeX) hX).1
    have hzY := (childY.zero_sound (hashFree hfreeY) hY).1
    have hoX := ihX hfreeX hX
    have hoY := ihY hfreeY hY
    have hroot := hfree .root
    cases type <;> simp only [Spec.Script2Ok] at ok <;>
      simp only [Spec.script2, Bool.and_eq_true, Bool.or_eq_true, Bool.false_eq_true] at ho <;>
      simp only [Node.witness_withScript2, script2Sizes, WitnessSizes.AllOf]
    case andV =>
      rcases ho with ⟨hx, hy⟩ | ⟨hx, hy⟩
      · exact ⟨forall_sumSizes (hzX hx).1 (hoY hy).1, by simp⟩
      · exact ⟨forall_sumSizes (hoX hx).1 (hzY hy).1, by simp⟩
    case andB =>
      rcases ho with ⟨hx, hy⟩ | ⟨hx, hy⟩
      · exact ⟨forall_sumSizes (hzX hx).1 (hoY hy).1, forall_sumSizes (hzX hx).2 (hoY hy).2⟩
      · exact ⟨forall_sumSizes (hoX hx).1 (hzY hy).1, forall_sumSizes (hoX hx).2 (hzY hy).2⟩
    case andN => exact andorSizes_allOf (hoX ho.1) (hzY ho.2) zeroSizes_allOf
    case orB =>
      rcases ho with ⟨hx, hy⟩ | ⟨hx, hy⟩
      · exact ⟨List.forall_mem_append.mpr ⟨forall_sumSizes (hzX hx).1 (hoY hy).2,
          forall_sumSizes (hzX hx).2 (hoY hy).1⟩, forall_sumSizes (hzX hx).2 (hoY hy).2⟩
      · exact ⟨List.forall_mem_append.mpr ⟨forall_sumSizes (hoX hx).1 (hzY hy).2,
          forall_sumSizes (hoX hx).2 (hzY hy).1⟩, forall_sumSizes (hoX hx).2 (hzY hy).2⟩
    case orC | orD => exact absurd (by simp [Node.type]) hroot
    case orI => exact orISizes_allOf (hzX ho.1) (hzY ho.2)
  | @thresh k n scriptlist fs children hfs ok ih =>
    intro hfree f hf ho
    cases hf
    simp only [Spec.thresh, Bool.and_eq_true, decide_eq_true_eq] at ho
    have hfreeChild : ∀ x ∈ scriptlist.toList,
        ∀ {depth y}, x.SubtreeAt depth y → y.type ∉ hashTokens ++ [.orC, .orD] :=
      fun x hx => forall_subtree_of_child (by simpa [Node.children] using hx) hfree
    have hzero : ∀ x ∈ scriptlist.toList, ∀ g, x.flags = some g →
        (g.z → x.witness.AllOf 0) ∧ ¬(g.z ∧ g.o) := fun x hx _ hg =>
      (children x hx).zero_sound (hashFree (hfreeChild x hx)) hg
    have hzo := z_or_o_of_counts (mapM_flags_forall hfs fun x hx g hg => (hzero x hx g hg).2)
      ho.1 ho.2
    have hsizes := @forall_threshSizes (fun g => if g.o then 1 else 0) _ _ hfs fun x hx g hg => by
      by_cases hgo : g.o
      · simpa [hgo] using ih x hx (hfreeChild x hx) hg hgo
      · simpa [hgo] using (hzero x hx g hg).1
          ((hzo g (mem_of_mapM_flags hfs hx hg)).resolve_right hgo)
    rw [sum_map_indicator_o, ho.2] at hsizes
    rw [Node.witness_thresh, ScriptList.witnesses_eq]
    exact ⟨hsizes k, hsizes 0⟩
  | key token =>
    intro _ f hf ho
    rcases token with rfl | rfl | rfl | rfl | rfl | rfl <;> cases hf <;> cases ho <;>
      exact ⟨by simp [Node.witness, keySizes], by simp [Node.witness, keySizes]⟩
  | hash256 token | hash160 token =>
    intro hfree
    exact absurd (hfree .root) (by rcases token with rfl | rfl <;> simp [Node.type, hashTokens])
  | timelock token => rcases token with rfl | rfl <;> intro _ f hf ho <;> cases hf <;> cases ho
  | multisig token =>
    rcases token with rfl | rfl <;> intro _ f hf ho <;> cases hf
    cases ho

/-! ### The modifiers of accepted policies -/

theorem parsePolicyMap_dissatisfiable {s : List Char} {t : Node} (h : parsePolicyMap s = some t) :
    ∀ {depth x f}, t.SubtreeAt depth x → x.flags = some f → f.d → x.witness.dsat ≠ [] :=
  fun hx hf hd => ((parsePolicyMap_accepted h).followsTables.subtree hx).dsat_ne_nil hf hd

theorem parsePolicyMap_zero_witnesses {s : List Char} {t : Node} (h : parsePolicyMap s = some t)
    (hfree : ∀ {depth x}, t.SubtreeAt depth x → x.type ∉ hashTokens) :
    ∀ {depth x f}, t.SubtreeAt depth x → x.flags = some f → f.z → x.witness.AllOf 0 :=
  fun hx hf hz => (((parsePolicyMap_accepted h).followsTables.subtree hx).zero_sound
    (fun hy => hfree (hx.trans hy)) hf).1 hz

theorem parsePolicyMap_one_witnesses {s : List Char} {t : Node} (h : parsePolicyMap s = some t)
    (hfree : ∀ {depth x}, t.SubtreeAt depth x → x.type ∉ hashTokens ++ [.orC, .orD]) :
    ∀ {depth x f}, t.SubtreeAt depth x → x.flags = some f → f.o → x.witness.AllOf 1 :=
  fun hx hf ho => ((parsePolicyMap_accepted h).followsTables.subtree hx).one_sound
    (fun hy => hfree (hx.trans hy)) hf ho

/-- The tree of `sha256` of 32 zero bytes. -/
def zeroHashTree : Node := .withHash256 .sha256 (some hashFlags) (Mathlib.Vector.replicate 32 0)

/-- The tree of `or_d(pk(@0),pk(@1))`. -/
def orDKeysTree : Node :=
  .withScript2 .orD (some ⟨.B, false, true, false, true, true⟩) (.withKey .pk (keyFlags .pk) 0)
    (.withKey .pk (keyFlags .pk) 1)

/-- `sha256` is flagged `z` although its satisfaction is a one-element witness, and
`or_d(pk(@0),pk(@1))` is flagged `o` although satisfying its second branch takes two. -/
theorem parsePolicyMap_modifiers_unsound :
    parsePolicyMap ("sha256(".toList ++ List.replicate 64 '0' ++ [')']) = some zeroHashTree ∧
      zeroHashTree.flags.map (·.z) = some true ∧ zeroHashTree.witness.sat = [1] ∧
    parsePolicyMap "or_d(pk(@0),pk(@1))".toList = some orDKeysTree ∧
      orDKeysTree.flags.map (·.o) = some true ∧ orDKeysTree.witness.sat = [1, 2] := by
  refine ⟨by decide, rfl, rfl, by decide, rfl, rfl⟩

theorem orDKeysTree_dissatisfiable :
    parsePolicyMap "or_d(pk(@0),pk(@1))".toList = some orDKeysTree ∧
      orDKeysTree.witness.dsat ≠ [] :=
  have h : parsePolicyMap "or_d(pk(@0),pk(@1))".toList = some orDKeysTree := by decide
  ⟨h, parsePolicyMap_dissatisfiable h .root rfl rfl⟩

/-- The tree of `older(1000)`. -/
def olderTree : Node := .withUint32 .older (some timelockFlags) 1000

theorem olderTree_zero_witnesses :
    parsePolicyMap "older(1000)".toList = some olderTree ∧
      (∀ {depth x}, olderTree.SubtreeAt depth x → x.type ∉ hashTokens) ∧
      olderTree.witness.AllOf 0 :=
  have h : parsePolicyMap "older(1000)".toList = some olderTree := by decide
  have hfree : ∀ {depth x}, olderTree.SubtreeAt depth x → x.type ∉ hashTokens :=
    @Node.forall_subtree_of (fun y => y.type ∉ hashTokens) olderTree (by decide)
      (by simp [olderTree, Node.children])
  ⟨h, hfree, parsePolicyMap_zero_witnesses h hfree .root rfl rfl⟩

/-- The tree of `pk(@0)`. -/
def pkKeyTree : Node := .withKey .pk (keyFlags .pk) 0

theorem pkKeyTree_one_witnesses :
    parsePolicyMap "pk(@0)".toList = some pkKeyTree ∧
      (∀ {depth x}, pkKeyTree.SubtreeAt depth x → x.type ∉ hashTokens ++ [.orC, .orD]) ∧
      pkKeyTree.witness.AllOf 1 :=
  have h : parsePolicyMap "pk(@0)".toList = some pkKeyTree := by decide
  have hfree : ∀ {depth x}, pkKeyTree.SubtreeAt depth x → x.type ∉ hashTokens ++ [.orC, .orD] :=
    @Node.forall_subtree_of (fun y => y.type ∉ hashTokens ++ [.orC, .orD]) pkKeyTree (by decide)
      (by simp [pkKeyTree, Node.children])
  ⟨h, hfree, parsePolicyMap_one_witnesses h hfree .root rfl rfl⟩

end WalletPolicy
