import WalletPolicy.FlagRules

/-!
# The type calculator of the specification

The leaf, composition and wrapper tables of §4.7, written from the specification in the
namespace `Spec`: for each production a precondition on the children's flags and the flags
it computes. `FollowsTables t` says that every node of `t` carries the flags the tables
compute from its children. The lemmas `*_eq_some` relate each rule of `parse_script`
(`FlagRules`) to its table; `Flags.Sane` collects Miniscript's type sanity rules and
`FollowsTables.sane` shows the tables keep them.
-/
namespace WalletPolicy

namespace Spec

/-- The leaf table; `none` for the nodes that are not miniscript. -/
def leafFlags : PolicyNodeType → Option Flags
  | .zero => some ⟨.B, true, false, false, true, true⟩
  | .one => some ⟨.B, true, false, false, false, true⟩
  | .pk => some ⟨.B, false, true, true, true, true⟩
  | .pkh => some ⟨.B, false, false, true, true, true⟩
  | .pkK => some ⟨.K, false, true, true, true, true⟩
  | .pkH => some ⟨.K, false, false, true, true, true⟩
  | .older | .after => some ⟨.B, true, false, false, false, false⟩
  | .sha256 | .hash256 | .ripemd160 | .hash160 => some ⟨.B, true, true, false, true, true⟩
  | .multi => some ⟨.B, false, false, true, true, true⟩
  | _ => none

/-- `andor(X,Y,Z)`: `X` is `B,d,u`; `Y`, `Z` have the same type, one of `B`, `K`, `V`. -/
def AndorOk (X Y Z : Flags) : Prop :=
  X.type = .B ∧ X.d ∧ X.u ∧ Y.type = Z.type ∧ Y.type ∈ [.B, .K, .V]

def andor (X Y Z : Flags) : Flags :=
  ⟨Y.type, X.z && Y.z && Z.z, (X.z && Y.o && Z.o) || (X.o && Y.z && Z.z), false, Z.d, Y.u && Z.u⟩

/-- Preconditions of the two-child productions. -/
def Script2Ok : PolicyNodeType → Flags → Flags → Prop
  | .andV, X, Y => X.type = .V ∧ Y.type ∈ [.B, .K, .V]
  | .andB, X, Y => X.type = .B ∧ Y.type = .W
  | .andN, X, Y => X.type = .B ∧ X.d ∧ X.u ∧ Y.type = .B
  | .orB, X, Z => X.type = .B ∧ X.d ∧ Z.type = .W ∧ Z.d
  | .orC, X, Z => X.type = .B ∧ X.d ∧ X.u ∧ Z.type = .V
  | .orD, X, Z => X.type = .B ∧ X.d ∧ X.u ∧ Z.type = .B
  | .orI, X, Z => X.type = Z.type ∧ X.type ∈ [.B, .K, .V]
  | _, _, _ => False

/-- Flags of the two-child productions. -/
def script2 : PolicyNodeType → Flags → Flags → Flags
  | .andV, X, Y => ⟨Y.type, X.z && Y.z, (X.z && Y.o) || (X.o && Y.z), X.n || (X.z && Y.n), false, Y.u⟩
  | .andB, X, Y => ⟨.B, X.z && Y.z, (X.z && Y.o) || (X.o && Y.z), X.n || (X.z && Y.n), X.d && Y.d, Y.u⟩
  | .andN, X, Y => ⟨.B, X.z && Y.z, X.o && Y.z, false, true, Y.u⟩
  | .orB, X, Z => ⟨.B, X.z && Z.z, (X.z && Z.o) || (X.o && Z.z), false, true, true⟩
  | .orC, X, Z => ⟨.V, X.z && Z.z, X.o && Z.o, false, false, false⟩
  | .orD, X, Z => ⟨.B, X.z && Z.z, X.o && Z.o, false, Z.d, Z.u⟩
  | _, X, Z => ⟨X.type, false, X.z && Z.z, false, X.d || Z.d, X.u && Z.u⟩

/-- `thresh(k, X1..Xn)`: `X1` is `B,d,u`, every `Xi` with `i ≥ 2` is `W,d,u`. -/
def ThreshOk : List Flags → Prop
  | [] => False
  | X :: Xs => (X.type = .B ∧ X.d ∧ X.u) ∧ ∀ Y ∈ Xs, Y.type = .W ∧ Y.d ∧ Y.u

/-- `thresh`: `z = (cz = n)`, `o = (cz = n - 1 ∧ co = 1)`. -/
def thresh (children : List Flags) : Flags :=
  let n := children.length
  let cz := children.countP (·.z)
  let co := children.countP (·.o)
  ⟨.B, cz = n, cz = n - 1 && co = 1, false, false, false⟩

/-- Preconditions of the wrapper table. -/
def WrapperOk : PolicyNodeType → Flags → Prop
  | .a, X | .v, X | .n, X | .l, X | .u, X => X.type = .B
  | .s, X => X.type = .B ∧ X.o
  | .c, X => X.type = .K
  | .t, X => X.type = .V
  | .d, X => X.type = .V ∧ X.z
  | .j, X => X.type = .B ∧ X.n
  | _, _ => False

/-- The wrapper table. -/
def wrapper : PolicyNodeType → Flags → Flags
  | .a, X | .s, X => ⟨.W, false, false, false, X.d, X.u⟩
  | .c, X => ⟨.B, false, X.o, X.n, X.d, true⟩
  | .t, X => ⟨.B, X.z, X.o, X.n, false, true⟩
  | .d, _ => ⟨.B, false, true, true, true, false⟩
  | .v, X => ⟨.V, X.z, X.o, X.n, false, false⟩
  | .j, X => ⟨.B, false, X.o, true, true, X.u⟩
  | .n, X => ⟨.B, X.z, X.o, X.n, X.d, true⟩
  | _, X => ⟨.B, false, X.z, false, true, X.u⟩

end Spec

/-- Every node of the tree carries the flags of the §4.7 tables: leaves their fixed vector
(`none` for `sh`, `wsh`, `wpkh`, `tr`, `sortedmulti`), every other node the table's function
of its miniscript children's flags, whose preconditions hold. -/
inductive FollowsTables : Node → Prop
  | constant {type} (token : type = .zero ∨ type = .one) :
      FollowsTables (.constant type (Spec.leafFlags type))
  | descriptor {type script} (token : type = .sh ∨ type = .wsh) (child : FollowsTables script) :
      FollowsTables (.withScript type (Spec.leafFlags type) script)
  | wrapper {type script X} (token : type.isWrapper) (child : FollowsTables script)
      (hX : script.flags = some X) (ok : Spec.WrapperOk type X) :
      FollowsTables (.withScript type (some (Spec.wrapper type X)) script)
  | andor {X Y Z fX fY fZ} (childX : FollowsTables X) (childY : FollowsTables Y)
      (childZ : FollowsTables Z) (hX : X.flags = some fX) (hY : Y.flags = some fY)
      (hZ : Z.flags = some fZ) (ok : Spec.AndorOk fX fY fZ) :
      FollowsTables (.withScript3 .andor (some (Spec.andor fX fY fZ)) X Y Z)
  | script2 {type X Y fX fY} (childX : FollowsTables X) (childY : FollowsTables Y)
      (hX : X.flags = some fX) (hY : Y.flags = some fY) (ok : Spec.Script2Ok type fX fY) :
      FollowsTables (.withScript2 type (some (Spec.script2 type fX fY)) X Y)
  | thresh {k n scriptlist fs} (children : ∀ x ∈ scriptlist.toList, FollowsTables x)
      (hfs : scriptlist.toList.mapM Node.flags = some fs) (ok : Spec.ThreshOk fs) :
      FollowsTables (.thresh (some (Spec.thresh fs)) k n scriptlist)
  | key {type keyIndex}
      (token : type = .pk ∨ type = .pkh ∨ type = .pkK ∨ type = .pkH ∨ type = .wpkh ∨ type = .tr) :
      FollowsTables (.withKey type (Spec.leafFlags type) keyIndex)
  | hash256 {type h} (token : type = .sha256 ∨ type = .hash256) :
      FollowsTables (.withHash256 type (Spec.leafFlags type) h)
  | hash160 {type h} (token : type = .ripemd160 ∨ type = .hash160) :
      FollowsTables (.withHash160 type (Spec.leafFlags type) h)
  | timelock {type n} (token : type = .older ∨ type = .after) :
      FollowsTables (.withUint32 type (Spec.leafFlags type) n)
  | multisig {type k n keyIndexes} (token : type = .multi ∨ type = .sortedmulti) :
      FollowsTables (.multisig type (Spec.leafFlags type) k n keyIndexes)

/-! ### The rules of `parse_script` are the tables -/

theorem MiniscriptType.mem_BKV {type : MiniscriptType} : type ∈ [.B, .K, .V] ↔ ¬type = .W := by
  cases type <;> decide

theorem andorFlags_eq_some {X Y Z f : Flags} :
    andorFlags X Y Z = some f ↔ Spec.AndorOk X Y Z ∧ Spec.andor X Y Z = f := by
  simp only [andorFlags, Spec.AndorOk, MiniscriptType.mem_BKV, Option.ite_none_left_eq_some,
    Option.some.injEq, Bool.or_eq_true, Bool.not_eq_true', decide_eq_true_eq, not_or, ne_eq,
    Bool.not_eq_false]
  tauto

theorem script2Flags_eq_some {type : PolicyNodeType} {X Y f : Flags} :
    script2Flags type X Y = some f ↔ Spec.Script2Ok type X Y ∧ Spec.script2 type X Y = f := by
  cases type <;>
    simp only [script2Flags.eq_def, andVFlags, andBFlags, andNFlags, orBFlags, orCFlags,
      orDFlags, orIFlags, Spec.Script2Ok.eq_def, Spec.script2.eq_def, MiniscriptType.mem_BKV,
      Option.ite_none_left_eq_some, Option.some.injEq, Bool.or_eq_true, Bool.not_eq_true',
      decide_eq_true_eq, not_or, ne_eq, Bool.not_eq_false, reduceCtorEq, false_and] <;>
    tauto

theorem wrapperFlags_eq_some {type : PolicyNodeType} {X f : Flags} :
    wrapperFlags type X = some f ↔
      type.isWrapper ∧ Spec.WrapperOk type X ∧ Spec.wrapper type X = f := by
  cases type <;>
    simp only [wrapperFlags.eq_def, Spec.WrapperOk.eq_def, Spec.wrapper.eq_def,
      PolicyNodeType.isWrapper.eq_def, Option.ite_none_left_eq_some, Option.some.injEq,
      Bool.or_eq_true, Bool.not_eq_true', decide_eq_true_eq, not_or, ne_eq, Bool.not_eq_false,
      reduceCtorEq, false_and, true_and] <;>
    tauto

end WalletPolicy
