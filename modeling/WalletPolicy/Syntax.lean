import Mathlib

/-!
# Policy nodes

The data model of `wallet.c`: the tokens of the wallet policy language (`PolicyNodeType`),
the `KNOWN_TOKENS` table, the miniscript flags every node carries, and the policy tree the
parser builds. The node constructors follow the C structs of the arena
(`policy_node_with_script_t`, `policy_node_multisig_t`, ...): each one holds the node's
`type`, its flags and its payload. A thresh node's children form a linked list, as in the C
`policy_node_scriptlist_t`.
-/
namespace WalletPolicy

/-- `PolicyNodeType`: the tokens of the language, the ten wrappers and `TOKEN_INVALID`. -/
inductive PolicyNodeType where
  | sh | wsh | pkh | wpkh | multi | sortedmulti | tr
  | zero | one | pk | pkK | pkH | older | after
  | sha256 | hash256 | ripemd160 | hash160
  | andor | andV | andB | andN | orB | orC | orD | orI | thresh
  | a | s | c | t | d | v | j | n | l | u
  | invalid
  deriving DecidableEq, Repr

/-- `KNOWN_TOKENS`, in the order of the source table. -/
def knownTokens : List (PolicyNodeType × String) :=
  [(.sh, "sh"), (.wsh, "wsh"), (.pkh, "pkh"), (.wpkh, "wpkh"), (.multi, "multi"),
   (.sortedmulti, "sortedmulti"), (.tr, "tr"),
   (.zero, "0"), (.one, "1"), (.pk, "pk"), (.pkK, "pk_k"), (.pkH, "pk_h"),
   (.older, "older"), (.after, "after"), (.sha256, "sha256"), (.hash256, "hash256"),
   (.ripemd160, "ripemd160"), (.hash160, "hash160"), (.andor, "andor"), (.andV, "and_v"),
   (.andB, "and_b"), (.andN, "and_n"), (.orB, "or_b"), (.orC, "or_c"), (.orD, "or_d"),
   (.orI, "or_i"), (.thresh, "thresh")]

/-- `MINISCRIPT_TYPE_B`, `_V`, `_K`, `_W`. -/
inductive MiniscriptType where
  | B | V | K | W
  deriving DecidableEq, Repr

/-- Type and modifiers of a miniscript node. A node whose `is_miniscript` bit is clear
carries `none` instead: the C code never writes (nor reads) its other flag bits. -/
structure Flags where
  type : MiniscriptType
  z : Bool
  o : Bool
  n : Bool
  d : Bool
  u : Bool
  deriving DecidableEq, Repr

mutual
/-- A policy node as the arena holds it: one constructor per node struct of `wallet.h`. -/
inductive Node where
  /-- `policy_node_constant_t`: `0` and `1`. -/
  | constant (type : PolicyNodeType) (flags : Option Flags)
  /-- `policy_node_with_script_t`: `sh`, `wsh` and the wrappers. -/
  | withScript (type : PolicyNodeType) (flags : Option Flags) (script : Node)
  /-- `policy_node_with_script2_t`: `and_v`, `and_b`, `and_n`, `or_b`, `or_c`, `or_d`, `or_i`. -/
  | withScript2 (type : PolicyNodeType) (flags : Option Flags) (x y : Node)
  /-- `policy_node_with_script3_t`: `andor`. -/
  | withScript3 (type : PolicyNodeType) (flags : Option Flags) (x y z : Node)
  /-- `policy_node_thresh_t`. -/
  | thresh (flags : Option Flags) (k n : Nat) (scriptlist : ScriptList)
  /-- `policy_node_with_key_t`: `pk`, `pkh`, `pk_k`, `pk_h`, `wpkh`, `tr`. -/
  | withKey (type : PolicyNodeType) (flags : Option Flags) (keyIndex : Nat)
  /-- `policy_node_with_hash_256_t`: `sha256`, `hash256`. -/
  | withHash256 (type : PolicyNodeType) (flags : Option Flags) (h : Mathlib.Vector UInt8 32)
  /-- `policy_node_with_hash_160_t`: `ripemd160`, `hash160`. -/
  | withHash160 (type : PolicyNodeType) (flags : Option Flags) (h : Mathlib.Vector UInt8 20)
  /-- `policy_node_with_uint32_t`: `older`, `after`. -/
  | withUint32 (type : PolicyNodeType) (flags : Option Flags) (n : Nat)
  /-- `policy_node_multisig_t`: `multi`, `sortedmulti`. -/
  | multisig (type : PolicyNodeType) (flags : Option Flags) (k n : Nat) (keyIndexes : List Nat)
  deriving DecidableEq

/-- `policy_node_scriptlist_t`: the children of a thresh node. -/
inductive ScriptList where
  | nil
  | cons (script : Node) (next : ScriptList)
  deriving DecidableEq
end

namespace ScriptList

def toList : ScriptList → List Node
  | nil => []
  | cons script next => script :: next.toList

@[simp] theorem toList_nil : nil.toList = [] := rfl

@[simp] theorem toList_cons (script : Node) (next : ScriptList) :
    (cons script next).toList = script :: next.toList := rfl

end ScriptList

namespace Node

/-- `base.type` of a node. -/
def type : Node → PolicyNodeType
  | constant type _ | withScript type _ _ | withScript2 type _ _ _ | withScript3 type _ _ _ _
  | withKey type _ _ | withHash256 type _ _ | withHash160 type _ _ | withUint32 type _ _
  | multisig type _ _ _ _ => type
  | thresh .. => .thresh

/-- `base.flags` of a node, `none` when `is_miniscript` is clear. -/
def flags : Node → Option Flags
  | constant _ f | withScript _ f _ | withScript2 _ f _ _ | withScript3 _ f _ _ _
  | withKey _ f _ | withHash256 _ f _ | withHash160 _ f _ | withUint32 _ f _
  | multisig _ f _ _ _ | thresh f .. => f

/-- `base.flags.is_miniscript`. -/
def isMiniscript (node : Node) : Bool := node.flags.isSome

/-- The direct children of a node, in source order. -/
def children : Node → List Node
  | withScript _ _ x => [x]
  | withScript2 _ _ x y => [x, y]
  | withScript3 _ _ x y z => [x, y, z]
  | thresh _ _ _ scripts => scripts.toList
  | _ => []

/-- `t.SubtreeAt depth x`: the node `x` occurs in the tree `t` at `depth`, the root being at
depth 0. -/
inductive SubtreeAt (t : Node) : Nat → Node → Prop
  | root : SubtreeAt t 0 t
  | child {depth parent x} : SubtreeAt t depth parent → x ∈ parent.children →
      SubtreeAt t (depth + 1) x

theorem SubtreeAt.zero_inv {t x : Node} (h : t.SubtreeAt 0 x) : x = t := by
  cases h
  rfl

/-- A subtree of a child is a subtree of the parent, one level deeper. -/
theorem SubtreeAt.of_child {t c x : Node} {depth : Nat} (hc : c ∈ t.children)
    (h : c.SubtreeAt depth x) : t.SubtreeAt (depth + 1) x := by
  induction h with
  | root => exact .child .root hc
  | child _ hmem ih => exact .child ih hmem

/-- A node below the root lies in the subtree of one of the root's children. -/
theorem SubtreeAt.succ_inv {t x : Node} {depth : Nat} (h : t.SubtreeAt (depth + 1) x) :
    ∃ c ∈ t.children, c.SubtreeAt depth x := by
  generalize hd : depth + 1 = d at h
  induction h generalizing depth with
  | root => cases hd
  | @child d' parent x hparent hmem ih =>
    cases d' with
    | zero =>
      cases hparent.zero_inv
      obtain rfl : depth = 0 := by omega
      exact ⟨x, hmem, .root⟩
    | succ d' =>
      obtain ⟨c, hc, hsub⟩ := ih rfl
      obtain rfl : depth = d' + 1 := by omega
      exact ⟨c, hc, .child hsub hmem⟩

theorem SubtreeAt.trans {t x y : Node} {d e : Nat} (hx : t.SubtreeAt d x)
    (hy : x.SubtreeAt e y) : t.SubtreeAt (d + e) y := by
  induction hy with
  | root => exact hx
  | child _ hmem ih => exact .child ih hmem

/-- A property of every node of a tree, from the root and the subtrees of its children. -/
theorem forall_subtree_of {P : Node → Prop} {t : Node} (hroot : P t)
    (hchildren : ∀ c ∈ t.children, ∀ {depth x}, c.SubtreeAt depth x → P x) :
    ∀ {depth x}, t.SubtreeAt depth x → P x
  | 0, _, hx => hx.zero_inv ▸ hroot
  | _ + 1, _, hx =>
    let ⟨c, hc, hcx⟩ := hx.succ_inv
    hchildren c hc hcx

end Node

/-- The wrapper tokens, `TOKEN_A` to `TOKEN_U`. -/
def PolicyNodeType.isWrapper : PolicyNodeType → Bool
  | .a | .s | .c | .t | .d | .v | .j | .n | .l | .u => true
  | _ => false

end WalletPolicy
