import WalletPolicy.Syntax

/-!
# Flag rules of `parse_script`

The miniscript type and modifiers `parse_script` assigns to each node, case by case as the
code computes them: the fixed flags of the leaves, the rule of each combinator (`none` where
the code returns `"invalid type"`) and the rules of the wrapper loop.
-/
namespace WalletPolicy

/-! ### Leaves -/

def flagsZero : Flags := ⟨.B, true, false, false, true, true⟩

def flagsOne : Flags := ⟨.B, true, false, false, false, true⟩

/-- Flags of `pk`, `pkh`, `pk_k` and `pk_h`; `wpkh` is not miniscript. -/
def keyFlags : PolicyNodeType → Option Flags
  | .pk => some ⟨.B, false, true, true, true, true⟩
  | .pkh => some ⟨.B, false, false, true, true, true⟩
  | .pkK => some ⟨.K, false, true, true, true, true⟩
  | .pkH => some ⟨.K, false, false, true, true, true⟩
  | _ => none

/-- Flags of the four hash leaves. -/
def hashFlags : Flags := ⟨.B, true, true, false, true, true⟩

/-- Flags of `older` and `after`. -/
def timelockFlags : Flags := ⟨.B, true, false, false, false, false⟩

/-- Flags of `multi`. -/
def multiFlags : Flags := ⟨.B, false, false, true, true, true⟩

/-! ### Combinators -/

/-- `andor(X, Y, Z)`: `X` is `Bdu`; `Y` and `Z` are both `B`, `K` or `V`. -/
def andorFlags (X Y Z : Flags) : Option Flags :=
  if X.type ≠ .B || !X.d || !X.u then none
  else if Y.type ≠ Z.type then none
  else if Y.type = .W then none
  else some ⟨Y.type, X.z && Y.z && Z.z, (X.z && Y.o && Z.o) || (X.o && Y.z && Z.z), false,
    Z.d, Y.u && Z.u⟩

/-- `and_v(X, Y)`: `X` is `V`; `Y` is `B`, `K` or `V`. -/
def andVFlags (X Y : Flags) : Option Flags :=
  if X.type ≠ .V then none
  else if Y.type = .W then none
  else some ⟨Y.type, X.z && Y.z, (X.z && Y.o) || (X.o && Y.z), X.n || (X.z && Y.n), false, Y.u⟩

/-- `and_b(X, Y)`: `X` is `B`; `Y` is `W`. -/
def andBFlags (X Y : Flags) : Option Flags :=
  if X.type ≠ .B || Y.type ≠ .W then none
  else some ⟨.B, X.z && Y.z, (X.z && Y.o) || (X.o && Y.z), X.n || (X.z && Y.n), X.d && Y.d, Y.u⟩

/-- `and_n(X, Y)`: `X` is `Bdu`; `Y` is `B`. -/
def andNFlags (X Y : Flags) : Option Flags :=
  if X.type ≠ .B || !X.d || !X.u then none
  else if Y.type ≠ .B then none
  else some ⟨.B, X.z && Y.z, X.o && Y.z, false, true, Y.u⟩

/-- `or_b(X, Z)`: `X` is `Bd`; `Z` is `Wd`. -/
def orBFlags (X Z : Flags) : Option Flags :=
  if X.type ≠ .B || !X.d then none
  else if Z.type ≠ .W || !Z.d then none
  else some ⟨.B, X.z && Z.z, (X.z && Z.o) || (X.o && Z.z), false, true, true⟩

/-- `or_c(X, Z)`: `X` is `Bdu`; `Z` is `V`. -/
def orCFlags (X Z : Flags) : Option Flags :=
  if X.type ≠ .B || !X.d || !X.u then none
  else if Z.type ≠ .V then none
  else some ⟨.V, X.z && Z.z, X.o && Z.o, false, false, false⟩

/-- `or_d(X, Z)`: `X` is `Bdu`; `Z` is `B`. -/
def orDFlags (X Z : Flags) : Option Flags :=
  if X.type ≠ .B || !X.d || !X.u then none
  else if Z.type ≠ .B then none
  else some ⟨.B, X.z && Z.z, X.o && Z.o, false, Z.d, Z.u⟩

/-- `or_i(X, Z)`: both are `B`, `K` or `V`, of the same type. -/
def orIFlags (X Z : Flags) : Option Flags :=
  if X.type = .W then none
  else if X.type ≠ Z.type then none
  else some ⟨X.type, false, X.z && Z.z, false, X.d || Z.d, X.u && Z.u⟩

/-- The rule of a two-child combinator. -/
def script2Flags : PolicyNodeType → Flags → Flags → Option Flags
  | .andV => andVFlags
  | .andB => andBFlags
  | .andN => andNFlags
  | .orB => orBFlags
  | .orC => orCFlags
  | .orD => orDFlags
  | .orI => orIFlags
  | _ => fun _ _ => none

/-- `thresh(k, X1, ..., Xn)` from `n` and the counts of `z` and `o` children. -/
def threshFlags (n countZ countO : Nat) : Flags :=
  ⟨.B, countZ = n, countZ = n - 1 && countO = 1, false, false, false⟩

/-! ### Wrappers -/

/-- One step of the wrapper loop: the flags of wrapper `w` over a miniscript child `X`. -/
def wrapperFlags : PolicyNodeType → Flags → Option Flags
  | .a, X => if X.type ≠ .B then none else some ⟨.W, false, false, false, X.d, X.u⟩
  | .s, X => if X.type ≠ .B || !X.o then none else some ⟨.W, false, false, false, X.d, X.u⟩
  | .c, X => if X.type ≠ .K then none else some ⟨.B, false, X.o, X.n, X.d, true⟩
  | .t, X => if X.type ≠ .V then none else some ⟨.B, X.z, X.o, X.n, false, true⟩
  | .d, X => if X.type ≠ .V || !X.z then none else some ⟨.B, false, true, true, true, false⟩
  | .v, X => if X.type ≠ .B then none else some ⟨.V, X.z, X.o, X.n, false, false⟩
  | .j, X => if X.type ≠ .B || !X.n then none else some ⟨.B, false, X.o, true, true, X.u⟩
  | .n, X => if X.type ≠ .B then none else some ⟨.B, X.z, X.o, X.n, X.d, true⟩
  | .l, X => if X.type ≠ .B then none else some ⟨.B, false, X.z, false, true, X.u⟩
  | .u, X => if X.type ≠ .B then none else some ⟨.B, false, X.z, false, true, X.u⟩
  | _, _ => none

end WalletPolicy
