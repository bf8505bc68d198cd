import WalletPolicy.Parser

/-!
# The canonical text of a policy

`wallet.c` has no serializer; the round trip of the specification compares the parser with
one. `Node.print` writes a tree in the policy grammar: token names from `KNOWN_TOKENS`, each
maximal wrapper chain as its letters and one `:`, children separated by `,`, numbers in
decimal without leading zeros (`Nat.toDigits`), hashes in lowercase hex.
-/
namespace WalletPolicy

/-- The name of a token in `KNOWN_TOKENS`. -/
def tokenName (type : PolicyNodeType) : List Char :=
  ((knownTokens.find? (·.1 = type)).map (·.2.toList)).getD []

/-- The letter of a wrapper token, the inverse of `wrapperToken`. -/
def wrapperLetter : PolicyNodeType → Char
  | .a => 'a' | .s => 's' | .c => 'c' | .t => 't' | .d => 'd'
  | .v => 'v' | .j => 'j' | .n => 'n' | .l => 'l' | .u => 'u'
  | _ => ':'

def decimal (n : Nat) : List Char := Nat.toDigits 10 n

def hexByte (b : UInt8) : List Char := [Nat.digitChar (b.toNat / 16), Nat.digitChar (b.toNat % 16)]

def hex {n : Nat} (h : Mathlib.Vector UInt8 n) : List Char := h.toList.flatMap hexByte

/-- A key placeholder `@i`. -/
def keyText (keyIndex : Nat) : List Char := '@' :: decimal keyIndex

/-- The `:` that ends a wrapper chain, written before the body of the chain. -/
def chainEnd (inChain : Bool) : List Char := if inChain then [':'] else []

mutual
/-- The text of a node; `inChain` when the letters of the wrappers around it are already
written, so that a body starts with the `:` ending the chain. -/
def Node.print (inChain : Bool) : Node → List Char
  | .withScript type _ script =>
    if type.isWrapper then wrapperLetter type :: script.print true
    else chainEnd inChain ++ tokenName type ++ '(' :: script.print false ++ [')']
  | .constant type _ => chainEnd inChain ++ tokenName type
  | .withScript2 type _ x y =>
    chainEnd inChain ++ tokenName type ++ '(' :: x.print false ++ ',' :: y.print false ++ [')']
  | .withScript3 type _ x y z =>
    chainEnd inChain ++ tokenName type ++
      '(' :: x.print false ++ ',' :: y.print false ++ ',' :: z.print false ++ [')']
  | .thresh _ k _ scripts =>
    chainEnd inChain ++ tokenName .thresh ++ '(' :: decimal k ++ scripts.print ++ [')']
  | .withKey type _ keyIndex => chainEnd inChain ++ tokenName type ++ '(' :: keyText keyIndex ++ [')']
  | .withHash256 type _ h => chainEnd inChain ++ tokenName type ++ '(' :: hex h ++ [')']
  | .withHash160 type _ h => chainEnd inChain ++ tokenName type ++ '(' :: hex h ++ [')']
  | .withUint32 type _ n => chainEnd inChain ++ tokenName type ++ '(' :: decimal n ++ [')']
  | .multisig type _ k _ keyIndexes =>
    chainEnd inChain ++ tokenName type ++
      '(' :: decimal k ++ keyIndexes.flatMap (',' :: keyText ·) ++ [')']

/-- The children of a thresh node, each after its `,`. -/
def ScriptList.print : ScriptList → List Char
  | .nil => []
  | .cons script next => ',' :: script.print false ++ next.print
end

/-- The parser accepts text that is not the canonical text of its tree: a `:` after an empty
wrapper run is skipped, and a decimal past `2 ^ 32` is read modulo `2 ^ 32`. -/
theorem parsePolicyMap_non_canonical :
    parsePolicyMap ":pk(@0)".toList = some (.withKey .pk (keyFlags .pk) 0) ∧
      (Node.withKey .pk (keyFlags .pk) 0).print false ≠ ":pk(@0)".toList ∧
    parsePolicyMap "older(5000000000)".toList =
      some (.withUint32 .older (some timelockFlags) 705032704) ∧
      (Node.withUint32 .older (some timelockFlags) 705032704).print false ≠
        "older(5000000000)".toList := by
  decide

end WalletPolicy
