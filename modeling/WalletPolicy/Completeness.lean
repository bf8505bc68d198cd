import WalletPolicy.LexerRoundtrip
import WalletPolicy.Accepted

/-!
# `parse_script` reads back the canonical text

`Accepted.parseScript_print`: a tree that `parse_script` may return at a depth and context,
printed with `Node.print` and followed by what may follow a script there, is read back as
itself, given fuel beyond the length of the text. The induction is on `Accepted`; a wrapper
chain is carried as the list of wrappers already written, which the lookahead reads at once
and `applyWrappers` puts back around the body.
-/
namespace WalletPolicy

/-- What may follow a script: nothing at the top, else the `,` or `)` of its parent. -/
def Delimited (depth : Nat) (rest : List Char) : Prop :=
  (depth = 0 → rest = []) ∧ ∀ c ∈ rest.head?, c = ',' ∨ c = ')'

theorem Delimited.not_tokenChar {depth : Nat} {rest : List Char} (h : Delimited depth rest) :
    ∀ c ∈ rest.head?, (isAlphanumeric c || c = '_') = false := by
  intro c hc
  rcases h.2 c hc with rfl | rfl <;> decide

theorem Delimited.of_head {depth : Nat} {c : Char} (s : List Char) (hc : c = ',' ∨ c = ')') :
    Delimited (depth + 1) (c :: s) :=
  ⟨fun h => absurd h (Nat.succ_ne_zero _), fun _ h => by cases h; exact hc⟩

theorem guard_eq_some_of {p : Prop} [Decidable p] (h : p) : (guard p : Option Unit) = some () :=
  (Option.guard_eq_some' ()).mpr h

theorem Delimited.guard_top {depth : Nat} {rest : List Char} (h : Delimited depth rest) :
    (guard ¬(depth = 0 ∧ rest ≠ []) : Option Unit) = some () :=
  guard_eq_some_of fun top => top.2 (h.1 top.1)

theorem not_tokenChar_of_head (c : Char) (s : List Char) (hc : (isAlphanumeric c || c = '_') = false) :
    ∀ c' ∈ (c :: s).head?, (isAlphanumeric c' || c' = '_') = false := by
  rintro c' ⟨⟩
  exact hc

theorem not_digit_of_head {c : Char} (s : List Char) (hc : c = ',' ∨ c = ')') :
    ∀ c' ∈ (c :: s).head?, isDigit c' = false := by
  rintro c' ⟨⟩
  rcases hc with rfl | rfl <;> decide

/-! ### One call of `parse_script` -/

theorem parseWrappers_prefix {ws : List PolicyNodeType} {type : PolicyNodeType}
    (hws : ∀ w ∈ ws, w.isWrapper) (htype : type ∈ knownTokens.map Prod.fst) (s : List Char) :
    parseWrappers (ws.map wrapperLetter ++ (chainEnd (!ws.isEmpty) ++ (tokenName type ++ s))) =
      (ws, tokenName type ++ s) := by
  rcases ws with _ | ⟨w, ws⟩
  · exact parseWrappers_tokenName htype s
  · simpa [chainEnd] using parseWrappers_chain hws (tokenName type ++ s)

/-- A call of `parse_script` on a token with parentheses, once its body is read up to the
closing parenthesis. -/
theorem parseScript_paren {fuel depth contextFlags : Nat} {ws : List PolicyNodeType}
    {type : PolicyNodeType} {body rest : List Char} {t t' : Node}
    (hws : ∀ w ∈ ws, w.isWrapper) (htype : type ∈ knownTokens.map Prod.fst)
    (hparen : type ≠ .zero ∧ type ≠ .one)
    (hbody : parseBody (parseScript fuel (depth + 1)) fuel depth contextFlags type body =
      some (t, ')' :: rest))
    (hrest : Delimited depth rest) (hwrap : applyWrappers ws t = some t') :
    parseScript (fuel + 1) depth contextFlags
      (ws.map wrapperLetter ++ (chainEnd (!ws.isEmpty) ++ (tokenName type ++ '(' :: body))) =
        some (t', rest) := by
  have hopen := parseToken_tokenName htype (not_tokenChar_of_head '(' body (by decide))
  have hasParentheses : (decide (type ≠ .zero) && decide (type ≠ .one)) = true := by
    simp [hparen.1, hparen.2]
  simp only [parseScript, parseWrappers_prefix hws htype, hopen, consumeParenthesis,
    hasParentheses, if_true, consumeCharacter, Option.bind_eq_bind, Option.some_bind, hbody,
    hrest.guard_top, hwrap]

/-- A call of `parse_script` on `0` or `1`. -/
theorem parseScript_constant {fuel depth contextFlags : Nat} {ws : List PolicyNodeType}
    {type : PolicyNodeType} {flags : Option Flags} {rest : List Char} {t' : Node}
    (hws : ∀ w ∈ ws, w.isWrapper)
    (htype : type = .zero ∧ flags = some flagsZero ∨ type = .one ∧ flags = some flagsOne)
    (hrest : Delimited depth rest) (hwrap : applyWrappers ws (.constant type flags) = some t') :
    parseScript (fuel + 1) depth contextFlags
      (ws.map wrapperLetter ++ (chainEnd (!ws.isEmpty) ++ (tokenName type ++ rest))) =
        some (t', rest) := by
  have hmem : type ∈ knownTokens.map Prod.fst := by
    rcases htype with ⟨rfl, -⟩ | ⟨rfl, -⟩ <;> decide
  have noParentheses : (decide (type ≠ .zero) && decide (type ≠ .one)) = false := by
    rcases htype with ⟨rfl, -⟩ | ⟨rfl, -⟩ <;> decide
  rcases htype with ⟨rfl, rfl⟩ | ⟨rfl, rfl⟩ <;>
  · simp only [parseScript, parseWrappers_prefix hws hmem,
      parseToken_tokenName hmem hrest.not_tokenChar, consumeParenthesis, noParentheses,
      Bool.false_eq_true, if_false, parseBody.eq_def, Option.bind_eq_bind, Option.some_bind,
      hrest.guard_top, hwrap]

/-! ### Reading back every accepted tree -/

/-- Every number of the node fits the `size_t` the parser reads it into. -/
def Node.Fits : Node → Prop
  | .withKey _ _ keyIndex => keyIndex < 2 ^ sizeTBits
  | .thresh _ k _ _ => k < 2 ^ sizeTBits
  | .multisig _ _ _ _ keyIndexes => ∀ i ∈ keyIndexes, i < 2 ^ sizeTBits
  | _ => True

/-- `parse_script` at `depth` in `contextFlags` reads `x` back from its text. -/
def ReadsBack (depth contextFlags : Nat) (x : Node) : Prop :=
  ∀ (fuel : Nat) {rest}, Delimited depth rest → (x.print false ++ rest).length < fuel →
    parseScript fuel depth contextFlags (x.print false ++ rest) = some (x, rest)

/-- The statement proved by induction on `Accepted`: behind the letters of the wrappers `ws`
already written, the text of `t` is read back as `t` wrapped in `ws`. -/
def PrintedReadsBack (depth contextFlags : Nat) (t : Node) : Prop :=
  (∀ {e x}, t.SubtreeAt e x → x.Fits) →
    ∀ (ws : List PolicyNodeType) {t' : Node} {fuel : Nat} {rest : List Char},
      (∀ w ∈ ws, w.isWrapper) → applyWrappers ws t = some t' → Delimited depth rest →
      (ws.map wrapperLetter ++ (t.print (!ws.isEmpty) ++ rest)).length < fuel →
      parseScript fuel depth contextFlags (ws.map wrapperLetter ++ (t.print (!ws.isEmpty) ++ rest)) =
        some (t', rest)

theorem PrintedReadsBack.readsBack {depth contextFlags : Nat} {x : Node}
    (h : PrintedReadsBack depth contextFlags x) (hfits : ∀ {e y}, x.SubtreeAt e y → y.Fits) :
    ReadsBack depth contextFlags x :=
  fun _ _ hrest hlen => h hfits [] (by simp) rfl hrest hlen

theorem parseKeyNode_keyText (type : PolicyNodeType) {keyIndex : Nat} (rest : List Char)
    (hfit : keyIndex < 2 ^ sizeTBits) (index : keyIndex ≠ sizeMax) :
    parseKeyNode type (keyText keyIndex ++ ')' :: rest) =
      some (.withKey type (keyFlags type) keyIndex, ')' :: rest) := by
  simp [parseKeyNode, parseKeyIndex_keyText hfit (not_digit_of_head _ (.inr rfl)), index, guard]

theorem isWrapper_of_wrapperFlags {w : PolicyNodeType} {X flags : Flags}
    (rule : wrapperFlags w X = some flags) : w.isWrapper := by
  cases w <;> first | rfl | simp [wrapperFlags.eq_def] at rule

/-- Adding the innermost wrapper of a chain to the list read by the lookahead. -/
theorem applyWrappers_append_singleton {w : PolicyNodeType} {inner : Node} {X flags : Flags}
    (hX : inner.flags = some X) (rule : wrapperFlags w X = some flags) :
    ∀ ws, applyWrappers (ws ++ [w]) inner = applyWrappers ws (.withScript w (some flags) inner)
  | [] => by simp [applyWrappers, hX, rule]
  | outer :: ws => by
    simp only [List.cons_append, applyWrappers, List.append_eq,
      applyWrappers_append_singleton hX rule ws]

/-! ### The two loops -/

theorem ScriptList.length_le_print : ∀ l : ScriptList, l.toList.length ≤ l.print.length
  | .nil => by simp
  | .cons x next => by
    have := next.length_le_print
    simp [ScriptList.print]
    omega

theorem keyList_length_le (keyIndexes : List Nat) :
    keyIndexes.length ≤ (keyIndexes.flatMap (',' :: keyText ·)).length := by
  induction keyIndexes with
  | nil => simp
  | cons i keyIndexes ih =>
    simp only [List.flatMap_cons, List.length_append, List.length_cons]
    omega

theorem keyList_head_not_digit (keyIndexes : List Nat) (rest : List Char) :
    ∀ c ∈ (keyIndexes.flatMap (',' :: keyText ·) ++ ')' :: rest).head?, isDigit c = false := by
  cases keyIndexes <;> simp [List.flatMap_cons] <;> rfl

theorem parseMultisigKeys_print {rest : List Char} :
    ∀ (keyIndexes : List Nat) {fuel n}, keyIndexes.length < fuel →
      (∀ i ∈ keyIndexes, i < 2 ^ sizeTBits ∧ i ≠ sizeMax) →
      parseMultisigKeys fuel n (keyIndexes.flatMap (',' :: keyText ·) ++ ')' :: rest) =
        some (keyIndexes, n + keyIndexes.length, ')' :: rest)
  | [], fuel + 1, n, _, _ => by simp [parseMultisigKeys]
  | i :: keyIndexes, fuel + 1, n, hfuel, hkeys => by
    have hi := hkeys i (List.mem_cons_self _ _)
    simp only [List.flatMap_cons, List.cons_append, List.append_assoc, parseMultisigKeys,
      List.head?_cons, Option.some.injEq, show (',' = ')') = False by decide, if_false,
      consumeCharacter, if_true,
      Option.bind_eq_bind, Option.some_bind, parseKeyIndex_keyText hi.1 (keyList_head_not_digit keyIndexes rest),
      guard_eq_some_of hi.2]
    rw [parseMultisigKeys_print keyIndexes (by simp at hfuel; omega)
      fun j hj => hkeys j (List.mem_cons_of_mem _ hj)]
    simp only [Option.some_bind, List.length_cons, Option.some.injEq, Prod.mk.injEq, true_and,
      and_true]
    omega

theorem mapM_flags_cons_eq_some {x : Node} {xs : List Node} {fs : List Flags}
    (h : (x :: xs).mapM Node.flags = some fs) :
    ∃ X fs', x.flags = some X ∧ xs.mapM Node.flags = some fs' ∧ fs = X :: fs' := by
  simp only [List.mapM_cons, Option.bind_eq_bind, Option.bind_eq_some, Option.pure_def,
    Option.some.injEq] at h
  obtain ⟨X, hX, fs', hfs', rfl⟩ := h
  exact ⟨X, fs', hX, hfs', rfl⟩

theorem count_step (p : Flags → Bool) (X : Flags) (fs : List Flags) (count : Nat) :
    (if p X = true then count + 1 else count) + fs.countP p = count + (X :: fs).countP p := by
  rw [List.countP_cons]
  split <;> omega

/-- The thresh loop reads back the children `x`, `next` when the reader `child` reads back
each of them. -/
theorem parseThreshScripts_print {child : List Char → Option (Node × List Char)}
    {ok : Node → Prop} {bound : Nat} {rest : List Char}
    (hread : ∀ {y} (s' : List Char), ok y → (∀ c ∈ s'.head?, c = ',' ∨ c = ')') →
      (y.print false ++ s').length < bound → child (y.print false ++ s') = some (y, s')) :
    ∀ (next : ScriptList) (x : Node) (n countZ countO : Nat) {fuel fs},
      (∀ y ∈ x :: next.toList, ok y) →
      (x :: next.toList).mapM Node.flags = some fs →
      (if n = 0 then ThreshChildrenOk fs else ∀ Y ∈ fs, Y.type = .W ∧ Y.d ∧ Y.u) →
      next.toList.length < fuel → (x.print false ++ (next.print ++ ')' :: rest)).length < bound →
      parseThreshScripts child fuel n countZ countO (x.print false ++ (next.print ++ ')' :: rest)) =
        some (.cons x next, n + fs.length, countZ + fs.countP (·.z), countO + fs.countP (·.o),
          ')' :: rest)
  | next, x, n, countZ, countO, fuel + 1, fs, hok, hfs, htypes, hfuel, hlen => by
    obtain ⟨X, fs', hX, hfs', rfl⟩ := mapM_flags_cons_eq_some hfs
    obtain ⟨hXtype, hXdu, htail⟩ : (if n + 1 = 1 then X.type = .B else X.type = .W) ∧
        (X.d && X.u) = true ∧ ∀ Y ∈ fs', Y.type = .W ∧ Y.d ∧ Y.u := by
      by_cases hn : n = 0
      · rw [if_pos hn] at htypes
        obtain ⟨⟨hB, hd, hu⟩, htail⟩ := htypes
        exact ⟨by rw [if_pos (by omega)]; exact hB, by simp [hd, hu], htail⟩
      · rw [if_neg hn] at htypes
        obtain ⟨hW, hd, hu⟩ := htypes X (List.mem_cons_self _ _)
        exact ⟨by rw [if_neg (by omega)]; exact hW, by simp [hd, hu],
          fun Y hY => htypes Y (List.mem_cons_of_mem _ hY)⟩
    cases next with
    | nil =>
      have hxr := hread (')' :: rest) (hok x (List.mem_cons_self _ _)) (by simp)
        (by simpa [ScriptList.print] using hlen)
      obtain rfl : fs' = [] := Option.some.inj (hfs'.symm.trans rfl)
      simp only [ScriptList.print, List.nil_append, parseThreshScripts, hxr, hX,
        guard_eq_some_of hXtype, guard_eq_some_of hXdu, consumeCharacter,
        show (')' = ',') = False by decide, if_false, Option.bind_eq_bind, Option.some_bind]
      simpa using ⟨count_step (·.z) X [] countZ, count_step (·.o) X [] countO⟩
    | cons y next =>
      simp only [ScriptList.print, List.cons_append, List.append_assoc] at hlen ⊢
      have hxr := hread (',' :: (y.print false ++ (next.print ++ ')' :: rest)))
        (hok x (List.mem_cons_self _ _)) (by simp) hlen
      have hrec := @parseThreshScripts_print child ok bound rest hread next y (n + 1)
        (if X.z then countZ + 1 else countZ) (if X.o then countO + 1 else countO) fuel fs'
        (fun z hz => hok z (List.mem_cons_of_mem _ hz)) hfs'
        (by rw [if_neg (Nat.succ_ne_zero n)]; exact htail) (by simpa using hfuel)
        (by simp only [List.length_append, List.length_cons] at hlen ⊢; omega)
      simp only [parseThreshScripts, hxr, hX, guard_eq_some_of hXtype, guard_eq_some_of hXdu,
        consumeCharacter, if_true, Option.bind_eq_bind, Option.some_bind, hrec]
      simpa [Nat.add_assoc, Nat.add_comm 1] using
        ⟨count_step (·.z) X fs' countZ, count_step (·.o) X fs' countO⟩

theorem script2_token {type : PolicyNodeType} {X Y flags : Flags}
    (rule : script2Flags type X Y = some flags) :
    type = .andV ∨ type = .andB ∨ type = .andN ∨ type = .orB ∨ type = .orC ∨ type = .orD ∨
      type = .orI := by
  cases type <;> simp [script2Flags.eq_def] at rule ⊢

theorem Accepted.printedReadsBack {depth contextFlags : Nat} {t : Node}
    (h : Accepted depth contextFlags t) : PrintedReadsBack depth contextFlags t := by
  induction h with
  | zero | one =>
    intro _ ws t' fuel rest hws hwrap hrest hlen
    obtain ⟨fuel, rfl⟩ := Nat.exists_eq_add_one.mpr (Nat.zero_lt_of_lt hlen)
    simp only [Node.print, List.append_assoc]
    exact parseScript_constant hws (by simp) hrest hwrap
  | hash256 token | hash160 token =>
    intro _ ws t' fuel rest hws hwrap hrest hlen
    obtain ⟨fuel, rfl⟩ := Nat.exists_eq_add_one.mpr (Nat.zero_lt_of_lt hlen)
    simp only [Node.print, List.append_assoc, List.cons_append, List.nil_append]
    rcases token with rfl | rfl <;>
      exact parseScript_paren hws (by decide) (by decide)
        (by simp [parseBody.eq_def, bufferReadHexHash_hex]) hrest hwrap
  | @key _ _ type _ token index =>
    intro hfits ws t' fuel rest hws hwrap hrest hlen
    obtain ⟨fuel, rfl⟩ := Nat.exists_eq_add_one.mpr (Nat.zero_lt_of_lt hlen)
    simp only [Node.print, List.append_assoc, List.cons_append, List.nil_append]
    have hkey := parseKeyNode_keyText type rest (hfits .root) index
    rcases token with rfl | rfl | rfl | rfl <;>
      exact parseScript_paren hws (by decide) (by decide) (by simpa [parseBody.eq_def] using hkey)
        hrest hwrap
  | wpkh context index =>
    intro hfits ws t' fuel rest hws hwrap hrest hlen
    obtain ⟨fuel, rfl⟩ := Nat.exists_eq_add_one.mpr (Nat.zero_lt_of_lt hlen)
    simp only [Node.print, List.append_assoc, List.cons_append, List.nil_append]
    have hkey := parseKeyNode_keyText .wpkh rest (hfits .root) index
    exact parseScript_paren hws (by decide) (by decide)
      (by simpa [parseBody.eq_def, guard, context] using hkey) hrest hwrap
  | tr context index =>
    intro hfits ws t' fuel rest hws hwrap hrest hlen
    obtain ⟨fuel, rfl⟩ := Nat.exists_eq_add_one.mpr (Nat.zero_lt_of_lt hlen)
    simp only [Node.print, List.append_assoc, List.cons_append, List.nil_append]
    have hkey := parseKeyNode_keyText .tr rest (hfits .root) index
    exact parseScript_paren hws (by decide) (by decide)
      (by simpa [parseBody.eq_def, guard, context] using hkey) hrest hwrap
  | @timelock _ _ _ n token range =>
    intro _ ws t' fuel rest hws hwrap hrest hlen
    obtain ⟨fuel, rfl⟩ := Nat.exists_eq_add_one.mpr (Nat.zero_lt_of_lt hlen)
    simp only [Node.print, List.append_assoc, List.cons_append, List.nil_append]
    have hn : parseUnsignedDecimal sizeTBits (decimal n ++ ')' :: rest) = some (n, ')' :: rest) :=
      parseUnsignedDecimal_decimal (by simp only [sizeTBits]; omega)
        (not_digit_of_head rest (.inr rfl))
    rcases token with rfl | rfl <;>
      exact parseScript_paren hws (by decide) (by decide)
        (by simp only [parseBody.eq_def, hn, Option.bind_eq_bind, Option.some_bind,
          guard_eq_some_of range]) hrest hwrap
  | @sh depth _ script top _ ih =>
    intro hfits ws t' fuel rest hws hwrap hrest hlen
    obtain ⟨fuel, rfl⟩ := Nat.exists_eq_add_one.mpr (Nat.zero_lt_of_lt hlen)
    simp only [Node.print, show PolicyNodeType.sh.isWrapper = false from rfl, Bool.false_eq_true,
      if_false, List.append_assoc, List.cons_append, List.nil_append] at hlen ⊢
    have hfuel : (script.print false ++ ')' :: rest).length < fuel := by
      simp only [List.length_append, List.length_cons] at hlen ⊢
      omega
    have hchild := ih.readsBack (fun hx => hfits (hx.of_child (by simp [Node.children]))) fuel
      (Delimited.of_head rest (.inr rfl)) hfuel
    exact parseScript_paren hws (by decide) (by decide)
      (by simp only [parseBody.eq_def, guard_eq_some_of (show ¬(depth ≠ 0) from not_not.mpr top),
        hchild, Option.bind_eq_bind, Option.some_bind]) hrest hwrap
  | @wsh depth contextFlags script context _ ih =>
    intro hfits ws t' fuel rest hws hwrap hrest hlen
    obtain ⟨fuel, rfl⟩ := Nat.exists_eq_add_one.mpr (Nat.zero_lt_of_lt hlen)
    simp only [Node.print, show PolicyNodeType.wsh.isWrapper = false from rfl, Bool.false_eq_true,
      if_false, List.append_assoc, List.cons_append, List.nil_append] at hlen ⊢
    have hfuel : (script.print false ++ ')' :: rest).length < fuel := by
      simp only [List.length_append, List.length_cons] at hlen ⊢
      omega
    have hchild := ih.readsBack (fun hx => hfits (hx.of_child (by simp [Node.children]))) fuel
      (Delimited.of_head rest (.inr rfl)) hfuel
    exact parseScript_paren hws (by decide) (by decide)
      (by simp only [parseBody.eq_def, guard_eq_some_of context, hchild, Option.bind_eq_bind,
        Option.some_bind]) hrest hwrap
  | @wrapper depth contextFlags w inner X flags _ hX rule ih =>
    intro hfits ws t' fuel rest hws hwrap hrest hlen
    have hw := isWrapper_of_wrapperFlags rule
    have hchain : (ws ++ [w]).isEmpty = false := by cases ws <;> rfl
    have htext : (ws ++ [w]).map wrapperLetter ++ (inner.print (!(ws ++ [w]).isEmpty) ++ rest) =
        ws.map wrapperLetter ++ ((Node.withScript w (some flags) inner).print (!ws.isEmpty) ++ rest) := by
      simp [Node.print, hw, hchain]
    have hws' : ∀ x ∈ ws ++ [w], x.isWrapper := by
      simp only [List.mem_append, List.mem_singleton]
      rintro outer (hv | rfl)
      exacts [hws outer hv, hw]
    rw [← htext] at hlen ⊢
    exact ih (fun hx => hfits (hx.of_child (by simp [Node.children]))) (ws ++ [w]) hws'
      (by rw [applyWrappers_append_singleton hX rule, hwrap]) hrest hlen
  | @script2 depth _ type X Y fX fY flags _ _ hX hY rule ihX ihY =>
    intro hfits ws t' fuel rest hws hwrap hrest hlen
    obtain ⟨fuel, rfl⟩ := Nat.exists_eq_add_one.mpr (Nat.zero_lt_of_lt hlen)
    simp only [Node.print, List.append_assoc, List.cons_append, List.nil_append] at hlen ⊢
    have hfuelX : (X.print false ++ ',' :: (Y.print false ++ ')' :: rest)).length < fuel := by
      simp only [List.length_append, List.length_cons] at hlen ⊢
      omega
    have hfuelY : (Y.print false ++ ')' :: rest).length < fuel := by
      simp only [List.length_append, List.length_cons] at hlen ⊢
      omega
    have hXr := ihX.readsBack (fun hx => hfits (hx.of_child (by simp [Node.children]))) fuel
      (Delimited.of_head _ (.inl rfl)) hfuelX
    have hYr := ihY.readsBack (fun hx => hfits (hx.of_child (by simp [Node.children]))) fuel
      (Delimited.of_head rest (.inr rfl)) hfuelY
    have hbody : parseScript2 (parseScript fuel (depth + 1) 0) type
        (X.print false ++ ',' :: (Y.print false ++ ')' :: rest)) =
          some (.withScript2 type (some flags) X Y, ')' :: rest) := by
      simp only [parseScript2, parseChildScripts, hXr, hYr, consumeCharacter, if_true,
        Option.bind_eq_bind, Option.some_bind, hX, hY, rule]
    rcases script2_token rule with rfl | rfl | rfl | rfl | rfl | rfl | rfl <;>
      exact parseScript_paren hws (by decide) (by decide) hbody hrest hwrap
  | @andor depth _ X Y Z fX fY fZ flags _ _ _ hX hY hZ rule ihX ihY ihZ =>
    intro hfits ws t' fuel rest hws hwrap hrest hlen
    obtain ⟨fuel, rfl⟩ := Nat.exists_eq_add_one.mpr (Nat.zero_lt_of_lt hlen)
    simp only [Node.print, List.append_assoc, List.cons_append, List.nil_append] at hlen ⊢
    have hfuelX : (X.print false ++ ',' :: (Y.print false ++ ',' :: (Z.print false ++
        ')' :: rest))).length < fuel := by
      simp only [List.length_append, List.length_cons] at hlen ⊢
      omega
    have hfuelY : (Y.print false ++ ',' :: (Z.print false ++ ')' :: rest)).length < fuel := by
      simp only [List.length_append, List.length_cons] at hfuelX ⊢
      omega
    have hfuelZ : (Z.print false ++ ')' :: rest).length < fuel := by
      simp only [List.length_append, List.length_cons] at hfuelY ⊢
      omega
    have hXr := ihX.readsBack (fun hx => hfits (hx.of_child (by simp [Node.children]))) fuel
      (Delimited.of_head _ (.inl rfl)) hfuelX
    have hYr := ihY.readsBack (fun hx => hfits (hx.of_child (by simp [Node.children]))) fuel
      (Delimited.of_head _ (.inl rfl)) hfuelY
    have hZr := ihZ.readsBack (fun hx => hfits (hx.of_child (by simp [Node.children]))) fuel
      (Delimited.of_head rest (.inr rfl)) hfuelZ
    refine parseScript_paren hws (by decide) (by decide) ?_ hrest hwrap
    simp only [parseBody.eq_def, parseChildScripts, hXr, hYr, hZr, consumeCharacter, if_true,
      Option.bind_eq_bind, Option.some_bind, hX, hY, hZ, rule]
  | @thresh depth _ k n scriptlist fs threshold _ hfs types count ih =>
    intro hfits ws t' fuel rest hws hwrap hrest hlen
    obtain ⟨fuel, rfl⟩ := Nat.exists_eq_add_one.mpr (Nat.zero_lt_of_lt hlen)
    subst count
    rcases scriptlist with _ | ⟨x, next⟩
    · cases hfs
      exact absurd types id
    simp only [Node.print, ScriptList.print, List.append_assoc, List.cons_append,
      List.nil_append] at hlen ⊢
    have hread : ∀ {y} (s' : List Char), y ∈ (ScriptList.cons x next).toList →
        (∀ c ∈ s'.head?, c = ',' ∨ c = ')') → (y.print false ++ s').length < fuel →
        parseScript fuel (depth + 1) 0 (y.print false ++ s') = some (y, s') :=
      fun s' hy hs hl => (ih _ hy).readsBack (fun hx => hfits (hx.of_child (by simpa [Node.children]
        using hy))) fuel ⟨fun h => absurd h (Nat.succ_ne_zero _), hs⟩ hl
    have hnext := next.length_le_print
    have hk := parseUnsignedDecimal_decimal (hfits .root)
      (not_digit_of_head (x.print false ++ (next.print ++ ')' :: rest)) (.inl rfl))
    have hloop : parseThreshScripts (parseScript fuel (depth + 1) 0) fuel 0 0 0
        (x.print false ++ (next.print ++ ')' :: rest)) = some (.cons x next, 0 + fs.length,
          0 + fs.countP (·.z), 0 + fs.countP (·.o), ')' :: rest) :=
      parseThreshScripts_print hread next x 0 0 0 (fun _ hy => hy) hfs
      (by simpa using types) (by simp only [List.length_append, List.length_cons] at hlen; omega)
      (by simp only [List.length_append, List.length_cons] at hlen ⊢; omega)
    refine parseScript_paren hws (by decide) (by decide) ?_ hrest hwrap
    simp only [parseBody.eq_def, hk, consumeCharacter, if_true, guard_eq_some_of threshold, hloop,
      Option.bind_eq_bind, Option.some_bind, Nat.zero_add]
  | @multisig depth contextFlags type k n keyIndexes token context range count indices =>
    intro hfits ws t' fuel rest hws hwrap hrest hlen
    obtain ⟨fuel, rfl⟩ := Nat.exists_eq_add_one.mpr (Nat.zero_lt_of_lt hlen)
    subst count
    simp only [Node.print, List.append_assoc, List.cons_append, List.nil_append] at hlen ⊢
    have hlength := keyList_length_le keyIndexes
    have hk : parseUnsignedDecimal sizeTBits
        (decimal k ++ (keyIndexes.flatMap (',' :: keyText ·) ++ ')' :: rest)) =
          some (k, keyIndexes.flatMap (',' :: keyText ·) ++ ')' :: rest) :=
      parseUnsignedDecimal_decimal (by simp only [maxPolicyMapCosigners, sizeTBits] at range ⊢; omega)
        (keyList_head_not_digit keyIndexes rest)
    have hkeys : parseMultisigKeys fuel 0 (keyIndexes.flatMap (',' :: keyText ·) ++ ')' :: rest) =
        some (keyIndexes, 0 + keyIndexes.length, ')' :: rest) :=
      parseMultisigKeys_print keyIndexes
        (by simp only [List.length_append, List.length_cons] at hlen; omega)
        fun i hi => ⟨hfits .root i hi, indices i hi⟩
    have hmultisig : ∀ s, parseBody (parseScript fuel (depth + 1)) fuel depth contextFlags type s =
        parseMultisig fuel contextFlags type s := by
      rcases token with rfl | rfl <;> exact fun _ => rfl
    refine parseScript_paren hws (by rcases token with rfl | rfl <;> decide)
      (by rcases token with rfl | rfl <;> decide) ?_ hrest hwrap
    simp only [hmultisig, parseMultisig, guard_eq_some_of context, hk, hkeys, Nat.zero_add,
      guard_eq_some_of range, Option.bind_eq_bind, Option.some_bind]

end WalletPolicy
