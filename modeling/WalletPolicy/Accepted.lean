import WalletPolicy.Parser

/-!
# What `parse_script` can return

`Accepted depth contextFlags t` says once, per token, which trees a successful call of
`parse_script` at that depth and context can return: the context checks it passed, the
flags it stored and the depth and context its children were parsed at. The main result,
`parseScript_accepted`, is proved by induction on the fuel; every property of accepted
policies is then proved by induction on `Accepted`, without unfolding the parser again.
-/
namespace WalletPolicy

/-- The conditions of the thresh loop on the flags of the children: the first is `Bdu`,
every later one `Wdu`. -/
def ThreshChildrenOk : List Flags → Prop
  | [] => False
  | X :: Xs => (X.type = .B ∧ X.d ∧ X.u) ∧ ∀ Y ∈ Xs, Y.type = .W ∧ Y.d ∧ Y.u

/-- The trees `parse_script` can return at `depth` in context `contextFlags`. -/
inductive Accepted : (depth contextFlags : Nat) → Node → Prop
  | zero {depth contextFlags} : Accepted depth contextFlags (.constant .zero (some flagsZero))
  | one {depth contextFlags} : Accepted depth contextFlags (.constant .one (some flagsOne))
  | sh {depth contextFlags script} (top : depth = 0)
      (child : Accepted (depth + 1) contextWithinSh script) :
      Accepted depth contextFlags (.withScript .sh none script)
  | wsh {depth contextFlags script} (context : ¬(depth ≠ 0 ∧ contextFlags &&& contextWithinSh = 0))
      (child : Accepted (depth + 1) contextWithinWsh script) :
      Accepted depth contextFlags (.withScript .wsh none script)
  | hash256 {depth contextFlags type h} (token : type = .sha256 ∨ type = .hash256) :
      Accepted depth contextFlags (.withHash256 type (some hashFlags) h)
  | hash160 {depth contextFlags type h} (token : type = .ripemd160 ∨ type = .hash160) :
      Accepted depth contextFlags (.withHash160 type (some hashFlags) h)
  | andor {depth contextFlags X Y Z fX fY fZ flags}
      (childX : Accepted (depth + 1) 0 X) (childY : Accepted (depth + 1) 0 Y)
      (childZ : Accepted (depth + 1) 0 Z)
      (hX : X.flags = some fX) (hY : Y.flags = some fY) (hZ : Z.flags = some fZ)
      (rule : andorFlags fX fY fZ = some flags) :
      Accepted depth contextFlags (.withScript3 .andor (some flags) X Y Z)
  | script2 {depth contextFlags type X Y fX fY flags}
      (childX : Accepted (depth + 1) 0 X) (childY : Accepted (depth + 1) 0 Y)
      (hX : X.flags = some fX) (hY : Y.flags = some fY)
      (rule : script2Flags type fX fY = some flags) :
      Accepted depth contextFlags (.withScript2 type (some flags) X Y)
  | thresh {depth contextFlags k n scriptlist fs} (threshold : ¬(k < 1))
      (children : ∀ x ∈ scriptlist.toList, Accepted (depth + 1) 0 x)
      (hfs : scriptlist.toList.mapM Node.flags = some fs) (types : ThreshChildrenOk fs)
      (count : n = fs.length) :
      Accepted depth contextFlags
        (.thresh (some (threshFlags n (fs.countP (·.z)) (fs.countP (·.o)))) k n scriptlist)
  | key {depth contextFlags type keyIndex}
      (token : type = .pk ∨ type = .pkh ∨ type = .pkK ∨ type = .pkH) (index : keyIndex ≠ sizeMax) :
      Accepted depth contextFlags (.withKey type (keyFlags type) keyIndex)
  | wpkh {depth contextFlags keyIndex}
      (context : ¬(depth > 0 ∧ contextFlags &&& contextWithinSh = 0)) (index : keyIndex ≠ sizeMax) :
      Accepted depth contextFlags (.withKey .wpkh none keyIndex)
  | tr {depth contextFlags keyIndex} (context : ¬depth > 1) (index : keyIndex ≠ sizeMax) :
      Accepted depth contextFlags (.withKey .tr none keyIndex)
  | timelock {depth contextFlags type n} (token : type = .older ∨ type = .after)
      (range : ¬(n < 1 ∨ n ≥ 2 ^ 31)) :
      Accepted depth contextFlags (.withUint32 type (some timelockFlags) n)
  | multisig {depth contextFlags type k n keyIndexes} (token : type = .multi ∨ type = .sortedmulti)
      (context : ¬(type = .sortedmulti ∧ contextFlags &&& contextWithinSh ≠ 0 ∧
        contextFlags &&& contextWithinWsh ≠ 0))
      (range : 1 ≤ k ∧ k ≤ n ∧ n ≤ maxPolicyMapCosigners) (count : n = keyIndexes.length)
      (indices : ∀ i ∈ keyIndexes, i ≠ sizeMax) :
      Accepted depth contextFlags
        (.multisig type (if type = .sortedmulti then none else some multiFlags) k n keyIndexes)
  | wrapper {depth contextFlags w inner X flags} (body : Accepted depth contextFlags inner)
      (hX : inner.flags = some X) (rule : wrapperFlags w X = some flags) :
      Accepted depth contextFlags (.withScript w (some flags) inner)

/-! ### The wrapper loop and the child loops -/

theorem applyWrappers_accepted {depth contextFlags : Nat} :
    ∀ {ws : List PolicyNodeType} {body t : Node}, Accepted depth contextFlags body →
      applyWrappers ws body = some t → Accepted depth contextFlags t
  | [], _, _, hbody, h => by cases h; exact hbody
  | w :: ws, body, t, hbody, h => by
    simp only [applyWrappers, Option.bind_eq_bind, Option.bind_eq_some] at h
    obtain ⟨inner, hinner, h⟩ := h
    split at h
    · next X hX =>
      simp only [Option.bind_eq_some, Option.some.injEq] at h
      obtain ⟨flags, rule, rfl⟩ := h
      exact .wrapper (applyWrappers_accepted hbody hinner) hX rule
    · cases h

theorem parseChildScripts_forall {P : Node → Prop} {child : List Char → Option (Node × List Char)}
    (hchild : ∀ {s x r}, child s = some (x, r) → P x) :
    ∀ {k s xs r}, parseChildScripts child k s = some (xs, r) → ∀ x ∈ xs, P x
  | 0, _, _, _, h => by cases h; simp
  | 1, s, xs, r, h => by
    simp only [parseChildScripts, Option.bind_eq_bind, Option.bind_eq_some, Option.some.injEq,
      Prod.mk.injEq] at h
    obtain ⟨⟨x, s1⟩, h1, rfl, rfl⟩ := h
    simpa using hchild h1
  | k + 2, s, xs, r, h => by
    simp only [parseChildScripts, Option.bind_eq_bind, Option.bind_eq_some, Option.some.injEq,
      Prod.mk.injEq] at h
    obtain ⟨⟨x, s1⟩, h1, s2, -, ⟨xs', s3⟩, h3, rfl, rfl⟩ := h
    intro y hy
    rcases List.mem_cons.mp hy with rfl | hy
    · exact hchild h1
    · exact parseChildScripts_forall hchild h3 y hy

theorem mapM_flags_cons {x : Node} {xs : List Node} {X : Flags} {fs : List Flags}
    (hX : x.flags = some X) (hfs : xs.mapM Node.flags = some fs) :
    (x :: xs).mapM Node.flags = some (X :: fs) := by
  rw [List.mapM_cons, hX, hfs]
  rfl

theorem isMiniscript_of_mapM_flags {xs : List Node} {fs : List Flags}
    (h : xs.mapM Node.flags = some fs) : ∀ x ∈ xs, x.isMiniscript = true := by
  induction xs generalizing fs with
  | nil => simp
  | cons x xs ih =>
    simp only [List.mapM_cons, Option.bind_eq_bind, Option.bind_eq_some, Option.pure_def,
      Option.some.injEq] at h
    obtain ⟨X, hX, fs', hfs', -⟩ := h
    simp only [List.mem_cons, forall_eq_or_imp, Node.isMiniscript, hX, Option.isSome_some,
      true_and]
    exact ih hfs'

/-- The type conditions of the thresh loop on the child `X` it reads after `n` others and on
the children after `X`. -/
theorem threshTypes_cons {n : Nat} {X : Flags} {fs : List Flags}
    (htype : if n + 1 = 1 then X.type = .B else X.type = .W) (hd : X.d) (hu : X.u)
    (htypes : ∀ Y ∈ fs, Y.type = .W ∧ Y.d ∧ Y.u) :
    if n = 0 then ThreshChildrenOk (X :: fs) else ∀ Y ∈ X :: fs, Y.type = .W ∧ Y.d ∧ Y.u := by
  split
  · next hn => exact ⟨⟨by simpa [hn] using htype, hd, hu⟩, htypes⟩
  · next hn => exact List.forall_mem_cons.mpr ⟨⟨by simpa [hn] using htype, hd, hu⟩, htypes⟩

/-- What the thresh loop returns, started with counters `n`, `countZ`, `countO`. -/
theorem parseThreshScripts_spec {P : Node → Prop} {child : List Char → Option (Node × List Char)}
    (hchild : ∀ {s x r}, child s = some (x, r) → P x) :
    ∀ {fuel n countZ countO s scriptlist n' countZ' countO' r},
      parseThreshScripts child fuel n countZ countO s = some (scriptlist, n', countZ', countO', r) →
      (∀ x ∈ scriptlist.toList, P x) ∧ ∃ fs, scriptlist.toList.mapM Node.flags = some fs ∧
        (if n = 0 then ThreshChildrenOk fs else ∀ Y ∈ fs, Y.type = .W ∧ Y.d ∧ Y.u) ∧
        n' = n + fs.length ∧ countZ' = countZ + fs.countP (·.z) ∧
        countO' = countO + fs.countP (·.o)
  | 0, _, _, _, _, _, _, _, _, _, h => by cases h
  | fuel + 1, n, countZ, countO, s, scriptlist, n', countZ', countO', r, h => by
    simp only [parseThreshScripts, Option.bind_eq_bind, Option.bind_eq_some] at h
    obtain ⟨⟨x, s1⟩, h1, h⟩ := h
    split at h
    · next X hX =>
      simp only [Option.bind_eq_some, Option.guard_eq_some', Bool.and_eq_true] at h
      obtain ⟨-, htype, -, ⟨hd, hu⟩, h⟩ := h
      split at h
      · simp only [Option.bind_eq_some, Option.some.injEq, Prod.mk.injEq] at h
        obtain ⟨⟨next, n'', cz, co, s3⟩, h3, rfl, rfl, rfl, rfl, rfl⟩ := h
        obtain ⟨hall, fs, hfs, htypes, rfl, rfl, rfl⟩ := parseThreshScripts_spec hchild h3
        refine ⟨?_, X :: fs, ?_, ?_, ?_, ?_, ?_⟩
        · simpa [hchild h1] using hall
        · exact mapM_flags_cons hX hfs
        · exact threshTypes_cons htype hd hu (by rwa [if_neg (Nat.succ_ne_zero n)] at htypes)
        · simp only [List.length_cons]; omega
        · simp only [List.countP_cons]; split <;> omega
        · simp only [List.countP_cons]; split <;> omega
      · simp only [Option.some.injEq, Prod.mk.injEq] at h
        obtain ⟨rfl, rfl, rfl, rfl, rfl⟩ := h
        refine ⟨by simpa using hchild h1, [X], mapM_flags_cons hX rfl, ?_, rfl, ?_, ?_⟩
        · exact threshTypes_cons htype hd hu fun _ h => absurd h (List.not_mem_nil _)
        · cases hz : X.z <;> simp [hz]
        · cases ho : X.o <;> simp [ho]
    · cases h

theorem parseMultisigKeys_spec :
    ∀ {fuel n s keyIndexes n' r}, parseMultisigKeys fuel n s = some (keyIndexes, n', r) →
      n' = n + keyIndexes.length ∧ ∀ i ∈ keyIndexes, i ≠ sizeMax
  | 0, _, _, _, _, _, h => by cases h
  | fuel + 1, n, s, keyIndexes, n', r, h => by
    simp only [parseMultisigKeys] at h
    split at h
    · cases h; simp
    · simp only [Option.bind_eq_bind, Option.bind_eq_some, Option.guard_eq_some'] at h
      obtain ⟨s1, -, ⟨i, s2⟩, -, -, hi, ⟨is, n'', s3⟩, h3, h⟩ := h
      cases h
      obtain ⟨rfl, hall⟩ := parseMultisigKeys_spec h3
      refine ⟨by simp; omega, ?_⟩
      simpa [hi] using hall


/-! ### The token switch and the recursion -/

theorem parseKeyNode_eq_some {token : PolicyNodeType} {s : List Char} {t : Node} {r : List Char}
    (h : parseKeyNode token s = some (t, r)) :
    ∃ keyIndex, keyIndex ≠ sizeMax ∧ t = .withKey token (keyFlags token) keyIndex := by
  simp only [parseKeyNode, Option.bind_eq_bind, Option.bind_eq_some, Option.guard_eq_some',
    Option.some.injEq, Prod.mk.injEq] at h
  obtain ⟨⟨keyIndex, s1⟩, -, -, hk, rfl, -⟩ := h
  exact ⟨keyIndex, hk, rfl⟩

theorem parseScript2_accepted {child : List Char → Option (Node × List Char)}
    {depth contextFlags : Nat} {token : PolicyNodeType} {s : List Char} {t : Node} {r : List Char}
    (hchild : ∀ {s x r}, child s = some (x, r) → Accepted (depth + 1) 0 x)
    (h : parseScript2 child token s = some (t, r)) : Accepted depth contextFlags t := by
  simp only [parseScript2, Option.bind_eq_bind, Option.bind_eq_some] at h
  obtain ⟨⟨xs, s1⟩, h1, h⟩ := h
  split at h
  · next X Y _ hxs =>
    simp only [Prod.mk.injEq] at hxs
    obtain ⟨rfl, rfl⟩ := hxs
    have children := parseChildScripts_forall hchild h1
    split at h
    · next fX fY hXY =>
      simp only [Prod.mk.injEq] at hXY
      simp only [Option.bind_eq_some, Option.some.injEq, Prod.mk.injEq] at h
      obtain ⟨flags, rule, rfl, -⟩ := h
      exact .script2 (children X (by simp)) (children Y (by simp)) hXY.1 hXY.2 rule
    · cases h
  · cases h

theorem parseMultisig_accepted {fuel depth contextFlags : Nat} {token : PolicyNodeType}
    {s : List Char} {t : Node} {r : List Char} (htoken : token = .multi ∨ token = .sortedmulti)
    (h : parseMultisig fuel contextFlags token s = some (t, r)) : Accepted depth contextFlags t := by
  simp only [parseMultisig, Option.bind_eq_bind, Option.bind_eq_some, Option.guard_eq_some',
    Option.some.injEq, Prod.mk.injEq] at h
  obtain ⟨-, context, ⟨k, s1⟩, -, ⟨keyIndexes, n, s2⟩, hkeys, -, range, rfl, -⟩ := h
  obtain ⟨count, indices⟩ := parseMultisigKeys_spec hkeys
  exact .multisig htoken context range (by simpa using count) indices

theorem parseBody_accepted {child : Nat → List Char → Option (Node × List Char)}
    {fuel depth contextFlags : Nat}
    (hchild : ∀ {c s x r}, child c s = some (x, r) → Accepted (depth + 1) c x) :
    ∀ {token s t r}, parseBody child fuel depth contextFlags token s = some (t, r) →
      Accepted depth contextFlags t := by
  intro token s t r h
  unfold parseBody at h
  cases token <;> simp only [Option.bind_eq_bind, Option.bind_eq_some,
    Option.guard_eq_some', Option.some.injEq, Prod.mk.injEq, reduceCtorEq] at h
  case zero => obtain ⟨rfl, -⟩ := h; exact .zero
  case one => obtain ⟨rfl, -⟩ := h; exact .one
  case sh =>
    obtain ⟨-, top, ⟨x, s1⟩, h1, rfl, -⟩ := h
    exact .sh (by omega) (hchild h1)
  case wsh =>
    obtain ⟨-, context, ⟨x, s1⟩, h1, rfl, -⟩ := h
    exact .wsh context (hchild h1)
  case sha256 | hash256 => obtain ⟨_, -, rfl, -⟩ := h; exact .hash256 (by simp)
  case ripemd160 | hash160 => obtain ⟨_, -, rfl, -⟩ := h; exact .hash160 (by simp)
  case andor =>
    obtain ⟨⟨xs, s1⟩, h1, h⟩ := h
    split at h
    · next X Y Z _ hxs =>
      simp only [Prod.mk.injEq] at hxs
      obtain ⟨rfl, rfl⟩ := hxs
      have children := parseChildScripts_forall hchild h1
      split at h
      · next fX fY fZ hXYZ =>
        simp only [Prod.mk.injEq] at hXYZ
        simp only [Option.bind_eq_some, Option.some.injEq, Prod.mk.injEq] at h
        obtain ⟨flags, rule, rfl, -⟩ := h
        exact .andor (children X (by simp)) (children Y (by simp)) (children Z (by simp))
          hXYZ.1 hXYZ.2.1 hXYZ.2.2 rule
      · cases h
    · cases h
  case andV | andB | andN | orB | orC | orD | orI => exact parseScript2_accepted hchild h
  case thresh =>
    obtain ⟨⟨k, s1⟩, -, s2, -, -, threshold, ⟨scriptlist, n, countZ, countO, s3⟩, hloop, rfl, -⟩ := h
    obtain ⟨children, fs, hfs, types, rfl, rfl, rfl⟩ := parseThreshScripts_spec hchild hloop
    simp only [Nat.zero_add]
    exact .thresh threshold children hfs (by simpa using types) rfl
  case pk | pkh | pkK | pkH =>
    obtain ⟨keyIndex, index, rfl⟩ := parseKeyNode_eq_some h
    exact .key (by simp) index
  case wpkh =>
    obtain ⟨-, context, h⟩ := h
    obtain ⟨keyIndex, index, rfl⟩ := parseKeyNode_eq_some h
    exact .wpkh context index
  case tr =>
    obtain ⟨-, context, h⟩ := h
    obtain ⟨keyIndex, index, rfl⟩ := parseKeyNode_eq_some h
    exact .tr context index
  case older | after =>
    obtain ⟨⟨n, s1⟩, -, -, range, rfl, -⟩ := h
    exact .timelock (by simp) range
  case multi => exact parseMultisig_accepted (.inl rfl) h
  case sortedmulti => exact parseMultisig_accepted (.inr rfl) h

/-- Every tree `parse_script` returns is accepted at its depth and context. -/
theorem parseScript_accepted :
    ∀ {fuel depth contextFlags s t r}, parseScript fuel depth contextFlags s = some (t, r) →
      Accepted depth contextFlags t
  | 0, _, _, _, _, _, h => by cases h
  | fuel + 1, depth, contextFlags, s, t, r, h => by
    unfold parseScript at h
    rcases hw : parseWrappers s with ⟨ws, s1⟩
    rcases htoken : parseToken s1 with ⟨token, s2⟩
    simp only [hw, htoken, Option.bind_eq_bind, Option.bind_eq_some, Option.guard_eq_some'] at h
    obtain ⟨s3, -, ⟨body, s4⟩, hbody, s5, -, -, -, t', ht, h⟩ := h
    simp only [Option.some.injEq, Prod.mk.injEq] at h
    obtain ⟨rfl, -⟩ := h
    exact applyWrappers_accepted (parseBody_accepted (fun h => parseScript_accepted h) hbody) ht

theorem parsePolicyMap_accepted {s : List Char} {t : Node} (h : parsePolicyMap s = some t) :
    Accepted 0 0 t := by
  simp only [parsePolicyMap, Option.bind_eq_bind, Option.bind_eq_some, Option.some.injEq] at h
  obtain ⟨⟨t', r⟩, h, rfl⟩ := h
  exact parseScript_accepted h

end WalletPolicy
