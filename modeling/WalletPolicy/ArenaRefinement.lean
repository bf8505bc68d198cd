import WalletPolicy.ArenaBody
import WalletPolicy.WrapperChain
import WalletPolicy.Representation

/-!
# `parse_policy_map` on the buffer

The arena parser `parseScriptA`, with its allocations in the order of the C code, reads every
text as `parseScript` reads it and leaves the layout `storeNode` of the tree in the arena,
from every position it may start on: the token switch is `parseBodyA_eq`, the wrapper chain
`storeNode_applyWrappers` and `wrapperFlagsLoop_linkWrappers`, and the recursion is on the
fuel. At the top, `parse_policy_map` starts on an empty buffer at `out`, so what it returns is
decided by the alignment of `out`, by `parsePolicyMap`, and by whether the tree fits.

## Main results

`parseScriptA_eq`: `parse_script` on the arena refines `parseScript`.

`parsePolicyMapA_isSome_iff`: when `parse_policy_map` succeeds on the buffer.

`parsePolicyMapA_stored`: the buffer then holds the tree `parsePolicyMap` returns, and no other.

`parsePolicyMapA_print_of_le`: the arena form of `parsePolicyMap_print`: the canonical text of a
well-formed tree, parsed into an aligned buffer that its layout fits, leaves exactly that tree.
-/
namespace WalletPolicy

section
variable {sizes : StructSizes}

/-- `parse_script` on the arena is `parse_script` followed by the layout of the tree it returns,
from every arena it may start on. -/
theorem parseScriptA_eq : ∀ (fuel depth contextFlags : Nat),
    LaysOut sizes (parseScriptA sizes fuel depth contextFlags) (parseScript fuel depth contextFlags)
  | 0, _, _ => fun _ _ _ => rfl
  | fuel + 1, depth, contextFlags => fun s a ha => by
    have hbody := parseBodyA_eq (fun c => parseScriptA_eq fuel (depth + 1) c) fuel depth contextFlags
    simp only [parseScriptA, parseScript]
    rcases hw : parseWrappers s with ⟨ws, s1⟩
    rcases ht : parseToken s1 with ⟨token, s2⟩
    simp only [Option.bind_eq_bind, hbody, Option.bind_assoc, Option.some_bind,
      bind_applyWrappers_storeNode]
    cases halloc : allocWrappers sizes ws.length a with
    | none => simp
    | some p =>
      obtain ⟨nodes, a1⟩ := p
      obtain ⟨-, hlen, hnodup, hbounds, hhead⟩ := allocWrappers_spec halloc
      have hroot : alignUp a1.offset ∉ nodes := fun hm => by
        have := hbounds _ hm
        have := le_alignUp a1.offset
        omega
      -- the outermost wrapper is at the position `parse_script` started from
      have hout : ∀ L, wrapperFlagsLoop a.offset ws.length L =
          wrapperFlagsLoop (nodes.head?.getD (alignUp a1.offset)) ws.length L := by
        intro L
        cases ws with
        | nil => rfl
        | cons w ws' =>
          obtain ⟨node, nodes', rfl⟩ := List.exists_cons_of_length_eq_add_one hlen
          simp only [List.head?_cons, Option.getD_some] at hhead ⊢
          rcases ha with ha | ha
          · rw [hhead, alignUp_of_mod ha]
          · simp [allocWrappers, bufferAlloc_of_not_le (by omega : ¬alignUp a.offset + sizes.withScript ≤ a.size)] at halloc
      simp only [Option.some_bind]
      congr 1
      funext s3
      congr 1
      funext p
      cases hx : storeNode sizes a1 p.1 with
      | none => simp
      | some a2 =>
        simp only [Option.map_some', Option.some_bind, hout,
          wrapperFlagsLoop_linkWrappers ws nodes a2 hlen hnodup hroot (storeNode_root hx),
          Option.bind_map, Option.map_eq_bind, Function.comp_def, Option.bind_assoc]

end

/-- Every node of an accepted tree has the counts its struct holds. -/
theorem Accepted.shapeOk {depth contextFlags : Nat} {t : Node}
    (h : Accepted depth contextFlags t) : t.ShapeOk := by
  cases h with
  | multisig _ _ _ count _ => exact count
  | thresh _ _ hfs types _ =>
    rintro rfl
    simp only [ScriptList.toList_nil, List.mapM_nil, Option.pure_def, Option.some.injEq] at hfs
    subst hfs
    exact types
  | _ => trivial

section
variable (sizes : StructSizes)

/-- `parse_policy_map` on the buffer `out` of `out_len` bytes: the policy is parsed as
`parsePolicyMap` parses it, and its tree is laid out from the start of the buffer. -/
theorem parsePolicyMapA_eq (out outLen : Nat) (s : List Char) :
    parsePolicyMapA sizes out outLen s =
      if out % 4 = 0 then (parsePolicyMap s).bind (storeNode sizes (bufferCreate outLen))
      else none := by
  unfold parsePolicyMapA parsePolicyMap
  split
  · next h => simp [h]
  · next h =>
    simp only [not_not] at h
    simp [h, parseScriptA_eq _ _ _ _ _ (.inl rfl : (bufferCreate outLen).Ready), Option.bind_map,
      Option.map_eq_bind, Function.comp_def, Option.bind_assoc]

/-- An accepted tree laid out from the start of a fresh buffer is the one tree the buffer holds
at offset `0`. -/
theorem storeNode_bufferCreate_stored {outLen : Nat} {t : Node} {a : Arena}
    (hacc : Accepted 0 0 t) (hstore : storeNode sizes (bufferCreate outLen) t = some a) :
    ∀ t', Stored a.heap 0 t' ↔ t' = t := by
  have hshape : ∀ e x, t.SubtreeAt e x → x.ShapeOk := fun _ _ hx =>
    let ⟨_, _, hacc⟩ := hacc.subtree hx
    hacc.shapeOk
  have hroot : alignUp (bufferCreate outLen).offset = 0 := alignUp_of_mod rfl
  have hstored : Stored a.heap 0 t := hroot ▸ storeNode_stored hstore hshape a.heap fun _ _ _ => rfl
  exact fun t' => ⟨fun h' => (Stored.unique t hstored h').symm, fun h' => h' ▸ hstored⟩

/-- `parse_policy_map` succeeds on the buffer exactly when the buffer is aligned, the text is
a policy and its tree fits in the `out_len` bytes. -/
theorem parsePolicyMapA_isSome_iff (out outLen : Nat) (s : List Char) :
    (parsePolicyMapA sizes out outLen s).isSome ↔
      out % 4 = 0 ∧ ∃ t, parsePolicyMap s = some t ∧ storeEnd sizes 0 t ≤ outLen := by
  rw [parsePolicyMapA_eq]
  split
  · next hout =>
    cases parsePolicyMap s with
    | none => simp
    | some t =>
      have h : (storeNode sizes (bufferCreate outLen) t).isSome ↔ _ := storeNode_isSome_iff
      simpa [hout] using h
  · next hout => simp [hout]

/-- What `parse_policy_map` leaves in the buffer is the tree `parsePolicyMap` returns: its
root at offset `0` and the arena read back as that tree and no other; the buffer is used up
to `storeEnd`, within its `out_len` bytes, and nothing past it is written. -/
theorem parsePolicyMapA_stored {out outLen : Nat} {s : List Char} {a : Arena}
    (h : parsePolicyMapA sizes out outLen s = some a) :
    ∃ t, parsePolicyMap s = some t ∧ a.offset = storeEnd sizes 0 t ∧ a.offset ≤ outLen ∧
      (∀ p, a.offset ≤ p → a.heap p = none) ∧ ∀ t', Stored a.heap 0 t' ↔ t' = t := by
  rw [parsePolicyMapA_eq] at h
  split at h
  · obtain ⟨t, ht, hstore⟩ := Option.bind_eq_some.mp h
    obtain ⟨hg, hoff⟩ := storeNode_spec hstore
    exact ⟨t, ht, hoff, (hg.offset_le_size (Nat.zero_le outLen)).trans_eq hg.size_eq,
      fun p hp => hg.frame p (.inr hp),
      storeNode_bufferCreate_stored sizes (parsePolicyMap_accepted ht) hstore⟩
  · cases h

end

/-- One choice of struct sizes, to run the arena parser on. -/
def smallSizes : StructSizes := ⟨8, 12, 16, 20, 20, 8, 12, 40, 28, 12, 24⟩

/-- The buffer after `pk(@0)` with `smallSizes`: the `pk` node at offset `0`. -/
def pkArena : Arena :=
  ⟨12, 64, Function.update (fun _ => none) 0 (some (.withKey .pk (keyFlags .pk) 0))⟩

theorem pk_stored :
    parsePolicyMapA smallSizes 0 64 "pk(@0)".toList = some pkArena ∧
      ∃ t, parsePolicyMap "pk(@0)".toList = some t ∧ pkArena.offset = storeEnd smallSizes 0 t ∧
        pkArena.offset ≤ 64 ∧ (∀ p, pkArena.offset ≤ p → pkArena.heap p = none) ∧
        ∀ t', Stored pkArena.heap 0 t' ↔ t' = t :=
  have h : parsePolicyMapA smallSizes 0 64 "pk(@0)".toList = some pkArena := rfl
  ⟨h, parsePolicyMapA_stored smallSizes h⟩

/-- `parse_policy_map` stores every well-formed policy in an aligned buffer that its layout
fits: the canonical text leaves the tree in the buffer at offset `0`, and no other. -/
theorem parsePolicyMapA_print_of_le (sizes : StructSizes) {out outLen : Nat} {t : Node}
    (hw : WellFormed t) (hout : out % 4 = 0) (hfit : storeEnd sizes 0 t ≤ outLen) :
    ∃ a, parsePolicyMapA sizes out outLen (t.print false) = some a ∧
      ∀ t', Stored a.heap 0 t' ↔ t' = t := by
  have hacc := hw.accepted
  obtain ⟨a, ha⟩ := Option.isSome_iff_exists.mp (storeNode_isSome_iff.mpr
    (show storeEnd sizes (bufferCreate outLen).offset t ≤ (bufferCreate outLen).size from hfit))
  refine ⟨a, ?_, storeNode_bufferCreate_stored sizes hacc ha⟩
  rw [parsePolicyMapA_eq, if_pos hout,
    parsePolicyMap_print_of_accepted hacc fun hx => (hw.fields hx).fits, Option.some_bind, ha]

end WalletPolicy
