import WalletPolicy.Layout
import WalletPolicy.Completeness

/-!
# The wrapper chain on the arena

`parse_script` allocates one struct per wrapper before it reads the token, links each one to
the next and the innermost to the parsed node (`linkWrappers`), and then computes their flags
from the innermost out (`wrapperFlagsLoop`), finding wrapper `i` by following `i` pointers from
the outermost. The layout `storeNode` of a wrapped tree has the same structs at the same
offsets. The proof peels the outermost wrapper off the loop (`wrapperFlagsLoop_peel`): the
loop from the outermost struct is the loop from the next one followed by one pass on the
outermost, since a pass changes no type and no pointer of the chain.

## Main results

`wrapperFlagsLoop_linkWrappers`: on a linked chain, the loop computes the flags
`applyWrappers` computes and leaves the wrapper structs of the tree (`writeWrappers`).

`storeNode_applyWrappers`: the layout of a wrapped tree is the chain, then the body, then the
wrapper structs.
-/
namespace WalletPolicy

namespace Arena

@[simp] theorem write_write_self (a : Arena) (p : Nat) (c d : Cell) :
    (a.write p c).write p d = a.write p d := by
  simp [write]

theorem write_comm (a : Arena) {p q : Nat} (h : p ≠ q) (c d : Cell) :
    (a.write p c).write q d = (a.write q d).write p c := by
  simp only [write, Function.update_comm h.symm]

end Arena

/-- One pass of the wrapper loop on the wrapper struct at `node`. -/
def wrapperFlagsStep (node : Nat) (a : Arena) : Option Arena := do
  let some (.withScript type _ script) := a.heap node | none
  let some X := a.flagsAt script | none
  let flags ← wrapperFlags type X
  some (a.write node (.withScript type (some flags) script))

theorem wrapperFlagsLoop_succ (outermostNode i : Nat) (a : Arena) :
    wrapperFlagsLoop outermostNode (i + 1) a =
      (a.follow i outermostNode).bind fun node =>
        (wrapperFlagsStep node a).bind (wrapperFlagsLoop outermostNode i) := by
  simp only [wrapperFlagsLoop, wrapperFlagsStep, Option.bind_eq_bind]
  congr 1
  funext node
  cases a.heap node with
  | none => rfl
  | some c =>
    cases c with
    | withScript type f script =>
      dsimp only
      cases a.flagsAt script with
      | none => rfl
      | some X =>
        dsimp only
        cases wrapperFlags type X <;> rfl
    | _ => rfl

/-- A pass of the loop keeps the type and the pointer of every wrapper struct. -/
theorem wrapperFlagsStep_heap {node p : Nat} {a a' : Arena} (h : wrapperFlagsStep node a = some a')
    {type : PolicyNodeType} {f : Option Flags} {script : Nat}
    (hp : a.heap p = some (.withScript type f script)) :
    ∃ f', a'.heap p = some (.withScript type f' script) := by
  simp only [wrapperFlagsStep, Option.bind_eq_bind] at h
  split at h
  · next type' f'' script' hnode =>
    split at h
    · simp only [Option.bind_eq_some, Option.some.injEq] at h
      obtain ⟨flags, -, rfl⟩ := h
      by_cases hpn : p = node
      · subst hpn
        rw [hnode, Option.some.injEq, Cell.withScript.injEq] at hp
        obtain ⟨rfl, -, rfl⟩ := hp
        exact ⟨some flags, by simp⟩
      · exact ⟨f, by rw [Arena.write_heap_of_ne _ hpn, hp]⟩
    · cases h
  · cases h

theorem follow_succ_of_heap {a : Arena} {o o' : Nat} {type : PolicyNodeType} {f : Option Flags}
    (h : a.heap o = some (.withScript type f o')) (i : Nat) :
    a.follow (i + 1) o = a.follow i o' := by
  simp [Arena.follow, h]

/-- The loop from the outermost wrapper runs the loop from the next one, then the pass on the
outermost. -/
theorem wrapperFlagsLoop_peel {o o' : Nat} {type : PolicyNodeType} :
    ∀ (n : Nat) (a : Arena) (f : Option Flags), a.heap o = some (.withScript type f o') →
      wrapperFlagsLoop o (n + 1) a = (wrapperFlagsLoop o' n a).bind (wrapperFlagsStep o)
  | 0, a, f, h => by
    rw [wrapperFlagsLoop_succ]
    show (wrapperFlagsStep o a).bind (fun a => some a) = wrapperFlagsStep o a
    exact Option.bind_some _
  | n + 1, a, f, h => by
    rw [wrapperFlagsLoop_succ, follow_succ_of_heap h, wrapperFlagsLoop_succ, Option.bind_assoc]
    refine Option.bind_congr fun node _ => ?_
    rw [Option.bind_assoc]
    refine Option.bind_congr fun a' ha' => ?_
    obtain ⟨f', hf'⟩ := wrapperFlagsStep_heap ha' h
    exact wrapperFlagsLoop_peel n a' f' hf'

/-- The wrapper structs of the tree `t` at `nodes`, outermost first, each one pointing to the
next and the innermost to `root`: what the wrapper loop leaves in the arena. -/
def writeWrappers (root : Nat) : List Nat → Node → Arena → Arena
  | node :: nodes, .withScript type f inner, a =>
    (writeWrappers root nodes inner a).write node (.withScript type f (nodes.head?.getD root))
  | _, _, a => a

@[simp] theorem writeWrappers_cons (root node : Nat) (nodes : List Nat) (type : PolicyNodeType)
    (f : Option Flags) (inner : Node) (a : Arena) :
    writeWrappers root (node :: nodes) (.withScript type f inner) a =
      (writeWrappers root nodes inner a).write node (.withScript type f (nodes.head?.getD root)) :=
  rfl

theorem writeWrappers_heap_of_not_mem {root p : Nat} (a : Arena) :
    ∀ {nodes : List Nat} (t : Node), p ∉ nodes → (writeWrappers root nodes t a).heap p = a.heap p
  | [], _, _ => rfl
  | node :: nodes, t, hp => by
    cases t with
    | withScript type f inner =>
      rw [writeWrappers_cons, Arena.write_heap_of_ne _ (List.ne_of_not_mem_cons hp),
        writeWrappers_heap_of_not_mem a inner (List.not_mem_of_not_mem_cons hp)]
    | _ => rfl

theorem writeWrappers_write {root p : Nat} (a : Arena) (cell : Cell) :
    ∀ {nodes : List Nat} (t : Node), p ∉ nodes →
      writeWrappers root nodes t (a.write p cell) = (writeWrappers root nodes t a).write p cell
  | [], _, _ => rfl
  | node :: nodes, t, hp => by
    cases t with
    | withScript type f inner =>
      rw [writeWrappers_cons, writeWrappers_cons, writeWrappers_write a cell inner (List.not_mem_of_not_mem_cons hp),
        Arena.write_comm _ (List.ne_of_not_mem_cons hp)]
    | _ => rfl

theorem linkWrappers_heap_of_not_mem {root p : Nat} :
    ∀ (ws : List PolicyNodeType) {nodes : List Nat} (a : Arena), p ∉ nodes →
      (linkWrappers root ws nodes a).heap p = a.heap p
  | [], _, _, _ => rfl
  | _ :: _, [], _, _ => rfl
  | _ :: ws, node :: nodes, a, hp => by
    rw [linkWrappers, linkWrappers_heap_of_not_mem ws _ (List.not_mem_of_not_mem_cons hp),
      Arena.write_heap_of_ne _ (List.ne_of_not_mem_cons hp)]

theorem applyWrappers_cons_eq_some {w : PolicyNodeType} {ws : List PolicyNodeType} {body t : Node}
    (h : applyWrappers (w :: ws) body = some t) :
    ∃ inner X flags, applyWrappers ws body = some inner ∧ inner.flags = some X ∧
      wrapperFlags w X = some flags ∧ t = .withScript w (some flags) inner := by
  simp only [applyWrappers, Option.bind_eq_bind, Option.bind_eq_some] at h
  obtain ⟨inner, hinner, h⟩ := h
  split at h
  · next X hX =>
    simp only [Option.bind_eq_some, Option.some.injEq] at h
    obtain ⟨flags, hflags, rfl⟩ := h
    exact ⟨inner, X, flags, hinner, hX, hflags, rfl⟩
  · cases h

/-- The wrapper the loop reads next carries the flags of the tree below it. -/
theorem flagsAt_writeWrappers {ws : List PolicyNodeType} {body inner : Node} {nodes : List Nat}
    {root : Nat} {a : Arena} (h : applyWrappers ws body = some inner)
    (hlen : nodes.length = ws.length) (hroot : a.flagsAt root = body.flags) :
    (writeWrappers root nodes inner a).flagsAt (nodes.head?.getD root) = inner.flags := by
  cases ws with
  | nil =>
    obtain rfl : nodes = [] := List.eq_nil_of_length_eq_zero hlen
    cases h
    exact hroot
  | cons w ws =>
    obtain ⟨node, nodes, rfl⟩ := List.exists_cons_of_length_eq_add_one hlen
    obtain ⟨inner', X, flags, -, -, -, rfl⟩ := applyWrappers_cons_eq_some h
    simp [Node.flags]

/-- The wrapper loop over the linked wrapper structs computes the flags `applyWrappers`
computes, and leaves the wrapper structs of the tree. -/
theorem wrapperFlagsLoop_linkWrappers {root : Nat} {body : Node} :
    ∀ (ws : List PolicyNodeType) (nodes : List Nat) (a : Arena), nodes.length = ws.length →
      nodes.Nodup → root ∉ nodes → a.flagsAt root = body.flags →
      wrapperFlagsLoop (nodes.head?.getD root) ws.length (linkWrappers root ws nodes a) =
        (applyWrappers ws body).map fun t => writeWrappers root nodes t a
  | [], [], a, _, _, _, _ => rfl
  | [], _ :: _, _, hlen, _, _, _ => absurd hlen (by simp)
  | _ :: _, [], _, hlen, _, _, _ => absurd hlen (by simp)
  | w :: ws, node :: nodes, a, hlen, hnodup, hroot, hflags => by
    have hnode : node ∉ nodes := (List.nodup_cons.mp hnodup).1
    have hlen' : nodes.length = ws.length := by simpa using hlen
    have hflags' : (a.write node (.withScript w none (nodes.head?.getD root))).flagsAt root =
        body.flags := by
      rw [Arena.flagsAt, Arena.write_heap_of_ne _ (List.ne_of_not_mem_cons hroot)]
      exact hflags
    have hlink : (linkWrappers root ws nodes
        (a.write node (.withScript w none (nodes.head?.getD root)))).heap node =
        some (.withScript w none (nodes.head?.getD root)) := by
      rw [linkWrappers_heap_of_not_mem ws _ hnode]
      simp
    rw [List.length_cons, linkWrappers, List.head?_cons, Option.getD_some,
      wrapperFlagsLoop_peel _ _ _ hlink,
      wrapperFlagsLoop_linkWrappers ws nodes _ hlen' (List.nodup_cons.mp hnodup).2
        (List.not_mem_of_not_mem_cons hroot) hflags']
    cases hinner : applyWrappers ws body with
    | none => simp [applyWrappers, hinner]
    | some inner =>
      have hX := flagsAt_writeWrappers hinner hlen' hflags'
      simp only [Option.map_some', Option.some_bind, applyWrappers, hinner, Option.bind_eq_bind]
      simp only [wrapperFlagsStep, writeWrappers_heap_of_not_mem _ _ hnode, Arena.write_heap_self,
        Option.bind_eq_bind, hX]
      cases inner.flags with
      | none => rfl
      | some X =>
        dsimp only
        cases wrapperFlags w X with
        | none => rfl
        | some flags =>
          simp [writeWrappers_write _ _ _ hnode]

section
variable {sizes : StructSizes}

/-- The wrapper structs are allocated one after the other, the first at the aligned position. -/
theorem allocWrappers_spec : ∀ {n : Nat} {a : Arena} {nodes : List Nat} {a' : Arena},
    allocWrappers sizes n a = some (nodes, a') →
      a.Grows a' ∧ nodes.length = n ∧ nodes.Nodup ∧ (∀ p ∈ nodes, a.offset ≤ p ∧ p < a'.offset) ∧
        nodes.head?.getD (alignUp a'.offset) = alignUp a.offset
  | 0, a, nodes, a', h => by
    cases h
    exact ⟨.refl a, rfl, List.nodup_nil, by simp, rfl⟩
  | n + 1, a, nodes, a', h => by
    simp only [allocWrappers, Option.bind_eq_bind, Option.bind_eq_some, Option.some.injEq,
      Prod.mk.injEq, Prod.exists] at h
    obtain ⟨p, a1, halloc, nodes', a2, h2, rfl, rfl⟩ := h
    obtain ⟨hg1, rfl, hoff1⟩ := bufferAlloc_grows halloc
    obtain ⟨hg2, hlen, hnodup, hbounds, -⟩ := allocWrappers_spec h2
    have := sizes.withScript.pos
    have := le_alignUp a.offset
    have := hg2.offset_le
    refine ⟨hg1.trans hg2, by simp [hlen], List.nodup_cons.mpr ⟨fun hp => ?_, hnodup⟩,
      fun q hq => ?_, rfl⟩
    · have := (hbounds _ hp).1
      omega
    · rcases List.mem_cons.mp hq with rfl | hq
      · omega
      · have := hbounds q hq
        omega

/-- The layout of a wrapper chain: the wrapper structs, then the body, then the wrapper structs
written from the innermost out. -/
theorem storeNode_applyWrappers {body : Node} :
    ∀ {ws : List PolicyNodeType} {t : Node} (a : Arena), applyWrappers ws body = some t →
      storeNode sizes a t = (allocWrappers sizes ws.length a).bind fun (nodes, a1) =>
        (storeNode sizes a1 body).map (writeWrappers (alignUp a1.offset) nodes t)
  | [], t, a, h => by
    cases h
    simp only [List.length_nil, allocWrappers, Option.some_bind]
    exact Option.map_id'.symm
  | w :: ws, t, a, h => by
    obtain ⟨inner, X, flags, hinner, -, hflags, rfl⟩ := applyWrappers_cons_eq_some h
    have hw : w.isWrapper := isWrapper_of_wrapperFlags hflags
    simp only [storeNode, hw, if_true, List.length_cons, allocWrappers, Option.bind_eq_bind,
      Option.bind_assoc]
    cases bufferAlloc a sizes.withScript with
    | none => rfl
    | some p =>
      obtain ⟨node, a1⟩ := p
      simp only [Option.some_bind, storeNode_applyWrappers a1 hinner, Option.bind_assoc]
      cases hws : allocWrappers sizes ws.length a1 with
      | none => rfl
      | some q =>
        obtain ⟨nodes, a2⟩ := q
        have hhead := (allocWrappers_spec hws).2.2.2.2
        simp [hhead, Option.bind_map, Option.map_eq_bind, Function.comp_def,
          Option.bind_assoc]

theorem bind_applyWrappers_storeNode {β : Type} {ws : List PolicyNodeType} {body : Node}
    (a : Arena) (f : Arena → β) :
    (applyWrappers ws body).bind (fun t => (storeNode sizes a t).map f) =
      (allocWrappers sizes ws.length a).bind fun (nodes, a1) => (storeNode sizes a1 body).bind
        fun a2 => (applyWrappers ws body).map fun t => f (writeWrappers (alignUp a1.offset) nodes t a2) := by
  cases h : applyWrappers ws body with
  | none => simp
  | some t =>
    simp [storeNode_applyWrappers a h, Option.bind_map, Option.map_eq_bind, Function.comp_def,
      Option.bind_assoc]

end

end WalletPolicy
