import Mathlib.Data.List.GetD
import Mathlib.Data.List.Induction
import Mathlib.Tactic.ByContra
import ThesisTrace.Library.Transaction

/-!
# Straight-line dataflow plans

A plan is a list of nodes, each an operation on the values of earlier nodes. `run` evaluates the
nodes in order and keeps every value. `share` interns identical nodes; `runReleasing` drops a value
after its last use. Both compute the value that `run` computes, and no released value is read.
-/

namespace Dataflow
open Transaction

universe u v

variable {Op : Type*} {ε : Type v} {V : Type u}

structure Node (Op : Type*) where
  op : Op
  inputs : List ℕ
  deriving DecidableEq

/-- Inputs of a node stand before it. -/
def WellFormed (nodes : List (Node Op)) : Prop :=
  ∀ (index : ℕ) (node : Node Op), nodes[index]? = some node →
    ∀ input ∈ node.inputs, input < index

lemma WellFormed.of_append {nodes rest : List (Node Op)} (h : WellFormed (nodes ++ rest)) :
    WellFormed nodes := by
  intro index node hnode
  obtain ⟨hlt, -⟩ := List.getElem?_eq_some_iff.mp hnode
  exact h index node (by rwa [List.getElem?_append_left hlt])

lemma WellFormed.last {nodes : List (Node Op)} {node : Node Op}
    (h : WellFormed (nodes ++ [node])) : ∀ input ∈ node.inputs, input < nodes.length :=
  h nodes.length node (by simp)

lemma WellFormed.concat {nodes : List (Node Op)} {node : Node Op} (h : WellFormed nodes)
    (hnode : ∀ input ∈ node.inputs, input < nodes.length) : WellFormed (nodes ++ [node]) := by
  intro index other hother
  by_cases hlt : index < nodes.length
  · rw [List.getElem?_append_left hlt] at hother
    exact h index other hother
  · have hlength : index = nodes.length := by
      obtain ⟨hbound, -⟩ := List.getElem?_eq_some_iff.mp hother
      rw [List.length_append, List.length_singleton] at hbound
      omega
    subst hlength
    rw [List.getElem?_append_right (Nat.le_refl _), Nat.sub_self] at hother
    cases hother
    exact hnode

/-! ### Evaluation -/

/-- The value of a slot; a released slot and a slot that does not exist have none. -/
def slotValue (slots : List (Option V)) (index : ℕ) : Option V :=
  slots[index]?.join

def readSlots (slots : List (Option V)) (inputs : List ℕ) : List (Option V) :=
  inputs.map (slotValue slots)

lemma slotValue_append_of_lt {slots rest : List (Option V)} {index : ℕ}
    (h : index < slots.length) : slotValue (slots ++ rest) index = slotValue slots index := by
  unfold slotValue
  rw [List.getElem?_append_left h]

lemma slotValue_concat (slots : List (Option V)) (value : Option V) :
    slotValue (slots ++ [value]) slots.length = value := by
  unfold slotValue
  simp

lemma slotValue_eq_none {slots : List (Option V)} {index : ℕ} (h : slots.length ≤ index) :
    slotValue slots index = none := by
  unfold slotValue
  rw [List.getElem?_eq_none h]
  rfl

/-- The meaning of an operation; the value of an input can be missing. -/
abbrev Apply (Op : Type*) (ε : Type v) (V : Type u) := Op → List (Option V) → Except ε V

def runNode (apply : Apply Op ε V) (slots : List (Option V)) (node : Node Op) :
    Except ε (List (Option V)) := do
  let value ← apply node.op (readSlots slots node.inputs)
  return slots ++ [some value]

def run (apply : Apply Op ε V) (nodes : List (Node Op)) : Except ε (List (Option V)) :=
  nodes.foldlM (runNode apply) []

lemma run_concat_ok {apply : Apply Op ε V} {nodes : List (Node Op)} {node : Node Op}
    {slots : List (Option V)} :
    run apply (nodes ++ [node]) = .ok slots ↔ ∃ prior value, run apply nodes = .ok prior
      ∧ apply node.op (readSlots prior node.inputs) = .ok value ∧ slots = prior ++ [some value] := by
  unfold run
  simp only [List.foldlM_append, bind_ok_iff, List.foldlM_cons, List.foldlM_nil, pure_ok_iff,
    runNode]
  constructor
  · rintro ⟨prior, hprior, _, ⟨value, hvalue, rfl⟩, rfl⟩
    exact ⟨prior, value, hprior, hvalue, rfl⟩
  · rintro ⟨prior, value, hprior, hvalue, rfl⟩
    exact ⟨prior, hprior, _, ⟨value, hvalue, rfl⟩, rfl⟩

lemma run_length {apply : Apply Op ε V} {nodes : List (Node Op)} {slots : List (Option V)}
    (h : run apply nodes = .ok slots) : slots.length = nodes.length := by
  induction nodes using List.reverseRecOn generalizing slots with
  | nil =>
    cases h
    rfl
  | append_singleton nodes node ih =>
    obtain ⟨prior, value, hprior, -, rfl⟩ := run_concat_ok.mp h
    rw [List.length_append, List.length_append, ih hprior]
    rfl

/-- Every slot of a completed evaluation has a value. -/
lemma run_isSome {apply : Apply Op ε V} {nodes : List (Node Op)} {slots : List (Option V)}
    (h : run apply nodes = .ok slots) {index : ℕ} (hindex : index < nodes.length) :
    (slotValue slots index).isSome = true := by
  induction nodes using List.reverseRecOn generalizing slots with
  | nil => exact absurd hindex (Nat.not_lt_zero _)
  | append_singleton nodes node ih =>
    obtain ⟨prior, value, hprior, -, rfl⟩ := run_concat_ok.mp h
    have hlength := run_length hprior
    by_cases hlt : index < nodes.length
    · rw [slotValue_append_of_lt (by omega)]
      exact ih hprior hlt
    · have heq : index = prior.length := by
        rw [List.length_append, List.length_singleton] at hindex
        omega
      rw [heq, slotValue_concat]
      rfl

/-- A run only sees the operations of its nodes. -/
lemma run_congr {apply apply' : Apply Op ε V} {nodes : List (Node Op)}
    (h : ∀ node ∈ nodes, ∀ arguments, apply node.op arguments = apply' node.op arguments) :
    run apply nodes = run apply' nodes := by
  unfold run
  generalize ([] : List (Option V)) = slots
  induction nodes generalizing slots with
  | nil => rfl
  | cons node nodes ih =>
    rw [List.foldlM_cons, List.foldlM_cons]
    unfold runNode
    rw [h node List.mem_cons_self]
    congr 1
    funext next
    exact ih (fun other hother => h other (List.mem_cons_of_mem _ hother)) next

/-- The slots of a prefix of a plan are a prefix of its slots. -/
lemma run_append_prefix {apply : Apply Op ε V} {nodes rest : List (Node Op)}
    {slots : List (Option V)} (h : run apply (nodes ++ rest) = .ok slots) :
    ∃ prior later, run apply nodes = .ok prior ∧ slots = prior ++ later := by
  induction rest using List.reverseRecOn generalizing slots with
  | nil => exact ⟨slots, [], by rwa [List.append_nil] at h, (List.append_nil _).symm⟩
  | append_singleton rest node ih =>
    rw [← List.append_assoc] at h
    obtain ⟨middle, value, hmiddle, -, rfl⟩ := run_concat_ok.mp h
    obtain ⟨prior, later, hprior, rfl⟩ := ih hmiddle
    exact ⟨prior, later ++ [some value], hprior, List.append_assoc _ _ _⟩

/-- In a completed evaluation every node has the value of its operation on its inputs. -/
lemma run_node {apply : Apply Op ε V} {nodes : List (Node Op)} {slots : List (Option V)}
    (hnodes : WellFormed nodes) (h : run apply nodes = .ok slots) {index : ℕ} {node : Node Op}
    (hnode : nodes[index]? = some node) :
    ∃ value, apply node.op (readSlots slots node.inputs) = .ok value
      ∧ slotValue slots index = some value := by
  obtain ⟨hlt, -⟩ := List.getElem?_eq_some_iff.mp hnode
  have hsplit : nodes = (nodes.take index ++ [node]) ++ nodes.drop (index + 1) := by
    rw [List.append_assoc, List.singleton_append, ← (List.getElem?_eq_some_iff.mp hnode).2,
      List.getElem_cons_drop, List.take_append_drop]
  rw [hsplit] at h
  obtain ⟨upTo, later, hupTo, rfl⟩ := run_append_prefix h
  obtain ⟨prior, value, hprior, hvalue, rfl⟩ := run_concat_ok.mp hupTo
  have hlength : prior.length = index := by
    rw [run_length hprior, List.length_take]
    omega
  have hinputs : readSlots (prior ++ [some value] ++ later) node.inputs
      = readSlots prior node.inputs := by
    apply List.map_congr_left
    intro input hinput
    have hbound := hnodes index node hnode input hinput
    rw [List.append_assoc, slotValue_append_of_lt (by omega)]
  refine ⟨value, by rw [hinputs, hvalue], ?_⟩
  rw [slotValue_append_of_lt (by simp [hlength]), ← hlength, slotValue_concat]

/-! ### Sharing -/

section Sharing

variable [DecidableEq Op]

/-- Interned nodes and, for every original node, the position of its interned copy. -/
structure Shared (Op : Type*) where
  nodes : List (Node Op) := []
  remapped : List ℕ := []

def remap (remapped : List ℕ) (inputs : List ℕ) : List ℕ :=
  inputs.map fun input => remapped.getD input 0

/-- Intern one node: its inputs are renamed first, and a node that is already there is reused. -/
def shareNode (state : Shared Op) (node : Node Op) : Shared Op :=
  let shared : Node Op := { node with inputs := remap state.remapped node.inputs }
  match state.nodes.idxOf? shared with
  | some position => { state with remapped := state.remapped ++ [position] }
  | none => ⟨state.nodes ++ [shared], state.remapped ++ [state.nodes.length]⟩

def share (nodes : List (Node Op)) : Shared Op :=
  nodes.foldl shareNode {}

lemma getElem?_of_idxOf?_eq_some {nodes : List (Node Op)} {node : Node Op} {position : ℕ}
    (h : nodes.idxOf? node = some position) : nodes[position]? = some node := by
  obtain ⟨hlt, heq, -⟩ := List.findIdx?_eq_some_iff_getElem.mp h
  rw [List.getElem?_eq_getElem hlt, eq_of_beq heq]

lemma share_concat (nodes : List (Node Op)) (node : Node Op) :
    share (nodes ++ [node]) = shareNode (share nodes) node := by
  unfold share
  rw [List.foldl_append]
  rfl

lemma share_remapped_length (nodes : List (Node Op)) :
    (share nodes).remapped.length = nodes.length := by
  induction nodes using List.reverseRecOn with
  | nil => rfl
  | append_singleton nodes node ih =>
    rw [share_concat, shareNode]
    split <;> simp [ih]

lemma share_remapped_lt (nodes : List (Node Op)) :
    ∀ position ∈ (share nodes).remapped, position < (share nodes).nodes.length := by
  induction nodes using List.reverseRecOn with
  | nil => simp [share]
  | append_singleton nodes node ih =>
    rw [share_concat, shareNode]
    split
    · next position hposition =>
      intro other hother
      rcases List.mem_append.mp hother with hold | hnew
      · exact ih other hold
      · rw [List.mem_singleton.mp hnew]
        exact (List.getElem?_eq_some_iff.mp (getElem?_of_idxOf?_eq_some hposition)).1
    · intro other hother
      rw [List.length_append, List.length_singleton]
      rcases List.mem_append.mp hother with hold | hnew
      · exact Nat.lt_succ_of_lt (ih other hold)
      · rw [List.mem_singleton.mp hnew]
        exact Nat.lt_succ_self _

lemma remap_lt {nodes : List (Node Op)} {input : ℕ} (h : input < nodes.length) :
    (share nodes).remapped.getD input 0 < (share nodes).nodes.length := by
  have hlength : input < (share nodes).remapped.length := by rwa [share_remapped_length]
  rw [List.getD_eq_getElem _ _ hlength]
  exact share_remapped_lt nodes _ (List.getElem_mem hlength)

lemma share_wellFormed {nodes : List (Node Op)} (h : WellFormed nodes) :
    WellFormed (share nodes).nodes := by
  induction nodes using List.reverseRecOn with
  | nil => exact fun _ _ hnode => nomatch hnode
  | append_singleton nodes node ih =>
    have hprior := ih h.of_append
    rw [share_concat, shareNode]
    split
    · exact hprior
    · apply hprior.concat
      intro input hinput
      obtain ⟨original, horiginal, rfl⟩ := List.mem_map.mp hinput
      exact remap_lt (h.last original horiginal)

/-- Sharing keeps the operations of a plan. -/
lemma mem_share_ops {nodes : List (Node Op)} {op : Op} :
    op ∈ (share nodes).nodes.map Node.op ↔ op ∈ nodes.map Node.op := by
  induction nodes using List.reverseRecOn with
  | nil => rfl
  | append_singleton nodes node ih =>
    rw [share_concat, shareNode, List.map_append, List.mem_append, ← ih]
    split
    · next position hposition =>
      have hshared := List.mem_of_getElem? (getElem?_of_idxOf?_eq_some hposition)
      have hmem : node.op ∈ (share nodes).nodes.map Node.op := List.mem_map.mpr ⟨_, hshared, rfl⟩
      simp only [List.map_singleton, List.mem_singleton]
      exact ⟨.inl, fun h => h.elim id fun heq => heq ▸ hmem⟩
    · simp

/-- Interned copies compute the values of the original nodes. -/
theorem run_share {apply : Apply Op ε V} {nodes : List (Node Op)} {slots : List (Option V)}
    (hnodes : WellFormed nodes) (h : run apply nodes = .ok slots) :
    ∃ shared, run apply (share nodes).nodes = .ok shared
      ∧ ∀ index < nodes.length,
        slotValue shared ((share nodes).remapped.getD index 0) = slotValue slots index := by
  induction nodes using List.reverseRecOn generalizing slots with
  | nil => exact ⟨[], rfl, fun _ hlt => absurd hlt (Nat.not_lt_zero _)⟩
  | append_singleton nodes node ih =>
    obtain ⟨prior, value, hprior, hvalue, rfl⟩ := run_concat_ok.mp h
    obtain ⟨shared, hshared, hvalues⟩ := ih hnodes.of_append hprior
    have hreads : readSlots shared (remap (share nodes).remapped node.inputs)
        = readSlots prior node.inputs := by
      unfold readSlots remap
      rw [List.map_map]
      apply List.map_congr_left
      intro input hinput
      exact hvalues input (hnodes.last input hinput)
    have hremapped := share_remapped_length nodes
    have hpriorLength := run_length hprior
    rw [share_concat, shareNode]
    split
    · next position hposition =>
      obtain ⟨again, hagain, hslot⟩ := run_node (share_wellFormed hnodes.of_append) hshared
        (getElem?_of_idxOf?_eq_some hposition)
      rw [hreads, hvalue] at hagain
      cases hagain
      refine ⟨shared, hshared, ?_⟩
      intro index hindex
      by_cases hlt : index < nodes.length
      · rw [List.getD_append _ _ _ _ (by omega), slotValue_append_of_lt (by omega)]
        exact hvalues index hlt
      · have heq : index = nodes.length := by
          rw [List.length_append, List.length_singleton] at hindex
          omega
        rw [heq, ← hremapped, List.getD_append_right _ _ _ _ (Nat.le_refl _), Nat.sub_self,
          List.getD_cons_zero, hslot, hremapped, ← hpriorLength, slotValue_concat]
    · refine ⟨shared ++ [some value],
        run_concat_ok.mpr ⟨shared, value, hshared, by rw [hreads, hvalue], rfl⟩, ?_⟩
      have hsharedLength := run_length hshared
      intro index hindex
      by_cases hlt : index < nodes.length
      · have hposition := remap_lt hlt
        rw [List.getD_append _ _ _ _ (by omega), slotValue_append_of_lt (by omega),
          slotValue_append_of_lt (by omega)]
        exact hvalues index hlt
      · have heq : index = nodes.length := by
          rw [List.length_append, List.length_singleton] at hindex
          omega
        rw [heq, ← hremapped, List.getD_append_right _ _ _ _ (Nat.le_refl _), Nat.sub_self,
          List.getD_cons_zero, ← hsharedLength, slotValue_concat, hremapped, ← hpriorLength,
          slotValue_concat]

end Sharing

/-! ### Release after the last use -/

/-- How often each node is used as an input. -/
def uses (nodes : List (Node Op)) : List ℕ :=
  (nodes.flatMap Node.inputs).foldl (fun counts input => counts.modify input (· + 1))
    (List.replicate nodes.length 0)

/-- Slots, with the number of uses of each node that are still to come. -/
structure Releasing (V : Type u) where
  slots : List (Option V)
  remaining : List ℕ

def releaseInput (root : ℕ) (state : Releasing V) (input : ℕ) : Releasing V :=
  let left := state.remaining.getD input 0 - 1
  { slots := if left = 0 ∧ input ≠ root then state.slots.set input none else state.slots
    remaining := state.remaining.set input left }

def releasingNode (apply : Apply Op ε V) (root : ℕ) (state : Releasing V) (node : Node Op) :
    Except ε (Releasing V) := do
  let value ← apply node.op (readSlots state.slots node.inputs)
  return node.inputs.foldl (releaseInput root) { state with slots := state.slots ++ [some value] }

/-- The state of a releasing evaluation of `nodes` after the nodes `done`. -/
def runReleasingTo (apply : Apply Op ε V) (root : ℕ) (nodes done : List (Node Op)) :
    Except ε (Releasing V) :=
  done.foldlM (releasingNode apply root) ⟨[], uses nodes⟩

def runReleasing (apply : Apply Op ε V) (root : ℕ) (nodes : List (Node Op)) :
    Except ε (Releasing V) :=
  runReleasingTo apply root nodes nodes

/-- Every input that a releasing evaluation reads still has its value. -/
def ReadsLive (apply : Apply Op ε V) (root : ℕ) (nodes : List (Node Op)) : Prop :=
  ∀ done node rest, nodes = done ++ node :: rest → ∀ state,
    runReleasingTo apply root nodes done = .ok state →
      ∀ input ∈ node.inputs, (slotValue state.slots input).isSome = true

/-- What a releasing state keeps: the counts of the uses to come, and the value of the root and
of every node with such a use. -/
structure Live (slots : List (Option V)) (root : ℕ) (pending : List ℕ) (state : Releasing V) :
    Prop where
  remaining : ∀ index, state.remaining.getD index 0 = pending.count index
  length : state.slots.length = slots.length
  live : ∀ index, index = root ∨ index ∈ pending →
    slotValue state.slots index = slotValue slots index

lemma getD_modify (counts : List ℕ) (input index : ℕ) :
    (counts.modify input (· + 1)).getD index 0
      = counts.getD index 0 + if input = index ∧ index < counts.length then 1 else 0 := by
  rw [List.getD_eq_getElem?_getD, List.getD_eq_getElem?_getD, List.getElem?_modify]
  by_cases hlt : index < counts.length
  · rw [List.getElem?_eq_getElem hlt]
    by_cases heq : input = index <;> simp [heq, hlt]
  · rw [List.getElem?_eq_none (by omega)]
    simp [hlt]

lemma foldl_modify (pending : List ℕ) (counts : List ℕ)
    (h : ∀ input ∈ pending, input < counts.length) (index : ℕ) :
    (pending.foldl (fun counts input => counts.modify input (· + 1)) counts).getD index 0
      = counts.getD index 0 + pending.count index := by
  induction pending generalizing counts with
  | nil => simp
  | cons input pending ih =>
    have hinput := h input List.mem_cons_self
    rw [List.foldl_cons, ih, getD_modify, List.count_cons]
    · by_cases heq : input = index
      · subst heq
        simp [hinput]
        omega
      · simp [heq]
    · intro other hother
      rw [List.length_modify]
      exact h other (List.mem_cons_of_mem _ hother)

lemma inputs_lt {nodes : List (Node Op)} (h : WellFormed nodes) :
    ∀ input ∈ nodes.flatMap Node.inputs, input < nodes.length := by
  intro input hinput
  obtain ⟨node, hnode, hmem⟩ := List.mem_flatMap.mp hinput
  obtain ⟨index, hindex⟩ := List.getElem?_of_mem hnode
  obtain ⟨hlt, -⟩ := List.getElem?_eq_some_iff.mp hindex
  exact Nat.lt_trans (h index node hindex input hmem) hlt

lemma uses_count {nodes : List (Node Op)} (h : WellFormed nodes) (index : ℕ) :
    (uses nodes).getD index 0 = (nodes.flatMap Node.inputs).count index := by
  unfold uses
  rw [foldl_modify]
  · simp [List.getD_eq_getElem?_getD, List.getElem?_replicate]
    split <;> rfl
  · rw [List.length_replicate]
    exact inputs_lt h

/-- One use less: a node without a later use can go. -/
lemma Live.releaseInput {slots : List (Option V)} {root input : ℕ} {pending : List ℕ}
    {state : Releasing V} (h : Live slots root (input :: pending) state) :
    Live slots root pending (releaseInput root state input) := by
  have hcount := h.remaining input
  rw [List.count_cons_self] at hcount
  have hlt : input < state.remaining.length := by
    by_contra hge
    rw [List.getD_eq_default _ _ (by omega)] at hcount
    omega
  refine ⟨?_, ?_, ?_⟩
  · intro index
    unfold Dataflow.releaseInput
    dsimp only
    by_cases heq : input = index
    · subst heq
      rw [List.getD_eq_getElem?_getD, List.getElem?_set_self hlt]
      simp only [Option.getD_some]
      omega
    · have hother := h.remaining index
      rw [List.count_cons_of_ne heq] at hother
      rw [List.getD_eq_getElem?_getD, List.getElem?_set_ne heq, ← List.getD_eq_getElem?_getD]
      exact hother
  · unfold Dataflow.releaseInput
    dsimp only
    split
    · rw [List.length_set]
      exact h.length
    · exact h.length
  · intro index hindex
    have hkept := h.live index (hindex.imp_right (List.mem_cons_of_mem _))
    unfold Dataflow.releaseInput
    dsimp only
    split
    · next hlast =>
      have hne : input ≠ index := by
        rintro rfl
        rcases hindex with hroot | hmem
        · exact hlast.2 hroot
        · have hpos := List.count_pos_iff.mpr hmem
          omega
      unfold slotValue at hkept ⊢
      rw [List.getElem?_set_ne hne]
      exact hkept
    · exact hkept

lemma Live.releaseInputs {slots : List (Option V)} {root : ℕ} {inputs pending : List ℕ}
    {state : Releasing V} (h : Live slots root (inputs ++ pending) state) :
    Live slots root pending (inputs.foldl (Dataflow.releaseInput root) state) := by
  induction inputs generalizing state with
  | nil => exact h
  | cons input inputs ih => exact ih h.releaseInput

/-- A releasing evaluation follows the plain one. -/
lemma runReleasingTo_live {apply : Apply Op ε V} (root : ℕ) {nodes done rest : List (Node Op)}
    {slots : List (Option V)} (hnodes : WellFormed nodes) (hsplit : nodes = done ++ rest)
    (h : run apply done = .ok slots) :
    ∃ state, runReleasingTo apply root nodes done = .ok state
      ∧ Live slots root (rest.flatMap Node.inputs) state := by
  induction done using List.reverseRecOn generalizing rest slots with
  | nil =>
    cases h
    refine ⟨_, rfl, ?_, rfl, fun _ _ => rfl⟩
    intro index
    rw [uses_count hnodes, hsplit]
    rfl
  | append_singleton done node ih =>
    obtain ⟨prior, value, hprior, hvalue, rfl⟩ := run_concat_ok.mp h
    have hsplit' : nodes = done ++ node :: rest := by rw [hsplit, List.append_assoc]; rfl
    obtain ⟨state, hstate, hlive⟩ := ih hsplit' hprior
    rw [List.flatMap_cons] at hlive
    have hreads : readSlots state.slots node.inputs = readSlots prior node.inputs := by
      apply List.map_congr_left
      intro input hinput
      exact hlive.live input (.inr (List.mem_append_left _ hinput))
    have hinputs : ∀ input ∈ node.inputs ++ rest.flatMap Node.inputs, input < nodes.length := by
      intro input hinput
      apply inputs_lt hnodes
      rw [hsplit', List.flatMap_append, List.flatMap_cons]
      exact List.mem_append_right _ hinput
    have happended : Live (prior ++ [some value]) root (node.inputs ++ rest.flatMap Node.inputs)
        { state with slots := state.slots ++ [some value] } := by
      refine ⟨hlive.remaining, ?_, ?_⟩
      · rw [List.length_append, List.length_append, hlive.length]
      · intro index hindex
        have hkept := hlive.live index hindex
        by_cases hlt : index < prior.length
        · rw [slotValue_append_of_lt hlt, slotValue_append_of_lt (by rwa [hlive.length]), hkept]
        · by_cases heq : index = prior.length
          · have hconcat := slotValue_concat state.slots (some value)
            rw [hlive.length] at hconcat
            rw [heq, slotValue_concat, hconcat]
          · have hlength := hlive.length
            rw [slotValue_eq_none (by simp; omega), slotValue_eq_none (by simp; omega)]
    refine ⟨_, ?_, happended.releaseInputs⟩
    unfold runReleasingTo at hstate ⊢
    rw [List.foldlM_append, hstate]
    simp only [ok_bind, List.foldlM_cons, List.foldlM_nil, releasingNode, hreads, hvalue]
    rfl

/-- A releasing evaluation computes the root, and reads no released value. -/
theorem runReleasing_root {apply : Apply Op ε V} {nodes : List (Node Op)}
    {slots : List (Option V)} (hnodes : WellFormed nodes) (h : run apply nodes = .ok slots)
    (root : ℕ) :
    (∃ state, runReleasing apply root nodes = .ok state
      ∧ slotValue state.slots root = slotValue slots root) ∧ ReadsLive apply root nodes := by
  constructor
  · obtain ⟨state, hstate, hlive⟩ :=
      runReleasingTo_live root hnodes (List.append_nil nodes).symm h
    exact ⟨state, hstate, hlive.live root (.inl rfl)⟩
  · intro done node rest hsplit state hstate input hinput
    rw [hsplit] at h
    obtain ⟨prior, later, hprior, rfl⟩ := run_append_prefix h
    obtain ⟨state', hstate', hlive⟩ := runReleasingTo_live root hnodes hsplit hprior
    rw [hstate] at hstate'
    cases hstate'
    rw [List.flatMap_cons] at hlive
    rw [hlive.live input (.inr (List.mem_append_left _ hinput))]
    have hnode : nodes[done.length]? = some node := by rw [hsplit]; simp
    exact run_isSome hprior (hnodes _ node hnode input hinput)

end Dataflow
