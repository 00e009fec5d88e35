import Mathlib.Data.List.Nodup

/-! Singly linked queues in a heap.

A node holds a value and the address of the next one. `Chain` reads the cells
off the heap, from the head to the null pointer; `Queue` adds a tail pointer at
the last of them. Linking a fresh node after the tail appends to the list
(`Queue.push`), moving the head on takes its first (`Queue.pop`). -/
namespace SystemMonitor.Lib.Linked

variable {α : Type}

structure Node (α : Type) where
  value : α
  next : Option Nat
  deriving DecidableEq

abbrev Heap (α : Type) := Nat → Option (Node α)

def write (heap : Heap α) (i : Nat) (node : Node α) : Heap α := fun j => if j = i then some node else heap j

def free (heap : Heap α) (i : Nat) : Heap α := fun j => if j = i then none else heap j

/-- `heap[i]->next = next`. -/
def setNext (heap : Heap α) (i : Nat) (next : Option Nat) : Heap α :=
  fun j => if j = i then (heap i).map fun node => {node with next} else heap j

/-- The heap with a new node linked after the tail, if there is one. -/
def link (heap : Heap α) (tail : Option Nat) (i : Nat) (x : α) : Heap α :=
  match tail with
  | some t => setNext (write heap i ⟨x, none⟩) t (some i)
  | none => write heap i ⟨x, none⟩

/-- Linking allocates the new node and nothing else. -/
theorem link_eq_none (heap : Heap α) (tail : Option Nat) (i j : Nat) (x : α) :
    link heap tail i x j = none ↔ j ≠ i ∧ heap j = none := by
  have hwrite : write heap i ⟨x, none⟩ j = none ↔ j ≠ i ∧ heap j = none := by
    unfold write
    split
    · rename_i hsame
      simp [hsame]
    · rename_i hother
      simp [hother]
  cases tail with
  | none => exact hwrite
  | some t =>
    rw [← hwrite]
    simp only [link, setNext]
    split
    · rename_i hsame
      rw [hsame, Option.map_eq_none_iff]
    · rfl

/-- The head of a queue after a new node was linked. -/
def linkHead (head tail : Option Nat) (i : Nat) : Option Nat := if tail = none then some i else head

/-- The cells from an address to the end, each with its own. -/
inductive Chain (heap : Heap α) : Option Nat → List (Nat × α) → Prop where
  | nil : Chain heap none []
  | cons {i : Nat} {x : α} {next : Option Nat} {rest : List (Nat × α)} (hnode : heap i = some ⟨x, next⟩)
    (htail : Chain heap next rest) : Chain heap (some i) ((i, x) :: rest)

namespace Chain
variable {heap : Heap α} {head : Option Nat} {cells : List (Nat × α)}

theorem eq_nil (h : Chain heap none cells) : cells = [] := by
  cases h
  rfl

/-- Every cell is there. -/
theorem allocated (h : Chain heap head cells) : ∀ c ∈ cells, ∃ next, heap c.1 = some ⟨c.2, next⟩ := by
  induction h with
  | nil =>
    intro c hc
    cases hc
  | cons hnode htail ih =>
    intro c hc
    rcases List.mem_cons.mp hc with rfl | hc
    · exact ⟨_, hnode⟩
    · exact ih c hc

/-- What is not a cell may change. -/
theorem congr {other : Heap α} (h : Chain heap head cells) (hsame : ∀ c ∈ cells, other c.1 = heap c.1) :
    Chain other head cells := by
  induction h with
  | nil => exact .nil
  | cons hnode htail ih =>
    refine .cons ((hsame _ (List.mem_cons_self ..)).trans hnode) (ih ?_)
    intro c hc
    exact hsame c (List.mem_cons_of_mem _ hc)

/-- Linking a new last cell after the old one. -/
theorem snoc {i : Nat} {x : α} (h : Chain heap head cells) (hdistinct : (cells.map Prod.fst).Nodup)
    (hfresh : heap i = none) {last : Nat × α} (hlast : cells.getLast? = some last) :
    Chain (setNext (write heap i ⟨x, none⟩) last.1 (some i)) head (cells ++ [(i, x)]) := by
  induction h with
  | nil => cases hlast
  | @cons j y next rest hnode htail ih =>
    have hij : i ≠ j := by
      intro hsame
      rw [← hsame, hfresh] at hnode
      cases hnode
    rw [List.map_cons, List.nodup_cons] at hdistinct
    cases rest with
    | nil =>
      cases htail
      cases hlast
      refine .cons (show _ = some (Node.mk y (some i)) from ?_) (.cons ?_ .nil)
      · simp [setNext, write, hij.symm, hnode]
      · simp [setNext, write, hij]
    | cons c rest =>
      have hlast' : (c :: rest).getLast? = some last := by
        rw [List.getLast?_cons_cons] at hlast
        exact hlast
      refine .cons (show _ = some (Node.mk y next) from ?_) (ih hdistinct.2 hlast')
      have hother : j ≠ last.1 := by
        intro hsame
        rw [hsame] at hdistinct
        exact hdistinct.1 (List.mem_map.mpr ⟨last, List.mem_of_getLast? hlast', rfl⟩)
      simp [setNext, write, hother, hij.symm, hnode]

end Chain

/-- A chain whose last cell the tail points at, the cells at different addresses. -/
structure Queue (heap : Heap α) (head tail : Option Nat) (cells : List (Nat × α)) : Prop where
  chain : Chain heap head cells
  tail : tail = cells.getLast?.map Prod.fst
  distinct : (cells.map Prod.fst).Nodup

namespace Queue
variable {heap : Heap α} {head tail : Option Nat} {cells : List (Nat × α)}

theorem empty (heap : Heap α) : Queue heap none none [] := ⟨.nil, rfl, List.nodup_nil⟩

theorem head_eq_none (h : Queue heap head tail cells) : head = none ↔ cells = [] := by
  constructor
  · intro hnone
    subst hnone
    exact h.chain.eq_nil
  · intro hnil
    subst hnil
    cases h.chain
    rfl

theorem tail_eq_none (h : Queue heap head tail cells) : tail = none ↔ cells = [] := by
  rw [h.tail, Option.map_eq_none_iff, List.getLast?_eq_none_iff]

/-- An address outside the heap is that of no cell. -/
theorem not_mem {i : Nat} (h : Queue heap head tail cells) (hfresh : heap i = none) : i ∉ cells.map Prod.fst := by
  intro hmem
  obtain ⟨c, hc, rfl⟩ := List.mem_map.mp hmem
  obtain ⟨next, hnode⟩ := h.chain.allocated c hc
  rw [hfresh] at hnode
  cases hnode

/-- A fresh node after the tail, or as the head of an empty queue. -/
theorem push {i : Nat} (x : α) (h : Queue heap head tail cells) (hfresh : heap i = none) :
    Queue (link heap tail i x) (linkHead head tail i) (some i) (cells ++ [(i, x)]) := by
  have hnew := h.not_mem hfresh
  refine ⟨?_, by simp, ?_⟩
  · cases hlast : cells.getLast? with
    | none =>
      have hnil := List.getLast?_eq_none_iff.mp hlast
      have htail := h.tail_eq_none.mpr hnil
      rw [hnil, htail]
      exact .cons (by simp [link, write]) .nil
    | some last =>
      have htail : tail = some last.1 := by
        rw [h.tail, hlast]
        rfl
      rw [htail]
      exact h.chain.snoc h.distinct hfresh hlast
  · rw [List.map_append, List.nodup_append]
    refine ⟨h.distinct, List.nodup_singleton _, ?_⟩
    intro a ha b hb hab
    rw [hab, List.mem_singleton.mp hb] at ha
    exact hnew ha

/-- The first cell is unlinked. -/
theorem pop {i : Nat} (h : Queue heap (some i) tail cells) :
    ∃ x next rest, heap i = some ⟨x, next⟩ ∧ cells = (i, x) :: rest ∧ i ∉ rest.map Prod.fst ∧
      Queue heap next (if next = none then none else tail) rest := by
  obtain ⟨hchain, htail, hdistinct⟩ := h
  cases hchain with
  | @cons _ x next rest hnode hrest =>
    rw [List.map_cons, List.nodup_cons] at hdistinct
    refine ⟨x, next, rest, hnode, rfl, hdistinct.1, hrest, ?_, hdistinct.2⟩
    cases rest with
    | nil =>
      cases hrest
      rfl
    | cons c rest =>
      cases hrest
      rw [if_neg (by simp), htail, List.getLast?_cons_cons]

/-- Freeing what is not in the queue. -/
theorem free {i : Nat} (h : Queue heap head tail cells) (hother : i ∉ cells.map Prod.fst) :
    Queue (Linked.free heap i) head tail cells := by
  refine ⟨h.chain.congr ?_, h.tail, h.distinct⟩
  intro c hc
  have hne : c.1 ≠ i := by
    intro hsame
    exact hother (hsame ▸ List.mem_map_of_mem hc)
  simp [Linked.free, hne]

end Queue

end SystemMonitor.Lib.Linked
