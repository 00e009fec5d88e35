import Mathlib.Algebra.BigOperators.Group.Multiset.Basic
import Mathlib.Data.Multiset.Range
import Mathlib.Tactic.Abel
import SystemMonitor.Process.Turns

/-! Who owns the retained strings.

A scan stores new strings beside the ones it displaces and decides only at its
end which of the two to release. `Owns` says that every string ever allocated is
retained by exactly one field of one sample or was freed exactly once: nothing
leaks, nothing is freed twice, nothing retained is dangling. Both ends of a scan
keep it (`Progress.owns_rollback`, `Progress.owns_commit`).

The counting rests on one identity. Comparing a field before and after, the
string the new value displaces and the string it brings balance, whichever of
the two pointers is null or whether they are the same (`refs_add_displaced`). -/
namespace SystemMonitor.Process
open Lib Journal

/-! ### Counting references -/

def refs {n : Nat} : Option (HeapString n) → Multiset Nat
  | none => 0
  | some string => {string.ref}

/-- What `if (p != q) free(p)` releases. -/
def displaced {n : Nat} (p q : Option (HeapString n)) : Multiset Nat :=
  if p.map HeapString.ref ≠ q.map HeapString.ref then refs p else 0

theorem refs_congr {n : Nat} {p q : Option (HeapString n)} (h : p.map HeapString.ref = q.map HeapString.ref) :
    refs p = refs q := by
  cases p <;> cases q <;> simp_all [refs]

theorem refs_add_displaced {n : Nat} (p q : Option (HeapString n)) :
    refs q + displaced p q = refs p + displaced q p := by
  unfold displaced
  by_cases h : p.map HeapString.ref = q.map HeapString.ref
  · rw [if_neg (not_not.mpr h), if_neg (not_not.mpr h.symm), refs_congr h]
  · rw [if_pos h, if_pos (Ne.symm h), add_comm]

def owned (s : PreviousProcessSample) : Multiset Nat :=
  refs s.command.value + refs s.executable.value + refs s.cgroup.value

def displacedBy (before current : PreviousProcessSample) : Multiset Nat :=
  displaced before.command.value current.command.value + displaced before.executable.value current.executable.value +
    displaced before.cgroup.value current.cgroup.value

theorem owned_add_displacedBy (before current : PreviousProcessSample) :
    owned current + displacedBy before current = owned before + displacedBy current before := by
  have hcommand := refs_add_displaced before.command.value current.command.value
  have hexecutable := refs_add_displaced before.executable.value current.executable.value
  have hcgroup := refs_add_displaced before.cgroup.value current.cgroup.value
  ext r
  replace hcommand := congrArg (Multiset.count r) hcommand
  replace hexecutable := congrArg (Multiset.count r) hexecutable
  replace hcgroup := congrArg (Multiset.count r) hcgroup
  simp only [owned, displacedBy, Multiset.count_add] at *
  omega

/-- A new sample owns nothing, so all it ends up with was brought by the scan. -/
theorem displacedBy_new (pid : Nat) (current : PreviousProcessSample) :
    displacedBy current {pid := pid} = owned current := by
  have h := owned_add_displacedBy {pid := pid} current
  have hnone : owned {pid := pid} = 0 := rfl
  have hnothing : displacedBy {pid := pid} current = 0 := by simp [displacedBy, displaced, refs]
  rwa [hnone, hnothing, add_zero, zero_add, eq_comm] at h

/-! ### What the releases free -/

theorem free_freed {n : Nat} (heap : Heap) (p : Option (HeapString n)) :
    ((heap.free p).freed : Multiset Nat) = refs p + heap.freed := by
  cases p with
  | none => simp [Heap.free, refs]
  | some string => simp [Heap.free, refs]

theorem freeUnless_freed {n : Nat} (heap : Heap) (p q : Option (HeapString n)) :
    ((heap.freeUnless p q).freed : Multiset Nat) = displaced p q + heap.freed := by
  unfold Heap.freeUnless displaced
  split
  · exact free_freed heap p
  · rw [zero_add]

@[simp] theorem free_next {n : Nat} (heap : Heap) (p : Option (HeapString n)) : (heap.free p).next = heap.next := by
  cases p <;> rfl

@[simp] theorem freeUnless_next {n : Nat} (heap : Heap) (p q : Option (HeapString n)) :
    (heap.freeUnless p q).next = heap.next := by
  unfold Heap.freeUnless
  split
  · exact free_next heap p
  · rfl

theorem sampleMetadataFree_freed (heap : Heap) (s : PreviousProcessSample) :
    ((sampleMetadataFree heap s).freed : Multiset Nat) = owned s + heap.freed := by
  simp only [sampleMetadataFree, free_freed, owned]
  abel

theorem foldl_sampleMetadataFree (samples : List PreviousProcessSample) (heap : Heap) :
    ((samples.foldl sampleMetadataFree heap).freed : Multiset Nat) = (samples.map owned).sum + heap.freed ∧
      (samples.foldl sampleMetadataFree heap).next = heap.next := by
  induction samples generalizing heap with
  | nil => simp
  | cons s rest ih =>
    obtain ⟨hfreed, hnext⟩ := ih (sampleMetadataFree heap s)
    refine ⟨?_, ?_⟩
    · rw [List.foldl_cons, hfreed, sampleMetadataFree_freed, List.map_cons, List.sum_cons]
      abel
    · rw [List.foldl_cons, hnext]
      simp [sampleMetadataFree]

/-- The rollback releases what the current samples brought. -/
theorem rollbackLoop_freed (samples : List PreviousProcessSample) (heap : Heap)
    (edits : List (PreviousProcessMutation × PreviousProcessSample))
    (hcurrent : ∀ e ∈ edits, samples[e.1.1]? = some e.2) (hdistinct : (edits.map fun e => e.1.1).Nodup) :
    ((rollbackLoop samples heap (edits.map Prod.fst)).2.freed : Multiset Nat) =
      (edits.map fun e => displacedBy e.2 e.1.2).sum + heap.freed ∧
    (rollbackLoop samples heap (edits.map Prod.fst)).2.next = heap.next := by
  induction edits generalizing samples heap with
  | nil => simp [rollbackLoop]
  | cons e rest ih =>
    obtain ⟨⟨i, before⟩, current⟩ := e
    have hi : samples[i]? = some current := hcurrent _ (List.mem_cons_self ..)
    obtain ⟨hfresh, hrest⟩ := List.nodup_cons.mp hdistinct
    have hlater : ∀ e ∈ rest, (samples.set i before)[e.1.1]? = some e.2 := by
      intro e he
      rw [List.getElem?_set_ne]
      · exact hcurrent e (List.mem_cons_of_mem _ he)
      · intro heq
        exact hfresh (List.mem_map.mpr ⟨e, he, heq.symm⟩)
    simp only [List.map_cons, rollbackLoop, rollbackMutation, hi, List.sum_cons]
    refine ⟨?_, ?_⟩
    · rw [(ih _ _ hlater hrest).1]
      simp only [freeUnless_freed, displacedBy]
      abel
    · rw [(ih _ _ hlater hrest).2]
      simp only [freeUnless_next]

/-- The commit releases what the current samples displaced. -/
theorem commitSampleMutations_freed (samples : List PreviousProcessSample) (heap : Heap)
    (edits : List (PreviousProcessMutation × PreviousProcessSample))
    (hcurrent : ∀ e ∈ edits, samples[e.1.1]? = some e.2) :
    ((commitSampleMutations samples heap (edits.map Prod.fst)).freed : Multiset Nat) =
      (edits.map fun e => displacedBy e.1.2 e.2).sum + heap.freed ∧
    (commitSampleMutations samples heap (edits.map Prod.fst)).next = heap.next := by
  induction edits generalizing heap with
  | nil => simp [commitSampleMutations]
  | cons e rest ih =>
    obtain ⟨⟨i, before⟩, current⟩ := e
    have hi : samples[i]? = some current := hcurrent _ (List.mem_cons_self ..)
    have hlater : ∀ e ∈ rest, samples[e.1.1]? = some e.2 := fun e he => hcurrent e (List.mem_cons_of_mem _ he)
    simp only [List.map_cons, commitSampleMutations, hi, List.sum_cons]
    refine ⟨?_, ?_⟩
    · rw [(ih _ hlater).1]
      simp only [freeUnless_freed, displacedBy]
      abel
    · rw [(ih _ hlater).2]
      simp only [freeUnless_next]

/-! ### What a visit stores -/

/-- From `heap` on, exactly the references `stored` were allocated, and nothing was freed. -/
def Stores (heap : Heap) (stored : Multiset Nat) (later : Heap) : Prop :=
  stored + Multiset.range heap.next = Multiset.range later.next ∧ later.freed = heap.freed

theorem Stores.refl (heap : Heap) : Stores heap 0 heap := ⟨zero_add _, rfl⟩

theorem Stores.trans {a b c : Heap} {x y : Multiset Nat} (hab : Stores a x b) (hbc : Stores b y c) :
    Stores a (x + y) c := by
  refine ⟨?_, hbc.2.trans hab.2⟩
  rw [← hbc.1, ← hab.1]
  abel

theorem Stores.next_le {heap later : Heap} {stored : Multiset Nat} (h : Stores heap stored later) :
    heap.next ≤ later.next := by
  have hcard := congrArg Multiset.card h.1
  rw [Multiset.card_add, Multiset.card_range, Multiset.card_range] at hcard
  omega

/-- References below the allocation mark. -/
def Below (heap : Heap) (used : Multiset Nat) : Prop := ∀ r ∈ used, r < heap.next

theorem Below.mono {heap later : Heap} {used : Multiset Nat} (h : Below heap used) (hle : heap.next ≤ later.next) :
    Below later used := fun r hr => Nat.lt_of_lt_of_le (h r hr) hle

@[simp] theorem displaced_self {n : Nat} (p : Option (HeapString n)) : displaced p p = 0 := by
  simp [displaced]

theorem store_stores {n : Nat} (r : RetainedText n) (duplicated : Bool) (now : ℚ) (text : Chars n) (heap : Heap)
    (hbelow : Below heap (refs r.value)) :
    Stores heap (displaced (r.store duplicated now text heap).1.value r.value)
      (r.store duplicated now text heap).2 := by
  unfold RetainedText.store
  by_cases hdup : duplicated
  · rw [if_pos hdup]
    have hne : (some heap.next : Option Nat) ≠ r.value.map HeapString.ref := by
      intro heq
      obtain ⟨string, hs, hr⟩ := Option.map_eq_some_iff.mp heq.symm
      have := hbelow string.ref (by rw [hs]; exact Multiset.mem_singleton_self _)
      omega
    refine ⟨?_, rfl⟩
    have hnew : displaced (some ⟨heap.next, text⟩) r.value = {heap.next} := if_pos hne
    show displaced (some ⟨heap.next, text⟩) r.value + _ = Multiset.range (heap.next + 1)
    rw [hnew, Multiset.range_succ]
    exact Multiset.singleton_add _ _
  · rw [if_neg hdup]
    simpa using Stores.refl heap

theorem refresh_stores {n : Nat} (r : RetainedText n) (same : Bool) (now : ℚ) (collected : Chars n)
    (duplicated : Bool) (heap : Heap) (hbelow : Below heap (refs r.value)) :
    Stores heap (displaced (r.refresh same now collected duplicated heap).2.1.value r.value)
      (r.refresh same now collected duplicated heap).2.2 := by
  unfold RetainedText.refresh
  cases r.serve same now with
  | none => exact store_stores r duplicated now collected heap hbelow
  | some text => simpa using Stores.refl heap

theorem storeCgroup_stores (ctx : ScanContext) (alloc : Allocations) (sample : PreviousProcessSample)
    (row : LsmProcessInfo) (heap : Heap) (hbelow : Below heap (refs sample.cgroup.value)) :
    Stores heap (displaced (storeCgroup ctx alloc sample row heap).1.value sample.cgroup.value)
      (storeCgroup ctx alloc sample row heap).2.2 := by
  unfold storeCgroup
  by_cases hflag : (enrichFlags ctx sample row.instanceId).cgroup
  · rw [if_pos hflag]
    exact store_stores _ _ _ _ heap hbelow
  · rw [if_neg hflag]
    simpa using Stores.refl heap

theorem visitExecutable_stores (ctx : ScanContext) (stat : LinuxProcessStat) (reads : ProcReads)
    (alloc : Allocations) (sample : PreviousProcessSample) (heap : Heap)
    (hbelow : Below heap (refs sample.executable.value)) :
    Stores heap (displaced (visitExecutable ctx stat reads alloc sample heap).2.1.value sample.executable.value)
      (visitExecutable ctx stat reads alloc sample heap).2.2 := by
  unfold visitExecutable
  by_cases hflag : ctx.flags.executable
  · rw [if_pos hflag]
    exact refresh_stores _ _ _ _ _ heap hbelow
  · rw [if_neg hflag]
    simpa using Stores.refl heap

/-- A visit allocates exactly the strings its sample brings. -/
theorem visit_stores (lib : Arithmetic) (ctx : ScanContext) (pid : Nat) (stat : LinuxProcessStat)
    (reads : ProcReads) (alloc : Allocations) (sample : PreviousProcessSample) (heap : Heap)
    (hbelow : Below heap (owned sample)) :
    Stores heap (displacedBy (visit lib ctx pid stat reads alloc sample heap).sample sample)
      (visit lib ctx pid stat reads alloc sample heap).heap := by
  have hrefs : Below heap (refs sample.command.value) ∧ Below heap (refs sample.executable.value) ∧
      Below heap (refs sample.cgroup.value) := by
    refine ⟨?_, ?_, ?_⟩ <;> intro r hr <;> exact hbelow r (by simp [owned, hr])
  have hcommand : Stores heap _ (visitCommand ctx stat reads alloc sample heap).2.2 :=
    refresh_stores _ _ _ _ _ heap hrefs.1
  have hexecutable := visitExecutable_stores ctx stat reads alloc sample _ (hrefs.2.1.mono hcommand.next_le)
  have hboth := hcommand.trans hexecutable
  exact hboth.trans (storeCgroup_stores ctx alloc sample _ _ (hrefs.2.2.mono hboth.next_le))

/-! ### The ends of a scan -/

/-- Every string ever allocated is retained once or was freed once. -/
def Owns (heap : Heap) (samples : List PreviousProcessSample) : Prop :=
  (samples.map owned).sum + heap.freed = Multiset.range heap.next

theorem Owns.start : Owns {} [] := rfl

theorem Owns.nodup {heap : Heap} {samples : List PreviousProcessSample} (h : Owns heap samples) :
    ((samples.map owned).sum + heap.freed).Nodup := by
  rw [show (samples.map owned).sum + heap.freed = _ from h]
  exact Multiset.nodup_range _

theorem mem_sum_owned {samples : List PreviousProcessSample} {s : PreviousProcessSample} (hs : s ∈ samples)
    {r : Nat} (hr : r ∈ owned s) : r ∈ (samples.map owned).sum := by
  induction samples with
  | nil => cases hs
  | cons x rest ih =>
    rw [List.map_cons, List.sum_cons, Multiset.mem_add]
    rcases List.mem_cons.mp hs with rfl | hs
    · exact Or.inl hr
    · exact Or.inr (ih hs)

/-- A retained string was not freed. -/
theorem Owns.live {heap : Heap} {samples : List PreviousProcessSample} (h : Owns heap samples)
    {s : PreviousProcessSample} (hs : s ∈ samples) {r : Nat} (hr : r ∈ owned s) : r ∉ heap.freed := by
  intro hfreed
  have hdisjoint := (Multiset.nodup_add.mp h.nodup).2.2
  exact Multiset.disjoint_left.mp hdisjoint (mem_sum_owned hs hr) hfreed

theorem Owns.below {heap : Heap} {samples : List PreviousProcessSample} (h : Owns heap samples) (pid : Nat) :
    Below heap (owned (retained samples pid)) := by
  intro r hr
  rcases retained_mem_or samples pid with hmem | hnew
  · have hall : r ∈ (samples.map owned).sum + heap.freed := Multiset.mem_add.mpr (Or.inl (mem_sum_owned hmem hr))
    rw [show (samples.map owned).sum + heap.freed = _ from h] at hall
    exact Multiset.mem_range.mp hall
  · rw [hnew] at hr
    exact absurd hr (Multiset.notMem_zero r)

section
variable {lib : Arithmetic} {ctx : ScanContext} {original : List PreviousProcessSample}

/-- What the turns brought is what was allocated since the scan began. -/
theorem Threaded.stores {start final : Heap} {turns : List Turn} (hheap : Threaded lib ctx original start turns final)
    (hbelow : ∀ pid, Below start (owned (retained original pid))) :
    Stores start (turns.map fun t => displacedBy (t.visit lib ctx original).sample (retained original t.pid)).sum
      final := by
  induction turns generalizing start with
  | nil =>
    subst hheap
    exact Stores.refl _
  | cons t rest ih =>
    obtain ⟨hstart, hrest⟩ := hheap
    subst hstart
    have hvisit := visit_stores lib ctx t.pid t.stat t.reads t.alloc (retained original t.pid) t.heap (hbelow t.pid)
    have hlater := ih hrest fun pid => (hbelow pid).mono hvisit.next_le
    rw [List.map_cons, List.sum_cons]
    exact hvisit.trans hlater

/-- The journal with what stands at each of its positions. -/
def edits (lib : Arithmetic) (ctx : ScanContext) (original : List PreviousProcessSample) (turns : List Turn) :
    List (PreviousProcessMutation × PreviousProcessSample) :=
  (turns.filter (·.known original)).map fun t => (t.mutation original, (t.visit lib ctx original).sample)

variable (lib ctx) in
/-- What the known turns displaced and brought balances what the vector owned. -/
theorem owned_overlay (hsorted : StrictlySorted original) (turns : List Turn)
    (hdistinct : (turns.map Turn.pid).Nodup) :
    ((overlay (·.pid) original (after lib ctx original turns)).map owned).sum +
      ((edits lib ctx original turns).map fun e => displacedBy e.1.2 e.2).sum =
    (original.map owned).sum + ((edits lib ctx original turns).map fun e => displacedBy e.2 e.1.2).sum := by
  induction turns using List.reverseRecOn with
  | nil => simp [after, edits, overlay_nil]
  | append_singleton turns t ih =>
    rw [List.map_append] at hdistinct
    obtain ⟨hturns, -, hfresh⟩ := List.nodup_append.mp hdistinct
    have ih := ih hturns
    by_cases hknown : t.known original
    · have hplace := getElem?_findIdx_retained (of_decide_eq_true hknown)
      have hnew : ∀ e ∈ after lib ctx original turns, e.pid ≠ (t.visit lib ctx original).sample.pid := by
        intro e he
        rw [t.visit_sample_pid lib ctx original]
        apply hfresh e.pid _ t.pid (by simp)
        rw [← map_pid_after lib ctx original]
        exact List.mem_map_of_mem he
      have hperm := overlay_append_perm (v := (t.visit lib ctx original).sample) hsorted.nodup
        (after lib ctx original turns) hplace rfl hnew
      have hsum := (hperm.map owned).sum_eq
      have hbalance := owned_add_displacedBy (retained original t.pid) (t.visit lib ctx original).sample
      simp only [List.map_cons, List.sum_cons] at hsum
      have hafter : after lib ctx original (turns ++ [t]) =
          after lib ctx original turns ++ [(t.visit lib ctx original).sample] := List.map_append
      have hedits : edits lib ctx original (turns ++ [t]) =
          edits lib ctx original turns ++ [(t.mutation original, (t.visit lib ctx original).sample)] := by
        simp [edits, hknown]
      rw [hafter, hedits]
      ext r
      replace ih := congrArg (Multiset.count r) ih
      replace hsum := congrArg (Multiset.count r) hsum
      replace hbalance := congrArg (Multiset.count r) hbalance
      simp only [List.map_append, List.map_cons, List.map_nil, List.sum_append, List.sum_cons, List.sum_nil,
        Multiset.count_add, Multiset.count_zero, Turn.mutation] at *
      omega
    · have hmiss : ∀ x ∈ original, x.pid ≠ (t.visit lib ctx original).sample.pid := by
        intro x hx heq
        rw [t.visit_sample_pid lib ctx original] at heq
        exact hknown (decide_eq_true (List.mem_map.mpr ⟨x, hx, heq⟩))
      have hafter : overlay (·.pid) original (after lib ctx original (turns ++ [t])) =
          overlay (·.pid) original (after lib ctx original turns) := by
        unfold after
        rw [List.map_append]
        exact overlay_append_of_forall_ne _ _ hmiss
      have hedits : edits lib ctx original (turns ++ [t]) = edits lib ctx original turns := by
        simp [edits, hknown]
      rw [hafter, hedits]
      exact ih

variable {heap : Heap} {turns : List Turn} {s : ScanState}

theorem Progress.mutations_eq (h : Progress lib ctx original heap turns s) :
    s.mutations = (edits lib ctx original turns).map Prod.fst := by
  rw [h.mutations, edits, List.map_map]
  rfl

theorem Progress.current (h : Progress lib ctx original heap turns s) :
    ∀ e ∈ edits lib ctx original turns, s.samples[e.1.1]? = some e.2 := by
  intro e he
  obtain ⟨t, ht, rfl⟩ := List.mem_map.mp he
  obtain ⟨hmem, hknown⟩ := List.mem_filter.mp ht
  have hplace := getElem?_findIdx_retained (of_decide_eq_true hknown)
  have hlt := (List.getElem?_eq_some_iff.mp hplace).1
  have hafter : (t.visit lib ctx original).sample ∈ after lib ctx original turns := List.mem_map.mpr ⟨t, hmem, rfl⟩
  have hpids : ((after lib ctx original turns).map (·.pid)).Nodup := by
    rw [map_pid_after]
    exact h.distinct
  show s.samples[original.findIdx fun s => s.pid = t.pid]? = _
  rw [h.samples, List.getElem?_append_left (by rwa [length_overlay]), getElem?_overlay, hplace, Option.map_some]
  exact congrArg some (find?_getD_of_mem (x := retained original t.pid) (·.pid) hpids hafter rfl)

theorem Progress.places_nodup (h : Progress lib ctx original heap turns s) :
    ((edits lib ctx original turns).map fun e => e.1.1).Nodup := by
  unfold edits
  rw [List.map_map]
  apply List.Nodup.map_on
  · intro t ht t' ht' heq
    have hplace := getElem?_findIdx_retained (of_decide_eq_true (List.mem_filter.mp ht).2)
    have hplace' := getElem?_findIdx_retained (of_decide_eq_true (List.mem_filter.mp ht').2)
    have hidx : (original.findIdx fun s => s.pid = t.pid) = original.findIdx fun s => s.pid = t'.pid := heq
    rw [hidx, hplace'] at hplace
    have hpid : t'.pid = t.pid := by
      rw [← retained_pid original t'.pid, ← retained_pid original t.pid, Option.some_inj.mp hplace]
    exact List.inj_on_of_nodup_map h.distinct (List.mem_filter.mp ht).1 (List.mem_filter.mp ht').1 hpid.symm
  · exact (List.Nodup.of_map _ h.distinct).filter _

/-- The turns without a sample bring all that the appended samples own. -/
theorem sum_appended (turns : List Turn) :
    ((turns.filter fun t => !t.known original).map fun t =>
      displacedBy (t.visit lib ctx original).sample (retained original t.pid)).sum =
    ((after lib ctx original (turns.filter fun t => !t.known original)).map owned).sum := by
  unfold after
  rw [List.map_map]
  apply congrArg List.sum
  apply List.map_congr_left
  intro t ht
  have hnew : t.pid ∉ original.map (·.pid) := by simpa [Turn.known] using (List.mem_filter.mp ht).2
  rw [retained_of_not_mem hnew]
  exact displacedBy_new t.pid _

/-- All that was allocated is in the known turns or in the appended samples. -/
theorem Progress.stores (h : Progress lib ctx original heap turns s) (howns : Owns heap original) :
    Stores heap (((edits lib ctx original turns).map fun e => displacedBy e.2 e.1.2).sum +
      ((after lib ctx original (turns.filter fun t => !t.known original)).map owned).sum) s.heap := by
  have hstores := h.heaps.stores howns.below
  have hsplit := (List.filter_append_perm (fun t : Turn => t.known original) turns).map fun t =>
    displacedBy (t.visit lib ctx original).sample (retained original t.pid)
  rw [← hsplit.sum_eq, List.map_append, List.sum_append, sum_appended] at hstores
  unfold edits
  rw [List.map_map]
  exact hstores

/-- A failed scan frees what it stored and nothing else. -/
theorem Progress.owns_rollback (h : Progress lib ctx original heap turns s) (hjournal : Journalled original s)
    (howns : Owns heap original) :
    Owns (rollbackSampleMutations s.samples s.heap s.mutations original.length).2 original := by
  have hstores := h.stores howns
  have hdrop : (rollbackLoop s.samples s.heap s.mutations.reverse).1.drop original.length =
      after lib ctx original (turns.filter fun t => !t.known original) := by
    rw [rollbackLoop_samples, hjournal.undone, List.drop_left, h.drop]
  have hloop := rollbackLoop_freed s.samples s.heap (edits lib ctx original turns).reverse
    (fun e he => h.current e (List.mem_reverse.mp he))
    (by rw [List.map_reverse]; exact List.nodup_reverse.mpr h.places_nodup)
  rw [List.map_reverse, ← h.mutations_eq] at hloop
  have htail := foldl_sampleMetadataFree (after lib ctx original (turns.filter fun t => !t.known original))
    (rollbackLoop s.samples s.heap s.mutations.reverse).2
  simp only [Owns, rollbackSampleMutations, hdrop]
  rw [htail.1, htail.2, hloop.1, hloop.2, ← hstores.1, hstores.2, ← howns, List.map_reverse, List.sum_reverse]
  abel

/-- A complete scan frees what it displaced and what it dropped. -/
theorem Progress.owns_commit (hsorted : StrictlySorted original) (h : Progress lib ctx original heap turns s)
    (howns : Owns heap original) (generation : Nat) :
    Owns (dropStaleSamples s.samples (commitSampleMutations s.samples s.heap s.mutations) generation).2
      (dropStaleSamples s.samples (commitSampleMutations s.samples s.heap s.mutations) generation).1 := by
  have hstores := h.stores howns
  have hcommit := commitSampleMutations_freed s.samples s.heap (edits lib ctx original turns) h.current
  rw [← h.mutations_eq] at hcommit
  have hbalance := owned_overlay lib ctx hsorted turns h.distinct
  have hdrop := foldl_sampleMetadataFree (s.samples.filter fun s => s.generation ≠ generation)
    (commitSampleMutations s.samples s.heap s.mutations)
  have hsplit := ((List.filter_append_perm (fun s : PreviousProcessSample => s.generation = generation)
    s.samples).map owned).sum_eq
  rw [h.samples] at hsplit
  simp only [List.map_append, List.sum_append] at hsplit
  simp only [Owns, dropStaleSamples]
  rw [hdrop.1, hdrop.2, hcommit.1, hcommit.2, ← hstores.1, hstores.2, ← howns, h.samples]
  simp only [decide_not]
  ext r
  replace hbalance := congrArg (Multiset.count r) hbalance
  replace hsplit := congrArg (Multiset.count r) hsplit
  simp only [Multiset.count_add] at *
  omega

end

end SystemMonitor.Process
