import SystemMonitor.Lib.ParentWalk
import SystemMonitor.Pages.Details

/-! The process tree as a forest.

PPIDs may name anything: a process itself, a process further down, none at all. The
recursion that inserts a process inserts its parent first, and the processes it has
entered and not yet inserted form a chain (`Chain`) below the present one. What it has
inserted so far, the newest first, has grown by one of three steps (`Grown`), and the
third one breaks a cycle of which nothing was inserted before. A whole rebuild is the
forest of the visible processes and their ancestors (`rebuild_forest`). -/
namespace SystemMonitor.Pages
open Lib ParentWalk

section
variable (rows : List LsmProcessInfo)

/-- The index of the row that a row's PPID names. -/
def parentOf (index : Nat) : Option Nat := processIndexForPid rows (rowAt rows index).ppid

variable {rows}

theorem processIndexForPid_some {pid index : Nat} (h : processIndexForPid rows pid = some index) :
    index < rows.length ∧ (rowAt rows index).pid = pid ∧ pid ≠ 0 := by
  unfold processIndexForPid at h
  split at h
  · cases h
  · rename_i hpid
    obtain ⟨row, hrow, hvalue⟩ := exists_of_lastOf h
    rw [Option.ite_none_right_eq_some] at hvalue
    obtain ⟨⟨hrowPid, -⟩, hindex⟩ := hvalue
    obtain ⟨process, k⟩ := row
    cases hindex
    have hget := List.mem_zipIdx_iff_getElem?.mp hrow
    refine ⟨(List.getElem?_eq_some_iff.mp hget).1, ?_, fun hzero => hpid (.inl hzero)⟩
    rw [rowAt, List.getD_eq_getElem?_getD, hget]
    exact hrowPid

theorem parentOf_lt {index parent : Nat} (h : parentOf rows index = some parent) : parent < rows.length :=
  (processIndexForPid_some h).1

/-! ### Which rows are visible -/

theorem nth_of_self {parent : Nat → Option Nat} {key : Nat} (h : parent key = some key) (n : Nat) :
    nth parent n key = some key := by
  induction n with
  | zero => rfl
  | succ n ih => rw [nth, h, Option.bind_some, ih]

/-- One guarded walk marks the ancestors within its reach. -/
theorem markAncestors_iff (guard index : Nat) (visible : Nat → Bool) (k : Nat) :
    markAncestors rows guard (rowAt rows index).ppid visible k = true ↔
      visible k = true ∨ ∃ n < guard, nth (parentOf rows) (n + 1) index = some k := by
  induction guard generalizing index visible with
  | zero => simp [markAncestors]
  | succ guard ih =>
    rw [markAncestors]
    have hparent : parentOf rows index = processIndexForPid rows (rowAt rows index).ppid := rfl
    cases hnext : processIndexForPid rows (rowAt rows index).ppid with
    | none =>
      rw [hnext] at hparent
      simp [nth, hparent]
    | some parent =>
      rw [hnext] at hparent
      have hstep : ∀ n, nth (parentOf rows) (n + 1) index = nth (parentOf rows) n parent := by
        intro n
        rw [nth, hparent, Option.bind_some]
      have hmarked : Function.update visible parent true k = true ↔ visible k = true ∨ parent = k := by
        by_cases hk : k = parent
        · simp [hk]
        · simp [hk, Ne.symm hk]
      dsimp only
      split
      · rename_i hself
        have hloop : parentOf rows parent = some parent := by rw [parentOf, hself, hnext]
        rw [hmarked]
        refine or_congr_right ⟨fun h => ⟨0, Nat.succ_pos guard, by rw [hstep]; exact congrArg some h⟩, ?_⟩
        intro h
        obtain ⟨n, -, hn⟩ := h
        rw [hstep, nth_of_self hloop] at hn
        exact Option.some.inj hn
      · rw [ih parent, hmarked, or_assoc]
        refine or_congr_right ?_
        constructor
        · intro h
          rcases h with rfl | ⟨n, hn, h⟩
          · exact ⟨0, Nat.succ_pos guard, hstep 0⟩
          · exact ⟨n + 1, Nat.succ_lt_succ hn, by rw [hstep, h]⟩
        · intro h
          obtain ⟨n, hn, h⟩ := h
          rw [hstep] at h
          cases n with
          | zero => exact .inl (Option.some.inj h)
          | succ n => exact .inr ⟨n, Nat.lt_of_succ_lt_succ hn, h⟩

/-- A row of the tree: a visible process, or one above it. -/
def Shown (rows : List LsmProcessInfo) (direct : LsmProcessInfo → Bool) (k : Nat) : Prop :=
  ∃ index < rows.length, direct (rowAt rows index) = true ∧ Relation.ReflTransGen (Step (parentOf rows)) index k

variable {direct : LsmProcessInfo → Bool}

theorem Shown.lt {k : Nat} (h : Shown rows direct k) : k < rows.length := by
  obtain ⟨index, hindex, -, hway⟩ := h
  rcases Relation.ReflTransGen.cases_tail hway with rfl | ⟨j, -, hstep⟩
  · exact hindex
  · exact parentOf_lt hstep

theorem Shown.above {k j : Nat} (h : Shown rows direct k) (hway : Relation.ReflTransGen (Step (parentOf rows)) k j) :
    Shown rows direct j := by
  obtain ⟨index, hindex, hdirect, hbelow⟩ := h
  exact ⟨index, hindex, hdirect, hbelow.trans hway⟩

theorem visibleRows_iff {k : Nat} (hk : k < rows.length) : visibleRows true rows direct k = true ↔ Shown rows direct k := by
  have hfold : ∀ (indices : List Nat) (visible : Nat → Bool), indices.foldl (fun visible index =>
      if direct (rowAt rows index) then markAncestors rows rows.length (rowAt rows index).ppid visible else visible)
        visible k = true ↔ visible k = true ∨ ∃ index ∈ indices, direct (rowAt rows index) = true ∧
          ∃ n < rows.length, nth (parentOf rows) (n + 1) index = some k := by
    intro indices
    induction indices with
    | nil => simp
    | cons index rest ih =>
      intro visible
      rw [List.foldl_cons, ih]
      split
      · rename_i hdirect
        rw [markAncestors_iff]
        simp only [List.exists_mem_cons_iff, hdirect, true_and, or_assoc]
      · rename_i hdirect
        simp [hdirect]
  refine (hfold (List.range rows.length) _).trans ?_
  constructor
  · intro h
    rcases h with h | ⟨index, hindex, hdirect, n, -, hn⟩
    · exact ⟨k, hk, h, .refl⟩
    · exact ⟨index, List.mem_range.mp hindex, hdirect, reaches_iff_nth.mpr ⟨n + 1, hn⟩⟩
  · intro h
    obtain ⟨index, hindex, hdirect, hway⟩ := h
    obtain ⟨n, hn⟩ := reaches_iff_nth.mp hway
    have hkeys : ∀ k j, parentOf rows k = some j → j ∈ List.range rows.length :=
      fun _ _ hstep => List.mem_range.mpr (parentOf_lt hstep)
    obtain ⟨m, hm, h⟩ := nth_bounded hkeys (List.mem_range.mpr hindex) hn
    rw [List.length_range] at hm
    cases m with
    | zero => exact .inl (Option.some.inj h ▸ hdirect)
    | succ m => exact .inr ⟨index, List.mem_range.mpr hindex, hdirect, m, by omega, h⟩

/-! ### The order of insertion -/

/-- The rows inserted so far, the newest first, each with the row it stands under. -/
inductive Grown (rows : List LsmProcessInfo) (direct : LsmProcessInfo → Bool) : List (Nat × Option Nat) → Prop
  | nil : Grown rows direct []
  | under {k parent : Nat} {older : List (Nat × Option Nat)} (rest : Grown rows direct older)
      (fresh : k ∉ older.map (·.1)) (shown : Shown rows direct k) (step : parentOf rows k = some parent)
      (placed : parent ∈ older.map (·.1)) : Grown rows direct ((k, some parent) :: older)
  | top {k : Nat} {older : List (Nat × Option Nat)} (rest : Grown rows direct older) (fresh : k ∉ older.map (·.1))
      (shown : Shown rows direct k) (orphan : parentOf rows k = none) : Grown rows direct ((k, none) :: older)
  | broken {k start next : Nat} {older : List (Nat × Option Nat)} (rest : Grown rows direct older)
      (shown : Shown rows direct k) (first : Shown rows direct start)
      (earlier : ∀ j < start, Shown rows direct j → ¬ Relation.ReflTransGen (Step (parentOf rows)) j k)
      (step : parentOf rows k = some next) (cycle : OnCycle (parentOf rows) k) (enters : Enters (parentOf rows) start next)
      (untouched : ∀ m, Relation.ReflTransGen (Step (parentOf rows)) k m → m ∉ older.map (·.1)) :
      Grown rows direct ((k, none) :: older)

/-- The loop inserts from this row: no visible row before it leads to a row not yet inserted. -/
def From (rows : List LsmProcessInfo) (direct : LsmProcessInfo → Bool) (placed : List (Nat × Option Nat)) (start : Nat) : Prop :=
  Shown rows direct start ∧ ∀ j < start, Shown rows direct j → ∀ m, Relation.ReflTransGen (Step (parentOf rows)) j m →
    m ∈ placed.map (·.1)

/-- The rows entered and not inserted are on the stack, the others are as they were inserted. -/
structure Built (rows : List LsmProcessInfo) (direct : LsmProcessInfo → Bool) (s : BuildState) (stack : List Nat)
    (placed : List (Nat × Option Nat)) : Prop where
  store : s.store = (placed.map fun entry => ⟨rowAt rows entry.1, entry.2.map fun parent => (rowAt rows parent).pid⟩).reverse
  inserted : ∀ k, s.inserted k = true ↔ k ∈ placed.map (·.1)
  entered : ∀ k, s.state k = 1 ↔ k ∈ stack
  apart : ∀ k ∈ stack, k ∉ placed.map (·.1)
  grown : Grown rows direct placed
  closed : ∀ k ∈ placed.map (·.1), ∀ parent, parentOf rows k = some parent → parent ∈ placed.map (·.1) ∨ parent ∈ stack

theorem Built.enter {s : BuildState} {stack : List Nat} {placed : List (Nat × Option Nat)} {index : Nat}
    (h : Built rows direct s stack placed) (hindex : index ∉ placed.map (·.1)) :
    Built rows direct (s.enter index) (index :: stack) placed where
  store := h.store
  inserted := h.inserted
  entered k := by
    by_cases hk : k = index
    · simp [BuildState.enter, hk]
    · simp [BuildState.enter, hk, h.entered]
  apart k hk := by
    rcases List.mem_cons.mp hk with rfl | hk
    · exact hindex
    · exact h.apart k hk
  grown := h.grown
  closed k hk parent hparent := (h.closed k hk parent hparent).imp_right (List.mem_cons_of_mem index)

/-- The row entered last is inserted. -/
theorem Built.insert {s : BuildState} {stack : List Nat} {placed : List (Nat × Option Nat)} {index : Nat}
    {parent : Option Nat} (h : Built rows direct s (index :: stack) placed) (hindex : index ∉ stack)
    (hgrown : Grown rows direct ((index, parent) :: placed))
    (hclosed : ∀ next, parentOf rows index = some next → next ∈ placed.map (·.1) ∨ next ∈ index :: stack) :
    Built rows direct (s.insert rows index (parent.map fun parent => (rowAt rows parent).pid)) stack
      ((index, parent) :: placed) where
  store := by
    rw [List.map_cons, List.reverse_cons, ← h.store]
    rfl
  inserted k := by
    by_cases hk : k = index
    · simp [BuildState.insert, hk]
    · simp [BuildState.insert, hk, h.inserted]
  entered k := by
    by_cases hk : k = index
    · simp [BuildState.insert, hk, hindex]
    · simp [BuildState.insert, hk, h.entered]
  apart k hk := by
    rw [List.map_cons, List.mem_cons]
    intro hor
    rcases hor with rfl | hor
    · exact hindex hk
    · exact h.apart k (List.mem_cons_of_mem index hk) hor
  grown := hgrown
  closed k hk next hnext := by
    have hor : next ∈ placed.map (·.1) ∨ next ∈ index :: stack := by
      rcases List.mem_cons.mp hk with rfl | hk
      · exact hclosed next hnext
      · exact h.closed k hk next hnext
    rcases hor with hor | hor
    · exact .inl (List.mem_cons_of_mem index hor)
    · rcases List.mem_cons.mp hor with rfl | hor
      · exact .inl (List.mem_cons_self ..)
      · exact .inr hor

/-- What the recursion is called with: a visible row, below it the chain of the rows entered,
and depth for all other rows. -/
structure Call (rows : List LsmProcessInfo) (direct : LsmProcessInfo → Bool) (placed : List (Nat × Option Nat))
    (depth index : Nat) (stack : List Nat) : Prop where
  shown : ∀ k ∈ index :: stack, Shown rows direct k
  chain : Chain (parentOf rows) index stack
  nodup : (index :: stack).Nodup
  start : From rows direct placed ((index :: stack).getLast (List.cons_ne_nil index stack))
  deep : rows.length ≤ depth + stack.length

theorem Call.depth_pos {placed : List (Nat × Option Nat)} {depth index : Nat} {stack : List Nat}
    (h : Call rows direct placed depth index stack) : 0 < depth := by
  have hsub : ∀ k ∈ index :: stack, k ∈ List.range rows.length := fun k hk => List.mem_range.mpr (h.shown k hk).lt
  have hle := (h.nodup.subperm hsub).length_le
  rw [List.length_cons, List.length_range] at hle
  have := h.deep
  omega

/-- A call inserts its row, and what it inserts stays inserted. -/
theorem appendProcessRecursive_built (depth : Nat) : ∀ (s : BuildState) (index : Nat) (stack : List Nat)
    (placed : List (Nat × Option Nat)), Built rows direct s stack placed → Call rows direct placed depth index stack →
    ∃ s' placed', appendProcessRecursive true rows (visibleRows true rows direct) depth s index = some s' ∧
      Built rows direct s' stack placed' ∧ index ∈ placed'.map (·.1) ∧
      ∀ k ∈ placed.map (·.1), k ∈ placed'.map (·.1) := by
  induction depth with
  | zero =>
    intro s index stack placed _ hcall
    exact absurd hcall.depth_pos (Nat.lt_irrefl 0)
  | succ depth ih =>
    intro s index stack placed hbuilt hcall
    have hshown : Shown rows direct index := hcall.shown index (List.mem_cons_self ..)
    have hvisible : ∀ {k}, Shown rows direct k → visibleRows true rows direct k = true := fun hk =>
      (visibleRows_iff hk.lt).mpr hk
    obtain ⟨hnotin, hnodup⟩ := List.nodup_cons.mp hcall.nodup
    by_cases hplaced : index ∈ placed.map (·.1)
    · refine ⟨s, placed, ?_, hbuilt, hplaced, fun k hk => hk⟩
      simp [appendProcessRecursive, (hbuilt.inserted index).mpr hplaced]
    have hfresh : s.inserted index = false := Bool.eq_false_iff.mpr fun h => hplaced ((hbuilt.inserted index).mp h)
    have henter := hbuilt.enter hplaced
    have hparent : parentOf rows index = processIndexForPid rows (rowAt rows index).ppid := rfl
    rw [appendProcessRecursive, hfresh, hvisible hshown]
    simp only [Bool.not_true, Bool.or_self, Bool.false_eq_true, if_false, if_true]
    cases hnext : processIndexForPid rows (rowAt rows index).ppid with
    | none =>
      rw [hnext] at hparent
      refine ⟨_, (index, none) :: placed, rfl, henter.insert hnotin (.top hbuilt.grown hplaced hshown hparent) ?_,
        List.mem_cons_self .., fun k hk => List.mem_cons_of_mem index hk⟩
      intro next h
      rw [hparent] at h
      cases h
    | some parent =>
      rw [hnext] at hparent
      have hshownParent : Shown rows direct parent := hshown.above (.single hparent)
      dsimp only
      split
      · -- the parent is inserted first
        rename_i hcond
        obtain ⟨hne, -, hstate⟩ := hcond
        have hout : parent ∉ index :: stack := fun h => hstate ((henter.entered parent).mpr h)
        have hcall' : Call rows direct placed depth parent (index :: stack) := {
          shown := fun k hk => (List.mem_cons.mp hk).elim (fun h => h ▸ hshownParent) (hcall.shown k)
          chain := ⟨hparent, hcall.chain⟩
          nodup := List.nodup_cons.mpr ⟨hout, hcall.nodup⟩
          start := hcall.start
          deep := by
            have := hcall.deep
            rw [List.length_cons]
            omega }
        obtain ⟨s', placed', heq, hbuilt', hin, hmono⟩ := ih _ _ _ _ henter hcall'
        have hindex' := hbuilt'.apart index (List.mem_cons_self ..)
        refine ⟨s'.insert rows index ((some parent).map fun parent => (rowAt rows parent).pid),
          (index, some parent) :: placed', ?_,
          hbuilt'.insert hnotin (.under hbuilt'.grown hindex' hshown hparent hin) ?_,
          List.mem_cons_self .., fun k hk => List.mem_cons_of_mem index (hmono k hk)⟩
        · rw [heq, Option.map_some, if_pos ((hbuilt'.inserted parent).mpr hin)]
          rfl
        · intro next h
          rw [hparent] at h
          cases h
          exact .inl hin
      · -- the parent is the row itself or one below it: a cycle, all of it entered
        rename_i hcond
        have hback : parent ∈ index :: stack := by
          by_contra hout
          refine hcond ⟨?_, hvisible hshownParent, fun h => hout ((henter.entered parent).mp h)⟩
          intro h
          exact hout (h ▸ List.mem_cons_self ..)
        have huntouched : ∀ m, Relation.ReflTransGen (Step (parentOf rows)) index m → m ∉ placed.map (·.1) :=
          fun m hm => henter.apart m (hcall.chain.closed hparent hback hm)
        refine ⟨_, (index, none) :: placed, rfl, henter.insert hnotin (.broken hbuilt.grown hshown hcall.start.1 ?_ hparent
          (hcall.chain.onCycle hparent hback) (hcall.chain.enters hcall.nodup hparent hback) huntouched) ?_,
          List.mem_cons_self .., fun k hk => List.mem_cons_of_mem index hk⟩
        · exact fun j hj hshownJ hway => hplaced (hcall.start.2 j hj hshownJ index hway)
        · intro next h
          rw [hparent] at h
          cases h
          exact .inr hback

theorem Grown.shown {placed : List (Nat × Option Nat)} (h : Grown rows direct placed) {k : Nat}
    (hk : k ∈ placed.map (·.1)) : Shown rows direct k := by
  induction h with
  | nil => cases hk
  | under rest fresh shown step placed ih => exact (List.mem_cons.mp hk).elim (fun h => h ▸ shown) ih
  | top rest fresh shown orphan ih => exact (List.mem_cons.mp hk).elim (fun h => h ▸ shown) ih
  | broken rest shown first earlier step cycle enters untouched ih => exact (List.mem_cons.mp hk).elim (fun h => h ▸ shown) ih

theorem Grown.nodup {placed : List (Nat × Option Nat)} (h : Grown rows direct placed) : (placed.map (·.1)).Nodup := by
  induction h with
  | nil => exact List.nodup_nil
  | under rest fresh shown step placed ih => exact List.nodup_cons.mpr ⟨fresh, ih⟩
  | top rest fresh shown orphan ih => exact List.nodup_cons.mpr ⟨fresh, ih⟩
  | @broken k _ _ _ rest shown first earlier step cycle enters untouched ih =>
    exact List.nodup_cons.mpr ⟨untouched k .refl, ih⟩

theorem Grown.of_append {newer older : List (Nat × Option Nat)} (h : Grown rows direct (newer ++ older)) :
    Grown rows direct older := by
  induction newer with
  | nil => exact h
  | cons entry rest ih => cases h <;> exact ih (by assumption)

/-- A row stands under the row that its PPID names, which is older. -/
theorem Grown.under_of {newer older : List (Nat × Option Nat)} {k parent : Nat}
    (h : Grown rows direct (newer ++ (k, some parent) :: older)) :
    parentOf rows k = some parent ∧ parent ∈ older.map (·.1) := by
  cases h.of_append with
  | under _ _ _ step placed => exact ⟨step, placed⟩

/-- A row at the top has no parent, or a cycle is broken at it. -/
theorem Grown.top_of {placed : List (Nat × Option Nat)} {k : Nat} (h : Grown rows direct placed) (hk : (k, none) ∈ placed) :
    parentOf rows k = none ∨ OnCycle (parentOf rows) k ∧ ∃ start next, parentOf rows k = some next ∧
      Shown rows direct start ∧ Enters (parentOf rows) start next ∧
      ∀ j < start, Shown rows direct j → ¬ Relation.ReflTransGen (Step (parentOf rows)) j k := by
  obtain ⟨newer, older, rfl⟩ := List.append_of_mem hk
  cases h.of_append with
  | top _ _ _ orphan => exact .inl orphan
  | broken _ _ first earlier step cycle enters _ => exact .inr ⟨cycle, _, _, step, first, enters, earlier⟩

/-- Above every inserted row of a cycle the cycle is broken. -/
theorem Grown.exists_root {placed : List (Nat × Option Nat)} (h : Grown rows direct placed) {k : Nat}
    (hk : k ∈ placed.map (·.1)) (hcycle : OnCycle (parentOf rows) k) :
    ∃ root, (root, none) ∈ placed ∧ Relation.ReflTransGen (Step (parentOf rows)) k root := by
  induction h generalizing k with
  | nil => cases hk
  | @under head parent older rest fresh shown step placed ih =>
    rcases List.mem_cons.mp hk with rfl | hk
    · obtain ⟨root, hroot, hway⟩ := ih placed (hcycle.above (.single step))
      exact ⟨root, List.mem_cons_of_mem _ hroot, .head step hway⟩
    · obtain ⟨root, hroot, hway⟩ := ih hk hcycle
      exact ⟨root, List.mem_cons_of_mem _ hroot, hway⟩
  | @top head older rest fresh shown orphan ih =>
    rcases List.mem_cons.mp hk with rfl | hk
    · exact ⟨k, List.mem_cons_self .., .refl⟩
    · obtain ⟨root, hroot, hway⟩ := ih hk hcycle
      exact ⟨root, List.mem_cons_of_mem _ hroot, hway⟩
  | @broken head start next older rest shown first earlier step cycle enters untouched ih =>
    rcases List.mem_cons.mp hk with rfl | hk
    · exact ⟨k, List.mem_cons_self .., .refl⟩
    · obtain ⟨root, hroot, hway⟩ := ih hk hcycle
      exact ⟨root, List.mem_cons_of_mem _ hroot, hway⟩

/-- No row at the top leads to an older row at the top, on a cycle. -/
theorem Grown.top_apart {older : List (Nat × Option Nat)} {k root : Nat} (h : Grown rows direct ((k, none) :: older))
    (hroot : (root, none) ∈ older) (hcycle : OnCycle (parentOf rows) k) :
    ¬ Relation.ReflTransGen (Step (parentOf rows)) k root := by
  cases h with
  | top _ _ _ orphan =>
    obtain ⟨next, hstep, -⟩ := Relation.TransGen.head'_iff.mp hcycle
    rw [Step, orphan] at hstep
    cases hstep
  | broken _ _ _ _ _ _ _ untouched => exact fun hway => untouched root hway (List.mem_map_of_mem hroot)

/-- A cycle is broken once. -/
theorem Grown.root_unique {placed : List (Nat × Option Nat)} (h : Grown rows direct placed) {k root : Nat}
    (hk : (k, none) ∈ placed) (hroot : (root, none) ∈ placed) (hcycle : OnCycle (parentOf rows) k)
    (hway : Relation.ReflTransGen (Step (parentOf rows)) k root) : root = k := by
  induction placed with
  | nil => cases hk
  | cons entry older ih =>
    have hrest : Grown rows direct older := (show Grown rows direct ([entry] ++ older) from h).of_append
    rcases List.mem_cons.mp hk with rfl | hk'
    · rcases List.mem_cons.mp hroot with heq | hroot'
      · exact congrArg Prod.fst heq
      · exact absurd hway (h.top_apart hroot' hcycle)
    · rcases List.mem_cons.mp hroot with rfl | hroot'
      · exact absurd (hcycle.back hway) (h.top_apart hk' (hcycle.above hway))
      · exact ih hrest hk' hroot'

theorem Built.above {s : BuildState} {placed : List (Nat × Option Nat)} (h : Built rows direct s [] placed) {k m : Nat}
    (hk : k ∈ placed.map (·.1)) (hway : Relation.ReflTransGen (Step (parentOf rows)) k m) : m ∈ placed.map (·.1) := by
  induction hway with
  | refl => exact hk
  | tail _ hstep ih => exact (h.closed _ ih _ hstep).resolve_right List.not_mem_nil

/-- The loop over the first rows inserts the visible ones among them. -/
theorem loop_built {n : Nat} (hn : n ≤ rows.length) : ∃ s placed,
    (List.range n).foldlM (fun s index => if visibleRows true rows direct index then
      appendProcessRecursive true rows (visibleRows true rows direct) rows.length s index else some s) {} = some s ∧
    Built rows direct s [] placed ∧ ∀ k < n, Shown rows direct k → k ∈ placed.map (·.1) := by
  induction n with
  | zero =>
    refine ⟨{}, [], rfl, ?_, fun k hk => absurd hk (Nat.not_lt_zero k)⟩
    exact ⟨rfl, by simp, by simp, by simp, .nil, by simp⟩
  | succ n ih =>
    obtain ⟨s, placed, heq, hbuilt, hall⟩ := ih (Nat.le_of_succ_le hn)
    rw [List.range_succ, List.foldlM_append, heq, Option.bind_eq_bind, Option.bind_some, List.foldlM_cons]
    by_cases hshown : Shown rows direct n
    · have hcall : Call rows direct placed rows.length n [] := {
        shown := fun k hk => List.mem_singleton.mp hk ▸ hshown
        chain := trivial
        nodup := List.nodup_singleton n
        start := ⟨hshown, fun j hj hshownJ m hway => hbuilt.above (hall j hj hshownJ) hway⟩
        deep := Nat.le_add_right _ _ }
      obtain ⟨s', placed', heq', hbuilt', hin, hmono⟩ := appendProcessRecursive_built _ _ _ _ _ hbuilt hcall
      refine ⟨s', placed', ?_, hbuilt', ?_⟩
      · rw [if_pos ((visibleRows_iff hn).mpr hshown), heq']
        rfl
      · intro k hk hshownK
        rcases Nat.lt_succ_iff_lt_or_eq.mp hk with hk | rfl
        · exact hmono k (hall k hk hshownK)
        · exact hin
    · refine ⟨s, placed, ?_, hbuilt, ?_⟩
      · rw [if_neg fun h => hshown ((visibleRows_iff hn).mp h)]
        rfl
      · intro k hk hshownK
        rcases Nat.lt_succ_iff_lt_or_eq.mp hk with hk | rfl
        · exact hall k hk hshownK
        · exact absurd hshownK hshown

/-- A rebuild, by the indices of the rows. -/
theorem rebuild_grown (rows : List LsmProcessInfo) (direct : LsmProcessInfo → Bool) : ∃ placed, Grown rows direct placed ∧
    (∀ k, k ∈ placed.map (·.1) ↔ Shown rows direct k) ∧ rebuildDetailsModel true rows direct =
      some (placed.map fun entry => ⟨rowAt rows entry.1, entry.2.map fun parent => (rowAt rows parent).pid⟩).reverse := by
  obtain ⟨s, placed, heq, hbuilt, hall⟩ := @loop_built rows direct rows.length (Nat.le_refl _)
  refine ⟨placed, hbuilt.grown, fun k => ⟨hbuilt.grown.shown, fun h => hall k h.lt h⟩, ?_⟩
  rw [rebuildDetailsModel, heq, Option.map_some, hbuilt.store]

end

/-! ### Rows by their PIDs -/

/-- The PPID of a process, where it names a process of the snapshot. -/
def parentPid (rows : List LsmProcessInfo) (pid : Nat) : Option Nat :=
  (rows.find? (·.pid == pid)).bind fun process => if process.ppid ∈ rows.map (·.pid) then some process.ppid else none

/-- The process is directly visible, or above one that is. -/
def ShownPid (rows : List LsmProcessInfo) (direct : LsmProcessInfo → Bool) (pid : Nat) : Prop :=
  ∃ process ∈ rows, direct process = true ∧ Relation.ReflTransGen (Step (parentPid rows)) process.pid pid

def pidAt (rows : List LsmProcessInfo) (index : Nat) : Nat := (rowAt rows index).pid

theorem rowAt_eq {rows : List LsmProcessInfo} {k : Nat} (hk : k < rows.length) : rowAt rows k = rows[k] := by
  rw [rowAt, List.getD_eq_getElem?_getD, List.getElem?_eq_getElem hk, Option.getD_some]

theorem rowAt_of_le {rows : List LsmProcessInfo} {k : Nat} (hk : rows.length ≤ k) : rowAt rows k = {} := by
  rw [rowAt, List.getD_eq_getElem?_getD, List.getElem?_eq_none hk, Option.getD_none]

theorem rowAt_mem {rows : List LsmProcessInfo} {k : Nat} (hk : k < rows.length) : rowAt rows k ∈ rows := by
  rw [rowAt_eq hk]
  exact List.getElem_mem hk

theorem exists_rowAt {rows : List LsmProcessInfo} {process : LsmProcessInfo} (h : process ∈ rows) :
    ∃ k < rows.length, rowAt rows k = process := by
  obtain ⟨k, hk, heq⟩ := List.getElem_of_mem h
  exact ⟨k, hk, by rw [rowAt_eq hk, heq]⟩

namespace ProcessSnapshot
variable (snap : ProcessSnapshot)

theorem length_le : snap.rows.length ≤ uintMax := by
  have hsub : ∀ pid ∈ snap.rows.map (·.pid), pid ∈ List.range (2 ^ 31) := by
    intro pid hpid
    obtain ⟨process, hprocess, rfl⟩ := List.mem_map.mp hpid
    exact List.mem_range.mpr (snap.pid_range process hprocess).2
  have hle := (snap.distinct.subperm hsub).length_le
  rw [List.length_map, List.length_range] at hle
  exact hle.trans (by decide)

theorem pidAt_pos {k : Nat} (hk : k < snap.rows.length) : 0 < pidAt snap.rows k := (snap.pid_range _ (rowAt_mem hk)).1

theorem pidAt_inj {i j : Nat} (hi : i < snap.rows.length) (hj : j < snap.rows.length)
    (h : pidAt snap.rows i = pidAt snap.rows j) : i = j := by
  have hget : ∀ {k : Nat} (hk : k < (snap.rows.map (·.pid)).length), (snap.rows.map (·.pid))[k] = pidAt snap.rows k := by
    intro k hk
    rw [List.getElem_map, pidAt, rowAt_eq (by simpa using hk)]
  have hi' : i < (snap.rows.map (·.pid)).length := by simpa using hi
  have hj' : j < (snap.rows.map (·.pid)).length := by simpa using hj
  have heq : (snap.rows.map (·.pid))[i] = (snap.rows.map (·.pid))[j] := by rw [hget, hget, h]
  exact snap.distinct.getElem_inj_iff.mp heq

theorem processIndexForPid_pidAt {k : Nat} (hk : k < snap.rows.length) :
    processIndexForPid snap.rows (pidAt snap.rows k) = some k := by
  have hpos := snap.pidAt_pos hk
  have hlt : pidAt snap.rows k < 2 ^ 31 := (snap.pid_range _ (rowAt_mem hk)).2
  have hindex : k < uintMax := Nat.lt_of_lt_of_le hk snap.length_le
  rw [processIndexForPid, if_neg (by unfold uintMax; omega)]
  have hrow : (rowAt snap.rows k, k) ∈ snap.rows.zipIdx := by
    rw [List.mem_zipIdx_iff_getElem?, rowAt_eq hk]
    exact List.getElem?_eq_getElem hk
  refine lastOf_eq_some hrow (if_pos ⟨rfl, hindex⟩) ?_
  intro row hmem c hc
  rw [Option.ite_none_right_eq_some] at hc
  obtain ⟨⟨hpid, -⟩, hvalue⟩ := hc
  cases hvalue
  have hget := List.mem_zipIdx_iff_getElem?.mp hmem
  obtain ⟨hlt, heq⟩ := List.getElem?_eq_some_iff.mp hget
  refine snap.pidAt_inj hlt hk ?_
  rw [← hpid, pidAt, rowAt_eq hlt, heq]

theorem find_pidAt {k : Nat} (hk : k < snap.rows.length) :
    snap.rows.find? (·.pid == pidAt snap.rows k) = some (rowAt snap.rows k) := by
  have hsome : (snap.rows.find? (·.pid == pidAt snap.rows k)).isSome = true :=
    List.find?_isSome.mpr ⟨rowAt snap.rows k, rowAt_mem hk, beq_self_eq_true _⟩
  obtain ⟨process, hprocess⟩ := Option.isSome_iff_exists.mp hsome
  obtain ⟨j, hj, rfl⟩ := exists_rowAt (List.mem_of_find?_eq_some hprocess)
  have hpid := List.find?_some hprocess
  have hsame : j = k := snap.pidAt_inj hj hk (beq_iff_eq.mp hpid)
  rw [hprocess, hsame]

theorem parentPid_pidAt (k : Nat) : parentPid snap.rows (pidAt snap.rows k) =
    (parentOf snap.rows k).map (pidAt snap.rows) := by
  by_cases hk : k < snap.rows.length
  · rw [parentPid, snap.find_pidAt hk, Option.bind_some, parentOf]
    split
    · rename_i hmem
      obtain ⟨parent, hparent, hpid⟩ := List.mem_map.mp hmem
      obtain ⟨j, hj, rfl⟩ := exists_rowAt hparent
      have hindex := snap.processIndexForPid_pidAt hj
      rw [pidAt, hpid] at hindex
      rw [hindex, Option.map_some, pidAt, hpid]
    · rename_i hmem
      cases hindex : processIndexForPid snap.rows (rowAt snap.rows k).ppid with
      | none => rfl
      | some j =>
        obtain ⟨hj, hpid, -⟩ := processIndexForPid_some hindex
        exact absurd (hpid ▸ List.mem_map_of_mem (rowAt_mem hj)) hmem
  · have hrow : rowAt snap.rows k = {} := rowAt_of_le (Nat.le_of_not_lt hk)
    have hnone : snap.rows.find? (·.pid == 0) = none := by
      rw [List.find?_eq_none]
      intro process hprocess hzero
      exact absurd (beq_iff_eq.mp hzero) (snap.pid_range process hprocess).1.ne'
    rw [parentPid, parentOf, pidAt, hrow, hnone]
    rfl

theorem renames : Renames (pidAt snap.rows) (parentOf snap.rows) (parentPid snap.rows) where
  step := snap.parentPid_pidAt
  inj hstep hname := by
    have hnext := parentOf_lt hstep
    have hpos := snap.pidAt_pos hnext
    refine snap.pidAt_inj hnext ?_ hname
    by_contra hkey
    rw [hname, pidAt, rowAt_of_le (Nat.le_of_not_lt hkey)] at hpos
    exact absurd hpos (Nat.lt_irrefl 0)

theorem shown_iff {direct : LsmProcessInfo → Bool} {pid : Nat} : ShownPid snap.rows direct pid ↔
    ∃ k, Shown snap.rows direct k ∧ pidAt snap.rows k = pid := by
  constructor
  · intro h
    obtain ⟨process, hprocess, hdirect, hway⟩ := h
    obtain ⟨index, hindex, rfl⟩ := exists_rowAt hprocess
    obtain ⟨k, hname, hway⟩ := snap.renames.reaches_iff.mp hway
    exact ⟨k, ⟨index, hindex, hdirect, hway⟩, hname⟩
  · intro h
    obtain ⟨k, ⟨index, hindex, hdirect, hway⟩, rfl⟩ := h
    exact ⟨rowAt snap.rows index, rowAt_mem hindex, hdirect, snap.renames.reaches_iff.mpr ⟨k, rfl, hway⟩⟩

theorem reaches_pidAt {i j : Nat} (hj : j < snap.rows.length) :
    Relation.ReflTransGen (Step (parentPid snap.rows)) (pidAt snap.rows i) (pidAt snap.rows j) ↔
      Relation.ReflTransGen (Step (parentOf snap.rows)) i j := by
  rw [snap.renames.reaches_iff]
  constructor
  · intro h
    obtain ⟨c, hname, hway⟩ := h
    have hc : c < snap.rows.length := by
      by_contra hout
      have hpos := snap.pidAt_pos hj
      rw [← hname, pidAt, rowAt_of_le (Nat.le_of_not_lt hout)] at hpos
      exact absurd hpos (Nat.lt_irrefl 0)
    exact snap.pidAt_inj hc hj hname ▸ hway
  · exact fun h => ⟨j, rfl, h⟩

theorem shown_pidAt {direct : LsmProcessInfo → Bool} {k : Nat} (hk : k < snap.rows.length) :
    ShownPid snap.rows direct (pidAt snap.rows k) ↔ Shown snap.rows direct k := by
  rw [snap.shown_iff]
  constructor
  · intro h
    obtain ⟨j, hj, hname⟩ := h
    exact snap.pidAt_inj hj.lt hk hname ▸ hj
  · exact fun h => ⟨k, h, rfl⟩

end ProcessSnapshot

/-! ### The forest -/

/-- The rows of a tree store, in the order of their insertion: each visible process and each
process above one stands in it once, under the process its PPID names, where no cycle
is broken at it. -/
structure Forest (rows : List LsmProcessInfo) (direct : LsmProcessInfo → Bool) (store : List DetailsRow) : Prop where
  processes : ∀ row ∈ store, row.process ∈ rows
  once : (store.map (·.process.pid)).Nodup
  shown : ∀ pid, pid ∈ store.map (·.process.pid) ↔ ShownPid rows direct pid
  placed : ∀ row ∈ store, row.parent = parentPid rows row.process.pid ∨
    row.parent = none ∧ OnCycle (parentPid rows) row.process.pid
  after : ∀ before row later parent, store = before ++ row :: later → row.parent = some parent →
    parent ∈ before.map (·.process.pid)
  broken : ∀ pid, ShownPid rows direct pid → OnCycle (parentPid rows) pid →
    ∃! root, Relation.ReflTransGen (Step (parentPid rows)) pid root ∧ ∃ row ∈ store, row.process.pid = root ∧ row.parent = none

/-- The first row shown that leads to this process enters a cycle at that one. -/
def EntryPid (rows : List LsmProcessInfo) (direct : LsmProcessInfo → Bool) (pid entry : Nat) : Prop :=
  ∃ start < rows.length, ShownPid rows direct (pidAt rows start) ∧
    Relation.ReflTransGen (Step (parentPid rows)) (pidAt rows start) pid ∧
    (∀ j < start, ShownPid rows direct (pidAt rows j) →
      ¬ Relation.ReflTransGen (Step (parentPid rows)) (pidAt rows j) pid) ∧
    Enters (parentPid rows) (pidAt rows start) entry

/-- The row of the store for an inserted row of the snapshot. -/
def storeRow (rows : List LsmProcessInfo) (entry : Nat × Option Nat) : DetailsRow :=
  ⟨rowAt rows entry.1, entry.2.map (pidAt rows)⟩

section
variable (snap : ProcessSnapshot) {direct : LsmProcessInfo → Bool} {placed : List (Nat × Option Nat)}

theorem exists_entry {row : DetailsRow} (h : row ∈ (placed.map (storeRow snap.rows)).reverse) :
    ∃ k parent, (k, parent) ∈ placed ∧ row = ⟨rowAt snap.rows k, parent.map (pidAt snap.rows)⟩ := by
  obtain ⟨entry, hentry, rfl⟩ := List.mem_map.mp (List.mem_reverse.mp h)
  exact ⟨entry.1, entry.2, hentry, rfl⟩

theorem storeRow_pids : (placed.map (storeRow snap.rows)).reverse.map (·.process.pid) =
    ((placed.map (·.1)).map (pidAt snap.rows)).reverse := by
  rw [List.map_reverse, List.map_map, List.map_map]
  rfl

/-- The parent of a row is in the store before it. -/
theorem Grown.after (h : Grown snap.rows direct placed) {before later : List DetailsRow} {row : DetailsRow} {parent : Nat}
    (hsplit : (placed.map (storeRow snap.rows)).reverse = before ++ row :: later) (hparent : row.parent = some parent) :
    parent ∈ before.map (·.process.pid) := by
  have hmap : placed.map (storeRow snap.rows) = later.reverse ++ row :: before.reverse := by
    rw [← List.reverse_inj, hsplit]
    simp
  obtain ⟨newer, rest, hplaced, -, hrest⟩ := List.map_eq_append_iff.mp hmap
  obtain ⟨entry, older, rfl, hrow, holder⟩ := List.map_eq_cons_iff.mp hrest
  subst hplaced
  obtain ⟨k, above⟩ := entry
  subst hrow
  obtain ⟨index, rfl, hname⟩ := Option.map_eq_some_iff.mp hparent
  obtain ⟨entry, hentry, hkey⟩ := List.mem_map.mp h.under_of.2
  refine List.mem_map.mpr ⟨storeRow snap.rows entry, ?_, ?_⟩
  · rw [← List.mem_reverse, ← holder]
    exact List.mem_map_of_mem hentry
  · rw [← hname, ← hkey]
    rfl

/-- A cycle that is shown is broken at one process. -/
theorem Grown.broken_at (h : Grown snap.rows direct placed) {k : Nat} (hk : k ∈ placed.map (·.1))
    (hcycle : OnCycle (parentOf snap.rows) k) (hlt : ∀ entry ∈ placed, entry.1 < snap.rows.length) :
    ∃! root, Relation.ReflTransGen (Step (parentPid snap.rows)) (pidAt snap.rows k) root ∧
      ∃ row ∈ (placed.map (storeRow snap.rows)).reverse, row.process.pid = root ∧ row.parent = none := by
  obtain ⟨root, hroot, hway⟩ := h.exists_root hk hcycle
  refine ⟨pidAt snap.rows root, ⟨snap.renames.reaches_iff.mpr ⟨root, rfl, hway⟩, storeRow snap.rows (root, none), ?_, rfl, rfl⟩, ?_⟩
  · exact List.mem_reverse.mpr (List.mem_map_of_mem hroot)
  · intro other hother
    obtain ⟨hway', row, hrow, rfl, htop⟩ := hother
    obtain ⟨j, parent, hentry, rfl⟩ := exists_entry snap hrow
    cases Option.map_eq_none_iff.mp htop
    have hreach := (snap.reaches_pidAt (hlt _ hentry)).mp hway'
    have hroots := (hcycle.back hway).trans hreach
    exact congrArg (pidAt snap.rows) (h.root_unique hroot hentry (hcycle.above hway) hroots)

theorem Grown.forest (h : Grown snap.rows direct placed) (hall : ∀ k, k ∈ placed.map (·.1) ↔ Shown snap.rows direct k) :
    Forest snap.rows direct (placed.map (storeRow snap.rows)).reverse := by
  have hlt : ∀ entry ∈ placed, entry.1 < snap.rows.length := fun entry hentry =>
    ((hall entry.1).mp (List.mem_map_of_mem hentry)).lt
  exact {
    processes := by
      intro row hrow
      obtain ⟨k, parent, hentry, rfl⟩ := exists_entry snap hrow
      exact rowAt_mem (hlt _ hentry)
    once := by
      rw [storeRow_pids, List.nodup_reverse]
      refine h.nodup.map_on fun i hi j hj heq => ?_
      exact snap.pidAt_inj ((hall i).mp hi).lt ((hall j).mp hj).lt heq
    shown := by
      intro pid
      rw [storeRow_pids, List.mem_reverse, List.mem_map, snap.shown_iff]
      exact exists_congr fun k => and_congr_left' (hall k)
    placed := by
      intro row hrow
      obtain ⟨k, above, hentry, rfl⟩ := exists_entry snap hrow
      have hparent := snap.parentPid_pidAt k
      cases above with
      | some index =>
        obtain ⟨newer, older, rfl⟩ := List.append_of_mem hentry
        exact .inl (hparent.trans (congrArg _ h.under_of.1)).symm
      | none =>
        rcases h.top_of hentry with horphan | ⟨hcycle, -⟩
        · exact .inl (hparent.trans (congrArg _ horphan)).symm
        · exact .inr ⟨rfl, snap.renames.onCycle_iff.mpr hcycle⟩
    after := fun _ _ _ _ hsplit hparent => h.after snap hsplit hparent
    broken := by
      intro pid hshown hcycle
      obtain ⟨k, hk, rfl⟩ := snap.shown_iff.mp hshown
      exact h.broken_at snap ((hall k).mpr hk) (snap.renames.onCycle_iff.mp hcycle) hlt }

/-- Where a cycle is broken: below the process at which the first row shown enters it. -/
theorem Grown.entry (h : Grown snap.rows direct placed) (hall : ∀ k, k ∈ placed.map (·.1) ↔ Shown snap.rows direct k)
    {row : DetailsRow} (hrow : row ∈ (placed.map (storeRow snap.rows)).reverse) (htop : row.parent = none)
    (hcycle : OnCycle (parentPid snap.rows) row.process.pid) :
    ∃ entry, parentPid snap.rows row.process.pid = some entry ∧ EntryPid snap.rows direct row.process.pid entry := by
  obtain ⟨k, above, hentry, rfl⟩ := exists_entry snap hrow
  cases Option.map_eq_none_iff.mp htop
  have hk : k < snap.rows.length := ((hall k).mp (List.mem_map_of_mem hentry)).lt
  have hcycle := snap.renames.onCycle_iff.mp hcycle
  rcases h.top_of hentry with horphan | ⟨-, start, next, hstep, hfirst, henters, hearlier⟩
  · obtain ⟨next, hstep, -⟩ := Relation.TransGen.head'_iff.mp hcycle
    rw [Step, horphan] at hstep
    cases hstep
  refine ⟨pidAt snap.rows next, (snap.parentPid_pidAt k).trans (congrArg _ hstep), start, hfirst.lt,
    (snap.shown_pidAt hfirst.lt).mpr hfirst, ?_, ?_, snap.renames.enters henters⟩
  · exact (snap.reaches_pidAt hk).mpr (henters.reaches.trans (hcycle.back (.single hstep)))
  · intro j hj hshown hway
    have hlt : j < snap.rows.length := hj.trans hfirst.lt
    exact hearlier j hj ((snap.shown_pidAt hlt).mp hshown) ((snap.reaches_pidAt hk).mp hway)

end

/-- **The rows of a rebuild in tree mode are a forest of the snapshot.** -/
theorem rebuild_forest (snap : ProcessSnapshot) (direct : LsmProcessInfo → Bool) :
    ∃ store, rebuildDetailsModel true snap.rows direct = some store ∧ Forest snap.rows direct store := by
  obtain ⟨placed, hgrown, hall, heq⟩ := rebuild_grown snap.rows direct
  exact ⟨_, heq, hgrown.forest snap hall⟩

end SystemMonitor.Pages
