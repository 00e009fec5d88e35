import Mathlib.Data.List.Induction
import Mathlib.Data.List.Perm.Subperm
import Mathlib.Data.List.Sort
import SystemMonitor.Lib.Table

/-! Evicting the least recent rows of a table down to a limit.

`Evicted` says what an eviction may do: rows that are shielded stay, a row that
goes is at most as recent as every unshielded row that stays, and afterwards the
table fits or everything left is shielded. Two ways of doing it are proved:
choosing all victims from one sorted list (`evicted_batch`) and removing the
oldest row again and again (`Evicted.step`).

`Newest` is what is left when nothing is shielded, whatever the order of the
rows: it is determined by the rows (`Newest.unique`), and a reader that sees the
rows one by one can keep it (`Newest.add`, `Newest.refuse`, `Newest.exchange`). -/
namespace SystemMonitor.Lib

variable {α κ : Type}

structure Evicted (shielded : α → Bool) (cmp : α → α → Ordering) (before after : List α) : Prop where
  sublist : after.Sublist before
  unshielded : ∀ x ∈ before, x ∉ after → shielded x = false
  oldest : ∀ x ∈ before, x ∉ after → ∀ y ∈ after, shielded y = false → (cmp x y).isLE = true

/-- The table fits, or nothing more may go. -/
def Fits (shielded : α → Bool) (limit : Nat) (rows : List α) : Prop :=
  rows.length ≤ limit ∨ ∀ x ∈ rows, shielded x = true

theorem Evicted.refl (shielded : α → Bool) (cmp : α → α → Ordering) (rows : List α) :
    Evicted shielded cmp rows rows where
  sublist := List.Sublist.refl _
  unshielded _ hx hnot := absurd hx hnot
  oldest _ hx hnot := absurd hx hnot

/-- What is shielded stays. -/
theorem Evicted.length_shielded {shielded : α → Bool} {cmp : α → α → Ordering} {before after : List α}
    (h : Evicted shielded cmp before after) (hnodup : before.Nodup) : (before.filter shielded).length ≤ after.length := by
  refine ((List.subperm_of_subset (hnodup.filter _) fun x hx => ?_)).length_le
  obtain ⟨hmem, hshielded⟩ := List.mem_filter.mp hx
  by_contra hgone
  rw [h.unshielded x hmem hgone] at hshielded
  cases hshielded

/-- Where only shielded rows are left, there are no more than those. -/
theorem Evicted.length_le_shielded {shielded : α → Bool} {cmp : α → α → Ordering} {before after : List α}
    (h : Evicted shielded cmp before after) (hnodup : before.Nodup) (hall : ∀ x ∈ after, shielded x = true) :
    after.length ≤ (before.filter shielded).length :=
  (List.subperm_of_subset (hnodup.sublist h.sublist)
    fun x hx => List.mem_filter.mpr ⟨h.sublist.subset hx, hall x hx⟩).length_le

/-- Two evictions that go as far as they must and no further leave as many rows. -/
theorem Evicted.length_eq {shielded : α → Bool} {cmp : α → α → Ordering} {limit : Nat} {before after after' : List α}
    (h : Evicted shielded cmp before after) (h' : Evicted shielded cmp before after') (hnodup : before.Nodup)
    (hfits : Fits shielded limit after) (hfits' : Fits shielded limit after')
    (hleast : min before.length limit ≤ after.length) (hleast' : min before.length limit ≤ after'.length) :
    after.length = after'.length := by
  have hkept := h.length_shielded hnodup
  have hkept' := h'.length_shielded hnodup
  have hsub := h.sublist.length_le
  have hsub' := h'.sublist.length_le
  rcases hfits with hfits | hall <;> rcases hfits' with hfits' | hall'
  · omega
  · have hrest := h'.length_le_shielded hnodup hall'
    omega
  · have hrest := h.length_le_shielded hnodup hall
    omega
  · have hrest := h.length_le_shielded hnodup hall
    have hrest' := h'.length_le_shielded hnodup hall'
    omega

/-- Sublists of rows without repetition that have the same members. -/
theorem sublist_eq_of_mem_iff {before after after' : List α} (hnodup : before.Nodup) (h : after.Sublist before)
    (h' : after'.Sublist before) (hmem : ∀ x, x ∈ after ↔ x ∈ after') : after = after' := by
  induction before generalizing after after' with
  | nil => rw [List.sublist_nil.mp h, List.sublist_nil.mp h']
  | cons a before ih =>
    obtain ⟨ha, hrest⟩ := List.nodup_cons.mp hnodup
    cases h with
    | cons _ h =>
      cases h' with
      | cons _ h' => exact ih hrest h h' hmem
      | cons_cons _ h' => exact absurd (h.subset ((hmem a).mpr (List.mem_cons_self ..))) ha
    | cons_cons _ h =>
      cases h' with
      | cons _ h' => exact absurd (h'.subset ((hmem a).mp (List.mem_cons_self ..))) ha
      | cons_cons _ h' =>
        refine congrArg (a :: ·) (ih hrest h h' fun x => ?_)
        have hx := hmem x
        rw [List.mem_cons, List.mem_cons] at hx
        constructor
        · intro hin
          exact (hx.mp (Or.inr hin)).resolve_left fun heq => ha (heq ▸ h.subset hin)
        · intro hin
          exact (hx.mpr (Or.inr hin)).resolve_left fun heq => ha (heq ▸ h'.subset hin)

/-- **Where the order tells rows apart, an eviction is determined by how many rows it leaves.** -/
theorem Evicted.unique {shielded : α → Bool} {cmp : α → α → Ordering} {before after after' : List α}
    (h : Evicted shielded cmp before after) (h' : Evicted shielded cmp before after') (hnodup : before.Nodup)
    (hlength : after.length = after'.length)
    (hanti : ∀ x ∈ before, ∀ y ∈ before, (cmp x y).isLE = true → (cmp y x).isLE = true → x = y) : after = after' := by
  have hsubset : after ⊆ after' := by
    intro x hx
    by_contra hgone
    -- Then some row stays only in the other, and each of the two is at most as recent as the other.
    obtain ⟨y, hy, hyGone⟩ : ∃ y ∈ after', y ∉ after := by
      by_contra hall
      have hback : after' ⊆ after := fun y hy => by_contra fun hmissing => hall ⟨y, hy, hmissing⟩
      have hperm := (List.subperm_of_subset (hnodup.sublist h'.sublist) hback).perm_of_length_le (Nat.le_of_eq hlength)
      exact hgone (hperm.mem_iff.mpr hx)
    have hxBefore := h.sublist.subset hx
    have hyBefore := h'.sublist.subset hy
    have hxy := h'.oldest x hxBefore hgone y hy (h.unshielded y hyBefore hyGone)
    have hyx := h.oldest y hyBefore hyGone x hx (h'.unshielded x hxBefore hgone)
    exact hgone (hanti x hxBefore y hyBefore hxy hyx ▸ hy)
  have hperm := (List.subperm_of_subset (hnodup.sublist h.sublist) hsubset).perm_of_length_le
    (Nat.le_of_eq hlength.symm)
  exact sublist_eq_of_mem_iff hnodup h.sublist h'.sublist fun _ => hperm.mem_iff

/-! ### One sorted list of victims -/

section
variable {key : α → κ} [DecidableEq κ] {shielded : α → Bool} {cmp : α → α → Ordering}

theorem evicted_batch (t : Table key) {candidates : List α}
    (hperm : candidates.Perm (t.rows.filter fun x => !shielded x))
    (hsorted : candidates.Pairwise fun x y => (cmp x y).isLE = true) (count : Nat) :
    Evicted shielded cmp t.rows (t.erase ((candidates.take count).map key)).rows := by
  have hcandidate : ∀ x, x ∈ candidates ↔ x ∈ t.rows ∧ shielded x = false := by
    intro x
    rw [hperm.mem_iff, List.mem_filter]
    simp
  have hvictims : ∀ v ∈ candidates.take count, v ∈ t.rows :=
    fun v hv => ((hcandidate v).mp (List.mem_of_mem_take hv)).1
  have hgone : ∀ x ∈ t.rows, x ∉ (t.erase ((candidates.take count).map key)).rows → x ∈ candidates.take count := by
    intro x hx hnot
    by_contra hkeep
    exact hnot (Table.mem_erase.mpr ⟨hx, fun hk => hkeep ((t.key_mem_map hvictims hx).mp hk)⟩)
  refine ⟨List.filter_sublist, ?_, ?_⟩
  · intro x hx hnot
    exact ((hcandidate x).mp (List.mem_of_mem_take (hgone x hx hnot))).2
  · intro x hx hnot y hy hyopen
    obtain ⟨hyrow, hykey⟩ := Table.mem_erase.mp hy
    have hyc : y ∈ candidates := (hcandidate y).mpr ⟨hyrow, hyopen⟩
    have hydrop : y ∈ candidates.drop count := by
      rw [← List.take_append_drop count candidates] at hyc
      rcases List.mem_append.mp hyc with htake | hdrop
      · exact absurd (List.mem_map_of_mem htake) hykey
      · exact hdrop
    rw [← List.take_append_drop count candidates] at hsorted
    exact (List.pairwise_append.mp hsorted).2.2 x (hgone x hx hnot) y hydrop

/-- Each victim is a row of its own. -/
theorem length_batch (t : Table key) {candidates : List α}
    (hperm : candidates.Perm (t.rows.filter fun x => !shielded x)) (count : Nat) :
    (t.erase ((candidates.take count).map key)).rows.length + min count candidates.length = t.rows.length := by
  have hlength := t.length_erase (candidates.take count) ?_ ?_
  · rwa [List.length_take] at hlength
  · exact (hperm.nodup_iff.mpr (t.nodup.filter _)).sublist (List.take_sublist ..)
  · intro v hv
    exact (List.mem_filter.mp (hperm.mem_iff.mp (List.mem_of_mem_take hv))).1

/-! ### The oldest row, again and again -/

/-- The older of the best row so far and the next one. -/
def older (shielded : α → Bool) (cmp : α → α → Ordering) (best : Option α) (x : α) : Option α :=
  if shielded x then best
  else match best with
    | none => some x
    | some b => if cmp x b = .lt then some x else some b

/-- The oldest unshielded row of a walk. -/
def oldest (shielded : α → Bool) (cmp : α → α → Ordering) (rows : List α) : Option α :=
  rows.foldl (older shielded cmp) none

omit [DecidableEq κ] in
variable (shielded cmp) in
theorem oldest_spec [Std.TransCmp cmp] (rows : List α) :
    (oldest shielded cmp rows = none → ∀ x ∈ rows, shielded x = true) ∧
    ∀ e, oldest shielded cmp rows = some e →
      e ∈ rows ∧ shielded e = false ∧ ∀ x ∈ rows, shielded x = false → (cmp e x).isLE = true := by
  induction rows using List.reverseRecOn with
  | nil =>
    refine ⟨fun _ x hx => absurd hx List.not_mem_nil, ?_⟩
    intro e he
    cases he
  | append_singleton rows x ih =>
    obtain ⟨ihnone, ihsome⟩ := ih
    have hstep : oldest shielded cmp (rows ++ [x]) = older shielded cmp (oldest shielded cmp rows) x :=
      List.foldl_concat ..
    rw [hstep]
    unfold older
    by_cases hx : shielded x = true
    · rw [if_pos hx]
      refine ⟨?_, ?_⟩
      · intro hnone y hy
        rcases List.mem_append.mp hy with hy | hy
        · exact ihnone hnone y hy
        · rwa [List.mem_singleton.mp hy]
      · intro e he
        obtain ⟨hmem, hopen, hle⟩ := ihsome e he
        refine ⟨List.mem_append_left _ hmem, hopen, ?_⟩
        intro y hy hyopen
        rcases List.mem_append.mp hy with hy | hy
        · exact hle y hy hyopen
        · rw [List.mem_singleton.mp hy, hx] at hyopen
          cases hyopen
    · rw [if_neg hx]
      have hxopen : shielded x = false := by simpa using hx
      cases hbest : oldest shielded cmp rows with
      | none =>
        refine ⟨fun h => absurd h (by simp), ?_⟩
        intro e he
        obtain rfl := Option.some_inj.mp he
        refine ⟨by simp, hxopen, ?_⟩
        intro y hy hyopen
        rcases List.mem_append.mp hy with hy | hy
        · rw [ihnone hbest y hy] at hyopen
          cases hyopen
        · rw [List.mem_singleton.mp hy]
          exact Std.ReflCmp.isLE_rfl
      | some b =>
        obtain ⟨hmem, hopen, hle⟩ := ihsome b hbest
        by_cases hlt : cmp x b = .lt
        · simp only [hlt, if_true]
          refine ⟨fun h => absurd h (by simp), ?_⟩
          intro e he
          obtain rfl := Option.some_inj.mp he
          have hxb : (cmp x b).isLE = true := by rw [hlt]; rfl
          refine ⟨by simp, hxopen, ?_⟩
          intro y hy hyopen
          rcases List.mem_append.mp hy with hy | hy
          · exact Std.TransCmp.isLE_trans hxb (hle y hy hyopen)
          · rw [List.mem_singleton.mp hy]
            exact Std.ReflCmp.isLE_rfl
        · simp only [hlt, if_false]
          refine ⟨fun h => absurd h (by simp), ?_⟩
          intro e he
          obtain rfl := Option.some_inj.mp he
          refine ⟨List.mem_append_left _ hmem, hopen, ?_⟩
          intro y hy hyopen
          rcases List.mem_append.mp hy with hy | hy
          · exact hle y hy hyopen
          · rw [List.mem_singleton.mp hy]
            have hge : (cmp x b).isGE = true := by
              cases hc : cmp x b with
              | lt => exact absurd hc hlt
              | eq => rfl
              | gt => rfl
            rwa [Std.OrientedCmp.isGE_eq_isLE] at hge

omit [DecidableEq κ] in
/-- Where the order tells rows apart, the oldest does not depend on the walk. -/
theorem oldest_perm [Std.TransCmp cmp] {rows rows' : List α} (hperm : rows.Perm rows')
    (hanti : ∀ x ∈ rows, ∀ y ∈ rows, (cmp x y).isLE = true → (cmp y x).isLE = true → x = y) :
    oldest shielded cmp rows = oldest shielded cmp rows' := by
  obtain ⟨hnone, hsome⟩ := oldest_spec shielded cmp rows
  obtain ⟨hnone', hsome'⟩ := oldest_spec shielded cmp rows'
  cases h : oldest shielded cmp rows with
  | none =>
    cases h' : oldest shielded cmp rows' with
    | none => rfl
    | some e' =>
      obtain ⟨hmem, hopen, -⟩ := hsome' e' h'
      rw [hnone h e' (hperm.mem_iff.mpr hmem)] at hopen
      cases hopen
  | some e =>
    obtain ⟨hmem, hopen, hle⟩ := hsome e h
    cases h' : oldest shielded cmp rows' with
    | none =>
      rw [hnone' h' e (hperm.mem_iff.mp hmem)] at hopen
      cases hopen
    | some e' =>
      obtain ⟨hmem', hopen', hle'⟩ := hsome' e' h'
      have hback := hperm.mem_iff.mpr hmem'
      rw [hanti e hmem e' hback (hle e' hback hopen') (hle' e (hperm.mem_iff.mp hmem) hopen)]

/-- Removing the oldest row after an eviction is an eviction. -/
theorem Evicted.step {before : List α} {t : Table key} (h : Evicted shielded cmp before t.rows) {e : α}
    (he : e ∈ t.rows) (hopen : shielded e = false)
    (hle : ∀ x ∈ t.rows, shielded x = false → (cmp e x).isLE = true) :
    Evicted shielded cmp before (t.erase [key e]).rows := by
  have hgone : ∀ x, x ∈ t.rows → x ∉ (t.erase [key e]).rows → x = e := by
    intro x hx hnot
    by_contra hne
    apply hnot
    refine Table.mem_erase.mpr ⟨hx, ?_⟩
    intro hk
    exact hne (t.eq_of_key hx he (List.mem_singleton.mp hk))
  refine ⟨List.filter_sublist.trans h.sublist, ?_, ?_⟩
  · intro x hx hnot
    by_cases hmem : x ∈ t.rows
    · rw [hgone x hmem hnot]
      exact hopen
    · exact h.unshielded x hx hmem
  · intro x hx hnot y hy hyopen
    have hyrow := (Table.mem_erase.mp hy).1
    by_cases hmem : x ∈ t.rows
    · rw [hgone x hmem hnot]
      exact hle y hyrow hyopen
    · exact h.oldest x hx hmem y hyrow hyopen

end

/-! ### The most recent rows -/

/-- As many rows as fit, and none that goes is more recent than one that stays. -/
structure Newest (cmp : α → α → Ordering) (limit : Nat) (before after : List α) : Prop where
  nodup : after.Nodup
  subset : ∀ x ∈ after, x ∈ before
  length : after.length = min before.length limit
  oldest : ∀ x ∈ before, x ∉ after → ∀ y ∈ after, (cmp x y).isLE = true

section
variable {cmp : α → α → Ordering} {limit : Nat} {before after before' after' : List α}

theorem Newest.refl (hnodup : before.Nodup) (hfits : before.length ≤ limit) : Newest cmp limit before before where
  nodup := hnodup
  subset _ hx := hx
  length := by omega
  oldest _ hx hnot := absurd hx hnot

/-- Nothing goes from rows that fit. -/
theorem Newest.whole (h : Newest cmp limit before after) (hfits : before.length ≤ limit) : after.Perm before := by
  apply (List.subperm_of_subset h.nodup h.subset).perm_of_length_le
  have := h.length
  omega

theorem Newest.perm (h : Newest cmp limit before after) (hbefore : before.Perm before') (hafter : after.Perm after') :
    Newest cmp limit before' after' where
  nodup := hafter.nodup_iff.mp h.nodup
  subset x hx := hbefore.mem_iff.mp (h.subset x (hafter.mem_iff.mpr hx))
  length := by rw [← hafter.length_eq, ← hbefore.length_eq, h.length]
  oldest x hx hnot y hy :=
    h.oldest x (hbefore.mem_iff.mpr hx) (fun hmem => hnot (hafter.mem_iff.mp hmem)) y (hafter.mem_iff.mpr hy)

theorem Newest.trans {last : List α} (h : Newest cmp limit before after) (h' : Newest cmp limit after last) :
    Newest cmp limit before last where
  nodup := h'.nodup
  subset x hx := h.subset x (h'.subset x hx)
  length := by
    rw [h'.length, h.length]
    omega
  oldest x hx hnot y hy := by
    by_cases hmem : x ∈ after
    · exact h'.oldest x hmem hnot y hy
    · exact h.oldest x hx hmem y (h'.subset y hy)

/-- Where the order tells rows apart, the rows that stay are determined. -/
theorem Newest.unique (h : Newest cmp limit before after) (h' : Newest cmp limit before after')
    (hanti : ∀ x ∈ before, ∀ y ∈ before, (cmp x y).isLE = true → (cmp y x).isLE = true → x = y) :
    after.Perm after' := by
  have hlength : after.length = after'.length := h.length.trans h'.length.symm
  apply (List.subperm_of_subset h.nodup _).perm_of_length_le (Nat.le_of_eq hlength.symm)
  intro x hx
  by_contra hnot
  -- Then some row stays only in the other, and each is at most as recent as the other.
  obtain ⟨y, hy, hynot⟩ : ∃ y ∈ after', y ∉ after := by
    by_contra hall
    have hsubset : after' ⊆ after := by
      intro y hy
      by_contra hmissing
      exact hall ⟨y, hy, hmissing⟩
    have hperm := (List.subperm_of_subset h'.nodup hsubset).perm_of_length_le (Nat.le_of_eq hlength)
    exact hnot (hperm.mem_iff.mpr hx)
  have hxy := h'.oldest x (h.subset x hx) hnot y hy
  have hyx := h.oldest y (h'.subset y hy) hynot x hx
  rw [hanti x (h.subset x hx) y (h'.subset y hy) hxy hyx] at hx
  exact hynot hx

theorem Newest.map {β : Type} {cmp' : β → β → Ordering} (h : Newest cmp limit before after) (f : α → β)
    (hinj : ∀ x ∈ before, ∀ y ∈ before, f x = f y → x = y)
    (hcmp : ∀ x ∈ before, ∀ y ∈ before, cmp' (f x) (f y) = cmp x y) :
    Newest cmp' limit (before.map f) (after.map f) where
  nodup := h.nodup.map_on fun x hx y hy => hinj x (h.subset x hx) y (h.subset y hy)
  subset z hz := by
    obtain ⟨x, hx, rfl⟩ := List.mem_map.mp hz
    exact List.mem_map_of_mem (h.subset x hx)
  length := by rw [List.length_map, List.length_map, h.length]
  oldest z hz hnot w hw := by
    obtain ⟨x, hx, rfl⟩ := List.mem_map.mp hz
    obtain ⟨y, hy, rfl⟩ := List.mem_map.mp hw
    rw [hcmp x hx y (h.subset y hy)]
    exact h.oldest x hx (fun hmem => hnot (List.mem_map_of_mem hmem)) y hy

/-- An eviction that shields nothing and goes no further than it must. -/
theorem Evicted.newest {shielded : α → Bool} (h : Evicted shielded cmp before after) (hnodup : before.Nodup)
    (hopen : ∀ x ∈ before, shielded x = false) (hlength : after.length = min before.length limit) :
    Newest cmp limit before after where
  nodup := hnodup.sublist h.sublist
  subset _ hx := h.sublist.subset hx
  length := hlength
  oldest x hx hnot y hy := h.oldest x hx hnot y hy (hopen y (h.sublist.subset hy))

/-- The first rows of a list in which the more recent come first. -/
theorem newest_take {rows sorted : List α} (hperm : sorted.Perm rows) (hnodup : rows.Nodup)
    (hsorted : sorted.Pairwise fun x y => (cmp y x).isLE = true) (limit : Nat) :
    Newest cmp limit rows (sorted.take limit) where
  nodup := (hperm.nodup_iff.mpr hnodup).sublist (List.take_sublist ..)
  subset x hx := hperm.mem_iff.mp (List.mem_of_mem_take hx)
  length := by rw [List.length_take, hperm.length_eq, Nat.min_comm]
  oldest x hx hnot y hy := by
    have hdrop : x ∈ sorted.drop limit := by
      have hmem := hperm.mem_iff.mpr hx
      rw [← List.take_append_drop limit sorted] at hmem
      exact (List.mem_append.mp hmem).resolve_left hnot
    rw [← List.take_append_drop limit sorted] at hsorted
    exact (List.pairwise_append.mp hsorted).2.2 y hy x hdrop

/-- A row is left out exactly where there are more than fit. -/
theorem Newest.left_out_iff (h : Newest cmp limit before after) (hnodup : before.Nodup) :
    (∃ x ∈ before, x ∉ after) ↔ limit < before.length := by
  have hlength := h.length
  constructor
  · rintro ⟨x, hx, hgone⟩
    by_contra hfits
    exact hgone ((h.whole (Nat.le_of_not_lt hfits)).mem_iff.mpr hx)
  · intro hover
    by_contra hall
    have hsubset : before ⊆ after := fun x hx => by_contra fun hgone => hall ⟨x, hx, hgone⟩
    have hle := (List.subperm_of_subset hnodup hsubset).length_le
    omega

/-! ### Row by row -/

/-- There is room for the next row. -/
theorem Newest.add (h : Newest cmp limit before after) {x : α} (hnew : x ∉ before) (hroom : after.length < limit) :
    Newest cmp limit (before ++ [x]) (after ++ [x]) := by
  have hlength := h.length
  have hwhole := h.whole (by omega)
  apply Newest.perm (Newest.refl _ _) (List.Perm.refl _) (hwhole.symm.append_right [x])
  · apply List.nodup_append.mpr
    refine ⟨hwhole.nodup_iff.mp h.nodup, List.nodup_singleton x, ?_⟩
    intro y hy z hz heq
    rw [heq, List.mem_singleton.mp hz] at hy
    exact hnew hy
  · simp only [List.length_append, List.length_singleton]
    omega

/-- There is no room, and the next row is not more recent than any that is kept. -/
theorem Newest.refuse (h : Newest cmp limit before after) {x : α} (hfull : limit ≤ after.length)
    (hx : ∀ y ∈ after, (cmp x y).isLE = true) : Newest cmp limit (before ++ [x]) after where
  nodup := h.nodup
  subset y hy := List.mem_append_left _ (h.subset y hy)
  length := by
    have := h.length
    simp only [List.length_append, List.length_singleton]
    omega
  oldest y hy hnot z hz := by
    rcases List.mem_append.mp hy with hy | hy
    · exact h.oldest y hy hnot z hz
    · rw [List.mem_singleton.mp hy]
      exact hx z hz

/-- There is no room, and the next row takes the place of the oldest. -/
theorem Newest.exchange [Std.TransCmp cmp] (h : Newest cmp limit before after) {x old : α} {rest : List α}
    (hnew : x ∉ before) (hfull : limit ≤ after.length) (hrest : after.Perm (old :: rest))
    (hold : ∀ y ∈ after, (cmp old y).isLE = true) (hx : (cmp old x).isLE = true) :
    Newest cmp limit (before ++ [x]) (rest ++ [x]) := by
  have hmem : ∀ y ∈ rest, y ∈ after := fun y hy => hrest.mem_iff.mpr (List.mem_cons_of_mem _ hy)
  have hnodup := List.nodup_cons.mp (hrest.nodup_iff.mp h.nodup)
  refine ⟨?_, ?_, ?_, ?_⟩
  · refine List.nodup_append.mpr ⟨hnodup.2, List.nodup_singleton x, ?_⟩
    intro y hy z hz heq
    rw [List.mem_singleton.mp hz] at heq
    exact hnew (heq ▸ h.subset y (hmem y hy))
  · intro y hy
    rcases List.mem_append.mp hy with hy | hy
    · exact List.mem_append_left _ (h.subset y (hmem y hy))
    · exact List.mem_append_right _ hy
  · have hlength := h.length
    have hcount := hrest.length_eq
    simp only [List.length_append, List.length_cons, List.length_nil] at hcount ⊢
    omega
  · intro y hy hnot z hz
    have hyold : y = old ∨ y ∉ after := by
      by_cases hafter : y ∈ after
      · rcases List.mem_cons.mp (hrest.mem_iff.mp hafter) with heq | hin
        · exact Or.inl heq
        · exact absurd (List.mem_append_left _ hin) hnot
      · exact Or.inr hafter
    have hybefore : y ∈ before := by
      rcases List.mem_append.mp hy with hy | hy
      · exact hy
      · exact absurd (List.mem_append_right _ hy) hnot
    have holdmem : old ∈ after := hrest.mem_iff.mpr (List.mem_cons_self ..)
    have hle : (cmp y old).isLE = true := by
      rcases hyold with rfl | hgone
      · exact Std.ReflCmp.isLE_rfl
      · exact h.oldest y hybefore hgone old holdmem
    rcases List.mem_append.mp hz with hz | hz
    · exact Std.TransCmp.isLE_trans hle (hold z (hmem z hz))
    · rw [List.mem_singleton.mp hz]
      exact Std.TransCmp.isLE_trans hle hx

end

end SystemMonitor.Lib
