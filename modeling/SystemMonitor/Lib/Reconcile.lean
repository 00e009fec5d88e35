import Mathlib.Data.List.Nodup
import Mathlib.Data.List.Perm.Subperm
import Mathlib.Order.Lattice

/-! A newly discovered list that is matched with the list before it.

Both hold each identity once. A record that is found again is merged with the record it was; a
change is looked for in one direction only, beside the lengths. `reconcile_perm`: the
result does not depend on the order of either list. `changed_iff`: the change is exactly that
of the set of identities. -/
namespace SystemMonitor.Lib.Reconcile

variable {α κ : Type} {identity : α → κ} {same : α → α → Bool} {merge : α → α → α} {old old' new new' : List α}

/-- A record that was found again, or as it is. -/
def retained (same : α → α → Bool) (merge : α → α → α) (old : List α) (found : α) : α :=
  match old.find? fun before => same before found with
  | none => found
  | some before => merge before found

def changed (same : α → α → Bool) (old new : List α) : Bool :=
  old.length != new.length || new.any fun found => (old.find? fun before => same before found).isNone

/-- The comparison of records is the comparison of identities, as far as the two lists go. -/
def Agrees (identity : α → κ) (same : α → α → Bool) (old new : List α) : Prop :=
  ∀ before ∈ old, ∀ found ∈ new, same before found = true ↔ identity before = identity found

theorem find?_eq_some_iff (hdistinct : (old.map identity).Nodup) (hagrees : Agrees identity same old new) {found before : α}
    (hfound : found ∈ new) :
    (old.find? fun before => same before found) = some before ↔ before ∈ old ∧ identity before = identity found := by
  constructor
  · intro h
    have hmem := List.mem_of_find?_eq_some h
    have hsame := List.find?_some h
    exact ⟨hmem, (hagrees before hmem found hfound).mp hsame⟩
  · intro ⟨hmem, hidentity⟩
    have hsome : (old.find? fun before => same before found).isSome = true :=
      List.find?_isSome.mpr ⟨before, hmem, (hagrees before hmem found hfound).mpr hidentity⟩
    obtain ⟨other, hother⟩ := Option.isSome_iff_exists.mp hsome
    have hotherMem := List.mem_of_find?_eq_some hother
    have hotherSame := List.find?_some hother
    have hotherIdentity := (hagrees other hotherMem found hfound).mp hotherSame
    rw [List.inj_on_of_nodup_map hdistinct hmem hotherMem (hidentity.trans hotherIdentity.symm)]
    exact hother

theorem find?_eq_none_iff (hagrees : Agrees identity same old new) {found : α} (hfound : found ∈ new) :
    (old.find? fun before => same before found) = none ↔ identity found ∉ old.map identity := by
  rw [List.find?_eq_none, List.mem_map]
  constructor
  · intro h ⟨before, hmem, hidentity⟩
    exact h before hmem ((hagrees before hmem found hfound).mpr hidentity)
  · intro h before hmem hsame
    exact h ⟨before, hmem, (hagrees before hmem found hfound).mp hsame⟩

/-- What becomes of a record: merged with the one it was, or kept when it is new. -/
theorem retained_cases (hdistinct : (old.map identity).Nodup) (hagrees : Agrees identity same old new) {found : α}
    (hfound : found ∈ new) :
    (∃ before ∈ old, identity before = identity found ∧ retained same merge old found = merge before found) ∨
      identity found ∉ old.map identity ∧ retained same merge old found = found := by
  rw [retained]
  cases hfind : old.find? fun before => same before found with
  | none => exact .inr ⟨(find?_eq_none_iff hagrees hfound).mp hfind, rfl⟩
  | some before =>
    obtain ⟨hmem, hidentity⟩ := (find?_eq_some_iff hdistinct hagrees hfound).mp hfind
    exact .inl ⟨before, hmem, hidentity, rfl⟩

theorem identity_retained (hmerge : ∀ before found, identity (merge before found) = identity found) (old : List α) (found : α) :
    identity (retained same merge old found) = identity found := by
  rw [retained]
  split
  next => rfl
  next before _ => exact hmerge before found

/-- A merge that keeps the discovered identity keeps the identities of the list. -/
theorem map_identity_retained (hmerge : ∀ before found, identity (merge before found) = identity found) (old new : List α) :
    (new.map (retained same merge old)).map identity = new.map identity := by
  rw [List.map_map]
  exact List.map_congr_left fun found _ => identity_retained hmerge old found

/-- **A change is found exactly when the identities are other ones.** -/
theorem changed_iff (hold : (old.map identity).Nodup) (hnew : (new.map identity).Nodup)
    (hagrees : Agrees identity same old new) :
    changed same old new = true ↔ ¬∀ key, key ∈ old.map identity ↔ key ∈ new.map identity := by
  have hunchanged : changed same old new = false ↔
      old.length = new.length ∧ new.map identity ⊆ old.map identity := by
    simp only [changed, Bool.or_eq_false_iff, bne_eq_false_iff_eq, List.any_eq_false, Option.isNone_iff_eq_none]
    refine and_congr_right fun _ => ?_
    constructor
    · intro h key hkey
      obtain ⟨found, hfound, rfl⟩ := List.mem_map.mp hkey
      by_contra hmissing
      exact h found hfound ((find?_eq_none_iff hagrees hfound).mpr hmissing)
    · intro h found hfound hnone
      exact (find?_eq_none_iff hagrees hfound).mp hnone (h (List.mem_map_of_mem hfound))
  rw [← Bool.not_eq_false, hunchanged]
  refine not_congr ⟨fun ⟨hlength, hsubset⟩ key => ?_, fun hsame => ?_⟩
  · -- as many identities, each once, and one list within the other
    have hperm : (new.map identity).Perm (old.map identity) :=
      (List.Nodup.subperm hnew hsubset).perm_of_length_le
        (by rw [List.length_map, List.length_map]; exact Nat.le_of_eq hlength)
    exact hperm.mem_iff.symm
  · have hperm : (old.map identity).Perm (new.map identity) := (List.perm_ext_iff_of_nodup hold hnew).mpr hsame
    have hlength := hperm.length_eq
    rw [List.length_map, List.length_map] at hlength
    exact ⟨hlength, fun key => (hsame key).mpr⟩

theorem retained_perm (hdistinct : (old.map identity).Nodup) (hagrees : Agrees identity same old new)
    (hperm : old'.Perm old) {found : α} (hfound : found ∈ new) :
    retained same merge old' found = retained same merge old found := by
  have hagrees' : Agrees identity same old' new := fun before hbefore => hagrees before (hperm.mem_iff.mp hbefore)
  have hdistinct' : (old'.map identity).Nodup := (hperm.map identity).nodup_iff.mpr hdistinct
  have hfind : (old'.find? fun before => same before found) = old.find? fun before => same before found := by
    cases hfind : old.find? fun before => same before found with
    | none =>
      rw [find?_eq_none_iff hagrees' hfound, (hperm.map identity).mem_iff]
      exact (find?_eq_none_iff hagrees hfound).mp hfind
    | some before =>
      rw [find?_eq_some_iff hdistinct' hagrees' hfound, hperm.mem_iff]
      exact (find?_eq_some_iff hdistinct hagrees hfound).mp hfind
  rw [retained, retained, hfind]

/-- **The order of the lists does not matter**, when the new one is sorted. -/
theorem reconcile_perm {β : Type} [LinearOrder β] {key : α → β} (hkey : ∀ a b, key a = key b → identity a = identity b)
    {sort : List α → List α} (hsort : ∀ l, (sort l).Perm l) (hsorted : ∀ l, (sort l).Pairwise (key · ≤ key ·))
    (hold : (old.map identity).Nodup) (hnew : (new.map identity).Nodup) (hagrees : Agrees identity same old new)
    (holdPerm : old'.Perm old) (hnewPerm : new'.Perm new) :
    (sort new').map (retained same merge old') = (sort new).map (retained same merge old) := by
  have heq : sort new' = sort new := by
    refine ((hsort new').trans (hnewPerm.trans (hsort new).symm)).eq_of_pairwise ?_ (hsorted new') (hsorted new)
    intro a b ha hb hab hba
    refine List.inj_on_of_nodup_map hnew ?_ ?_ (hkey a b (le_antisymm hab hba))
    · exact hnewPerm.mem_iff.mp ((hsort new').mem_iff.mp ha)
    · exact (hsort new).mem_iff.mp hb
  rw [heq]
  exact List.map_congr_left fun found hfound =>
    retained_perm hold hagrees holdPerm ((hsort new).mem_iff.mp hfound)

end SystemMonitor.Lib.Reconcile
