import Mathlib.Data.List.Nodup
import Mathlib.Data.List.Perm.Subperm
import Mathlib.Data.Nat.Find
import Mathlib.Data.List.Range
import Mathlib.Logic.Relation

/-! Walking up a partial parent function to a root.

Each key has at most one parent, and nothing keeps the links from forming cycles. A
key is at a distance from the root when its chain gets there; the distance is unique
(`At.unique`), falls along the chain (`At.below`), and is at most the number of keys
that have a parent (`At.le_length`), so a walk guarded by that number finds it
(`walk_eq`) and finds nothing elsewhere (`walk_eq_zero`). Above any key stand at most as
many keys as there are (`nth_bounded`), and the keys of a chain whose last has its parent
in the chain are closed under parents (`Chain.closed`). -/
namespace SystemMonitor.Lib.ParentWalk
variable {κ : Type} (parent : κ → Option κ) (root : κ)

/-- The number of steps to the root added to `depth`, or zero when the guard runs out or
the chain ends elsewhere. -/
def walk [DecidableEq κ] : Nat → κ → Nat → Nat
  | 0, current, depth => if current = root then depth else 0
  | guard + 1, current, depth =>
    if current = root then depth
    else match parent current with
      | none => 0
      | some next => walk guard next (depth + 1)

/-- The chain of a key first meets the root after so many steps. -/
def At : Nat → κ → Prop
  | 0, key => key = root
  | n + 1, key => key ≠ root ∧ ∃ next, parent key = some next ∧ At n next

/-- One step up. -/
def Step (a b : κ) : Prop := parent a = some b

/-- One step up, below the root. -/
def StepBelow (a b : κ) : Prop := a ≠ root ∧ parent a = some b

variable {parent root}

theorem At.unique {n m : Nat} {key : κ} (hn : At parent root n key) (hm : At parent root m key) : n = m := by
  induction n generalizing m key with
  | zero =>
    cases m with
    | zero => rfl
    | succ m => exact absurd hn hm.1
  | succ n ih =>
    cases m with
    | zero => exact absurd hm hn.1
    | succ m =>
      obtain ⟨-, next, hnext, hn⟩ := hn
      obtain ⟨-, next', hnext', hm⟩ := hm
      rw [hnext] at hnext'
      cases hnext'
      rw [ih hn hm]

theorem At.reaches {n : Nat} {key : κ} (h : At parent root n key) : Relation.ReflTransGen (Step parent) key root := by
  induction n generalizing key with
  | zero => exact h ▸ .refl
  | succ n ih =>
    obtain ⟨-, next, hnext, h⟩ := h
    exact .head hnext (ih h)

theorem exists_at {key : κ} (h : Relation.ReflTransGen (Step parent) key root) : ∃ n, At parent root n key := by
  induction h using Relation.ReflTransGen.head_induction_on with
  | refl => exact ⟨0, rfl⟩
  | @head a b hstep _ ih =>
    by_cases hroot : a = root
    · exact ⟨0, hroot⟩
    · obtain ⟨n, hn⟩ := ih
      exact ⟨n + 1, hroot, b, hstep, hn⟩

/-- A chain that leads on to the root passes it only when the root is on a cycle. -/
theorem transGen_below (hroot : ¬ Relation.TransGen (Step parent) root root) {a b : κ}
    (hab : Relation.TransGen (Step parent) a b) (hb : Relation.ReflTransGen (Step parent) b root) :
    Relation.TransGen (StepBelow parent root) a b := by
  have hne : ∀ c, Relation.TransGen (Step parent) c b → c ≠ root := by
    intro c hcb hc
    subst hc
    exact hroot (hcb.trans_left hb)
  induction hab using Relation.TransGen.head_induction_on with
  | @single a hstep => exact .single ⟨hne a (.single hstep), hstep⟩
  | @head a c hstep hcb ih => exact .head ⟨hne a (.head hstep hcb), hstep⟩ ih

/-- Up the chain the distance falls. -/
theorem At.below {n : Nat} {a b : κ} (h : At parent root n a) (hab : Relation.TransGen (StepBelow parent root) a b) :
    ∃ m < n, At parent root m b := by
  induction hab with
  | single hstep =>
    cases n with
    | zero => exact absurd h hstep.1
    | succ n =>
      obtain ⟨-, next, hnext, h⟩ := h
      rw [hstep.2] at hnext
      cases hnext
      exact ⟨n, Nat.lt_succ_self n, h⟩
  | tail _ hstep ih =>
    obtain ⟨m, hm, hb⟩ := ih
    cases m with
    | zero => exact absurd hb hstep.1
    | succ m =>
      obtain ⟨-, next, hnext, hb⟩ := hb
      rw [hstep.2] at hnext
      cases hnext
      exact ⟨m, by omega, hb⟩

/-- The keys on a chain are all different. -/
theorem At.chain {n : Nat} {key : κ} (h : At parent root n key) : ∃ chain : List κ, chain.length = n ∧ chain.Nodup ∧
    ∀ k ∈ chain, (parent k).isSome = true ∧ ∃ m, 0 < m ∧ m ≤ n ∧ At parent root m k := by
  induction n generalizing key with
  | zero => exact ⟨[], rfl, List.nodup_nil, fun k hk => absurd hk List.not_mem_nil⟩
  | succ n ih =>
    have hkey := h
    obtain ⟨-, next, hnext, h⟩ := h
    obtain ⟨chain, hlength, hnodup, hchain⟩ := ih h
    refine ⟨key :: chain, by rw [List.length_cons, hlength], List.nodup_cons.mpr ⟨?_, hnodup⟩, ?_⟩
    · intro hmem
      obtain ⟨-, m, -, hm, hat⟩ := hchain key hmem
      have hsame := hat.unique hkey
      omega
    · intro k hk
      rcases List.mem_cons.mp hk with rfl | hk
      · exact ⟨by rw [hnext]; rfl, n + 1, Nat.succ_pos n, Nat.le_refl _, hkey⟩
      · obtain ⟨hsome, m, hpos, hm, hat⟩ := hchain k hk
        exact ⟨hsome, m, hpos, Nat.le_succ_of_le hm, hat⟩

theorem At.le_length {keys : List κ} (hkeys : ∀ k, (parent k).isSome = true → k ∈ keys) {n : Nat} {key : κ}
    (h : At parent root n key) : n ≤ keys.length := by
  obtain ⟨chain, hlength, hnodup, hchain⟩ := h.chain
  rw [← hlength]
  exact (hnodup.subperm fun k hk => hkeys k (hchain k hk).1).length_le

section
variable [DecidableEq κ]

theorem walk_eq {n guard : Nat} {key : κ} (h : At parent root n key) (hguard : n ≤ guard) (depth : Nat) :
    walk parent root guard key depth = depth + n := by
  induction n generalizing guard key depth with
  | zero => cases guard <;> exact if_pos h
  | succ n ih =>
    obtain ⟨hne, next, hnext, h⟩ := h
    cases guard with
    | zero => exact absurd hguard (Nat.not_succ_le_zero n)
    | succ guard =>
      simp only [walk, if_neg hne, hnext]
      rw [ih h (Nat.le_of_succ_le_succ hguard)]
      omega

theorem walk_eq_zero {key : κ} (h : ∀ n, ¬ At parent root n key) (guard depth : Nat) :
    walk parent root guard key depth = 0 := by
  induction guard generalizing key depth with
  | zero => exact if_neg (h 0)
  | succ guard ih =>
    simp only [walk, if_neg (show ¬ key = root from h 0)]
    cases hnext : parent key with
    | none => rfl
    | some next => exact ih (fun n hn => h (n + 1) ⟨h 0, next, hnext, hn⟩) (depth + 1)

end

/-! ### Everything above a key -/

/-- So many steps up. -/
def nth (parent : κ → Option κ) : Nat → κ → Option κ
  | 0, key => some key
  | n + 1, key => (parent key).bind (nth parent n)

theorem nth_add (m n : Nat) (key : κ) : nth parent (m + n) key = (nth parent m key).bind (nth parent n) := by
  induction m generalizing key with
  | zero =>
    rw [Nat.zero_add]
    rfl
  | succ m ih =>
    rw [Nat.succ_add, nth, nth]
    cases parent key with
    | none => rfl
    | some next => exact ih next

theorem reaches_iff_nth {a b : κ} : Relation.ReflTransGen (Step parent) a b ↔ ∃ n, nth parent n a = some b := by
  constructor
  · intro h
    induction h using Relation.ReflTransGen.head_induction_on with
    | refl => exact ⟨0, rfl⟩
    | @head a c hstep _ ih =>
      obtain ⟨n, hn⟩ := ih
      exact ⟨n + 1, by rw [nth, show parent a = some c from hstep, Option.bind_some, hn]⟩
  · intro h
    obtain ⟨n, hn⟩ := h
    induction n generalizing a with
    | zero => exact Option.some.inj hn ▸ .refl
    | succ n ih =>
      rw [nth, Option.bind_eq_some_iff] at hn
      obtain ⟨c, hstep, hn⟩ := hn
      exact .head hstep (ih hn)

/-- What stands before a key on the way up stands there as well. -/
theorem nth_of_le {m n : Nat} {a b : κ} (hn : nth parent n a = some b) (hle : m ≤ n) :
    ∃ c, nth parent m a = some c ∧ nth parent (n - m) c = some b := by
  obtain ⟨k, rfl⟩ := Nat.exists_eq_add_of_le hle
  rw [nth_add, Option.bind_eq_some_iff] at hn
  rwa [Nat.add_sub_cancel_left]

/-- A way up can be cut short until it passes no key twice. -/
theorem nth_bounded {keys : List κ} (hkeys : ∀ k j, parent k = some j → j ∈ keys) {n : Nat} {a b : κ}
    (ha : a ∈ keys) (h : nth parent n a = some b) : ∃ m < keys.length, nth parent m a = some b := by
  have hmem : ∀ m c, nth parent m a = some c → c ∈ keys := by
    intro m c hm
    cases m with
    | zero => exact Option.some.inj hm ▸ ha
    | succ m =>
      rw [nth_add, Option.bind_eq_some_iff] at hm
      obtain ⟨d, -, hd⟩ := hm
      rw [nth, Option.bind_eq_some_iff] at hd
      obtain ⟨e, hstep, he⟩ := hd
      exact Option.some.inj he ▸ hkeys d e hstep
  induction n using Nat.strongRecOn with
  | ind n ih =>
    by_cases hlt : n < keys.length
    · exact ⟨n, hlt, h⟩
    · -- two of the first keys are the same
      have hway : ∀ m, m ≤ n → ∃ c, nth parent m a = some c := fun m hm => (nth_of_le h hm).imp fun _ hc => hc.1
      have hdup : ¬ ((List.range (n + 1)).map fun m => nth parent m a).Nodup := by
        intro hnodup
        have hsub : ∀ c ∈ (List.range (n + 1)).map fun m => nth parent m a, c ∈ keys.map some := by
          intro c hc
          obtain ⟨m, hm, rfl⟩ := List.mem_map.mp hc
          obtain ⟨d, hd⟩ := hway m (Nat.lt_succ_iff.mp (List.mem_range.mp hm))
          rw [hd]
          exact List.mem_map_of_mem (hmem m d hd)
        have hle := (hnodup.subperm hsub).length_le
        rw [List.length_map, List.length_range, List.length_map] at hle
        omega
      obtain ⟨i, j, hij, hj, heq⟩ : ∃ i j, i < j ∧ j ≤ n ∧ nth parent i a = nth parent j a := by
        by_contra hnone
        refine hdup ((List.nodup_map_iff_inj_on List.nodup_range).mpr fun i hi j hj heq => ?_)
        rw [List.mem_range] at hi hj
        rcases Nat.lt_trichotomy i j with hlt' | rfl | hgt
        · exact absurd ⟨i, j, hlt', by omega, heq⟩ hnone
        · rfl
        · exact absurd ⟨j, i, hgt, by omega, heq.symm⟩ hnone
      obtain ⟨c, hc, hrest⟩ := nth_of_le h hj
      have hshort : nth parent (i + (n - j)) a = some b := by
        rw [nth_add, heq, hc, Option.bind_some, hrest]
      exact ih (i + (n - j)) (by omega) hshort

/-- The keys below a key on one way up, the nearest first. -/
def Chain (parent : κ → Option κ) : κ → List κ → Prop
  | _, [] => True
  | key, below :: rest => parent below = some key ∧ Chain parent below rest

theorem Chain.reaches {key below : κ} {chain : List κ} (h : Chain parent key chain) (hmem : below ∈ chain) :
    Relation.TransGen (Step parent) below key := by
  induction chain generalizing key with
  | nil => cases hmem
  | cons first rest ih =>
    rcases List.mem_cons.mp hmem with rfl | hmem
    · exact .single h.1
    · exact .tail (ih h.2 hmem) h.1

/-- The parent of a key of the chain is in the chain, or is the key above it. -/
theorem Chain.parent_mem {key below next : κ} {chain : List κ} (h : Chain parent key chain) (hmem : below ∈ chain)
    (hnext : parent below = some next) : next ∈ key :: chain := by
  induction chain generalizing key with
  | nil => cases hmem
  | cons first rest ih =>
    rcases List.mem_cons.mp hmem with rfl | hmem
    · rw [h.1] at hnext
      cases hnext
      exact List.mem_cons_self ..
    · exact List.mem_cons_of_mem key (ih h.2 hmem)

/-- A chain that comes back to itself holds everything above it. -/
theorem Chain.closed {key next : κ} {chain : List κ} (h : Chain parent key chain) (hnext : parent key = some next)
    (hback : next ∈ key :: chain) {above : κ} (habove : Relation.ReflTransGen (Step parent) key above) :
    above ∈ key :: chain := by
  induction habove with
  | refl => exact List.mem_cons_self ..
  | tail _ hstep ih =>
    rcases List.mem_cons.mp ih with rfl | hmem
    · rw [Step, hnext] at hstep
      cases hstep
      exact hback
    · exact h.parent_mem hmem hstep

/-! ### Cycles -/

def OnCycle (parent : κ → Option κ) (key : κ) : Prop := Relation.TransGen (Step parent) key key

/-- The way up from a key meets its first member of a cycle here. -/
def Enters (parent : κ → Option κ) (key entry : κ) : Prop :=
  OnCycle parent entry ∧
    (key = entry ∨ ∃ below, ¬ OnCycle parent below ∧ Relation.ReflTransGen (Step parent) key below ∧ parent below = some entry)

theorem Enters.reaches {key entry : κ} (h : Enters parent key entry) : Relation.ReflTransGen (Step parent) key entry := by
  obtain ⟨-, rfl | ⟨below, -, hbelow, hstep⟩⟩ := h
  · exact .refl
  · exact .tail hbelow hstep

/-- What is above a member of a cycle leads back to it. -/
theorem OnCycle.back {key above : κ} (h : OnCycle parent key) (habove : Relation.ReflTransGen (Step parent) key above) :
    Relation.ReflTransGen (Step parent) above key := by
  induction habove with
  | refl => exact .refl
  | @tail b c _ hstep ih =>
    rcases Relation.ReflTransGen.cases_head ih with rfl | ⟨d, hd, hback⟩
    · -- the walk is back at the key, and goes on as the cycle does
      obtain ⟨d, hd, hback⟩ := Relation.TransGen.head'_iff.mp h
      rw [Step, show parent b = some c from hstep] at hd
      cases hd
      exact hback
    · rw [Step, show parent b = some c from hstep] at hd
      cases hd
      exact hback

theorem OnCycle.above {key above : κ} (h : OnCycle parent key) (habove : Relation.ReflTransGen (Step parent) key above) :
    OnCycle parent above :=
  .trans_right (h.back habove) (.trans_left h habove)

/-- Two ways up from one key: one is part of the other. -/
theorem reaches_total {a b c : κ} (hb : Relation.ReflTransGen (Step parent) a b)
    (hc : Relation.ReflTransGen (Step parent) a c) :
    Relation.ReflTransGen (Step parent) b c ∨ Relation.ReflTransGen (Step parent) c b := by
  induction hb with
  | refl => exact .inl hc
  | @tail b d _ hstep ih =>
    rcases ih with h | h
    · rcases Relation.ReflTransGen.cases_head h with rfl | ⟨e, he, h⟩
      · exact .inr (.single hstep)
      · rw [Step, show parent b = some d from hstep] at he
        cases he
        exact .inl h
    · exact .inr (.tail h hstep)

/-- Two keys of a cycle have different parents. -/
theorem OnCycle.inj {a b next : κ} (ha : OnCycle parent a) (hb : OnCycle parent b) (hnextA : parent a = some next)
    (hnextB : parent b = some next) : a = b := by
  have hfirst : ∀ {key}, OnCycle parent key → parent key = some next →
      ∃ n, nth parent n next = some key ∧ ∀ m < n, nth parent m next ≠ some key := by
    intro key hkey hstep
    classical
    have hex : ∃ n, nth parent n next = some key := reaches_iff_nth.mp (hkey.back (.single hstep))
    exact ⟨Nat.find hex, Nat.find_spec hex, fun m hm => Nat.find_min hex hm⟩
  -- the first arrivals at both come equally late, or the later one would come after a whole round
  have hround : ∀ {x y : κ} {n m : Nat}, parent x = some next → nth parent n next = some x → nth parent m next = some y →
      (∀ k < m, nth parent k next ≠ some y) → m ≤ n := by
    intro x y n m hx hn hm hmin
    by_contra hlt
    have hback : nth parent (n + 1) next = some next := by
      rw [nth_add, hn, Option.bind_some, nth, hx]
      rfl
    obtain ⟨c, hc, hrest⟩ := nth_of_le hm (show n + 1 ≤ m by omega)
    rw [hback] at hc
    cases hc
    exact hmin (m - (n + 1)) (by omega) hrest
  obtain ⟨n, hn, hnMin⟩ := hfirst ha hnextA
  obtain ⟨m, hm, hmMin⟩ := hfirst hb hnextB
  have hsame : n = m := Nat.le_antisymm (hround hnextB hm hn hnMin) (hround hnextA hn hm hmMin)
  rw [hsame, hm] at hn
  exact (Option.some.inj hn).symm

theorem Enters.unique {key a b : κ} (ha : Enters parent key a) (hb : Enters parent key b) : a = b := by
  obtain ⟨hacycle, hway⟩ := ha
  obtain ⟨hbcycle, hway'⟩ := hb
  rcases hway with rfl | ⟨below, hnot, hbelow, hstep⟩
  · rcases hway' with rfl | ⟨below, hnot, hbelow, -⟩
    · rfl
    · exact absurd (hacycle.above hbelow) hnot
  · rcases hway' with rfl | ⟨below', hnot', hbelow', hstep'⟩
    · exact absurd (hbcycle.above hbelow) hnot
    · -- neither of the two steps into the cycle is above the other
      have hsame : ∀ {x y z : κ}, ¬ OnCycle parent y → OnCycle parent z → parent x = some z →
          Relation.ReflTransGen (Step parent) x y → x = y := by
        intro x y z hy hz hx hxy
        rcases Relation.ReflTransGen.cases_head hxy with rfl | ⟨w, hw, hwy⟩
        · rfl
        · rw [Step, hx] at hw
          cases hw
          exact absurd (hz.above hwy) hy
      have heq : below = below' := by
        rcases reaches_total hbelow hbelow' with h | h
        · exact hsame hnot' hacycle hstep h
        · exact (hsame hnot hbcycle hstep' h).symm
      rw [heq, hstep'] at hstep
      cases hstep
      rfl

theorem Chain.split {key middle : κ} {upper lower : List κ} (h : Chain parent key (upper ++ middle :: lower)) :
    Chain parent key (upper ++ [middle]) ∧ Chain parent middle lower := by
  induction upper generalizing key with
  | nil => exact ⟨⟨h.1, trivial⟩, h.2⟩
  | cons first rest ih =>
    obtain ⟨hupper, hlower⟩ := ih h.2
    exact ⟨⟨h.1, hupper⟩, hlower⟩

theorem Chain.onCycle {key next : κ} {chain : List κ} (h : Chain parent key chain) (hnext : parent key = some next)
    (hback : next ∈ key :: chain) : OnCycle parent key := by
  have hkey : Relation.ReflTransGen (Step parent) next key := by
    rcases List.mem_cons.mp hback with rfl | hmem
    · exact .refl
    · exact (h.reaches hmem).to_reflTransGen
  exact .head' hnext hkey

/-- From the lowest key of a chain everything in it is reached. -/
theorem Chain.getLast_reaches {key : κ} {chain : List κ} (h : Chain parent key chain) :
    Relation.ReflTransGen (Step parent) ((key :: chain).getLast (List.cons_ne_nil key chain)) key := by
  cases chain with
  | nil => exact .refl
  | cons below rest =>
    rw [List.getLast_cons (List.cons_ne_nil below rest)]
    exact (h.reaches (List.getLast_mem _)).to_reflTransGen

/-- Where a chain comes back to one of its keys, its lowest key enters the cycle. -/
theorem Chain.enters {key next : κ} {chain : List κ} (h : Chain parent key chain) (hnodup : (key :: chain).Nodup)
    (hnext : parent key = some next) (hback : next ∈ key :: chain) :
    Enters parent ((key :: chain).getLast (List.cons_ne_nil key chain)) next := by
  obtain ⟨upper, lower, hchain, hupper, hlower, hmem, hlast⟩ : ∃ upper lower, chain = upper ++ lower ∧
      Chain parent key upper ∧ Chain parent next lower ∧ next ∈ key :: upper ∧
      (key :: upper).getLast (List.cons_ne_nil key upper) = next := by
    rcases List.mem_cons.mp hback with rfl | hmem
    · exact ⟨[], chain, rfl, trivial, h, List.mem_cons_self .., rfl⟩
    · obtain ⟨upper, lower, rfl⟩ := List.append_of_mem hmem
      obtain ⟨hupper, hlower⟩ := h.split
      refine ⟨upper ++ [next], lower, by simp, hupper, hlower, ?_, ?_⟩
      · exact List.mem_cons_of_mem key (List.mem_append_right upper (List.mem_cons_self ..))
      · rw [List.getLast_cons (by simp), List.getLast_append_singleton]
  refine ⟨(h.onCycle hnext hback).above (.single hnext), ?_⟩
  cases lower with
  | nil =>
    refine .inl ?_
    rw [List.append_nil] at hchain
    subst hchain
    exact hlast
  | cons below rest =>
    refine .inr ⟨below, ?_, ?_, hlower.1⟩
    · -- what the segment above holds is closed under parents, and `below` is not in it
      intro hbelow
      obtain ⟨up, hup, hreach⟩ := Relation.TransGen.head'_iff.mp hbelow
      rw [Step, hlower.1] at hup
      cases hup
      have hin := hupper.closed hnext hmem (.head hnext hreach)
      rw [hchain, ← List.cons_append] at hnodup
      exact (List.nodup_append.mp hnodup).2.2 below hin below (List.mem_cons_self ..) rfl
    · subst hchain
      have hsame : (key :: (upper ++ below :: rest)).getLast (List.cons_ne_nil _ _) =
          (below :: rest).getLast (List.cons_ne_nil _ _) := by
        rw [List.getLast_cons (by simp), List.getLast_append_of_ne_nil]
      rw [hsame]
      exact hlower.2.getLast_reaches

/-! ### Keys under other names -/

/-- `f` renames the keys, and no key that is a parent shares its name. -/
structure Renames {μ : Type} (f : κ → μ) (parent : κ → Option κ) (parent' : μ → Option μ) : Prop where
  step : ∀ key, parent' (f key) = (parent key).map f
  inj : ∀ {key below next}, parent below = some next → f next = f key → next = key

namespace Renames
variable {μ : Type} {f : κ → μ} {parent' : μ → Option μ}

theorem nth_eq (h : Renames f parent parent') (n : Nat) (key : κ) : nth parent' n (f key) = (nth parent n key).map f := by
  induction n generalizing key with
  | zero => rfl
  | succ n ih =>
    rw [nth, nth, h.step]
    cases parent key with
    | none => rfl
    | some next => exact ih next

theorem reaches_iff (h : Renames f parent parent') {a : κ} {b : μ} :
    Relation.ReflTransGen (Step parent') (f a) b ↔ ∃ c, f c = b ∧ Relation.ReflTransGen (Step parent) a c := by
  rw [reaches_iff_nth]
  constructor
  · intro hb
    obtain ⟨n, hn⟩ := hb
    rw [h.nth_eq, Option.map_eq_some_iff] at hn
    obtain ⟨c, hc, hname⟩ := hn
    exact ⟨c, hname, reaches_iff_nth.mpr ⟨n, hc⟩⟩
  · intro hc
    obtain ⟨c, hname, hc⟩ := hc
    obtain ⟨n, hn⟩ := reaches_iff_nth.mp hc
    exact ⟨n, by rw [h.nth_eq, hn, Option.map_some, hname]⟩

theorem onCycle_iff (h : Renames f parent parent') {key : κ} : OnCycle parent' (f key) ↔ OnCycle parent key := by
  constructor
  · intro hcycle
    obtain ⟨b, hstep, hback⟩ := Relation.TransGen.head'_iff.mp hcycle
    rw [Step, h.step, Option.map_eq_some_iff] at hstep
    obtain ⟨c, hc, rfl⟩ := hstep
    obtain ⟨d, hname, hway⟩ := h.reaches_iff.mp hback
    have hcycle : Relation.TransGen (Step parent) key d := .head' hc hway
    obtain ⟨e, -, hlast⟩ := Relation.TransGen.tail'_iff.mp hcycle
    exact h.inj hlast hname ▸ hcycle
  · intro hcycle
    obtain ⟨c, hstep, hback⟩ := Relation.TransGen.head'_iff.mp hcycle
    exact .head' (by rw [Step, h.step, show parent key = some c from hstep, Option.map_some])
      (h.reaches_iff.mpr ⟨key, rfl, hback⟩)

theorem enters (h : Renames f parent parent') {key entry : κ} (henters : Enters parent key entry) :
    Enters parent' (f key) (f entry) := by
  obtain ⟨hcycle, hway⟩ := henters
  refine ⟨h.onCycle_iff.mpr hcycle, hway.imp (congrArg f) fun hbelow => ?_⟩
  obtain ⟨below, hnot, hreach, hstep⟩ := hbelow
  exact ⟨f below, fun hcycle => hnot (h.onCycle_iff.mp hcycle), h.reaches_iff.mpr ⟨below, rfl, hreach⟩,
    by rw [h.step, hstep, Option.map_some]⟩

end Renames

end SystemMonitor.Lib.ParentWalk
