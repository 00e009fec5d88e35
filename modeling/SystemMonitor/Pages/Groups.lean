import SystemMonitor.Lib.GroupBy
import SystemMonitor.Pages.Rows

/-! The groups of the Processes page.

The processes that pass the filters and the search are put into groups by the key of their
identity. The groups are objects that are kept from one call to the next, found through
an index by their keys, and a call may fail midway. What a call returns is given by its
own input all the same (`collect_groups_eq`).

The identity of a process, GLib's case folding, the case-insensitive comparison and the
rounding of doubles enter as functions, the failures of allocations as inputs. -/
namespace SystemMonitor.Pages
open Lib

inductive ProcessCategory where
  | application
  | background
  | system
  deriving DecidableEq

def ProcessCategory.number : ProcessCategory → Nat
  | .application => 0
  | .background => 1
  | .system => 2

structure LsmProcessGroupMetrics where
  cpuPercent : ℚ := 0
  memoryBytes : Nat := 0
  diskBytesPerSec : ℚ := 0
  diskAvailable : Bool := false
  gpuPercent : ℚ := 0
  gpuEnginePeak : Double := .finite 0
  gpuEngine : Chars 256 := .empty
  gpuAvailable : Bool := false
  processCount : Nat := 0
  allStopped : Bool := false
  allEfficient : Bool := false

structure GroupEnv where
  casefold : Text → Text
  asciiCompareCi : Text → Text → Int
  round : ℚ → ℚ
  arith : Arithmetic

def dblMax : ℚ := (2 ^ 53 - 1) * 2 ^ 971

def sizeMax : Nat := 2 ^ 64 - 1

/-! ### Metrics -/

section
variable (env : GroupEnv)

def positiveFiniteSum (total : ℚ) : Double → ℚ
  | .finite value =>
    if value ≤ 0 then total
    else if value ≤ env.round (dblMax - total) then env.round (total + value)
    else dblMax
  | _ => total

/-- `lsm_process_group_metrics_add`. -/
def lsmProcessGroupMetricsAdd (metrics : LsmProcessGroupMetrics) (process : LsmProcessInfo) : LsmProcessGroupMetrics :=
  let first := metrics.processCount = 0
  let stopped := decide (process.state.text = ascii "Stopped")
  let disk := if process.ioRateAvailable then
      positiveFiniteSum env (positiveFiniteSum env metrics.diskBytesPerSec process.readBytesPerSec) process.writeBytesPerSec
    else metrics.diskBytesPerSec
  let peak := process.gpuAvailable && process.gpuEngine.text ≠ [] &&
    (!metrics.gpuAvailable || metrics.gpuEnginePeak.less process.gpuPercent)
  { cpuPercent := positiveFiniteSum env metrics.cpuPercent process.cpuPercent
    memoryBytes := env.arith.u64AddSaturating metrics.memoryBytes process.rssBytes
    diskBytesPerSec := disk
    diskAvailable := metrics.diskAvailable || process.ioRateAvailable
    gpuPercent := if process.gpuAvailable then positiveFiniteSum env metrics.gpuPercent process.gpuPercent else metrics.gpuPercent
    gpuEnginePeak := if peak then process.gpuPercent else metrics.gpuEnginePeak
    gpuEngine := if peak then process.gpuEngine else metrics.gpuEngine
    gpuAvailable := metrics.gpuAvailable || process.gpuAvailable
    processCount := if metrics.processCount < sizeMax then metrics.processCount + 1 else metrics.processCount
    allStopped := if first then stopped else metrics.allStopped && stopped
    allEfficient := if first then process.efficiencyMode else metrics.allEfficient && process.efficiencyMode }

/-! ### Filters and search -/

def foldedProcessContains (process : LsmProcessInfo) (needle : Text) : Bool :=
  if needle = [] then true
  else (CStrings.strstr needle (env.casefold process.name.text)).isSome ||
    (CStrings.strstr needle (env.casefold process.user.text)).isSome ||
    (CStrings.strstr needle (env.casefold process.command.text)).isSome

def processExcluded (foldedFilters : List Text) (process : LsmProcessInfo) : Bool :=
  foldedFilters.any fun filter => filter ≠ [] && foldedProcessContains env process filter

def processMatchesSearch (process : LsmProcessInfo) (groupName foldedSearch : Text) : Bool :=
  if foldedSearch = [] then true
  else (CStrings.strstr foldedSearch (env.casefold groupName)).isSome ||
    foldedProcessContains env process foldedSearch ||
    (CStrings.strstr foldedSearch (Decimal.print process.pid)).isSome

/-! ### The groups -/

/-- What `process_identity` says of a process. -/
structure ProcessIdentity where
  category : ProcessCategory
  key : Chars 256
  name : Chars 128
  icon : Chars 128

structure ProcessGroup extends ProcessIdentity where
  indices : List Nat := []
  metrics : LsmProcessGroupMetrics := {}

/-- Which allocations fail: before the cache is touched, for the folded search and filters,
and for the texts, a new group or the index list at a process. -/
structure Failures where
  start : Bool := false
  search : Bool := false
  filters : Bool := false
  text : Nat → Bool := fun _ => false
  group : Nat → Bool := fun _ => false
  append : Nat → Bool := fun _ => false

/-- One call of `collect_groups`. -/
structure GroupCall where
  rows : List LsmProcessInfo
  search : Text
  filters : List Text
  identity : Nat → ProcessIdentity
  failures : Failures := {}

def groupCacheRemoveFast (cache : List ProcessGroup) (index : Nat) : List ProcessGroup := swapRemove cache index

/-- The loop that removes the empty groups, from the last to the first. -/
def removeEmpty : Nat → List ProcessGroup → List ProcessGroup
  | 0, cache => cache
  | index + 1, cache =>
    match cache[index]? with
    | some group => removeEmpty index (if group.indices = [] then groupCacheRemoveFast cache index else cache)
    | none => removeEmpty index cache

def groupAppend (group : ProcessGroup) (index : Nat) (process : LsmProcessInfo) : ProcessGroup :=
  { group with
    indices := group.indices ++ [index]
    metrics := lsmProcessGroupMetricsAdd env group.metrics process }

/-- The cache, the index by keys, and the places of the groups found so far. -/
structure Collecting where
  cache : List ProcessGroup
  index : Chars 256 → Option Nat
  groups : List Nat := []

/-- The place of the group of a key, in the cache with a new group if there is none. -/
def Collecting.lookup (s : Collecting) (identity : ProcessIdentity) : Collecting × Nat :=
  match s.index identity.key with
  | some place => (s, place)
  | none =>
    ({ s with
       cache := s.cache ++ [{ identity with }]
       index := Function.update s.index identity.key (some s.cache.length) }, s.cache.length)

/-- A group that is empty takes its texts from the process, and becomes one of the groups. -/
def Collecting.begin (s : Collecting) (place : Nat) (identity : ProcessIdentity) : Collecting :=
  match s.cache[place]? with
  | some group =>
    if group.indices = [] then
      { s with
        cache := s.cache.set place
          { group with category := identity.category, name := identity.name, icon := identity.icon }
        groups := s.groups ++ [place] }
    else s
  | none => s

def Collecting.append (s : Collecting) (place index : Nat) (process : LsmProcessInfo) : Collecting :=
  { s with cache := s.cache.modify place fun group => groupAppend env group index process }

variable (call : GroupCall)

namespace GroupCall

def foldedSearch : Text := if call.search = [] then [] else env.casefold call.search

def foldedFilters : List Text := call.filters.map env.casefold

/-- One process; `false`: the call fails at it. -/
def step (s : Collecting) (index : Nat) : Collecting × Bool :=
  let process := call.rows.getD index {}
  let identity := call.identity index
  let needFolded := call.foldedSearch env ≠ [] || call.filters ≠ []
  if needFolded && call.failures.text index then (s, false)
  else if processExcluded env (call.foldedFilters env) process then (s, true)
  else if !processMatchesSearch env process identity.name.text (call.foldedSearch env) then (s, true)
  else if (s.index identity.key).isNone && call.failures.group index then (s, false)
  else
    let (s, place) := s.lookup identity
    let s := s.begin place identity
    if call.failures.append index then (s, false) else (s.append env place index process, true)

def loop : Collecting → List Nat → Collecting × Bool
  | s, [] => (s, true)
  | s, index :: rest =>
    match call.step env s index with
    | (s, true) => loop s rest
    | (s, false) => (s, false)

end GroupCall

/-- `compare_groups`: the first does not stand after the second. -/
def compareGroups (a b : ProcessGroup) : Bool :=
  if a.category ≠ b.category then a.category.number < b.category.number
  else env.asciiCompareCi a.name.text b.name.text ≤ 0

/-- The kept groups without their members, and the index of their keys. -/
def resetCache (cache : List ProcessGroup) : List ProcessGroup :=
  (removeEmpty cache.length cache).map fun group => { group with indices := [], metrics := {} }

def indexCache (cache : List ProcessGroup) : Chars 256 → Option Nat :=
  cache.zipIdx.foldl (fun index entry => Function.update index entry.1.key (some entry.2)) fun _ => none

/-- `collect_groups`: the cache afterwards, and the groups returned; `none`: it failed. -/
def collectGroups (cache : List ProcessGroup) : List ProcessGroup × Option (List ProcessGroup) :=
  if call.failures.start then (cache, none)
  else
    let cache := resetCache cache
    if (call.search ≠ [] && call.failures.search) || (call.filters ≠ [] && call.failures.filters) then (cache, none)
    else
      match call.loop env ⟨cache, indexCache cache, []⟩ (List.range call.rows.length) with
      | (s, false) => (s.cache, none)
      | (s, true) => (s.cache, some ((s.groups.filterMap fun place => s.cache[place]?).mergeSort (compareGroups env)))

/-- The cache that a sequence of calls leaves. -/
def cacheAfter (calls : List GroupCall) : List ProcessGroup :=
  calls.foldl (fun cache call => (collectGroups env call cache).1) []

end

/-! ### What a call returns, by its input -/

namespace GroupCall
variable (env : GroupEnv) (call : GroupCall)

def key (index : Nat) : Chars 256 := (call.identity index).key

/-- The process passes the filters and the search. -/
def passes (index : Nat) : Bool :=
  !processExcluded env (call.foldedFilters env) (call.rows.getD index {}) &&
    processMatchesSearch env (call.rows.getD index {}) (call.identity index).name.text (call.foldedSearch env)

def passing : List Nat := (List.range call.rows.length).filter (call.passes env)

/-- The group of these members: the identity of the first, and the fold of their metrics. -/
def group (members : List Nat) : ProcessGroup :=
  { call.identity (members.headD 0) with
    indices := members
    metrics := members.foldl (fun metrics index => lsmProcessGroupMetricsAdd env metrics (call.rows.getD index {})) {} }

/-- The groups of some processes, in the order of their first members. -/
def groups (done : List Nat) : List ProcessGroup :=
  (keysOf call.key done).map fun k => call.group env (membersOf call.key done k)

theorem group_concat {members : List Nat} (h : members ≠ []) (index : Nat) :
    call.group env (members ++ [index]) = groupAppend env (call.group env members) index (call.rows.getD index {}) := by
  cases members with
  | nil => exact absurd rfl h
  | cons first rest => simp [group, groupAppend, List.foldl_append]

theorem group_singleton (index : Nat) :
    call.group env [index] = groupAppend env { call.identity index with } index (call.rows.getD index {}) := rfl

end GroupCall

/-! ### The cache -/

section
variable {env : GroupEnv} {call : GroupCall}

theorem removeEmpty_nodup (n : Nat) {cache : List ProcessGroup} (h : (cache.map (·.key)).Nodup) :
    ((removeEmpty n cache).map (·.key)).Nodup := by
  induction n generalizing cache with
  | zero => exact h
  | succ n ih =>
    rw [removeEmpty]
    split
    · rename_i group hgroup
      refine ih ?_
      split
      · have hlt := (List.getElem?_eq_some_iff.mp hgroup).1
        refine ((swapRemove_perm hlt).map (·.key)).nodup_iff.mpr (h.sublist ?_)
        exact (List.eraseIdx_sublist cache n).map _
      · exact h
    · exact ih h

theorem indexes_indexCache {cache : List ProcessGroup} (h : (cache.map (·.key)).Nodup) :
    Indexes (indexCache cache) (cache.map (·.key)) := by
  induction cache using List.reverseRecOn with
  | nil => exact .nil
  | append_singleton rest group ih =>
    rw [List.map_append] at h
    obtain ⟨hrest, -, hnew⟩ := List.nodup_append.mp h
    have hindex : indexCache (rest ++ [group]) =
        Function.update (indexCache rest) group.key (some (rest.map (·.key)).length) := by
      simp [indexCache, List.zipIdx_append, List.foldl_append]
    rw [hindex, List.map_append]
    refine (ih hrest).concat fun hmem => ?_
    exact hnew group.key hmem group.key (List.mem_singleton_self _) rfl

/-- The state while the processes `done` have been put into groups. -/
structure Holds (env : GroupEnv) (call : GroupCall) (s : Collecting) (done : List Nat) : Prop where
  indexed : Indexes s.index (s.cache.map (·.key))
  listed : s.groups.map (fun place => (s.cache.map (·.key))[place]?) = (keysOf call.key done).map some
  live : ∀ (place : Nat) (group : ProcessGroup), s.cache[place]? = some group → group.key ∈ keysOf call.key done →
    group = call.group env (membersOf call.key done group.key)
  idle : ∀ (place : Nat) (group : ProcessGroup), s.cache[place]? = some group → group.key ∉ keysOf call.key done →
    group.indices = [] ∧ group.metrics = {}

/-- Listed places hold the values of the listed keys. -/
theorem filterMap_listed {β κ : Type} {f : Nat → Option β} (key : β → κ) {g : κ → β} {places : List Nat} {keys : List κ}
    (hlisted : places.map (fun place => (f place).map key) = keys.map some)
    (hvalue : ∀ place b, f place = some b → key b ∈ keys → b = g (key b)) : places.filterMap f = keys.map g := by
  induction places generalizing keys with
  | nil =>
    rw [List.map_nil, eq_comm, List.map_eq_nil_iff] at hlisted
    rw [hlisted]
    rfl
  | cons place rest ih =>
    cases keys with
    | nil => cases hlisted
    | cons k keys =>
      obtain ⟨hfirst, hrest⟩ := List.cons.inj hlisted
      obtain ⟨b, hb, hkey⟩ := Option.map_eq_some_iff.mp hfirst
      rw [List.filterMap_cons_some hb, List.map_cons, ih hrest fun place b hb hmem =>
        hvalue place b hb (List.mem_cons_of_mem k hmem)]
      rw [hvalue place b hb (hkey ▸ List.mem_cons_self ..), hkey]

theorem Holds.result {s : Collecting} {done : List Nat} (h : Holds env call s done) :
    (s.groups.filterMap fun place => s.cache[place]?) = call.groups env done := by
  refine filterMap_listed (·.key) ?_ h.live
  have hlisted := h.listed
  simp only [List.getElem?_map] at hlisted
  exact hlisted

/-- The state before the first process. -/
theorem Holds.start {cache : List ProcessGroup} (h : (cache.map (·.key)).Nodup) :
    Holds env call ⟨resetCache cache, indexCache (resetCache cache), []⟩ [] := by
  have hkeys : (resetCache cache).map (·.key) = (removeEmpty cache.length cache).map (·.key) := by
    rw [resetCache, List.map_map]
    rfl
  have hnodup : ((resetCache cache).map (·.key)).Nodup := hkeys ▸ removeEmpty_nodup _ h
  refine ⟨indexes_indexCache hnodup, rfl, fun place group hgroup hmem => absurd hmem List.not_mem_nil, ?_⟩
  intro place group hgroup _
  obtain ⟨old, -, rfl⟩ := List.mem_map.mp (List.mem_of_getElem? hgroup)
  exact ⟨rfl, rfl⟩

/-- The group of the process is found, or a new one is there. -/
theorem Holds.lookup {s : Collecting} {done : List Nat} (h : Holds env call s done) (index : Nat) :
    Holds env call (s.lookup (call.identity index)).1 done ∧
      ∃ group, (s.lookup (call.identity index)).1.cache[(s.lookup (call.identity index)).2]? = some group ∧
        group.key = call.key index := by
  unfold Collecting.lookup
  cases hindex : s.index (call.identity index).key with
  | some place =>
    have hget := (h.indexed _ _).mp hindex
    rw [List.getElem?_map, Option.map_eq_some_iff] at hget
    exact ⟨h, hget⟩
  | none =>
    have hnew : (call.identity index).key ∉ s.cache.map (·.key) := h.indexed.eq_none_iff.mp hindex
    have hcache : ∀ (place : Nat) (group : ProcessGroup), (s.cache ++ [({ call.identity index with } : ProcessGroup)])[place]? = some group →
        s.cache[place]? = some group ∨ group = { call.identity index with } := by
      intro place group hgroup
      by_cases hlt : place < s.cache.length
      · rw [List.getElem?_append_left hlt] at hgroup
        exact .inl hgroup
      · rw [List.getElem?_append_right (Nat.le_of_not_lt hlt)] at hgroup
        exact .inr (List.mem_singleton.mp (List.mem_of_getElem? hgroup))
    have hkeysIn : ∀ k ∈ keysOf call.key done, k ∈ s.cache.map (·.key) := by
      intro k hk
      have hmem : some k ∈ s.groups.map fun place => (s.cache.map (·.key))[place]? := h.listed ▸ List.mem_map_of_mem hk
      obtain ⟨place, -, hget⟩ := List.mem_map.mp hmem
      exact List.mem_of_getElem? hget
    refine ⟨⟨?_, ?_, ?_, ?_⟩, { call.identity index with }, by simp, rfl⟩
    · have hconcat := h.indexed.concat hnew
      rw [List.length_map] at hconcat
      rw [List.map_append]
      exact hconcat
    · rw [← h.listed]
      refine List.map_congr_left fun place hplace => ?_
      have hsome : (s.cache.map (·.key))[place]? ∈ (keysOf call.key done).map some := h.listed ▸ List.mem_map_of_mem hplace
      obtain ⟨k, -, hk⟩ := List.mem_map.mp hsome
      rw [List.map_append, List.getElem?_append_left (List.getElem?_eq_some_iff.mp hk.symm).1]
    · intro place group hgroup hmem
      rcases hcache place group hgroup with hold | rfl
      · exact h.live place group hold hmem
      · exact absurd (hkeysIn _ hmem) hnew
    · intro place group hgroup hmem
      rcases hcache place group hgroup with hold | rfl
      · exact h.idle place group hold hmem
      · exact ⟨rfl, rfl⟩

theorem begin_keys (s : Collecting) (place : Nat) (identity : ProcessIdentity) :
    (s.begin place identity).cache.map (·.key) = s.cache.map (·.key) := by
  unfold Collecting.begin
  split
  · rename_i group hgroup
    split
    · obtain ⟨hlt, rfl⟩ := List.getElem?_eq_some_iff.mp hgroup
      have hlt' : place < (s.cache.map (·.key)).length := by rwa [List.length_map]
      have hkey : (s.cache.map (·.key))[place] = s.cache[place].key := List.getElem_map _
      rw [List.map_set]
      exact hkey ▸ List.set_getElem_self hlt'
    · rfl
  · rfl

theorem append_keys (s : Collecting) (place index : Nat) (process : LsmProcessInfo) :
    (s.append env place index process).cache.map (·.key) = s.cache.map (·.key) := by
  refine List.ext_getElem? fun i => ?_
  rw [Collecting.append, List.getElem?_map, List.getElem?_map, List.getElem?_modify,
    Option.map_eq_map, Option.map_map]
  refine Option.map_congr fun group _ => ?_
  dsimp only [Function.comp_apply]
  split <;> rfl

theorem append_cell (s : Collecting) (place index : Nat) (process : LsmProcessInfo) (other : Nat) :
    (s.append env place index process).cache[other]? =
      if other = place then s.cache[place]?.map fun group => groupAppend env group index process else s.cache[other]? := by
  rw [Collecting.append, List.getElem?_modify, Option.map_eq_map]
  split
  · rename_i h
    subst h
    rw [if_pos rfl]
  · rename_i h
    rw [if_neg (Ne.symm h)]
    simp

/-- Only one place has a key. -/
theorem Holds.place_unique {s : Collecting} {done : List Nat} (h : Holds env call s done) {place other : Nat}
    {group group' : ProcessGroup} (hgroup : s.cache[place]? = some group) (hother : s.cache[other]? = some group')
    (hkey : group'.key = group.key) : other = place := by
  have hplace := (h.indexed group.key place).mpr (by rw [List.getElem?_map, hgroup]; rfl)
  have hplace' := (h.indexed group.key other).mpr (by rw [List.getElem?_map, hother, ← hkey]; rfl)
  rw [hplace] at hplace'
  exact (Option.some.inj hplace').symm

/-- A process joins the group of its key. -/
theorem Holds.join {s : Collecting} {done : List Nat} (h : Holds env call s done) {place index : Nat} {group : ProcessGroup}
    (hgroup : s.cache[place]? = some group) (hkey : group.key = call.key index) (hmem : call.key index ∈ keysOf call.key done) :
    Holds env call ((s.begin place (call.identity index)).append env place index (call.rows.getD index {}))
      (done ++ [index]) := by
  have hlive := h.live place group hgroup (hkey ▸ hmem)
  have hmembers : membersOf call.key done group.key ≠ [] := fun hnil => membersOf_eq_nil.mp hnil (hkey ▸ hmem)
  have hbegin : s.begin place (call.identity index) = s := by
    have hindices : group.indices ≠ [] := by
      rw [hlive]
      exact hmembers
    simp only [Collecting.begin, hgroup, if_neg hindices]
  have hkeys : keysOf call.key (done ++ [index]) = keysOf call.key done := by rw [keysOf_concat, if_pos hmem]
  rw [hbegin]
  refine ⟨?_, ?_, ?_, ?_⟩
  · rw [append_keys]
    exact h.indexed
  · rw [append_keys, hkeys]
    exact h.listed
  · intro other group' hother hmem'
    rw [append_cell] at hother
    rw [hkeys] at hmem'
    split at hother
    · rw [hgroup] at hother
      cases hother
      have hkey' : (groupAppend env group index (call.rows.getD index {})).key = group.key := rfl
      rw [hkey', membersOf_concat, if_pos hkey.symm, call.group_concat env hmembers, ← hlive]
    · rename_i hne
      have hdifferent : ¬ call.key index = group'.key := fun heq => hne (h.place_unique hgroup hother (heq.symm.trans hkey.symm))
      rw [membersOf_concat, if_neg hdifferent]
      exact h.live other group' hother hmem'
  · intro other group' hother hmem'
    rw [append_cell] at hother
    rw [hkeys] at hmem'
    split at hother
    · rw [hgroup] at hother
      cases hother
      exact absurd (hkey ▸ hmem) hmem'
    · exact h.idle other group' hother hmem'

/-- A process begins the group of its key. -/
theorem Holds.found {s : Collecting} {done : List Nat} (h : Holds env call s done) {place index : Nat} {group : ProcessGroup}
    (hgroup : s.cache[place]? = some group) (hkey : group.key = call.key index) (hmem : call.key index ∉ keysOf call.key done) :
    Holds env call ((s.begin place (call.identity index)).append env place index (call.rows.getD index {}))
      (done ++ [index]) := by
  obtain ⟨hindices, hmetrics⟩ := h.idle place group hgroup (hkey ▸ hmem)
  have hkeys : keysOf call.key (done ++ [index]) = keysOf call.key done ++ [call.key index] := by
    rw [keysOf_concat, if_neg hmem]
  have hbegin : s.begin place (call.identity index) =
      { s with
        cache := s.cache.set place { call.identity index with }
        groups := s.groups ++ [place] } := by
    have hgroupEq : ({ group with
        category := (call.identity index).category
        name := (call.identity index).name
        icon := (call.identity index).icon } : ProcessGroup) = { call.identity index with } := by
      obtain ⟨⟨category, key, name, icon⟩, indices, metrics⟩ := group
      cases hindices
      cases hmetrics
      cases hkey
      rfl
    simp only [Collecting.begin, hgroup, if_pos hindices, hgroupEq]
  have hlt := (List.getElem?_eq_some_iff.mp hgroup).1
  have hcell : ∀ other, ((s.begin place (call.identity index)).append env place index (call.rows.getD index {})).cache[other]? =
      if other = place then some (call.group env [index]) else s.cache[other]? := by
    intro other
    rw [append_cell, hbegin, call.group_singleton]
    dsimp only
    split
    · rw [List.getElem?_set_self hlt, Option.map_some]
    · rename_i hne
      rw [List.getElem?_set_ne (Ne.symm hne)]
  have hnone : membersOf call.key done (call.key index) = [] := membersOf_eq_nil.mpr hmem
  refine ⟨?_, ?_, ?_, ?_⟩
  · rw [append_keys, begin_keys, hbegin]
    exact h.indexed
  · have hgroups : ((s.begin place (call.identity index)).append env place index (call.rows.getD index {})).groups =
        s.groups ++ [place] := by
      rw [hbegin]
      rfl
    rw [append_keys, begin_keys, hkeys, hgroups, List.map_append, List.map_append, h.listed]
    simp [hgroup, hkey]
  · intro other group' hother hmem'
    rw [hcell] at hother
    split at hother
    · cases hother
      have hkey' : (call.group env [index]).key = call.key index := rfl
      rw [hkey', membersOf_concat, if_pos rfl, hnone]
      rfl
    · rename_i hne
      have hdifferent : ¬ call.key index = group'.key := fun heq => hne (h.place_unique hgroup hother (heq.symm.trans hkey.symm))
      rw [hkeys, List.mem_append, List.mem_singleton, or_iff_left (Ne.symm hdifferent)] at hmem'
      rw [membersOf_concat, if_neg hdifferent]
      exact h.live other group' hother hmem'
  · intro other group' hother hmem'
    rw [hcell] at hother
    rw [hkeys, List.mem_append, not_or] at hmem'
    split at hother
    · cases hother
      exact absurd (List.mem_singleton_self _) hmem'.2
    · exact h.idle other group' hother hmem'.1

theorem begin_index (s : Collecting) (place : Nat) (identity : ProcessIdentity) :
    (s.begin place identity).index = s.index := by
  unfold Collecting.begin
  split
  · split <;> rfl
  · rfl

/-- **One process**: it is put into the group of its key if it passes, or the call fails. -/
theorem Holds.step {s : Collecting} {done : List Nat} (h : Holds env call s done) (index : Nat) :
    Indexes (call.step env s index).1.index ((call.step env s index).1.cache.map (·.key)) ∧
      ((call.step env s index).2 = true →
        Holds env call (call.step env s index).1 (done ++ [index].filter (call.passes env))) := by
  have hskip : call.passes env index = false → Holds env call s (done ++ [index].filter (call.passes env)) := by
    intro hpasses
    rw [List.filter_cons_of_neg (by rw [hpasses]; decide), List.filter_nil, List.append_nil]
    exact h
  unfold GroupCall.step
  dsimp only
  split
  · exact ⟨h.indexed, fun hfalse => by cases hfalse⟩
  split
  · rename_i hexcluded
    exact ⟨h.indexed, fun _ => hskip (by simp only [GroupCall.passes, hexcluded, Bool.not_true, Bool.false_and])⟩
  split
  · rename_i hsearch
    rw [Bool.not_eq_true'] at hsearch
    exact ⟨h.indexed, fun _ => hskip (by rw [GroupCall.passes, hsearch, Bool.and_false])⟩
  rename_i hexcluded hsearch
  split
  · exact ⟨h.indexed, fun hfalse => by cases hfalse⟩
  obtain ⟨hlookup, group, hgroup, hkey⟩ := h.lookup index
  split
  · refine ⟨?_, fun hfalse => by cases hfalse⟩
    rw [begin_index, begin_keys]
    exact hlookup.indexed
  · have hpasses : call.passes env index = true := by
      rw [Bool.not_eq_true] at hexcluded
      rw [Bool.not_eq_true, Bool.not_eq_false'] at hsearch
      rw [GroupCall.passes, hexcluded, hsearch]
      rfl
    rw [List.filter_cons_of_pos hpasses, List.filter_nil]
    have hadd : Holds env call (((s.lookup (call.identity index)).1.begin (s.lookup (call.identity index)).2
        (call.identity index)).append env (s.lookup (call.identity index)).2 index (call.rows.getD index {}))
        (done ++ [index]) := by
      by_cases hmem : call.key index ∈ keysOf call.key done
      · exact hlookup.join hgroup hkey hmem
      · exact hlookup.found hgroup hkey hmem
    exact ⟨hadd.indexed, fun _ => hadd⟩

/-- **The loop**: the processes that pass are put into their groups, or the call fails. -/
theorem Holds.loop {s : Collecting} {done : List Nat} (h : Holds env call s done) (indices : List Nat) :
    Indexes (call.loop env s indices).1.index ((call.loop env s indices).1.cache.map (·.key)) ∧
      ((call.loop env s indices).2 = true →
        Holds env call (call.loop env s indices).1 (done ++ indices.filter (call.passes env))) := by
  induction indices generalizing s done with
  | nil =>
    rw [List.filter_nil, List.append_nil]
    exact ⟨h.indexed, fun _ => h⟩
  | cons index rest ih =>
    obtain ⟨hindexed, hstep⟩ := h.step index
    rw [GroupCall.loop]
    split
    · rename_i s' heq
      rw [heq] at hstep
      rw [show index :: rest = [index] ++ rest from rfl, List.filter_append, ← List.append_assoc]
      exact ih (hstep rfl)
    · rename_i s' heq
      rw [heq] at hindexed
      exact ⟨hindexed, fun hfalse => by cases hfalse⟩

theorem step_of_no_failure (h : call.failures = {}) (s : Collecting) (index : Nat) : (call.step env s index).2 = true := by
  unfold GroupCall.step
  simp only [h, Bool.and_false, Bool.false_eq_true, if_false]
  split
  · rfl
  · split <;> rfl

theorem loop_of_no_failure (h : call.failures = {}) (s : Collecting) (indices : List Nat) :
    (call.loop env s indices).2 = true := by
  induction indices generalizing s with
  | nil => rfl
  | cons index rest ih =>
    rw [GroupCall.loop]
    split
    · exact ih _
    · rename_i s' heq
      have htrue : (call.step env s index).2 = true := step_of_no_failure h s index
      rw [heq] at htrue
      cases htrue

/-! ### Calls -/

/-- **One call**: what it returns is given by its input, and the keys of the cache stay distinct. -/
theorem collectGroups_spec {cache : List ProcessGroup} (hcache : (cache.map (·.key)).Nodup) :
    ((collectGroups env call cache).1.map (·.key)).Nodup ∧ ∀ groups, (collectGroups env call cache).2 = some groups →
      groups = (call.groups env (call.passing env)).mergeSort (compareGroups env) := by
  have hstart : Holds env call ⟨resetCache cache, indexCache (resetCache cache), []⟩ [] := Holds.start hcache
  obtain ⟨hindexed, hloop⟩ := hstart.loop (List.range call.rows.length)
  unfold collectGroups
  dsimp only
  split
  · exact ⟨hcache, fun groups h => by cases h⟩
  split
  · exact ⟨hstart.indexed.nodup, fun groups h => by cases h⟩
  split
  · rename_i s heq
    rw [heq] at hindexed
    exact ⟨hindexed.nodup, fun groups h => by cases h⟩
  · rename_i s heq
    rw [heq] at hindexed hloop
    refine ⟨hindexed.nodup, fun groups h => ?_⟩
    cases h
    rw [(hloop rfl).result]
    rfl

theorem collectGroups_of_no_failure (h : call.failures = {}) (cache : List ProcessGroup) :
    ∃ groups, (collectGroups env call cache).2 = some groups := by
  have hloop : ∀ s indices, (call.loop env s indices).2 = true := fun s indices => loop_of_no_failure h s indices
  unfold collectGroups
  simp only [h, Bool.and_false, Bool.or_self, Bool.false_eq_true, if_false]
  split
  · rename_i s heq
    have htrue := hloop ⟨resetCache cache, indexCache (resetCache cache), []⟩ (List.range call.rows.length)
    rw [heq] at htrue
    cases htrue
  · exact ⟨_, rfl⟩

theorem nodup_cacheAfter (calls : List GroupCall) : ((cacheAfter env calls).map (·.key)).Nodup := by
  induction calls using List.reverseRecOn with
  | nil => exact List.nodup_nil
  | append_singleton calls call ih =>
    rw [cacheAfter, List.foldl_append]
    exact (collectGroups_spec ih).1

/-- The groups of the processes that pass: each has the identity of its first member, all the
processes of its key in the order of the snapshot, and the fold of their metrics. -/
structure Grouped (env : GroupEnv) (call : GroupCall) (groups : List ProcessGroup) : Prop where
  once : ∀ index < call.rows.length, call.passes env index = true → ∃! group, group ∈ groups ∧ index ∈ group.indices
  members : ∀ group ∈ groups, group.indices =
    (List.range call.rows.length).filter fun index => call.key index = group.key && call.passes env index
  nonempty : ∀ group ∈ groups, group.indices ≠ []
  first : ∀ group ∈ groups, ∀ index, group.indices.head? = some index → group.toProcessIdentity = call.identity index
  metrics : ∀ group ∈ groups, group.metrics =
    (group.indices.map fun index => call.rows.getD index {}).foldl (lsmProcessGroupMetricsAdd env) {}

theorem group_key {done : List Nat} {k : Chars 256} (h : k ∈ keysOf call.key done) :
    (call.group env (membersOf call.key done k)).key = k := by
  cases hmembers : membersOf call.key done k with
  | nil => exact absurd h (membersOf_eq_nil.mp hmembers)
  | cons first rest =>
    have hfirst : first ∈ membersOf call.key done k := hmembers ▸ List.mem_cons_self ..
    exact of_decide_eq_true (List.mem_filter.mp hfirst).2

theorem grouped (groups : List ProcessGroup) (h : groups.Perm (call.groups env (call.passing env))) :
    Grouped env call groups := by
  have hmem : ∀ group ∈ groups, ∃ k ∈ keysOf call.key (call.passing env),
      group = call.group env (membersOf call.key (call.passing env) k) ∧ group.key = k := by
    intro group hgroup
    obtain ⟨k, hk, rfl⟩ := List.mem_map.mp (h.mem_iff.mp hgroup)
    exact ⟨k, hk, rfl, group_key hk⟩
  refine ⟨?_, ?_, ?_, ?_, ?_⟩
  · intro index hindex hpasses
    have hpassing : index ∈ call.passing env := List.mem_filter.mpr ⟨List.mem_range.mpr hindex, hpasses⟩
    have hk : call.key index ∈ keysOf call.key (call.passing env) := mem_keysOf.mpr ⟨index, hpassing, rfl⟩
    refine ⟨call.group env (membersOf call.key (call.passing env) (call.key index)), ⟨?_, ?_⟩, ?_⟩
    · exact h.mem_iff.mpr (List.mem_map_of_mem hk)
    · exact List.mem_filter.mpr ⟨hpassing, decide_eq_true rfl⟩
    · intro group hgroup
      obtain ⟨k, -, heq, -⟩ := hmem group hgroup.1
      have hin := hgroup.2
      rw [heq] at hin
      have hkey : call.key index = k := of_decide_eq_true (List.mem_filter.mp hin).2
      rw [heq, hkey]
  · intro group hgroup
    obtain ⟨k, -, heq, hkey⟩ := hmem group hgroup
    rw [hkey, heq]
    exact List.filter_filter ..
  · intro group hgroup
    obtain ⟨k, hk, heq, -⟩ := hmem group hgroup
    rw [heq]
    exact fun hnil => membersOf_eq_nil.mp hnil hk
  · intro group hgroup index hhead
    obtain ⟨k, -, heq, -⟩ := hmem group hgroup
    subst heq
    have hhead' : (membersOf call.key (call.passing env) k).head? = some index := hhead
    show call.identity ((membersOf call.key (call.passing env) k).headD 0) = call.identity index
    rw [List.headD_eq_head?_getD, hhead', Option.getD_some]
  · intro group hgroup
    obtain ⟨k, -, heq, -⟩ := hmem group hgroup
    subst heq
    exact List.foldl_map.symm

end

/-- **The groups do not depend on the retained cache**: after any calls, failed ones included, a
call that returns groups returns what it would with an empty cache, and without a failure it
returns. -/
theorem collect_groups_eq (env : GroupEnv) (calls : List GroupCall) (call : GroupCall) :
    (∃ groups, (collectGroups env { call with failures := {} } (cacheAfter env calls)).2 = some groups) ∧
      ∀ groups, (collectGroups env call (cacheAfter env calls)).2 = some groups →
        (collectGroups env { call with failures := {} } []).2 = some groups ∧ Grouped env call groups := by
  refine ⟨collectGroups_of_no_failure rfl _, fun groups h => ?_⟩
  have hgroups := (collectGroups_spec (nodup_cacheAfter calls)).2 groups h
  have hempty : ∃ groups, (collectGroups env { call with failures := {} } []).2 = some groups :=
    collectGroups_of_no_failure rfl []
  obtain ⟨groups', h'⟩ := hempty
  have hnil : (([] : List ProcessGroup).map (·.key)).Nodup := List.nodup_nil
  have hgroups' := (collectGroups_spec hnil).2 groups' h'
  refine ⟨?_, grouped groups (hgroups ▸ List.mergeSort_perm _ _)⟩
  rw [h', hgroups, hgroups']
  rfl

end SystemMonitor.Pages
