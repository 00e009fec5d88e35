import Mathlib.Data.List.Find
import Mathlib.Data.List.Nodup
import Mathlib.Data.List.Perm.Basic

/-! Names in an ordered list of places, the first of which decides.

A scan takes the places in order and the names of each as they are listed, passes over
names it has seen, and keeps what the others load as. A name counts as seen whether it
loads or not. So each name gives what its first place has (`scan_resolved`), and the order
in which a place lists its names decides only the order of the entries
(`Resolved.perm`). -/
namespace SystemMonitor.Lib.Precedence
variable {δ ν ε : Type} [DecidableEq ν]

/-- The names of one place, on the entries and the names seen so far. -/
def scanOne (load : ν → Option ε) : List ν → List ε × List ν → List ε × List ν
  | [], state => state
  | name :: names, (entries, seen) =>
    if seen.contains name then scanOne load names (entries, seen)
    else scanOne load names (entries ++ (load name).toList, name :: seen)

variable (listing : δ → List ν) (load : δ → ν → Option ε)

def scan (places : List δ) (state : List ε × List ν) : List ε × List ν :=
  places.foldl (fun state place => scanOne (load place) (listing place) state) state

/-- What a name is in the first place that has it. -/
def effective (places : List δ) (name : ν) : Option ε :=
  (places.find? fun place => (listing place).contains name).bind fun place => load place name

/-- The entries are those of the names there are, each in its first place. -/
def Resolved (places : List δ) (entries : List ε) : Prop :=
  ∃ order : List ν, order.Nodup ∧ (∀ name, name ∈ order ↔ ∃ place ∈ places, name ∈ listing place) ∧
    entries = order.filterMap (effective listing load places)

variable {listing load}

/-- The entries of the names seen, in the order they were seen. -/
structure Traced (value : ν → Option ε) (state : List ε × List ν) : Prop where
  nodup : state.2.Nodup
  entries : state.1 = state.2.reverse.filterMap value

theorem scanOne_seen {loadOne : ν → Option ε} {entries : List ε} {seen : List ν} {name : ν} (h : name ∈ seen)
    (names : List ν) : scanOne loadOne (name :: names) (entries, seen) = scanOne loadOne names (entries, seen) :=
  if_pos (List.contains_iff_mem.mpr h)

theorem scanOne_new {loadOne : ν → Option ε} {entries : List ε} {seen : List ν} {name : ν} (h : name ∉ seen)
    (names : List ν) : scanOne loadOne (name :: names) (entries, seen) =
      scanOne loadOne names (entries ++ (loadOne name).toList, name :: seen) :=
  if_neg fun hmem => h (List.contains_iff_mem.mp hmem)

theorem mem_scanOne {loadOne : ν → Option ε} {names : List ν} {state : List ε × List ν} {name : ν} :
    name ∈ (scanOne loadOne names state).2 ↔ name ∈ state.2 ∨ name ∈ names := by
  induction names generalizing state with
  | nil => exact (or_iff_left List.not_mem_nil).symm
  | cons first names ih =>
    obtain ⟨entries, seen⟩ := state
    by_cases hseen : first ∈ seen
    · rw [scanOne_seen hseen, ih, List.mem_cons]
      grind
    · rw [scanOne_new hseen, ih, List.mem_cons, List.mem_cons]
      grind

/-- One place keeps the entries right, if a new name has its value there. -/
theorem Traced.scanOne {value loadOne : ν → Option ε} {names : List ν} {state : List ε × List ν}
    (h : Traced value state) (hvalue : ∀ name ∈ names, name ∉ state.2 → value name = loadOne name) :
    Traced value (Precedence.scanOne loadOne names state) := by
  induction names generalizing state with
  | nil => exact h
  | cons name names ih =>
    obtain ⟨entries, seen⟩ := state
    have hnames : ∀ other ∈ names, other ∉ seen → value other = loadOne other :=
      fun other hother => hvalue other (List.mem_cons_of_mem _ hother)
    by_cases hnew : name ∈ seen
    · rw [scanOne_seen hnew]
      exact ih h hnames
    · rw [scanOne_new hnew]
      refine ih ⟨List.nodup_cons.mpr ⟨hnew, h.nodup⟩, ?_⟩ fun other hother hnot =>
        hnames other hother fun hmem => hnot (List.mem_cons_of_mem _ hmem)
      have hentries : entries = seen.reverse.filterMap value := h.entries
      rw [List.reverse_cons, List.filterMap_append, ← hentries, ← hvalue name (List.mem_cons_self ..) hnew]
      cases hload : value name <;> simp [hload]

/-- The names seen are those of the places passed. -/
def Passed (listing : δ → List ν) (places : List δ) (seen : List ν) : Prop :=
  ∀ name, name ∈ seen ↔ ∃ place ∈ places, name ∈ listing place

theorem effective_first {passed rest : List δ} {place : δ} {name : ν} (hname : name ∈ listing place)
    (hnew : ¬ ∃ p ∈ passed, name ∈ listing p) :
    effective listing load (passed ++ place :: rest) name = load place name := by
  have hpassed : passed.find? (fun p => (listing p).contains name) = none := by
    rw [List.find?_eq_none]
    exact fun p hp hcontains => hnew ⟨p, hp, List.contains_iff_mem.mp hcontains⟩
  rw [effective, List.find?_append, hpassed, Option.none_or,
    List.find?_cons_of_pos (p := fun p => (listing p).contains name) (List.contains_iff_mem.mpr hname)]
  rfl

variable (load) in
theorem exists_effective {places : List δ} {name : ν} (h : ∃ place ∈ places, name ∈ listing place) :
    ∃ place ∈ places, effective listing load places name = load place name := by
  obtain ⟨place, hplace, hname⟩ := h
  cases hfind : places.find? fun p => (listing p).contains name with
  | none => exact absurd (List.contains_iff_mem.mpr hname) (List.find?_eq_none.mp hfind place hplace)
  | some first =>
    refine ⟨first, List.mem_of_find?_eq_some hfind, ?_⟩
    rw [effective, hfind]
    rfl

theorem scan_traced {passed rest : List δ} {state : List ε × List ν}
    (h : Traced (effective listing load (passed ++ rest)) state) (hpassed : Passed listing passed state.2) :
    Traced (effective listing load (passed ++ rest)) (scan listing load rest state) ∧
      Passed listing (passed ++ rest) (scan listing load rest state).2 := by
  induction rest generalizing passed state with
  | nil => exact ⟨h, by rwa [List.append_nil]⟩
  | cons place rest ih =>
    have hsplit : passed ++ place :: rest = (passed ++ [place]) ++ rest := by rw [List.append_assoc]; rfl
    have hone : Traced (effective listing load (passed ++ place :: rest))
        (scanOne (load place) (listing place) state) :=
      h.scanOne fun name hname hnew => effective_first hname fun hold => hnew ((hpassed name).mpr hold)
    rw [hsplit] at hone ⊢
    refine ih hone fun name => ?_
    rw [mem_scanOne, hpassed name]
    constructor
    · intro hname
      rcases hname with ⟨p, hp, hname⟩ | hname
      · exact ⟨p, List.mem_append_left _ hp, hname⟩
      · exact ⟨place, List.mem_append_right _ (List.mem_singleton_self _), hname⟩
    · intro ⟨p, hp, hname⟩
      rcases List.mem_append.mp hp with hp | hp
      · exact Or.inl ⟨p, hp, hname⟩
      · exact Or.inr (List.mem_singleton.mp hp ▸ hname)

/-- **A scan resolves every name in its first place.** -/
theorem scan_resolved (places : List δ) : Resolved listing load places (scan listing load places ([], [])).1 := by
  have hstart : Traced (effective listing load ([] ++ places)) ([], []) := ⟨List.nodup_nil, rfl⟩
  have hnone : Passed listing ([] : List δ) [] := fun name => iff_of_false List.not_mem_nil fun ⟨_, h, _⟩ => nomatch h
  obtain ⟨htraced, hpassed⟩ := scan_traced hstart hnone
  refine ⟨(scan listing load places ([], [])).2.reverse, List.nodup_reverse.mpr htraced.nodup, fun name => ?_,
    htraced.entries⟩
  rw [List.mem_reverse]
  exact hpassed name

/-- **Places that list the same names give the same entries.** -/
theorem Resolved.perm {listing' : δ → List ν} {places : List δ} {entries entries' : List ε}
    (h : Resolved listing load places entries) (h' : Resolved listing' load places entries')
    (hsame : ∀ place ∈ places, ∀ name, name ∈ listing place ↔ name ∈ listing' place) : entries.Perm entries' := by
  obtain ⟨order, hnodup, hmem, rfl⟩ := h
  obtain ⟨order', hnodup', hmem', rfl⟩ := h'
  have heffective : effective listing load places = effective listing' load places := by
    funext name
    rw [effective, effective, List.find?_congr fun place hplace => ?_]
    rw [Bool.eq_iff_iff, List.contains_iff_mem, List.contains_iff_mem]
    exact hsame place hplace name
  rw [heffective]
  refine List.Perm.filterMap _ ((List.perm_ext_iff_of_nodup hnodup hnodup').mpr fun name => ?_)
  rw [hmem, hmem']
  exact exists_congr fun place => and_congr_right fun hplace => hsame place hplace name

theorem first_spec {places : List δ} {place : δ} {name : ν}
    (h : places.find? (fun place => (listing place).contains name) = some place) :
    place ∈ places ∧ name ∈ listing place :=
  ⟨List.mem_of_find?_eq_some h,
    List.contains_iff_mem.mp (List.find?_some (p := fun place => (listing place).contains name) h)⟩

/-- What a name is does not change with the places of other names. -/
theorem effective_congr {listing' : δ → List ν} {load' : δ → ν → Option ε} {places : List δ} {name : ν}
    (hlisting : ∀ place ∈ places, (name ∈ listing' place ↔ name ∈ listing place))
    (hload : ∀ place ∈ places, name ∈ listing place → load' place name = load place name) :
    effective listing' load' places name = effective listing load places name := by
  have hfind : places.find? (fun place => (listing' place).contains name) =
      places.find? fun place => (listing place).contains name := by
    refine List.find?_congr fun place hplace => ?_
    rw [Bool.eq_iff_iff, List.contains_iff_mem, List.contains_iff_mem]
    exact hlisting place hplace
  rw [effective, effective, hfind]
  cases hfirst : places.find? fun place => (listing place).contains name with
  | none => rfl
  | some place =>
    obtain ⟨hplace, hmem⟩ := first_spec hfirst
    exact hload place hplace hmem

theorem effective_cons (place : δ) (rest : List δ) (name : ν) : effective listing load (place :: rest) name =
    if name ∈ listing place then load place name else effective listing load rest name := by
  rw [effective, List.find?_cons]
  split
  next hmem => rw [if_pos (List.contains_iff_mem.mp hmem), Option.bind_some]
  next hmem =>
    rw [if_neg fun h => Bool.false_ne_true (hmem.symm.trans (List.contains_iff_mem.mpr h))]
    rfl

theorem mem_of_effective {places : List δ} {name : ν} {entry : ε}
    (h : effective listing load places name = some entry) : ∃ place ∈ places, name ∈ listing place := by
  obtain ⟨place, hfind, -⟩ := Option.bind_eq_some_iff.mp h
  exact ⟨place, first_spec hfind⟩

/-- **Where one name is something else, its entry alone is another.** -/
theorem Resolved.replaced {listing' : δ → List ν} {load' : δ → ν → Option ε} {places : List δ}
    {entries entries' : List ε} {name : ν} {entry entry' : ε}
    (h : Resolved listing load places entries) (h' : Resolved listing' load' places entries')
    (hentry : effective listing load places name = some entry)
    (hentry' : effective listing' load' places name = some entry')
    (hlisting : ∀ place ∈ places, ∀ other, other ≠ name → (other ∈ listing' place ↔ other ∈ listing place))
    (hload : ∀ place ∈ places, ∀ other ∈ listing place, other ≠ name → load' place other = load place other) :
    ∃ rest, entries.Perm (entry :: rest) ∧ entries'.Perm (entry' :: rest) := by
  obtain ⟨order, hnodup, hmem, rfl⟩ := h
  obtain ⟨order', hnodup', hmem', rfl⟩ := h'
  have hname : name ∈ order := (hmem name).mpr (mem_of_effective hentry)
  have hname' : name ∈ order' := (hmem' name).mpr (mem_of_effective hentry')
  have hrest : (order'.erase name).Perm (order.erase name) := by
    refine (List.perm_ext_iff_of_nodup (hnodup'.erase name) (hnodup.erase name)).mpr fun other => ?_
    rw [hnodup'.mem_erase_iff, hnodup.mem_erase_iff, hmem, hmem']
    exact and_congr_right fun hother => exists_congr fun place => and_congr_right fun hplace =>
      hlisting place hplace other hother
  have hvalues : (order.erase name).filterMap (effective listing' load' places) =
      (order.erase name).filterMap (effective listing load places) := by
    refine List.filterMap_congr fun other hother => ?_
    have hne : other ≠ name := (hnodup.mem_erase_iff.mp hother).1
    exact effective_congr (fun place hplace => hlisting place hplace other hne) fun place hplace hmem =>
      hload place hplace other hmem hne
  refine ⟨(order.erase name).filterMap (effective listing load places), ?_, ?_⟩
  · rw [← List.filterMap_cons_some hentry]
    exact (List.perm_cons_erase hname).filterMap _
  · rw [← hvalues, ← List.filterMap_cons_some hentry']
    exact ((List.perm_cons_erase hname').trans (hrest.cons name)).filterMap _

end SystemMonitor.Lib.Precedence
