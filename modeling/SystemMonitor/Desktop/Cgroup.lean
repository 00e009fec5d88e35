import Mathlib.Data.List.Infix
import SystemMonitor.Desktop.Catalog
import SystemMonitor.Lib.FirstMatch
import SystemMonitor.Lib.Lines

/-! What a control group path is looked up as.

A unit name is words with dashes between them. From each word on, where a word with a
dot follows, the lookup tries the words to the end, and for a scope then fewer and fewer
of them. It looks whether a dot is left before it cuts the next word off, so it ends with
the words in front of the first one with a dot, and tries these as well: `identities` is
what it tries, in its order (`lookupCgroup_eq`), and a launcher prefix is among it.
`lookup_cgroup_iff` says when that makes no difference. -/
namespace SystemMonitor.Desktop
open Lib CStrings

/-! ### What is tried -/

def isDash (b : UInt8) : Bool := b == 45

def words (t : Text) : List Text := t.splitOnP isDash

def unwords (ws : List Text) : Text := Lines.join 45 ws

def dotted (t : Text) : Bool := t.contains 46

/-- The beginnings that have a word with a dot, longest first, and the words before it. -/
def scopeVariants (ws : List Text) : List Text :=
  ((ws.inits.filter (·.any dotted)).reverse ++ [ws.takeWhile fun w => !dotted w]).map unwords

/-- What is tried from one word on. -/
def startIdentities (scopeUnit : Bool) (ws : List Text) : List Text :=
  if ws.any dotted then if scopeUnit then scopeVariants ws else [unwords ws] else []

def unitIdentities (candidate : Text) (scopeUnit : Bool) : List Text :=
  (words candidate).tails.flatMap (startIdentities scopeUnit)

/-- All that a path is looked up as, in order. -/
def identities (cgroupPath : Text) : List Text :=
  ((tokens isSlash cgroupPath).filterMap unitOf).flatMap fun unit => unitIdentities (candidateOf unit.1) unit.2

section
variable {α : Type} {lookup : Text → Option α}

theorem unwords_words (t : Text) : unwords (words t) = t := Lines.join_splitOnP 45 t

theorem dash_notMem_words {t w : Text} (h : w ∈ words t) : 45 ∉ w := by
  intro hmem
  have hsep := (mem_splitOnP h 45 hmem).2
  cases hsep

theorem dotted_unwords (ws : List Text) : 46 ∈ unwords ws ↔ ws.any dotted = true := by
  rw [List.any_eq_true]
  constructor
  · intro h
    rcases Lines.mem_join h with h | ⟨w, hw, h⟩
    · cases h
    · exact ⟨w, hw, List.contains_iff_mem.mpr h⟩
  · intro ⟨w, hw, h⟩
    exact Lines.mem_join_of_mem hw (List.contains_iff_mem.mp h)

theorem unwords_concat {front : List Text} (h : front ≠ []) (w : Text) :
    unwords (front ++ [w]) = unwords front ++ 45 :: w := Lines.join_concat 45 h w

theorem cutLastDash_concat {front : List Text} {w : Text} (hw : 45 ∉ w) (h : ∀ v ∈ front, 45 ∉ v) :
    cutLastDash (unwords (front ++ [w])) = if front = [] then none else some (unwords front) := by
  have hword : ∀ b ∈ w.reverse, (b != 45) = true := by
    intro b hb
    exact bne_iff_ne.mpr fun heq => hw (heq ▸ List.mem_reverse.mp hb)
  cases front with
  | nil =>
    have hdrop : w.reverse.dropWhile (· != 45) = [] := List.dropWhile_eq_nil_iff.mpr hword
    rw [if_pos rfl, cutLastDash, List.nil_append, show unwords [w] = w from rfl, hdrop]
  | cons v front =>
    rw [if_neg (List.cons_ne_nil v front), unwords_concat (List.cons_ne_nil v front), cutLastDash, List.reverse_append,
      List.reverse_cons, List.append_assoc, List.dropWhile_append_of_pos hword, List.singleton_append,
      List.dropWhile_cons_of_neg (by decide)]
    simp only [List.reverse_reverse]

theorem scopeVariants_concat {front : List Text} {w : Text} (h : (front ++ [w]).any dotted = true) :
    scopeVariants (front ++ [w]) = unwords (front ++ [w]) ::
      if front.any dotted then scopeVariants front else [unwords front] := by
  have hinits : ((front ++ [w]).inits.filter (·.any dotted)).reverse =
      (front ++ [w]) :: (front.inits.filter (·.any dotted)).reverse := by
    rw [List.inits_append, List.filter_append, List.reverse_append]
    simp [h]
  rw [scopeVariants, hinits, List.cons_append, List.map_cons]
  congr 1
  split
  · rename_i hfront
    have htake : (front ++ [w]).takeWhile (fun w => !dotted w) = front.takeWhile fun w => !dotted w := by
      rw [List.takeWhile_append, if_neg]
      intro hall
      have hsame := (List.takeWhile_prefix fun w => !dotted w).eq_of_length hall
      obtain ⟨v, hv, hvdot⟩ := List.any_eq_true.mp hfront
      have hnot := List.takeWhile_eq_self_iff.mp hsame v hv
      rw [hvdot] at hnot
      cases hnot
    rw [htake, scopeVariants]
  · rename_i hfront
    have hnone : ∀ v ∈ front, dotted v = false := by simpa using hfront
    have hw : dotted w = true := by
      rw [List.any_append, Bool.eq_false_iff.mpr hfront] at h
      simpa using h
    have hfilter : front.inits.filter (·.any dotted) = [] := by
      rw [List.filter_eq_nil_iff]
      intro ws hws
      have hsub := ((List.mem_inits ws front).mp hws).subset
      simpa using fun v hv => hnone v (hsub hv)
    rw [hfilter, List.takeWhile_append_of_pos fun v hv => by rw [hnone v hv]; rfl,
      List.takeWhile_cons_of_neg (by rw [hw]; decide), List.append_nil]
    rfl

/-- Without a dot, nothing more is cut off. -/
theorem variantLoop_dotless {t : Text} (h : 46 ∉ t) (scopeUnit : Bool) {fuel : Nat} (hfuel : 0 < fuel) :
    variantLoop lookup scopeUnit fuel t = lookup t := by
  obtain ⟨fuel, rfl⟩ := Nat.exists_eq_succ_of_ne_zero hfuel.ne'
  rw [variantLoop]
  cases lookup t with
  | some entry => rfl
  | none =>
    simp only [h, not_false_eq_true, true_or, if_true]
    split
    · rfl
    · split <;> rfl

/-- The loop over the ends of a variant tries the beginnings of its words. -/
theorem variantLoop_words (hempty : lookup [] = none) {ws : List Text} (hdash : ∀ w ∈ ws, 45 ∉ w)
    (hdotted : ws.any dotted = true) {fuel : Nat} (hfuel : (unwords ws).length < fuel) :
    variantLoop lookup true fuel (unwords ws) = (scopeVariants ws).findSome? lookup := by
  induction ws using List.reverseRecOn generalizing fuel with
  | nil => cases hdotted
  | append_singleton front w ih =>
    cases fuel with
    | zero => exact absurd hfuel (Nat.not_lt_zero _)
    | succ fuel =>
      rw [variantLoop, scopeVariants_concat hdotted, List.findSome?_cons]
      cases lookup (unwords (front ++ [w])) with
      | some entry => rfl
      | none =>
        have hw : 45 ∉ w := hdash w (List.mem_append_right _ (List.mem_singleton_self w))
        have hfront : ∀ v ∈ front, 45 ∉ v := fun v hv => hdash v (List.mem_append_left _ hv)
        have hdot : 46 ∈ unwords (front ++ [w]) := (dotted_unwords _).mpr hdotted
        simp only [cutLastDash_concat hw hfront, Bool.not_true, Bool.false_eq_true, if_false, hdot, not_true_eq_false,
          false_or]
        by_cases hnil : front = []
        · subst hnil
          exact (List.findSome?_singleton.trans hempty).symm
        · rw [if_neg hnil]
          have hshort : (unwords front).length < fuel := by
            rw [unwords_concat hnil, List.length_append, List.length_cons] at hfuel
            omega
          by_cases hany : front.any dotted = true
          · have hne : unwords front ≠ [] := fun h => absurd ((dotted_unwords _).mpr hany) (h ▸ List.not_mem_nil)
            simp only [if_neg hne, if_pos hany]
            exact ih hfront hany hshort
          · rw [if_neg hany, List.findSome?_singleton]
            dsimp only
            split
            · rename_i hne
              rw [hne, hempty]
            · exact variantLoop_dotless (fun h => hany ((dotted_unwords _).mp h)) true (by omega)

theorem variantLoop_service {fuel : Nat} (hfuel : 0 < fuel) (t : Text) : variantLoop lookup false fuel t = lookup t := by
  obtain ⟨fuel, rfl⟩ := Nat.exists_eq_succ_of_ne_zero hfuel.ne'
  rw [variantLoop]
  cases lookup t <;> rfl

theorem found_words (hempty : lookup [] = none) (scopeUnit : Bool) {ws : List Text} (hdash : ∀ w ∈ ws, 45 ∉ w) :
    (if 46 ∈ unwords ws then variantLoop lookup scopeUnit ((unwords ws).length + 1) (unwords ws) else none) =
      (startIdentities scopeUnit ws).findSome? lookup := by
  rw [startIdentities]
  by_cases hany : ws.any dotted = true
  · rw [if_pos ((dotted_unwords ws).mpr hany), if_pos hany]
    cases scopeUnit with
    | false =>
      rw [variantLoop_service (Nat.succ_pos _)]
      exact List.findSome?_singleton.symm
    | true => exact variantLoop_words hempty hdash hany (Nat.lt_succ_self _)
  · rw [if_neg fun h => hany ((dotted_unwords ws).mp h), if_neg hany]
    rfl

theorem dropWhile_unwords {w : Text} (hw : 45 ∉ w) (rest : List Text) :
    (unwords (w :: rest)).dropWhile (· != 45) = if rest = [] then [] else 45 :: unwords rest := by
  have hword : ∀ b ∈ w, (b != 45) = true := fun b hb => bne_iff_ne.mpr fun heq => hw (heq ▸ hb)
  cases rest with
  | nil => exact List.dropWhile_eq_nil_iff.mpr hword
  | cons v rest =>
    rw [unwords, Lines.join, List.dropWhile_append_of_pos hword, List.dropWhile_cons_of_neg (by decide),
      if_neg (List.cons_ne_nil v rest)]
    rfl

/-- The loop over the starts of a candidate tries what stands at each of its words. -/
theorem startLoop_words (hempty : lookup [] = none) (scopeUnit : Bool) {ws : List Text} (hne : ws ≠ [])
    (hdash : ∀ w ∈ ws, 45 ∉ w) {fuel : Nat} (hfuel : (unwords ws).length < fuel) :
    startLoop lookup scopeUnit fuel (unwords ws) = (ws.tails.flatMap (startIdentities scopeUnit)).findSome? lookup := by
  induction ws generalizing fuel with
  | nil => exact absurd rfl hne
  | cons w rest ih =>
    cases fuel with
    | zero => exact absurd hfuel (Nat.not_lt_zero _)
    | succ fuel =>
      have hw : 45 ∉ w := hdash w (List.mem_cons_self ..)
      have hrest : ∀ v ∈ rest, 45 ∉ v := fun v hv => hdash v (List.mem_cons_of_mem _ hv)
      rw [startLoop, found_words hempty scopeUnit hdash, List.tails_cons, List.flatMap_cons, List.findSome?_append,
        dropWhile_unwords hw]
      by_cases hempty' : unwords (w :: rest) = []
      · have hlast : (w :: rest).any dotted = false := by
          rw [Bool.eq_false_iff]
          exact fun hany => absurd ((dotted_unwords _).mpr hany) (hempty' ▸ List.not_mem_nil)
        have hnil : rest = [] := by
          cases rest with
          | nil => rfl
          | cons v rest => exact absurd hempty' (by simp [unwords, Lines.join])
        subst hnil
        rw [if_pos hempty', startIdentities, hlast]
        rfl
      · rw [if_neg hempty']
        cases (startIdentities scopeUnit (w :: rest)).findSome? lookup with
        | some entry => rfl
        | none =>
          by_cases hnil : rest = []
          · subst hnil
            rfl
          · rw [if_neg hnil]
            refine ih hnil hrest ?_
            obtain ⟨v, more, rfl⟩ := List.exists_cons_of_ne_nil hnil
            have hlength : (unwords (w :: v :: more)).length = w.length + ((unwords (v :: more)).length + 1) := by
              rw [unwords, Lines.join, List.length_append, List.length_cons]
              rfl
            omega

theorem unitPayload_eq (hempty : lookup [] = none) (payload : Text) (scopeUnit : Bool) :
    lookupApplicationUnitPayload lookup payload scopeUnit =
      (unitIdentities (candidateOf payload) scopeUnit).findSome? lookup := by
  have hloop := startLoop_words hempty scopeUnit (List.splitOnP_ne_nil isDash (candidateOf payload))
    (fun w hw => dash_notMem_words hw) (Nat.lt_succ_self _)
  rw [← words, unwords_words] at hloop
  exact hloop

/-- **A path is looked up as its identities, one after another.** -/
theorem lookupCgroup_eq (hempty : lookup [] = none) (cgroupPath : Text) :
    lookupCgroup lookup cgroupPath = (identities cgroupPath).findSome? lookup := by
  rw [lookupCgroup, identities]
  induction tokens isSlash cgroupPath with
  | nil => rfl
  | cons component components ih =>
    rw [componentLoop, List.filterMap_cons]
    cases unitOf component with
    | none => exact ih
    | some unit =>
      obtain ⟨payload, scopeUnit⟩ := unit
      simp only [List.flatMap_cons, List.findSome?_append, unitPayload_eq hempty, ih]
      cases (unitIdentities (candidateOf payload) scopeUnit).findSome? lookup <;> rfl

end

/-! ### Which identity decides -/

variable (lib : Library) (catalog : LsmApplicationCatalog)

/-- The key that the lookup of a path ends with: the same loops, over the keys in place of
their entries. -/
def decidingIdentity (cgroupPath : Text) : Option Text :=
  lookupCgroup (fun identity => (lookupIdentity lib catalog identity).map fun _ => normaliseIdentity lib identity)
    cgroupPath

def registered (identity : Text) : Bool := (lookupIdentity lib catalog identity).isSome

theorem lookupIdentity_nil : lookupIdentity lib catalog [] = none := by
  rw [lookupIdentity, if_pos (show normaliseIdentity lib [] = [] from if_pos rfl)]

theorem decidingIdentity_eq (cgroupPath : Text) : decidingIdentity lib catalog cgroupPath =
    ((identities cgroupPath).find? (registered lib catalog)).map (normaliseIdentity lib) := by
  rw [decidingIdentity, lookupCgroup_eq (by rw [lookupIdentity_nil]; rfl)]
  induction identities cgroupPath with
  | nil => rfl
  | cons identity rest ih =>
    rw [List.findSome?_cons, List.find?_cons, ih, registered]
    cases lookupIdentity lib catalog identity <;> rfl

/-- Its entry is what the lookup returns. -/
theorem decidingIdentity_entry (cgroupPath : Text) :
    (decidingIdentity lib catalog cgroupPath).bind catalog.find =
      lsmApplicationCatalogLookupCgroup lib catalog cgroupPath := by
  rw [decidingIdentity, lsmApplicationCatalogLookupCgroup, lookupCgroup_eq (by rw [lookupIdentity_nil]; rfl),
    lookupCgroup_eq (lookupIdentity_nil lib catalog)]
  induction identities cgroupPath with
  | nil => rfl
  | cons identity rest ih =>
    rw [List.findSome?_cons, List.findSome?_cons]
    cases hlookup : lookupIdentity lib catalog identity with
    | none => exact ih
    | some entry =>
      rw [lookupIdentity] at hlookup
      split at hlookup
      · cases hlookup
      · exact hlookup

/-! ### Launchers and random suffixes -/

theorem unitOf_scope (payload : Text) : unitOf (ascii "app-" ++ payload ++ ascii ".scope") = some (payload, true) := by
  have hprefix : (ascii "app-").isPrefixOf (ascii "app-" ++ payload ++ ascii ".scope") = true := by
    rw [List.isPrefixOf_iff_prefix, List.append_assoc]
    exact List.prefix_append _ _
  have hsuffix : (ascii ".scope").isSuffixOf (ascii "app-" ++ payload ++ ascii ".scope") = true := by
    rw [List.isSuffixOf_iff_suffix]
    exact List.suffix_append _ _
  have hlength : (ascii "app-" ++ payload ++ ascii ".scope").length = 4 + payload.length + 6 := by
    simp only [List.length_append]
    rfl
  rw [unitOf, hprefix, hsuffix, hlength, Bool.not_true, if_neg Bool.false_ne_true, if_pos ⟨by omega, rfl⟩,
    Nat.add_sub_cancel, List.take_left' (by rw [List.length_append]; rfl)]
  rfl

theorem candidateOf_payload {payload : Text} (hfits : payload.length ≤ 511) (h : 64 ∉ payload) :
    candidateOf payload = payload := by
  rw [candidateOf, List.take_of_length_le hfits, List.takeWhile_eq_self_iff]
  exact fun b hb => bne_iff_ne.mpr fun heq => h (heq ▸ hb)

theorem words_word {t : Text} (h : 45 ∉ t) : words t = [t] :=
  List.splitOnP_eq_singleton fun _ hb => beq_eq_false_iff_ne.mpr fun heq => h (heq ▸ hb)

theorem words_append {w : Text} (h : 45 ∉ w) (t : Text) : words (w ++ 45 :: t) = w :: words t := by
  rw [words, List.splitOnP_append_cons w t rfl, ← words, words_word h]
  rfl

/-- What the unit of a desktop ID between a launcher prefix and a random suffix is looked up as. -/
theorem unitIdentities_launcher {launcher desktopId suffix : Text} (hlauncher : 45 ∉ launcher ∧ 46 ∉ launcher)
    (hid : 45 ∉ desktopId ∧ 46 ∈ desktopId) (hsuffix : 45 ∉ suffix ∧ 46 ∉ suffix) :
    unitIdentities (launcher ++ 45 :: desktopId ++ 45 :: suffix) true =
      [launcher ++ 45 :: desktopId ++ 45 :: suffix, launcher ++ 45 :: desktopId, launcher,
        desktopId ++ 45 :: suffix, desktopId, []] := by
  have hdot : ∀ {t : Text}, 46 ∉ t → dotted t = false := fun h => by simpa [dotted] using h
  have hidDot : dotted desktopId = true := List.contains_iff_mem.mpr hid.2
  have hwords : words (launcher ++ 45 :: desktopId ++ 45 :: suffix) = [launcher, desktopId, suffix] := by
    rw [List.append_assoc, List.cons_append, words_append hlauncher.1, words_append hid.1, words_word hsuffix.1]
  rw [unitIdentities, hwords]
  simp only [List.tails_cons, List.flatMap_cons, startIdentities, scopeVariants, List.any_cons, hdot hlauncher.2, hidDot,
    hdot hsuffix.2]
  simp [List.inits, startIdentities, hdot hlauncher.2, hidDot, hdot hsuffix.2, unwords, Lines.join]

/-- A path with one application unit: a scope of a desktop ID between a launcher prefix and a
random suffix. -/
structure LauncherPath (launcher desktopId suffix cgroupPath : Text) : Prop where
  launcherWord : ∀ b ∈ launcher, b ≠ 45 ∧ b ≠ 46 ∧ b ≠ 47 ∧ b ≠ 64
  dottedId : 46 ∈ desktopId ∧ ∀ b ∈ desktopId, b ≠ 45 ∧ b ≠ 47 ∧ b ≠ 64
  suffixWord : ∀ b ∈ suffix, b ≠ 45 ∧ b ≠ 46 ∧ b ≠ 47 ∧ b ≠ 64
  unit : (tokens isSlash cgroupPath).filter (ascii "app-").isPrefixOf =
    [ascii "app-" ++ (launcher ++ 45 :: desktopId ++ 45 :: suffix) ++ ascii ".scope"]
  /-- `LsmProcessInfo.cgroup_path` is a `char[LSM_PATH_LEN]`. -/
  fits : cgroupPath.length < 512

theorem LauncherPath.identities {launcher desktopId suffix cgroupPath : Text}
    (h : LauncherPath launcher desktopId suffix cgroupPath) : identities cgroupPath =
      [launcher ++ 45 :: desktopId ++ 45 :: suffix, launcher ++ 45 :: desktopId, launcher,
        desktopId ++ 45 :: suffix, desktopId, []] := by
  have hmem : ascii "app-" ++ (launcher ++ 45 :: desktopId ++ 45 :: suffix) ++ ascii ".scope" ∈
      tokens isSlash cgroupPath :=
    List.mem_of_mem_filter (p := (ascii "app-").isPrefixOf) (h.unit ▸ List.mem_singleton_self _)
  have hlength := (length_of_mem_tokens hmem).trans_lt h.fits
  have hpayload : (launcher ++ 45 :: desktopId ++ 45 :: suffix).length ≤ 511 := by
    rw [List.length_append, List.length_append] at hlength
    omega
  have hat : 64 ∉ launcher ++ 45 :: desktopId ++ 45 :: suffix := by
    intro hmem
    simp only [List.mem_append, List.mem_cons] at hmem
    rcases hmem with (hmem | hmem | hmem) | hmem | hmem
    · exact (h.launcherWord 64 hmem).2.2.2 rfl
    · cases hmem
    · exact (h.dottedId.2 64 hmem).2.2 rfl
    · cases hmem
    · exact (h.suffixWord 64 hmem).2.2.2 rfl
  have hunits : (tokens isSlash cgroupPath).filterMap unitOf = [(launcher ++ 45 :: desktopId ++ 45 :: suffix, true)] := by
    have hfilter : (tokens isSlash cgroupPath).filterMap unitOf =
        ((tokens isSlash cgroupPath).filter (ascii "app-").isPrefixOf).filterMap unitOf := by
      rw [List.filterMap_filter]
      congr 1
      funext component
      cases happ : (ascii "app-").isPrefixOf component with
      | true => rfl
      | false => rw [unitOf, happ]; rfl
    rw [hfilter, h.unit, List.filterMap_cons, unitOf_scope]
    rfl
  rw [Desktop.identities, hunits, List.flatMap_singleton, candidateOf_payload hpayload hat]
  exact unitIdentities_launcher ⟨fun hb => (h.launcherWord 45 hb).1 rfl, fun hb => (h.launcherWord 46 hb).2.1 rfl⟩
    ⟨fun hb => (h.dottedId.2 45 hb).1 rfl, h.dottedId.1⟩
    ⟨fun hb => (h.suffixWord 45 hb).1 rfl, fun hb => (h.suffixWord 46 hb).2.1 rfl⟩

/-- Where an identity without a dot is registered, one with a dot is registered and tried before. -/
def DotlessMasked (cgroupPath : Text) : Prop :=
  ∀ earlier identity later, identities cgroupPath = earlier ++ identity :: later →
    registered lib catalog identity = true → dotted (normaliseIdentity lib identity) = false →
      ∃ other ∈ earlier, registered lib catalog other = true ∧ dotted (normaliseIdentity lib other) = true

theorem decidingIdentity_dotted_iff (cgroupPath : Text) :
    (∀ key, decidingIdentity lib catalog cgroupPath = some key → dotted key = true) ↔
      DotlessMasked lib catalog cgroupPath := by
  rw [decidingIdentity_eq]
  constructor
  · intro h earlier identity later hsplit hregistered hdot
    have hfirst : ∀ first, (identities cgroupPath).find? (registered lib catalog) = some first →
        dotted (normaliseIdentity lib first) = true := fun first hfind => h _ (by rw [hfind]; rfl)
    rcases find?_before hsplit hregistered with hfind | ⟨other, hother, hfind⟩
    · rw [hfirst identity hfind] at hdot
      cases hdot
    · exact ⟨other, hother, List.find?_some hfind, hfirst other hfind⟩
  · intro h key hkey
    obtain ⟨identity, hfind, rfl⟩ := Option.map_eq_some_iff.mp hkey
    obtain ⟨earlier, later, hsplit, hregistered, hearlier⟩ := find?_split hfind
    cases hdot : dotted (normaliseIdentity lib identity) with
    | true => rfl
    | false =>
      obtain ⟨other, hother, hregistered', -⟩ := h earlier identity later hsplit hregistered hdot
      rw [hearlier other hother] at hregistered'
      cases hregistered'

theorem lookupCgroup_launcher {launcher desktopId suffix cgroupPath : Text}
    (hpath : LauncherPath launcher desktopId suffix cgroupPath) (hid : registered lib catalog desktopId = true)
    (hlong : lookupIdentity lib catalog (launcher ++ 45 :: desktopId ++ 45 :: suffix) = none)
    (hfront : lookupIdentity lib catalog (launcher ++ 45 :: desktopId) = none)
    (hback : lookupIdentity lib catalog (desktopId ++ 45 :: suffix) = none) :
    lsmApplicationCatalogLookupCgroup lib catalog cgroupPath =
      (lookupIdentity lib catalog launcher).or (lookupIdentity lib catalog desktopId) := by
  obtain ⟨entry, hentry⟩ := Option.isSome_iff_exists.mp hid
  rw [lsmApplicationCatalogLookupCgroup, lookupCgroup_eq (lookupIdentity_nil lib catalog), hpath.identities]
  simp only [List.findSome?_cons, hlong, hfront, hback, hentry]
  cases lookupIdentity lib catalog launcher <;> rfl

/-- **An embedded desktop ID is found unless its launcher prefix is another application, and an
identity without a dot decides a lookup only where none with a dot comes before it.** -/
theorem lookup_cgroup_iff :
    (∀ launcher desktopId suffix cgroupPath, LauncherPath launcher desktopId suffix cgroupPath →
      registered lib catalog desktopId = true →
      lookupIdentity lib catalog (launcher ++ 45 :: desktopId ++ 45 :: suffix) = none →
      lookupIdentity lib catalog (launcher ++ 45 :: desktopId) = none →
      lookupIdentity lib catalog (desktopId ++ 45 :: suffix) = none →
      (lsmApplicationCatalogLookupCgroup lib catalog cgroupPath = lookupIdentity lib catalog desktopId ↔
        lookupIdentity lib catalog launcher = none ∨
          lookupIdentity lib catalog launcher = lookupIdentity lib catalog desktopId)) ∧
    (∀ cgroupPath, (∀ key, decidingIdentity lib catalog cgroupPath = some key → dotted key = true) ↔
      DotlessMasked lib catalog cgroupPath) ∧
    (∀ cgroupPath, lsmApplicationCatalogLookupCgroup lib catalog cgroupPath =
      (decidingIdentity lib catalog cgroupPath).bind catalog.find) := by
  refine ⟨?_, decidingIdentity_dotted_iff lib catalog, fun path => (decidingIdentity_entry lib catalog path).symm⟩
  intro launcher desktopId suffix cgroupPath hpath hid hlong hfront hback
  rw [lookupCgroup_launcher lib catalog hpath hid hlong hfront hback]
  cases lookupIdentity lib catalog launcher with
  | none => exact iff_of_true rfl (Or.inl rfl)
  | some entry => simp

/-- An application whose name is its executable. -/
def namedEntry (id executable : Text) : LsmApplicationEntry :=
  ⟨.ofText id, .ofText executable, .ofText executable, .ofText executable⟩

def gnomeEntry : LsmApplicationEntry := namedEntry (ascii "gnome") (ascii "gnome")
def geditEntry : LsmApplicationEntry := namedEntry (ascii "org.gnome.gedit") (ascii "gedit")

/-- An executable has the name that is the launcher prefix of another application. -/
def gnomeCatalog : LsmApplicationCatalog :=
  registerDesktopIdAliases .documented (registerIdentity .documented {} (ascii "gnome") gnomeEntry)
    (ascii "org.gnome.gedit") geditEntry

def gnomePath : Text := ascii "/user.slice/app-gnome-org.gnome.gedit-1234.scope"

theorem launcher_decides :
    LauncherPath (ascii "gnome") (ascii "org.gnome.gedit") (ascii "1234") gnomePath ∧
    lookupIdentity .documented gnomeCatalog (ascii "org.gnome.gedit") = some geditEntry ∧
    lookupIdentity .documented gnomeCatalog (ascii "gnome-org.gnome.gedit-1234") = none ∧
    lookupIdentity .documented gnomeCatalog (ascii "gnome-org.gnome.gedit") = none ∧
    lookupIdentity .documented gnomeCatalog (ascii "org.gnome.gedit-1234") = none ∧
    lsmApplicationCatalogLookupCgroup .documented gnomeCatalog gnomePath = some gnomeEntry ∧
    gnomeEntry ≠ geditEntry ∧
    decidingIdentity .documented gnomeCatalog gnomePath = some (ascii "gnome") := by
  refine ⟨⟨?_, ⟨?_, ?_⟩, ?_, ?_, ?_⟩, ?_⟩
  all_goals decide +kernel

end SystemMonitor.Desktop
