import SystemMonitor.Mounts.Record

/-! Decoding a mount field against the escapes of the kernel.

An encoding of a text writes each byte as it is or as an escape, and every backslash as an
escape. The decoder gives the text back when it fits, and it accepts just the texts whose
backslashes all begin escapes and whose decoded length fits (`decode_mount_field_inverts`). -/
namespace SystemMonitor.Mounts
open Lib

/-- Three octal digits that stand for the number. -/
structure Octal (a b c : UInt8) (n : Nat) : Prop where
  high : 48 ≤ a ∧ a ≤ 55
  middle : 48 ≤ b ∧ b ≤ 55
  low : 48 ≤ c ∧ c ≤ 55
  value : (a.toNat - 48) * 64 + (b.toNat - 48) * 8 + (c.toNat - 48) = n

/-- Some bytes, and every backslash, are written as a backslash and three octal digits. -/
inductive Encodes : Text → Text → Prop
  | nil : Encodes [] []
  | plain {s t : Text} {b : UInt8} (hb : b ≠ 92) (h : Encodes s t) : Encodes (b :: s) (b :: t)
  | escaped {s t : Text} {value a b c : UInt8} (hvalue : Octal a b c value.toNat) (hne : value ≠ 0) (h : Encodes s t) :
    Encodes (value :: s) (92 :: a :: b :: c :: t)

/-- Every backslash begins an escape of a byte that is not zero. -/
def EveryEscape (t : Text) : Prop := ∀ i : Nat, t[i]? = some 92 →
  ∃ a b c n, t[i + 1]? = some a ∧ t[i + 2]? = some b ∧ t[i + 3]? = some c ∧ Octal a b c n ∧ 1 ≤ n ∧ n ≤ 255

/-! ### One escape -/

section
variable {a b c : UInt8} {n : Nat}

theorem isOctal_iff : isOctal a = true ↔ 48 ≤ a ∧ a ≤ 55 := by
  rw [isOctal, Bool.and_eq_true, decide_eq_true_iff, decide_eq_true_iff]

theorem Octal.ne_backslash (h : Octal a b c n) : a ≠ 92 ∧ b ≠ 92 ∧ c ≠ 92 := by
  refine ⟨?_, ?_, ?_⟩ <;> rintro rfl
  · exact absurd h.high.2 (by decide)
  · exact absurd h.middle.2 (by decide)
  · exact absurd h.low.2 (by decide)

theorem octalByte_eq_some {value : UInt8} :
    octalByte a b c = some value ↔ Octal a b c value.toNat ∧ value ≠ 0 := by
  rw [octalByte]
  by_cases hdigits : (isOctal a && isOctal b && isOctal c) = true
  · rw [if_pos hdigits]
    simp only [Bool.and_eq_true, isOctal_iff] at hdigits
    obtain ⟨⟨ha, hb⟩, hc⟩ := hdigits
    dsimp only
    constructor
    · intro h
      split at h
      · cases h
      next hrange =>
        cases h
        have hnat : (a.toNat - 48) * 64 + (b.toNat - 48) * 8 + (c.toNat - 48) < 256 := by omega
        have hvalue : ((a.toNat - 48) * 64 + (b.toNat - 48) * 8 + (c.toNat - 48)).toUInt8.toNat =
            (a.toNat - 48) * 64 + (b.toNat - 48) * 8 + (c.toNat - 48) := by
          rw [Nat.toUInt8, UInt8.toNat_ofNat']
          exact Nat.mod_eq_of_lt hnat
        refine ⟨⟨ha, hb, hc, hvalue.symm⟩, fun hzero => hrange (.inl ?_)⟩
        rw [← hvalue, hzero]
        rfl
    · rintro ⟨hoctal, hne⟩
      have hpos : value.toNat ≠ 0 := fun h => hne (UInt8.toNat_inj.mp h)
      have hlt := value.toNat_lt
      rw [hoctal.value, if_neg (by omega)]
      exact congrArg some (UInt8.ofNat_toNat ..)
  · rw [if_neg hdigits]
    refine iff_of_false nofun fun h => hdigits ?_
    rw [isOctal_iff.mpr h.1.high, isOctal_iff.mpr h.1.middle, isOctal_iff.mpr h.1.low]
    rfl

end

/-! ### The loop -/

theorem decodeLoop_escape (size : Nat) (a b c : UInt8) (rest : Text) (output : Nat) :
    decodeLoop size (92 :: a :: b :: c :: rest) output =
      match octalByte a b c with
      | none => none
      | some value => if size ≤ output + 1 then none else (decodeLoop size rest (output + 1)).map (value :: ·) := rfl

/-- A backslash without three bytes behind it. -/
theorem decodeLoop_short (size : Nat) {rest : Text} (hshort : ∀ a b c more, rest ≠ a :: b :: c :: more) (output : Nat) :
    decodeLoop size (92 :: rest) output = none := by
  match rest, hshort with
  | [], _ => rfl
  | [_], _ => rfl
  | [_, _], _ => rfl
  | a :: b :: c :: more, hshort => exact absurd rfl (hshort a b c more)

section
variable {s t : Text}

/-- What a text encodes is decoded, where it fits. -/
theorem Encodes.decodeLoop_eq (h : Encodes s t) (size output : Nat) :
    decodeLoop size t output = if s = [] ∨ output + s.length < size then some s else none := by
  induction h generalizing output with
  | nil => rfl
  | @plain s t b hb h ih =>
    rw [decodeLoop_plain size hb, ih]
    exact decoded_cons size output b s
  | @escaped s t value a b c hvalue hne h ih =>
    rw [decodeLoop_escape, octalByte_eq_some.mpr ⟨hvalue, hne⟩, ih]
    exact decoded_cons size output value s

/-- What was decoded was encoded. -/
theorem encodes_of_decodeLoop {size output : Nat} (h : decodeLoop size t output = some s) : Encodes s t := by
  induction t, output using decodeLoop.induct size generalizing s with
  | case1 output =>
    cases h
    exact .nil
  | case2 output a b c rest hvalue =>
    rw [decodeLoop_escape, hvalue] at h
    cases h
  | case3 output a b c rest value hvalue hroom =>
    rw [decodeLoop_escape, hvalue] at h
    dsimp only at h
    rw [if_pos hroom] at h
    cases h
  | case4 output a b c rest value hvalue hroom ih =>
    rw [decodeLoop_escape, hvalue] at h
    dsimp only at h
    rw [if_neg hroom] at h
    obtain ⟨more, hmore, rfl⟩ := Option.map_eq_some_iff.mp h
    obtain ⟨hoctal, hne⟩ := octalByte_eq_some.mp hvalue
    exact .escaped hoctal hne (ih hmore)
  | case5 rest output hshort =>
    rw [decodeLoop_short size fun a b c more => hshort a b c more rfl] at h
    cases h
  | case6 b rest output _ hb hroom =>
    rw [decodeLoop_plain size hb, if_pos hroom] at h
    cases h
  | case7 b rest output _ hb hroom ih =>
    rw [decodeLoop_plain size hb, if_neg hroom] at h
    obtain ⟨more, hmore, rfl⟩ := Option.map_eq_some_iff.mp h
    exact .plain hb (ih hmore)

theorem Encodes.length_eq (h : Encodes s t) : s.length + 3 * t.count 92 = t.length := by
  induction h with
  | nil => rfl
  | @plain s t b hb h ih =>
    rw [List.length_cons, List.length_cons, List.count_cons_of_ne hb]
    omega
  | @escaped s t value a b c hvalue hne h ih =>
    obtain ⟨ha, hb, hc⟩ := hvalue.ne_backslash
    rw [List.count_cons_self, List.count_cons_of_ne ha, List.count_cons_of_ne hb, List.count_cons_of_ne hc]
    simp only [List.length_cons]
    omega

/-! ### The texts that are accepted -/

theorem everyEscape_plain {b : UInt8} (hb : b ≠ 92) : EveryEscape (b :: t) ↔ EveryEscape t := by
  constructor
  · intro h i hi
    exact h (i + 1) hi
  · intro h i hi
    cases i with
    | zero => exact absurd (Option.some.inj hi) hb
    | succ i => exact h i hi

theorem everyEscape_escaped {a b c : UInt8} {n : Nat} (hoctal : Octal a b c n) (hn : 1 ≤ n ∧ n ≤ 255) :
    EveryEscape (92 :: a :: b :: c :: t) ↔ EveryEscape t := by
  obtain ⟨ha, hb, hc⟩ := hoctal.ne_backslash
  have hrest : EveryEscape (a :: b :: c :: t) ↔ EveryEscape t := by
    rw [everyEscape_plain ha, everyEscape_plain hb, everyEscape_plain hc]
  rw [← hrest]
  constructor
  · intro h i hi
    exact h (i + 1) hi
  · intro h i hi
    cases i with
    | zero => exact ⟨a, b, c, n, rfl, rfl, rfl, hoctal, hn⟩
    | succ i => exact h i hi

theorem everyEscape_iff : EveryEscape t ↔ ∃ s, Encodes s t := by
  constructor
  · intro h
    induction hn : t.length using Nat.strongRecOn generalizing t with
    | _ n ih =>
      subst hn
      cases t with
      | nil => exact ⟨[], .nil⟩
      | cons d t =>
        by_cases hd : d = 92
        · subst hd
          obtain ⟨a, b, c, n, ha, hb, hc, hoctal, hlow, hhigh⟩ := h 0 rfl
          obtain ⟨rest, rfl⟩ : ∃ rest, t = a :: b :: c :: rest := by
            match t, ha, hb, hc with
            | _ :: _ :: _ :: rest, rfl, rfl, rfl => exact ⟨rest, rfl⟩
          obtain ⟨s, hs⟩ := ih rest.length (by simp only [List.length_cons]; omega)
            ((everyEscape_escaped hoctal ⟨hlow, hhigh⟩).mp h) rfl
          have hvalue : n.toUInt8.toNat = n := by
            rw [Nat.toUInt8, UInt8.toNat_ofNat']
            exact Nat.mod_eq_of_lt (by omega)
          refine ⟨n.toUInt8 :: s, .escaped (hvalue.symm ▸ hoctal) (fun hzero => ?_) hs⟩
          have hbyte : (0 : UInt8).toNat = 0 := rfl
          rw [hzero, hbyte] at hvalue
          omega
        · obtain ⟨s, hs⟩ := ih t.length (Nat.lt_succ_self _) ((everyEscape_plain hd).mp h) rfl
          exact ⟨d :: s, .plain hd hs⟩
  · rintro ⟨s, h⟩
    induction h with
    | nil => exact fun i hi => by cases hi
    | plain hb h ih => exact (everyEscape_plain hb).mpr ih
    | @escaped s t value a b c hvalue hne h ih =>
      have hpos : value.toNat ≠ 0 := fun hzero => hne (UInt8.toNat_inj.mp hzero)
      have hlt := value.toNat_lt
      exact (everyEscape_escaped hvalue ⟨by omega, by omega⟩).mpr ih

end

/-- **Decoding inverts every encoding that fits, and accepts nothing else.** -/
theorem decode_mount_field_inverts (n : Nat) :
    (∀ s t : Text, 0 ∉ s → s.length < n → Encodes s t →
      ∃ field : Chars n, decodeMountField n t = some field ∧ field.text = s) ∧
    ∀ t : Text, (decodeMountField n t).isSome = true ↔ EveryEscape t ∧ t.length - 3 * t.count 92 < n := by
  refine ⟨fun s t hnul hfits h => ?_, fun t => ?_⟩
  · have hdecoded := h.decodeLoop_eq n 0
    rw [if_pos (Or.inr (by omega))] at hdecoded
    exact ⟨.ofText s, decodeMountField_eq_some.mpr ⟨by omega, s, hdecoded, rfl⟩, Chars.ofText_text hnul (by omega)⟩
  · rw [Option.isSome_iff_exists, everyEscape_iff]
    constructor
    · rintro ⟨field, hfield⟩
      obtain ⟨hn, s, hdecoded, -⟩ := decodeMountField_eq_some.mp hfield
      have h := encodes_of_decodeLoop hdecoded
      have hlength := h.length_eq
      refine ⟨⟨s, h⟩, ?_⟩
      rw [h.decodeLoop_eq] at hdecoded
      split at hdecoded
      next hfits =>
        rcases hfits with rfl | hfits
        · rw [List.length_nil] at hlength
          omega
        · omega
      next => cases hdecoded
    · rintro ⟨⟨s, h⟩, hfits⟩
      have hlength := h.length_eq
      have hdecoded := h.decodeLoop_eq n 0
      rw [if_pos (Or.inr (by omega))] at hdecoded
      exact ⟨.ofText s, decodeMountField_eq_some.mpr ⟨by omega, s, hdecoded, rfl⟩⟩

end SystemMonitor.Mounts
