import Mathlib.Data.List.Basic
import Mathlib.Data.List.TakeWhile

/-! Searching and cutting C strings, as `string.h` does.

`tokens` are the words `strtok` finds, `strstr` is what follows the first occurrence
of a text, itself included, and the last occurrence of a byte cuts a text in two
(`beforeLast`, `afterLast`). -/
namespace SystemMonitor.Lib.CStrings

abbrev Bytes := List UInt8

/-! ### Words -/

/-- What stands between separators, empty words left out. -/
def tokens (sep : UInt8 → Bool) (t : Bytes) : List Bytes := (t.splitOnP sep).filter fun word => !word.isEmpty

section
variable {sep : UInt8 → Bool} {t word : Bytes}

theorem tokens_nil (sep : UInt8 → Bool) : tokens sep [] = [] := by
  rw [tokens, List.splitOnP_nil]
  rfl

theorem tokens_append (a b : Bytes) {s : UInt8} (hs : sep s = true) :
    tokens sep (a ++ s :: b) = tokens sep a ++ tokens sep b := by
  rw [tokens, List.splitOnP_append_cons a b hs, List.filter_append]
  rfl

theorem tokens_cons_sep {s : UInt8} (hs : sep s = true) (t : Bytes) : tokens sep (s :: t) = tokens sep t := by
  have h := tokens_append [] t hs
  rwa [List.nil_append, tokens_nil, List.nil_append] at h

theorem tokens_word (hword : ∀ b ∈ t, sep b = false) (hne : t ≠ []) : tokens sep t = [t] := by
  rw [tokens, List.splitOnP_eq_singleton hword]
  cases t with
  | nil => exact absurd rfl hne
  | cons b t => rfl

theorem mem_splitOnP (h : word ∈ t.splitOnP sep) : ∀ b ∈ word, b ∈ t ∧ sep b = false := by
  induction t generalizing word with
  | nil =>
    rw [List.splitOnP_nil, List.mem_singleton] at h
    intro b hb
    rw [h] at hb
    cases hb
  | cons c t ih =>
    rw [List.splitOnP_cons_eq_if_modifyHead] at h
    split at h
    · rcases List.mem_cons.mp h with rfl | h
      · exact fun b hb => absurd hb List.not_mem_nil
      · exact fun b hb => ⟨List.mem_cons_of_mem _ (ih h b hb).1, (ih h b hb).2⟩
    · rename_i hc
      cases hsplit : t.splitOnP sep with
      | nil => exact absurd hsplit (List.splitOnP_ne_nil sep t)
      | cons first rest =>
        rw [hsplit, List.modifyHead_cons] at h
        rw [hsplit] at ih
        rcases List.mem_cons.mp h with rfl | h
        · intro b hb
          rcases List.mem_cons.mp hb with rfl | hb
          · exact ⟨List.mem_cons_self .., by simpa using hc⟩
          · have hfirst := ih (List.mem_cons_self ..) b hb
            exact ⟨List.mem_cons_of_mem _ hfirst.1, hfirst.2⟩
        · intro b hb
          have hrest := ih (List.mem_cons_of_mem _ h) b hb
          exact ⟨List.mem_cons_of_mem _ hrest.1, hrest.2⟩

theorem tokens_dropWhile (sep : UInt8 → Bool) (t : Bytes) : tokens sep (t.dropWhile sep) = tokens sep t := by
  induction t with
  | nil => rfl
  | cons b t ih =>
    cases hb : sep b with
    | true => rw [List.dropWhile_cons_of_pos hb, tokens_cons_sep hb, ih]
    | false => rw [List.dropWhile_cons_of_neg (by rw [hb]; decide)]

/-- The first word, and the words of what follows it. -/
theorem tokens_eq (sep : UInt8 → Bool) (t : Bytes) : tokens sep t =
    if t.dropWhile sep = [] then []
    else (t.dropWhile sep).takeWhile (fun b => !sep b) ::
      tokens sep (((t.dropWhile sep).dropWhile fun b => !sep b).drop 1) := by
  rw [← tokens_dropWhile]
  cases hstart : t.dropWhile sep with
  | nil => rw [if_pos rfl, tokens_nil]
  | cons b rest =>
    rw [if_neg (List.cons_ne_nil b rest)]
    have hb : sep b = false := by
      have hne : t.dropWhile sep ≠ [] := by rw [hstart]; exact List.cons_ne_nil b rest
      have hhead := List.head_dropWhile_not sep hne
      simpa only [hstart, List.head_cons] using hhead
    have hword : ∀ c ∈ (b :: rest).takeWhile (fun c => !sep c), sep c = false := by
      intro c hc
      simpa using List.mem_takeWhile_imp hc
    have hne : (b :: rest).takeWhile (fun c => !sep c) ≠ [] := by
      rw [List.takeWhile_cons_of_pos (by rw [hb]; rfl)]
      exact List.cons_ne_nil _ _
    have hsplit := List.takeWhile_append_dropWhile (p := fun c => !sep c) (l := b :: rest)
    cases hend : (b :: rest).dropWhile (fun c => !sep c) with
    | nil =>
      rw [hend, List.append_nil] at hsplit
      rw [hsplit] at hword
      rw [hsplit, tokens_word hword (List.cons_ne_nil b rest), List.drop_nil, tokens_nil]
    | cons c after =>
      have hc : sep c = true := by
        have hne : (b :: rest).dropWhile (fun c => !sep c) ≠ [] := by rw [hend]; exact List.cons_ne_nil c after
        have hhead := List.head_dropWhile_not (fun c => !sep c) hne
        simpa only [hend, List.head_cons, Bool.not_eq_false'] using hhead
      rw [hend] at hsplit
      conv_lhs => rw [← hsplit, tokens_append _ _ hc, tokens_word hword hne]
      rfl

theorem length_tokens (sep : UInt8 → Bool) (t : Bytes) : (tokens sep t).length ≤ t.length := by
  induction hn : t.length using Nat.strongRecOn generalizing t with
  | _ n ih =>
    subst hn
    rw [tokens_eq]
    split
    · exact Nat.zero_le _
    · rename_i hne
      have hpos : 0 < (t.dropWhile sep).length := List.length_pos_of_ne_nil hne
      have hstart := (List.dropWhile_suffix sep (l := t)).length_le
      have hword := (List.dropWhile_suffix (fun b => !sep b) (l := t.dropWhile sep)).length_le
      have hlt : (((t.dropWhile sep).dropWhile fun b => !sep b).drop 1).length < t.length := by
        rw [List.length_drop]
        omega
      exact Nat.lt_of_le_of_lt (ih _ hlt _ rfl) hlt

theorem length_of_mem_tokens {word : Bytes} (h : word ∈ tokens sep t) : word.length ≤ t.length := by
  induction hn : t.length using Nat.strongRecOn generalizing t with
  | _ n ih =>
    subst hn
    rw [tokens_eq] at h
    have hstart := (List.dropWhile_suffix sep (l := t)).length_le
    split at h
    · cases h
    · rename_i hne
      rcases List.mem_cons.mp h with rfl | h
      · exact (List.takeWhile_prefix _).length_le.trans hstart
      · have hpos : 0 < (t.dropWhile sep).length := List.length_pos_of_ne_nil hne
        have hword := (List.dropWhile_suffix (fun b => !sep b) (l := t.dropWhile sep)).length_le
        have hlt : (((t.dropWhile sep).dropWhile fun b => !sep b).drop 1).length < t.length := by
          rw [List.length_drop]
          omega
        exact (ih _ hlt h rfl).trans hlt.le

theorem splitOnP_append_word {w : Bytes} (hw : ∀ b ∈ w, sep b = false) (t : Bytes) :
    (w ++ t).splitOnP sep = (t.splitOnP sep).modifyHead (w ++ ·) := by
  induction w with
  | nil => cases h : t.splitOnP sep <;> simp [h]
  | cons b w ih =>
    rw [List.cons_append, List.splitOnP_cons_eq_if_modifyHead, if_neg (by rw [hw b (List.mem_cons_self ..)]; decide),
      ih fun c hc => hw c (List.mem_cons_of_mem b hc), List.modifyHead_modifyHead]
    rfl

/-- A code that keeps the separators apart keeps the words apart. -/
theorem tokens_flatMap {sep' : UInt8 → Bool} {f : UInt8 → Bytes}
    (hsep : ∀ b, sep' b = true → ∃ s, f b = [s] ∧ sep s = true)
    (hword : ∀ b, sep' b = false → f b ≠ [] ∧ ∀ c ∈ f b, sep c = false) (t : Bytes) :
    tokens sep (t.flatMap f) = (tokens sep' t).map (·.flatMap f) := by
  have hsplit : (t.flatMap f).splitOnP sep = (t.splitOnP sep').map (·.flatMap f) := by
    induction t with
    | nil => simp
    | cons b t ih =>
      rw [List.flatMap_cons, List.splitOnP_cons_eq_if_modifyHead]
      cases hb : sep' b with
      | true =>
        obtain ⟨s, hs, hss⟩ := hsep b hb
        rw [if_pos rfl, hs, List.singleton_append, List.splitOnP_cons_eq_if_modifyHead, if_pos hss, ih]
        rfl
      | false =>
        rw [if_neg (by decide), splitOnP_append_word (hword b hb).2, ih]
        cases h : t.splitOnP sep' with
        | nil => rfl
        | cons first rest => simp
  rw [tokens, tokens, hsplit, List.filter_map]
  congr 1
  apply List.filter_congr
  intro w hw
  cases w with
  | nil => rfl
  | cons b w =>
    have hb := (mem_splitOnP hw b (List.mem_cons_self ..)).2
    cases hf : f b with
    | nil => exact absurd hf (hword b hb).1
    | cons c rest => simp [hf]

theorem mem_tokens (h : word ∈ tokens sep t) : word ≠ [] ∧ ∀ b ∈ word, b ∈ t ∧ sep b = false := by
  obtain ⟨hmem, hne⟩ := List.mem_filter.mp h
  exact ⟨by simpa using hne, mem_splitOnP hmem⟩

end

/-! ### Occurrences -/

/-- What is left from the first occurrence on. -/
def strstr (needle : Bytes) : Bytes → Option Bytes
  | [] => if needle = [] then some [] else none
  | b :: rest => if needle.isPrefixOf (b :: rest) then some (b :: rest) else strstr needle rest

/-- What follows the last occurrence of a byte, or everything. -/
def afterLast (c : UInt8) (t : Bytes) : Bytes := (t.reverse.takeWhile (· != c)).reverse

/-- What stands before and after the last occurrence of a byte. -/
def cutLast (c : UInt8) (t : Bytes) : Option (Bytes × Bytes) :=
  match t.reverse.dropWhile (· != c) with
  | [] => none
  | _ :: front => some (front.reverse, afterLast c t)

theorem cutLast_append {c : UInt8} {back : Bytes} (h : c ∉ back) (front : Bytes) :
    cutLast c (front ++ c :: back) = some (front, back) := by
  have hall : ∀ b ∈ back.reverse, (b != c) = true := fun b hb =>
    bne_iff_ne.mpr fun heq => h (heq ▸ List.mem_reverse.mp hb)
  have hdropped : (c :: front.reverse).dropWhile (· != c) = c :: front.reverse := List.dropWhile_cons_of_neg (by simp)
  have htaken : (c :: front.reverse).takeWhile (· != c) = [] := List.takeWhile_cons_of_neg (by simp)
  have hreverse : (front ++ c :: back).reverse = back.reverse ++ c :: front.reverse := by simp
  have hdrop : (front ++ c :: back).reverse.dropWhile (· != c) = c :: front.reverse := by
    rw [hreverse, List.dropWhile_append_of_pos hall, hdropped]
  have htake : (front ++ c :: back).reverse.takeWhile (· != c) = back.reverse := by
    rw [hreverse, List.takeWhile_append_of_pos hall, htaken, List.append_nil]
  rw [cutLast, hdrop, afterLast, htake]
  simp

end SystemMonitor.Lib.CStrings
