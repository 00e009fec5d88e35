import SystemMonitor.Windows.GpuEngines

/-! The names of the performance counter's instances.

A well-formed name gives the process, the adapter, the engine and its type, such as
`pid_1234_luid_0x00000000_0x0000C853_phys_0_eng_3_engtype_VideoDecode`. The parsers find
each part again (`parse_name`), whatever stands in the type. -/
namespace SystemMonitor.Windows.GpuEngines
open Lib WideStrings Numeral

structure EngineInstance where
  pid : UInt32
  luid : Luid
  physicalIndex : UInt32
  engineIndex : UInt32
  type : Wide

namespace EngineInstance
variable (i : EngineInstance)

def typeField : Wide := wide "_" ++ (wide "engtype_" ++ i.type)

def engineField : Wide := wide "_" ++ (wide "eng_" ++ (decimal.print i.engineIndex.toNat ++ i.typeField))

def physicalField : Wide := wide "_" ++ (wide "phys_" ++ (decimal.print i.physicalIndex.toNat ++ i.engineField))

def lowField : Wide := wide "_" ++ (wide "0x" ++ (hex.printPadded 8 i.luid.low.toNat ++ i.physicalField))

def luidField : Wide := wide "_" ++ (wide "luid_" ++ (wide "0x" ++ (hex.printPadded 8 i.luid.high.toNat ++ i.lowField)))

def name : Wide := wide "pid_" ++ (decimal.print i.pid.toNat ++ i.luidField)

end EngineInstance

theorem notMem_decimal {c : UInt16} (hc : ∀ d < 10, c ≠ digitChar d) (n : Nat) : c ∉ decimal.print n := by
  intro hmem
  obtain ⟨d, hd, hequal⟩ := decimal.mem_print hmem
  exact hc d hd hequal

theorem notMem_hex {c : UInt16} (hc : ∀ d < 16, c ≠ digitChar d) (width n : Nat) : c ∉ hex.printPadded width n := by
  intro hmem
  obtain ⟨d, hd, hequal⟩ := hex.mem_printPadded hmem
  exact hc d hd hequal

theorem parseHexComponent_hex (n : UInt32) (rest : Wide) (hrest : ∀ c ∈ rest.head?, hex.isDigit c = false) :
    parseHexComponent (wide "0x" ++ (hex.printPadded 8 n.toNat ++ rest)) = some (n, rest) := by
  rw [parseHexComponent, wcstoul_hex (by decide) (Nat.le_sub_one_of_lt n.toNat_lt) hrest]
  exact congrArg some (Prod.ext (UInt32.ofNat_toNat ..) rfl)

theorem parseHexComponent_decimal (n : UInt32) {rest : Wide} (hrest : ∀ c ∈ rest.head?, c = 95) :
    parseHexComponent (decimal.print n.toNat ++ rest) = some (n, rest) := by
  rw [parseHexComponent, wcstoul_decimal (Nat.le_sub_one_of_lt n.toNat_lt) hrest]
  exact congrArg some (Prod.ext (UInt32.ofNat_toNat ..) rfl)

section
variable (i : EngineInstance)

theorem parse_luid : parseGpuEngineLuid i.name = some i.luid := by
  have hfound : wcsstr (wide "luid_") i.name =
      some (wide "luid_" ++ (wide "0x" ++ (hex.printPadded 8 i.luid.high.toNat ++ i.lowField))) := by
    have hfirst := wcsstr_first (wide "luid_") (wide "pid_" ++ decimal.print i.pid.toNat ++ wide "_") 0 (c := 108) rfl
      (by
        rw [List.take_zero, List.append_nil]
        simp only [List.mem_append, not_or]
        exact ⟨⟨by decide, notMem_decimal (by decide) _⟩, by decide⟩)
      (wide "0x" ++ (hex.printPadded 8 i.luid.high.toNat ++ i.lowField))
    rw [← hfirst]
    simp only [EngineInstance.name, EngineInstance.luidField, List.append_assoc]
  have hhigh := parseHexComponent_hex i.luid.high i.lowField fun c hc => by cases hc; decide
  have hlow := parseHexComponent_hex i.luid.low i.physicalField fun c hc => by cases hc; decide
  rw [parseGpuEngineLuid, hfound, Option.bind_some]
  rw [show (wide "luid_" ++ (wide "0x" ++ (hex.printPadded 8 i.luid.high.toNat ++ i.lowField))).drop 5 =
    wide "0x" ++ (hex.printPadded 8 i.luid.high.toNat ++ i.lowField) from rfl, hhigh, Option.bind_some]
  dsimp only
  rw [show i.lowField.tail = wide "0x" ++ (hex.printPadded 8 i.luid.low.toNat ++ i.physicalField) from rfl,
    if_pos (show i.lowField.head? = some 95 from rfl), hlow]
  rfl

/-- An index behind its token. -/
theorem parse_index (token front : Wide) {c : UInt16} (place : Nat) (hplace : token[place]? = some c)
    (hfront : c ∉ front ++ token.take place) (n : UInt32) (rest : Wide) {name : Wide} (hrest : ∀ c ∈ rest.head?, c = 95)
    (hname : name = front ++ token ++ (decimal.print n.toNat ++ rest)) : parseGpuEngineIndex name token = some n := by
  have hfound := wcsstr_first token front place hplace hfront (decimal.print n.toNat ++ rest)
  rw [parseGpuEngineIndex, hname, hfound, Option.bind_some, List.drop_left, parseHexComponent_decimal n hrest]
  rfl

/-- What stands before the adapter's part of the engine. -/
def EngineInstance.front : Wide :=
  wide "pid_" ++ decimal.print i.pid.toNat ++ wide "_" ++ wide "luid_" ++ wide "0x" ++
    hex.printPadded 8 i.luid.high.toNat ++ wide "_" ++ wide "0x" ++ hex.printPadded 8 i.luid.low.toNat ++ wide "_"

theorem notMem_front {c : UInt16} (hc : ∀ d < 16, c ≠ digitChar d)
    (hwords : c ∉ wide "pid_" ++ wide "_" ++ wide "luid_" ++ wide "0x") : c ∉ i.front := by
  have hdecimal : ∀ d < 10, c ≠ digitChar d := fun d hd => hc d (Nat.lt_of_lt_of_le hd (by decide))
  have hpid := notMem_decimal hdecimal i.pid.toNat
  have hhigh := notMem_hex hc 8 i.luid.high.toNat
  have hlow := notMem_hex hc 8 i.luid.low.toNat
  unfold EngineInstance.front
  simp only [List.mem_append, not_or] at hwords ⊢
  tauto

theorem parse_physicalIndex : parseGpuEngineIndex i.name (wide "phys_") = some i.physicalIndex := by
  refine parse_index (wide "phys_") i.front 1 (c := 104) rfl ?_ i.physicalIndex i.engineField
    (fun c hc => by cases hc; rfl) ?_
  · rw [List.mem_append, not_or]
    exact ⟨notMem_front i (by decide) (by decide), by decide⟩
  · simp only [EngineInstance.name, EngineInstance.luidField, EngineInstance.lowField, EngineInstance.physicalField,
      EngineInstance.front, List.append_assoc]

theorem parse_engineIndex : parseGpuEngineIndex i.name (wide "eng_") = some i.engineIndex := by
  refine parse_index (wide "eng_") (i.front ++ (wide "phys_" ++ (decimal.print i.physicalIndex.toNat ++ wide "_"))) 1
    (c := 110) rfl ?_ i.engineIndex i.typeField (fun c hc => by cases hc; rfl) ?_
  · simp only [List.mem_append, not_or]
    exact ⟨⟨notMem_front i (by decide) (by decide), by decide, notMem_decimal (by decide) _, by decide⟩, by decide⟩
  · simp only [EngineInstance.name, EngineInstance.luidField, EngineInstance.lowField, EngineInstance.physicalField,
      EngineInstance.engineField, EngineInstance.front, List.append_assoc]

theorem parse_type : gpuEngineType i.name = some i.type := by
  have hfirst := wcsstr_first (wide "engtype_")
    (i.front ++ (wide "phys_" ++ (decimal.print i.physicalIndex.toNat ++ (wide "_" ++ (wide "eng_" ++
      (decimal.print i.engineIndex.toNat ++ wide "_")))))) 3 (c := 116) rfl
    (by
      simp only [List.mem_append, not_or]
      exact ⟨⟨notMem_front i (by decide) (by decide), by decide, notMem_decimal (by decide) _, by decide, by decide,
        notMem_decimal (by decide) _, by decide⟩, by decide⟩) i.type
  have hname : i.name = i.front ++ (wide "phys_" ++ (decimal.print i.physicalIndex.toNat ++ (wide "_" ++ (wide "eng_" ++
      (decimal.print i.engineIndex.toNat ++ wide "_"))))) ++ wide "engtype_" ++ i.type := by
    simp only [EngineInstance.name, EngineInstance.luidField, EngineInstance.lowField, EngineInstance.physicalField,
      EngineInstance.engineField, EngineInstance.typeField, EngineInstance.front, List.append_assoc]
  rw [gpuEngineType, hname, hfirst]
  rfl

end

/-- **Each part of a well-formed name is read as it was written.** -/
theorem parse_name (i : EngineInstance) :
    parseGpuEngineLuid i.name = some i.luid ∧ parseGpuEngineIndex i.name (wide "phys_") = some i.physicalIndex ∧
      parseGpuEngineIndex i.name (wide "eng_") = some i.engineIndex ∧ gpuEngineType i.name = some i.type :=
  ⟨parse_luid i, parse_physicalIndex i, parse_engineIndex i, parse_type i⟩

end SystemMonitor.Windows.GpuEngines
