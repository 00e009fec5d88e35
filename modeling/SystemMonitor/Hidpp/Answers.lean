import SystemMonitor.Hidpp.Model

/-! Whether an accepted payload answers its request.

A response is matched by feature index and function alone. The queue is drained
before a request is written, so what is in it then came after; but the device may
still owe the answer to an earlier request with the same two bytes, as the two
requests of the root feature have. `answers_matched` excludes this, and the
feature index of errors; `answers_mismatched` is a run with it. -/
namespace SystemMonitor.Hidpp
open Lib

/-! ### Reports -/

/-- The two bytes that responses are matched by. -/
def SameHeader (a b : Bytes) : Prop := byteAt a 2 = byteAt b 2 ∧ byteAt a 3 = byteAt b 3

instance (a b : Bytes) : Decidable (SameHeader a b) := inferInstanceAs (Decidable (_ ∧ _))

theorem matchResponse_accepted {request response payload : Bytes}
    (h : matchResponse request response = .accepted payload) :
    Framed response ∧ SameHeader response request ∧ payload = (response.drop 4).take 16 := by
  unfold matchResponse at h
  split at h
  · cases h
  · rename_i hlong
    split at h
    · cases h
    · rename_i hid
      split at h
      · cases h
      · rename_i hdevice
        split at h
        · cases h
        · split at h
          · cases h
          · rename_i hheader
            cases h
            rw [not_or, Decidable.not_not, Decidable.not_not] at hheader
            refine ⟨⟨by omega, ?_, ?_⟩, hheader, rfl⟩
            · by_contra hneither
              exact hid (not_or.mp hneither)
            · by_contra hneither
              exact hdevice (not_or.mp hneither)

section Calls
variable (call : Call)

theorem call_function_cases : call.function = 0x00 ∨ call.function = 0x10 := by
  unfold Call.function
  split
  · exact Or.inl rfl
  · unfold statusFunction
    split
    · exact Or.inr rfl
    · exact Or.inl rfl

theorem call_report : call.report = [reportIdLong, deviceDirect, call.featureIndex,
    (call.function &&& 0xf0) ||| softwareId] ++ call.parameters ++ List.replicate (16 - call.parameters.length) 0 := by
  have hshort : ¬16 < call.parameters.length := by
    unfold Call.parameters
    split
    · simp
    · simp
  rw [Call.report, lsmLogitechHidppFormatRequest, if_neg hshort]
  rfl

theorem call_report_index : byteAt call.report 2 = call.featureIndex := by
  rw [call_report]
  rfl

theorem call_report_function : byteAt call.report 3 = (call.function &&& 0xf0) ||| softwareId := by
  rw [call_report]
  rfl

/-- Requests carry the software's own ID. -/
theorem call_report_softwareId : byteAt call.report 3 &&& 0x0f = softwareId := by
  rw [call_report_function]
  rcases call_function_cases call with hfunction | hfunction
  · rw [hfunction]
    decide
  · rw [hfunction]
    decide

end Calls

theorem unrelated_not_accepted {call : Call} (hindex : call.featureIndex ≠ errorFeature) {bytes payload : Bytes}
    (hunrelated : Unrelated bytes) : matchResponse call.report bytes ≠ .accepted payload := by
  intro h
  obtain ⟨hframed, ⟨hfeature, hfunction⟩, -⟩ := matchResponse_accepted h
  rw [call_report_index] at hfeature
  have hother := hunrelated hframed
  rw [if_neg (by rw [hfeature]; exact hindex), hfunction] at hother
  exact hother (call_report_softwareId call)

/-- An answer that is accepted was for a request with the same header. -/
theorem answer_accepted {device : Device} {call : Call} (hindex : call.featureIndex ≠ errorFeature)
    {report bytes payload : Bytes} (hanswers : Answers device report bytes)
    (h : matchResponse call.report bytes = .accepted payload) : SameHeader report call.report := by
  obtain ⟨-, ⟨hfeature, hfunction⟩, -⟩ := matchResponse_accepted h
  rcases hanswers.2 with ⟨hsame, hsameFunction, -⟩ | ⟨herror, -⟩
  · exact ⟨hsame.symm.trans hfeature, hsameFunction.symm.trans hfunction⟩
  · rw [hfeature, call_report_index] at herror
    exact absurd herror hindex

/-! ### The invariant -/

section Invariant
variable (device : Device)

/-- A call for a feature that is asked for, or with the index the device gives it. -/
def CallSound (call : Call) : Prop :=
  match call.stage with
  | .root feature => feature = featureUnifiedBattery ∨ feature = featureBatteryStatus
  | .status => call.query.featureIndex = device.features call.query.featureId

def QuerySound (query : Query) : Prop := query.featureId = 0 ∨ query.featureIndex = device.features query.featureId

/-- What the worker knows when it is here. While it waits, the only request with
its header is its own, and so is the origin of any report it would accept. -/
def PhaseSound (outstanding : List Sent) (queue : List Report) : Phase → Prop
  | .idle => True
  | .draining call => CallSound device call
  | .drained call => CallSound device call ∧ call.featureIndex ≠ errorFeature ∧
      (∀ sent ∈ outstanding, ¬SameHeader sent.report call.report) ∧
      ∀ report ∈ queue, ∀ payload, matchResponse call.report report.bytes ≠ .accepted payload
  | .waiting call id => CallSound device call ∧ call.featureIndex ≠ errorFeature ∧
      (∀ sent ∈ outstanding, SameHeader sent.report call.report → sent = ⟨id, call.report⟩) ∧
      ∀ report ∈ queue, ∀ payload, matchResponse call.report report.bytes = .accepted payload →
        report.origin = some id ∧ Answers device call.report report.bytes

structure Sound (s : State) : Prop where
  phase : PhaseSound device s.outstanding s.queue s.phase
  slot : QuerySound device s.slot.query

/-- The device owes no answer with the header of the next request, and this is
not the one of errors. -/
def Clear (outstanding : List Sent) : Phase → Prop
  | .draining call => call.featureIndex ≠ errorFeature ∧ ∀ sent ∈ outstanding, ¬SameHeader sent.report call.report
  | _ => True

instance (outstanding : List Sent) (phase : Phase) : Decidable (Clear outstanding phase) :=
  match phase with
  | .draining call => inferInstanceAs (Decidable (call.featureIndex ≠ errorFeature ∧
      ∀ sent ∈ outstanding, ¬SameHeader sent.report call.report))
  | .idle | .drained _ | .waiting _ _ => .isTrue trivial

/-- No drain ends otherwise. -/
def DrainRule (s : State) : Action → Prop
  | .drainEnd => Clear s.outstanding s.phase
  | _ => True

instance (s : State) (a : Action) : Decidable (DrainRule s a) :=
  match a with
  | .drainEnd => inferInstanceAs (Decidable (Clear s.outstanding s.phase))
  | .query _ | .discard | .write _ | .read | .giveUp | .answer _ | .ignore | .unrelated _ => .isTrue trivial

/-- What the claims of an event come to. -/
def EventSound : Event → Prop
  | .accepted id origin => origin = some id
  | .found feature index => index = device.features feature
  | .decoded featureId featureIndex function =>
    featureIndex = device.features featureId ∧ function = statusFunction featureId

def NextSound : Next → Prop
  | .call call => CallSound device call
  | .done query reading => reading ≠ none → QuerySound device query

end Invariant

section Steps
variable {device : Device} {s : State}

theorem queryDevice_sound {query : Query} (h : QuerySound device query) : NextSound device (queryDevice query) := by
  unfold queryDevice
  split
  · exact Or.inl rfl
  · rename_i hknown
    split
    · exact h.resolve_left hknown
    · exact fun hnone => absurd rfl hnone

/-- The index that the root feature returns is the one of the feature asked for. -/
theorem rootFeatureIndex_sound {call : Call} {feature : Nat} (hstage : call.stage = .root feature)
    (hcall : CallSound device call) {bytes : Bytes} (hheader : SameHeader bytes call.report)
    (hindex : call.featureIndex ≠ errorFeature) (hanswers : Answers device call.report bytes) {index : UInt8}
    (hfound : rootFeatureIndex (some ((bytes.drop 4).take 16)) = some index) :
    index = device.features feature := by
  have hasked : askedFeature call.report = some feature := by
    simp only [CallSound, hstage] at hcall
    rw [call_report]
    simp only [Call.featureIndex, Call.function, Call.parameters, hstage]
    rcases hcall with rfl | rfl
    · decide
    · decide
  have hfirst : bytes[4]? = some index := by
    unfold rootFeatureIndex at hfound
    split at hfound
    · rename_i first rest hpayload
      split at hfound
      · cases hfound
      · cases hfound
        have hhead := congrArg (fun l : Bytes => l[0]?) (Option.some.inj hpayload)
        simpa [List.getElem?_take, List.getElem?_drop] using hhead
    · cases hfound
  rcases hanswers.2 with ⟨-, -, hroot⟩ | ⟨herror, -⟩
  · exact hroot feature hasked index hfirst
  · rw [hheader.1, call_report_index] at herror
    exact absurd herror hindex

theorem afterRequest_failed (call : Call) : NextSound device (afterRequest call none) := by
  unfold afterRequest
  split
  · simp only [rootFeatureIndex]
    split
    · exact Or.inr rfl
    · exact fun hnone => absurd rfl hnone
  · exact fun hnone => absurd rfl hnone

theorem afterRequest_accepted {call : Call} (hcall : CallSound device call) {bytes : Bytes}
    (hheader : SameHeader bytes call.report) (hindex : call.featureIndex ≠ errorFeature)
    (hanswers : Answers device call.report bytes) :
    NextSound device (afterRequest call (some ((bytes.drop 4).take 16))) ∧
      ∀ e ∈ callEvents call ((bytes.drop 4).take 16), EventSound device e := by
  unfold afterRequest callEvents
  cases hstage : call.stage with
  | root feature =>
    simp only
    cases hroot : rootFeatureIndex (some ((bytes.drop 4).take 16)) with
    | none =>
      refine ⟨?_, fun e he => absurd he List.not_mem_nil⟩
      simp only
      split
      · exact Or.inr rfl
      · exact fun hnone => absurd rfl hnone
    | some index =>
      have hsound := rootFeatureIndex_sound hstage hcall hheader hindex hanswers hroot
      refine ⟨queryDevice_sound (Or.inr hsound), ?_⟩
      intro e he
      rw [List.mem_singleton.mp he]
      exact hsound
  | status =>
    simp only [CallSound, hstage] at hcall
    refine ⟨fun _ => Or.inr hcall, ?_⟩
    intro e he
    rw [List.mem_singleton.mp he]
    exact ⟨by rw [Call.featureIndex, hstage]; exact hcall, by rw [Call.function, hstage]⟩

theorem Sound.advance (h : Sound device s) {next : Next} (hnext : NextSound device next) :
    Sound device (s.advance next) := by
  cases next with
  | call call => exact ⟨hnext, h.slot⟩
  | done query reading =>
    cases reading with
    | none => exact ⟨trivial, Or.inl rfl⟩
    | some reading => exact ⟨trivial, hnext (by simp)⟩

/-- A report arrives that an open call does not accept, or that is its answer. -/
theorem Sound.deliver (h : Sound device s) {report : Report}
    (hdrained : ∀ call, s.phase = .drained call → ∀ payload,
      matchResponse call.report report.bytes ≠ .accepted payload)
    (hwaiting : ∀ call id, s.phase = .waiting call id → ∀ payload,
      matchResponse call.report report.bytes = .accepted payload →
        report.origin = some id ∧ Answers device call.report report.bytes) :
    Sound device (s.deliver report) := by
  unfold State.deliver
  split
  · exact h
  · refine ⟨?_, h.slot⟩
    have hphase := h.phase
    cases hat : s.phase with
    | idle => trivial
    | draining call =>
      rw [hat] at hphase
      exact hphase
    | drained call =>
      rw [hat] at hphase
      obtain ⟨hcall, hindex, hnone, hqueue⟩ := hphase
      refine ⟨hcall, hindex, hnone, ?_⟩
      intro r hr
      rcases List.mem_append.mp hr with hold | hnew
      · exact hqueue r hold
      · rw [List.mem_singleton.mp hnew]
        exact hdrained call hat
    | waiting call id =>
      rw [hat] at hphase
      obtain ⟨hcall, hindex, hown, hqueue⟩ := hphase
      refine ⟨hcall, hindex, hown, ?_⟩
      intro r hr
      rcases List.mem_append.mp hr with hold | hnew
      · exact hqueue r hold
      · rw [List.mem_singleton.mp hnew]
        exact hwaiting call id hat

/-- The device forgets its first request. -/
theorem Sound.dropFirst (h : Sound device s) {sent : Sent} {rest : List Sent} (hfirst : s.outstanding = sent :: rest) :
    Sound device {s with outstanding := rest} := by
  refine ⟨?_, h.slot⟩
  have hphase := h.phase
  rw [hfirst] at hphase
  cases hat : s.phase with
  | idle => trivial
  | draining call =>
    rw [hat] at hphase
    exact hphase
  | drained call =>
    rw [hat] at hphase
    exact ⟨hphase.1, hphase.2.1, fun other hother => hphase.2.2.1 other (List.mem_cons_of_mem _ hother), hphase.2.2.2⟩
  | waiting call id =>
    rw [hat] at hphase
    exact ⟨hphase.1, hphase.2.1, fun other hother => hphase.2.2.1 other (List.mem_cons_of_mem _ hother), hphase.2.2.2⟩

theorem Sound.answer (h : Sound device s) {sent : Sent} {rest : List Sent} (hfirst : s.outstanding = sent :: rest)
    {bytes : Bytes} (hanswers : Answers device sent.report bytes) :
    Sound device (State.deliver {s with outstanding := rest} ⟨bytes, some sent.id⟩) := by
  have hphase := h.phase
  rw [hfirst] at hphase
  apply (h.dropFirst hfirst).deliver
  · intro call hat payload haccepted
    rw [show s.phase = .drained call from hat] at hphase
    obtain ⟨-, hindex, hnone, -⟩ := hphase
    exact hnone sent (List.mem_cons_self ..) (answer_accepted hindex hanswers haccepted)
  · intro call id hat payload haccepted
    rw [show s.phase = .waiting call id from hat] at hphase
    obtain ⟨-, hindex, hown, -⟩ := hphase
    have hsent := hown sent (List.mem_cons_self ..) (answer_accepted hindex hanswers haccepted)
    rw [hsent] at hanswers ⊢
    exact ⟨rfl, hanswers⟩

theorem Sound.unrelated (h : Sound device s) {bytes : Bytes} (hunrelated : Unrelated bytes) :
    Sound device (s.deliver ⟨bytes, none⟩) := by
  have hphase := h.phase
  apply h.deliver
  · intro call hat payload
    rw [hat] at hphase
    exact unrelated_not_accepted hphase.2.1 hunrelated
  · intro call id hat payload haccepted
    rw [hat] at hphase
    exact absurd haccepted (unrelated_not_accepted hphase.2.1 hunrelated)

theorem Sound.discard (h : Sound device s) {call : Call} (hat : s.phase = .draining call) (queue : List Report) :
    Sound device {s with queue} := by
  have hphase := h.phase
  rw [hat] at hphase
  refine ⟨?_, h.slot⟩
  simp only [hat]
  exact hphase

theorem Sound.drainEnd (h : Sound device s) {call : Call} (hat : s.phase = .draining call) (hempty : s.queue = [])
    (hindex : call.featureIndex ≠ errorFeature)
    (hnone : ∀ sent ∈ s.outstanding, ¬SameHeader sent.report call.report) :
    Sound device {s with phase := .drained call} := by
  have hphase := h.phase
  rw [hat] at hphase
  refine ⟨⟨hphase, hindex, hnone, ?_⟩, h.slot⟩
  simp only [hempty]
  exact fun _ hr => absurd hr List.not_mem_nil

theorem Sound.write (h : Sound device s) {call : Call} (hat : s.phase = .drained call) :
    Sound device
      { s with
        outstanding := s.outstanding ++ [⟨s.nextId, call.report⟩]
        nextId := s.nextId + 1
        phase := .waiting call s.nextId } := by
  have hphase := h.phase
  rw [hat] at hphase
  obtain ⟨hcall, hindex, hnone, hqueue⟩ := hphase
  refine ⟨⟨hcall, hindex, ?_, ?_⟩, h.slot⟩
  · intro sent hsent hsame
    rcases List.mem_append.mp hsent with hold | hnew
    · exact absurd hsame (hnone sent hold)
    · exact List.mem_singleton.mp hnew
  · intro report hreport payload haccepted
    exact absurd haccepted (hqueue report hreport payload)

theorem Sound.skip (h : Sound device s) {call : Call} {id : Nat} (hat : s.phase = .waiting call id) {report : Report}
    {rest : List Report} (hqueue : s.queue = report :: rest) : Sound device {s with queue := rest} := by
  have hphase := h.phase
  rw [hat, hqueue] at hphase
  obtain ⟨hcall, hindex, hown, hreports⟩ := hphase
  refine ⟨?_, h.slot⟩
  simp only [hat]
  exact ⟨hcall, hindex, hown, fun r hr => hreports r (List.mem_cons_of_mem _ hr)⟩

end Steps

/-! ### Runs -/

theorem Sound.read {device : Device} {s next : State} (h : Sound device s)
    (hstep : (system device).step s .read = some next) :
    Sound device next ∧ ∀ e ∈ events s .read, EventSound device e := by
  simp only [system] at hstep
  split at hstep
  · rename_i call id report rest hat hqueue
    have hskip := h.skip hat hqueue
    simp only [events, hat, hqueue]
    split at hstep
    · rename_i hother
      cases hstep
      rw [hother]
      exact ⟨hskip, fun _ he => absurd he List.not_mem_nil⟩
    · rename_i hfailed
      cases hstep
      rw [hfailed]
      exact ⟨hskip.advance (afterRequest_failed call), fun _ he => absurd he List.not_mem_nil⟩
    · rename_i payload haccepted
      cases hstep
      rw [haccepted]
      have hphase := h.phase
      rw [hat, hqueue] at hphase
      obtain ⟨hcall, hindex, -, hreports⟩ := hphase
      obtain ⟨horigin, hanswers⟩ := hreports report (List.mem_cons_self ..) payload haccepted
      obtain ⟨-, hheader, rfl⟩ := matchResponse_accepted haccepted
      obtain ⟨hnext, hevents⟩ := afterRequest_accepted hcall hheader hindex hanswers
      refine ⟨hskip.advance hnext, ?_⟩
      intro e he
      rcases List.mem_cons.mp he with rfl | hlater
      · exact horigin
      · exact hevents e hlater
  · cases hstep

theorem Sound.step {device : Device} {s next : State} (h : Sound device s) {a : Action} (hrule : DrainRule s a)
    (hstep : (system device).step s a = some next) :
    Sound device next ∧ ∀ e ∈ events s a, EventSound device e := by
  cases a with
  | read => exact h.read hstep
  | query opened =>
    refine ⟨?_, fun _ he => absurd he List.not_mem_nil⟩
    simp only [system] at hstep
    split at hstep
    · cases hstep
      split
      · exact h.advance (queryDevice_sound h.slot)
      · exact h.advance fun hnone => absurd rfl hnone
    · cases hstep
  | discard =>
    refine ⟨?_, fun _ he => absurd he List.not_mem_nil⟩
    simp only [system] at hstep
    split at hstep
    · rename_i call report rest hat hqueue
      cases hstep
      exact h.discard hat rest
    · cases hstep
  | drainEnd =>
    refine ⟨?_, fun _ he => absurd he List.not_mem_nil⟩
    simp only [system] at hstep
    split at hstep
    · rename_i call hat hqueue
      cases hstep
      simp only [DrainRule, hat] at hrule
      obtain ⟨hindex, hnone⟩ := hrule
      exact h.drainEnd hat hqueue hindex hnone
    · cases hstep
  | write ok =>
    refine ⟨?_, fun _ he => absurd he List.not_mem_nil⟩
    simp only [system] at hstep
    split at hstep
    · rename_i call hat
      split at hstep
      · cases hstep
        exact h.write hat
      · cases hstep
        exact h.advance (afterRequest_failed call)
    · cases hstep
  | giveUp =>
    refine ⟨?_, fun _ he => absurd he List.not_mem_nil⟩
    simp only [system] at hstep
    split at hstep
    · rename_i call id hat
      cases hstep
      exact h.advance (afterRequest_failed call)
    · cases hstep
  | answer bytes =>
    refine ⟨?_, fun _ he => absurd he List.not_mem_nil⟩
    simp only [system] at hstep
    split at hstep
    · rename_i sent rest hfirst
      split at hstep
      · rename_i hanswers
        cases hstep
        exact h.answer hfirst hanswers
      · cases hstep
    · cases hstep
  | ignore =>
    refine ⟨?_, fun _ he => absurd he List.not_mem_nil⟩
    simp only [system] at hstep
    split at hstep
    · rename_i sent rest hfirst
      cases hstep
      exact h.dropFirst hfirst
    · cases hstep
  | unrelated bytes =>
    refine ⟨?_, fun _ he => absurd he List.not_mem_nil⟩
    simp only [system] at hstep
    split at hstep
    · rename_i hunrelated
      cases hstep
      exact h.unrelated hunrelated
    · cases hstep

/-- **Payloads are matched to their requests** in every run in which no drain ends
while the device owes an answer with the header of the next request: what is
accepted was sent in answer to that very request, so the root feature's index is
the one asked for, and a battery payload is decoded as what it is. -/
theorem answers_matched (device : Device) {actions : List Action} {s : State}
    (hrule : (system device).Admissible DrainRule {} actions)
    (hrun : (system device).run {} actions = some s) :
    ∀ e ∈ (system device).trace events {} actions, EventSound device e := by
  have hstart : Sound device {} ∧ ∀ e ∈ ([] : List Event), EventSound device e :=
    ⟨⟨trivial, Or.inl rfl⟩, fun _ he => absurd he List.not_mem_nil⟩
  have h := (system device).run_trace_invariant events DrainRule
    (fun log s => Sound device s ∧ ∀ e ∈ log, EventSound device e) ?_ hstart hrule hrun
  · rw [List.nil_append] at h
    exact h.2
  · intro log s a next h hrule hstep
    obtain ⟨hnext, hevents⟩ := h.1.step hrule hstep
    refine ⟨hnext, ?_⟩
    intro e he
    rcases List.mem_append.mp he with hold | hnew
    · exact h.2 e hold
    · exact hevents e hnew

/-! ### One device -/

/-- A mouse with the unified battery feature at index 6. -/
def mouse : Device := ⟨fun feature => if feature = featureUnifiedBattery then 6 else 0⟩

def longReport (bytes : Bytes) : Bytes := bytes ++ List.replicate (20 - bytes.length) 0

/-- The answers to the two requests come in time. -/
def promptAnswers : List Action :=
  [.query true, .drainEnd, .write true, .answer (longReport [0x11, 0xff, 0x00, 0x0c, 6]), .read, .drainEnd, .write true,
    .answer (longReport [0x11, 0xff, 6, 0x1c, 80, 4, 2]), .read]

theorem answers_matched_prompt :
    (system mouse).trace events {} promptAnswers =
        [.accepted 0 (some 0), .found featureUnifiedBattery 6, .accepted 1 (some 1),
          .decoded featureUnifiedBattery 6 0x10] ∧
      ∀ e ∈ (system mouse).trace events {} promptAnswers, EventSound mouse e := by
  obtain ⟨s, hrun, -⟩ := (system mouse).run_decided (p := fun _ => True)
    (show ((system mouse).run {} promptAnswers).map _ = some true by decide +kernel)
  exact ⟨by decide +kernel, answers_matched mouse (by decide +kernel) hrun⟩

/-- The first answer comes after its timeout, and after the drain for the request
that asks the root feature for the next feature. -/
def lateAnswer : List Action :=
  [.query true, .drainEnd, .write true, .giveUp, .drainEnd, .write true,
    .answer (longReport [0x11, 0xff, 0x00, 0x0c, 6]), .read, .drainEnd, .write true,
    .answer (longReport [0x11, 0xff, 0x00, 0x0c, 0]), .answer (longReport [0x11, 0xff, 6, 0x0c, 15, 1]), .read, .read]

theorem answers_mismatched :
    (∃ s, (system mouse).run {} lateAnswer = some s) ∧
    (system mouse).trace events {} lateAnswer =
      [.accepted 1 (some 0), .found featureBatteryStatus 6, .accepted 2 (some 2),
        .decoded featureBatteryStatus 6 0x00] ∧
    ¬EventSound mouse (.accepted 1 (some 0)) ∧ ¬EventSound mouse (.found featureBatteryStatus 6) ∧
    ¬EventSound mouse (.decoded featureBatteryStatus 6 0x00) := by
  obtain ⟨s, hrun, -⟩ := (system mouse).run_decided (p := fun _ => True)
    (show ((system mouse).run {} lateAnswer).map _ = some true by decide +kernel)
  refine ⟨⟨s, hrun⟩, by decide +kernel, ?_, ?_, ?_⟩
  · exact fun h => absurd (show some 0 = some 1 from h) (by decide)
  · exact fun h => absurd (show (6 : UInt8) = mouse.features featureBatteryStatus from h) (by decide)
  · exact fun h => absurd (show (6 : UInt8) = mouse.features featureBatteryStatus from h.1) (by decide)

end SystemMonitor.Hidpp
