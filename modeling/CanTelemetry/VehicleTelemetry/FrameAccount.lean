import CanTelemetry.VehicleTelemetry.Ownership

/-! The account of one run. The worker calls its collaborators in turns: it receives, hands a
frame to the processor, counts the result, and tells the observer of the frame and of the
diagnostics. The counters are 64 bits wide, so they hold the number of results of each
kind up to a multiple of `2 ^ 64`. A fault ends the turns until a start() creates the
next worker. -/

namespace CanTelemetry.VehicleTelemetry

open Execution Threads VehicleCore

/-! ### The calls of the worker -/

/-- A call that the worker makes on a collaborator, with what goes in and what comes out. -/
inductive WorkerCall
  | receive (status : ReceiveStatus) (frame : RawCanFrame)
  | process (frame : RawCanFrame) (result : ProcessStatus)
  | onFrameProcessed (frame : RawCanFrame) (result : ProcessStatus)
  | onDiagnostics (snapshot : TransportDiagnostics)
  deriving DecidableEq

namespace WorkerCall

/-- The source or the processor reports a fault. -/
def faults : WorkerCall → Bool
  | .receive status _ => status = .fault || status = .notStarted
  | .process _ result => result = .fault
  | _ => false

/-- A call of receive() or of process(). -/
def acquires : WorkerCall → Bool
  | .receive _ _ | .process _ _ => true
  | _ => false

def result? : WorkerCall → Option ProcessStatus
  | .process _ result => some result
  | _ => none

end WorkerCall

/-- The results of the process() calls among them. -/
def results (calls : List WorkerCall) : List ProcessStatus := calls.filterMap WorkerCall.result?

@[simp] theorem results_nil : results [] = [] := rfl

@[simp] theorem results_append (calls calls' : List WorkerCall) :
    results (calls ++ calls') = results calls ++ results calls' := List.filterMap_append

/-- Where nothing is processed after a fault, one result at most is a fault. -/
theorem count_fault_le {calls : List WorkerCall}
    (last : calls.Pairwise fun c c' => c.faults = true → c'.acquires = false) :
    (results calls).count .fault ≤ 1 := by
  induction calls with
  | nil => exact Nat.zero_le 1
  | cons c calls ih =>
    obtain ⟨first, rest⟩ := List.pairwise_cons.mp last
    have others := ih rest
    cases c with
    | process frame result =>
      by_cases fault : result = .fault
      · have none : results calls = [] := by
          refine List.filterMap_eq_nil_iff.mpr fun c' mem => ?_
          have idle := first c' mem (by simp [WorkerCall.faults, fault])
          cases c' <;> first | rfl | cases idle
        show ((result :: results calls).count .fault) ≤ 1
        rw [none, fault]
        exact le_of_eq rfl
      · show ((result :: results calls).count .fault) ≤ 1
        rw [List.count_cons_of_ne fault]
        exact others
    | _ => exact others

/-- A turn of the loop that has run to its end. -/
inductive Turn
  | ofFrame (frame : RawCanFrame) (result : ProcessStatus) (snapshot : TransportDiagnostics)
  | quiet (status : ReceiveStatus) (noFrame : status ≠ .frame) (frame : RawCanFrame)
    (snapshot : TransportDiagnostics)

def Turn.calls : Turn → List WorkerCall
  | .ofFrame frame result snapshot => [.receive .frame frame, .process frame result,
    .onFrameProcessed frame result, .onDiagnostics snapshot]
  | .quiet status _ frame snapshot => [.receive status frame, .onDiagnostics snapshot]

/-- The beginning of a turn that is not over. -/
def Cut (rest : List WorkerCall) : Prop := ∃ turn : Turn, rest <+: turn.calls ∧ rest ≠ turn.calls

/-- What a turn leaves undone: nothing, or a receive() whose frame is dropped. -/
def Dropped (rest : List WorkerCall) : Prop :=
  rest = [] ∨ ∃ status frame, rest = [.receive status frame]

theorem cut_nil : Cut [] := ⟨.quiet .timeout (by simp) {} {}, List.nil_prefix, by simp [Turn.calls]⟩

/-! ### The counters -/

/-- The counters hold the number of results of each kind. -/
structure TransportDiagnostics.Tallies (d : TransportDiagnostics) (results : List ProcessStatus) :
    Prop where
  processed : d.framesProcessed = BitVec.ofNat 64 (results.count .processed)
  ignored : d.framesIgnored = BitVec.ofNat 64 (results.count .ignored)
  malformed : d.framesMalformed = BitVec.ofNat 64 (results.count .malformed)
  faults : d.processorFaults = BitVec.ofNat 64 (results.count .fault)

/-- No counter has decreased. -/
structure TransportDiagnostics.Below (d d' : TransportDiagnostics) : Prop where
  processed : d.framesProcessed ≤ d'.framesProcessed
  ignored : d.framesIgnored ≤ d'.framesIgnored
  malformed : d.framesMalformed ≤ d'.framesMalformed
  faults : d.processorFaults ≤ d'.processorFaults

structure TransportDiagnostics.SameCounts (d d' : TransportDiagnostics) : Prop where
  processed : d'.framesProcessed = d.framesProcessed
  ignored : d'.framesIgnored = d.framesIgnored
  malformed : d'.framesMalformed = d.framesMalformed
  faults : d'.processorFaults = d.processorFaults

/-- The counters and what is known of the last frame are the same. -/
structure TransportDiagnostics.SameRecord (d d' : TransportDiagnostics) : Prop
    extends SameCounts d d' where
  hasLastFrame : d'.hasLastFrame = d.hasLastFrame
  lastFrameUs : d'.lastFrameUs = d.lastFrameUs

/-- The frames that have gone through process(). -/
def TransportDiagnostics.handled (d : TransportDiagnostics) : BitVec 64 :=
  d.framesProcessed + d.framesIgnored + d.framesMalformed + d.processorFaults

namespace TransportDiagnostics

variable {d d' : TransportDiagnostics} {counted counted' : List ProcessStatus}

theorem SameRecord.refl (d : TransportDiagnostics) : d.SameRecord d :=
  ⟨⟨rfl, rfl, rfl, rfl⟩, rfl, rfl⟩

theorem Tallies.of_same (h : d.Tallies counted) (same : d.SameCounts d') : d'.Tallies counted :=
  ⟨same.processed.trans h.processed, same.ignored.trans h.ignored,
    same.malformed.trans h.malformed, same.faults.trans h.faults⟩

/-- Counting one more result. -/
theorem Tallies.count (h : d.Tallies counted) (result : ProcessStatus) :
    (d.count result).Tallies (counted ++ [result]) := by
  obtain ⟨processed, ignored, malformed, faults⟩ := h
  cases result <;>
    refine ⟨?_, ?_, ?_, ?_⟩ <;>
    simp [TransportDiagnostics.count, processed, ignored, malformed, faults, BitVec.ofNat_add]

theorem count_total (results : List ProcessStatus) :
    results.count .processed + results.count .ignored + results.count .malformed +
      results.count .fault = results.length := by
  induction results with
  | nil => rfl
  | cons result results ih =>
    rw [List.length_cons, ← ih]
    cases result <;> simp <;> omega

/-- The counters add up to the number of results. -/
theorem Tallies.handled (h : d.Tallies counted) :
    d.handled = BitVec.ofNat 64 counted.length := by
  rw [TransportDiagnostics.handled, h.processed, h.ignored, h.malformed, h.faults,
    ← BitVec.ofNat_add, ← BitVec.ofNat_add, ← BitVec.ofNat_add, count_total]

/-- Results that come later do not take a counter back, short of its wrap. -/
theorem Tallies.below (h : d.Tallies counted) (h' : d'.Tallies counted')
    (later : counted <+: counted') (fits : counted'.length < 2 ^ 64) : d.Below d' := by
  have ordered (result : ProcessStatus) : BitVec.ofNat 64 (counted.count result) ≤
      BitVec.ofNat 64 (counted'.count result) := by
    have grows := later.sublist.count_le result
    have bounded : counted'.count result ≤ counted'.length := List.count_le_length
    rw [BitVec.le_def, BitVec.toNat_ofNat, BitVec.toNat_ofNat, Nat.mod_eq_of_lt (by omega),
      Nat.mod_eq_of_lt (by omega)]
    exact grows
  refine ⟨?_, ?_, ?_, ?_⟩
  · rw [h.processed, h'.processed]
    exact ordered _
  · rw [h.ignored, h'.ignored]
    exact ordered _
  · rw [h.malformed, h'.malformed]
    exact ordered _
  · rw [h.faults, h'.faults]
    exact ordered _

end TransportDiagnostics

/-! ### Where the worker stands -/

/-- A pass that is past process() has a result if it has a frame. -/
def Pass.Complete (pass : Pass) : Prop :=
  pass.status = .frame ∧ (∃ result, pass.result = some result) ∨
    pass.status ≠ .frame ∧ pass.result = none

/-- The calls of a pass up to its update of the diagnostics. -/
def Pass.calls (pass : Pass) : List WorkerCall :=
  .receive pass.status pass.frame :: pass.result.toList.map (.process pass.frame)

namespace WorkerPc

/-- The call that returns at this step. -/
def calls (answers : Answers) : WorkerPc → List WorkerCall
  | .receive => [.receive answers.received answers.frame]
  | .process pass => [.process pass.frame answers.processed]
  | .onFrameProcessed pass _ => pass.result.toList.map (.onFrameProcessed pass.frame)
  | .onDiagnostics _ snapshot => [.onDiagnostics snapshot]
  | _ => []

/-- The result that this step counts. -/
def counts : WorkerPc → List ProcessStatus
  | .update pass _ _ => pass.result.toList
  | _ => []

/-- The result that is not counted yet. -/
def uncounted : WorkerPc → List ProcessStatus
  | .sample pass | .update pass _ _ => pass.result.toList
  | _ => []

/-- The calls of the turn in progress. -/
def made : WorkerPc → List WorkerCall
  | .sampleTime status frame => [.receive status frame]
  | .recheck pass | .process pass | .sample pass | .update pass _ _
  | .onFrameProcessed pass _ => pass.calls
  | .onDiagnostics pass _ => pass.calls ++ pass.result.toList.map (.onFrameProcessed pass.frame)
  | _ => []

/-- The worker has left the loop, perhaps between two calls of a turn. -/
def left : WorkerPc → Bool
  | .clearTask | .clearActive => true
  | _ => false

/-- What is known of the pass and of the snapshot. -/
def Sound (made : List WorkerCall) : WorkerPc → Prop
  | .recheck pass => pass.result = none
  | .process pass => pass.result = none ∧ pass.status = .frame
  | .sample pass | .update pass _ _ => pass.Complete
  | .onFrameProcessed pass snapshot =>
    pass.Complete ∧ pass.status = .frame ∧ snapshot.Tallies (results made)
  | .onDiagnostics pass snapshot => pass.Complete ∧ snapshot.Tallies (results made)
  | _ => True

/-- A fault has come back, and the worker is on its way out. -/
def Failing (sh : Shared) : WorkerPc → Prop
  | .loopTest => sh.stopRequested = true
  | .receive | .process _ => False
  | .sampleTime status _ => status = .fault ∨ status = .notStarted
  | .recheck pass => pass.status = .fault ∨ pass.status = .notStarted
  | .sample pass | .update pass _ _ | .onFrameProcessed pass _ | .onDiagnostics pass _ =>
    pass.faults = true
  | _ => True

end WorkerPc

theorem Pass.cut_calls {pass : Pass} (complete : pass.Complete) : Cut pass.calls := by
  rcases complete with ⟨status, result, some⟩ | ⟨status, none⟩
  · refine ⟨.ofFrame pass.frame result {}, ?_, ?_⟩
    · rw [calls, some, status]
      exact ⟨[.onFrameProcessed pass.frame result, .onDiagnostics {}], rfl⟩
    · simp [calls, some, Turn.calls]
  · refine ⟨.quiet pass.status status pass.frame {}, ?_, ?_⟩
    · rw [calls, none]
      exact ⟨[.onDiagnostics {}], rfl⟩
    · simp [calls, none, Turn.calls]

theorem cut_receive (status : ReceiveStatus) (frame : RawCanFrame) :
    Cut [.receive status frame] := by
  by_cases received : status = .frame
  · subst received
    refine ⟨.ofFrame frame .ignored {}, ?_, by simp [Turn.calls]⟩
    exact ⟨[.process frame .ignored, .onFrameProcessed frame .ignored, .onDiagnostics {}], rfl⟩
  · refine ⟨.quiet status received frame {}, ?_, by simp [Turn.calls]⟩
    exact ⟨[.onDiagnostics {}], rfl⟩

namespace WorkerPc

variable {platform : Platform} {answers : Answers} {sh sh' : Shared} {pc : WorkerPc}
  {before : List WorkerCall}

theorem Sound.cut (h : pc.Sound before) : Cut pc.made := by
  cases pc with
  | sampleTime status frame => exact cut_receive status frame
  | recheck pass =>
    have unprocessed : pass.result = none := h
    simp only [made, Pass.calls, unprocessed]
    exact cut_receive _ _
  | process pass =>
    simp only [made, Pass.calls, h.1]
    exact cut_receive _ _
  | sample pass => exact Pass.cut_calls h
  | update pass statistics now => exact Pass.cut_calls h
  | onFrameProcessed pass snapshot => exact Pass.cut_calls h.1
  | onDiagnostics pass snapshot =>
    rcases h.1 with ⟨status, result, some⟩ | ⟨status, none⟩
    · refine ⟨.ofFrame pass.frame result {}, ?_, ?_⟩
      · simp only [made, Pass.calls, some, status]
        exact ⟨[.onDiagnostics {}], rfl⟩
      · simp [made, Pass.calls, some, Turn.calls]
    · have same : made (.onDiagnostics pass snapshot) = pass.calls := by simp [made, none]
      rw [same]
      exact Pass.cut_calls h.1
  | _ => exact cut_nil

theorem made_of_left (h : pc.left = true) : pc.made = [] := by
  cases pc <;> first | rfl | cases h

/-- One step of the worker: the call that returns continues the turn or ends it. The worker leaves
the loop between two turns, or after a receive(). -/
theorem step_made (h : pc.Sound before) :
    ∀ pc' ∈ (pc.step platform answers sh).2.live,
      pc'.left = true ∧ pc.calls answers = [] ∧ (pc.left = false → Dropped pc.made) ∨
      pc.left = false ∧ pc'.made = pc.made ++ pc.calls answers ∨
      pc.left = false ∧ pc'.made = [] ∧
        ∃ turn : Turn, turn.calls = pc.made ++ pc.calls answers := by
  have leaves : (exit platform).left = true := by cases platform <;> rfl
  intro pc' live
  cases pc with
  | loopTest =>
    obtain rfl := List.mem_singleton.mp live
    split_ifs
    · exact .inl ⟨leaves, rfl, fun _ => .inl rfl⟩
    · exact .inr (.inl ⟨rfl, rfl⟩)
  | recheck pass =>
    obtain rfl := List.mem_singleton.mp live
    have unprocessed : pass.result = none := h
    split_ifs
    · refine .inl ⟨leaves, rfl, fun _ => .inr ⟨pass.status, pass.frame, ?_⟩⟩
      simp [made, Pass.calls, unprocessed]
    · exact .inr (.inl ⟨rfl, (List.append_nil _).symm⟩)
    · exact .inr (.inl ⟨rfl, (List.append_nil _).symm⟩)
  | process pass =>
    obtain rfl := List.mem_singleton.mp live
    refine .inr (.inl ⟨rfl, ?_⟩)
    simp only [made, Pass.calls, calls, h.1]
    rfl
  | sample pass =>
    obtain rfl := List.mem_singleton.mp live
    exact .inr (.inl ⟨rfl, (List.append_nil _).symm⟩)
  | update pass statistics now =>
    obtain rfl := List.mem_singleton.mp live
    refine .inr (.inl ⟨rfl, ?_⟩)
    rcases h with ⟨status, result, some⟩ | ⟨status, none⟩
    · rw [if_pos status]
      exact (List.append_nil _).symm
    · rw [if_neg status]
      simp [made, calls, none]
  | onDiagnostics pass snapshot =>
    obtain rfl := List.mem_singleton.mp live
    refine .inr (.inr ⟨rfl, by split_ifs <;> rfl, ?_⟩)
    rcases h.1 with ⟨status, result, some⟩ | ⟨status, none⟩
    · exact ⟨.ofFrame pass.frame result snapshot,
        by simp [made, Pass.calls, calls, some, status, Turn.calls]⟩
    · exact ⟨.quiet pass.status status pass.frame snapshot,
        by simp [made, Pass.calls, calls, none, Turn.calls]⟩
  | clearTask =>
    obtain rfl := List.mem_singleton.mp live
    exact .inl ⟨rfl, rfl, by simp [left]⟩
  | clearActive => simp [step] at live
  | _ =>
    obtain rfl := List.mem_singleton.mp live
    exact .inr (.inl ⟨rfl, rfl⟩)

/-- A fault that comes back puts the worker on its way out. -/
theorem failing_of_faults (h : pc.Sound before) (faults : ∃ c ∈ pc.calls answers, c.faults = true) :
    ∀ pc' ∈ (pc.step platform answers sh).2.live,
      pc'.Failing (pc.step platform answers sh).1 := by
  obtain ⟨c, made, fault⟩ := faults
  intro pc' live
  cases pc with
  | receive =>
    obtain rfl := List.mem_singleton.mp live
    obtain rfl := List.mem_singleton.mp made
    have back : answers.received = .fault ∨ answers.received = .notStarted := by
      simpa [WorkerCall.faults] using fault
    exact back
  | process pass =>
    obtain rfl := List.mem_singleton.mp live
    obtain rfl := List.mem_singleton.mp made
    simpa [WorkerCall.faults, Failing, Pass.faults, h.2] using fault
  | onFrameProcessed pass snapshot =>
    obtain ⟨result, -, rfl⟩ := List.mem_map.mp made
    cases fault
  | onDiagnostics pass snapshot =>
    obtain rfl := List.mem_singleton.mp made
    cases fault
  | _ => cases made

/-- On its way out the worker neither receives nor processes. -/
theorem Failing.calls (h : pc.Failing sh) : ∀ c ∈ pc.calls answers, c.acquires = false := by
  intro c made
  cases pc with
  | receive => exact absurd h id
  | process pass => exact absurd h id
  | onFrameProcessed pass snapshot =>
    obtain ⟨result, -, rfl⟩ := List.mem_map.mp made
    rfl
  | onDiagnostics pass snapshot =>
    obtain rfl := List.mem_singleton.mp made
    rfl
  | _ => cases made

theorem Failing.step (h : pc.Failing sh) :
    ∀ pc' ∈ (pc.step platform answers sh).2.live,
      pc'.Failing (pc.step platform answers sh).1 := by
  have leaves : (exit platform).Failing sh := by cases platform <;> trivial
  intro pc' live
  cases pc with
  | loopTest =>
    obtain rfl := List.mem_singleton.mp live
    have requested : sh.stopRequested = true := h
    rw [if_pos requested]
    exact leaves
  | receive => exact absurd h id
  | process pass => exact absurd h id
  | recheck pass =>
    obtain rfl := List.mem_singleton.mp live
    split_ifs with requested received
    · exact leaves
    · rcases h with fault | notStarted
      · cases received.symm.trans fault
      · cases received.symm.trans notStarted
    · rcases h with fault | notStarted
      · simp [Failing, Pass.faults, fault]
      · simp [Failing, Pass.faults, notStarted]
  | update pass statistics now =>
    obtain rfl := List.mem_singleton.mp live
    split_ifs
    · exact h
    · exact h
  | onDiagnostics pass snapshot =>
    obtain rfl := List.mem_singleton.mp live
    have faults : pass.faults = true := h
    rw [if_pos faults]
    trivial
  | sampleTime status frame =>
    obtain rfl := List.mem_singleton.mp live
    exact h
  | sample pass =>
    obtain rfl := List.mem_singleton.mp live
    exact h
  | onFrameProcessed pass snapshot =>
    obtain rfl := List.mem_singleton.mp live
    exact h
  | storeFaulted =>
    obtain rfl := List.mem_singleton.mp live
    trivial
  | requestStop =>
    obtain rfl := List.mem_singleton.mp live
    rfl
  | clearTask =>
    obtain rfl := List.mem_singleton.mp live
    trivial
  | clearActive => simp [WorkerPc.step] at live

theorem Failing.mono (h : pc.Failing sh)
    (requested : sh.stopRequested = true → sh'.stopRequested = true) : pc.Failing sh' := by
  cases pc <;> first | exact h | exact requested h

end WorkerPc

theorem Shared.updateSilence_record (sh : Shared) (now : MonotonicTimestamp) :
    sh.diagnostics.SameRecord (sh.updateSilenceDiagnosticLocked now).diagnostics := by
  unfold updateSilenceDiagnosticLocked
  split_ifs <;> exact ⟨⟨rfl, rfl, rfl, rfl⟩, rfl, rfl⟩

/-- An update counts the result of its pass. -/
theorem Shared.snapshotAndUpdate_tallies {sh : Shared} {counted : List ProcessStatus}
    (h : sh.diagnostics.Tallies counted) {pass : Pass} (complete : pass.Complete)
    (statistics : AcquisitionStatistics) (timeoutNow : MonotonicTimestamp) :
    (sh.snapshotAndUpdate pass statistics timeoutNow).diagnostics.Tallies
      (counted ++ pass.result.toList) := by
  obtain ⟨status, frame, time, result⟩ := pass
  rcases complete with ⟨rfl, result, rfl⟩ | ⟨noFrame, rfl⟩
  · have same : sh.diagnostics.SameCounts { sh.diagnostics with
        acquisition := statistics, transport := .live, hasLastFrame := true, lastFrameUs := time } :=
      ⟨rfl, rfl, rfl, rfl⟩
    exact (h.of_same same).count result
  · rw [Option.toList_none, List.append_nil]
    cases status with
    | frame => exact absurd rfl noFrame
    | timeout =>
      simp only [snapshotAndUpdate]
      split_ifs
      · have silence := updateSilence_record { sh with
          diagnostics := { sh.diagnostics with acquisition := statistics } } timeoutNow
        exact h.of_same ⟨silence.processed, silence.ignored, silence.malformed, silence.faults⟩
      · exact h.of_same ⟨rfl, rfl, rfl, rfl⟩
    | fault => exact h.of_same ⟨rfl, rfl, rfl, rfl⟩
    | notStarted => exact h.of_same ⟨rfl, rfl, rfl, rfl⟩

section Step

variable {platform : Platform} {answers : Answers} {sh sh' : Shared}
  {before : List WorkerCall} {counted : List ProcessStatus}

theorem WorkerPc.step_tallies {pc : WorkerPc} (h : pc.Sound before)
    (tallies : sh.diagnostics.Tallies counted) :
    (pc.step platform answers sh).1.diagnostics.Tallies (counted ++ pc.counts) := by
  cases pc with
  | update pass statistics now => exact Shared.snapshotAndUpdate_tallies tallies h statistics now
  | _ =>
    simp only [counts, List.append_nil]
    exact tallies

/-- A result comes in with process() and is counted by the update of its pass. -/
theorem WorkerPc.step_counts {pc : WorkerPc} (h : pc.Sound before) :
    pc.uncounted ++ results (pc.calls answers) =
      pc.counts ++ (pc.step platform answers sh).2.live.flatMap uncounted := by
  cases pc with
  | loopTest =>
    cases platform <;> cases requested : sh.stopRequested <;>
      simp [step, calls, counts, uncounted, exit, requested]
  | recheck pass =>
    have unprocessed : pass.result = none := h
    by_cases requested : sh.stopRequested = true
    · cases platform <;> simp [step, calls, counts, uncounted, exit, requested]
    · by_cases received : pass.status = .frame <;>
        simp [step, calls, counts, uncounted, requested, received, unprocessed]
  | process pass => simp [step, calls, counts, uncounted, results, WorkerCall.result?]
  | sample pass => simp [step, calls, counts, uncounted]
  | update pass statistics now =>
    by_cases received : pass.status = .frame <;>
      simp [step, calls, counts, uncounted, received]
  | onFrameProcessed pass snapshot =>
    cases result : pass.result <;>
      simp [step, calls, counts, uncounted, results, result, WorkerCall.result?]
  | onDiagnostics pass snapshot =>
    cases faults : pass.faults <;>
      simp [step, calls, counts, uncounted, results, faults, WorkerCall.result?]
  | _ => simp [step, calls, counts, uncounted, results, WorkerCall.result?]

/-- What is known of the pass goes on, and the update takes the snapshot. -/
theorem WorkerPc.step_sound {pc : WorkerPc} (h : pc.Sound before)
    (tallies : sh.diagnostics.Tallies counted)
    (pending : results before = counted ++ pc.uncounted) :
    ∀ pc' ∈ (pc.step platform answers sh).2.live, pc'.Sound (before ++ pc.calls answers) := by
  have leaves (made : List WorkerCall) : (exit platform).Sound made := by
    cases platform <;> trivial
  intro pc' live
  cases pc with
  | loopTest =>
    obtain rfl := List.mem_singleton.mp live
    split_ifs
    · exact leaves _
    · trivial
  | receive =>
    obtain rfl := List.mem_singleton.mp live
    trivial
  | sampleTime status frame =>
    obtain rfl := List.mem_singleton.mp live
    rfl
  | recheck pass =>
    obtain rfl := List.mem_singleton.mp live
    have unprocessed : pass.result = none := h
    split_ifs with requested received
    · exact leaves _
    · exact ⟨unprocessed, received⟩
    · exact .inr ⟨received, unprocessed⟩
  | process pass =>
    obtain rfl := List.mem_singleton.mp live
    exact .inl ⟨h.2, answers.processed, rfl⟩
  | sample pass =>
    obtain rfl := List.mem_singleton.mp live
    exact h
  | update pass statistics now =>
    obtain rfl := List.mem_singleton.mp live
    have taken := Shared.snapshotAndUpdate_tallies tallies h statistics now
    have all : results (before ++ calls answers (.update pass statistics now)) =
        counted ++ pass.result.toList := by
      rw [results_append, pending]
      simp [calls, uncounted]
    rw [← all] at taken
    split_ifs with received
    · exact ⟨h, received, taken⟩
    · exact ⟨h, taken⟩
  | onFrameProcessed pass snapshot =>
    obtain rfl := List.mem_singleton.mp live
    refine ⟨h.1, ?_⟩
    have same : results (before ++ calls answers (.onFrameProcessed pass snapshot)) =
        results before := by
      cases result : pass.result <;> simp [calls, results, result, WorkerCall.result?]
    rw [same]
    exact h.2.2
  | onDiagnostics pass snapshot =>
    obtain rfl := List.mem_singleton.mp live
    split_ifs
    · trivial
    · trivial
  | storeFaulted =>
    obtain rfl := List.mem_singleton.mp live
    trivial
  | requestStop =>
    obtain rfl := List.mem_singleton.mp live
    trivial
  | clearTask =>
    obtain rfl := List.mem_singleton.mp live
    trivial
  | clearActive => simp [step] at live

end Step

/-! ### What the operations do -/

/-- Only start() clears the counters, and only it takes a request to stop back. -/
structure CallPc.Spares (pc : CallPc) (sh sh' : Shared) : Prop where
  record : pc ≠ .start .resetDiagnostics → sh.diagnostics.SameRecord sh'.diagnostics
  requested : pc ≠ .start .clearStopRequested → sh.stopRequested = true → sh'.stopRequested = true

section Spares

variable {platform : Platform} {caller : Caller} {fresh : ℕ} {running : List ℕ}
  {answers : Answers} {sh sh' : Shared} {pc : CallPc}

theorem CallPc.Spares.of_quiet (diagnostics : sh'.diagnostics = sh.diagnostics)
    (requested : sh.stopRequested = true → sh'.stopRequested = true) : pc.Spares sh sh' :=
  ⟨fun _ => by rw [diagnostics]; exact .refl _, fun _ => requested⟩

theorem CallPc.Spares.of_cleans (cleans : sh.Cleans sh') : pc.Spares sh sh' :=
  .of_quiet cleans.diagnostics fun requested => cleans.stopRequested.trans requested

theorem ConcludePc.step_spares (pc : ConcludePc) (call : CallPc) :
    call.Spares sh (pc.step sh answers).1 := by
  cases pc with
  | store clean result => exact .of_quiet rfl id
  | diagnose clean result => exact ⟨fun _ => ⟨⟨rfl, rfl, rfl, rfl⟩, rfl, rfl⟩, fun _ => id⟩
  | release result => exact .of_quiet rfl id

theorem StartPc.step_spares {pc : StartPc} {control : Control StartPc ResultCode}
    (step : pc.step platform fresh answers sh = some (sh', control)) :
    (CallPc.start pc).Spares sh sh' := by
  cases pc with
  | enter =>
    simp only [StartPc.step] at step
    split_ifs at step <;> obtain ⟨rfl, -⟩ := Prod.mk.inj (Option.some.inj step) <;>
      exact .of_quiet rfl id
  | startSource =>
    simp only [StartPc.step] at step
    split_ifs at step <;> obtain ⟨rfl, -⟩ := Prod.mk.inj (Option.some.inj step) <;>
      exact .of_quiet rfl id
  | createWorker =>
    cases platform <;> simp only [StartPc.step] at step <;> split_ifs at step <;>
      obtain ⟨rfl, -⟩ := Prod.mk.inj (Option.some.inj step) <;> exact .of_quiet rfl id
  | assignWorker id =>
    simp only [StartPc.step] at step
    split_ifs at step
    obtain ⟨rfl, -⟩ := Prod.mk.inj (Option.some.inj step)
    exact .of_quiet rfl fun requested => requested
  | diagnoseRefused result =>
    obtain ⟨rfl, -⟩ := Prod.mk.inj (Option.some.inj step)
    exact ⟨fun _ => ⟨⟨rfl, rfl, rfl, rfl⟩, rfl, rfl⟩, fun _ => id⟩
  | partialCleanup pc result =>
    obtain ⟨rfl, -⟩ := Prod.mk.inj (Option.some.inj step)
    exact .of_cleans (pc.stepPartialStart_cleans sh answers.result)
  | sourceStop pc =>
    obtain ⟨rfl, -⟩ := Prod.mk.inj (Option.some.inj step)
    exact .of_cleans (pc.stepSourceStop_cleans sh answers.result)
  | clearStopRequested =>
    obtain ⟨rfl, -⟩ := Prod.mk.inj (Option.some.inj step)
    exact ⟨fun _ => .refl _, fun kept => absurd rfl kept⟩
  | resetDiagnostics =>
    obtain ⟨rfl, -⟩ := Prod.mk.inj (Option.some.inj step)
    exact ⟨fun kept => absurd rfl kept, fun _ => id⟩
  | requestStop =>
    obtain ⟨rfl, -⟩ := Prod.mk.inj (Option.some.inj step)
    exact .of_quiet rfl fun _ => rfl
  | conclude pc =>
    obtain ⟨rfl, -⟩ := Prod.mk.inj (Option.some.inj step)
    exact pc.step_spares _
  | _ =>
    obtain ⟨rfl, -⟩ := Prod.mk.inj (Option.some.inj step)
    exact .of_quiet rfl id

theorem StopPc.step_spares {pc : StopPc} {control : Control StopPc ResultCode}
    (step : pc.step platform caller running answers sh = some (sh', control)) :
    (CallPc.stop pc).Spares sh sh' := by
  cases pc with
  | enter =>
    simp only [StopPc.step] at step
    split_ifs at step <;> obtain ⟨rfl, -⟩ := Prod.mk.inj (Option.some.inj step) <;>
      exact .of_quiet rfl id
  | diagnosePartial =>
    obtain ⟨rfl, -⟩ := Prod.mk.inj (Option.some.inj step)
    exact ⟨fun _ => ⟨⟨rfl, rfl, rfl, rfl⟩, rfl, rfl⟩, fun _ => id⟩
  | diagnoseStopping =>
    obtain ⟨rfl, -⟩ := Prod.mk.inj (Option.some.inj step)
    exact ⟨fun _ => ⟨⟨rfl, rfl, rfl, rfl⟩, rfl, rfl⟩, fun _ => id⟩
  | partialCleanup pc =>
    obtain ⟨rfl, -⟩ := Prod.mk.inj (Option.some.inj step)
    exact .of_cleans (pc.stepPartialStart_cleans sh answers.result)
  | sourceStop pc =>
    obtain ⟨rfl, -⟩ := Prod.mk.inj (Option.some.inj step)
    exact .of_cleans (pc.stepSourceStop_cleans sh answers.result)
  | requestStop =>
    obtain ⟨rfl, -⟩ := Prod.mk.inj (Option.some.inj step)
    exact .of_quiet rfl fun _ => rfl
  | join result =>
    obtain ⟨joined, join, same⟩ := Option.map_eq_some_iff.mp step
    obtain ⟨rfl, -⟩ := Prod.mk.inj same
    obtain ⟨rfl, -⟩ := Shared.join_eq_some join
    exact .of_quiet rfl id
  | conclude pc =>
    obtain ⟨rfl, -⟩ := Prod.mk.inj (Option.some.inj step)
    exact pc.step_spares _
  | _ =>
    obtain ⟨rfl, -⟩ := Prod.mk.inj (Option.some.inj step)
    exact .of_quiet rfl id

theorem CallPc.step_spares {control : Control CallPc (Option ResultCode)}
    (step : pc.step platform caller fresh running answers sh = some (sh', control)) :
    pc.Spares sh sh' := by
  cases pc with
  | configure config =>
    have outcome := Option.some.inj step
    split_ifs at outcome <;> obtain ⟨rfl, -⟩ := Prod.mk.inj outcome <;> exact .of_quiet rfl id
  | start pc =>
    obtain ⟨⟨shared, inner⟩, inside, same⟩ := Option.map_eq_some_iff.mp step
    obtain ⟨rfl, -⟩ := Prod.mk.inj same
    exact StartPc.step_spares inside
  | stop pc =>
    obtain ⟨⟨shared, inner⟩, inside, same⟩ := Option.map_eq_some_iff.mp step
    obtain ⟨rfl, -⟩ := Prod.mk.inj same
    exact StopPc.step_spares inside
  | destroy pc =>
    obtain ⟨⟨shared, inner⟩, inside, same⟩ := Option.map_eq_some_iff.mp step
    obtain ⟨rfl, -⟩ := Prod.mk.inj same
    cases DestroyPc.step_does inside with
    | nothing => exact .of_quiet rfl id
    | requests => exact .of_quiet rfl fun _ => rfl
    | cleans sh' cleans unowned => exact .of_cleans cleans
    | joins host finished => exact .of_quiet rfl id

end Spares

/-! ### The account along a run -/

theorem WorkerPc.calls_cases (pc : WorkerPc) (answers : Answers) :
    pc.calls answers = [] ∨ ∃ c, pc.calls answers = [c] := by
  cases pc with
  | onFrameProcessed pass snapshot => cases result : pass.result <;> simp [calls, result]
  | _ => simp [calls]

/-- The snapshot that goes to the observer. -/
theorem WorkerPc.Sound.snapshot {pc : WorkerPc} {made : List WorkerCall} {answers : Answers}
    {d : TransportDiagnostics} (h : pc.Sound made) (tells : pc.calls answers = [.onDiagnostics d]) :
    d.Tallies (results made) := by
  cases pc with
  | onDiagnostics pass snapshot =>
    obtain rfl := WorkerCall.onDiagnostics.inj (List.head_eq_of_cons_eq tells)
    exact h.2
  | onFrameProcessed pass snapshot => cases result : pass.result <;> simp [calls, result] at tells
  | _ => simp [calls] at tells

/-- Only a start() that has cleared the diagnostics goes on to create a worker. -/
theorem StartPc.step_fresh {platform : Platform} {fresh : ℕ} {answers : Answers} {sh sh' : Shared}
    {pc pc' : StartPc} (step : pc.step platform fresh answers sh = some (sh', .next pc')) :
    (pc' = .storeRunning → pc = .resetDiagnostics) ∧
      (pc' = .createWorker → pc = .storeRunning) := by
  cases pc with
  | resetDiagnostics =>
    obtain rfl := Control.next.inj (Prod.mk.inj (Option.some.inj step)).2
    exact ⟨fun _ => rfl, by simp⟩
  | storeRunning =>
    obtain rfl := Control.next.inj (Prod.mk.inj (Option.some.inj step)).2
    exact ⟨by simp, fun _ => rfl⟩
  | enter =>
    simp only [StartPc.step] at step
    split_ifs at step <;> simp at step
    obtain ⟨-, rfl⟩ := step
    simp
  | startSource =>
    simp only [StartPc.step] at step
    split_ifs at step <;> simp at step <;> obtain ⟨-, rfl⟩ := step <;> simp
  | createWorker =>
    cases platform <;> simp only [StartPc.step] at step <;> split_ifs at step <;>
      simp at step <;> obtain ⟨-, rfl⟩ := step <;> simp
  | assignWorker id =>
    simp only [StartPc.step] at step
    split_ifs at step
    simp at step
    obtain ⟨-, rfl⟩ := step
    simp
  | partialCleanup pc result =>
    have same := (Prod.mk.inj (Option.some.inj step)).2
    generalize (pc.stepPartialStart sh answers.result).2 = control at same
    cases control <;> obtain rfl := Control.next.inj same <;> simp
  | sourceStop pc =>
    have same := (Prod.mk.inj (Option.some.inj step)).2
    generalize (pc.stepSourceStop sh answers.result).2 = control at same
    cases control <;> obtain rfl := Control.next.inj same <;> simp
  | conclude pc =>
    have same := (Prod.mk.inj (Option.some.inj step)).2
    generalize (pc.step sh answers).2 = control at same
    cases control with
    | next pc =>
      obtain rfl := Control.next.inj same
      simp
    | ret result => cases same
  | _ =>
    obtain rfl := Control.next.inj (Prod.mk.inj (Option.some.inj step)).2
    simp

namespace System

variable {platform : Platform} {s t u first : System} {k : Choice} {ks ls : List Choice}
  {made : List WorkerCall} {counted : List ProcessStatus}

/-- The call of the worker that returns at a step. -/
def workerCalls (s : System) : Choice → List WorkerCall
  | .worker i answers => (s.workers[i]?.map fun w => w.2.calls answers).getD []
  | _ => []

/-- The result that a step counts. -/
def counts (s : System) : Choice → List ProcessStatus
  | .worker i _ => (s.workers[i]?.map fun w => w.2.counts).getD []
  | _ => []

/-- A start() clears the diagnostics. -/
def resets (s : System) : Choice → Bool
  | .call i _ => s.calls[i]?.any fun p => p.2 = .start .resetDiagnostics
  | _ => false

/-- No other start() gets so far as to clear them. -/
def unreset (s : System) (k : Choice) : Bool := !s.resets k

/-- No start() creates a worker. -/
def uncreated (s : System) : Choice → Bool
  | .call i answers => s.calls[i]?.all fun p => (p.2.spawned s.created answers).isEmpty
  | _ => true

/-- The calls made since the diagnostics were cleared, and what is counted of them. -/
structure Accounting (s : System) (made : List WorkerCall) (counted : List ProcessStatus) :
    Prop where
  turns : ∃ (turns : List Turn) (rest : List WorkerCall), made = turns.flatMap Turn.calls ++ rest ∧
    Cut rest ∧ (∀ w ∈ s.workers, w.2.left = false → rest = w.2.made) ∧
    ((∀ w ∈ s.workers, w.2.left = true) → Dropped rest)
  snapshots : ∀ before d after, made = before ++ .onDiagnostics d :: after →
    d.Tallies (results before)
  last : made.Pairwise fun c c' => c.faults = true → c'.acquires = false
  failing : (∃ c ∈ made, c.faults = true) → ∀ w ∈ s.workers, w.2.Failing s.shared
  sound : ∀ w ∈ s.workers, w.2.Sound made
  tallies : s.shared.diagnostics.Tallies counted
  pending : results made = counted ++ s.workers.flatMap (·.2.uncounted)
  fresh : ∀ caller pc, (caller, .start pc) ∈ s.calls → pc = .storeRunning ∨ pc = .createWorker →
    made = []

namespace Accounting

theorem worker (h : s.Accounting made counted) (governed : s.Governed platform) {i : ℕ}
    {answers : Answers} (step : s.next platform (.worker i answers) = some t) :
    t.Accounting (made ++ s.workerCalls (.worker i answers))
      (counted ++ s.counts (.worker i answers)) := by
  obtain ⟨id, pc, found, -, rfl⟩ := next_worker step
  obtain ⟨only, resumed⟩ := governed.worker_alone found
  have member := List.mem_of_getElem? found
  have sound := h.sound _ member
  have pending : results made = counted ++ pc.uncounted := by
    rw [h.pending, only]
    simp
  have live (w : ℕ × WorkerPc)
      (mem : w ∈ resume s.workers i ((pc.step platform answers s.shared).2.call (id, ·) .ret)) :
      w.2 ∈ (pc.step platform answers s.shared).2.live := by
    rw [resumed] at mem
    cases control : (pc.step platform answers s.shared).2 with
    | next pc' =>
      rw [control] at mem
      obtain rfl := List.mem_singleton.mp mem
      simp
    | ret value =>
      rw [control] at mem
      cases mem
  simp only [workerCalls, counts, found, Option.map_some, Option.getD_some]
  have failing (fault : ∃ c ∈ made, c.faults = true) : pc.Failing s.shared :=
    h.failing fault _ member
  refine ⟨?_, ?_, ?_, ?_, ?_, ?_, ?_, ?_⟩
  · obtain ⟨turns, rest, same, cut, own, dropped⟩ := h.turns
    have ended (leaves : pc.left = true) : Dropped rest := by
      refine dropped fun w mem => ?_
      rw [only] at mem
      obtain rfl := List.mem_singleton.mp mem
      exact leaves
    cases control : (pc.step platform answers s.shared).2 with
    | ret value =>
      have last : pc = .clearActive := by
        cases pc <;> first | rfl | cases control
      subst last
      refine ⟨turns, rest, by rw [same]; exact List.append_nil _, cut, ?_, fun _ => ended rfl⟩
      rw [resumed]
      simp
    | next pc' =>
      have goes : pc' ∈ (pc.step platform answers s.shared).2.live := by simp [control]
      have cut' := (WorkerPc.step_sound sound h.tallies pending pc' goes).cut
      have alone (w : ℕ × WorkerPc) (mem : w ∈ resume s.workers i
          ((Control.next pc' : Control WorkerPc Unit).call (id, ·) .ret)) : w.2 = pc' := by
        rw [resumed] at mem
        obtain rfl := List.mem_singleton.mp mem
        rfl
      have idle (leaves : ∀ w ∈ resume s.workers i
          ((Control.next pc' : Control WorkerPc Unit).call (id, ·) .ret), w.2.left = true) :
          Dropped pc'.made := by
        refine .inl (WorkerPc.made_of_left (leaves (id, pc') ?_))
        rw [resumed]
        exact List.mem_singleton_self _
      rcases WorkerPc.step_made sound pc' goes with
        ⟨leaves, none, leaving⟩ | ⟨inside, more⟩ | ⟨inside, over', turn, whole⟩
      · refine ⟨turns, rest, by rw [none, List.append_nil]; exact same, cut, ?_, fun _ => ?_⟩
        · intro w mem stays
          rw [alone w mem] at stays
          cases leaves.symm.trans stays
        · cases inside : pc.left with
          | true => exact ended inside
          | false =>
            rw [own _ member inside]
            exact leaving inside
      · refine ⟨turns, pc'.made, ?_, cut', fun w mem _ => by rw [alone w mem], idle⟩
        rw [same, own _ member inside, more, List.append_assoc]
      · refine ⟨turns ++ [turn], pc'.made, ?_, cut', fun w mem _ => by rw [alone w mem], idle⟩
        rw [same, own _ member inside, over', List.append_nil, List.flatMap_append,
          List.flatMap_singleton, whole, List.append_assoc]
  · intro before d after split
    rcases pc.calls_cases answers with none | ⟨c, one⟩
    · rw [none, List.append_nil] at split
      exact h.snapshots before d after split
    · rw [one] at split
      rcases split_concat split with ⟨after', -, earlier⟩ | ⟨-, rfl, rfl⟩
      · exact h.snapshots before d after' earlier
      · exact sound.snapshot one
  · refine List.pairwise_append.mpr ⟨h.last, ?_, ?_⟩
    · rcases pc.calls_cases answers with none | ⟨c, one⟩
      · rw [none]
        exact .nil
      · rw [one]
        exact List.pairwise_singleton _ _
    · intro c old c' new fault
      exact (failing ⟨c, old, fault⟩).calls c' new
  · rintro ⟨c, mem, fault⟩ w alive
    rcases List.mem_append.mp mem with old | new
    · exact (failing ⟨c, old, fault⟩).step w.2 (live w alive)
    · exact WorkerPc.failing_of_faults sound ⟨c, new, fault⟩ w.2 (live w alive)
  · intro w alive
    exact WorkerPc.step_sound sound h.tallies pending w.2 (live w alive)
  · exact WorkerPc.step_tallies sound h.tallies
  · rw [results_append, pending, List.append_assoc, WorkerPc.step_counts sound, List.append_assoc,
      resumed]
    cases (pc.step platform answers s.shared).2 <;> rfl
  · intro caller pc' mem stage
    have none : s.workers = [] := by
      rcases stage with rfl | rfl
      · exact (governed.fact mem rfl (by simp)).2.1.none_alive
      · exact (governed.fact mem rfl (by simp)).2.1.none_alive
    cases only.symm.trans none

/-- Steps that make no call of a worker and clear no counter. -/
theorem of_same (h : s.Accounting made counted) (workers : t.workers = s.workers)
    (record : s.shared.diagnostics.SameRecord t.shared.diagnostics)
    (requested : s.workers ≠ [] → s.shared.stopRequested = true → t.shared.stopRequested = true)
    (fresh : ∀ caller pc, (caller, .start pc) ∈ t.calls → pc = .storeRunning ∨ pc = .createWorker →
      made = []) : t.Accounting made counted := by
  refine ⟨?_, h.snapshots, h.last, ?_, ?_, h.tallies.of_same record.toSameCounts, ?_, fresh⟩
  · rw [workers]
    exact h.turns
  · intro fault w mem
    rw [workers] at mem
    exact (h.failing fault w mem).mono (requested (List.ne_nil_of_mem mem))
  · rw [workers]
    exact h.sound
  · rw [workers]
    exact h.pending

theorem call (h : s.Accounting made counted) (governed : s.Governed platform) {i : ℕ}
    {answers : Answers} (kept : s.unreset (.call i answers) = true)
    (step : s.next platform (.call i answers) = some t) : t.Accounting made counted := by
  obtain ⟨caller, pc, shared, control, found, inside, rfl⟩ := next_call step
  have member := List.mem_of_getElem? found
  have unreset : pc ≠ .start .resetDiagnostics := by
    simpa [System.unreset, resets, found] using kept
  have spares := CallPc.step_spares inside
  have fresh : ∀ other pc', (other, CallPc.start pc') ∈ resume s.calls i
      (control.call (caller, ·) .ret) → pc' = .storeRunning ∨ pc' = .createWorker → made = [] := by
    intro other pc' mem stage
    rcases mem_of_mem_resume found mem with old | own
    · exact h.fresh other pc' old stage
    · cases control with
      | ret result => cases own
      | next after =>
        obtain ⟨rfl, rfl⟩ := Prod.mk.inj (List.mem_singleton.mp own)
        cases pc with
        | start pc =>
          obtain ⟨⟨sh, inner⟩, steps, same⟩ := Option.map_eq_some_iff.mp inside
          have goes := (Prod.mk.inj same).2
          cases inner with
          | ret result => cases goes
          | next inner =>
            obtain rfl := CallPc.start.inj (Control.next.inj goes)
            obtain ⟨stores, creates⟩ := StartPc.step_fresh steps
            rcases stage with rfl | rfl
            · exact absurd (congrArg CallPc.start (stores rfl)) unreset
            · obtain rfl := creates rfl
              exact h.fresh other .storeRunning member (.inl rfl)
        | configure config =>
          have outcome := Option.some.inj inside
          split_ifs at outcome <;> cases (Prod.mk.inj outcome).2
        | stop pc =>
          obtain ⟨⟨sh, inner⟩, -, same⟩ := Option.map_eq_some_iff.mp inside
          have goes := (Prod.mk.inj same).2
          cases inner <;> cases goes
        | destroy pc =>
          obtain ⟨⟨sh, inner⟩, -, same⟩ := Option.map_eq_some_iff.mp inside
          have goes := (Prod.mk.inj same).2
          cases inner <;> cases goes
  have requested : s.workers ≠ [] → s.shared.stopRequested = true →
      shared.stopRequested = true := by
    intro alive
    refine spares.requested ?_
    rintro rfl
    exact alive (governed.fact member rfl (by simp)).2.1.none_alive
  have same : System.Accounting { s with
      shared := shared
      calls := resume s.calls i (control.call (caller, ·) .ret) } made counted :=
    h.of_same rfl (spares.record unreset) requested fresh
  by_cases creates : pc = .start .createWorker
  · subst creates
    have nothing := h.fresh caller .createWorker member (.inr rfl)
    subst nothing
    have counted_nil : counted = [] ∧ s.workers.flatMap (·.2.uncounted) = [] :=
      List.append_eq_nil_iff.mp h.pending.symm
    have started (w : ℕ × WorkerPc)
        (mem : w ∈ s.workers ++ (CallPc.start .createWorker).spawned s.created answers) :
        w ∈ s.workers ∨ w.2 = .loopTest :=
      (List.mem_append.mp mem).imp_right CallPc.loopTest_of_spawned
    refine ⟨⟨[], [], rfl, cut_nil, ?_, fun _ => .inl rfl⟩, same.snapshots, same.last, by simp, ?_,
      same.tallies, ?_, fresh⟩
    · intro w mem stays
      rcases started w mem with old | new
      · obtain ⟨turns, rest, split, cut, own, -⟩ := h.turns
        rw [← own w old stays]
        exact (List.append_eq_nil_iff.mp split.symm).2.symm
      · rw [new]
        rfl
    · intro w mem
      rcases started w mem with old | new
      · exact h.sound w old
      · rw [new]
        trivial
    · rw [counted_nil.1, List.flatMap_append, counted_nil.2]
      unfold CallPc.spawned
      cases answers.created <;> rfl
  · rw [CallPc.spawned_eq_nil s.created answers creates, List.append_nil]
    exact same

/-- One step of the runtime or of its callers. -/
theorem next (h : s.Accounting made counted) (governed : s.Governed platform)
    (kept : s.unreset k = true) (step : s.next platform k = some t) :
    t.Accounting (made ++ s.workerCalls k) (counted ++ s.counts k) := by
  have quiet (same : t.Accounting made counted) : t.Accounting (made ++ []) (counted ++ []) := by
    rw [List.append_nil, List.append_nil]
    exact same
  cases k with
  | worker i answers => exact h.worker governed step
  | call i answers => exact quiet (h.call governed kept step)
  | begin caller operation =>
    obtain ⟨-, rfl⟩ := next_begin step
    refine quiet (h.of_same rfl (.refl _) (fun _ => id) ?_)
    intro other pc mem stage
    rcases List.mem_append.mp mem with old | new
    · exact h.fresh other pc old stage
    · obtain ⟨-, own⟩ := Prod.mk.inj (List.mem_singleton.mp new)
      cases operation <;> cases own
      rcases stage with absurd | absurd <;> cases absurd
  | beginDestroy caller =>
    obtain ⟨-, -, -, rfl⟩ := next_beginDestroy step
    refine quiet (h.of_same rfl (.refl _) (fun _ => id) ?_)
    intro other pc mem
    cases List.mem_singleton.mp mem
  | beginDiagnostics caller =>
    obtain ⟨-, rfl⟩ := next_beginDiagnostics step
    exact quiet (h.of_same rfl (.refl _) (fun _ => id) h.fresh)
  | reader i answers =>
    obtain ⟨caller, pc, found, rfl⟩ := next_reader step
    refine quiet (h.of_same rfl ?_ ?_ h.fresh)
    · cases pc with
      | sample => exact .refl _
      | evaluate now => exact s.shared.updateSilence_record now
    · obtain ⟨d, published⟩ := pc.step_published answers s.shared
      intro _ requested
      show (pc.step answers s.shared).1.stopRequested = true
      rw [published]
      exact requested

end Accounting

/-- A start() that clears the diagnostics finds no worker. -/
theorem Governed.accounting (h : s.Governed platform) (reset : s.resets k = true)
    (step : s.next platform k = some t) : t.Accounting [] [] := by
  cases k with
  | call i answers =>
    obtain ⟨caller, pc, shared, control, found, inside, rfl⟩ := next_call step
    obtain rfl : pc = .start .resetDiagnostics := by simpa [resets, found] using reset
    have none := (h.fact (List.mem_of_getElem? found) rfl (by simp)).2.1.none_alive
    obtain ⟨rfl, -⟩ := Prod.mk.inj (Option.some.inj inside)
    have idle : s.workers ++ (CallPc.start .resetDiagnostics).spawned s.created answers = [] := by
      rw [none]
      rfl
    refine ⟨⟨[], [], rfl, cut_nil, ?_, fun _ => .inl rfl⟩, by simp, .nil, by simp, ?_,
      ⟨rfl, rfl, rfl, rfl⟩, ?_, fun _ _ _ _ => rfl⟩
    · simp [idle]
    · simp [idle]
    · simp [idle]
  | _ => cases reset

/-- The run that a start() begins by clearing the diagnostics. -/
theorem exec_accounting (governed : first.Governed platform) (start : first.Accounting [] [])
    (run : exec (guarded unreset (next platform)) first ls = some t) :
    t.Governed platform ∧ t.Accounting
      (trace (guarded unreset (next platform)) workerCalls first ls)
      (trace (guarded unreset (next platform)) counts first ls) := by
  refine exec_history (P := fun ls t => t.Governed platform ∧
    t.Accounting (trace (guarded unreset (next platform)) workerCalls first ls)
      (trace (guarded unreset (next platform)) counts first ls)) ⟨governed, start⟩ ?_ run
  intro ls t k u run h step
  obtain ⟨kept, step⟩ := guarded_eq_some.mp step
  rw [trace_concat run k, trace_concat run k]
  exact ⟨h.1.next step, h.2.next h.1 kept step⟩

/-- Every worker that is left is on its way out after a fault. -/
def Failed (s : System) : Prop := ∀ w ∈ s.workers, w.2.Failing s.shared

theorem Failed.next (h : s.Failed) (governed : s.Governed platform) (kept : s.uncreated k = true)
    (step : s.next platform k = some t) :
    t.Failed ∧ ∀ c ∈ s.workerCalls k, c.acquires = false := by
  cases k with
  | worker i answers =>
    obtain ⟨id, pc, found, -, rfl⟩ := next_worker step
    obtain ⟨-, resumed⟩ := governed.worker_alone found
    have failing : pc.Failing s.shared := h _ (List.mem_of_getElem? found)
    refine ⟨?_, ?_⟩
    · have goes : ∀ pc' ∈ (pc.step platform answers s.shared).2.live,
          pc'.Failing (pc.step platform answers s.shared).1 := failing.step
      intro w mem
      simp only [resumed] at mem
      generalize (pc.step platform answers s.shared).2 = control at mem goes
      cases control with
      | next pc' =>
        obtain rfl := List.mem_singleton.mp mem
        exact goes pc' (by simp)
      | ret value => cases mem
    · simp only [workerCalls, found, Option.map_some, Option.getD_some]
      exact failing.calls
  | call i answers =>
    obtain ⟨caller, pc, shared, control, found, inside, rfl⟩ := next_call step
    have nobody : pc.spawned s.created answers = [] := by simpa [uncreated, found] using kept
    refine ⟨?_, by simp [workerCalls]⟩
    intro w mem
    rw [nobody, List.append_nil] at mem
    refine (h w mem).mono ((CallPc.step_spares inside).requested ?_)
    rintro rfl
    have none := (governed.fact (List.mem_of_getElem? found) rfl (by simp)).2.1.none_alive
    rw [none] at mem
    cases mem
  | begin caller operation =>
    obtain ⟨-, rfl⟩ := next_begin step
    exact ⟨h, by simp [workerCalls]⟩
  | beginDestroy caller =>
    obtain ⟨-, -, -, rfl⟩ := next_beginDestroy step
    exact ⟨h, by simp [workerCalls]⟩
  | beginDiagnostics caller =>
    obtain ⟨-, rfl⟩ := next_beginDiagnostics step
    exact ⟨h, by simp [workerCalls]⟩
  | reader i answers =>
    obtain ⟨caller, pc, found, rfl⟩ := next_reader step
    obtain ⟨d, published⟩ := pc.step_published answers s.shared
    refine ⟨?_, by simp [workerCalls]⟩
    intro w mem
    refine (h w mem).mono ?_
    show s.shared.stopRequested = true → (pc.step answers s.shared).1.stopRequested = true
    rw [published]
    exact id

theorem exec_failed (governed : s.Governed platform) (h : s.Failed)
    (run : exec (guarded uncreated (next platform)) s ks = some t) :
    ∀ c ∈ trace (guarded uncreated (next platform)) workerCalls s ks, c.acquires = false := by
  induction ks generalizing s with
  | nil => simp [trace]
  | cons k ks ih =>
    obtain ⟨u, first, rest⟩ := exec_cons_eq_some.mp run
    obtain ⟨kept, step⟩ := guarded_eq_some.mp first
    obtain ⟨failed, idle⟩ := h.next governed kept step
    rw [trace_cons first]
    intro c mem
    rcases List.mem_append.mp mem with now | later
    · exact idle c now
    · exact ih (governed.next step) failed rest c later

/-- From a start() that clears the diagnostics until the next one that does: the calls of the
worker are turns and what a worker in the loop has made of the next one, and a worker that
leaves drops no more than what it has received; every snapshot for the observer counts all
results so far, up to `2 ^ 64`, and no counter decreases before that many; one fault at most
is counted, and after a fault there is neither receive() nor process() until a start() creates
the next worker. -/
theorem frames_accounted (before : exec (next platform) {} ks = some s)
    (reset : s.resets k = true) (step : s.next platform k = some first)
    (run : exec (guarded unreset (next platform)) first ls = some t) :
    let calls := trace (guarded unreset (next platform)) workerCalls first ls
    first.shared.diagnostics.Tallies [] ∧
      (∃ (turns : List Turn) (rest : List WorkerCall),
        calls = turns.flatMap Turn.calls ++ rest ∧ Cut rest ∧
          (∀ w ∈ t.workers, w.2.left = false → rest = w.2.made) ∧
          ((∀ w ∈ t.workers, w.2.left = true) → Dropped rest)) ∧
      (∀ before d after, calls = before ++ .onDiagnostics d :: after →
        d.Tallies (results before) ∧ d.handled = BitVec.ofNat 64 (results before).length ∧
          d.processorFaults ≤ 1) ∧
      (∀ ms u, exec (guarded unreset (next platform)) t ms = some u →
        (results (trace (guarded unreset (next platform)) workerCalls first (ls ++ ms))).length <
          2 ^ 64 → t.shared.diagnostics.Below u.shared.diagnostics) ∧
      (calls.Pairwise fun c c' => c.faults = true → c'.acquires = false) ∧
      ((∃ c ∈ calls, c.faults = true) →
        ∀ ms u, exec (guarded uncreated (next platform)) t ms = some u →
          ∀ c ∈ trace (guarded uncreated (next platform)) workerCalls t ms, c.acquires = false) := by
  intro calls
  have governed := exec_governed before
  have start := governed.accounting reset step
  obtain ⟨governed', account⟩ := exec_accounting (governed.next step) start run
  refine ⟨start.tallies, account.turns, ?_, ?_, account.last, ?_⟩
  · intro before d after split
    have tallies := account.snapshots before d after split
    refine ⟨tallies, tallies.handled, ?_⟩
    have sub : before.Sublist calls := by
      rw [split]
      exact List.sublist_append_left _ _
    have few := count_fault_le (account.last.sublist sub)
    rw [tallies.faults, BitVec.le_def, BitVec.toNat_ofNat, Nat.mod_eq_of_lt (by omega)]
    exact few
  · intro ms u later fits
    obtain ⟨-, account'⟩ := exec_accounting (governed.next step) start (exec_trans run later)
    have more : trace (guarded unreset (next platform)) counts first ls <+:
        trace (guarded unreset (next platform)) counts first (ls ++ ms) := by
      rw [trace_append run]
      exact List.prefix_append _ _
    refine account.tallies.below account'.tallies more (lt_of_le_of_lt ?_ fits)
    rw [account'.pending, List.length_append]
    exact Nat.le_add_right _ _
  · intro fault ms u later
    exact exec_failed governed' (account.failing fault) later

/-- A start() up to the clearing of the diagnostics. -/
def clearingRun : List Choice := .begin none .start :: List.replicate 6 (.call 0 {})

/-- The worker is created and takes one turn. -/
def turnRun (received : ReceiveStatus) (result : ProcessStatus) : List Choice :=
  List.replicate 9 (.worker 0 { received := received, processed := result })

def clearing : System := final (next .host) {} clearingRun

def cleared : System := final (next .host) clearing [.call 0 {}]

/-- A frame is processed; on the next one the processor fails. -/
def failingRun : List Choice :=
  List.replicate 4 (.call 0 {}) ++ turnRun .frame .processed ++ turnRun .frame .fault

theorem frames_accounted_failing :
    (results (trace (guarded unreset (next .host)) workerCalls cleared failingRun)).length = 2 ∧
      (trace (guarded unreset (next .host)) workerCalls cleared failingRun).Pairwise
        fun c c' => c.faults = true → c'.acquires = false := by
  have before := exec_eq_final (next .host) {} clearingRun (by decide)
  have step := next_eq_final (next .host) clearing (.call 0 {}) (by decide)
  have run := exec_eq_final (guarded unreset (next .host)) cleared failingRun (by decide)
  exact ⟨by decide, (frames_accounted before (by decide) step run).2.2.2.2.1⟩

/-- The worker is about to take a turn, and nobody else is there. -/
structure Steady (s : System) : Prop where
  calls : s.calls = []
  readers : s.readers = []
  worker : s.workers = [(0, .loopTest)]
  requested : s.shared.stopRequested = false

theorem Steady.turn (h : s.Steady) (tallies : s.shared.diagnostics.Tallies counted) :
    ∃ t, exec (guarded unreset (next .host)) s (turnRun .frame .processed) = some t ∧ t.Steady ∧
      t.shared.diagnostics.Tallies (counted ++ [.processed]) ∧
      trace (guarded unreset (next .host)) workerCalls s (turnRun .frame .processed) =
        [.receive .frame {}, .process {} .processed, .onFrameProcessed {} .processed,
          .onDiagnostics t.shared.diagnostics] := by
  obtain ⟨calls, readers, worker, requested⟩ := h
  obtain ⟨shared, calls', readers', workers, created, destroyed⟩ := s
  obtain ⟨active, config, diagnostics, lifecycle, requested', announced, started, ownership, called,
    attempts, result, supported, handle⟩ := shared
  subst calls readers worker requested
  refine ⟨_, rfl, ⟨rfl, rfl, rfl, rfl⟩, ?_, rfl⟩
  have same : diagnostics.SameCounts { diagnostics with
      acquisition := {}, transport := .live, hasLastFrame := true, lastFrameUs := 0 } :=
    ⟨rfl, rfl, rfl, rfl⟩
  exact (tallies.of_same same).count .processed

theorem Steady.turns (h : s.Steady) (tallies : s.shared.diagnostics.Tallies counted) (n : ℕ) :
    ∃ t, exec (guarded unreset (next .host)) s
        (List.replicate n (turnRun .frame .processed)).flatten = some t ∧ t.Steady ∧
      t.shared.diagnostics.Tallies (counted ++ List.replicate n .processed) ∧
      results (trace (guarded unreset (next .host)) workerCalls s
        (List.replicate n (turnRun .frame .processed)).flatten) = List.replicate n .processed := by
  induction n with
  | zero => exact ⟨s, rfl, h, by simpa using tallies, rfl⟩
  | succ n ih =>
    obtain ⟨t, run, steady, tallies, made⟩ := ih
    obtain ⟨u, turn, steady, tallies, own⟩ := steady.turn tallies
    rw [List.replicate_succ', List.flatten_append, List.flatten_singleton]
    refine ⟨u, exec_trans run turn, steady, ?_, ?_⟩
    · rw [List.replicate_succ', ← List.append_assoc]
      exact tallies
    · rw [trace_append run, results_append, made, own, List.replicate_succ']
      rfl

def started : System := final (guarded unreset (next .host)) cleared (List.replicate 4 (.call 0 {}))

/-- With the `2 ^ 64`th frame the counter of processed frames is back at zero, and so is the sum
of the counters that the observer is told. -/
theorem frame_counter_wraps :
    exec (next .host) {} clearingRun = some clearing ∧ clearing.resets (.call 0 {}) = true ∧
      clearing.next .host (.call 0 {}) = some cleared ∧
      exec (guarded unreset (next .host)) cleared (List.replicate 4 (.call 0 {})) = some started ∧
      ∃ s t before,
        exec (guarded unreset (next .host)) started
          (List.replicate (2 ^ 64 - 1) (turnRun .frame .processed)).flatten = some s ∧
        exec (guarded unreset (next .host)) s (turnRun .frame .processed) = some t ∧
        ¬s.shared.diagnostics.Below t.shared.diagnostics ∧
        trace (guarded unreset (next .host)) workerCalls started
            ((List.replicate (2 ^ 64 - 1) (turnRun .frame .processed)).flatten ++
              turnRun .frame .processed) =
          before ++ [.onDiagnostics t.shared.diagnostics] ∧
        (results before).length = 2 ^ 64 ∧ t.shared.diagnostics.handled = 0 := by
  refine ⟨exec_eq_final _ _ _ (by decide), by decide, next_eq_final _ _ _ (by decide),
    exec_eq_final _ _ _ (by decide), ?_⟩
  have steady : started.Steady := ⟨by decide, by decide, by decide, by decide⟩
  have zero : started.shared.diagnostics.Tallies [] := ⟨by decide, by decide, by decide, by decide⟩
  -- the number of turns stays a variable, so that nothing is unfolded that often
  generalize rounds : 2 ^ 64 - 1 = n
  obtain ⟨s, run, steady, tallies, made⟩ := steady.turns zero n
  obtain ⟨t, turn, -, tallies', own⟩ := steady.turn tallies
  refine ⟨s, t, trace (guarded unreset (next .host)) workerCalls started
      (List.replicate n (turnRun .frame .processed)).flatten ++
        [.receive .frame {}, .process {} .processed, .onFrameProcessed {} .processed],
    run, turn, ?_, ?_, ?_, ?_⟩
  · intro below
    have less := below.processed
    rw [tallies.processed, tallies'.processed, BitVec.le_def, BitVec.toNat_ofNat,
      BitVec.toNat_ofNat] at less
    simp only [List.nil_append, List.count_append, List.count_replicate_self,
      List.count_singleton_self] at less
    omega
  · rw [trace_append run, own, List.append_assoc]
    rfl
  · rw [results_append, made, List.length_append, List.length_replicate]
    show n + 1 = 2 ^ 64
    omega
  · rw [tallies'.handled, List.nil_append, List.length_append, List.length_replicate,
      List.length_singleton]
    have whole : n + 1 = 2 ^ 64 := by omega
    rw [whole]
    rfl

end System

end CanTelemetry.VehicleTelemetry
