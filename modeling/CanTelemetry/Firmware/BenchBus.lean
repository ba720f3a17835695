import CanTelemetry.CanBus.FrameOrder
import CanTelemetry.CanBus.StartedOnce
import CanTelemetry.Firmware.BenchLoop
import CanTelemetry.VehicleTelemetry.BusOwnership

/-! The bench receiver on its bus. app_main is the only user of can_bus; its calls are made on
the modelled bus, where the receive task and the driver move between them. It starts the bus
once, makes one call after the other, and calls receive() only after start() has returned, so
that it keeps the contract of the bus with no assumption on anything but the driver. -/

namespace CanTelemetry.Tcan485Bench

open Execution Threads VehicleCore

variable {w : ℕ}

/-- The program and its bus. -/
structure Bench (w : ℕ) where
  app : App := {}
  bus : CanBus.System w := {}

namespace Bench

inductive Choice
  | gpio (ok : Bool)
  /-- app_main calls a function of can_bus. -/
  | enter
  | call (ok : Bool)
  | receive (granted : Bool)
  | ticks (now : BitVec 32)
  | delay
  | bus (k : CanBus.Choice)
  deriving DecidableEq

/-- What happens beside app_main: the receive task, and the driver going bus-off. -/
def beside : CanBus.Choice → Bool
  | .task _ _ | .busOff => true
  | _ => false

/-- The step that the bus makes. -/
def busMove? (s : Bench w) : Choice → Option CanBus.Choice
  | .enter => s.app.pc.bind AppPc.busCall?
  | .call ok => some (.call 0 ok)
  | .receive granted => some (.consumer granted)
  | .bus k => some k
  | _ => none

/-- A call of can_bus that returns, seen from app_main. -/
def answer (pc : Option AppPc) (result : CanBus.Result) : Event :=
  match pc with
  | some .starting => .started result
  | _ => .stopped result

/-- What app_main gets at the step; inside a call of can_bus it gets nothing before its end. -/
def event? (s : Bench w) : Choice → Option Event
  | .gpio ok => some (.gpio ok)
  | .enter => some .entered
  | .call ok => (s.bus.returned (.call 0 ok)).map (answer s.app.pc)
  | .receive granted =>
    (s.bus.received (.consumer granted)).map fun (result, frame) => .received result (frame.getD {})
  | .ticks now => some (.ticks now)
  | .delay => some .delayed
  | .bus _ => none

def offers (s : Bench w) : Choice → Bool
  | .enter => (s.busMove? .enter).isSome
  | .bus k => beside k
  | _ => true

def next (tickRate : ℕ) (s : Bench w) (k : Choice) : Option (Bench w) :=
  if s.offers k then
    (exec (App.next tickRate) s.app (s.event? k).toList).bind fun app =>
      (exec CanBus.System.next s.bus (s.busMove? k).toList).map fun bus =>
        { app := app, bus := bus }
  else none

variable {tickRate : ℕ} {s t : Bench w} {k : Choice} {ks ls : List Choice}

theorem next_eq_some (step : s.next tickRate k = some t) :
    s.offers k = true ∧ exec (App.next tickRate) s.app (s.event? k).toList = some t.app ∧
      exec CanBus.System.next s.bus (s.busMove? k).toList = some t.bus := by
  obtain ⟨offered, step⟩ := Option.ite_none_right_eq_some.mp step
  obtain ⟨app, heard, step⟩ := Option.bind_eq_some_iff.mp step
  obtain ⟨bus, moved, rfl⟩ := Option.map_eq_some_iff.mp step
  exact ⟨offered, heard, moved⟩

theorem next_hears {event : Event} (step : s.next tickRate k = some t)
    (hears : s.event? k = some event) :
    s.app.next tickRate event = some t.app := by
  obtain ⟨-, heard, -⟩ := next_eq_some step
  rw [hears] at heard
  obtain ⟨app, heard, rest⟩ := exec_cons_eq_some.mp heard
  obtain rfl := Option.some.inj rest
  exact heard

theorem next_unheard (step : s.next tickRate k = some t) (hears : s.event? k = none) :
    t.app = s.app := by
  obtain ⟨-, heard, -⟩ := next_eq_some step
  rw [hears] at heard
  exact (Option.some.inj heard).symm

theorem next_moves {k' : CanBus.Choice} (step : s.next tickRate k = some t)
    (asks : s.busMove? k = some k') : s.bus.next k' = some t.bus := by
  obtain ⟨-, -, moved⟩ := next_eq_some step
  rw [asks] at moved
  obtain ⟨bus, moved, rest⟩ := exec_cons_eq_some.mp moved
  obtain rfl := Option.some.inj rest
  exact moved

theorem next_rests (step : s.next tickRate k = some t) (asks : s.busMove? k = none) :
    t.bus = s.bus := by
  obtain ⟨-, -, moved⟩ := next_eq_some step
  rw [asks] at moved
  exact (Option.some.inj moved).symm

/-- app_main is one of the programs that BenchLoop speaks of. -/
def appView (tickRate : ℕ) : Projection (Bench.next (w := w) tickRate) (App.next tickRate) where
  Inv := fun _ => True
  view := app
  moves := fun s k => (s.event? k).toList
  keeps := fun _ _ => trivial
  step := fun _ step => (next_eq_some step).2.1

/-! ### The contract of the bus -/

/-- Where app_main and the bus stand to each other. -/
inductive Stands : Option AppPc → CanBus.System w → Prop
  | before {bus : CanBus.System w} {pc : AppPc} (fresh : bus = {})
      (early : pc = .start ∨ ∃ inner, pc = .initializing inner) : Stands (some pc) bus
  | starting {bus : CanBus.System w} {pc : CanBus.StartPc w}
      (inside : bus.calls = [.start configuration pc]) (idle : bus.consumer = none)
      (granted : pc.Granted bus.shared.lifecycle) : Stands (some .starting) bus
  | receiving {bus : CanBus.System w} (batchIndex : ℕ) (pc : CanBus.ReceivePc w)
      (inside : bus.consumer = some pc) (idle : bus.calls = []) :
      Stands (some (.receiving batchIndex)) bus
  | stopping {bus : CanBus.System w} {pc : CanBus.StopPc} (inside : bus.calls = [.stop pc])
      (idle : bus.consumer = none) : Stands (some .stopping) bus
  | outside {bus : CanBus.System w} {pc : Option AppPc}
      (other : ∀ pc' ∈ pc, pc'.beforeLoop = false ∨ pc' = .firstDeadline ∨
        ∃ inner, pc' = .disable inner false)
      (free : bus.calls = []) (idle : bus.consumer = none) : Stands pc bus

structure Linked (s : Bench w) : Prop where
  apart : s.bus.Apart
  lone : s.bus.Lone
  stands : Stands s.app.pc s.bus

theorem Linked.initial : ({} : Bench w).Linked where
  apart := CanBus.System.exec_apart (exec_nil _)
  lone := .initial
  stands := .before rfl (.inr ⟨_, rfl⟩)

/-- What app_main calls, and where. -/
theorem Linked.enters (h : s.Linked) {k' : CanBus.Choice} (asks : s.busMove? .enter = some k') :
    s.app.pc = some .start ∧ s.bus = {} ∧ k' = .beginStart configuration ∨
      s.bus.calls = [] ∧ s.bus.consumer = none ∧
        ((∃ batchIndex, s.app.pc = some (.receive batchIndex) ∧
          k' = .beginReceive (AppPc.receiveTimeoutMs batchIndex)) ∨
        s.app.pc = some .stop ∧ k' = .beginStop) := by
  obtain ⟨pc, at_pc, asks⟩ := Option.bind_eq_some_iff.mp asks
  have stands := h.stands
  rw [at_pc] at stands ⊢
  cases stands with
  | before fresh early =>
    rcases early with rfl | ⟨inner, rfl⟩
    · exact .inl ⟨rfl, fresh, (Option.some.inj asks).symm⟩
    · cases asks
  | starting inside idle granted => cases asks
  | receiving batchIndex pc inside idle => cases asks
  | stopping inside idle => cases asks
  | outside other free idle =>
    refine .inr ⟨free, idle, ?_⟩
    cases pc with
    | receive batchIndex => exact .inl ⟨batchIndex, rfl, (Option.some.inj asks).symm⟩
    | stop => exact .inr ⟨rfl, (Option.some.inj asks).symm⟩
    | start => simp [AppPc.beforeLoop] at other
    | _ => cases asks

/-- Every step of the bench is a step of the bus that keeps its contract, or none. -/
theorem Linked.step_bus (h : s.Linked) (step : s.next tickRate k = some t) :
    exec (guarded CanBus.System.apart CanBus.System.next) s.bus (s.busMove? k).toList =
      some t.bus := by
  obtain ⟨offered, -, moved⟩ := next_eq_some step
  have one {k' : CanBus.Choice} (asks : s.busMove? k = some k') (within : s.bus.apart k' = true) :
      exec (guarded CanBus.System.apart CanBus.System.next) s.bus (s.busMove? k).toList =
        some t.bus := by
    rw [asks]
    exact exec_single (guarded_eq_some.mpr ⟨within, next_moves step asks⟩)
  cases k with
  | enter =>
    obtain ⟨k', asks⟩ := Option.isSome_iff_exists.mp offered
    refine one asks ?_
    rcases h.enters asks with ⟨-, fresh, rfl⟩ | ⟨free, -, ⟨batchIndex, -, rfl⟩ | ⟨-, rfl⟩⟩
    · simp [CanBus.System.apart, CanBus.System.serialized, CanBus.System.ownToken, fresh]
    · simp [CanBus.System.apart, CanBus.System.serialized, CanBus.System.ownToken, free]
    · simp [CanBus.System.apart, CanBus.System.serialized, CanBus.System.ownToken, free]
  | call ok =>
    refine one rfl ?_
    have stepped := next_moves step rfl
    have own := h.lone.ownToken stepped
    have idle : s.bus.consumer = none := by
      obtain ⟨pc, -, -, found, -, -⟩ := CanBus.System.next_call stepped
      have stands := h.stands
      generalize s.app.pc = at_pc at stands
      cases stands with
      | receiving batchIndex pc inside free => simp [free] at found
      | before fresh early => simp [fresh]
      | starting inside idle granted => exact idle
      | stopping inside idle => exact idle
      | outside other free idle => exact idle
    simp only [CanBus.System.apart, CanBus.System.serialized, own, idle, Option.isNone_none,
      Bool.or_true, Bool.and_self]
  | receive granted => exact one rfl rfl
  | bus k =>
    refine one rfl ?_
    cases k <;> first | rfl | cases offered
  | _ => exact moved

/-- A bus that has not been called has neither a task nor a driver. -/
theorem beside_fresh {bus : CanBus.System w} {k : CanBus.Choice} (offered : beside k = true)
    (step : ({} : CanBus.System w).next k = some bus) : False := by
  cases k with
  | task i env => cases step
  | busOff => cases step
  | _ => cases offered

/-- Neither the task nor the driver disturbs it. -/
theorem Stands.beside {pc : Option AppPc} {bus bus' : CanBus.System w} {k : CanBus.Choice}
    (h : Stands pc bus) (offered : beside k = true) (step : bus.next k = some bus') :
    Stands pc bus' := by
  have consumer : bus'.consumer = bus.consumer := by
    cases k with
    | task i env =>
      obtain ⟨pc, shared, control, -, -, rfl⟩ := CanBus.System.next_task step
      rfl
    | busOff =>
      obtain ⟨-, rfl⟩ := CanBus.System.next_busOff step
      rfl
    | _ => cases offered
  obtain ⟨calls, other⟩ : bus'.calls = bus.calls ∧
      CanBus.Interference bus.shared.lifecycle bus'.shared.lifecycle := by
    refine CanBus.System.next_interference step ?_ ?_ ?_ <;>
      (cases k <;> first | (cases offered; done) | simp)
  cases h with
  | before fresh early =>
    rw [fresh] at step
    exact (beside_fresh offered step).elim
  | starting inside idle granted =>
    exact .starting (calls.trans inside) (consumer.trans idle) (granted.stable other)
  | receiving batchIndex pc inside idle =>
    exact .receiving batchIndex pc (consumer.trans inside) (calls.trans idle)
  | stopping inside idle => exact .stopping (calls.trans inside) (consumer.trans idle)
  | outside out free idle => exact .outside out (calls.trans free) (consumer.trans idle)

/-- The event does not come from the bus. -/
def apartFromBus : Event → Bool
  | .gpio _ | .ticks _ | .delayed => true
  | _ => false

theorem Stands.app {bus : CanBus.System w} {app app' : App} {event : Event}
    (h : Stands app.pc bus) (own : apartFromBus event = true)
    (step : app.next tickRate event = some app') : Stands app'.pc bus := by
  obtain ⟨pc, control, at_pc, inside, left⟩ := App.next_step step
  have steps := AppPc.step_cases inside
  clear inside step
  generalize app'.locals = locals' at steps
  rw [at_pc] at h
  rw [left]
  cases h with
  | before fresh early =>
    rcases early with rfl | ⟨inner, rfl⟩
    · cases steps
      cases own
    · cases steps with
      | initializing inside => exact .before fresh (.inr ⟨_, rfl⟩)
      | initialized inside =>
        split
        · exact .before fresh (.inl rfl)
        · exact .outside (by simp) (by rw [fresh]) (by rw [fresh])
  | starting inside idle granted => cases steps <;> cases own
  | receiving batchIndex pc inside idle => cases steps <;> cases own
  | stopping inside idle =>
    cases steps
    cases own
  | outside other free idle =>
    refine .outside ?_ free idle
    cases steps with
    | initializing inside => simp [AppPc.beforeLoop] at other
    | initialized inside => simp [AppPc.beforeLoop] at other
    | disabling inside => simp [AppPc.beforeLoop] at other ⊢
    | disabled inside => simp
    | firstDeadline now => simp [AppPc.beforeLoop]
    | summarize now due => simp [AppPc.beforeLoop]
    | silent now early some => simp [AppPc.beforeLoop]
    | idle now none => simp [AppPc.beforeLoop]
    | delay => simp [AppPc.beforeLoop]
    | _ => cases own

theorem Stands.entered (h : s.Linked) {tickRate : ℕ} (step : s.next tickRate .enter = some t) :
    Stands t.app.pc t.bus := by
  obtain ⟨offered, -⟩ := next_eq_some step
  obtain ⟨k', asks⟩ := Option.isSome_iff_exists.mp offered
  have moved := next_moves step asks
  obtain ⟨pc, control, at_pc, inside, left⟩ := App.next_step (next_hears step rfl)
  have steps := AppPc.step_cases inside
  clear inside
  rw [left]
  generalize t.app.locals = locals' at steps
  rcases h.enters asks with ⟨at_pc', fresh, rfl⟩ |
    ⟨free, idle, ⟨batchIndex, at_pc', rfl⟩ | ⟨at_pc', rfl⟩⟩
  · obtain rfl := Option.some.inj (at_pc.symm.trans at_pc')
    cases steps
    rw [fresh] at moved
    obtain moved := Option.some.inj moved
    rw [← moved]
    exact .starting rfl rfl rfl
  · obtain rfl := Option.some.inj (at_pc.symm.trans at_pc')
    cases steps
    obtain ⟨-, moved⟩ := Option.ite_none_right_eq_some.mp moved
    obtain moved := Option.some.inj moved
    rw [← moved]
    exact .receiving _ _ rfl free
  · obtain rfl := Option.some.inj (at_pc.symm.trans at_pc')
    cases steps
    obtain moved := Option.some.inj moved
    rw [← moved, free]
    exact .stopping rfl idle

/-- A step in start() or stop(). -/
theorem Stands.call (h : s.Linked) {ok : Bool} (step : s.next tickRate (.call ok) = some t) :
    Stands t.app.pc t.bus := by
  have moved := next_moves step rfl
  have stands := h.stands
  generalize at_pc : s.app.pc = pc at stands
  cases stands with
  | before fresh early =>
    obtain ⟨pc, -, -, found, -, -⟩ := CanBus.System.next_call moved
    simp [fresh] at found
  | receiving batchIndex pc inside free =>
    obtain ⟨pc, -, -, found, -, -⟩ := CanBus.System.next_call moved
    simp [free] at found
  | outside other free idle =>
    obtain ⟨pc, -, -, found, -, -⟩ := CanBus.System.next_call moved
    simp [free] at found
  | starting inside idle granted =>
    obtain ⟨shared, control, hstep, after⟩ := CanBus.System.next_call_single inside moved
    obtain ⟨inner, within, rfl⟩ := CanBus.CallPc.step_start hstep
    have grants := granted.step within
    have returned : s.bus.returned (.call 0 ok) = inner.value? := by
      simp only [CanBus.System.returned, inside, List.getElem?_cons_zero, Option.bind_some, hstep]
      cases inner <;> rfl
    have hears : s.event? (.call ok) = inner.value?.map (answer s.app.pc) := by
      rw [← returned]
      rfl
    rw [at_pc] at hears
    cases inner with
    | next pc' =>
      rw [next_unheard step hears, at_pc, after]
      exact .starting rfl idle grants
    | ret result =>
      obtain ⟨pc', control', at_pc', inside', left⟩ := App.next_step (next_hears step hears)
      obtain rfl := Option.some.inj (at_pc.symm.trans at_pc')
      have steps := AppPc.step_cases inside'
      generalize t.app.locals = locals' at steps
      rw [left, after]
      cases steps with
      | started => exact .outside (by simp) rfl idle
      | notStarted failed => exact .outside (by simp) rfl idle
  | stopping inside idle =>
    obtain ⟨shared, control, hstep, after⟩ := CanBus.System.next_call_single inside moved
    obtain ⟨inner, within, rfl⟩ := CanBus.CallPc.step_stop hstep
    have returned : s.bus.returned (.call 0 ok) = inner.value? := by
      simp only [CanBus.System.returned, inside, List.getElem?_cons_zero, Option.bind_some, hstep]
      cases inner <;> rfl
    have hears : s.event? (.call ok) = inner.value?.map (answer s.app.pc) := by
      rw [← returned]
      rfl
    rw [at_pc] at hears
    cases inner with
    | next pc' =>
      rw [next_unheard step hears, at_pc, after]
      exact .stopping rfl idle
    | ret result =>
      obtain ⟨pc', control', at_pc', inside', left⟩ := App.next_step (next_hears step hears)
      obtain rfl := Option.some.inj (at_pc.symm.trans at_pc')
      have steps := AppPc.step_cases inside'
      generalize t.app.locals = locals' at steps
      rw [left, after]
      cases steps
      exact .outside (by simp [AppPc.beforeLoop]) rfl idle

/-- A step in receive(). -/
theorem Stands.receive (h : s.Linked) {granted : Bool}
    (step : s.next tickRate (.receive granted) = some t) : Stands t.app.pc t.bus := by
  obtain ⟨pc, shared, control, found, hstep, after⟩ :=
    CanBus.System.next_consumer (next_moves step rfl)
  have stands := h.stands
  generalize at_pc : s.app.pc = at_pc at stands
  cases stands with
  | before fresh early => simp [fresh] at found
  | starting inside idle granted => cases idle.symm.trans found
  | stopping inside idle => cases idle.symm.trans found
  | outside other free idle => cases idle.symm.trans found
  | receiving batchIndex pc inside free =>
    have received : s.bus.received (.consumer granted) = control.value? := by
      simp only [CanBus.System.received, found, Option.bind_some, hstep]
    have hears : s.event? (.receive granted) = control.value?.map fun (result, frame) =>
        .received result (frame.getD {}) := by
      rw [← received]
      rfl
    cases control with
    | next pc' =>
      rw [next_unheard step hears, at_pc, after]
      exact .receiving _ _ rfl free
    | ret value =>
      obtain ⟨pc', control', at_pc', inside', left⟩ := App.next_step (next_hears step hears)
      obtain rfl := Option.some.inj (at_pc.symm.trans at_pc')
      have steps := AppPc.step_cases inside'
      generalize t.app.locals = locals' at steps
      obtain ⟨result, frame⟩ := value
      rw [left, after]
      refine .outside ?_ free rfl
      dsimp only at steps
      cases steps with
      | timeout batchIndex frame => simp [AppPc.beforeLoop]
      | failure batchIndex result frame failed late => simp [AppPc.beforeLoop]
      | count batchIndex frame =>
        rcases AppPc.batch_cases (batchIndex + 1) with ⟨same, -⟩ | ⟨same, -⟩ <;>
          simp [same, AppPc.beforeLoop]

theorem Linked.next (h : s.Linked) (step : s.next tickRate k = some t) : t.Linked := by
  have moved := h.step_bus step
  have apart : t.bus.Apart := by
    refine exec_invariant (P := CanBus.System.Apart) ?_ moved h.apart
    intro s k t h step
    obtain ⟨allowed, step⟩ := guarded_eq_some.mp step
    exact h.next allowed step
  have lone : t.bus.Lone := by
    cases asks : s.busMove? k with
    | none =>
      rw [asks] at moved
      obtain same := Option.some.inj moved
      rw [← same]
      exact h.lone
    | some k' =>
      rw [asks] at moved
      obtain ⟨bus, moved, rest⟩ := exec_cons_eq_some.mp moved
      obtain rfl := Option.some.inj rest
      obtain ⟨allowed, moved⟩ := guarded_eq_some.mp moved
      simp only [CanBus.System.apart, Bool.and_eq_true] at allowed
      refine h.lone.next h.apart.preparing allowed.1.1 ?_ moved
      cases k' with
      | beginStart c =>
        have fresh : s.bus = {} := by
          obtain ⟨offered, -⟩ := next_eq_some step
          cases k with
          | enter =>
            rcases h.enters asks with ⟨-, fresh, -⟩ | ⟨-, -, ⟨batchIndex, -, same⟩ | ⟨-, same⟩⟩
            · exact fresh
            · cases same
            · cases same
          | bus k =>
            obtain rfl := Option.some.inj asks
            cases offered
          | _ => cases asks
        rw [fresh]
        rfl
      | _ => rfl
  refine ⟨apart, lone, ?_⟩
  cases k with
  | enter => exact Stands.entered h step
  | call ok => exact Stands.call h step
  | receive granted => exact Stands.receive h step
  | bus k =>
    obtain ⟨offered, -⟩ := next_eq_some step
    rw [next_unheard step rfl]
    exact h.stands.beside offered (next_moves step rfl)
  | gpio ok =>
    rw [next_rests step rfl]
    exact h.stands.app rfl (next_hears step rfl)
  | ticks now =>
    rw [next_rests step rfl]
    exact h.stands.app rfl (next_hears step rfl)
  | delay =>
    rw [next_rests step rfl]
    exact h.stands.app rfl (next_hears step rfl)

end Bench

end CanTelemetry.Tcan485Bench
