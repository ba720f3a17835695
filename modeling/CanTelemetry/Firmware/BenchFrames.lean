import CanTelemetry.Firmware.BenchBus

/-! What the bench receiver counts. A run of the bench has one acquisition at most, which begins
with the task that its start() creates. The frames that app_main counts are, in order, the
first of those that this task has queued, and its counters and summaries account for all of
them. -/

namespace CanTelemetry.Tcan485Bench.Bench

open Execution Threads VehicleCore

variable {w tickRate : ℕ} {s t : Bench w} {k : Choice} {ks : List Choice}

/-! ### Observations on the bus -/

/-- What is shown by the step that the bus makes. -/
def onBus {ε : Type*} (shown : CanBus.System w → CanBus.Choice → List ε) (s : Bench w)
    (k : Choice) :
    List ε :=
  ((s.busMove? k).map (shown s.bus)).getD []

/-- The bus of the bench, with every step within its contract. -/
def contract (tickRate : ℕ) :
    Projection (Bench.next (w := w) tickRate)
      (guarded CanBus.System.apart (CanBus.System.next (w := w))) where
  Inv := Linked
  view := bus
  moves := fun s k => (s.busMove? k).toList
  keeps := Linked.next
  step := Linked.step_bus

/-- The frame that app_main counts. -/
def countedFrames (s : Bench w) (k : Choice) : List RawCanFrame :=
  ((s.event? k).map s.app.counted).getD []

/-- The steps at which app_main counts are those at which receive() returns with Ok. -/
theorem Linked.counted (h : s.Linked) (step : s.next tickRate k = some t) :
    s.countedFrames k = onBus CanBus.System.returnedFrames s k := by
  have quiet {k' : CanBus.Choice} (other : ∀ granted, k' ≠ .consumer granted) :
      s.bus.returnedFrames k' = [] := by
    cases k' with
    | consumer granted => exact absurd rfl (other granted)
    | _ => rfl
  cases k with
  | receive granted =>
    obtain ⟨pc, shared, control, found, hstep, -⟩ :=
      CanBus.System.next_consumer (next_moves step rfl)
    have received : s.bus.received (.consumer granted) = control.value? := by
      simp only [CanBus.System.received, found, Option.bind_some, hstep]
    have stands := h.stands
    generalize at_pc : s.app.pc = at_pc at stands
    cases stands with
    | before fresh early => simp [fresh] at found
    | starting inside idle granted => cases idle.symm.trans found
    | stopping inside idle => cases idle.symm.trans found
    | outside other free idle => cases idle.symm.trans found
    | receiving batchIndex pc' inside free =>
      simp only [countedFrames, event?, onBus, busMove?, CanBus.System.returnedFrames, received,
        Option.map_some, Option.getD_some]
      cases control with
      | next pc' => rfl
      | ret value =>
        obtain ⟨result, frame⟩ := value
        have sound := (CanBus.ReceivePc.step_pop hstep).1 (result, frame) rfl
        cases result with
        | ok =>
          obtain ⟨frame, rfl⟩ := Option.isSome_iff_exists.mp (sound rfl).1
          simp only [Control.value?_ret, Option.map_some, Option.getD_some, App.counted, at_pc]
          rfl
        | _ => rfl
  | bus k =>
    rw [onBus, show s.busMove? (.bus k) = some k from rfl, Option.map_some, Option.getD_some, quiet]
    · rfl
    · rintro granted rfl
      obtain ⟨offered, -⟩ := next_eq_some step
      cases offered
  | enter =>
    have nothing : s.countedFrames .enter = [] := rfl
    rw [nothing, onBus]
    cases asks : s.busMove? .enter with
    | none => rfl
    | some k' =>
      rw [Option.map_some, Option.getD_some, quiet]
      rintro granted rfl
      rcases h.enters asks with ⟨-, -, same⟩ | ⟨-, -, ⟨batchIndex, -, same⟩ | ⟨-, same⟩⟩ <;>
          cases same
  | call ok =>
    rw [onBus, show s.busMove? (.call ok) = some (.call 0 ok) from rfl, Option.map_some,
      Option.getD_some, quiet (by simp), countedFrames]
    simp only [event?]
    cases s.bus.returned (.call 0 ok) with
    | none => rfl
    | some result =>
      simp only [Option.map_some, Option.getD_some, answer]
      split <;> rfl
  | _ => rfl

/-! ### Before the task -/

/-- No task has been created, and the start() that could create one has not come to it. -/
structure Unstarted (s : Bench w) : Prop where
  tasks : s.bus.tasks = []
  early : ∀ pc ∈ s.app.pc, pc.beforeLoop = true ∧ pc ≠ .firstDeadline
  ahead : ∀ c, .start c .setStartedBefore ∉ s.bus.calls

theorem Unstarted.initial : ({} : Bench w).Unstarted where
  tasks := rfl
  early := by simp [AppPc.beforeLoop]
  ahead := by simp

theorem Linked.consumer (h : s.Linked) (early : s.Unstarted) : s.bus.consumer = none := by
  obtain ⟨-, early, -⟩ := early
  have stands := h.stands
  generalize s.app.pc = pc at stands early
  cases stands with
  | before fresh _ => rw [fresh]
  | starting inside idle granted => exact idle
  | receiving batchIndex pc inside idle => simp [AppPc.beforeLoop] at early
  | stopping inside idle => exact idle
  | outside other free idle => exact idle

/-- The start() creates its task at this step. -/
def creates (s : Bench w) : Choice → Prop
  | .call true => s.bus.calls = [.start configuration .createTask]
  | _ => False

/-- The task is in its place only once start() has created it. -/
theorem Unstarted.call (h : s.Unstarted) (linked : s.Linked) {ok : Bool}
    (step : s.next tickRate (.call ok) = some t) : s.creates (.call ok) ∨ t.Unstarted := by
  obtain ⟨tasks, early, ahead⟩ := h
  have moved := next_moves step rfl
  obtain ⟨pc, -, -, found, -, -⟩ := CanBus.System.next_call moved
  have stands := linked.stands
  generalize at_pc : s.app.pc = at_pc at stands early
  cases stands with
  | before fresh _ => simp [fresh] at found
  | receiving batchIndex pc inside free => simp [free] at found
  | outside other free idle => simp [free] at found
  | stopping inside idle => simp [AppPc.beforeLoop] at early
  | starting inside idle granted =>
    rename_i pc'
    obtain ⟨shared, control, hstep, after⟩ := CanBus.System.next_call_single inside moved
    obtain ⟨inner, within, rfl⟩ := CanBus.CallPc.step_start hstep
    have returned : s.bus.returned (.call 0 ok) = inner.value? := by
      simp only [CanBus.System.returned, inside, List.getElem?_cons_zero, Option.bind_some, hstep]
      cases inner <;> rfl
    have hears : s.event? (.call ok) = inner.value?.map (answer (some .starting)) := by
      rw [← returned, ← at_pc]
      rfl
    rcases (CanBus.CallPc.start configuration pc').created_cases ok with none | ⟨c, same, rfl, -⟩
    · right
      have unfinished : inner ≠ .ret .ok ∧ inner ≠ .next .setStartedBefore := by
        by_contra finished
        have succeeds : inner = .ret .ok ∨ inner = .next .setStartedBefore := by
          by_contra neither
          exact finished (not_or.mp neither)
        rcases granted.step_ok within succeeds with rfl | rfl
        · exact ahead configuration (by simp [inside])
        · cases ok with
          | true => cases none
          | false =>
            obtain rfl := (Prod.mk.inj (Option.some.inj within)).2
            rcases succeeds with same | same <;> cases same
      rw [none, List.append_nil] at after
      cases inner with
      | next pc'' =>
        refine ⟨by rw [after]; exact tasks, ?_, ?_⟩
        · rw [next_unheard step hears, at_pc]
          simp [AppPc.beforeLoop]
        · intro c mem
          rw [after] at mem
          obtain ⟨-, rfl⟩ := CanBus.CallPc.start.inj (List.mem_singleton.mp mem)
          exact unfinished.2 rfl
      | ret result =>
        obtain ⟨pc, control', at_pc', inside', left⟩ := App.next_step (next_hears step hears)
        obtain rfl := Option.some.inj (at_pc.symm.trans at_pc')
        have steps := AppPc.step_cases inside'
        generalize t.app.locals = locals' at steps
        refine ⟨by rw [after]; exact tasks, ?_, by simp [after]⟩
        rw [left]
        cases steps with
        | started => exact absurd rfl unfinished.1
        | notStarted failed => simp [AppPc.beforeLoop]
    · obtain ⟨rfl, rfl⟩ := CanBus.CallPc.start.inj same
      exact .inl inside

theorem Unstarted.next (h : s.Unstarted) (linked : s.Linked) (step : s.next tickRate k = some t) :
    s.creates k ∨ t.Unstarted := by
  -- app_main goes on by itself
  have alone {event : Event} (own : apartFromBus event = true)
      (hears : s.event? k = some event) (rests : s.busMove? k = none) : t.Unstarted := by
    obtain ⟨tasks, early, ahead⟩ := h
    have same := next_rests step rests
    obtain ⟨pc, control, at_pc, inside, left⟩ := App.next_step (next_hears step hears)
    have steps := AppPc.step_cases inside
    clear inside hears
    generalize t.app.locals = locals' at steps
    obtain ⟨before, notFirst⟩ := early pc at_pc
    refine ⟨by rw [same]; exact tasks, ?_, by rw [same]; exact ahead⟩
    rw [left]
    cases steps with
    | initializing inside => simp [AppPc.beforeLoop]
    | initialized inside => split <;> simp [AppPc.beforeLoop]
    | disabling inside =>
      intro pc' next
      obtain rfl := Option.some.inj next
      exact ⟨before, by simp⟩
    | disabled inside => simp
    | firstDeadline now => exact absurd rfl notFirst
    | start | started | notStarted | receive | timeout | failure | count | stop | stopped =>
      cases own
    | _ => cases before
  cases k with
  | call ok => exact h.call linked step
  | gpio ok => exact .inr (alone rfl rfl rfl)
  | ticks now => exact .inr (alone rfl rfl rfl)
  | delay => exact .inr (alone rfl rfl rfl)
  | receive granted =>
    obtain ⟨pc, shared, control, found, -, -⟩ := CanBus.System.next_consumer (next_moves step rfl)
    cases (linked.consumer h).symm.trans found
  | bus k =>
    obtain ⟨offered, -⟩ := next_eq_some step
    have moved := next_moves step rfl
    obtain ⟨tasks, early, ahead⟩ := h
    cases k with
    | task i env =>
      obtain ⟨pc, shared, control, found, -, -⟩ := CanBus.System.next_task moved
      simp [tasks] at found
    | busOff =>
      obtain ⟨-, after⟩ := CanBus.System.next_busOff moved
      exact .inr ⟨by rw [after]; exact tasks, by rw [next_unheard step rfl]; exact early,
        by rw [after]; exact ahead⟩
    | _ => cases offered
  | enter =>
    obtain ⟨offered, -⟩ := next_eq_some step
    obtain ⟨k', asks⟩ := Option.isSome_iff_exists.mp offered
    have moved := next_moves step asks
    obtain ⟨tasks, early, ahead⟩ := h
    obtain ⟨pc, control, at_pc', inside, left⟩ := App.next_step (next_hears step rfl)
    have steps := AppPc.step_cases inside
    clear inside
    generalize t.app.locals = locals' at steps
    rcases linked.enters asks with ⟨at_pc, fresh, rfl⟩ | ⟨-, -, ⟨batchIndex, at_pc, -⟩ | ⟨at_pc, -⟩⟩
    · obtain rfl := Option.some.inj (at_pc'.symm.trans at_pc)
      cases steps
      rw [fresh] at moved
      obtain after := Option.some.inj moved
      refine .inr ⟨by rw [← after], ?_, by simp [← after]⟩
      rw [left]
      simp [AppPc.beforeLoop]
    · simp [at_pc, AppPc.beforeLoop] at early
    · simp [at_pc, AppPc.beforeLoop] at early

/-! ### From the task on -/

/-- The task has been created, and start() has returned or is about to return Ok. -/
structure Created (s : Bench w) : Prop where
  returns : ∀ c pc, .start c pc ∈ s.bus.calls → pc = .setStartedBefore
  past : ∀ pc ∈ s.app.pc, pc.beforeLoop = false ∨ pc = .firstDeadline ∨ pc = .starting

/-- app_main does not go back before its loop. -/
theorem Created.past_step {app : App} {event : Event}
    (past : ∀ pc ∈ s.app.pc, pc.beforeLoop = false ∨ pc = .firstDeadline ∨ pc = .starting)
    (granted : ∀ result, event = .started result → result = .ok)
    (step : s.app.next tickRate event = some app) :
    ∀ pc ∈ app.pc, pc.beforeLoop = false ∨ pc = .firstDeadline ∨ pc = .starting := by
  obtain ⟨pc, control, at_pc, inside, left⟩ := App.next_step step
  have steps := AppPc.step_cases inside
  clear inside step
  have before := past pc at_pc
  generalize app.locals = locals' at steps
  rw [left]
  cases steps with
  | notStarted failed => exact absurd (granted _ rfl) failed
  | count batchIndex frame =>
    rcases AppPc.batch_cases (batchIndex + 1) with ⟨same, -⟩ | ⟨same, -⟩ <;>
      simp [same, AppPc.beforeLoop]
  | disabling inside =>
    intro pc' next
    obtain rfl := Option.some.inj next
    rcases before with inLoop | first | starting
    · exact .inl inLoop
    · cases first
    · cases starting
  | initializing | initialized | start => simp [AppPc.beforeLoop] at before
  | _ => simp [AppPc.beforeLoop]

theorem Created.next (h : s.Created) (linked : s.Linked) (step : s.next tickRate k = some t) :
    t.Created ∧
      exec (guarded CanBus.System.withinAcquisition CanBus.System.next) s.bus (s.busMove? k).toList =
        some t.bus := by
  have moved := linked.step_bus step
  have within : exec (guarded CanBus.System.withinAcquisition CanBus.System.next) s.bus
      (s.busMove? k).toList = some t.bus := by
    cases asks : s.busMove? k with
    | none =>
      rw [asks] at moved
      exact moved
    | some k' =>
      rw [asks] at moved
      obtain ⟨bus, moved, rest⟩ := exec_cons_eq_some.mp moved
      obtain rfl := Option.some.inj rest
      obtain ⟨allowed, moved⟩ := guarded_eq_some.mp moved
      refine exec_single (guarded_eq_some.mpr ⟨?_, moved⟩)
      simp only [CanBus.System.withinAcquisition, allowed, Bool.true_and]
      cases k' with
      | call i ok =>
        obtain ⟨pc, -, -, found, -, -⟩ := CanBus.System.next_call moved
        simp only [found, Option.any_some, Bool.not_eq_true']
        cases pc with
        | start c pc =>
          obtain rfl := h.returns c pc (List.mem_of_getElem? found)
          rfl
        | stop pc => rfl
      | _ => rfl
  refine ⟨?_, within⟩
  obtain ⟨returns, past⟩ := h
  -- the bus keeps its calls
  have stays {event : Option Event} (hears : s.event? k = event)
      (granted : ∀ result, event = some (.started result) → result = .ok)
      (calls : ∀ c pc, .start c pc ∈ t.bus.calls → pc = .setStartedBefore) : t.Created := by
    refine ⟨calls, ?_⟩
    cases event with
    | none =>
      rw [next_unheard step hears]
      exact past
    | some event =>
      exact Created.past_step past (fun result same => granted result (congrArg _ same))
        (next_hears step hears)
  cases k with
  | gpio ok =>
    refine stays rfl (by simp [event?]) ?_
    rw [next_rests step rfl]
    exact returns
  | ticks now =>
    refine stays rfl (by simp [event?]) ?_
    rw [next_rests step rfl]
    exact returns
  | delay =>
    refine stays rfl (by simp [event?]) ?_
    rw [next_rests step rfl]
    exact returns
  | receive granted =>
    obtain ⟨pc, shared, control, -, -, after⟩ := CanBus.System.next_consumer (next_moves step rfl)
    exact stays rfl (by simp [event?]) (by rw [after]; exact returns)
  | bus k =>
    obtain ⟨offered, -⟩ := next_eq_some step
    have moved := next_moves step rfl
    refine stays rfl (by simp [event?]) ?_
    cases k with
    | task i env =>
      obtain ⟨pc, shared, control, -, -, after⟩ := CanBus.System.next_task moved
      rw [after]
      exact returns
    | busOff =>
      obtain ⟨-, after⟩ := CanBus.System.next_busOff moved
      rw [after]
      exact returns
    | _ => cases offered
  | enter =>
    obtain ⟨offered, -⟩ := next_eq_some step
    obtain ⟨k', asks⟩ := Option.isSome_iff_exists.mp offered
    have moved := next_moves step asks
    refine stays rfl (by simp [event?]) ?_
    rcases linked.enters asks with ⟨at_pc, -, -⟩ | ⟨free, -, ⟨batchIndex, -, rfl⟩ | ⟨-, rfl⟩⟩
    · simp [at_pc, AppPc.beforeLoop] at past
    · obtain ⟨-, moved⟩ := Option.ite_none_right_eq_some.mp moved
      obtain after := Option.some.inj moved
      rw [← after]
      exact returns
    · obtain after := Option.some.inj moved
      rw [← after]
      simp [free]
  | call ok =>
    have moved := next_moves step rfl
    have stands := linked.stands
    generalize at_pc : s.app.pc = at_pc at stands
    cases stands with
    | before fresh early =>
      obtain ⟨pc, -, -, found, -, -⟩ := CanBus.System.next_call moved
      simp [fresh] at found
    | receiving batchIndex pc inside free =>
      obtain ⟨pc, -, -, found, -, -⟩ := CanBus.System.next_call moved
      simp [free] at found
    | outside other free idle =>
      obtain ⟨pc, -, -, found, -, -⟩ := CanBus.System.next_call moved
      simp [free] at found
    | starting inside idle granted =>
      obtain rfl := returns _ _ (by rw [inside]; exact List.mem_singleton_self _)
      obtain ⟨shared, control, hstep, after⟩ := CanBus.System.next_call_single inside moved
      obtain ⟨inner, within, rfl⟩ := CanBus.CallPc.step_start hstep
      obtain ⟨rfl, rfl⟩ := Prod.mk.inj (Option.some.inj within)
      have hears : s.event? (.call ok) = some (.started .ok) := by
        simp only [event?, CanBus.System.returned, inside, List.getElem?_cons_zero,
          Option.bind_some, hstep, at_pc]
        rfl
      exact stays hears (by simp) (by simp [after])
    | stopping inside idle =>
      obtain ⟨shared, control, hstep, after⟩ := CanBus.System.next_call_single inside moved
      obtain ⟨inner, -, rfl⟩ := CanBus.CallPc.step_stop hstep
      have hears : s.event? (.call ok) = inner.value?.map .stopped := by
        simp only [event?, CanBus.System.returned, inside, List.getElem?_cons_zero,
          Option.bind_some, hstep, at_pc]
        cases inner <;> rfl
      refine stays hears (by simp) ?_
      rw [after]
      cases inner <;> simp

/-- Nothing is shown without a task or a receive(). -/
def Later {ε : Type} (shown : CanBus.System w → CanBus.Choice → List ε) : Prop :=
  ∀ bus k, bus.tasks = [] → bus.consumer = none → shown bus k = []

theorem later_driverMessages : Later (CanBus.System.driverMessages (w := w)) := by
  intro bus k tasks idle
  cases k <;> first | rfl | simp [CanBus.System.driverMessages, tasks]

theorem later_acceptedFrames : Later (CanBus.System.acceptedFrames (w := w)) := by
  intro bus k tasks idle
  cases k <;> first | rfl | simp [CanBus.System.acceptedFrames, tasks]

theorem later_returnedFrames : Later (CanBus.System.returnedFrames (w := w)) := by
  intro bus k tasks idle
  cases k <;> first | rfl | simp [CanBus.System.returnedFrames, CanBus.System.received, idle]

/-- The acquisition of a run of the bench, as a run of its bus. -/
structure Acquires (tickRate : ℕ) (ks : List Choice) (s : Bench w) : Prop where
  created : s.Created
  acquisition : ∃ before start first ls,
    exec (guarded CanBus.System.apart CanBus.System.next) ({} : CanBus.System w) before =
      some start ∧
    CanBus.System.Begins configuration start first ∧
    exec (guarded CanBus.System.withinAcquisition CanBus.System.next) first ls = some s.bus ∧
    ∀ {ε : Type} (shown : CanBus.System w → CanBus.Choice → List ε), Later shown →
      trace (guarded CanBus.System.withinAcquisition CanBus.System.next) shown first ls =
        trace (Bench.next tickRate) (onBus shown) {} ks

theorem trace_busMove {ε : Type}
    (next' : CanBus.System w → CanBus.Choice → Option (CanBus.System w))
    (shown : CanBus.System w → CanBus.Choice → List ε) (s : Bench w) (k : Choice) :
    trace next' shown s.bus (s.busMove? k).toList = onBus shown s k := by
  unfold onBus
  cases s.busMove? k with
  | none => rfl
  | some k' => exact trace_single shown _ k'

theorem Acquires.next (h : Acquires tickRate ks s) (linked : s.Linked)
    (run : exec (Bench.next tickRate) ({} : Bench w) ks = some s)
    (step : s.next tickRate k = some t) : Acquires tickRate (ks ++ [k]) t := by
  obtain ⟨created, before, start, first, ls, reaches, begins, acquires, same⟩ := h
  obtain ⟨created, moved⟩ := created.next linked step
  refine ⟨created, before, start, first, ls ++ (s.busMove? k).toList, reaches, begins,
    exec_trans acquires moved, ?_⟩
  intro ε shown later
  rw [trace_append acquires, trace_concat run, same shown later, trace_busMove]

/-- The start() that creates its task is on its way to Ok. -/
theorem Created.of_creates (linked : s.Linked) (creates : s.creates k)
    (step : s.next tickRate k = some t) : k = .call true ∧ s.app.pc = some .starting ∧
      t.app = s.app ∧ t.Created ∧
      CanBus.System.Begins configuration s.bus t.bus := by
  cases k with
  | call ok =>
    cases ok with
    | false => exact creates.elim
    | true =>
      have creating : s.bus.calls = [.start configuration .createTask] := creates
      have moved := linked.step_bus step
      obtain ⟨bus, begins, rest⟩ := exec_cons_eq_some.mp moved
      obtain rfl := Option.some.inj rest
      obtain ⟨shared, control, hstep, after⟩ :=
        CanBus.System.next_call_single creating (guarded_eq_some.mp begins).2
      obtain ⟨inner, within, rfl⟩ := CanBus.CallPc.step_start hstep
      obtain ⟨rfl, rfl⟩ := Prod.mk.inj (Option.some.inj within)
      have starting : s.app.pc = some .starting := by
        have stands := linked.stands
        generalize s.app.pc = pc at stands
        cases stands with
        | starting inside idle granted => rfl
        | before fresh early => simp [fresh] at creating
        | receiving batchIndex pc inside free => simp [free] at creating
        | stopping inside idle => simp [inside] at creating
        | outside other free idle => simp [free] at creating
      have unheard : s.event? (.call true) = none := by
        simp only [event?, CanBus.System.returned, creating, List.getElem?_cons_zero,
          Option.bind_some, hstep]
        rfl
      refine ⟨rfl, starting, next_unheard step unheard, ⟨?_, ?_⟩, creating, begins⟩
      · intro c pc mem
        rw [after] at mem
        exact (CanBus.CallPc.start.inj (List.mem_singleton.mp mem)).2
      · rw [next_unheard step unheard, starting]
        simp
  | _ => exact creates.elim

theorem acquires_of_creates (linked : s.Linked)
    (run : exec (Bench.next tickRate) ({} : Bench w) ks = some s)
    (silent : ∀ {ε : Type} (shown : CanBus.System w → CanBus.Choice → List ε), Later shown →
      trace (Bench.next tickRate) (onBus shown) {} (ks ++ [k]) = [])
    (creates : s.creates k) (step : s.next tickRate k = some t) :
    Acquires tickRate (ks ++ [k]) t := by
  obtain ⟨-, -, -, created, begins⟩ := Created.of_creates linked creates step
  refine ⟨created, (contract tickRate).schedule {} ks, s.bus, t.bus, [],
    (contract tickRate).exec_schedule Linked.initial run, begins, rfl, ?_⟩
  intro ε shown later
  rw [silent shown later]
  rfl

/-- A run has had no task, or it is an acquisition from the creation of its task on. -/
theorem staged (run : exec (Bench.next tickRate) ({} : Bench w) ks = some s) :
    s.Linked ∧ ((s.Unstarted ∧ ∀ {ε : Type} (shown : CanBus.System w → CanBus.Choice → List ε),
      Later shown → trace (Bench.next tickRate) (onBus shown) {} ks = []) ∨
        Acquires tickRate ks s) := by
  refine exec_history (P := fun ks (s : Bench w) => s.Linked ∧ ((s.Unstarted ∧
    ∀ {ε : Type} (shown : CanBus.System w → CanBus.Choice → List ε),
      Later shown → trace (Bench.next tickRate) (onBus shown) {} ks = []) ∨
        Acquires tickRate ks s)) ⟨.initial, .inl ⟨.initial, fun _ _ => rfl⟩⟩ ?_ run
  rintro ks s k t run ⟨linked, stage⟩ step
  refine ⟨linked.next step, ?_⟩
  rcases stage with ⟨early, silent⟩ | acquires
  · have silent' {ε : Type} (shown : CanBus.System w → CanBus.Choice → List ε)
        (later : Later shown) :
        trace (Bench.next tickRate) (onBus shown) {} (ks ++ [k]) = [] := by
      rw [trace_concat run, silent shown later, List.nil_append]
      unfold onBus
      cases s.busMove? k with
      | none => rfl
      | some k' => exact later s.bus k' early.tasks (linked.consumer early)
    rcases early.next linked step with creates | early'
    · exact .inr (acquires_of_creates linked run silent' creates step)
    · exact .inl ⟨early', silent'⟩
  · exact .inr (acquires.next linked run step)

/-! ### The count -/

/-- The interval that a summary reports. -/
def reportedInterval (s : Bench w) (k : Choice) : BitVec 32 :=
  ((s.event? k).map s.app.reported).getD 0

theorem counts (run : exec (Bench.next tickRate) ({} : Bench w) ks = some s) :
    Counts (trace (Bench.next tickRate) countedFrames ({} : Bench w) ks)
      (total (Bench.next tickRate) reportedInterval ({} : Bench w) ks) s.app.locals := by
  have framesOf {s t : Bench w} {k : Choice} (_ : True) (_ : s.next tickRate k = some t) :
      trace (App.next tickRate) App.counted s.app (s.event? k).toList = s.countedFrames k := by
    unfold countedFrames
    cases s.event? k with
    | none => rfl
    | some event => exact trace_single _ _ _
  have intervalOf {s t : Bench w} {k : Choice} (_ : True) (_ : s.next tickRate k = some t) :
      total (App.next tickRate) App.reported s.app (s.event? k).toList = s.reportedInterval k := by
    unfold reportedInterval
    cases s.event? k with
    | none => rfl
    | some event => exact total_single _ _ _
  have frames := (appView (w := w) tickRate).trace_schedule framesOf trivial run
  have reported := (appView (w := w) tickRate).total_schedule intervalOf trivial run
  rw [← frames, ← reported]
  exact App.counts ((appView tickRate).exec_schedule trivial run)

theorem counted_eq (run : exec (Bench.next tickRate) ({} : Bench w) ks = some s) :
    trace (Bench.next tickRate) countedFrames ({} : Bench w) ks =
      trace (Bench.next tickRate) (onBus CanBus.System.returnedFrames) ({} : Bench w) ks := by
  refine exec_history (P := fun ks _ => trace (Bench.next tickRate) countedFrames ({} : Bench w) ks =
    trace (Bench.next tickRate) (onBus CanBus.System.returnedFrames) ({} : Bench w) ks) rfl ?_ run
  intro ks s k t run h step
  rw [trace_concat run, trace_concat run, h, (staged run).1.counted step]

/-- In every run of the bench receiver, whatever the driver and the board answer and however its
receive task moves between its steps: the frames that app_main counts are a prefix of those
that the task has queued, and these are, in order, some of the driver's valid messages with
the bus id of the bench. The counters, the summaries and the last metadata account for
exactly these frames, in their own widths. -/
theorem frames_counted (wide : 6 < w)
    (run : exec (Bench.next tickRate) ({} : Bench w) ks = some s) :
    let messages :=
      trace (Bench.next tickRate) (onBus CanBus.System.driverMessages) ({} : Bench w) ks
    let accepted :=
      trace (Bench.next tickRate) (onBus CanBus.System.acceptedFrames) ({} : Bench w) ks
    let counted := trace (Bench.next tickRate) countedFrames ({} : Bench w) ks
    counted <+: accepted ∧
      accepted.Sublist ((messages.map (CanBus.System.framed configuration.busId)).filter
        RawCanFrame.isValid) ∧
      s.app.locals.receivedCount = BitVec.ofNat 64 counted.length ∧
      total (Bench.next tickRate) reportedInterval ({} : Bench w) ks + s.app.locals.intervalCount =
        BitVec.ofNat 32 counted.length ∧
      s.app.locals.latest = (counted.getLast?.map metadataFrom).getD {} := by
  intro messages accepted counted
  obtain ⟨received, interval, latest⟩ := counts run
  have returned : counted =
      trace (Bench.next tickRate) (onBus CanBus.System.returnedFrames) ({} : Bench w) ks :=
    counted_eq run
  rcases (staged run).2 with
    ⟨-, silent⟩ | ⟨-, before, start, first, ls, reaches, begins, acquires, same⟩
  · have none : counted = [] := returned.trans (silent _ later_returnedFrames)
    have unqueued : accepted = [] := silent _ later_acceptedFrames
    refine ⟨?_, ?_, received, interval, latest⟩
    · rw [none]
      exact List.nil_prefix
    · rw [unqueued]
      exact List.nil_sublist _
  · obtain ⟨inOrder, fromDriver⟩ := CanBus.System.returned_of_driver wide reaches begins acquires
    rw [same _ later_returnedFrames, same _ later_acceptedFrames, ← returned] at inOrder
    rw [same _ later_acceptedFrames, same _ later_driverMessages] at fromDriver
    exact ⟨inOrder, fromDriver, received, interval, latest⟩

/-- The bench starts, its task queues a message, and app_main counts it. -/
def oneFrameRun : List Choice :=
  List.replicate 17 (.gpio true) ++ .enter :: List.replicate 36 (.call true) ++
    [.ticks 0, .bus (.task 0 {}),
      .bus (.task 0 { received := .message { identifier := 5, dataLengthCode := 2 } })] ++
    List.replicate 10 (.bus (.task 0 {})) ++ .enter :: List.replicate 8 (.receive true)

theorem frames_counted_one :
    let s := final (Bench.next 100) ({} : Bench 32) oneFrameRun
    s.app.locals.latest.identifier = 5 ∧ s.app.locals.receivedCount = 1 := by
  intro s
  have run : exec (Bench.next 100) ({} : Bench 32) oneFrameRun = some s :=
    exec_eq_final _ _ oneFrameRun (by decide)
  have one : (trace (Bench.next 100) countedFrames ({} : Bench 32) oneFrameRun).length = 1 := by
    decide
  obtain ⟨-, -, received, -, -⟩ := frames_counted (by decide) run
  rw [one] at received
  exact ⟨by decide, received⟩

end CanTelemetry.Tcan485Bench.Bench
