import CanTelemetry.Firmware.BenchBus
import Mathlib.Logic.Function.Basic

/-! The pins of the bench board over a whole run. The GPIO driver and the CAN driver belong to the
platform; what they do with the pins is a parameter, and so little is asked of it as their
documentation says. The boost converter is switched on only with the safe defaults in place,
start() is called only with the board fully set up, and app_main returns with the converter
switched off unless its last GPIO call has failed. From start() on the pins TX and RX are the
CAN driver's. Nothing is assumed of the pins before the run. -/

namespace CanTelemetry.Tcan485Bench

open Execution Threads VehicleCore

/-! ### The platform -/

/-- The pin that a call is about. -/
def GpioCall.pin : GpioCall → Pin
  | .resetPin pin | .setLevel pin _ | .setDirection pin _ => pin

/-- The pins of the platform: how each is directed and the level set for it, what a GPIO call
makes of them, whether or not it succeeds, and what the CAN driver does with them (`ι`). -/
structure Platform (π ι : Type*) where
  mode : π → Pin → Option GpioMode
  level : π → Pin → Bool
  gpio : π → GpioCall → Bool → π
  can : π → ι → π

variable {π ι : Type*}

namespace Platform

/-- A pin is as it was. -/
def Same (platform : Platform π ι) (pins pins' : π) (pin : Pin) : Prop :=
  platform.mode pins' pin = platform.mode pins pin ∧
    platform.level pins' pin = platform.level pins pin

/-- What the drivers promise: a call that succeeds sets the level or the direction of its pin; the
level that is set stays when the pin becomes an output; no call touches another pin; and the
CAN driver has the two pins that its configuration names. -/
structure Documented (platform : Platform π ι) : Prop where
  setLevel : ∀ pins pin level, platform.level (platform.gpio pins (.setLevel pin level) true) pin =
    level
  setDirection : ∀ pins pin mode,
    platform.mode (platform.gpio pins (.setDirection pin mode) true) pin = some mode
  keepsLevel : ∀ pins pin mode,
    platform.level (platform.gpio pins (.setDirection pin mode) true) pin = platform.level pins pin
  gpioOthers : ∀ pins call ok pin, pin ≠ GpioCall.pin call →
    platform.Same pins (platform.gpio pins call ok) pin
  canOthers : ∀ pins event pin, pin ≠ canTx → pin ≠ canRx →
    platform.Same pins (platform.can pins event) pin

/-- A pin drives a level. -/
def Drives (platform : Platform π ι) (pins : π) (pin : Pin) (level : Bool) : Prop :=
  platform.mode pins pin = some .output ∧ platform.level pins pin = level

/-- The pins that `initialize` sets before the boost converter. -/
structure Safe (platform : Platform π ι) (pins : π) : Prop where
  ledData : platform.Drives pins onboardLedData false
  tx : platform.Drives pins canTx true
  speedMode : platform.Drives pins canSpeedMode false
  rx : platform.mode pins canRx = some .input

structure Ready (platform : Platform π ι) (pins : π) : Prop extends platform.Safe pins where
  boost : platform.Drives pins sharedBoostEnable true

/-- What of it the CAN driver leaves alone. -/
structure Powered (platform : Platform π ι) (pins : π) : Prop where
  ledData : platform.Drives pins onboardLedData false
  speedMode : platform.Drives pins canSpeedMode false
  boost : platform.Drives pins sharedBoostEnable true

variable {platform : Platform π ι} {pins pins' : π} {pin : Pin} {level : Bool}

theorem Drives.of_same (h : platform.Drives pins pin level) (same : platform.Same pins pins' pin) :
    platform.Drives pins' pin level :=
  ⟨same.1.trans h.1, same.2.trans h.2⟩

theorem Ready.powered (h : platform.Ready pins) : platform.Powered pins :=
  ⟨h.ledData, h.speedMode, h.boost⟩

theorem Powered.can (h : platform.Powered pins) (documented : platform.Documented) (event : ι) :
    platform.Powered (platform.can pins event) where
  ledData := h.ledData.of_same (documented.canOthers _ _ _ (by decide) (by decide))
  speedMode := h.speedMode.of_same (documented.canOthers _ _ _ (by decide) (by decide))
  boost := h.boost.of_same (documented.canOthers _ _ _ (by decide) (by decide))

theorem Safe.gpio (h : platform.Safe pins) (documented : platform.Documented) {call : GpioCall}
    (boost : call.pin = sharedBoostEnable) (ok : Bool) :
    platform.Safe (platform.gpio pins call ok) where
  ledData := h.ledData.of_same (documented.gpioOthers _ _ _ _ (by rw [boost]; decide))
  tx := h.tx.of_same (documented.gpioOthers _ _ _ _ (by rw [boost]; decide))
  speedMode := h.speedMode.of_same (documented.gpioOthers _ _ _ _ (by rw [boost]; decide))
  rx := (documented.gpioOthers _ _ _ _ (by rw [boost]; decide)).1.trans h.rx

end Platform

/-! ### One call after the other -/

section Calls

variable {platform : Platform π ι} {pins : π}

namespace ConfigurePc

@[simp] theorem call_pin (pin : Pin) (level : Bool) (pc : ConfigurePc) :
    (pc.call pin level).pin = pin := by
  cases pc <;> rfl

/-- The level is set before the direction. -/
def Holds (platform : Platform π ι) (pins : π) (pin : Pin) (level : Bool) : ConfigurePc → Prop
  | .setDirection => platform.level pins pin = level
  | _ => True

/-- What `configure_output` does with a pin: it ends with the pin driven, or with its first call
that fails. -/
theorem step_holds (documented : platform.Documented) {pin : Pin} {level : Bool} {pc : ConfigurePc}
    (h : pc.Holds platform pins pin level) (ok : Bool) :
    (∀ pc', pc.step ok = .next pc' →
      ok = true ∧ pc'.Holds platform (platform.gpio pins (pc.call pin level) ok) pin level) ∧
    ∀ done, pc.step ok = .ret done → done = ok ∧
      (ok = true → platform.Drives (platform.gpio pins (pc.call pin level) ok) pin level) := by
  cases ok with
  | false => cases pc <;> simp [step]
  | true =>
    cases pc with
    | resetPin => simp [step, Holds]
    | setLevel =>
      refine ⟨?_, by simp [step]⟩
      rintro _ ⟨⟩
      exact ⟨rfl, documented.setLevel pins pin level⟩
    | setDirection =>
      refine ⟨by simp [step], ?_⟩
      rintro _ ⟨⟩
      exact ⟨rfl, fun _ => ⟨documented.setDirection pins pin .output,
        (documented.keepsLevel pins pin .output).trans h⟩⟩

end ConfigurePc

/-- No GPIO call has failed, and some pins have been configured. -/
structure Configured (platform : Platform π ι) (pins : π) (outputs : List (Pin × Bool))
    (results : List Bool) : Prop where
  clean : ∀ ok ∈ results, ok = true
  drives : ∀ p ∈ outputs, platform.Drives pins p.1 p.2

variable {outputs : List (Pin × Bool)} {results : List Bool}

theorem Configured.after (documented : platform.Documented)
    (h : Configured platform pins outputs results) (call : GpioCall)
    (other : ∀ p ∈ outputs, p.1 ≠ call.pin) {ok : Bool} (succeeds : ok = true) :
    Configured platform (platform.gpio pins call ok) outputs (results ++ [ok]) := by
  refine ⟨?_, fun p mem => (h.drives p mem).of_same
    (documented.gpioOthers pins call ok p.1 (other p mem))⟩
  intro ok' mem
  rcases List.mem_append.mp mem with old | new
  · exact h.clean ok' old
  · exact (List.mem_singleton.mp new).trans succeeds

/-- One more pin is configured by `configure_output`. -/
theorem Configured.step (documented : platform.Documented) {pin : Pin} {level sound : Bool}
    {pc : ConfigurePc} (holds : pc.Holds platform pins pin level)
    (h : sound = true → Configured platform pins outputs results)
    (other : ∀ p ∈ outputs, p.1 ≠ pin) (ok : Bool) :
    (∀ pc', pc.step ok = .next pc' →
      pc'.Holds platform (platform.gpio pins (pc.call pin level) ok) pin level ∧
        (sound = true → Configured platform (platform.gpio pins (pc.call pin level) ok) outputs
          (results ++ [ok]))) ∧
    ∀ done, pc.step ok = .ret done → (done && sound) = true →
      Configured platform (platform.gpio pins (pc.call pin level) ok) ((pin, level) :: outputs)
        (results ++ [ok]) := by
  obtain ⟨goesOn, ends⟩ := ConfigurePc.step_holds documented holds ok
  have kept (sure : sound = true) (succeeds : ok = true) :
      Configured platform (platform.gpio pins (pc.call pin level) ok) outputs (results ++ [ok]) :=
    (h sure).after documented _ (by simpa using other) succeeds
  refine ⟨?_, ?_⟩
  · intro pc' next
    obtain ⟨succeeds, holds'⟩ := goesOn pc' next
    exact ⟨holds', fun sure => kept sure succeeds⟩
  · intro done ret both
    obtain ⟨sureDone, sure⟩ := Bool.and_eq_true_iff.mp both
    obtain ⟨same, driven⟩ := ends done ret
    have succeeds := same.symm.trans sureDone
    obtain ⟨clean, drives⟩ := kept sure succeeds
    refine ⟨clean, ?_⟩
    intro p mem
    rcases List.mem_cons.mp mem with rfl | old
    · exact driven succeeds
    · exact drives p old

/-- The safe defaults that `initialize` has applied, the last one first. -/
def safeDefaults : List (Pin × Bool) :=
  [(canSpeedMode, false), (canTx, true), (onboardLedData, false), (sharedBoostEnable, false)]

/-- The pins of the safe defaults are pairwise distinct, and none of them is CAN RX. -/
theorem safeDefaults_apart :
    (safeDefaults.Pairwise fun p q => q.1 ≠ p.1) ∧ ∀ p ∈ safeDefaults, p.1 ≠ canRx := by
  simp [safeDefaults, canSpeedMode, canTx, canRx, onboardLedData, sharedBoostEnable]

/-- What is known of the pins at the points of `initialize`. -/
def InitializePc.Holds (platform : Platform π ι) (pins : π) (results : List Bool) :
    InitializePc → Prop
  | .boostOff pc =>
    pc.Holds platform pins sharedBoostEnable false ∧ Configured platform pins [] results
  | .ledData pc ok => pc.Holds platform pins onboardLedData false ∧
    (ok = true → Configured platform pins (safeDefaults.drop 3) results)
  | .canTx pc ok => pc.Holds platform pins Tcan485Bench.canTx true ∧
    (ok = true → Configured platform pins (safeDefaults.drop 2) results)
  | .canSpeedMode pc ok => pc.Holds platform pins Tcan485Bench.canSpeedMode false ∧
    (ok = true → Configured platform pins (safeDefaults.drop 1) results)
  | .resetRx ok | .directRx ok => ok = true → Configured platform pins safeDefaults results
  | .boostOn pc => pc.Holds platform pins sharedBoostEnable true ∧ platform.Safe pins ∧
    ∀ ok ∈ results, ok = true
  | .disable pc => pc.Holds platform pins sharedBoostEnable false

/-- The converter is off, or the last GPIO call has failed. -/
def Platform.Off (platform : Platform π ι) (pins : π) (results : List Bool) : Prop :=
  results.getLast? = some false ∨ platform.Drives pins sharedBoostEnable false

theorem ConfigurePc.Holds.disabled (documented : platform.Documented) {pc : ConfigurePc}
    (h : pc.Holds platform pins sharedBoostEnable false) (ok : Bool) {done : Bool}
    (ended : pc.step ok = .ret done) :
    platform.Off (platform.gpio pins (pc.call sharedBoostEnable false) ok) (results ++ [ok]) := by
  cases ok with
  | false => exact .inl List.getLast?_concat
  | true => exact .inr (((ConfigurePc.step_holds documented h true).2 done ended).2 rfl)

/-- `initialize` goes on inside a `configure_output`, or behind it. -/
theorem Configured.call (documented : platform.Documented) {pin : Pin} {level sound : Bool}
    {pc : ConfigurePc} (holds : pc.Holds platform pins pin level)
    (h : sound = true → Configured platform pins outputs results)
    (other : ∀ p ∈ outputs, p.1 ≠ pin) (ok : Bool)
    (embed : ConfigurePc → InitializePc) (next : Bool → InitializePc)
    (embedded : ∀ pins results pc, pc.Holds platform pins pin level →
      (sound = true → Configured platform pins outputs results) →
        (embed pc).Holds platform pins results)
    (resumed : ∀ pins results done,
      ((done && sound) = true → Configured platform pins ((pin, level) :: outputs) results) →
        (next done).Holds platform pins results) :
    ∃ pc', (pc.step ok).call embed (fun done => .next (next done)) =
        (.next pc' : Control InitializePc Bool) ∧
      pc'.Holds platform (platform.gpio pins (pc.call pin level) ok) (results ++ [ok]) := by
  obtain ⟨goesOn, ends⟩ := Configured.step documented holds h other ok
  cases inside : pc.step ok with
  | next pc' =>
    obtain ⟨holds', configured⟩ := goesOn pc' inside
    exact ⟨embed pc', rfl, embedded _ _ pc' holds' configured⟩
  | ret done => exact ⟨next done, rfl, resumed _ _ done (ends done inside)⟩

/-- What a step of `initialize` leaves behind. -/
theorem InitializePc.step_holds (documented : platform.Documented) {pc : InitializePc}
    (h : pc.Holds platform pins results) (ok : Bool) :
    (∀ pc', pc.step ok = .next pc' →
      pc'.Holds platform (platform.gpio pins pc.call ok) (results ++ [ok])) ∧
    (pc.step ok = .ret true → platform.Ready (platform.gpio pins pc.call ok) ∧
      ∀ ok' ∈ results ++ [ok], ok' = true) ∧
    (pc.step ok = .ret false → platform.Off (platform.gpio pins pc.call ok) (results ++ [ok])) := by
  have stays {pc' : InitializePc} (next : pc.step ok = .next pc')
      (holds : pc'.Holds platform (platform.gpio pins pc.call ok) (results ++ [ok])) :
      (∀ pc', pc.step ok = .next pc' →
        pc'.Holds platform (platform.gpio pins pc.call ok) (results ++ [ok])) ∧
      (pc.step ok = .ret true → platform.Ready (platform.gpio pins pc.call ok) ∧
        ∀ ok' ∈ results ++ [ok], ok' = true) ∧
      (pc.step ok = .ret false →
        platform.Off (platform.gpio pins pc.call ok) (results ++ [ok])) := by
    rw [next]
    refine ⟨?_, by simp, by simp⟩
    rintro _ ⟨⟩
    exact holds
  obtain ⟨distinct, receiver⟩ := safeDefaults_apart
  obtain ⟨speedMode, distinct⟩ := List.pairwise_cons.mp distinct
  obtain ⟨tx, distinct⟩ := List.pairwise_cons.mp distinct
  obtain ⟨ledData, -⟩ := List.pairwise_cons.mp distinct
  cases pc with
  | boostOff pc =>
    obtain ⟨holds, configured⟩ := h
    have sure : true = true → Configured platform pins [] results := fun _ => configured
    obtain ⟨pc', next, holds'⟩ := Configured.call documented holds sure (by simp) ok
      .boostOff (.ledData .resetPin)
      (fun _ _ _ holds configured => ⟨holds, configured rfl⟩)
      (fun _ _ done configured => ⟨trivial, fun sure => configured (by simp [sure])⟩)
    exact stays next holds'
  | ledData pc sound =>
    obtain ⟨holds, configured⟩ := h
    obtain ⟨pc', next, holds'⟩ := Configured.call documented holds configured ledData ok
      (.ledData · sound) (fun done => .canTx .resetPin (done && sound))
      (fun _ _ _ holds configured => ⟨holds, configured⟩)
      (fun _ _ _ configured => ⟨trivial, configured⟩)
    exact stays next holds'
  | canTx pc sound =>
    obtain ⟨holds, configured⟩ := h
    obtain ⟨pc', next, holds'⟩ := Configured.call documented holds configured tx ok
      (.canTx · sound) (fun done => .canSpeedMode .resetPin (done && sound))
      (fun _ _ _ holds configured => ⟨holds, configured⟩)
      (fun _ _ _ configured => ⟨trivial, configured⟩)
    exact stays next holds'
  | canSpeedMode pc sound =>
    obtain ⟨holds, configured⟩ := h
    obtain ⟨pc', next, holds'⟩ := Configured.call documented holds configured speedMode ok
      (.canSpeedMode · sound) (fun done => .resetRx (done && sound))
      (fun _ _ _ holds configured => ⟨holds, configured⟩) (fun _ _ _ configured => configured)
    exact stays next holds'
  | resetRx sound =>
    refine stays rfl ?_
    intro both
    obtain ⟨succeeds, sure⟩ := Bool.and_eq_true_iff.mp both
    exact (h sure).after documented (.resetPin canRx) receiver succeeds
  | directRx sound =>
    cases both : ok && sound with
    | false =>
      have next : (directRx sound).step ok = .next (.disable .resetPin) := by simp [step, both]
      exact stays next trivial
    | true =>
      have next : (directRx sound).step ok = .next (.boostOn .resetPin) := by simp [step, both]
      obtain ⟨rfl, sure⟩ := Bool.and_eq_true_iff.mp both
      obtain ⟨clean, drives⟩ :=
        (h sure).after documented (.setDirection canRx .input) receiver rfl
      exact stays next ⟨trivial,
        ⟨drives (onboardLedData, false) (by simp [safeDefaults]),
          drives (Tcan485Bench.canTx, true) (by simp [safeDefaults]),
          drives (Tcan485Bench.canSpeedMode, false) (by simp [safeDefaults]),
          documented.setDirection pins canRx .input⟩, clean⟩
  | boostOn pc =>
    obtain ⟨holds, safe, clean⟩ := h
    obtain ⟨goesOn, ends⟩ := ConfigurePc.step_holds documented holds ok
    have safe' := safe.gpio documented (ConfigurePc.call_pin sharedBoostEnable true pc) ok
    have clean' (succeeds : ok = true) : ∀ ok' ∈ results ++ [ok], ok' = true := by
      intro ok' mem
      rcases List.mem_append.mp mem with old | new
      · exact clean ok' old
      · exact (List.mem_singleton.mp new).trans succeeds
    cases inside : pc.step ok with
    | next pc' =>
      have next : (boostOn pc).step ok = .next (.boostOn pc') := by simp [step, inside]
      obtain ⟨succeeds, holds'⟩ := goesOn pc' inside
      exact stays next ⟨holds', safe', clean' succeeds⟩
    | ret done =>
      obtain ⟨rfl, driven⟩ := ends done inside
      cases done with
      | false =>
        have next : (boostOn pc).step false = .next (.disable .resetPin) := by simp [step, inside]
        exact stays next trivial
      | true =>
        have returned : (boostOn pc).step true = .ret true := by simp [step, inside]
        rw [returned]
        exact ⟨by simp, fun _ => ⟨⟨safe', driven rfl⟩, clean' rfl⟩, by simp⟩
  | disable pc =>
    simp only [InitializePc.step]
    cases inside : pc.step ok with
    | next pc' =>
      refine ⟨?_, by simp, by simp⟩
      rintro _ ⟨⟩
      exact ((ConfigurePc.step_holds documented h ok).1 pc' inside).2
    | ret done =>
      refine ⟨by simp, by simp, fun _ => ?_⟩
      exact ConfigurePc.Holds.disabled documented h ok inside

end Calls

/-! ### Over a run -/

/-- The results of the GPIO calls. -/
def gpioResults : Bench.Choice → List Bool
  | .gpio ok => [ok]
  | _ => []

/-- What is known of the pins at the points of app_main. -/
def AppPc.Holds (platform : Platform π ι) (pins : π) (results : List Bool) : AppPc → Prop
  | .initializing pc => pc.Holds platform pins results
  | .start => platform.Ready pins ∧ ∀ ok ∈ results, ok = true
  | .disable pc _ => pc.Holds platform pins sharedBoostEnable false
  | _ => platform.Powered pins ∧ ∀ ok ∈ results, ok = true

/-- The bench and its pins. -/
structure Wiring (w : ℕ) (π : Type*) where
  bench : Bench w := {}
  pins : π

/-- start() has not begun. -/
def AppPc.early : AppPc → Bool
  | .initializing _ | .start => true
  | _ => false

section Steps

variable {platform : Platform π ι} {pins : π} {results : List Bool} {pc : AppPc}

/-- What the CAN driver does with its pins is of no account once start() has begun. -/
theorem AppPc.Holds.can (documented : platform.Documented) (h : pc.Holds platform pins results)
    (late : pc.early = false) (event : ι) : pc.Holds platform (platform.can pins event) results := by
  have boost := documented.canOthers pins event sharedBoostEnable (by decide) (by decide)
  cases pc with
  | initializing pc | start => cases late
  | disable pc started =>
    cases pc with
    | setDirection => exact boost.2.trans h
    | _ => trivial
  | _ => exact ⟨h.1.can documented event, h.2⟩

theorem Platform.Off.can (documented : platform.Documented) (h : platform.Off pins results)
    (event : ι) : platform.Off (platform.can pins event) results :=
  h.imp_right (·.of_same (documented.canOthers pins event _ (by decide) (by decide)))

/-- Apart from its GPIO calls, app_main goes on with what it knows of the pins. -/
theorem AppPc.Steps.holds {period : BitVec 32} {locals locals' : Locals} {event : Event}
    {control : Control AppPc Unit} (steps : pc.Steps period locals event locals' control)
    (other : ∀ ok, event ≠ .gpio ok) (h : pc.Holds platform pins results) :
    ∃ pc', control = .next pc' ∧ pc'.early = false ∧ pc'.Holds platform pins results := by
  cases steps with
  | initializing inside | initialized inside | disabling inside | disabled inside =>
    exact absurd rfl (other _)
  | start => exact ⟨_, rfl, rfl, h.1.powered, h.2⟩
  | notStarted failed => exact ⟨_, rfl, rfl, trivial⟩
  | stopped result => exact ⟨_, rfl, rfl, trivial⟩
  | count batchIndex frame =>
    refine ⟨_, rfl, ?_⟩
    rcases AppPc.batch_cases (batchIndex + 1) with ⟨same, -⟩ | ⟨same, -⟩ <;> rw [same] <;>
      exact ⟨rfl, h⟩
  | _ => exact ⟨_, rfl, rfl, h⟩

end Steps

namespace Wiring

variable {w tickRate : ℕ} {platform : Platform π ι} {s t : Wiring w π} {k : Bench.Choice × ι}
  {ks : List (Bench.Choice × ι)} {results : List Bool}

/-- start() has not begun. -/
def early (s : Wiring w π) : Bool := s.bench.app.pc.any AppPc.early

/-- The pins after the GPIO call that app_main makes at a step. -/
def called (platform : Platform π ι) (s : Wiring w π) : Bench.Choice → π
  | .gpio ok => ((s.bench.app.pc.bind AppPc.gpio?).map (platform.gpio s.pins · ok)).getD s.pins
  | _ => s.pins

/-- The bench moves. From start() on the CAN driver may do something with its pins meanwhile. -/
def next (platform : Platform π ι) (tickRate : ℕ) (s : Wiring w π) (k : Bench.Choice × ι) :
    Option (Wiring w π) :=
  (s.bench.next tickRate k.1).map fun bench =>
    { bench := bench
      pins := if s.early then s.called platform k.1 else platform.can (s.called platform k.1) k.2 }

/-- The pins are as app_main takes them to be. -/
structure Wired (platform : Platform π ι) (results : List Bool) (s : Wiring w π) : Prop where
  holds : ∀ pc ∈ s.bench.app.pc, pc.Holds platform s.pins results
  off : s.bench.app.pc = none → platform.Off s.pins results

theorem Wired.gpio (documented : platform.Documented) (h : s.Wired platform results) {ok : Bool}
    {event : ι} (step : s.next platform tickRate (.gpio ok, event) = some t) :
    t.Wired platform (results ++ [ok]) := by
  obtain ⟨bench, moved, rfl⟩ := Option.map_eq_some_iff.mp step
  obtain ⟨pc, control, at_pc, inside, left⟩ := App.next_step (Bench.next_hears moved rfl)
  have holds := h.holds pc at_pc
  cases pc with
  | initializing pc =>
    obtain ⟨-, rfl⟩ := Prod.mk.inj (Option.some.inj inside)
    have early : s.early = true := by rw [Wiring.early, at_pc]; rfl
    have called : s.called platform (.gpio ok) = platform.gpio s.pins pc.call ok := by
      rw [Wiring.called, at_pc]; rfl
    simp only [early, called, if_true]
    obtain ⟨goesOn, ready, fails⟩ := InitializePc.step_holds documented holds ok
    cases ended : pc.step ok with
    | next pc' =>
      rw [ended] at left
      refine ⟨?_, by simp [left]⟩
      rw [left]
      rintro _ ⟨⟩
      exact goesOn pc' ended
    | ret done =>
      rw [ended] at left
      cases done with
      | true =>
        refine ⟨?_, by simp [left]⟩
        rw [left]
        rintro _ ⟨⟩
        exact ready ended
      | false =>
        refine ⟨by simp [left], fun _ => ?_⟩
        exact fails ended
  | disable pc started =>
    obtain ⟨-, rfl⟩ := Prod.mk.inj (Option.some.inj inside)
    have early : s.early = false := by rw [Wiring.early, at_pc]; rfl
    have called : s.called platform (.gpio ok) =
        platform.gpio s.pins (pc.call sharedBoostEnable false) ok := by
      rw [Wiring.called, at_pc]; rfl
    simp only [early, called, Bool.false_eq_true, if_false]
    cases ended : pc.step ok with
    | next pc' =>
      rw [ended] at left
      refine ⟨?_, by simp [left]⟩
      rw [left]
      rintro _ ⟨⟩
      have goesOn : (AppPc.disable pc' started).Holds platform
          (platform.gpio s.pins (pc.call sharedBoostEnable false) ok) (results ++ [ok]) :=
        ((ConfigurePc.step_holds documented holds ok).1 pc' ended).2
      exact goesOn.can documented rfl event
    | ret done =>
      rw [ended] at left
      refine ⟨by simp [left], fun _ => ?_⟩
      exact (ConfigurePc.Holds.disabled documented holds ok ended).can documented event
  | _ => cases inside

/-- The other steps leave the pins to the CAN driver. -/
theorem Wired.other (documented : platform.Documented) (h : s.Wired platform results)
    (step : s.next platform tickRate k = some t) (other : ∀ ok, k.1 ≠ .gpio ok) :
    t.Wired platform results := by
  obtain ⟨choice, event⟩ := k
  obtain ⟨bench, moved, rfl⟩ := Option.map_eq_some_iff.mp step
  have same : s.called platform choice = s.pins := by
    cases choice with
    | gpio ok => exact absurd rfl (other ok)
    | _ => rfl
  -- what is known before the CAN driver gets to its pins
  have goesOn : (∀ pc' ∈ bench.app.pc, pc'.Holds platform s.pins results ∧
      (s.early = false → pc'.early = false)) ∧
      (bench.app.pc = none → platform.Off s.pins results) := by
    cases hears : s.bench.event? choice with
    | none =>
      rw [Bench.next_unheard moved hears]
      refine ⟨fun pc' at_pc => ⟨h.holds pc' at_pc, fun late => ?_⟩, h.off⟩
      rw [Option.mem_def] at at_pc
      rw [early, at_pc] at late
      exact late
    | some heard =>
      have apart : ∀ ok, heard ≠ .gpio ok := by
        rintro ok rfl
        cases choice with
        | gpio ok => exact absurd rfl (other ok)
        | call ok =>
          obtain ⟨value, -, same⟩ := Option.map_eq_some_iff.mp hears
          unfold Bench.answer at same
          split at same <;> cases same
        | receive granted =>
          obtain ⟨value, -, same⟩ := Option.map_eq_some_iff.mp hears
          cases same
        | _ => cases hears
      obtain ⟨pc, control, at_pc, inside, left⟩ := App.next_step (Bench.next_hears moved hears)
      obtain ⟨pc', rfl, late, holds⟩ :=
        (AppPc.step_cases inside).holds apart (h.holds pc at_pc)
      rw [left]
      refine ⟨?_, by simp⟩
      rintro _ ⟨⟩
      exact ⟨holds, fun _ => late⟩
  obtain ⟨holds, off⟩ := goesOn
  simp only [same]
  cases begun : s.early with
  | true => exact ⟨fun pc' at_pc => (holds pc' at_pc).1, off⟩
  | false =>
    refine ⟨fun pc' at_pc => ?_, fun returned => (off returned).can documented event⟩
    obtain ⟨known, late⟩ := holds pc' at_pc
    exact known.can documented (late begun) event

theorem Wired.next (documented : platform.Documented) (h : s.Wired platform results)
    (step : s.next platform tickRate k = some t) :
    t.Wired platform (results ++ gpioResults k.1) := by
  obtain ⟨choice, event⟩ := k
  cases choice with
  | gpio ok => exact h.gpio documented step
  | _ =>
    show t.Wired platform (results ++ [])
    rw [List.append_nil]
    exact h.other documented step (by simp)

/-- In every run of the bench receiver, whatever the GPIO calls answer and whatever the CAN driver
does with its pins: the level that switches the boost converter on is set only with the safe
defaults in place; start() is called with the board fully set up; while app_main is in a call
of can_bus the converter is on, the pins that the CAN driver does not have are as they should
be, and every GPIO call so far has succeeded; and when app_main has returned, the converter is
driven off, or the last GPIO call has failed. -/
theorem board_safe (documented : platform.Documented) {pins : π}
    (run : exec (Wiring.next platform tickRate) ({ pins := pins } : Wiring w π) ks = some s) :
    let results := ks.flatMap fun k => gpioResults k.1
    (s.bench.app.pc.bind AppPc.gpio? = some (.setLevel sharedBoostEnable true) →
        platform.Safe s.pins) ∧
      (s.bench.app.pc = some .start → platform.Ready s.pins ∧ ∀ ok ∈ results, ok = true) ∧
      (s.bench.bus.calls ≠ [] ∨ s.bench.bus.consumer ≠ none →
        platform.Powered s.pins ∧ ∀ ok ∈ results, ok = true) ∧
      (s.bench.app.pc = none → platform.Off s.pins results) := by
  intro results
  obtain ⟨linked, wired⟩ : s.bench.Linked ∧ s.Wired platform results := by
    refine exec_history (P := fun ks (s : Wiring w π) => s.bench.Linked ∧
      s.Wired platform (ks.flatMap fun k => gpioResults k.1)) ?_ ?_ run
    · refine ⟨.initial, ?_, by simp⟩
      rintro _ ⟨⟩
      exact ⟨trivial, by simp, by simp⟩
    · rintro ks s k t run ⟨linked, wired⟩ step
      obtain ⟨bench, moved, same⟩ := Option.map_eq_some_iff.mp step
      rw [List.flatMap_append, List.flatMap_singleton]
      refine ⟨?_, wired.next documented step⟩
      rw [← same]
      exact linked.next moved
  refine ⟨?_, wired.holds .start, ?_, wired.off⟩
  · intro asks
    obtain ⟨pc, at_pc, asks⟩ := Option.bind_eq_some_iff.mp asks
    have holds := wired.holds pc at_pc
    cases pc with
    | initializing pc =>
      cases pc with
      | boostOn pc => exact holds.2.1
      | boostOff pc | ledData pc ok | canTx pc ok | canSpeedMode pc ok | disable pc =>
        cases pc <;> cases asks
      | _ => cases asks
    | disable pc started => cases pc <;> cases asks
    | _ => cases asks
  · intro inside
    have stands := linked.stands
    have holds := wired.holds
    generalize s.bench.app.pc = at_pc at stands holds
    cases stands with
    | before fresh early => simp [fresh] at inside
    | outside other free idle => simp [free, idle] at inside
    | starting inside' idle granted => exact holds _ rfl
    | receiving batchIndex pc inside' idle => exact holds _ rfl
    | stopping inside' idle => exact holds _ rfl

end Wiring

/-- A pin as the calls on it have left it. -/
structure PinState where
  mode : Option GpioMode := none
  level : Bool := false
  deriving DecidableEq

/-- A call that fails does nothing; the controller drives TX and listens on RX. -/
def esp32 : Platform (Pin → PinState) Bool where
  mode pins pin := (pins pin).mode
  level pins pin := (pins pin).level
  gpio pins
    | .resetPin pin, true => Function.update pins pin { pins pin with mode := none }
    | .setLevel pin level, true => Function.update pins pin { pins pin with level := level }
    | .setDirection pin mode, true => Function.update pins pin { pins pin with mode := some mode }
    | _, false => pins
  can pins level :=
    Function.update (Function.update pins canTx { mode := some .output, level := level }) canRx
      { mode := some .input }

theorem esp32_documented : esp32.Documented where
  setLevel _ _ _ := by simp [esp32]
  setDirection _ _ _ := by simp [esp32]
  keepsLevel _ _ _ := by simp [esp32]
  gpioOthers pins call ok pin other := by
    cases call <;> cases ok <;>
      first | exact ⟨rfl, rfl⟩ | simp_all [esp32, Platform.Same, GpioCall.pin]
  canOthers pins event pin notTx notRx := by
    simp [esp32, Platform.Same, Function.update_of_ne notTx, Function.update_of_ne notRx]

/-- The board is set up, and start() is under way. -/
def startingRun : List Bench.Choice :=
  List.replicate 17 (.gpio true) ++ .enter :: List.replicate 30 (.call true)

/-- start() has been called, and the controller pulls TX low. -/
theorem board_safe_started :
    let ks := startingRun.map fun k => (k, false)
    let s := final (Wiring.next esp32 100) ({ pins := fun _ => {} } : Wiring 32 _) ks
    s.bench.bus.calls.length = 1 ∧ esp32.Drives s.pins canTx false ∧
      esp32.Drives s.pins sharedBoostEnable true := by
  intro ks s
  have run : exec (Wiring.next esp32 100) ({ pins := fun _ => {} } : Wiring 32 _) ks = some s :=
    exec_eq_final _ _ ks (by decide)
  have one : s.bench.bus.calls.length = 1 := by decide
  have busy : s.bench.bus.calls ≠ [] ∨ s.bench.bus.consumer ≠ none :=
    .inl (List.ne_nil_of_length_pos (by rw [one]; exact Nat.one_pos))
  obtain ⟨powered, -⟩ := (Wiring.board_safe esp32_documented run).2.2.1 busy
  exact ⟨one, ⟨by decide, by decide⟩, powered.boost⟩

end CanTelemetry.Tcan485Bench
