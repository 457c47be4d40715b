import WireSentinel.Queue.Sections
import WireSentinel.Queue.Threads

/-!
# The threads come to rest

At the queues no thread spins: a turn of a loop is paid for by a frame, or by a
wakeup. And no thread is stuck: when nothing comes in any more, the threads go
on until the raw queue is empty, whatever the order they are scheduled in. What
`routine_payload` does on the network between two batches is not part of
this: it is taken to return.
-/

namespace WireSentinel

-- ---------------------------------------------------------------------------
-- What a step of the capture thread does
-- ---------------------------------------------------------------------------

/-- The steps of the loop of `main`, one by one. -/
inductive CaptureMove (turn : Turn) (s : Threads) : Threads → Prop
  | received (hpc : s.capture = .recvfrom) (hpos : turn.bytesRecived > 0) :
      CaptureMove turn s { s with capture := .lock turn.buffer turn.bytesRecived }
  | nothing (hpc : s.capture = .recvfrom) : CaptureMove turn s { s with capture := .due }
  | locked (buffer : Content) (bytesRecived : Int) (hpc : s.capture = .lock buffer bytesRecived)
      (hfree : s.monitor.owner = none) :
      CaptureMove turn s { s with
        monitor := { s.monitor with owner := some .capture }
        capture := .addItem buffer bytesRecived }
  | added (buffer : Content) (bytesRecived : Int) (pipeline : Pipeline)
      (hpc : s.capture = .addItem buffer bytesRecived)
      (hp : s.pipeline.capture turn.hint turn.junk buffer bytesRecived = .ok pipeline) :
      CaptureMove turn s { s with pipeline, capture := .unlock }
  | unlocked (hpc : s.capture = .unlock) (howner : s.monitor.owner = some .capture) :
      CaptureMove turn s { s with
        monitor := { s.monitor with owner := none }
        capture := .signal }
  | signalled (monitor : Monitor Role Cond) (hpc : s.capture = .signal)
      (hm : s.monitor.signal .condProcessing turn.woken = some monitor) :
      CaptureMove turn s { s with monitor, capture := .due }
  | due (hpc : s.capture = .due) (hdue : turn.due = true) :
      CaptureMove turn s { s with capture := .lockTest }
  | notDue (hpc : s.capture = .due) (hdue : turn.due = false) :
      CaptureMove turn s { s with capture := .recvfrom }
  | lockedTest (hpc : s.capture = .lockTest) (hfree : s.monitor.owner = none) :
      CaptureMove turn s { s with
        monitor := { s.monitor with owner := some .capture }
        capture := .unlockTest }
  | unlockedTest (hpc : s.capture = .unlockTest) (howner : s.monitor.owner = some .capture) :
      CaptureMove turn s { s with
        monitor := { s.monitor with owner := none }
        capture := .signalPayload }
  | signalledPayload (monitor : Monitor Role Cond) (hpc : s.capture = .signalPayload)
      (hm : s.monitor.signal .condPayload turn.woken = some monitor) :
      CaptureMove turn s { s with monitor, capture := .recvfrom }

theorem captureStep_move {turn : Turn} {s s' : Threads} (h : captureStep turn s = some s') :
    CaptureMove turn s s' := by
  unfold captureStep at h
  split at h
  · split at h <;> cases h
    · exact .received ‹_› ‹_›
    · exact .nothing ‹_›
  · obtain ⟨monitor, hm, rfl⟩ := Option.map_eq_some_iff.mp h
    obtain ⟨hfree, rfl⟩ := Monitor.lock_ok.mp hm
    exact .locked _ _ ‹_› hfree
  · split at h <;> cases h
    exact .added _ _ _ ‹_› ‹_›
  · obtain ⟨monitor, hm, rfl⟩ := Option.map_eq_some_iff.mp h
    obtain ⟨howner, rfl⟩ := Monitor.unlock_ok.mp hm
    exact .unlocked ‹_› howner
  · obtain ⟨monitor, hm, rfl⟩ := Option.map_eq_some_iff.mp h
    exact .signalled monitor ‹_› hm
  · cases h
    cases hdue : turn.due with
    | true => exact .due ‹_› hdue
    | false => exact .notDue ‹_› hdue
  · obtain ⟨monitor, hm, rfl⟩ := Option.map_eq_some_iff.mp h
    obtain ⟨hfree, rfl⟩ := Monitor.lock_ok.mp hm
    exact .lockedTest ‹_› hfree
  · obtain ⟨monitor, hm, rfl⟩ := Option.map_eq_some_iff.mp h
    obtain ⟨howner, rfl⟩ := Monitor.unlock_ok.mp hm
    exact .unlockedTest ‹_› howner
  · obtain ⟨monitor, hm, rfl⟩ := Option.map_eq_some_iff.mp h
    exact .signalledPayload monitor ‹_› hm

-- ---------------------------------------------------------------------------
-- What else is known of the threads
-- ---------------------------------------------------------------------------

/-- Whoever owns the mutex is in a section, and takes only where there is
something to take; `routine_payload` waits only where there is nothing. -/
structure Threads.Sound (s : Threads) : Prop where
  inv : s.Inv
  pipeline : s.pipeline.Inv
  held : s.monitor.Held s.Inside
  raw : s.processing = .take → s.pipeline.raw.quantity ≠ 0
  packets : s.payload = .take → s.pipeline.packets.inicio ≠ none
  nothing : s.payload = .wait → s.pipeline.packets.inicio = none

section Loop

variable {role : Role} {cond : Cond} {empty : Bool} {work : Except Fault Pipeline}
  {monitor monitor' : Monitor Role Cond} {pipeline pipeline' : Pipeline} {pc pc' : LoopPc}

theorem LoopStep.take_inv
    (h : LoopStep role cond empty work monitor pipeline pc monitor' pipeline' .take) :
    empty = false ∧ pipeline' = pipeline := by
  cases h with
  | found hempty => exact ⟨hempty, rfl⟩

theorem LoopStep.took_inv
    (h : LoopStep role cond empty work monitor pipeline pc monitor' pipeline' pc') :
    pipeline' = pipeline ∨ pc = .take := by
  cases h with
  | took => exact .inr rfl
  | _ => exact .inl rfl

theorem LoopStep.held {inside inside' : Role → Prop}
    (h : LoopStep role cond empty work monitor pipeline pc monitor' pipeline' pc')
    (hheld : monitor.Held inside) (hpc' : pc'.Locked → inside' role)
    (hothers : ∀ u, u ≠ role → inside u → inside' u) : monitor'.Held inside' := by
  have hstay : pc'.Locked → ∀ u, inside u → inside' u := by
    intro hlocked u hu
    by_cases hrole : u = role
    · exact hrole ▸ hpc' hlocked
    · exact hothers u hrole hu
  cases h with
  | locked hfree => exact .enter rfl (hpc' trivial)
  | idle => exact hheld.stay rfl (hstay trivial)
  | found => exact hheld.stay rfl (hstay trivial)
  | slept howner => exact .leave rfl
  | resumed hawake hfree => exact .enter rfl (hpc' trivial)
  | took => exact hheld.stay rfl (hstay trivial)
  | unlocked howner => exact .leave rfl

end Loop

variable {s s' : Threads} {turn : Turn} {choice : Choice}

theorem CaptureMove.held (h : CaptureMove turn s s') (hs : s.monitor.Held s.Inside) :
    s'.monitor.Held s'.Inside := by
  have hstay : ¬ s.Inside .capture → s'.processing = s.processing → s'.payload = s.payload →
      ∀ u, s.Inside u → s'.Inside u := by
    rintro hout hprocessing hpayload (_ | _ | _) hu
    · exact absurd hu hout
    · simpa [Threads.Inside, hprocessing] using hu
    · simpa [Threads.Inside, hpayload] using hu
  cases h with
  | received hpc | nothing hpc =>
    exact hs.stay rfl (hstay (by simp [Threads.Inside, hpc, CapturePc.Locked]) rfl rfl)
  | due hpc | notDue hpc =>
    exact hs.stay rfl (hstay (by simp [Threads.Inside, hpc, CapturePc.Locked]) rfl rfl)
  | locked | lockedTest => exact .enter rfl trivial
  | unlocked | unlockedTest => exact .leave rfl
  | added buffer bytesRecived pipeline hpc hp =>
    refine hs.stay rfl ?_
    rintro (_ | _ | _) hu
    · trivial
    · exact hu
    · exact hu
  | signalled monitor hpc hm | signalledPayload monitor hpc hm =>
    exact hs.stay (Monitor.signal_spec hm).1
      (hstay (by simp [Threads.Inside, hpc, CapturePc.Locked]) rfl rfl)

theorem Threads.Sound.start : Threads.Sound {} := by
  refine ⟨.start, pipeline_start, fun r h => ?_, by simp, by simp, by simp⟩
  cases h

/-- While a thread is in its section, the others are not. -/
theorem Threads.Sound.alone {r : Role} (hs : s.Sound) (hr : s.Inside r) :
    (s.processing.Locked → r = .processing) ∧ (s.payload.Locked → r = .payload) := by
  have hinside : ∀ u, s.Inside u → r = u := fun u hu => hs.inv.guards.exclusive hr hu
  exact ⟨hinside .processing, hinside .payload⟩

theorem Threads.Sound.capture (hs : s.Sound) (h : captureStep turn s = some s') : s'.Sound := by
  have hmove := captureStep_move h
  have hstep : s.step (.capture turn) = some s' := h
  have hpipeline := Threads.pipeline_inv hs.pipeline hstep
  have hinv := hs.inv.capture (captureStep_ok h)
  have hheld := hmove.held hs.held
  cases hmove with
  | added buffer bytesRecived pipeline hpc hp =>
    have hinside : s.Inside .capture := by simp [Threads.Inside, hpc, CapturePc.Locked]
    obtain ⟨hprocessing, hpayload⟩ := hs.alone hinside
    refine ⟨hinv, hpipeline, hheld, fun hpc' => ?_, fun hpc' => ?_, fun hpc' => ?_⟩
    · cases hprocessing (by simp [show s.processing = .take from hpc', LoopPc.Locked])
    · cases hpayload (by simp [show s.payload = .take from hpc', LoopPc.Locked])
    · cases hpayload (by simp [show s.payload = .wait from hpc', LoopPc.Locked])
  | _ => exact ⟨hinv, hpipeline, hheld, hs.raw, hs.packets, hs.nothing⟩

theorem Threads.Sound.processing (hs : s.Sound) (h : s.step (.processing turn) = some s') :
    s'.Sound := by
  have hpipeline := Threads.pipeline_inv hs.pipeline h
  have hinv := hs.inv.step h
  obtain ⟨⟨monitor, pipeline, pc⟩, hloop, rfl⟩ := Option.map_eq_some_iff.mp h
  have hstep := loopStep_ok hloop
  have hothers : ∀ u, u ≠ .processing → s.Inside u →
      Threads.Inside { s with monitor, pipeline, processing := pc } u := by
    rintro (_ | _ | _) hu hin
    · exact hin
    · exact absurd rfl hu
    · exact hin
  have hheld := hstep.held hs.held id hothers
  have hpayload : s.processing = .take → ¬ s.payload.Locked := by
    intro hpc hlocked
    cases (hs.alone (r := .processing) (by simp [Threads.Inside, hpc, LoopPc.Locked])).2 hlocked
  refine ⟨hinv, hpipeline, hheld, ?_, fun htake => ?_, fun hwait => ?_⟩
  · rintro rfl
    obtain ⟨hfound, rfl⟩ := hstep.take_inv
    exact of_decide_eq_false hfound
  · rcases hstep.took_inv with rfl | hpc
    · exact hs.packets htake
    · exact absurd (by simp [show s.payload = .take from htake, LoopPc.Locked]) (hpayload hpc)
  · rcases hstep.took_inv with rfl | hpc
    · exact hs.nothing hwait
    · exact absurd (by simp [show s.payload = .wait from hwait, LoopPc.Locked]) (hpayload hpc)

theorem Threads.Sound.payload (hs : s.Sound) (h : s.step .payload = some s') : s'.Sound := by
  have hpipeline := Threads.pipeline_inv hs.pipeline h
  have hinv := hs.inv.step h
  obtain ⟨⟨monitor, pipeline, pc⟩, hloop, rfl⟩ := Option.map_eq_some_iff.mp h
  have hstep := loopStep_ok hloop
  have hothers : ∀ u, u ≠ .payload → s.Inside u →
      Threads.Inside { s with monitor, pipeline, payload := pc } u := by
    rintro (_ | _ | _) hu hin
    · exact hin
    · exact hin
    · exact absurd rfl hu
  have hheld := hstep.held hs.held id hothers
  refine ⟨hinv, hpipeline, hheld, fun htake => ?_, ?_, ?_⟩
  · rcases hstep.took_inv with rfl | hpc
    · exact hs.raw htake
    · have hinside : s.Inside .payload := by simp [Threads.Inside, hpc, LoopPc.Locked]
      cases (hs.alone hinside).1 (by simp [show s.processing = .take from htake, LoopPc.Locked])
  · rintro rfl
    obtain ⟨hfound, rfl⟩ := hstep.take_inv
    exact of_decide_eq_false hfound
  · rintro rfl
    obtain ⟨hempty, rfl⟩ := hstep.wait_inv
    exact of_decide_eq_true hempty

theorem Threads.Sound.step (hs : s.Sound) (h : s.step choice = some s') : s'.Sound := by
  cases choice with
  | capture turn => exact hs.capture h
  | processing turn => exact hs.processing h
  | payload => exact hs.payload h
  | spurious role =>
    have hinv := hs.inv.step h
    simp only [Threads.step] at h
    split at h <;> cases h
    exact ⟨hinv, hs.pipeline, hs.held, hs.raw, hs.packets, hs.nothing⟩

theorem Threads.Sound.keeps {choices : List Choice} (hs : s.Sound)
    (h : run Threads.step s choices = some s') : s'.Sound :=
  run_keeps (fun _ _ _ hstep hs => hs.step hstep) hs h

/-- The raw queue respects its bound, and is where a frame is taken from. -/
theorem Threads.Sound.raw_bounds (hs : s.Sound) :
    0 ≤ s.pipeline.raw.quantity ∧ s.pipeline.raw.quantity ≤ 1000 ∧
      (s.processing = .take → 0 < s.pipeline.raw.quantity) := by
  obtain ⟨raw, packets, hraw, -⟩ := hs.pipeline
  have hquantity := hraw.quantity_eq
  have hle := hraw.le
  refine ⟨by omega, by omega, fun htake => ?_⟩
  have hne := hs.raw htake
  omega

-- ---------------------------------------------------------------------------
-- Work
-- ---------------------------------------------------------------------------

/-- How many steps it takes the capture thread to get back to `recvfrom`,
with those it makes the others take. -/
def CapturePc.weight : CapturePc → Nat
  | .recvfrom => 0
  | .signalPayload => 4
  | .unlockTest => 5
  | .lockTest => 6
  | .due => 7
  | .signal => 11
  | .unlock => 12
  | .addItem .. => 21
  | .lock .. => 22

/-- How many steps it takes a loop to go to sleep, but for what it takes from
its list. -/
def LoopPc.weight (asleep : Bool) : LoopPc → Nat
  | .waiting => if asleep then 0 else 3
  | .wait | .take => 1
  | .test => 2
  | .lock => 3
  | .unlock => 4

def Threads.loops (s : Threads) : Nat :=
  s.processing.weight (s.monitor.asleep .processing).isSome +
    s.payload.weight (s.monitor.asleep .payload).isSome

/-- What the queues hold, with the turns of the loops it takes to empty
them. -/
def Pipeline.load (p : Pipeline) : Nat := 8 * p.raw.quantity.toNat + 4 * p.packets.quantity.toNat

def Threads.variant (s : Threads) : Nat := s.capture.weight + s.loops + s.pipeline.load

/-- What comes from outside: `recvfrom` returns, or a wakeup is spurious. -/
def Choice.cost (s : Threads) : Choice → Nat
  | .capture _ => match s.capture with
    | .recvfrom => 23
    | _ => 0
  | .spurious _ => 4
  | .processing _ | .payload => 0

theorem Choice.cost_capture {s : Threads} {turn : Turn} (h : s.capture ≠ .recvfrom) :
    (Choice.capture turn).cost s = 0 := by
  unfold Choice.cost
  cases hpc : s.capture with
  | recvfrom => exact absurd hpc h
  | _ => rfl

theorem capture_load {p p' : Pipeline} {hint : Nat} {junk buffer : Content} {bytesRecived : Int}
    (h : p.capture hint junk buffer bytesRecived = .ok p') : p'.load ≤ p.load + 8 := by
  obtain ⟨hpackets, hraw⟩ := capture_quantity h
  simp only [Pipeline.load, hpackets]
  omega

/-- A frame less in the raw queue makes up for a record more in the other. -/
theorem processing_load {p p' : Pipeline} {hint : Nat} {now : Tm} (hpos : 0 < p.raw.quantity)
    (h : p.routineProcessing hint now = .ok p') : p'.load + 4 ≤ p.load := by
  obtain ⟨hraw, hpackets⟩ := processing_quantity hpos h
  have hmore : p'.packets.quantity ≤ p.packets.quantity + 1 := by
    rcases hpackets with ⟨-, heq⟩ | ⟨-, hle⟩
    · rw [heq]
      exact Int.le_add_one le_rfl
    · exact hle
  unfold Pipeline.load
  omega

theorem payload_load {p p' : Pipeline} (hpos : 0 < p.packets.quantity)
    (hne : p.packets.inicio ≠ none) (h : p.routinePayload = .ok p') : p'.load + 4 ≤ p.load := by
  have hraw := routinePayload_raw h
  have hpackets := routinePayload_quantity hne h
  simp only [Pipeline.load, hraw, hpackets]
  omega

theorem LoopStep.weight {role : Role} {cond : Cond} {empty : Bool} {work : Except Fault Pipeline}
    {monitor monitor' : Monitor Role Cond} {pipeline pipeline' : Pipeline} {pc pc' : LoopPc}
    (h : LoopStep role cond empty work monitor pipeline pc monitor' pipeline' pc')
    (hload : pc = .take → work = .ok pipeline' → pipeline'.load + 4 ≤ pipeline.load) :
    pc'.weight (monitor'.asleep role).isSome + pipeline'.load + 1 ≤
        pc.weight (monitor.asleep role).isSome + pipeline.load ∧
      ∀ u, u ≠ role → monitor'.asleep u = monitor.asleep u := by
  cases h with
  | slept howner =>
    refine ⟨?_, fun u hu => Function.update_of_ne hu _ _⟩
    simp [LoopPc.weight, Nat.add_comm]
  | resumed hawake hfree =>
    refine ⟨?_, fun u hu => rfl⟩
    simp only [LoopPc.weight, hawake, Option.isSome_none, Bool.false_eq_true, ↓reduceIte]
    omega
  | took _ hwork =>
    refine ⟨?_, fun u hu => rfl⟩
    have := hload rfl hwork
    simp only [LoopPc.weight]
    omega
  | _ =>
    refine ⟨?_, fun u hu => rfl⟩
    simp only [LoopPc.weight]
    omega

/-- A wakeup costs a turn of one loop. -/
theorem loops_wake (s : Threads) (role : Role) :
    Threads.loops { s with monitor := s.monitor.wake role } ≤ s.loops + 3 := by
  have hle : ∀ (pc : LoopPc) (asleep : Bool), pc.weight false ≤ pc.weight asleep + 3 := by
    intro pc asleep
    cases pc <;> cases asleep <;> simp [LoopPc.weight]
  unfold Threads.loops Monitor.wake
  cases role with
  | capture => simp
  | processing =>
    have := hle s.processing (s.monitor.asleep .processing).isSome
    simp
    omega
  | payload =>
    have := hle s.payload (s.monitor.asleep .payload).isSome
    simp
    omega

theorem loops_signal {monitor : Monitor Role Cond} {cond : Cond} {woken : Role}
    (h : s.monitor.signal cond woken = some monitor) :
    Threads.loops { s with monitor } ≤ s.loops + 3 := by
  unfold Monitor.signal at h
  split at h
  · cases h
    exact loops_wake s woken
  · split at h <;> cases h
    exact Nat.le_add_right _ _

theorem CaptureMove.variant (h : CaptureMove turn s s') :
    s'.variant + 1 ≤ s.variant + (Choice.capture turn).cost s := by
  unfold Threads.variant Choice.cost
  cases h with
  | received hpc | nothing hpc | due hpc | notDue hpc | locked _ _ hpc | unlocked hpc
  | lockedTest hpc | unlockedTest hpc =>
    simp only [hpc, CapturePc.weight, Threads.loops]
    omega
  | added buffer bytesRecived pipeline hpc hp =>
    have hload := capture_load hp
    simp only [hpc, CapturePc.weight, Threads.loops]
    omega
  | signalled monitor hpc hm | signalledPayload monitor hpc hm =>
    have hloops := loops_signal hm
    simp only [Threads.loops] at hloops
    simp only [hpc, CapturePc.weight, Threads.loops]
    omega

/-- Each step brings the threads closer to rest, or is paid for. -/
theorem Threads.Sound.variant (hs : s.Sound) (h : s.step choice = some s') :
    s'.variant + 1 ≤ s.variant + choice.cost s := by
  obtain ⟨raw, packets, hraw, hpackets, -⟩ := hs.pipeline
  cases choice with
  | capture turn => exact (captureStep_move h).variant
  | processing turn =>
    obtain ⟨⟨monitor, pipeline, pc⟩, hloop, rfl⟩ := Option.map_eq_some_iff.mp h
    obtain ⟨hweight, hothers⟩ := (loopStep_ok hloop).weight fun hpc hwork =>
      processing_load (hs.raw_bounds.2.2 hpc) hwork
    have hsame := hothers .payload (by simp)
    simp only [Threads.variant, Threads.loops, Choice.cost, hsame]
    omega
  | payload =>
    obtain ⟨⟨monitor, pipeline, pc⟩, hloop, rfl⟩ := Option.map_eq_some_iff.mp h
    obtain ⟨hweight, hothers⟩ := (loopStep_ok hloop).weight fun hpc hwork => by
      have hne := hs.packets hpc
      have hquantity := hpackets.quantity_eq
      have hlength := List.length_pos_of_ne_nil (mt hpackets.inicio_eq_none_iff.mpr hne)
      exact payload_load (by omega) hne hwork
    have hsame := hothers .processing (by simp)
    simp only [Threads.variant, Threads.loops, Choice.cost, hsame]
    omega
  | spurious role =>
    simp only [Threads.step] at h
    split at h <;> cases h
    have hloops := loops_wake s role
    simp only [Threads.variant, Choice.cost]
    omega

-- ---------------------------------------------------------------------------
-- Progress
-- ---------------------------------------------------------------------------

instance : Inhabited Role := ⟨.capture⟩

/-- Everybody waits for a frame, and all frames have been parsed. -/
structure Threads.AtRest (s : Threads) : Prop where
  capture : s.capture = .recvfrom
  processing : s.processing = .waiting
  payload : s.payload = .waiting
  owner : s.monitor.owner = none
  asleep : s.monitor.asleep .processing = some .condProcessing ∧
    s.monitor.asleep .payload = some .condPayload
  raw : s.pipeline.raw.quantity = 0

theorem Threads.Sound.capture_progress (hs : s.Sound) (hpc : s.capture ≠ .recvfrom)
    (hfree : s.monitor.owner = none ∨ s.Inside .capture) :
    ∃ turn s', turn.bytesRecived ≤ 65535 ∧ s.step (.capture turn) = some s' := by
  have hfits : oneByte.bytesRecived ≤ 65535 := by decide
  cases hcapture : s.capture with
  | recvfrom => exact absurd hcapture hpc
  | lock buffer bytesRecived =>
    have howner : s.monitor.owner = none := by
      simpa [Threads.Inside, hcapture, CapturePc.Locked] using hfree
    exact ⟨oneByte, _, hfits, by
      simp [Threads.step, captureStep, hcapture, Monitor.lock, howner]
      rfl⟩
  | addItem buffer bytesRecived =>
    obtain ⟨p, hp, -⟩ := capture_inv hs.pipeline oneByte.hint oneByte.junk buffer bytesRecived
    exact ⟨oneByte, _, hfits, by
      simp [Threads.step, captureStep, hcapture, hp]
      rfl⟩
  | unlock | unlockTest =>
    have howner : s.monitor.owner = some .capture :=
      hs.inv.guards _ (by simp [Threads.Inside, hcapture, CapturePc.Locked])
    exact ⟨oneByte, _, hfits, by
      simp [Threads.step, captureStep, hcapture, Monitor.unlock, howner]
      rfl⟩
  | signal =>
    obtain ⟨woken, monitor, hm⟩ := s.monitor.signal_total .condProcessing
    exact ⟨{ oneByte with woken }, _, hfits, by
      simp [Threads.step, captureStep, hcapture, hm]
      rfl⟩
  | due => exact ⟨oneByte, _, hfits, by
      simp [Threads.step, captureStep, hcapture]
      rfl⟩
  | lockTest =>
    have howner : s.monitor.owner = none := by
      simpa [Threads.Inside, hcapture, CapturePc.Locked] using hfree
    exact ⟨oneByte, _, hfits, by
      simp [Threads.step, captureStep, hcapture, Monitor.lock, howner]
      rfl⟩
  | signalPayload =>
    obtain ⟨woken, monitor, hm⟩ := s.monitor.signal_total .condPayload
    exact ⟨{ oneByte with woken }, _, hfits, by
      simp [Threads.step, captureStep, hcapture, hm]
      rfl⟩

theorem loopStep_progress {role : Role} (cond : Cond) (empty : Bool)
    {work : Except Fault Pipeline} {monitor : Monitor Role Cond} (pipeline : Pipeline)
    {pc : LoopPc} (hwork : ∃ p, work = .ok p) (hlocked : pc.Locked → monitor.owner = some role)
    (hfree : ¬ pc.Locked → monitor.owner = none)
    (hawake : pc = .waiting → monitor.asleep role = none) :
    ∃ r, loopStep role cond empty work monitor pipeline pc = some r := by
  cases pc with
  | lock => exact ⟨_, by simp [loopStep, Monitor.lock, hfree not_false]; rfl⟩
  | test => exact ⟨_, rfl⟩
  | wait => exact ⟨_, by simp [loopStep, Monitor.sleep, hlocked trivial]; rfl⟩
  | waiting =>
    exact ⟨_, by simp [loopStep, Monitor.resume, Monitor.lock, hawake rfl, hfree not_false]; rfl⟩
  | take =>
    obtain ⟨p, rfl⟩ := hwork
    exact ⟨_, rfl⟩
  | unlock => exact ⟨_, by simp [loopStep, Monitor.unlock, hlocked trivial]; rfl⟩

theorem Threads.Sound.processing_progress (hs : s.Sound)
    (hfree : ¬ s.processing.Locked → s.monitor.owner = none)
    (hawake : s.processing = .waiting → s.monitor.asleep .processing = none) :
    ∃ s', s.step (.processing oneByte) = some s' := by
  obtain ⟨p, hp, -⟩ := routineProcessing_inv hs.pipeline oneByte.hint oneByte.now
  obtain ⟨r, hr⟩ := loopStep_progress .condProcessing (s.pipeline.raw.quantity = 0) s.pipeline
    ⟨p, hp⟩ (hs.inv.guards .processing) hfree hawake
  exact ⟨_, by rw [Threads.step, hr]; rfl⟩

theorem Threads.Sound.payload_progress (hs : s.Sound)
    (hfree : ¬ s.payload.Locked → s.monitor.owner = none)
    (hawake : s.payload = .waiting → s.monitor.asleep .payload = none) :
    ∃ s', s.step .payload = some s' := by
  obtain ⟨p, hp, -⟩ := routinePayload_inv hs.pipeline
  obtain ⟨r, hr⟩ := loopStep_progress .condPayload (s.pipeline.packets.inicio = none) s.pipeline
    ⟨p, hp⟩ (hs.inv.guards .payload) hfree hawake
  exact ⟨_, by rw [Threads.step, hr]; rfl⟩

/-- The capture thread waits for a frame, and all frames have been parsed. -/
structure Threads.Parsed (s : Threads) : Prop where
  capture : s.capture = .recvfrom
  processing : s.processing = .waiting
  owner : s.monitor.owner = none
  asleep : s.monitor.asleep .processing = some .condProcessing
  raw : s.pipeline.raw.quantity = 0

/-- Outside the section of `routine_payload` the two others go on, unless there
is nothing to do for them. -/
theorem Threads.Sound.others_progress (hs : s.Sound) (hpayload : s.monitor.owner ≠ some .payload) :
    s.Parsed ∨
      (s.capture ≠ .recvfrom ∧ ∃ turn s', turn.bytesRecived ≤ 65535 ∧
        s.step (.capture turn) = some s') ∨
      ∃ s', s.step (.processing oneByte) = some s' := by
  cases howner : s.monitor.owner with
  | some role =>
    have hinside := hs.held role howner
    right
    cases role with
    | capture =>
      have hpc : s.capture ≠ .recvfrom := by
        intro hpc
        simp [Threads.Inside, hpc, CapturePc.Locked] at hinside
      exact .inl ⟨hpc, hs.capture_progress hpc (.inr hinside)⟩
    | processing =>
      exact .inr (hs.processing_progress (fun h => absurd hinside h)
        (fun h => by simp [Threads.Inside, h, LoopPc.Locked] at hinside))
    | payload => exact absurd howner hpayload
  | none =>
    by_cases hcapture : s.capture = .recvfrom
    · by_cases hprocessing : s.processing = .waiting → s.monitor.asleep .processing = none
      · exact .inr (.inr (hs.processing_progress (fun _ => howner) hprocessing))
      · left
        obtain ⟨hwaiting, hasleep⟩ := Classical.not_imp.mp hprocessing
        obtain ⟨cond, hcond⟩ := Option.ne_none_iff_exists'.mp hasleep
        obtain ⟨rfl, -⟩ := hs.inv.sleeper _ _ hcond
        refine ⟨hcapture, hwaiting, howner, hcond, ?_⟩
        obtain ⟨raw, packets, hraw, -, -⟩ := hs.pipeline
        have hquantity := hraw.quantity_eq
        by_contra hne
        have howes := hs.inv.owed hcond (by omega)
        simp [hcapture, CapturePc.Owes] at howes
    · exact .inr (.inl ⟨hcapture, hs.capture_progress hcapture (.inl howner)⟩)

/-- Whoever owns the mutex goes on; if nobody does, somebody can take it. -/
theorem Threads.Sound.progress (hs : s.Sound) :
    s.AtRest ∨ ∃ choice s', s.step choice = some s' ∧ choice.cost s = 0 := by
  by_cases howner : s.monitor.owner = some .payload
  · have hinside : s.payload.Locked := hs.held _ howner
    obtain ⟨s', hstep⟩ := hs.payload_progress (fun h => absurd hinside h)
      (fun h => by simp [h, LoopPc.Locked] at hinside)
    exact .inr ⟨_, s', hstep, rfl⟩
  · rcases hs.others_progress howner with hparsed | ⟨hpc, turn, s', -, hstep⟩ | ⟨s', hstep⟩
    · by_cases hpayload : s.payload = .waiting → s.monitor.asleep .payload = none
      · obtain ⟨s', hstep⟩ := hs.payload_progress (fun _ => hparsed.owner) hpayload
        exact .inr ⟨_, s', hstep, rfl⟩
      · left
        obtain ⟨hwaiting, hasleep⟩ := Classical.not_imp.mp hpayload
        obtain ⟨cond, hcond⟩ := Option.ne_none_iff_exists'.mp hasleep
        obtain ⟨rfl, -⟩ := hs.inv.sleeper _ _ hcond
        exact ⟨hparsed.capture, hparsed.processing, hwaiting, hparsed.owner,
          ⟨hparsed.asleep, hcond⟩, hparsed.raw⟩
    · exact .inr ⟨.capture turn, s', hstep, Choice.cost_capture hpc⟩
    · exact .inr ⟨_, s', hstep, rfl⟩

theorem Threads.AtRest.cost_pos (hrest : s.AtRest) (h : s.step choice = some s') :
    0 < choice.cost s := by
  cases choice with
  | capture turn => simp [Choice.cost, hrest.capture]
  | spurious role => exact Nat.zero_lt_succ _
  | processing turn =>
    simp [Threads.step, loopStep, hrest.processing, Monitor.resume, hrest.asleep.1] at h
  | payload => simp [Threads.step, loopStep, hrest.payload, Monitor.resume, hrest.asleep.2] at h

/-- What comes in during a run. -/
def paid : Threads → List Choice → Nat := spent Threads.step fun s choice => choice.cost s

theorem Threads.Sound.length_le {choices : List Choice} (hs : s.Sound)
    (h : run Threads.step s choices = some s') :
    choices.length + s'.variant ≤ s.variant + paid s choices :=
  run_bounded (fun _ _ _ hstep hs => ⟨hs.step hstep, hs.variant hstep⟩) hs h

/-- A run is no longer than what comes in pays for. From any state of it, when
nothing comes in, only `variant` steps are left, and where they end the threads
sleep and the raw queue is empty.

Premise: the calls of `routine_payload` on the network return, so that its loop
here goes from one batch to the next. -/
theorem threads_come_to_rest {choices more : List Choice} {t : Threads}
    (h : run Threads.step {} choices = some s) (hmore : run Threads.step s more = some t) :
    choices.length + s.variant ≤ 6 + paid {} choices ∧
      (paid s more = 0 → more.length + t.variant ≤ s.variant) ∧
      (t.AtRest ↔ ∀ choice t', t.step choice = some t' → 0 < choice.cost t) := by
  have hs := Threads.Sound.start.keeps h
  have hlater := hs.length_le hmore
  refine ⟨Threads.Sound.start.length_le h, fun hquiet => ?_,
    fun hrest choice t' hstep => hrest.cost_pos hstep, fun hstuck => ?_⟩
  · rwa [hquiet] at hlater
  · rcases (hs.keeps hmore).progress with hrest | ⟨choice, t', hstep, hcost⟩
    · exact hrest
    · have := hstuck choice t' hstep
      omega

/-- The parser goes to sleep, a frame arrives, and the parser is woken and
still to run. -/
theorem threads_come_to_rest_oneByte :
    ∃ s t, run Threads.step {} [.processing oneByte, .processing oneByte, .processing oneByte,
        .capture oneByte, .capture oneByte] = some s ∧
      run Threads.step s [.capture oneByte, .capture oneByte, .capture oneByte] = some t ∧
      3 + t.variant ≤ s.variant ∧
      (t.AtRest ↔ ∀ choice t', t.step choice = some t' → 0 < choice.cost t) := by
  have h : run Threads.step {} [.processing oneByte, .processing oneByte, .processing oneByte,
      .capture oneByte, .capture oneByte] = some _ := rfl
  obtain ⟨-, hlater, hrest⟩ := @threads_come_to_rest _ _
    [.capture oneByte, .capture oneByte, .capture oneByte] _ h rfl
  exact ⟨_, _, h, rfl, hlater rfl, hrest⟩

end WireSentinel
