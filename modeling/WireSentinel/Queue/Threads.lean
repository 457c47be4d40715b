import WireSentinel.Lib.Monitor
import WireSentinel.Lib.Run
import WireSentinel.Queue.Pipeline

/-!
# The three threads

The capture thread of `main`, `routine_processing` and `routine_payload`
around `mutex_processing` and the two condition variables, call by call. The
sections between `lock` and `unlock` are those of the pipeline; the network is
left out of the loop of `routine_payload`.
`no_lost_wakeup` is about the raw queue: the signal is sent behind the
`unlock`, and still the parser thread does not sleep over it.
-/

namespace WireSentinel

inductive Role where
  | capture | processing | payload
  deriving DecidableEq

instance : Fintype Role := ⟨{.capture, .processing, .payload}, fun r => by cases r <;> simp⟩

inductive Cond where
  | condProcessing | condPayload
  deriving DecidableEq

-- ---------------------------------------------------------------------------
-- The state
-- ---------------------------------------------------------------------------

/-- The loop of `main`. -/
inductive CapturePc where
  | recvfrom
  | lock (buffer : Content) (bytesRecived : Int)
  | addItem (buffer : Content) (bytesRecived : Int)
  | unlock
  | signal
  /-- `test >= 2000 || (currsecs - secs) >= 4` -/
  | due
  | lockTest
  /-- `test = 0` is done. -/
  | unlockTest
  | signalPayload

/-- The loops of the two others: lock, wait while there is nothing, take it,
unlock. What else `routine_payload` does is in front of `lock`. -/
inductive LoopPc where
  | lock
  | test
  /-- At the call of `pthread_cond_wait`. -/
  | wait
  /-- In the call, asleep or woken. -/
  | waiting
  | take
  | unlock

structure Threads where
  monitor : Monitor Role Cond := {}
  pipeline : Pipeline := {}
  capture : CapturePc := .recvfrom
  processing : LoopPc := .lock
  payload : LoopPc := .lock

-- ---------------------------------------------------------------------------
-- Steps
-- ---------------------------------------------------------------------------

/-- What a thread's step finds: a frame, the time of a flush, memory from
`malloc`, the clock, and whom a signal wakes. -/
structure Turn where
  buffer : Content
  bytesRecived : Int
  due : Bool
  hint : Nat
  junk : Content
  now : Tm
  woken : Role

inductive Choice where
  | capture (turn : Turn)
  | processing (turn : Turn)
  | payload
  | spurious (role : Role)

/-- One step of the capture thread. -/
def captureStep (turn : Turn) (s : Threads) : Option Threads :=
  match s.capture with
  | .recvfrom =>
    if turn.bytesRecived > 0 then
      some { s with capture := .lock turn.buffer turn.bytesRecived }
    else some { s with capture := .due }
  | .lock buffer bytesRecived =>
    (s.monitor.lock .capture).map fun monitor =>
      { s with monitor, capture := .addItem buffer bytesRecived }
  | .addItem buffer bytesRecived =>
    match s.pipeline.capture turn.hint turn.junk buffer bytesRecived with
    | .ok pipeline => some { s with pipeline, capture := .unlock }
    | .error _ => none
  | .unlock =>
    (s.monitor.unlock .capture).map fun monitor => { s with monitor, capture := .signal }
  | .signal =>
    (s.monitor.signal .condProcessing turn.woken).map fun monitor =>
      { s with monitor, capture := .due }
  | .due => some { s with capture := if turn.due then .lockTest else .recvfrom }
  | .lockTest =>
    (s.monitor.lock .capture).map fun monitor => { s with monitor, capture := .unlockTest }
  | .unlockTest =>
    (s.monitor.unlock .capture).map fun monitor => { s with monitor, capture := .signalPayload }
  | .signalPayload =>
    (s.monitor.signal .condPayload turn.woken).map fun monitor =>
      { s with monitor, capture := .recvfrom }

/-- One step of a loop, on what the threads share. -/
def loopStep (role : Role) (cond : Cond) (empty : Bool) (work : Except Fault Pipeline)
    (monitor : Monitor Role Cond) (pipeline : Pipeline) :
    LoopPc → Option (Monitor Role Cond × Pipeline × LoopPc)
  | .lock => (monitor.lock role).map fun monitor => (monitor, pipeline, .test)
  | .test => some (monitor, pipeline, if empty then .wait else .take)
  | .wait => (monitor.sleep role cond).map fun monitor => (monitor, pipeline, .waiting)
  | .waiting => (monitor.resume role).map fun monitor => (monitor, pipeline, .test)
  | .take =>
    match work with
    | .ok pipeline => some (monitor, pipeline, .unlock)
    | .error _ => none
  | .unlock => (monitor.unlock role).map fun monitor => (monitor, pipeline, .lock)

def Threads.step (s : Threads) : Choice → Option Threads
  | .capture turn => captureStep turn s
  | .processing turn =>
    (loopStep .processing .condProcessing (s.pipeline.raw.quantity = 0)
        (s.pipeline.routineProcessing turn.hint turn.now) s.monitor s.pipeline s.processing).map
      fun (monitor, pipeline, processing) => { s with monitor, pipeline, processing }
  | .payload =>
    (loopStep .payload .condPayload (s.pipeline.packets.inicio = none)
        s.pipeline.routinePayload s.monitor s.pipeline s.payload).map
      fun (monitor, pipeline, payload) => { s with monitor, pipeline, payload }
  | .spurious role =>
    if s.monitor.asleep role = none then none
    else some { s with monitor := s.monitor.wake role }

-- ---------------------------------------------------------------------------
-- What a step can do
-- ---------------------------------------------------------------------------

/-- Between `lock` and `unlock`. -/
def CapturePc.Locked : CapturePc → Prop
  | .addItem .. | .unlock | .unlockTest => True
  | _ => False

/-- An item has been added, and not yet been signalled. -/
def CapturePc.Owes : CapturePc → Prop
  | .unlock | .signal => True
  | _ => False

def LoopPc.Locked : LoopPc → Prop
  | .test | .wait | .take | .unlock => True
  | _ => False

/-- What a step of the capture thread does, as far as the others see it. -/
inductive CaptureStep (s : Threads) : Threads → Prop
  | moved (pc : CapturePc) (howed : ¬ s.capture.Owes) (hpc : ¬ pc.Locked) :
      CaptureStep s { s with capture := pc }
  | entered (pc : CapturePc) (howed : ¬ s.capture.Owes) (hfree : s.monitor.owner = none) :
      CaptureStep s { s with monitor := { s.monitor with owner := some .capture }, capture := pc }
  | added (buffer : Content) (bytesRecived : Int) (turn : Turn) (pipeline : Pipeline)
      (hpc : s.capture = .addItem buffer bytesRecived)
      (hp : s.pipeline.capture turn.hint turn.junk buffer bytesRecived = .ok pipeline) :
      CaptureStep s { s with pipeline, capture := .unlock }
  | left (pc : CapturePc) (howed : s.capture.Owes → pc.Owes)
      (howner : s.monitor.owner = some .capture) (hpc : ¬ pc.Locked) :
      CaptureStep s { s with monitor := { s.monitor with owner := none }, capture := pc }
  | signalled (pc : CapturePc) (cond : Cond) (woken : Role) (monitor : Monitor Role Cond)
      (howed : s.capture.Owes → cond = .condProcessing) (hpc : ¬ pc.Locked)
      (hm : s.monitor.signal cond woken = some monitor) :
      CaptureStep s { s with monitor, capture := pc }

theorem captureStep_ok {turn : Turn} {s s' : Threads} (h : captureStep turn s = some s') :
    CaptureStep s s' := by
  unfold captureStep at h
  split at h
  · rename_i hpc
    split at h <;> cases h
    · exact .moved _ (by simp [hpc, CapturePc.Owes]) (by simp [CapturePc.Locked])
    · exact .moved _ (by simp [hpc, CapturePc.Owes]) (by simp [CapturePc.Locked])
  · rename_i hpc
    obtain ⟨monitor, hm, rfl⟩ := Option.map_eq_some_iff.mp h
    obtain ⟨hfree, rfl⟩ := Monitor.lock_ok.mp hm
    exact .entered _ (by simp [hpc, CapturePc.Owes]) hfree
  · rename_i hpc
    split at h <;> cases h
    exact .added _ _ turn _ hpc ‹_›
  · rename_i hpc
    obtain ⟨monitor, hm, rfl⟩ := Option.map_eq_some_iff.mp h
    obtain ⟨howner, rfl⟩ := Monitor.unlock_ok.mp hm
    exact .left _ (fun _ => trivial) howner (by simp [CapturePc.Locked])
  · obtain ⟨monitor, hm, rfl⟩ := Option.map_eq_some_iff.mp h
    exact .signalled _ _ _ _ (fun _ => rfl) (by simp [CapturePc.Locked]) hm
  · rename_i hpc
    cases h
    refine .moved _ (by simp [hpc, CapturePc.Owes]) ?_
    split <;> simp [CapturePc.Locked]
  · rename_i hpc
    obtain ⟨monitor, hm, rfl⟩ := Option.map_eq_some_iff.mp h
    obtain ⟨hfree, rfl⟩ := Monitor.lock_ok.mp hm
    exact .entered _ (by simp [hpc, CapturePc.Owes]) hfree
  · rename_i hpc
    obtain ⟨monitor, hm, rfl⟩ := Option.map_eq_some_iff.mp h
    obtain ⟨howner, rfl⟩ := Monitor.unlock_ok.mp hm
    exact .left _ (by simp [hpc, CapturePc.Owes]) howner (by simp [CapturePc.Locked])
  · rename_i hpc
    obtain ⟨monitor, hm, rfl⟩ := Option.map_eq_some_iff.mp h
    exact .signalled _ _ _ _ (by simp [hpc, CapturePc.Owes]) (by simp [CapturePc.Locked]) hm

inductive LoopStep (role : Role) (cond : Cond) (empty : Bool) (work : Except Fault Pipeline)
    (monitor : Monitor Role Cond) (pipeline : Pipeline) :
    LoopPc → Monitor Role Cond → Pipeline → LoopPc → Prop
  | locked (hfree : monitor.owner = none) :
      LoopStep role cond empty work monitor pipeline .lock
        { monitor with owner := some role } pipeline .test
  | idle (h : empty = true) :
      LoopStep role cond empty work monitor pipeline .test monitor pipeline .wait
  | found (h : empty = false) :
      LoopStep role cond empty work monitor pipeline .test monitor pipeline .take
  | slept (howner : monitor.owner = some role) :
      LoopStep role cond empty work monitor pipeline .wait
        { owner := none, asleep := Function.update monitor.asleep role (some cond) } pipeline
        .waiting
  | resumed (hawake : monitor.asleep role = none) (hfree : monitor.owner = none) :
      LoopStep role cond empty work monitor pipeline .waiting
        { monitor with owner := some role } pipeline .test
  | took (pipeline' : Pipeline) (h : work = .ok pipeline') :
      LoopStep role cond empty work monitor pipeline .take monitor pipeline' .unlock
  | unlocked (howner : monitor.owner = some role) :
      LoopStep role cond empty work monitor pipeline .unlock
        { monitor with owner := none } pipeline .lock

theorem loopStep_ok {role : Role} {cond : Cond} {empty : Bool} {work : Except Fault Pipeline}
    {monitor monitor' : Monitor Role Cond} {pipeline pipeline' : Pipeline} {pc pc' : LoopPc}
    (h : loopStep role cond empty work monitor pipeline pc = some (monitor', pipeline', pc')) :
    LoopStep role cond empty work monitor pipeline pc monitor' pipeline' pc' := by
  unfold loopStep at h
  split at h
  · obtain ⟨m, hm, heq⟩ := Option.map_eq_some_iff.mp h
    obtain ⟨hfree, rfl⟩ := Monitor.lock_ok.mp hm
    cases heq
    exact .locked hfree
  · cases h
    split
    · rename_i hempty
      exact .idle hempty
    · rename_i hempty
      exact .found (by simpa using hempty)
  · obtain ⟨m, hm, heq⟩ := Option.map_eq_some_iff.mp h
    obtain ⟨howner, rfl⟩ := Monitor.sleep_ok.mp hm
    cases heq
    exact .slept howner
  · obtain ⟨m, hm, heq⟩ := Option.map_eq_some_iff.mp h
    obtain ⟨hawake, hfree, rfl⟩ := Monitor.resume_ok.mp hm
    cases heq
    exact .resumed hawake hfree
  · split at h <;> cases h
    exact .took _ rfl
  · obtain ⟨m, hm, heq⟩ := Option.map_eq_some_iff.mp h
    obtain ⟨howner, rfl⟩ := Monitor.unlock_ok.mp hm
    cases heq
    exact .unlocked howner

section Loop

variable {role : Role} {cond : Cond} {empty : Bool} {work : Except Fault Pipeline}
  {monitor monitor' : Monitor Role Cond} {pipeline pipeline' : Pipeline} {pc pc' : LoopPc}

theorem LoopStep.guards {inside inside' : Role → Prop}
    (h : LoopStep role cond empty work monitor pipeline pc monitor' pipeline' pc')
    (hg : monitor.Guards inside) (hpc : pc.Locked → inside role)
    (hpc' : inside' role → pc'.Locked) (hothers : ∀ u, u ≠ role → inside' u → inside u) :
    monitor'.Guards inside' := by
  have hstay : pc.Locked → ∀ u, inside' u → inside u := by
    intro hlocked u hu
    by_cases hrole : u = role
    · exact hrole ▸ hpc hlocked
    · exact hothers u hrole hu
  cases h with
  | locked hfree => exact hg.enter hfree rfl hothers
  | idle => exact hg.stay rfl (hstay trivial)
  | found => exact hg.stay rfl (hstay trivial)
  | slept howner => exact hg.leave howner hpc' hothers
  | resumed hawake hfree => exact hg.enter hfree rfl hothers
  | took => exact hg.stay rfl (hstay trivial)
  | unlocked howner => exact hg.leave howner hpc' hothers

theorem LoopStep.asleep_other
    (h : LoopStep role cond empty work monitor pipeline pc monitor' pipeline' pc')
    (hasleep : monitor'.asleep u = some c) (hu : u ≠ role) : monitor.asleep u = some c := by
  cases h with
  | slept => exact (Function.update_of_ne hu _ _).symm.trans hasleep
  | _ => exact hasleep

/-- The step that leaves its own thread asleep is the one that waits. -/
theorem LoopStep.asleep_self
    (h : LoopStep role cond empty work monitor pipeline pc monitor' pipeline' pc')
    (hpc : ∀ c, monitor.asleep role = some c → pc = .waiting)
    (hasleep : monitor'.asleep role = some c) :
    c = cond ∧ pc = .wait ∧ pc' = .waiting ∧ pipeline' = pipeline := by
  cases h with
  | slept => exact ⟨by simpa [eq_comm] using hasleep, rfl, rfl, rfl⟩
  | resumed hawake => simp [hawake] at hasleep
  | _ => cases hpc c hasleep

theorem LoopStep.pipeline_eq
    (h : LoopStep role cond empty work monitor pipeline pc monitor' pipeline' pc') :
    pipeline' = pipeline ∨ work = .ok pipeline' := by
  cases h with
  | took _ hwork => exact .inr hwork
  | _ => exact .inl rfl

theorem LoopStep.wait_inv
    (h : LoopStep role cond empty work monitor pipeline pc monitor' pipeline' .wait) :
    empty = true ∧ pipeline' = pipeline := by
  cases h with
  | idle hempty => exact ⟨hempty, rfl⟩

end Loop

-- ---------------------------------------------------------------------------
-- The invariant
-- ---------------------------------------------------------------------------

def Threads.Inside (s : Threads) : Role → Prop
  | .capture => s.capture.Locked
  | .processing => s.processing.Locked
  | .payload => s.payload.Locked

/-- Where a thread is that is asleep on the condition. -/
def Threads.Sleeper (s : Threads) : Role → Cond → Prop
  | .capture, _ => False
  | .processing, cond => cond = .condProcessing ∧ s.processing = .waiting
  | .payload, cond => cond = .condPayload ∧ s.payload = .waiting

structure Threads.Inv (s : Threads) : Prop where
  guards : s.monitor.Guards s.Inside
  sleeper : ∀ role cond, s.monitor.asleep role = some cond → s.Sleeper role cond
  noWork : s.processing = .wait → s.pipeline.raw.quantity = 0
  owed : s.monitor.asleep .processing = some .condProcessing → 0 < s.pipeline.raw.quantity →
    s.capture.Owes

theorem Threads.Inv.start : Threads.Inv {} := by
  refine ⟨?_, fun role cond h => by simp at h, by simp, fun h => by simp at h⟩
  rintro (_ | _ | _) h <;> cases h

/-- The capture thread's steps leave the others where they are. -/
theorem Threads.Inside.of_capture {s s' : Threads} (hin : s'.Inside u) (hu : u ≠ .capture)
    (hprocessing : s'.processing = s.processing) (hpayload : s'.payload = s.payload) :
    s.Inside u := by
  cases u with
  | capture => exact absurd rfl hu
  | processing => simpa [Threads.Inside, hprocessing] using hin
  | payload => simpa [Threads.Inside, hpayload] using hin

theorem Threads.Inv.capture {s s' : Threads} (hi : s.Inv) (h : CaptureStep s s') : s'.Inv := by
  cases h with
  | moved pc howed hpc =>
    refine ⟨hi.guards.stay rfl fun u hu => hu.of_capture ?_ rfl rfl, hi.sleeper, hi.noWork,
      fun ha hw => absurd (hi.owed ha hw) howed⟩
    rintro rfl
    exact hpc hu
  | entered pc howed hfree =>
    exact ⟨hi.guards.enter hfree rfl fun u hne hu => hu.of_capture hne rfl rfl, hi.sleeper,
      hi.noWork, fun ha hw => absurd (hi.owed ha hw) howed⟩
  | added buffer bytesRecived turn pipeline hpc hp =>
    have hinside : s.Inside .capture := by simp [Threads.Inside, hpc, CapturePc.Locked]
    refine ⟨hi.guards.stay rfl fun u hu => ?_, hi.sleeper, fun hwait => ?_, fun _ _ => trivial⟩
    · by_cases hcapture : u = .capture
      · exact hcapture ▸ hinside
      · exact hu.of_capture hcapture rfl rfl
    · have hwaiting : s.Inside .processing := by
        have hwait : s.processing = .wait := hwait
        simp [Threads.Inside, hwait, LoopPc.Locked]
      cases hi.guards.exclusive hinside hwaiting
  | left pc howed howner hpc =>
    exact ⟨hi.guards.leave howner hpc fun u hne hu => hu.of_capture hne rfl rfl, hi.sleeper,
      hi.noWork, fun ha hw => howed (hi.owed ha hw)⟩
  | signalled pc cond woken monitor howed hpc hm =>
    obtain ⟨howner, hasleep⟩ := Monitor.signal_spec hm
    have hwaiter : ∀ u, s.monitor.asleep u = some .condProcessing → u = .processing := by
      rintro (_ | _ | _) hu
      · exact (hi.sleeper _ _ hu).elim
      · rfl
      · cases (hi.sleeper _ _ hu).1
    refine ⟨hi.guards.stay howner fun u hu => ?_, fun role c h => hi.sleeper role c (hasleep _ _ h),
      hi.noWork, wakeup_inv hi.owed (fun h => .inl (hasleep _ _ h)) (fun _ _ hw => .inl hw) ?_⟩
    · refine hu.of_capture ?_ rfl rfl
      rintro rfl
      exact hpc hu
    · intro howes
      obtain rfl := howed howes
      exact .inr (Monitor.signal_wakes hm hwaiter)

theorem Threads.Inv.processing {s : Threads} {empty : Bool} {work : Except Fault Pipeline}
    {monitor : Monitor Role Cond} {pipeline : Pipeline} {pc : LoopPc} (hi : s.Inv)
    (hempty : empty = true → s.pipeline.raw.quantity = 0)
    (h : LoopStep .processing .condProcessing empty work s.monitor s.pipeline s.processing monitor
      pipeline pc) :
    Threads.Inv { s with monitor, pipeline, processing := pc } := by
  have hself : ∀ c, s.monitor.asleep .processing = some c → s.processing = .waiting :=
    fun c hc => (hi.sleeper _ c hc).2
  refine ⟨h.guards hi.guards id id ?_, ?_, ?_, ?_⟩
  · rintro (_ | _ | _) hu hin
    · exact hin
    · exact absurd rfl hu
    · exact hin
  · rintro (_ | _ | _) c hc
    · exact hi.sleeper _ c (h.asleep_other hc (by simp))
    · obtain ⟨hcond, -, hpc, -⟩ := h.asleep_self hself hc
      exact ⟨hcond, hpc⟩
    · exact hi.sleeper _ c (h.asleep_other hc (by simp))
  · rintro rfl
    obtain ⟨htrue, rfl⟩ := h.wait_inv
    exact hempty htrue
  · intro hasleep hwork
    obtain ⟨-, hwait, -, rfl⟩ := h.asleep_self hself hasleep
    rw [hi.noWork hwait] at hwork
    exact absurd hwork (lt_irrefl 0)

theorem routinePayload_raw {s s' : Pipeline} (h : s.routinePayload = .ok s') : s'.raw = s.raw := by
  unfold Pipeline.routinePayload at h
  split at h
  · cases h
    rfl
  · simp only [bind, Except.bind] at h
    split at h
    · cases h
    · split at h <;> cases h
      rfl

theorem Threads.Inv.payload {s : Threads} {empty : Bool} {monitor : Monitor Role Cond}
    {pipeline : Pipeline} {pc : LoopPc} (hi : s.Inv)
    (h : LoopStep .payload .condPayload empty s.pipeline.routinePayload s.monitor s.pipeline
      s.payload monitor pipeline pc) :
    Threads.Inv { s with monitor, pipeline, payload := pc } := by
  have hraw : pipeline.raw = s.pipeline.raw := by
    rcases h.pipeline_eq with rfl | hwork
    · rfl
    · exact routinePayload_raw hwork
  have hself : ∀ c, s.monitor.asleep .payload = some c → s.payload = .waiting :=
    fun c hc => (hi.sleeper _ c hc).2
  refine ⟨h.guards hi.guards id id ?_, ?_, ?_, ?_⟩
  · rintro (_ | _ | _) hu hin
    · exact hin
    · exact hin
    · exact absurd rfl hu
  · rintro (_ | _ | _) c hc
    · exact hi.sleeper _ c (h.asleep_other hc (by simp))
    · exact hi.sleeper _ c (h.asleep_other hc (by simp))
    · obtain ⟨hcond, -, hpc, -⟩ := h.asleep_self hself hc
      exact ⟨hcond, hpc⟩
  · exact fun hwait => hraw ▸ hi.noWork hwait
  · exact fun hasleep hwork => hi.owed (h.asleep_other hasleep (by simp)) (hraw ▸ hwork)

theorem Threads.Inv.spurious {s : Threads} (hi : s.Inv) (role : Role) :
    Threads.Inv { s with monitor := s.monitor.wake role } :=
  ⟨hi.guards.stay rfl fun _ => id, fun r c hc => hi.sleeper r c (Monitor.wake_asleep hc).2,
    hi.noWork, fun hasleep => hi.owed (Monitor.wake_asleep hasleep).2⟩

theorem Threads.Inv.step {s s' : Threads} {choice : Choice} (h : s.step choice = some s')
    (hi : s.Inv) : s'.Inv := by
  cases choice with
  | capture turn => exact hi.capture (captureStep_ok h)
  | processing turn =>
    obtain ⟨⟨monitor, pipeline, pc⟩, hloop, rfl⟩ := Option.map_eq_some_iff.mp h
    exact hi.processing of_decide_eq_true (loopStep_ok hloop)
  | payload =>
    obtain ⟨⟨monitor, pipeline, pc⟩, hloop, rfl⟩ := Option.map_eq_some_iff.mp h
    exact hi.payload (loopStep_ok hloop)
  | spurious role =>
    simp only [Threads.step] at h
    split at h <;> cases h
    exact hi.spurious role

theorem threads_inv {s : Threads} {choices : List Choice}
    (h : run Threads.step {} choices = some s) : s.Inv :=
  run_keeps (fun _ _ _ => Threads.Inv.step) Threads.Inv.start h

-- ---------------------------------------------------------------------------
-- The sections
-- ---------------------------------------------------------------------------

/-- A step of the threads is one section of the pipeline, or none. -/
theorem threads_step_pipeline {s s' : Threads} {choice : Choice}
    (h : s.step choice = some s') :
    s'.pipeline = s.pipeline ∨ ∃ action, s.pipeline.step action = .ok s'.pipeline := by
  cases choice with
  | capture turn =>
    cases captureStep_ok h with
    | added buffer bytesRecived turn pipeline hpc hp =>
      exact .inr ⟨.capture turn.hint turn.junk buffer bytesRecived, hp⟩
    | _ => exact .inl rfl
  | processing turn =>
    obtain ⟨⟨monitor, pipeline, pc⟩, hloop, rfl⟩ := Option.map_eq_some_iff.mp h
    exact (loopStep_ok hloop).pipeline_eq.imp id fun hwork =>
      ⟨.processing turn.hint turn.now, hwork⟩
  | payload =>
    obtain ⟨⟨monitor, pipeline, pc⟩, hloop, rfl⟩ := Option.map_eq_some_iff.mp h
    exact (loopStep_ok hloop).pipeline_eq.imp id fun hwork => ⟨.payload, hwork⟩
  | spurious role =>
    simp only [Threads.step] at h
    split at h <;> cases h
    exact .inl rfl

theorem Threads.pipeline_inv {s s' : Threads} {choice : Choice} (hi : s.pipeline.Inv)
    (h : s.step choice = some s') : s'.pipeline.Inv := by
  rcases threads_step_pipeline h with heq | ⟨action, haction⟩
  · rw [heq]
    exact hi
  · obtain ⟨p, hp, hinv, -⟩ := pipeline_step_inv hi action
    obtain rfl := Except.ok.inj (haction.symm.trans hp)
    exact hinv

def Pipeline.Reached (s : Pipeline) : Prop :=
  ∃ actions : List Action, actions.foldlM Pipeline.step {} = .ok s

theorem Pipeline.Reached.step {s s' : Pipeline} (h : s.Reached)
    (hs' : s.step action = .ok s') : s'.Reached := by
  obtain ⟨actions, hactions⟩ := h
  refine ⟨actions ++ [action], ?_⟩
  rw [List.foldlM_append, hactions]
  simp [bind, Except.bind, pure, Except.pure, hs']

/-- Whatever the threads do, call by call, the pipeline does, section by
section. -/
theorem threads_refine {s : Threads} {choices : List Choice}
    (h : run Threads.step {} choices = some s) : s.pipeline.Reached := by
  have hstep : ∀ (s : Threads) choice s', s.step choice = some s' → s.pipeline.Reached →
      s'.pipeline.Reached := by
    intro s choice s' h hs
    rcases threads_step_pipeline h with heq | ⟨action, haction⟩
    · exact heq ▸ hs
    · exact hs.step haction
  have hstart : Pipeline.Reached {} := ⟨[], rfl⟩
  have hreached := run_keeps hstep hstart h
  exact hreached

/-- No thread is stuck in its section. -/
theorem threads_section_ok {s : Threads} {choices : List Choice}
    (h : run Threads.step {} choices = some s) (action : Action) :
    ∃ p, s.pipeline.step action = .ok p := by
  obtain ⟨actions, hactions⟩ := threads_refine h
  obtain ⟨p, hp, hinv, -⟩ := pipeline_run_inv pipeline_start actions
  obtain rfl : s.pipeline = p := Except.ok.inj (hactions.symm.trans hp)
  obtain ⟨p', hp', -⟩ := pipeline_step_inv hinv action
  exact ⟨p', hp'⟩

-- ---------------------------------------------------------------------------
-- No lost wakeup
-- ---------------------------------------------------------------------------

/-- Whenever the parser thread is asleep on `cond_processing` and the raw
queue is not empty, the capture thread is between `add_item` and the signal
behind it.

Premise: the state is reached by any interleaving, spurious wakeups
included. -/
theorem no_lost_wakeup {s : Threads} {choices : List Choice}
    (h : run Threads.step {} choices = some s)
    (hasleep : s.monitor.asleep .processing = some .condProcessing)
    (hwork : 0 < s.pipeline.raw.quantity) : s.capture = .unlock ∨ s.capture = .signal := by
  have howes := (threads_inv h).owed hasleep hwork
  cases hpc : s.capture with
  | unlock => exact .inl rfl
  | signal => exact .inr rfl
  | _ => simp [hpc, CapturePc.Owes] at howes

def oneByte : Turn where
  buffer := fun _ => 0
  bytesRecived := 1
  due := false
  hint := 0
  junk := fun _ => 0
  now := noon
  woken := .processing

/-- The parser goes to sleep, and a frame arrives. -/
theorem no_lost_wakeup_oneByte :
    ∃ s, run Threads.step {} [.processing oneByte, .processing oneByte, .processing oneByte,
        .capture oneByte, .capture oneByte, .capture oneByte] = some s ∧
      s.monitor.asleep .processing = some .condProcessing ∧ 0 < s.pipeline.raw.quantity ∧
      (s.capture = .unlock ∨ s.capture = .signal) := by
  have h : run Threads.step {} [.processing oneByte, .processing oneByte, .processing oneByte,
      .capture oneByte, .capture oneByte, .capture oneByte] = some _ := rfl
  exact ⟨_, h, rfl, by decide, no_lost_wakeup h rfl (by decide)⟩

end WireSentinel
