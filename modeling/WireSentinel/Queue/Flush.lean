import WireSentinel.Packet.Decode
import WireSentinel.Queue.Rest

/-!
# When the records are sent

What `main` keeps besides the queues: `test` counts the records
`routine_processing` makes, and `secs` is when `routine_payload` was last
woken. Both are looked at only when a frame has come in, and `test` outside
the mutex.
-/

namespace WireSentinel

-- ---------------------------------------------------------------------------
-- The state
-- ---------------------------------------------------------------------------

structure Main where
  threads : Threads := {}
  test : Int := 0
  secs : Int
  /-- Not read before it is set. -/
  currsecs : Int

/-- A step, and what `time(NULL)` returns in it. -/
structure Timed where
  choice : Choice
  time : Int

namespace Main

/-- In front of the loop. -/
def start (secs : Int) : Main := { secs, currsecs := secs }

/-- `test >= 2000 || (currsecs - secs) >= 4` -/
def due (m : Main) : Bool := m.test ≥ 2000 || m.currsecs - m.secs ≥ 4

/-- The step the threads take. -/
def choice (m : Main) : Choice → Choice
  | .capture turn => .capture { turn with due := m.due }
  | choice => choice

/-- What a step assigns. `test = 0` and `test ++` are behind a `lock`,
`secs` is set behind the signal. -/
def assign (i : Timed) (m : Main) : Main :=
  match i.choice with
  | .capture _ =>
    match m.threads.capture with
    | .recvfrom => { m with currsecs := i.time }
    | .lockTest => { m with test := 0 }
    | .signalPayload => { m with secs := i.time }
    | _ => m
  | .processing turn =>
    match m.threads.processing with
    | .take => if m.threads.pipeline.records turn.now then { m with test := m.test + 1 } else m
    | _ => m
  | .payload | .spurious _ => m

def step (m : Main) (i : Timed) : Option Main :=
  (m.threads.step (m.choice i.choice)).map fun threads => { m.assign i with threads }

end Main

/-- The clock does not go back. -/
def Main.Forward (m : Main) (i : Timed) : Prop := m.secs ≤ i.time ∧ m.currsecs ≤ i.time

instance (m : Main) (i : Timed) : Decidable (m.Forward i) := inferInstanceAs (Decidable (_ ∧ _))

-- ---------------------------------------------------------------------------
-- The invariant
-- ---------------------------------------------------------------------------

/-- `test` is reset, and the signal still to be sent. -/
def CapturePc.Flushing : CapturePc → Prop
  | .unlockTest | .signalPayload => True
  | _ => False

instance : DecidablePred CapturePc.Flushing := fun pc => by
  cases pc <;> unfold CapturePc.Flushing <;> infer_instance

/-- How far `test` and the raw queue can be when the capture thread is here:
one frame more between `add_item` and the next look at `test`. -/
def CapturePc.bound : CapturePc → Int
  | .unlock | .signal | .due | .lockTest => 3000
  | _ => 2999

structure Main.Inv (m : Main) : Prop where
  sound : m.threads.Sound
  test : 0 ≤ m.test
  counted : m.test + m.threads.pipeline.raw.quantity ≤ m.threads.capture.bound
  recent : m.threads.capture = .recvfrom → m.currsecs - m.secs < 4
  waiting : m.threads.monitor.asleep .payload = some .condPayload →
    m.threads.capture.Flushing ∨ m.threads.pipeline.packets.quantity ≤ m.test

theorem Main.Inv.start (secs : Int) : (Main.start secs).Inv := by
  refine ⟨.start, le_rfl, ?_, fun _ => ?_, fun h => ?_⟩
  · simp [Main.start, CapturePc.bound]
  · simp [Main.start]
  · cases h

variable {m m' : Main} {i : Timed} {turn : Turn}

/-- A signal on `cond_payload` leaves nobody asleep on it. -/
theorem Threads.Sound.signalled {s : Threads} (hs : s.Sound) {woken : Role}
    {monitor : Monitor Role Cond} (h : s.monitor.signal .condPayload woken = some monitor) :
    monitor.asleep .payload ≠ some .condPayload := by
  refine Monitor.signal_wakes h ?_
  rintro (_ | _ | _) hu
  · exact (hs.inv.sleeper _ _ hu).elim
  · cases (hs.inv.sleeper _ _ hu).1
  · rfl

theorem Main.Inv.capture (hi : m.Inv) (hforward : m.Forward i) (hchoice : i.choice = .capture turn)
    (h : m.step i = some m') : m'.Inv := by
  obtain ⟨threads, hthreads, rfl⟩ := Option.map_eq_some_iff.mp h
  simp only [hchoice, Main.choice] at hthreads
  have hsound := hi.sound.step hthreads
  obtain ⟨-, hraw, -⟩ := hi.sound.raw_bounds
  have hcounted := hi.counted
  have hwaiting : ¬ m.threads.capture.Flushing →
      m.threads.monitor.asleep .payload = some .condPayload →
      m.threads.pipeline.packets.quantity ≤ m.test :=
    fun hpc hasleep => (hi.waiting hasleep).resolve_left hpc
  obtain ⟨hsecs, hcurrsecs⟩ := hforward
  unfold Main.assign
  rw [hchoice]
  dsimp only
  cases captureStep_move hthreads with
  | received hpc | nothing hpc =>
    rw [hpc] at hcounted hwaiting ⊢
    refine ⟨hsound, hi.test, ?_, fun h => (by cases h),
      fun hasleep => .inr (hwaiting not_false hasleep)⟩
    simp only [CapturePc.bound] at hcounted ⊢
    omega
  | locked _ _ hpc | unlocked hpc | due hpc =>
    rw [hpc] at hcounted hwaiting ⊢
    exact ⟨hsound, hi.test, hcounted, fun h => (by cases h),
      fun hasleep => .inr (hwaiting not_false hasleep)⟩
  | added buffer bytesRecived pipeline hpc hp =>
    obtain ⟨hpackets, hadded⟩ := capture_quantity hp
    rw [hpc] at hcounted hwaiting ⊢
    refine ⟨hsound, hi.test, ?_, fun h => (by cases h), ?_⟩
    · simp only [CapturePc.bound] at hcounted ⊢
      omega
    · exact fun hasleep => .inr (hpackets ▸ hwaiting not_false hasleep)
  | signalled monitor hpc hm =>
    rw [hpc] at hcounted hwaiting ⊢
    exact ⟨hsound, hi.test, hcounted, fun h => (by cases h),
      fun hasleep => .inr (hwaiting not_false ((Monitor.signal_spec hm).2 _ _ hasleep))⟩
  | notDue hpc hdue =>
    -- the only way back to `recvfrom` without a flush
    rw [hpc] at hcounted hwaiting ⊢
    obtain ⟨htest, htime⟩ : m.test < 2000 ∧ m.currsecs - m.secs < 4 := by
      simpa [Main.due] using hdue
    refine ⟨hsound, hi.test, ?_, fun _ => htime,
      fun hasleep => .inr (hwaiting not_false hasleep)⟩
    simp only [CapturePc.bound]
    omega
  | lockedTest hpc hfree =>
    rw [hpc]
    refine ⟨hsound, le_rfl, ?_, fun h => (by cases h), fun _ => .inl trivial⟩
    simp only [CapturePc.bound]
    omega
  | unlockedTest hpc howner =>
    rw [hpc] at hcounted ⊢
    exact ⟨hsound, hi.test, hcounted, fun h => (by cases h), fun _ => .inl trivial⟩
  | signalledPayload monitor hpc hm =>
    rw [hpc] at hcounted ⊢
    refine ⟨hsound, hi.test, hcounted, fun _ => ?_, fun hasleep => ?_⟩
    · dsimp only
      omega
    · exact absurd hasleep (hi.sound.signalled hm)

theorem Threads.Sound.nothing_quantity {s : Threads} (hs : s.Sound) (hpc : s.payload = .wait) :
    s.pipeline.packets.quantity = 0 := by
  obtain ⟨raw, packets, -, hpackets, -⟩ := hs.pipeline
  rw [hpackets.quantity_eq_zero_iff, ← hpackets.inicio_eq_none_iff]
  exact hs.nothing hpc

/-- A step that leaves the queues as they are, of a thread other than
`main`. -/
theorem Main.Inv.frame (hi : m.Inv) {threads : Threads} (hsound : threads.Sound)
    (hcapture : threads.capture = m.threads.capture)
    (hpipeline : threads.pipeline = m.threads.pipeline)
    (hasleep : threads.monitor.asleep .payload = some .condPayload →
      m.threads.monitor.asleep .payload = some .condPayload ∨ m.threads.payload = .wait) :
    Main.Inv { m with threads } := by
  refine ⟨hsound, hi.test, ?_, ?_, fun h => ?_⟩
  · simpa only [hcapture, hpipeline] using hi.counted
  · simpa only [hcapture] using hi.recent
  · simp only [hcapture, hpipeline]
    rcases hasleep h with hslept | hwait
    · exact hi.waiting hslept
    · exact .inr ((hi.sound.nothing_quantity hwait).trans_le hi.test)

theorem Main.Inv.processing (hi : m.Inv) (hchoice : i.choice = .processing turn)
    (h : m.step i = some m') : m'.Inv := by
  obtain ⟨threads, hthreads, rfl⟩ := Option.map_eq_some_iff.mp h
  simp only [hchoice, Main.choice] at hthreads
  have hsound := hi.sound.step hthreads
  obtain ⟨⟨monitor, pipeline, pc⟩, hloop, rfl⟩ := Option.map_eq_some_iff.mp hthreads
  have hstep := loopStep_ok hloop
  unfold Main.assign
  rw [hchoice]
  dsimp only
  by_cases hpc : m.threads.processing = .take
  · have hpos := hi.sound.raw_bounds.2.2 hpc
    have hcounted := hi.counted
    rw [hpc] at hstep ⊢
    cases hstep with
    | took _ hwork =>
      obtain ⟨hraw, ⟨hrecords, hpackets⟩ | ⟨hrecords, hpackets⟩⟩ := processing_quantity hpos hwork
      · simp only [hrecords, Bool.false_eq_true, ↓reduceIte]
        refine ⟨hsound, hi.test, ?_, hi.recent, ?_⟩
        · dsimp only
          omega
        · exact fun hasleep => hpackets ▸ hi.waiting hasleep
      · simp only [hrecords, ↓reduceIte]
        refine ⟨hsound, ?_, ?_, hi.recent, fun hasleep => ?_⟩
        · exact Int.le_add_one hi.test
        · dsimp only
          omega
        · refine (hi.waiting hasleep).imp id fun hle => ?_
          exact hpackets.trans (Int.add_le_add_right hle 1)
  · have hframe := hi.frame hsound rfl (hstep.took_inv.resolve_right hpc)
      (fun h => .inl (hstep.asleep_other h (by simp)))
    split
    · exact absurd ‹_› hpc
    · exact hframe

theorem Main.Inv.payload (hi : m.Inv) (hchoice : i.choice = .payload) (h : m.step i = some m') :
    m'.Inv := by
  obtain ⟨threads, hthreads, rfl⟩ := Option.map_eq_some_iff.mp h
  simp only [hchoice, Main.choice] at hthreads
  have hsound := hi.sound.step hthreads
  obtain ⟨⟨monitor, pipeline, pc⟩, hloop, rfl⟩ := Option.map_eq_some_iff.mp hthreads
  have hstep := loopStep_ok hloop
  unfold Main.assign
  rw [hchoice]
  dsimp only
  by_cases hpc : m.threads.payload = .take
  · have hne := hi.sound.packets hpc
    rw [hpc] at hstep
    cases hstep with
    | took _ hwork =>
      have hquantity := routinePayload_quantity hne hwork
      refine ⟨hsound, hi.test, ?_, hi.recent, fun _ => .inr ?_⟩
      · simpa only [routinePayload_raw hwork] using hi.counted
      · exact hquantity.trans_le hi.test
  · refine hi.frame hsound rfl (hstep.took_inv.resolve_right hpc) fun hasleep => ?_
    exact .inr (hstep.asleep_self (fun c hc => (hi.sound.inv.sleeper _ c hc).2) hasleep).2.1

theorem Main.Inv.step (hi : m.Inv) (hforward : m.Forward i) (h : m.step i = some m') : m'.Inv := by
  cases hchoice : i.choice with
  | capture turn => exact hi.capture hforward hchoice h
  | processing turn => exact hi.processing hchoice h
  | payload => exact hi.payload hchoice h
  | spurious role =>
    obtain ⟨threads, hthreads, rfl⟩ := Option.map_eq_some_iff.mp h
    simp only [hchoice, Main.choice] at hthreads
    have hsound := hi.sound.step hthreads
    simp only [Threads.step] at hthreads
    split at hthreads <;> cases hthreads
    unfold Main.assign
    rw [hchoice]
    exact hi.frame hsound rfl rfl fun hasleep => .inl (Monitor.wake_asleep hasleep).2

-- ---------------------------------------------------------------------------
-- The policy
-- ---------------------------------------------------------------------------

theorem Main.step_threads (h : m.step i = some m') :
    m.threads.step (m.choice i.choice) = some m'.threads := by
  obtain ⟨threads, hthreads, rfl⟩ := Option.map_eq_some_iff.mp h
  exact hthreads

/-- The counter does not overflow. While `routine_payload` sleeps, it counts
the records on the list, unless the signal is on its way; and `main` does not
go back to `recvfrom` with a flush overdue, by `currsecs`: that is the time when
`recvfrom` has last returned, and the only clock `main` compares.

Premise: the clock does not go back. -/
theorem flush_policy {secs : Int} {inputs : List Timed}
    (hforward : Along Main.step Main.Forward (.start secs) inputs)
    (h : run Main.step (.start secs) inputs = some m) :
    (∃ choices, choices.length = inputs.length ∧
        run Threads.step {} choices = some m.threads) ∧
      0 ≤ m.test ∧ m.test ≤ 3000 ∧
      (m.threads.monitor.asleep .payload ≠ none →
        m.threads.capture.Flushing ∨ m.threads.pipeline.packets.quantity ≤ m.test) ∧
      (m.threads.capture = .recvfrom →
        m.currsecs - m.secs < 4 ∧ m.test + m.threads.pipeline.raw.quantity < 3000) := by
  have hi := run_inv (fun _ _ _ hstep hforward hi => Main.Inv.step hi hforward hstep) (.start secs)
    hforward h
  obtain ⟨hraw, -⟩ := hi.sound.raw_bounds
  have hbound : m.threads.capture.bound ≤ 3000 := by
    cases m.threads.capture <;> simp [CapturePc.bound]
  have hcounted := hi.counted
  refine ⟨run_simulates (f := Main.threads) (fun m i m' hstep => ⟨_, Main.step_threads hstep⟩) h,
    hi.test, by omega, fun hasleep => ?_, fun hpc => ⟨hi.recent hpc, ?_⟩⟩
  · obtain ⟨cond, hcond⟩ := Option.ne_none_iff_exists'.mp hasleep
    obtain ⟨rfl, -⟩ := hi.sound.inv.sleeper _ _ hcond
    exact hi.waiting hcond
  · rw [hpc] at hcounted
    simp only [CapturePc.bound] at hcounted
    omega

-- ---------------------------------------------------------------------------
-- A flush
-- ---------------------------------------------------------------------------

/-- `main` has found a flush due, and has not sent the signal. -/
def Main.Overdue (m : Main) : Prop :=
  match m.threads.capture with
  | .due => m.due = true
  | .lockTest | .unlockTest | .signalPayload => True
  | _ => False

/-- The records are on their way, or gone, and `routine_payload` does not
sleep over them once the signal is sent. -/
structure Main.Flushes (records : List (Tagged FullInternetPacket)) (m : Main) : Prop where
  sound : m.threads.Sound
  kept : ∀ r ∈ records, r ∈ m.threads.pipeline.listed ∨ m.threads.pipeline.Gone r
  sent : m.Overdue ∨ (m.threads.monitor.asleep .payload = some .condPayload →
    ∀ r ∈ records, m.threads.pipeline.Gone r)

variable {s s' : Threads} {r : Tagged FullInternetPacket}
  {records : List (Tagged FullInternetPacket)}

theorem Threads.step_gone {choice : Choice} (h : s.step choice = some s')
    (hr : s.pipeline.Gone r) : s'.pipeline.Gone r := by
  rcases threads_step_pipeline h with heq | ⟨action, haction⟩
  · exact heq ▸ hr
  · exact pipeline_step_gone haction hr

theorem Threads.Sound.step_kept {choice : Choice} (hs : s.Sound) (h : s.step choice = some s')
    (hr : r ∈ s.pipeline.listed ∨ s.pipeline.Gone r) :
    r ∈ s'.pipeline.listed ∨ s'.pipeline.Gone r := by
  rcases hr with hr | hr
  · rcases threads_step_pipeline h with heq | ⟨action, haction⟩
    · exact .inl (heq ▸ hr)
    · exact pipeline_step_listed hs.pipeline haction hr
  · exact .inr (Threads.step_gone h hr)

/-- `routine_payload` goes to sleep at its call of `pthread_cond_wait`. -/
theorem Threads.Sound.fell_asleep {choice : Choice} (hs : s.Sound) (h : s.step choice = some s')
    (hasleep : s'.monitor.asleep .payload = some .condPayload) :
    s.monitor.asleep .payload = some .condPayload ∨ s.payload = .wait := by
  cases choice with
  | capture turn =>
    left
    cases captureStep_move h with
    | signalled monitor hpc hm | signalledPayload monitor hpc hm =>
      exact (Monitor.signal_spec hm).2 _ _ hasleep
    | _ => exact hasleep
  | processing turn =>
    obtain ⟨⟨monitor, pipeline, pc⟩, hloop, rfl⟩ := Option.map_eq_some_iff.mp h
    exact .inl ((loopStep_ok hloop).asleep_other hasleep (by simp))
  | payload =>
    obtain ⟨⟨monitor, pipeline, pc⟩, hloop, rfl⟩ := Option.map_eq_some_iff.mp h
    have hpc : ∀ cond, s.monitor.asleep .payload = some cond → s.payload = .waiting :=
      fun cond hcond => (hs.inv.sleeper _ cond hcond).2
    exact .inr ((loopStep_ok hloop).asleep_self hpc hasleep).2.1
  | spurious role =>
    simp only [Threads.step] at h
    split at h <;> cases h
    exact .inl (Monitor.wake_asleep hasleep).2

/-- Where `routine_payload` waits, nothing is listed. -/
theorem Threads.Sound.nothing_listed (hs : s.Sound) (hpc : s.payload = .wait) :
    s.pipeline.listed = [] := by
  obtain ⟨raw, packets, -, hpackets, -⟩ := hs.pipeline
  rw [listed_eq hpackets, ← hpackets.inicio_eq_none_iff]
  exact hs.nothing hpc

theorem Main.Overdue.mono (h : m.Overdue) (hcapture : m'.threads.capture = m.threads.capture)
    (hdue : m.due = true → m'.due = true) : m'.Overdue := by
  unfold Main.Overdue at h ⊢
  rw [hcapture]
  cases hpc : m.threads.capture with
  | due =>
    rw [hpc] at h
    exact hdue h
  | lockTest | unlockTest | signalPayload => trivial
  | _ =>
    rw [hpc] at h
    exact h

/-- A flush that is due stays due until the signal is sent, and then nobody
sleeps on the condition. -/
theorem Main.step_overdue (hs : m.threads.Sound) (hover : m.Overdue) (h : m.step i = some m') :
    m'.Overdue ∨ m'.threads.monitor.asleep .payload ≠ some .condPayload := by
  obtain ⟨threads, hthreads, rfl⟩ := Option.map_eq_some_iff.mp h
  cases hchoice : i.choice with
  | capture turn =>
    simp only [hchoice, Main.choice] at hthreads
    unfold Main.Overdue at hover
    cases captureStep_move hthreads with
    | notDue hpc hdue =>
      rw [hpc] at hover
      cases hdue.symm.trans hover
    | due hpc hdue => exact .inl trivial
    | lockedTest hpc hfree => exact .inl trivial
    | unlockedTest hpc howner => exact .inl trivial
    | signalledPayload monitor hpc hm => exact .inr (hs.signalled hm)
    | received hpc | nothing hpc | locked _ _ hpc | added _ _ _ hpc | unlocked hpc
    | signalled _ hpc =>
      rw [hpc] at hover
      exact hover.elim
  | processing turn =>
    simp only [hchoice, Main.choice] at hthreads
    obtain ⟨⟨monitor, pipeline, pc⟩, -, rfl⟩ := Option.map_eq_some_iff.mp hthreads
    refine .inl (hover.mono ?_ fun hdue => ?_)
    · rfl
    · simp only [Main.due, Main.assign, hchoice] at hdue ⊢
      split
      · split
        · simp only [ge_iff_le, Bool.or_eq_true, decide_eq_true_eq] at hdue ⊢
          omega
        · exact hdue
      · exact hdue
  | payload =>
    simp only [hchoice, Main.choice] at hthreads
    obtain ⟨⟨monitor, pipeline, pc⟩, -, rfl⟩ := Option.map_eq_some_iff.mp hthreads
    refine .inl (hover.mono rfl fun hdue => ?_)
    simpa only [Main.due, Main.assign, hchoice] using hdue
  | spurious role =>
    simp only [hchoice, Main.choice, Threads.step] at hthreads
    split at hthreads <;> cases hthreads
    refine .inl (hover.mono rfl fun hdue => ?_)
    simpa only [Main.due, Main.assign, hchoice] using hdue

theorem Main.Flushes.step (hf : m.Flushes records) (h : m.step i = some m') :
    m'.Flushes records := by
  have hthreads := Main.step_threads h
  refine ⟨hf.sound.step hthreads, fun r hr => hf.sound.step_kept hthreads (hf.kept r hr), ?_⟩
  rcases hf.sent with hover | hsent
  · rcases Main.step_overdue hf.sound hover h with hover' | hawake
    · exact .inl hover'
    · exact .inr fun hasleep => absurd hasleep hawake
  · refine .inr fun hasleep r hr => Threads.step_gone hthreads ?_
    rcases hf.sound.fell_asleep hthreads hasleep with hslept | hwait
    · exact hsent hslept r hr
    · refine (hf.kept r hr).resolve_left ?_
      simp [hf.sound.nothing_listed hwait]

/-- A flush that `main` finds due sends what is on the list. Whatever comes in
and in whatever order the threads run, when `main` is next at `recvfrom` and
`routine_payload` asleep, each of the records has been handed to
`generate_json_payload`, or been dropped from the full list. -/
theorem flush_sends {secs : Int} {inputs more : List Timed} {t : Main}
    (h : run Main.step (.start secs) inputs = some m) (hpc : m.threads.capture = .due)
    (hdue : m.due = true) (hmore : run Main.step m more = some t)
    (hcapture : t.threads.capture = .recvfrom)
    (hasleep : t.threads.monitor.asleep .payload ≠ none) :
    ∀ r ∈ m.threads.pipeline.listed, r ∈ t.threads.pipeline.ledger.shipped.flatten ∨
      r.frame ∈ frames t.threads.pipeline.ledger.evictedPackets := by
  have hstart : (Main.start secs).Flushes [] := ⟨.start, by simp, .inr (by simp)⟩
  have hsound := (run_keeps (fun _ _ _ hstep hf => Main.Flushes.step hf hstep) hstart h).sound
  have hflushes : m.Flushes m.threads.pipeline.listed := by
    refine ⟨hsound, fun r hr => .inl hr, .inl ?_⟩
    rw [Main.Overdue, hpc]
    exact hdue
  have hf := run_keeps (fun _ _ _ hstep hf => Main.Flushes.step hf hstep) hflushes hmore
  obtain ⟨cond, hcond⟩ := Option.ne_none_iff_exists'.mp hasleep
  obtain ⟨rfl, -⟩ := hf.sound.inv.sleeper _ _ hcond
  refine hf.sent.resolve_left (fun hover => ?_) hcond
  rw [Main.Overdue, hcapture] at hover
  exact hover

deriving instance DecidableEq for LoopPc

def synTurn : Turn where
  buffer := Content.ofBytes synFrame.encode
  bytesRecived := 70
  due := false
  hint := 0
  junk := fun _ => 0
  now := noon
  woken := .processing

/-- `routine_payload` goes to sleep, and a frame comes in after four
seconds. -/
def synDue : List Timed :=
  List.replicate 3 ⟨.payload, 0⟩ ++ List.replicate 5 ⟨.capture synTurn, 4⟩ ++
    List.replicate 4 ⟨.processing synTurn, 4⟩

/-- `main` flushes, and the payload thread goes once round its loop. -/
def synFlushed : List Timed :=
  List.replicate 4 ⟨.capture { synTurn with woken := .payload }, 4⟩ ++
    List.replicate 7 ⟨.payload, 4⟩

theorem flush_policy_syn :
    ∃ m, run Main.step (.start 0) synDue = some m ∧ 0 ≤ m.test ∧ m.test ≤ 3000 ∧
      m.threads.pipeline.packets.quantity ≤ m.test := by
  have h : (run Main.step (.start 0) synDue).any fun m =>
      m.threads.monitor.asleep .payload ≠ none ∧ ¬ m.threads.capture.Flushing := by
    decide +kernel
  simp only [Option.any_eq_true, decide_eq_true_eq] at h
  obtain ⟨m, h, hasleep, hflushing⟩ := h
  obtain ⟨-, hpos, hle, hwaiting, -⟩ := flush_policy (by decide +kernel) h
  exact ⟨m, h, hpos, hle, (hwaiting hasleep).resolve_left hflushing⟩

theorem flush_sends_syn :
    ∃ m t, run Main.step (.start 0) synDue = some m ∧ run Main.step m synFlushed = some t ∧
      m.threads.pipeline.listed ≠ [] ∧ ∀ r ∈ m.threads.pipeline.listed,
        r ∈ t.threads.pipeline.ledger.shipped.flatten ∨
          r.frame ∈ frames t.threads.pipeline.ledger.evictedPackets := by
  have h : (run Main.step (.start 0) synDue).any fun m =>
      m.threads.capture.weight = 7 ∧ m.due = true ∧ m.threads.pipeline.listed.length = 1 ∧
      (run Main.step m synFlushed).any fun t =>
        t.threads.capture.weight = 0 ∧ t.threads.monitor.asleep .payload ≠ none := by
    decide +kernel
  simp only [Option.any_eq_true, decide_eq_true_eq] at h
  obtain ⟨m, h, hweight, hdue, hlisted, t, hmore, hweight', hasleep⟩ := h
  have hpc : m.threads.capture = .due := by
    revert hweight
    cases m.threads.capture <;> simp [CapturePc.weight]
  have hcapture : t.threads.capture = .recvfrom := by
    revert hweight'
    cases t.threads.capture <;> simp [CapturePc.weight]
  refine ⟨m, t, h, hmore, ?_, flush_sends h hpc hdue hmore hcapture hasleep⟩
  exact List.ne_nil_of_length_pos (by omega)

end WireSentinel
