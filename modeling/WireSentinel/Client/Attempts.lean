import WireSentinel.Client.Delivery
import WireSentinel.Client.Ingest

/-!
# The attempts of a batch

A batch may be sent several times, and a server that is slow may process it
several times. `attempts_faithful` says that all attempts carry the same
text, and `ingested_in_order` that no batch is left out or overtaken where
`recv` returns bytes of the response it waits for.
-/

namespace WireSentinel

open Text (cString)

-- ---------------------------------------------------------------------------
-- What is sent
-- ---------------------------------------------------------------------------

/-- The requests the batches were written into, oldest first. -/
def taken : List Event → List CString
  | [] => []
  | .took request :: past => taken past ++ [request]
  | _ :: past => taken past

/-- The `requests`, with the text each of them had. -/
def handedOver : List Event → List (Request × CString)
  | [] => []
  | .sent _ .ingest number text result :: past =>
    if result = text.length then (⟨batches past, connections past, number⟩, text) :: handedOver past
    else handedOver past
  | _ :: past => handedOver past

/-- The request has the text its batch was written into. -/
def Carries (past : List Event) (r : Request) (text : CString) : Prop :=
  ∃ k, r.batch = k + 1 ∧ (taken past)[k]? = some text

/-- With a batch that is not answered yet. -/
def Pc.AtHand (pc : Pc) : Prop := pc.Sends ∨ pc = .ingestRecv

/-- What `recv` returns behind an ingest request, unless it fails, is bytes of
the response to that request; and it is not 0, as when the server closes. -/
def HearsLast (t : Thread) (i : Input) : Prop :=
  t.pc = .ingestRecv → ∀ chunk, i.answer = .recv (.data chunk) →
    chunk.bytes ≠ [] ∧ chunk.request = t.requests

def Party.Hears (s : Exchange) : Party → Prop
  | .client i => HearsLast s.thread i
  | .server _ => True

/-- The server has processed all batches before this one. -/
def InOrder (earlier : List Request) (r : Request) : Prop :=
  ∀ batch, 0 < batch → batch < r.batch → ∃ r' ∈ earlier, r'.batch = batch

variable {c : Settings} {i : Input} {t t' : Thread} {past : List Event} {e : Event}

theorem taken_length (past : List Event) : (taken past).length = batches past := by
  induction past with
  | nil => rfl
  | cons e past ih => cases e <;> simp [taken, batches, ih]

theorem requests_eq (past : List Event) : requests past = (handedOver past).map Prod.fst := by
  induction past with
  | nil => rfl
  | cons e past ih =>
    cases e with
    | sent fd endpoint number text result =>
      cases endpoint with
      | ingest =>
        rw [requests, handedOver]
        split <;> simp [ih]
      | _ => exact ih
    | _ => exact ih

theorem Event.Aside.taken (e : Event) (past : List Event) (h : e.Aside) :
    WireSentinel.taken (e :: past) = WireSentinel.taken past := by
  cases e <;> simp_all [Event.Aside, WireSentinel.taken]

theorem Event.Aside.handedOver (e : Event) (past : List Event) (h : e.Aside) :
    WireSentinel.handedOver (e :: past) = WireSentinel.handedOver past := by
  cases e with
  | sent fd endpoint number text result =>
    cases endpoint <;> simp_all [Event.Aside, WireSentinel.handedOver]
  | _ => rfl

/-- The batch at hand is the one taken last. -/
theorem Pending.taken (h : Pending request past) :
    (WireSentinel.taken past).getLast? = some request := by
  induction past with
  | nil => simp [Pending, Since] at h
  | cons e past ih =>
    rcases h with h | ⟨he, h⟩
    · obtain rfl : e = .took request := Option.some.inj h
      simp [WireSentinel.taken]
    · cases e with
      | took request => exact he.elim
      | _ => exact ih h

theorem Pending.carries (h : Pending request past) (hbatch : r.batch = batches past) :
    Carries past r request := by
  have hlast := h.taken
  rw [List.getLast?_eq_getElem?, taken_length] at hlast
  have hpos : batches past ≠ 0 := by
    intro hzero
    have hlen := taken_length past
    rw [hzero, List.length_eq_zero_iff] at hlen
    simp [hlen] at hlast
  exact ⟨batches past - 1, by omega, hlast⟩

theorem Carries.suffix (h : Carries past r text) (hs : past <:+ past') : Carries past' r text := by
  obtain ⟨k, hk, htext⟩ := h
  obtain ⟨later, rfl⟩ := hs
  refine ⟨k, hk, ?_⟩
  induction later with
  | nil => exact htext
  | cons e later ih =>
    cases e with
    | took request =>
      simp only [List.cons_append, taken]
      rw [List.getElem?_append_left (List.getElem?_eq_some_iff.mp ih).1, ih]
    | _ => exact ih

-- ---------------------------------------------------------------------------
-- All attempts are alike
-- ---------------------------------------------------------------------------

@[simp] theorem Thread.getUuid_requests (heap : List Char) (next : Pc) (t : Thread) :
    (t.getUuid heap next).requests = t.requests := by
  unfold Thread.getUuid
  split
  · rfl
  · split <;> rfl

@[simp] theorem Thread.startUp_requests (c : Settings) (i : Input) (t : Thread) :
    (t.startUp c i).requests = t.requests := by
  unfold Thread.startUp
  split
  · rfl
  · exact Thread.getUuid_requests _ _ t

@[simp] theorem Thread.authReceived_requests (c : Settings) (received : Received) (i : Input)
    (t : Thread) : (t.authReceived c received i).requests = t.requests := by
  unfold Thread.authReceived
  dsimp only
  split
  · rfl
  · split
    · exact Thread.getUuid_requests ..
    · rfl

@[simp] theorem Thread.registerReceived_requests (caller : Caller) (received : Received)
    (i : Input) (t : Thread) : (t.registerReceived caller received i).requests = t.requests := by
  rcases Thread.registerReceived_spec caller received i t with ⟨-, pc, -, h⟩ | ⟨uuid, -, h⟩
  all_goals rw [h]
  · rfl
  · cases caller <;> rfl

/-- Requests are only added. -/
theorem Thread.step_requests (h : t.step c i = some t') : t.requests ≤ t'.requests := by
  cases Thread.step_sound h with
  | configured => exact (Thread.startUp_requests c i (t.record _)).ge
  | authReceived => exact (Thread.authReceived_requests ..).ge
  | registerReceived => exact (Thread.registerReceived_requests ..).ge
  | took =>
    rcases Thread.takeBatch_spec c _ i.now t with h | ⟨payload, -, h⟩
    all_goals exact h ▸ le_refl t.requests
  | authSent | registerSent | ingestSent | ingestResent => exact Nat.le_succ _
  | @ingestReceived received =>
    cases received with
    | failed => exact le_refl _
    | data chunk =>
      rcases Thread.ingestReceived_spec c chunk i t with ⟨-, h⟩ | ⟨-, h⟩ | ⟨-, h⟩
      all_goals exact h ▸ le_refl t.requests
  | _ => exact le_refl _

theorem Thread.ingestSent_requests (h : t.step c i = some t')
    (hpc : t.pc = .ingestSend ∨ t.pc = .ingestResend) : t'.requests = t.requests + 1 := by
  cases Thread.step_sound h with
  | ingestSent | ingestResent => rfl
  | _ => simp_all

/-- What is known of the requests at each call. -/
structure Sourced (t : Thread) : Prop where
  phase : t.Phase
  text : ∀ p ∈ handedOver t.trace, Carries t.trace p.1 p.2
  number : ∀ r ∈ requests t.trace, r.number ≤ t.requests
  last : t.pc = .ingestRecv → ∀ r ∈ requests t.trace, r.number = t.requests →
    r.batch = batches t.trace

theorem Sourced.aside (hs : Sourced t) (hphase : t'.Phase) (hrequests : t.requests ≤ t'.requests)
    (later : List Event) (htrace : t'.trace = later ++ t.trace)
    (hsame : handedOver t'.trace = handedOver t.trace) (hpc' : t'.pc ≠ .ingestRecv) :
    Sourced t' := by
  refine ⟨hphase, ?_, ?_, fun h => absurd h hpc'⟩
  · rw [hsame]
    exact fun p hp => (hs.text p hp).suffix ⟨later, htrace.symm⟩
  · rw [requests_eq, hsame, ← requests_eq]
    exact fun r hr => (hs.number r hr).trans hrequests

/-- A request goes out, with a number of its own. -/
theorem Sourced.sent (hs : Sourced t) (hphase : t'.Phase) (hrequests : t.requests < t'.requests)
    (hpc' : t'.pc = .ingestRecv)
    (htrace : t'.trace = .sent fd .ingest n request result :: t.trace) : Sourced t' := by
  have hphase' := hphase
  rw [Thread.Phase, hpc'] at hphase'
  obtain ⟨before, heq, hpending, -⟩ := hphase'
  obtain ⟨hevent, rfl⟩ := List.cons.inj (htrace.symm.trans heq)
  cases hevent
  have hsuffix : t.trace <:+ t'.trace := htrace ▸ List.suffix_cons _ _
  have hnew : ∀ r ∈ requests t'.trace, r ∈ requests t.trace ∨
      r = ⟨batches t.trace, connections t.trace, t'.requests⟩ := by
    intro r hr
    rw [htrace, requests] at hr
    split at hr
    · exact (List.mem_cons.mp hr).symm
    · exact .inl hr
  refine ⟨hphase, fun p hp => ?_, fun r hr => ?_, fun _ r hr hnumber => ?_⟩
  · rw [htrace, handedOver] at hp
    split at hp
    · rcases List.mem_cons.mp hp with rfl | hp
      · exact (hpending.carries rfl).suffix hsuffix
      · exact (hs.text p hp).suffix hsuffix
    · exact (hs.text p hp).suffix hsuffix
  · rcases hnew r hr with hr | rfl
    · exact (hs.number r hr).trans hrequests.le
    · exact le_refl _
  · rw [htrace]
    rcases hnew r hr with hr | rfl
    · exact absurd hnumber ((hs.number r hr).trans_lt hrequests).ne
    · rfl

theorem Sourced.step (hs : Sourced t) (h : t.step c i = some t') : Sourced t' := by
  have hphase := (hs.phase.step h).1
  have hrequests := Thread.step_requests h
  have haside : ∀ later, t'.trace = later ++ t.trace → (∀ e ∈ later, e.Aside) →
      t'.pc ≠ .ingestRecv → Sourced t' := by
    intro later htrace hlater hpc'
    refine hs.aside hphase hrequests later htrace ?_ hpc'
    rw [htrace]
    exact append_of_skips Event.Aside.handedOver hlater _
  have hm := Thread.step_move h
  cases hm with
  | resolved site ok hpc hpc' htrace =>
    exact haside [_] htrace (by simp [Event.Aside]) (by simp [hpc'])
  | unresolved hpc hpc' htrace =>
    exact haside [_] htrace (by simp [Event.Aside]) (by simp [hpc'])
  | opened site fd hpc hpc' hfd htrace =>
    exact haside [_] htrace (by simp [Event.Aside]) (by simp [hpc'])
  | connected site hpc ha hpc' hfd htrace =>
    refine haside [_] htrace (by simp [Event.Aside]) ?_
    cases site <;> simp [hpc', Thread.resume]
  | refused site hpc ha hpc' htrace =>
    exact haside [_] htrace (by simp [Event.Aside]) (by simp [hpc'])
  | configured hpc hpc' hfd htrace =>
    exact haside [_] htrace (by simp [Event.Aside]) hpc'.not_sends.1
  | talked talk hbusy hpc hpc' hfd htalk htrace =>
    exact haside talk htrace (fun e he => (htalk e he).aside) hpc'.not_sends.1
  | took request hpc hpc' hfd htrace =>
    refine hs.aside hphase hrequests [_] htrace ?_ (by simp [hpc'])
    rw [htrace]
    rfl
  | sent n request result hpc hresult hpc' hfd htrace =>
    have hnext := Thread.ingestSent_requests h hpc
    exact hs.sent hphase (by omega) hpc' htrace
  | sendFailed site n request hpc hsite hpc' hfd htrace =>
    refine hs.aside hphase hrequests [_] htrace ?_ (by simp [hpc'])
    rw [htrace, handedOver, if_neg (by omega)]
  | recvFailed hpc hpc' hfd htrace =>
    refine hs.aside hphase hrequests [_] htrace ?_ (by simp [hpc'])
    rw [htrace]
    rfl
  | answered chunk talk hpc hpc' hfd htalk htrace =>
    refine haside (talk ++ [.received t.socketfd .ingest (.data chunk)]) (by simpa using htrace) ?_
      hpc'.not_sends.1
    refine List.forall_mem_append.mpr ⟨fun e he => (htalk e he).aside, ?_⟩
    exact List.forall_mem_singleton.mpr trivial
  | closed site hpc hpc' htrace =>
    exact haside [_] htrace (by simp [Event.Aside]) (by simp [hpc'])

theorem Sourced.start (uuidFile : Option CString) (recvBuffer : List Char) :
    Sourced (.start uuidFile recvBuffer) := by
  refine ⟨fun hsite => absurd rfl hsite, ?_, ?_, fun hpc => by cases hpc⟩
  · simp [Thread.start, handedOver]
  · simp [Thread.start, requests]

-- ---------------------------------------------------------------------------
-- At least once, and in order
-- ---------------------------------------------------------------------------

variable {s s' : Exchange} {party : Party}

/-- All batches have been processed but the one at hand, each behind those
before it. -/
structure Exchange.Prompt (s : Exchange) : Prop where
  before : ∀ batch, 0 < batch → batch < batches s.thread.trace → 0 < s.ingested batch
  settled : ¬ s.thread.pc.AtHand → 0 < batches s.thread.trace →
    0 < s.ingested (batches s.thread.trace)
  order : Always InOrder s.processed

theorem Exchange.ingested_pos {batch : Nat} :
    0 < s.ingested batch ↔ ∃ r ∈ s.processed, r.batch = batch := by
  simp [Exchange.ingested, List.countP_pos_iff]

theorem Pc.Apart.not_atHand {pc : Pc} (h : pc.Apart) : ¬ pc.AtHand :=
  fun hhand => hhand.elim h.not_sends.2 h.not_sends.1

/-- Behind the `recv` of a response the batch has been processed. -/
theorem Exchange.answered_ingested (hs : Sourced s.thread)
    (hhanded : s.processed ⊆ requests s.thread.trace) (hpc : s.thread.pc = .ingestRecv)
    (ha : i.answer = .recv (.data chunk)) (hears : s.hears i = true)
    (hlast : HearsLast s.thread i) : 0 < s.ingested (batches s.thread.trace) := by
  obtain ⟨hne, hnumber⟩ := hlast hpc chunk ha
  simp only [Exchange.hears, hpc, ha, Bool.or_eq_true, List.isEmpty_iff, hne, false_or,
    decide_eq_true_eq] at hears
  obtain ⟨r, hr, heq⟩ := List.mem_map.mp hears
  have hprocessed := (List.mem_filter.mp hr).1
  exact Exchange.ingested_pos.mpr ⟨r, hprocessed,
    hs.last hpc r (hhanded hprocessed) (heq.trans hnumber)⟩

theorem Exchange.Prompt.client (hp : s.Prompt)
    (hbatches : batches t'.trace = batches s.thread.trace)
    (hhand : ¬ t'.pc.AtHand → ¬ s.thread.pc.AtHand ∨ 0 < s.ingested (batches s.thread.trace)) :
    Exchange.Prompt { s with thread := t' } := by
  refine ⟨?_, fun hpc' hpos => ?_, hp.order⟩
  · rw [hbatches]
    exact hp.before
  · rw [hbatches] at hpos ⊢
    rcases hhand hpc' with hpc | hdone
    · exact hp.settled hpc hpos
    · exact hdone

theorem Exchange.Prompt.took (hp : s.Prompt) (hpc : s.thread.pc = .wait)
    (hpc' : t'.pc = .ingestSend) (htrace : t'.trace = .took request :: s.thread.trace) :
    Exchange.Prompt { s with thread := t' } := by
  refine ⟨fun batch hpos hlt => ?_, fun h => absurd (.inl (by simp [hpc', Pc.Sends])) h, hp.order⟩
  have hlt : batch < batches s.thread.trace + 1 := by simpa [htrace, batches] using hlt
  rcases Nat.lt_succ_iff_lt_or_eq.mp hlt with hlt | rfl
  · exact hp.before batch hpos hlt
  · exact hp.settled (by simp [hpc, Pc.AtHand, Pc.Sends]) hpos

theorem Exchange.Prompt.server (hp : s.Prompt) (hs : Sourced s.thread)
    (hr : r ∈ requests s.thread.trace) :
    Exchange.Prompt { s with processed := r :: s.processed } := by
  have hmore : ∀ batch, 0 < s.ingested batch →
      0 < Exchange.ingested batch { s with processed := r :: s.processed } := by
    intro batch h
    obtain ⟨r', hr', heq⟩ := Exchange.ingested_pos.mp h
    exact Exchange.ingested_pos.mpr ⟨r', List.mem_cons_of_mem _ hr', heq⟩
  refine ⟨fun batch hpos hlt => hmore _ (hp.before batch hpos hlt),
    fun hpc hpos => hmore _ (hp.settled hpc hpos), fun batch hpos hlt => ?_, hp.order⟩
  have hle : r.batch ≤ batches s.thread.trace := by
    rw [requests_eq] at hr
    obtain ⟨p, hp, rfl⟩ := List.mem_map.mp hr
    obtain ⟨k, hk, htext⟩ := hs.text p hp
    rw [hk, ← taken_length]
    exact (List.getElem?_eq_some_iff.mp htext).1
  exact Exchange.ingested_pos.mp (hp.before batch hpos (hlt.trans_le hle))

theorem Thread.answered_chunk (h : t.step c i = some t') (hpc : t.pc = .ingestRecv)
    (hpc' : t'.pc.Apart) : ∃ chunk, i.answer = .recv (.data chunk) := by
  cases Thread.step_sound h with
  | @ingestReceived received hpc ha =>
    cases received with
    | failed => exact hpc'.elim
    | data chunk => exact ⟨chunk, ha⟩
  | _ => simp_all

theorem Exchange.Prompt.clientStep (hp : s.Prompt) (hs : Sourced s.thread)
    (hhanded : s.processed ⊆ requests s.thread.trace) (h : s.thread.step c i = some t')
    (hears : s.hears i = true) (hlast : HearsLast s.thread i) :
    Exchange.Prompt { s with thread := t' } := by
  have hsends : s.thread.pc = .ingestSend ∨ s.thread.pc = .ingestResend → s.thread.pc.AtHand := by
    rintro (hpc | hpc) <;> simp [hpc, Pc.AtHand, Pc.Sends]
  have haside : ∀ later, t'.trace = later ++ s.thread.trace → (∀ e ∈ later, e.Aside) →
      batches t'.trace = batches s.thread.trace := fun later htrace hlater =>
    htrace ▸ append_of_skips Event.Aside.batches hlater _
  have hm := Thread.step_move h
  cases hm with
  | resolved site ok hpc hpc' htrace =>
    refine hp.client (haside [_] htrace (by simp [Event.Aside])) fun h => .inl ?_
    simpa [hpc, hpc', Pc.AtHand, Pc.Sends] using h
  | unresolved hpc hpc' htrace =>
    refine hp.client (haside [_] htrace (by simp [Event.Aside])) fun _ => .inl ?_
    simp [hpc, Pc.AtHand, Pc.Sends]
  | opened site fd hpc hpc' hfd htrace =>
    refine hp.client (haside [_] htrace (by simp [Event.Aside])) fun h => .inl ?_
    simpa [hpc, hpc', Pc.AtHand, Pc.Sends] using h
  | connected site hpc ha hpc' hfd htrace =>
    refine hp.client (haside [_] htrace (by simp [Event.Aside])) fun h => .inl ?_
    cases site <;> simp [hpc, hpc', Thread.resume, Pc.AtHand, Pc.Sends] at h ⊢
  | refused site hpc ha hpc' htrace =>
    refine hp.client (haside [_] htrace (by simp [Event.Aside])) fun h => .inl ?_
    simpa [hpc, hpc', Pc.AtHand, Pc.Sends] using h
  | configured hpc hpc' hfd htrace =>
    refine hp.client (haside [_] htrace (by simp [Event.Aside])) fun _ => .inl ?_
    simp [hpc, Pc.AtHand, Pc.Sends]
  | talked talk hbusy hpc hpc' hfd htalk htrace =>
    exact hp.client (haside talk htrace fun e he => (htalk e he).aside) fun _ => .inl hpc.not_atHand
  | took request hpc hpc' hfd htrace => exact hp.took hpc hpc' htrace
  | sent n request result hpc hresult hpc' hfd htrace =>
    refine hp.client (by rw [htrace]; rfl) fun h => absurd (.inr hpc') h
  | sendFailed site n request hpc hsite hpc' hfd htrace =>
    refine hp.client (by rw [htrace]; rfl) fun h => absurd (.inl ?_) h
    simpa [hpc', Pc.Sends] using hsite
  | recvFailed hpc hpc' hfd htrace =>
    refine hp.client (by rw [htrace]; rfl) fun h => absurd (.inl ?_) h
    simp [hpc', Pc.Sends]
  | answered chunk talk hpc hpc' hfd htalk htrace =>
    obtain ⟨chunk, ha⟩ := Thread.answered_chunk h hpc hpc'
    have hsame : batches t'.trace = batches s.thread.trace := by
      refine haside (talk ++ [.received s.thread.socketfd .ingest (.data _)])
        (by simpa using htrace) ?_
      refine List.forall_mem_append.mpr ⟨fun e he => (htalk e he).aside, ?_⟩
      exact List.forall_mem_singleton.mpr trivial
    exact hp.client hsame fun _ => .inr (Exchange.answered_ingested hs hhanded hpc ha hears hlast)
  | closed site hpc hpc' htrace =>
    refine hp.client (haside [_] htrace (by simp [Event.Aside])) fun h => .inl ?_
    simpa [hpc, hpc', Pc.AtHand, Pc.Sends] using h

/-- What goes out and what is processed is what was taken. -/
structure Exchange.Faithful (s : Exchange) : Prop where
  sourced : Sourced s.thread
  handed : s.processed ⊆ requests s.thread.trace

theorem Exchange.Faithful.start (uuidFile : Option CString) (recvBuffer : List Char) :
    Exchange.Faithful ⟨.start uuidFile recvBuffer, []⟩ :=
  ⟨Sourced.start uuidFile recvBuffer, by simp⟩

theorem Exchange.Prompt.start (uuidFile : Option CString) (recvBuffer : List Char) :
    Exchange.Prompt ⟨.start uuidFile recvBuffer, []⟩ :=
  ⟨fun _ _ hlt => absurd hlt (Nat.not_lt_zero _), fun _ hpos => absurd hpos (lt_irrefl 0), trivial⟩

theorem Exchange.Faithful.step (hf : s.Faithful) (h : s.step c party = some s') : s'.Faithful := by
  cases party with
  | client i =>
    simp only [Exchange.step] at h
    split at h
    · obtain ⟨t', ht', rfl⟩ := Option.map_eq_some_iff.mp h
      have hsuffix := (Thread.step_move ht').suffix
      exact ⟨hf.sourced.step ht', List.Subset.trans hf.handed (requests_suffix hsuffix)⟩
    · cases h
  | server request =>
    simp only [Exchange.step] at h
    split at h
    · rename_i hnew
      cases h
      exact ⟨hf.sourced, List.cons_subset.mpr ⟨hnew.1, hf.handed⟩⟩
    · cases h

theorem Exchange.Prompt.step (hp : s.Prompt) (hf : s.Faithful) (h : s.step c party = some s')
    (hears : party.Hears s) : s'.Prompt := by
  cases party with
  | client i =>
    simp only [Exchange.step] at h
    split at h
    · obtain ⟨t', ht', rfl⟩ := Option.map_eq_some_iff.mp h
      exact hp.clientStep hf.sourced hf.handed ht' ‹_› hears
    · cases h
  | server request =>
    simp only [Exchange.step] at h
    split at h
    · rename_i hnew
      cases h
      exact hp.server hf.sourced hnew.1
    · cases h

theorem Exchange.Faithful.mem (hf : s.Faithful) (hr : r ∈ s.processed) :
    ∃ text, (r, text) ∈ handedOver s.thread.trace ∧ Carries s.thread.trace r text := by
  have hmem := hf.handed hr
  rw [requests_eq] at hmem
  obtain ⟨⟨r, text⟩, hp, rfl⟩ := List.mem_map.mp hmem
  exact ⟨text, hp, hf.sourced.text _ hp⟩

/-- All that the server processes was handed over, and each attempt carries
the text its batch was written into when it was taken, the first attempt and
every later one.

Premise: the state is reached by any order of the steps of client and
server. -/
theorem attempts_faithful (c : Settings) (uuidFile : Option CString) (recvBuffer : List Char)
    (parties : List Party) {s : Exchange}
    (h : run (Exchange.step c) ⟨.start uuidFile recvBuffer, []⟩ parties = some s) :
    (∀ p ∈ handedOver s.thread.trace, Carries s.thread.trace p.1 p.2) ∧
      ∀ r ∈ s.processed, ∃ text, (r, text) ∈ handedOver s.thread.trace ∧
        Carries s.thread.trace r text := by
  have hf := run_keeps (fun _ _ _ hstep hf => Exchange.Faithful.step hf hstep)
    (Exchange.Faithful.start uuidFile recvBuffer) h
  exact ⟨hf.sourced.text, fun r hr => hf.mem hr⟩

theorem attempts_faithful_twice :
    ∃ s, run (Exchange.step localSettings) ⟨localStart, []⟩ ingestedTwice = some s ∧
      (∀ p ∈ handedOver s.thread.trace, Carries s.thread.trace p.1 p.2) ∧
        ∀ r ∈ s.processed, ∃ text, (r, text) ∈ handedOver s.thread.trace ∧
          Carries s.thread.trace r text := by
  obtain ⟨s, hrun, -⟩ := run_ingestedTwice
  exact ⟨s, hrun, attempts_faithful _ _ _ _ hrun⟩

-- ---------------------------------------------------------------------------
-- A turn with the server
-- ---------------------------------------------------------------------------

theorem along_clients {inputs : List Input}
    (h : Along (Thread.step c) NoResponse s.thread inputs) :
    Along (Exchange.step c) (fun s party => party.Hears s) s (inputs.map .client) := by
  induction inputs generalizing s with
  | nil => trivial
  | cons i inputs ih =>
    refine ⟨fun hpc chunk ha => absurd ha (h.1 hpc chunk), fun s' hs' => ?_⟩
    simp only [Exchange.step, Option.mem_def] at hs'
    split at hs'
    · obtain ⟨t', ht', rfl⟩ := Option.map_eq_some_iff.mp hs'
      exact ih (h.2 t' ht')
    · cases hs'

/-- The batch is sent, the server processes it, and its response is read. -/
def exchanged (request : CString) (pkts : List FullInternetPacket) (chunk : Chunk) (now : Tm)
    (stack : List Char) (r : Request) : List Party :=
  [⟨.batch pkts, now, stack, []⟩, ⟨.send request.length, now, stack, []⟩].map .client ++
    [.server r, .client ⟨.recv (.data chunk), now, stack, []⟩]

theorem run_exchanged (hpc : t.pc = .wait) (hne : pkts ≠ [])
    (hpayload : generateJsonPayload c.services pkts = some payload)
    (hrequest : generateRequest (c.sender now) payload t.uuidText = request)
    (hchunk : chunk.bytes ≠ [] ∧ chunk.request = t.requests + 1)
    (h : extractStatusCode (cString ((t.fill chunk).recvBuffer ++ stack)) = some 200) :
    let r : Request := ⟨batches t.trace + 1, connections t.trace, t.requests + 1⟩
    let parties := exchanged request pkts chunk now stack r
    ∃ t', run (Exchange.step c) ⟨t, []⟩ parties = some ⟨t', [r]⟩ ∧ t'.pc = .wait ∧
      t'.trace = .released :: .extracted .ingest (t.requests + 1) (some 200) none ::
        .received t.socketfd .ingest (.data chunk) ::
        .sent t.socketfd .ingest (t.requests + 1) request request.length ::
        .took request :: t.trace ∧
      Along (Exchange.step c) (fun s party => party.Hears s) ⟨t, []⟩ parties := by
  intro r parties
  let sent : Thread := { t with
    pc := .ingestRecv
    jsonRequest := request
    result := request.length
    requests := t.requests + 1
    trace := .sent t.socketfd .ingest (t.requests + 1) request request.length ::
      .took request :: t.trace }
  have hclient : run (Exchange.step c) ⟨t, []⟩
      ([⟨.batch pkts, now, stack, []⟩, ⟨.send request.length, now, stack, []⟩].map .client) =
        some ⟨sent, []⟩ :=
    run_clients (run_ingest hpc hne hpayload hrequest stack) (noResponse_of_forall (by simp) t)
  have hserver : Exchange.step c ⟨sent, []⟩ (.server r) = some ⟨sent, [r]⟩ := by
    simp [Exchange.step, sent, r, requests, batches, connections]
  have hears : Exchange.hears ⟨.recv (.data chunk), now, stack, []⟩ ⟨sent, [r]⟩ = true := by
    simp [Exchange.hears, Exchange.replies, sent, r, connections, hchunk.2]
  let done : Thread :=
    (((sent.fill chunk).answered .ingest (.data chunk) (some 200) none).record .released).goto .wait
  have hread : sent.ingestReceived c (.data chunk) ⟨.recv (.data chunk), now, stack, []⟩ =
      done := by
    unfold Thread.ingestReceived
    dsimp only
    rw [show extractStatusCode (cString ((sent.fill chunk).recvBuffer ++ stack)) = some 200 from h]
    rfl
  have hrecv : Exchange.step c ⟨sent, [r]⟩ (.client ⟨.recv (.data chunk), now, stack, []⟩) =
      some ⟨done, [r]⟩ := by
    rw [Exchange.step, if_pos hears]
    exact congrArg (fun thread => some (Exchange.mk thread [r])) hread
  refine ⟨done, (run_append hclient _).trans ?_, rfl, rfl,
    Along.append (along_clients (noResponse_of_forall (by simp) t)) hclient ?_⟩
  · rw [run, List.foldlM_cons, hserver, Option.bind_eq_bind, Option.bind_some, List.foldlM_cons,
      hrecv]
    rfl
  · refine ⟨trivial, fun s' hs' => ⟨fun _ chunk' ha => ?_, fun _ _ => trivial⟩⟩
    obtain rfl := Option.some.inj (hserver.symm.trans hs')
    cases ha
    exact hchunk

def exchangedBatch : List Party :=
  (greet localSettings 3 (okChunk 1) noon ['\x00']).map .client ++
    exchanged localRequest [synRecord] (okChunk 2) noon ['\x00'] ⟨1, 1, 2⟩

theorem run_greeted :
    ∃ t, run (Exchange.step localSettings) ⟨localStart, []⟩
        ((greet localSettings 3 (okChunk 1) noon ['\x00']).map .client) = some ⟨t, []⟩ ∧
      t.pc = .wait ∧ t.uuid = some localUuid ∧
      ∃ t', run (Exchange.step localSettings) ⟨t, []⟩ (exchanged localRequest [synRecord]
          (okChunk 2) noon ['\x00'] ⟨1, 1, 2⟩) = some ⟨t', [⟨1, 1, 2⟩]⟩ ∧
        (∃ n, .sent 3 .register 1 (localSettings.registerRequest noon) n ∈ t'.trace) ∧
        (∃ n, .sent 3 .ingest 2 localRequest n ∈ t'.trace) ∧
        Along (Exchange.step localSettings) (fun s party => party.Hears s) ⟨t, []⟩
          (exchanged localRequest [synRecord] (okChunk 2) noon ['\x00'] ⟨1, 1, 2⟩) := by
  obtain ⟨t, hgreet, hpc, huuid, hrequests, hfd, hbatches, hconnections, hregister⟩ :
      ∃ t, run (Exchange.step localSettings) ⟨localStart, []⟩
          ((greet localSettings 3 (okChunk 1) noon ['\x00']).map .client) = some ⟨t, []⟩ ∧
        t.pc = .wait ∧ t.uuid = some localUuid ∧ t.requests = 1 ∧ t.socketfd = 3 ∧
          batches t.trace = 0 ∧ connections t.trace = 1 ∧
          ∃ n, .sent 3 .register 1 (localSettings.registerRequest noon) n ∈ t.trace :=
    ⟨_, run_clients (run_greet 3 registeredUuid_local) (noResponse_greet 3 _), rfl, rfl, rfl, rfl,
      rfl, rfl, _, List.mem_cons_of_mem _ (List.mem_cons_of_mem _ List.mem_cons_self)⟩
  have hread : extractStatusCode (cString ((t.fill (okChunk 2)).recvBuffer ++ ['\x00'])) =
      some 200 := by
    rw [Thread.fill, List.append_assoc]
    exact (statusOk_ok _).extractStatusCode _
  have hrequest : generateRequest (localSettings.sender noon)
      (payloadText localSettings.services [synRecord]) t.uuidText = localRequest := by
    rw [Thread.uuidText, huuid]
    rfl
  have hexchanged := run_exchanged hpc (List.cons_ne_nil synRecord []) localSettings_payload
    hrequest ⟨by decide, congrArg (· + 1) hrequests.symm⟩ hread
  rw [hrequests, hbatches, hconnections, hfd] at hexchanged
  obtain ⟨t', hrun, -, htrace, halong⟩ := hexchanged
  refine ⟨t, hgreet, hpc, huuid, t', hrun, ?_, ?_, halong⟩
  · obtain ⟨n, hregister⟩ := hregister
    exact ⟨n, by simp [htrace, hregister]⟩
  · exact ⟨localRequest.length, by simp [htrace]⟩

/-- Each batch that was taken has been processed, but for the one at hand,
and the server processes none before it has processed those taken before it.

Premises: the state is reached by any order of the steps of client and
server, in which `recv` behind an ingest request fails, or returns bytes of the
response to it, at least one. -/
theorem ingested_in_order (c : Settings) (uuidFile : Option CString) (recvBuffer : List Char)
    (parties : List Party) {s : Exchange}
    (h : run (Exchange.step c) ⟨.start uuidFile recvBuffer, []⟩ parties = some s)
    (hears : Along (Exchange.step c) (fun s party => party.Hears s)
      ⟨.start uuidFile recvBuffer, []⟩ parties) :
    (∀ batch, 0 < batch → batch ≤ batches s.thread.trace →
      0 < s.ingested batch ∨ batch = batches s.thread.trace ∧ s.thread.pc.AtHand) ∧
      Always InOrder s.processed := by
  have hstep : ∀ (s : Exchange) party s', s.step c party = some s' → party.Hears s →
      s.Faithful ∧ s.Prompt → s'.Faithful ∧ s'.Prompt :=
    fun s party s' hs' hears hi => ⟨hi.1.step hs', hi.2.step hi.1 hs' hears⟩
  obtain ⟨-, hp⟩ := run_inv hstep ⟨.start uuidFile recvBuffer, .start uuidFile recvBuffer⟩ hears h
  refine ⟨fun batch hpos hle => ?_, hp.order⟩
  rcases Nat.lt_or_eq_of_le hle with hlt | rfl
  · exact .inl (hp.before batch hpos hlt)
  · by_cases hhand : s.thread.pc.AtHand
    · exact .inr ⟨rfl, hhand⟩
    · exact .inl (hp.settled hhand hpos)

theorem ingested_in_order_local :
    ∃ s, run (Exchange.step localSettings) ⟨localStart, []⟩ exchangedBatch = some s ∧
      (∀ batch, 0 < batch → batch ≤ batches s.thread.trace →
        0 < s.ingested batch ∨ batch = batches s.thread.trace ∧ s.thread.pc.AtHand) ∧
        Always InOrder s.processed := by
  obtain ⟨t, hgreet, -, -, t', hrun, -, -, halong⟩ := run_greeted
  have hexchanged := (run_append hgreet _).trans hrun
  exact ⟨_, hexchanged, ingested_in_order _ _ _ _ hexchanged
    (Along.append (along_clients (noResponse_greet 3 _)) hgreet halong)⟩

end WireSentinel
