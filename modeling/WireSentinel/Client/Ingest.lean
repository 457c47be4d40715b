import WireSentinel.Client.Session
import WireSentinel.Client.Moves
import Mathlib.Data.List.Perm.Subperm

/-!
# The batches at the server

The payload thread and a server that processes each ingest request it has
been handed whole, when it likes, and replies if the connection is still
there. When `recv` fails, the client cannot tell a late response from a lost
request, and sends the request again on a new connection; nothing in the
request says that it is not the first. `ingested_le` counts how often a batch
is processed.
-/

namespace WireSentinel

-- ---------------------------------------------------------------------------
-- The requests
-- ---------------------------------------------------------------------------

def batches : List Event → Nat
  | [] => 0
  | .took _ :: past => batches past + 1
  | _ :: past => batches past

def connections : List Event → Nat
  | [] => 0
  | .connected _ :: past => connections past + 1
  | _ :: past => connections past

/-- A request with a batch, on a connection: all counted from one. -/
structure Request where
  batch : Nat
  connection : Nat
  number : Nat
  deriving DecidableEq

/-- The requests that were handed to a connection whole, newest first. -/
def requests : List Event → List Request
  | [] => []
  | .sent _ .ingest number text result :: past =>
    if result = text.length then ⟨batches past, connections past, number⟩ :: requests past
    else requests past
  | _ :: past => requests past

def attempts (batch : Nat) (past : List Event) : Nat :=
  (requests past).countP (·.batch = batch)

/-- The last call was a `send` that took the whole request. -/
def justHanded : List Event → Bool
  | .sent _ .ingest _ text result :: _ => result = text.length
  | _ => false

/-- How often `recv` failed behind such a `send` of the batch. -/
def retries (batch : Nat) : List Event → Nat
  | [] => 0
  | .received _ .ingest .failed :: past =>
    if justHanded past ∧ batches past = batch then retries batch past + 1 else retries batch past
  | _ :: past => retries batch past

-- ---------------------------------------------------------------------------
-- The client and the server
-- ---------------------------------------------------------------------------

structure Exchange where
  thread : Thread
  /-- Newest first. -/
  processed : List Request := []

namespace Exchange

/-- The requests the current connection has a response to. -/
def replies (s : Exchange) : List Nat :=
  (s.processed.filter fun r => r.connection = connections s.thread.trace).map Request.number

/-- `recv` returns bytes of a response only if there is one. -/
def hears (i : Input) (s : Exchange) : Bool :=
  match s.thread.pc, i.answer with
  | .ingestRecv, .recv (.data chunk) => chunk.bytes.isEmpty || chunk.request ∈ s.replies
  | _, _ => true

/-- How often the server has processed the batch. -/
def ingested (batch : Nat) (s : Exchange) : Nat := s.processed.countP (·.batch = batch)

end Exchange

inductive Party where
  | client (i : Input)
  | server (request : Request)

def Exchange.step (c : Settings) (s : Exchange) : Party → Option Exchange
  | .client i =>
    if s.hears i then (s.thread.step c i).map fun thread => { s with thread } else none
  | .server request =>
    if request ∈ requests s.thread.trace ∧ request ∉ s.processed then
      some { s with processed := request :: s.processed }
    else none

-- ---------------------------------------------------------------------------
-- How often a batch is sent
-- ---------------------------------------------------------------------------

/-- With a batch, on the way to a `send`. -/
def Pc.Sends : Pc → Prop
  | .ingestSend | .ingestResend => True
  | .getaddrinfo site | .socket site | .connect site | .close site => site ≠ .startup
  | _ => False

/-- No batch is taken or sent, and no `recv` fails with one. -/
def Event.Aside : Event → Prop
  | .took _ | .sent _ .ingest .. | .received _ .ingest .failed => False
  | _ => True

variable {c : Settings} {i : Input} {t t' : Thread} {past : List Event} {e : Event} {batch : Nat}

theorem Event.Talk.aside (h : e.Talk) : e.Aside := by
  cases e with
  | sent fd endpoint number text result =>
    cases endpoint with
    | ingest => exact absurd rfl h
    | _ => trivial
  | received fd endpoint received =>
    cases endpoint with
    | ingest => exact absurd rfl h
    | _ => trivial
  | extracted | released => trivial
  | _ => exact h.elim

theorem Pc.Apart.not_sends {pc : Pc} (h : pc.Apart) : pc ≠ .ingestRecv ∧ ¬ pc.Sends := by
  cases pc <;> simp_all [Pc.Apart, Pc.Sends]

theorem Event.Aside.batches (e : Event) (past : List Event) (h : e.Aside) :
    WireSentinel.batches (e :: past) = WireSentinel.batches past := by
  cases e <;> simp_all [Event.Aside, WireSentinel.batches]

theorem Event.Aside.requests (e : Event) (past : List Event) (h : e.Aside) :
    WireSentinel.requests (e :: past) = WireSentinel.requests past := by
  cases e with
  | sent fd endpoint number text result =>
    cases endpoint <;> simp_all [Event.Aside, WireSentinel.requests]
  | _ => rfl

theorem Event.Aside.retries (e : Event) (past : List Event) (h : e.Aside) :
    WireSentinel.retries batch (e :: past) = WireSentinel.retries batch past := by
  cases e with
  | received fd endpoint received =>
    cases endpoint <;> cases received <;> simp_all [Event.Aside, WireSentinel.retries]
  | _ => rfl

theorem attempts_sent :
    attempts batch (.sent fd .ingest number text result :: past) =
      attempts batch past + if result = text.length ∧ batches past = batch then 1 else 0 := by
  unfold attempts
  rw [requests]
  by_cases hwhole : result = text.length <;> simp [hwhole, List.countP_cons]

theorem retries_failed :
    retries batch (.received fd .ingest .failed :: past) =
      retries batch past + if justHanded past ∧ batches past = batch then 1 else 0 := by
  rw [retries]
  split <;> rfl

/-- A batch is sent once, and once more for each time `recv` failed behind
it. -/
structure Retried (pc : Pc) (past : List Event) : Prop where
  le : ∀ batch, attempts batch past ≤ retries batch past + 1
  new : ∀ batch, batches past < batch → attempts batch past = 0
  sends : pc.Sends → attempts (batches past) past ≤ retries (batches past) past
  short : pc = .ingestRecv → justHanded past = false →
    attempts (batches past) past ≤ retries (batches past) past

theorem Retried.sent (hi : Retried pc past) (hpc : pc.Sends)
    (hpc' : pc' = .ingestRecv ∨ pc'.Sends ∧ result ≠ text.length) :
    Retried pc' (.sent fd .ingest number text result :: past) := by
  have hsends := hi.sends hpc
  have hshort : result ≠ text.length →
      attempts (batches past) (.sent fd .ingest number text result :: past) ≤
        retries (batches past) past := by
    intro hne
    rw [attempts_sent, if_neg fun h => hne h.1]
    exact hsends
  constructor
  · intro batch
    rw [attempts_sent]
    split
    · rename_i h
      obtain ⟨-, rfl⟩ := h
      exact Nat.add_le_add_right hsends 1
    · exact hi.le batch
  · intro batch hnew
    have hne : batches past ≠ batch := Nat.ne_of_lt hnew
    rw [attempts_sent, if_neg fun h => hne h.2]
    exact hi.new batch hnew
  · intro hagain
    rcases hpc' with rfl | ⟨-, hne⟩
    · exact hagain.elim
    · exact hshort hne
  · intro _ hhanded
    exact hshort (by simpa [justHanded] using hhanded)

theorem Retried.failed (hi : Retried .ingestRecv past) (hpc' : pc'.Sends) :
    Retried pc' (.received fd .ingest .failed :: past) := by
  constructor
  · intro batch
    rw [retries_failed]
    exact (hi.le batch).trans (by omega)
  · exact hi.new
  · intro _
    show attempts (batches past) past ≤ retries (batches past) _
    rw [retries_failed]
    by_cases hhanded : justHanded past = true
    · rw [if_pos ⟨hhanded, rfl⟩]
      exact hi.le _
    · have hshort := hi.short rfl (by simpa using hhanded)
      omega
  · rintro rfl
    exact hpc'.elim

theorem Retried.aside (hi : Retried pc past) (later : List Event) (haside : ∀ e ∈ later, e.Aside)
    (hpc' : pc' ≠ .ingestRecv) (hsends : pc'.Sends → pc.Sends) :
    Retried pc' (later ++ past) := by
  have hbatches : batches (later ++ past) = batches past :=
    append_of_skips Event.Aside.batches haside past
  have hrequests : requests (later ++ past) = requests past :=
    append_of_skips Event.Aside.requests haside past
  have hretries : ∀ batch, retries batch (later ++ past) = retries batch past :=
    fun batch => append_of_skips Event.Aside.retries haside past
  have hattempts : ∀ batch, attempts batch (later ++ past) = attempts batch past :=
    fun batch => by rw [attempts, hrequests, attempts]
  refine ⟨?_, ?_, ?_, fun h => absurd h hpc'⟩
  · simpa only [hattempts, hretries] using hi.le
  · simpa only [hattempts, hbatches] using hi.new
  · simpa only [hattempts, hretries, hbatches] using fun h => hi.sends (hsends h)

theorem Retried.took (hi : Retried pc past) (request : CString) :
    Retried .ingestSend (.took request :: past) := by
  have hnone : attempts (batches past + 1) past = 0 := hi.new _ (Nat.lt_succ_self _)
  refine ⟨hi.le, fun batch hnew => hi.new batch (Nat.lt_of_succ_lt hnew), fun _ => ?_, by simp⟩
  exact hnone.trans_le (Nat.zero_le _)

theorem Retried.move (hi : Retried t.pc t.trace) (hm : Move i t t') :
    Retried t'.pc t'.trace := by
  have hapart : ∀ later, t'.trace = later ++ t.trace → (∀ e ∈ later, e.Aside) → t'.pc.Apart →
      Retried t'.pc t'.trace := fun later htrace haside hpc' =>
    htrace ▸ hi.aside later haside hpc'.not_sends.1 fun h => absurd h hpc'.not_sends.2
  have hsends : t.pc = .ingestSend ∨ t.pc = .ingestResend → t.pc.Sends := by
    rintro (hpc | hpc) <;> simp [hpc, Pc.Sends]
  cases hm with
  | resolved site ok hpc hpc' htrace =>
    rw [htrace]
    exact hi.aside [_] (by simp [Event.Aside]) (by simp [hpc']) (by simp [hpc, hpc', Pc.Sends])
  | unresolved hpc hpc' htrace =>
    rw [htrace]
    exact hi.aside [_] (by simp [Event.Aside]) (by simp [hpc']) (by simp [hpc', Pc.Sends])
  | opened site fd hpc hpc' hfd htrace =>
    rw [htrace]
    exact hi.aside [_] (by simp [Event.Aside]) (by simp [hpc']) (by simp [hpc, hpc', Pc.Sends])
  | connected site hpc ha hpc' hfd htrace =>
    rw [htrace]
    refine hi.aside [_] (by simp [Event.Aside]) ?_ ?_
    all_goals cases site <;> simp [hpc, hpc', Thread.resume, Pc.Sends]
  | refused site hpc ha hpc' htrace =>
    rw [htrace]
    exact hi.aside [_] (by simp [Event.Aside]) (by simp [hpc']) (by simp [hpc, hpc', Pc.Sends])
  | configured hpc hpc' hfd htrace => exact hapart [_] htrace (by simp [Event.Aside]) hpc'
  | talked talk hbusy hpc hpc' hfd htalk htrace =>
    exact hapart talk htrace (fun e he => (htalk e he).aside) hpc'
  | took request hpc hpc' hfd htrace =>
    rw [hpc', htrace]
    exact hi.took request
  | sent number text result hpc hresult hpc' hfd htrace =>
    rw [htrace]
    exact hi.sent (hsends hpc) (.inl hpc')
  | sendFailed site number text hpc hsite hpc' hfd htrace =>
    rw [htrace]
    exact hi.sent (hsends hpc) (.inr ⟨by simpa [hpc', Pc.Sends] using hsite, by omega⟩)
  | recvFailed hpc hpc' hfd htrace =>
    rw [hpc] at hi
    rw [htrace]
    exact hi.failed (by simp [hpc', Pc.Sends])
  | answered chunk talk hpc hpc' hfd htalk htrace =>
    refine hapart (talk ++ [.received t.socketfd .ingest (.data chunk)]) (by simpa using htrace) ?_
      hpc'
    refine List.forall_mem_append.mpr ⟨fun e he => (htalk e he).aside, ?_⟩
    exact List.forall_mem_singleton.mpr trivial
  | closed site hpc hpc' htrace =>
    rw [htrace]
    exact hi.aside [_] (by simp [Event.Aside]) (by simp [hpc']) (by simp [hpc, hpc', Pc.Sends])

-- ---------------------------------------------------------------------------
-- How often it is processed
-- ---------------------------------------------------------------------------

theorem requests_cons (e : Event) (past : List Event) : requests past ⊆ requests (e :: past) := by
  cases e with
  | sent fd endpoint number text result =>
    cases endpoint with
    | ingest =>
      rw [requests]
      split
      · exact List.subset_cons_self _ _
      · exact List.Subset.refl _
    | _ => exact List.Subset.refl _
  | _ => exact List.Subset.refl _

theorem requests_suffix (h : past <:+ past') : requests past ⊆ requests past' := by
  obtain ⟨later, rfl⟩ := h
  induction later with
  | nil => exact List.Subset.refl _
  | cons e later ih => exact List.Subset.trans ih (requests_cons e _)

/-- The server processes what it was handed, once. -/
structure Exchange.Inv (s : Exchange) : Prop where
  retried : Retried s.thread.pc s.thread.trace
  handed : s.processed ⊆ requests s.thread.trace
  nodup : s.processed.Nodup

theorem Exchange.Inv.step {s s' : Exchange} {party : Party} (h : s.step c party = some s')
    (hi : s.Inv) : s'.Inv := by
  cases party with
  | client i =>
    simp only [Exchange.step] at h
    split at h
    · obtain ⟨t', ht', rfl⟩ := Option.map_eq_some_iff.mp h
      have hm := Thread.step_move ht'
      refine ⟨hi.retried.move hm, ?_, hi.nodup⟩
      exact List.Subset.trans hi.handed (requests_suffix hm.suffix)
    · cases h
  | server request =>
    simp only [Exchange.step] at h
    split at h
    · rename_i hnew
      cases h
      refine ⟨hi.retried, ?_, List.nodup_cons.mpr ⟨hnew.2, hi.nodup⟩⟩
      exact List.cons_subset.mpr ⟨hnew.1, hi.handed⟩
    · cases h

theorem Exchange.Inv.le_attempts {s : Exchange} (hi : s.Inv) (batch : Nat) :
    s.ingested batch ≤ attempts batch s.thread.trace :=
  (hi.nodup.subperm hi.handed).countP_le _

-- ---------------------------------------------------------------------------
-- A batch that is processed twice
-- ---------------------------------------------------------------------------

/-- No ingest request gets a response. -/
def NoResponse (t : Thread) (i : Input) : Prop :=
  t.pc = .ingestRecv → ∀ chunk, i.answer ≠ .recv (.data chunk)

theorem Exchange.step_client {s : Exchange} (h : s.thread.step c i = some t)
    (hears : NoResponse s.thread i) : s.step c (.client i) = some { s with thread := t } := by
  have hyes : s.hears i = true := by
    unfold Exchange.hears
    split
    · rename_i hpc ha
      exact absurd ha (hears hpc _)
    · rfl
  simp [Exchange.step, hyes, h]

theorem run_clients {s : Exchange} (h : run (Thread.step c) s.thread inputs = some t)
    (hears : Along (Thread.step c) NoResponse s.thread inputs) :
    run (Exchange.step c) s (inputs.map .client) = some { s with thread := t } := by
  induction inputs generalizing s with
  | nil =>
    obtain rfl : s.thread = t := Option.some.inj h
    rfl
  | cons i inputs ih =>
    rw [run, List.foldlM_cons, Option.bind_eq_bind, Option.bind_eq_some_iff] at h
    obtain ⟨t₁, ht₁, h⟩ := h
    rw [List.map_cons, run, List.foldlM_cons, Exchange.step_client ht₁ hears.1]
    exact ih (s := { s with thread := t₁ }) h (hears.2 t₁ ht₁)

theorem noResponse_greet (fd : Int) (recvBuffer : List Char) :
    Along (Thread.step c) NoResponse (.start none recvBuffer) (greet c fd chunk now stack) := by
  have hlen : ¬ ((c.registerRequest now).length : Int) < 0 := by omega
  simp [Thread.start, greet, Along, Thread.step, Thread.resolved, Thread.record, NoResponse,
    Thread.goto, Thread.resume, Thread.startUp, Thread.caseNotOk, SendResult, Thread.hand, hlen]

theorem noResponse_of_forall {inputs : List Input}
    (h : ∀ i ∈ inputs, ∀ chunk, i.answer ≠ .recv (.data chunk)) (t : Thread) :
    Along (Thread.step c) NoResponse t inputs := by
  induction inputs generalizing t with
  | nil => trivial
  | cons i inputs ih =>
    exact ⟨fun _ => h i (by simp), fun t' _ => ih (fun i hi => h i (by simp [hi])) t'⟩

/-- The server is slow with the request, and processes it and its copy. -/
def twice (request : CString) (pkts : List FullInternetPacket) (fd : Int) (now : Tm)
    (stack : List Char) (batch connection number : Nat) : List Party :=
  (timedOut request pkts fd now stack).map .client ++
    [.server ⟨batch, connection, number⟩, .server ⟨batch, connection + 1, number + 1⟩]

theorem run_twice (hpc : t.pc = .wait) (hne : pkts ≠ [])
    (hpayload : generateJsonPayload c.services pkts = some payload)
    (hrequest : generateRequest (c.sender now) payload t.uuidText = request) (fd : Int) :
    ∃ s, run (Exchange.step c) ⟨t, []⟩ (twice request pkts fd now stack (batches t.trace + 1)
        (connections t.trace) (t.requests + 1)) = some s ∧
      s.ingested (batches t.trace + 1) = 2 := by
  have hclient : run (Exchange.step c) ⟨t, []⟩
      ((timedOut request pkts fd now stack).map .client) = some ⟨_, []⟩ :=
    run_clients (run_timedOut hpc hne hpayload hrequest fd)
      (noResponse_of_forall (by simp [timedOut]) t)
  rw [twice, run_append hclient]
  simp [run, Exchange.step, requests, batches, connections, Exchange.ingested]

def ingestedTwice : List Party :=
  (greet localSettings 3 (okChunk 1) noon ['\x00']).map .client ++
    twice localRequest [synRecord] 4 noon ['\x00'] 1 1 2

theorem run_ingestedTwice :
    ∃ s, run (Exchange.step localSettings) ⟨localStart, []⟩ ingestedTwice = some s ∧
      s.ingested 1 = 2 := by
  have hgreet : run (Exchange.step localSettings) ⟨localStart, []⟩
      ((greet localSettings 3 (okChunk 1) noon ['\x00']).map .client) = some ⟨_, []⟩ :=
    run_clients (run_greet 3 registeredUuid_local) (noResponse_greet 3 _)
  rw [ingestedTwice, run_append hgreet]
  exact run_twice rfl (by simp) localSettings_payload rfl 4

/-- The server processes a batch at most once, and once more for each time
`recv` failed when its request had been handed over whole.

Premise: the state is reached by any order of the steps of client and
server. -/
theorem ingested_le (c : Settings) (uuidFile : Option CString) (recvBuffer : List Char)
    (parties : List Party) {s : Exchange}
    (h : run (Exchange.step c) ⟨.start uuidFile recvBuffer, []⟩ parties = some s) (batch : Nat) :
    s.ingested batch ≤ retries batch s.thread.trace + 1 := by
  have hstart : Exchange.Inv ⟨.start uuidFile recvBuffer, []⟩ := by
    refine ⟨⟨?_, ?_, ?_, ?_⟩, by simp, List.nodup_nil⟩
    · exact fun _ => Nat.zero_le _
    · exact fun _ _ => rfl
    · exact fun _ => le_refl 0
    · exact fun hpc => by cases hpc
  have hi := run_keeps (fun _ _ _ => Exchange.Inv.step) hstart h
  exact (hi.le_attempts batch).trans (hi.retried.le batch)

theorem ingested_le_twice :
    ∃ s, run (Exchange.step localSettings) ⟨localStart, []⟩ ingestedTwice = some s ∧
      s.ingested 1 ≤ retries 1 s.thread.trace + 1 := by
  obtain ⟨s, hrun, -⟩ := run_ingestedTwice
  exact ⟨s, hrun, ingested_le _ _ _ _ hrun 1⟩

/-- Not every batch is processed at most once. -/
theorem ingested_counterexample :
    ¬ ∀ (c : Settings) (uuidFile : Option CString) (recvBuffer : List Char)
      (parties : List Party) (s : Exchange),
      run (Exchange.step c) ⟨.start uuidFile recvBuffer, []⟩ parties = some s →
      ∀ batch, s.ingested batch ≤ 1 := by
  intro h
  obtain ⟨s, hrun, htwice⟩ := run_ingestedTwice
  have hle := h _ _ _ _ s hrun 1
  rw [htwice] at hle
  exact absurd hle (by decide)

end WireSentinel
