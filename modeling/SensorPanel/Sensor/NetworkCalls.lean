import SensorPanel.Sensor.Polling

/-!
# The calls of the worker

What an iteration asks of the clock and of the network, call by call with the
answers, on every path through the cleanup labels of `request_sample`. Beside it
stands the protocol such calls have to follow: what must be set before a
connection is made, what may be used when, and what has to be given back. The
worker follows it through whole runs, whatever is answered.
-/

namespace SensorPanel

open Library

inductive SocketSetting
  | tlsSecTagList (tag : ℕ)
  | tlsHostname (host : Bytes)
  | tlsPeerVerifyRequired
  | rcvTimeo (seconds : ℕ)
  | sndTimeo (seconds : ℕ)
  deriving DecidableEq, Repr

def caTag : ℕ := 1

def SocketOption.setting (config : AppConfig) : SocketOption → SocketSetting
  | tlsSecTagList => .tlsSecTagList caTag
  | tlsHostname => .tlsHostname config.apiHost.str
  | tlsPeerVerify => .tlsPeerVerifyRequired
  | rcvTimeo => .rcvTimeo 10
  | sndTimeo => .sndTimeo 10

/-- A call to the clock or the network, with what comes back. -/
inductive NetworkCall
  | sntp (host : Bytes) (err : ℤ)
  | clockSettime (ok : Bool)
  | getaddrinfo (host : Bytes) (err : ℤ) (addresses : Bool)
  | socket (ok : Bool)
  | setsockopt (setting : SocketSetting) (ok : Bool)
  | connect (ok : Bool)
  | httpClientReq (request : HttpRequest) (err : ℤ)
  | close
  | freeaddrinfo
  deriving DecidableEq, Repr

/-- A lookup whose addresses have to be given back. -/
def NetworkCall.allocates : NetworkCall → Bool
  | .getaddrinfo _ err addresses => err = 0 && addresses
  | _ => false

/-- The request a call sends, with its answer. -/
def NetworkCall.request? : NetworkCall → Option (HttpRequest × ℤ)
  | .httpClientReq request err => some (request, err)
  | _ => none

@[simp] theorem NetworkCall.request?_httpClientReq (request : HttpRequest) (err : ℤ) :
    (NetworkCall.httpClientReq request err).request? = some (request, err) := rfl

@[simp] theorem NetworkCall.request?_of_ne {call : NetworkCall}
    (h : ∀ request err, call ≠ .httpClientReq request err) : call.request? = none := by
  cases call <;> first | rfl | exact absurd rfl (h _ _)

namespace ApiClient

def optionCalls (config : AppConfig) (env : Surroundings) : List SocketOption → List NetworkCall
  | [] => []
  | o :: rest => .setsockopt (o.setting config) (env.setsockopt o).isNone ::
      if (env.setsockopt o).isNone then optionCalls config env rest else []

/-- From the connection on, with all options set. -/
def connectCalls (config : AppConfig) (env : Surroundings) : List NetworkCall :=
  if ¬ env.addresses then []
  else .connect env.connect.isNone ::
    if env.connect.isNone then
      [.httpClientReq (httpRequest config) (env.httpClientReq (httpRequest config))]
    else []

/-- The calls of `request_sample`. Past the socket every path goes to
`close_socket`, and past the lookup every path to `free_addresses`. -/
def requestCalls (config : AppConfig) (env : Surroundings) : List NetworkCall :=
  let host := config.apiHost.str
  let freeAddresses := if env.addresses then [NetworkCall.freeaddrinfo] else []
  .getaddrinfo host (env.getaddrinfo host) env.addresses ::
    if env.getaddrinfo host ≠ 0 then []
    else .socket env.socket.isNone ::
      if env.socket.isSome then freeAddresses
      else optionCalls config env SocketOption.inOrder ++
        (if SocketOption.inOrder.findSome? env.setsockopt = none then connectCalls config env
          else []) ++ [.close] ++ freeAddresses

def clockCalls (config : AppConfig) (env : Surroundings) : List NetworkCall :=
  .sntp config.ntpHost.str (env.sntp config.ntpHost.str) ::
    if env.sntp config.ntpHost.str ≠ 0 then [] else [.clockSettime env.clockSettime.isNone]

def iterationCalls (c : ApiClient) (env : Surroundings) : List NetworkCall :=
  if env.waitReady ≠ 0 then []
  else (if c.timeReady then [] else clockCalls c.config env) ++
    if c.timeReady ∨ synchronizeTime c.config env = 0 then requestCalls c.config env else []

variable (parser : JsonParser) (arith : DoubleArith)

def runCalls : ApiClient → List Surroundings → List NetworkCall
  | _, [] => []
  | c, env :: rest => iterationCalls c env ++
      match pollIteration parser arith c env with
      | some o => runCalls o.client rest
      | none => []

end ApiClient

/-- How far a socket has come; past a failure and past its request it is only closed. -/
inductive SocketPhase
  | fresh | connected | finished
  deriving DecidableEq, Repr

structure TlsSocket where
  settings : List SocketSetting
  phase : SocketPhase
  deriving DecidableEq, Repr

/-- What the worker holds of the network, and what it knows: an answer of the
time server, whether the clock is set, and the name looked up last. A lookup that
succeeds may come without addresses. -/
structure Network where
  time : Bool
  clock : Bool
  host : Option Bytes
  addresses : Bool
  socket : Option TlsSocket
  deriving DecidableEq, Repr

namespace Network

def boot : Network := ⟨false, false, none, false, none⟩

structure Rest (s : Network) : Prop where
  time : s.time = false
  addresses : s.addresses = false
  socket : s.socket = none

/-- What a connection to a host needs: our certificate authority, its name, a
verification that cannot be skipped, and limits on waiting. -/
def needs (host : Bytes) : List SocketSetting :=
  [.tlsSecTagList caTag, .tlsHostname host, .tlsPeerVerifyRequired, .rcvTimeo 10, .sndTimeo 10]

/-- The protocol: which calls may come when, and what they leave. The time is
asked for until the clock is set and never again; names are looked up once it is
set; a connection goes to an address of the name looked up, on a socket with all
its settings; a request goes to that host, once for each connection; and what is
held is given back once, the socket first. -/
def next (s : Network) : NetworkCall → Option Network
  | .sntp _ err =>
    if s.clock = false ∧ s.addresses = false ∧ s.socket = none then
      some { s with time := err = 0 }
    else none
  | .clockSettime ok => if s.time then some { s with time := false, clock := ok } else none
  | .getaddrinfo host err addresses =>
    if s.clock ∧ s.time = false ∧ s.addresses = false ∧ s.socket = none then
      if err = 0 then some { s with host := some host, addresses := addresses }
      else some { s with host := none }
    else none
  | .socket ok =>
    if s.host.isSome ∧ s.socket = none then
      some { s with socket := if ok then some ⟨[], .fresh⟩ else none }
    else none
  | .setsockopt setting ok =>
    match s.socket with
    | some ⟨settings, .fresh⟩ =>
      some { s with
        socket := some (if ok then ⟨settings ++ [setting], .fresh⟩ else ⟨settings, .finished⟩) }
    | _ => none
  | .connect ok =>
    match s.host, s.socket with
    | some host, some ⟨settings, .fresh⟩ =>
      if s.addresses ∧ ∀ needed ∈ needs host, needed ∈ settings then
        some { s with socket := some ⟨settings, if ok then .connected else .finished⟩ }
      else none
    | _, _ => none
  | .httpClientReq request _ =>
    match s.socket with
    | some ⟨settings, .connected⟩ =>
      if s.host = some request.host then some { s with socket := some ⟨settings, .finished⟩ }
      else none
    | _ => none
  | .close => if s.socket.isSome then some { s with socket := none } else none
  | .freeaddrinfo =>
    if s.addresses ∧ s.socket = none then some { s with addresses := false } else none

def protocol : Machine Network NetworkCall := Machine.ofFn next

/-- One call opens or closes, takes or gives back, what the state says it holds. -/
theorem next_ledger {s t : Network} {call : NetworkCall} (h : s.next call = some t) :
    [call].count (.socket true) + s.socket.isSome.toNat =
        [call].count .close + t.socket.isSome.toNat ∧
      [call].countP NetworkCall.allocates + s.addresses.toNat =
        [call].count .freeaddrinfo + t.addresses.toNat := by
  obtain ⟨time, clock, host, addresses, socket⟩ := s
  cases call with
  | sntp host err =>
    simp only [next, Option.ite_none_right_eq_some, Option.some.injEq] at h
    obtain ⟨-, rfl⟩ := h
    simp [NetworkCall.allocates]
  | clockSettime ok =>
    simp only [next, Option.ite_none_right_eq_some, Option.some.injEq] at h
    obtain ⟨-, rfl⟩ := h
    simp [NetworkCall.allocates]
  | getaddrinfo host err found =>
    simp only [next, Option.ite_none_right_eq_some] at h
    obtain ⟨⟨-, -, rfl, rfl⟩, h⟩ := h
    split_ifs at h with herr <;> obtain rfl := Option.some.inj h
    · cases found <;> simp [NetworkCall.allocates, herr]
    · simp [NetworkCall.allocates, herr]
  | socket ok =>
    simp only [next, Option.ite_none_right_eq_some, Option.some.injEq] at h
    obtain ⟨⟨-, rfl⟩, rfl⟩ := h
    cases ok <;> simp [NetworkCall.allocates]
  | setsockopt setting ok =>
    simp only [next] at h
    split at h
    · obtain rfl := Option.some.inj h
      simp [NetworkCall.allocates]
    · simp at h
  | connect ok =>
    simp only [next] at h
    split at h
    · obtain ⟨-, h⟩ := Option.ite_none_right_eq_some.mp h
      obtain rfl := Option.some.inj h
      simp [NetworkCall.allocates]
    · simp at h
  | httpClientReq request err =>
    simp only [next] at h
    split at h
    · obtain ⟨-, h⟩ := Option.ite_none_right_eq_some.mp h
      obtain rfl := Option.some.inj h
      simp [NetworkCall.allocates]
    · simp at h
  | close =>
    simp only [next, Option.ite_none_right_eq_some, Option.some.injEq] at h
    obtain ⟨hopen, rfl⟩ := h
    simp [NetworkCall.allocates, hopen]
  | freeaddrinfo =>
    simp only [next, Option.ite_none_right_eq_some, Option.some.injEq] at h
    obtain ⟨⟨rfl, -⟩, rfl⟩ := h
    simp [NetworkCall.allocates]

theorem run_ledger {calls : List NetworkCall} {s : Network} (hrun : protocol.Run boot calls s) :
    calls.count (.socket true) = calls.count .close + s.socket.isSome.toNat ∧
      calls.countP NetworkCall.allocates = calls.count .freeaddrinfo + s.addresses.toNat := by
  refine hrun.history_invariant (I := fun calls s =>
    calls.count (.socket true) = calls.count .close + s.socket.isSome.toNat ∧
      calls.countP NetworkCall.allocates = calls.count .freeaddrinfo + s.addresses.toNat)
    ⟨rfl, rfl⟩ ?_
  rintro calls s call t ⟨hsocket, haddresses⟩ hstep
  obtain ⟨hopened, htaken⟩ := next_ledger hstep
  rw [List.count_append, List.count_append, List.count_append, List.countP_append]
  omega

/-- The state in the middle of a request: the clock is set and a name was looked up. -/
def requesting (host : Bytes) (addresses : Bool) (socket : Option TlsSocket) : Network :=
  ⟨false, true, some host, addresses, socket⟩

end Network

namespace ApiClient

open Network

variable {config : AppConfig} {env : Surroundings}

theorem optionCalls_run (config : AppConfig) (env : Surroundings) (host : Bytes) (addresses : Bool)
    (options : List SocketOption) (settings : List SocketSetting) : ∃ socket,
      protocol.Run (requesting host addresses (some ⟨settings, .fresh⟩))
        (optionCalls config env options) (requesting host addresses (some socket)) ∧
      (options.findSome? env.setsockopt = none →
        socket = ⟨settings ++ options.map (SocketOption.setting config), .fresh⟩) := by
  induction options generalizing settings with
  | nil => exact ⟨_, Machine.Run.nil _, fun _ => by simp⟩
  | cons o options ih =>
    cases ho : env.setsockopt o with
    | some errno =>
      refine ⟨⟨settings, .finished⟩, ?_, fun h => by simp [ho] at h⟩
      rw [optionCalls, ho]
      exact Machine.Run.single rfl
    | none =>
      obtain ⟨socket, hrun, hsocket⟩ := ih (settings ++ [o.setting config])
      refine ⟨socket, ?_, fun h => ?_⟩
      · rw [optionCalls, ho]
        exact (Machine.Run.single rfl).trans hrun
      · rw [hsocket (by simpa [ho] using h)]
        simp

theorem needs_settings (config : AppConfig) :
    SocketOption.inOrder.map (SocketOption.setting config) = needs config.apiHost.str := rfl

theorem connectCalls_run (config : AppConfig) (env : Surroundings) : ∃ socket,
    protocol.Run (requesting config.apiHost.str env.addresses
        (some ⟨needs config.apiHost.str, .fresh⟩))
      (connectCalls config env) (requesting config.apiHost.str env.addresses (some socket)) := by
  cases haddresses : env.addresses with
  | false =>
    refine ⟨⟨needs config.apiHost.str, .fresh⟩, ?_⟩
    simp only [connectCalls, haddresses, Bool.false_eq_true, not_false_eq_true, if_true]
    exact Machine.Run.nil _
  | true =>
    have hconnect (ok : Bool) : protocol.Step
        (requesting config.apiHost.str true (some ⟨needs config.apiHost.str, .fresh⟩)) (.connect ok)
        (requesting config.apiHost.str true (some ⟨needs config.apiHost.str,
          if ok then .connected else .finished⟩)) := by
      simp [protocol, next, requesting]
    cases hanswer : env.connect with
    | some errno =>
      refine ⟨⟨needs config.apiHost.str, .finished⟩, ?_⟩
      simp only [connectCalls, haddresses, hanswer, not_true_eq_false, if_false, Option.isNone_some,
        Bool.false_eq_true]
      exact Machine.Run.single (hconnect false)
    | none =>
      refine ⟨⟨needs config.apiHost.str, .finished⟩, ?_⟩
      simp only [connectCalls, haddresses, hanswer, not_true_eq_false, if_false, Option.isNone_none,
        if_true]
      refine (Machine.Run.single (hconnect true)).trans (Machine.Run.single ?_)
      simp [protocol, next, requesting, httpRequest]

theorem freeAddresses_run (host : Bytes) (addresses : Bool) : ∃ t,
    protocol.Run (requesting host addresses none)
      (if addresses then [NetworkCall.freeaddrinfo] else []) t ∧ t.Rest ∧ t.clock = true := by
  cases addresses with
  | false => exact ⟨_, Machine.Run.nil _, ⟨rfl, rfl, rfl⟩, rfl⟩
  | true => exact ⟨requesting host false none, Machine.Run.single rfl, ⟨rfl, rfl, rfl⟩, rfl⟩

/-- A request leaves nothing behind, whichever of its calls fails. -/
theorem requestCalls_run (config : AppConfig) (env : Surroundings) {s : Network} (hrest : s.Rest)
    (hclock : s.clock = true) : ∃ t,
      protocol.Run s (requestCalls config env) t ∧ t.Rest ∧ t.clock = true := by
  obtain ⟨time, clock, host, addresses, socket⟩ := s
  obtain ⟨rfl, rfl, rfl⟩ := hrest
  obtain rfl : clock = true := hclock
  by_cases hlookup : env.getaddrinfo config.apiHost.str = 0
  · have hstart : protocol.Run ⟨false, true, host, false, none⟩
        [.getaddrinfo config.apiHost.str (env.getaddrinfo config.apiHost.str) env.addresses]
        (requesting config.apiHost.str env.addresses none) :=
      Machine.Run.single (by simp [protocol, next, requesting, hlookup])
    obtain ⟨t, hfree, ht⟩ := freeAddresses_run config.apiHost.str env.addresses
    cases hsocket : env.socket with
    | some errno =>
      refine ⟨t, ?_, ht⟩
      simp only [requestCalls, hlookup, hsocket, ne_eq, not_true_eq_false, if_false,
        Option.isNone_some, Option.isSome_some, if_true]
      rw [hlookup] at hstart
      exact hstart.trans ((Machine.Run.single rfl).trans hfree)
    | none =>
      obtain ⟨socket, hoptions, hset⟩ := optionCalls_run config env config.apiHost.str
        env.addresses SocketOption.inOrder []
      refine ⟨t, ?_, ht⟩
      simp only [requestCalls, hlookup, hsocket, ne_eq, not_true_eq_false, if_false,
        Option.isNone_none, Option.isSome_none, Bool.false_eq_true]
      rw [hlookup] at hstart
      have hopen : protocol.Run (requesting config.apiHost.str env.addresses none) [.socket true]
          (requesting config.apiHost.str env.addresses (some ⟨[], .fresh⟩)) :=
        Machine.Run.single rfl
      have hclose (socket : TlsSocket) : protocol.Run
          (requesting config.apiHost.str env.addresses (some socket)) [.close]
          (requesting config.apiHost.str env.addresses none) := Machine.Run.single rfl
      have huse : protocol.Run
          (requesting config.apiHost.str env.addresses (some ⟨[], .fresh⟩))
          (optionCalls config env SocketOption.inOrder ++
            (if SocketOption.inOrder.findSome? env.setsockopt = none then connectCalls config env
              else []) ++ [.close])
          (requesting config.apiHost.str env.addresses none) := by
        by_cases hall : SocketOption.inOrder.findSome? env.setsockopt = none
        · rw [hset hall, List.nil_append, needs_settings] at hoptions
          obtain ⟨socket, hconnect⟩ := connectCalls_run config env
          rw [if_pos hall]
          exact (hoptions.trans hconnect).trans (hclose socket)
        · rw [if_neg hall, List.append_nil]
          exact hoptions.trans (hclose socket)
      exact hstart.trans (hopen.trans (huse.trans hfree))
  · refine ⟨⟨false, true, none, false, none⟩, ?_, ⟨rfl, rfl, rfl⟩, rfl⟩
    simp only [requestCalls, hlookup, ne_eq, not_false_eq_true, if_true]
    exact Machine.Run.single (by simp [protocol, next, hlookup])

theorem clockCalls_run (config : AppConfig) (env : Surroundings) {s : Network} (hrest : s.Rest)
    (hclock : s.clock = false) : ∃ t, protocol.Run s (clockCalls config env) t ∧ t.Rest ∧
      t.clock = decide (synchronizeTime config env = 0) := by
  obtain ⟨time, clock, host, addresses, socket⟩ := s
  obtain ⟨rfl, rfl, rfl⟩ := hrest
  obtain rfl : clock = false := hclock
  by_cases hsntp : env.sntp config.ntpHost.str = 0
  · refine ⟨⟨false, env.clockSettime.isNone, host, false, none⟩, ?_, ⟨rfl, rfl, rfl⟩, ?_⟩
    · have hanswer : protocol.Run ⟨false, false, host, false, none⟩
          [.sntp config.ntpHost.str 0] ⟨true, false, host, false, none⟩ := Machine.Run.single rfl
      simp only [clockCalls, hsntp, ne_eq, not_true_eq_false, if_false]
      exact hanswer.trans (Machine.Run.single rfl)
    · rw [Bool.eq_iff_iff, decide_eq_true_iff, synchronizeTime_eq_zero_iff, and_iff_right hsntp,
        Option.isNone_iff_eq_none]
  · refine ⟨⟨false, false, host, false, none⟩, ?_, ⟨rfl, rfl, rfl⟩, ?_⟩
    · simp only [clockCalls, hsntp, ne_eq, not_false_eq_true, if_true]
      exact Machine.Run.single (by simp [protocol, next, hsntp])
    · simp [synchronizeTime_eq_zero_iff, hsntp]

theorem iterationCalls_run {parser : JsonParser} {arith : DoubleArith} {c : ApiClient} {o : Outcome}
    (ho : pollIteration parser arith c env = some o) {s : Network} (hrest : s.Rest)
    (hclock : s.clock = c.timeReady) : ∃ t,
      protocol.Run s (iterationCalls c env) t ∧ t.Rest ∧ t.clock = o.client.timeReady := by
  by_cases hready : env.waitReady = 0
  · obtain ⟨o', ho', -, htime, -⟩ := pollIteration_ends parser arith c hready
    obtain rfl := Option.some.inj (ho.symm.trans ho')
    rw [iterationCalls, if_neg (not_not.mpr hready)]
    cases hset : c.timeReady with
    | true =>
      rw [hset] at hclock
      obtain ⟨t, hrun, ht, hkept⟩ := requestCalls_run c.config env hrest hclock
      refine ⟨t, by simpa using hrun, ht, ?_⟩
      rw [hkept, htime.mpr (Or.inl hset)]
    | false =>
      rw [hset] at hclock
      obtain ⟨t, hrun, ht, hanswer⟩ := clockCalls_run c.config env hrest hclock
      by_cases hsync : synchronizeTime c.config env = 0
      · obtain ⟨u, hrun', hu, hkept⟩ := requestCalls_run c.config env ht (by simp [hanswer, hsync])
        refine ⟨u, by simpa [hsync] using hrun.trans hrun', hu, ?_⟩
        rw [hkept, htime.mpr (Or.inr hsync)]
      · refine ⟨t, by simpa [hsync] using hrun, ht, ?_⟩
        rw [hanswer, Bool.eq_iff_iff, htime]
        simp [hset, hsync]
  · rw [pollIteration_offline hready] at ho
    obtain rfl := Option.some.inj ho
    rw [iterationCalls, if_pos hready]
    exact ⟨s, Machine.Run.nil s, hrest, hclock⟩

theorem runCalls_concat {parser : JsonParser} {arith : DoubleArith} {c₀ c : ApiClient}
    {past : List Surroundings} (hrun : (pollMachine parser arith).Run c₀ past c)
    (env : Surroundings) : runCalls parser arith c₀ (past ++ [env]) =
      runCalls parser arith c₀ past ++ iterationCalls c env := by
  induction past generalizing c₀ with
  | nil =>
    obtain rfl := Machine.run_nil_iff.mp hrun
    cases h : pollIteration parser arith c env <;> simp [runCalls, h]
  | cons e past ih =>
    obtain ⟨c₁, hstep, hrest⟩ := Machine.run_cons_iff.mp hrun
    obtain ⟨o, ho, rfl⟩ := Option.map_eq_some_iff.mp hstep
    simp only [List.cons_append, runCalls, ho, ih hrest, List.append_assoc]

theorem requests_optionCalls (config : AppConfig) (env : Surroundings)
    (options : List SocketOption) :
    (optionCalls config env options).filterMap NetworkCall.request? = [] := by
  induction options with
  | nil => rfl
  | cons o options ih =>
    rw [optionCalls, List.filterMap_cons_none rfl]
    split_ifs
    · exact ih
    · rfl

theorem requests_requestCalls (config : AppConfig) (env : Surroundings) :
    (requestCalls config env).filterMap NetworkCall.request? =
      if setUpConnection config env = 0 then
        [(httpRequest config, env.httpClientReq (httpRequest config))]
      else [] := by
  have hoptions := requests_optionCalls config env SocketOption.inOrder
  unfold requestCalls setUpConnection
  by_cases hlookup : env.getaddrinfo config.apiHost.str = 0
  · cases hsocket : env.socket with
    | some errno => cases env.addresses <;> simp [hlookup, errno.2]
    | none =>
      cases hset : SocketOption.inOrder.findSome? env.setsockopt with
      | some errno =>
        cases env.addresses <;> simp [hlookup, hoptions, errno.2, List.filterMap_append]
      | none =>
        cases haddresses : env.addresses with
        | false =>
          simp [hlookup, hoptions, connectCalls, haddresses, EHOSTUNREACH, List.filterMap_append]
        | true =>
          cases hconnect : env.connect with
          | some errno =>
            simp [hlookup, hoptions, connectCalls, haddresses, hconnect, errno.2,
              List.filterMap_append]
          | none =>
            simp [hlookup, hoptions, connectCalls, haddresses, hconnect, List.filterMap_append]
  · simp [hlookup, EHOSTUNREACH]

theorem requests_iterationCalls (c : ApiClient) (env : Surroundings) :
    (iterationCalls c env).filterMap NetworkCall.request? =
      if env.waitReady = 0 ∧ (c.timeReady = true ∨ synchronizeTime c.config env = 0) ∧
          setUpConnection c.config env = 0 then
        [(httpRequest c.config, env.httpClientReq (httpRequest c.config))]
      else [] := by
  have hclock : (if c.timeReady then [] else clockCalls c.config env).filterMap
      NetworkCall.request? = [] := by
    unfold clockCalls
    split_ifs <;> rfl
  by_cases hready : env.waitReady = 0
  · rw [iterationCalls, if_neg (not_not.mpr hready), List.filterMap_append, hclock,
      List.nil_append]
    by_cases hset : c.timeReady = true ∨ synchronizeTime c.config env = 0
    · rw [if_pos hset, requests_requestCalls]
      simp [hready, hset]
    · rw [if_neg hset]
      simp [hset]
  · simp [iterationCalls, hready]

theorem runCalls_run {parser : JsonParser} {arith : DoubleArith} {c₀ c : ApiClient}
    {past : List Surroundings} (h₀ : c₀.timeReady = false)
    (hrun : (pollMachine parser arith).Run c₀ past c) : ∃ s,
      protocol.Run boot (runCalls parser arith c₀ past) s ∧ s.Rest ∧ s.clock = c.timeReady := by
  induction hrun with
  | nil => exact ⟨boot, Machine.Run.nil _, ⟨rfl, rfl, rfl⟩, h₀.symm⟩
  | @snoc c _ past env hrun hstep ih =>
    obtain ⟨s, hcalls, hrest, hclock⟩ := ih
    obtain ⟨o, ho, rfl⟩ := Option.map_eq_some_iff.mp hstep
    obtain ⟨t, hiteration, ht, hclock'⟩ := iterationCalls_run ho hrest hclock
    rw [runCalls_concat hrun]
    exact ⟨t, hcalls.trans hiteration, ht, hclock'⟩

end ApiClient

/-- An iteration after `past` gets to send: Wi-Fi is up, the clock is set by then and
the connection is set up. -/
structure Surroundings.Sends (config : AppConfig) (past : List Surroundings) (env : Surroundings) :
    Prop where
  ready : env.waitReady = 0
  clock : ∃ e ∈ past ++ [env], e.SetsClock config
  connects : env.Connects config

namespace ApiClient

open Network

/-- The requests of a run with their answers, one for each iteration that gets to send. -/
inductive Sent (config : AppConfig) : List Surroundings → List (HttpRequest × ℤ) → Prop
  | nil : Sent config [] []
  | sends {past : List Surroundings} {env : Surroundings} {requests : List (HttpRequest × ℤ)}
      (before : Sent config past requests) (sends : env.Sends config past) :
      Sent config (past ++ [env])
        (requests ++ [(httpRequest config, env.httpClientReq (httpRequest config))])
  | silent {past : List Surroundings} {env : Surroundings} {requests : List (HttpRequest × ℤ)}
      (before : Sent config past requests) (silent : ¬ env.Sends config past) :
      Sent config (past ++ [env]) requests

theorem requests_runCalls {parser : JsonParser} {arith : DoubleArith} {c₀ c : ApiClient}
    {past : List Surroundings} (h₀ : c₀.timeReady = false)
    (hrun : (pollMachine parser arith).Run c₀ past c) :
    Sent c₀.config past ((runCalls parser arith c₀ past).filterMap NetworkCall.request?) := by
  induction hrun with
  | nil => exact .nil
  | @snoc c _ past env hrun hstep ih =>
    obtain ⟨hconfig, htime⟩ := run_timeReady h₀ hrun
    have hsends : env.waitReady = 0 ∧ (c.timeReady = true ∨ synchronizeTime c.config env = 0) ∧
        setUpConnection c.config env = 0 ↔ env.Sends c₀.config past := by
      have hclock : (∃ e ∈ past ++ [env], e.SetsClock c₀.config) ↔
          c.timeReady = true ∨ env.SetsClock c₀.config := by
        simp [htime, or_and_right, exists_or]
      rw [hconfig, setUpConnection_eq_zero_iff, synchronizeTime_eq_zero_iff]
      constructor
      · rintro ⟨hready, hset, hconnects⟩
        exact ⟨hready, hclock.mpr (hset.imp_right fun h => ⟨hready, h⟩), hconnects⟩
      · rintro ⟨hready, hset, hconnects⟩
        exact ⟨hready, (hclock.mp hset).imp_right fun h => h.2, hconnects⟩
    rw [runCalls_concat hrun, List.filterMap_append, requests_iterationCalls]
    by_cases h : env.Sends c₀.config past
    · rw [if_pos (hsends.mpr h), hconfig]
      exact .sends ih h
    · rw [if_neg (mt hsends.mp h), List.append_nil]
      exact .silent ih h

/-- What the network can rely on in every run from the start of the worker: its
calls keep the protocol and leave nothing held, sockets are closed and lookups
given back as often as they were made, and the configured request is sent once in
each iteration which found Wi-Fi, a set clock and a connection, and in no other. -/
structure KeepsProtocol (config : AppConfig) (past : List Surroundings)
    (calls : List NetworkCall) : Prop where
  run : ∃ s, protocol.Run boot calls s ∧ s.Rest ∧
    (s.clock = true ↔ ∃ env ∈ past, env.SetsClock config)
  sockets : calls.count (.socket true) = calls.count .close
  lookups : calls.countP NetworkCall.allocates = calls.count .freeaddrinfo
  requests : Sent config past (calls.filterMap NetworkCall.request?)

theorem worker_keeps_protocol (parser : JsonParser) (arith : DoubleArith) (config : AppConfig)
    (sensor : SensorState) (past : List Surroundings) :
    KeepsProtocol config past (runCalls parser arith (initial config sensor) past) := by
  have h₀ : (initial config sensor).timeReady = false := rfl
  obtain ⟨c, hrun⟩ := exists_run parser arith (initial config sensor) past
  obtain ⟨s, hcalls, hrest, hclock⟩ := runCalls_run h₀ hrun
  obtain ⟨hsockets, hlookups⟩ := run_ledger hcalls
  rw [hrest.socket] at hsockets
  rw [hrest.addresses] at hlookups
  exact {
    run := ⟨s, hcalls, hrest, by rw [hclock]; exact (run_timeReady h₀ hrun).2⟩
    sockets := hsockets
    lookups := hlookups
    requests := requests_runCalls h₀ hrun }

end ApiClient

end SensorPanel
