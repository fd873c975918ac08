import SensorPanel.Sensor.Iterations
import SensorPanel.Sensor.NetworkCalls
import SensorPanel.Sensor.Publications

/-!
# What the loop asks of the network

Two steps of the loop of `poll_api` go to the clock and the network. However many
requests fall between its steps, the loop has made the calls of its iterations
that are over and, of the one under way, those of the steps it has taken, so that
the protocol of the sockets holds at every moment.
-/

namespace SensorPanel

open Library

/-- The hosts a call names and the request it sends are those of the configuration. -/
def NetworkCall.Follows (config : AppConfig) : NetworkCall → Prop
  | .sntp host _ => host = config.ntpHost.str
  | .getaddrinfo host _ _ => host = config.apiHost.str
  | .setsockopt (.tlsHostname host) _ => host = config.apiHost.str
  | .httpClientReq request _ => request = httpRequest config
  | _ => True

namespace ApiClient

variable (config : AppConfig) (env : Surroundings)

theorem optionCalls_follow (options : List SocketOption) :
    ∀ call ∈ optionCalls config env options, call.Follows config := by
  induction options with
  | nil => simp [optionCalls]
  | cons o options ih =>
    refine List.forall_mem_cons.mpr ⟨by cases o <;> simp [NetworkCall.Follows,
      SocketOption.setting], ?_⟩
    split_ifs
    · exact ih
    · simp

theorem connectCalls_follow : ∀ call ∈ connectCalls config env, call.Follows config := by
  unfold connectCalls
  split_ifs <;> simp [NetworkCall.Follows]

theorem requestCalls_follow : ∀ call ∈ requestCalls config env, call.Follows config := by
  have hfree : ∀ call ∈ if env.addresses then [NetworkCall.freeaddrinfo] else [],
      call.Follows config := by
    split_ifs <;> simp [NetworkCall.Follows]
  have hconnect : ∀ call ∈ if SocketOption.inOrder.findSome? env.setsockopt = none then
      connectCalls config env else [], call.Follows config := by
    split_ifs
    · exact connectCalls_follow config env
    · simp
  refine List.forall_mem_cons.mpr ⟨rfl, ?_⟩
  by_cases hlookup : env.getaddrinfo config.apiHost.str = 0
  · rw [if_neg (not_not.mpr hlookup)]
    refine List.forall_mem_cons.mpr ⟨trivial, ?_⟩
    by_cases hsocket : env.socket.isSome = true
    · rw [if_pos hsocket]
      exact hfree
    · rw [if_neg hsocket]
      simp only [List.forall_mem_append, List.forall_mem_singleton]
      exact ⟨⟨⟨optionCalls_follow config env _, hconnect⟩, trivial⟩, hfree⟩
  · rw [if_pos hlookup]
    simp

theorem clockCalls_follow : ∀ call ∈ clockCalls config env, call.Follows config := by
  refine List.forall_mem_cons.mpr ⟨rfl, ?_⟩
  split_ifs <;> simp [NetworkCall.Follows]

end ApiClient

namespace PollLoop

def asks (s : PollLoop) : PollAction → List NetworkCall
  | .synchronize env =>
    if s.client.timeReady then [] else ApiClient.clockCalls s.client.config env
  | .request env =>
    if s.point = .request 0 then ApiClient.requestCalls s.client.config env else []
  | _ => []

def asking (parser : JsonParser) (arith : DoubleArith) :
    Machine PollLoop (PollAction × List NetworkCall) :=
  (machine parser arith).observe asks

/-- The calls an iteration has made by the time it stands at this point. -/
def madeBy (c : ApiClient) (env : Surroundings) : PollPoint → List NetworkCall
  | .request _ => if c.timeReady then [] else ApiClient.clockCalls c.config env
  | .report _ => ApiClient.iterationCalls c env
  | _ => []

def underWay (c : ApiClient) (current : Option Surroundings) (point : PollPoint) :
    List NetworkCall :=
  current.elim [] fun env => madeBy c env point

variable {parser : JsonParser} {arith : DoubleArith} {s t : PollLoop} {e : PollAction}
  {c : ApiClient}

theorem underWay_of_distance {current : Option Surroundings} {point : PollPoint}
    (h : distance point ≤ 2) : underWay c current point = [] := by
  cases current with
  | none => rfl
  | some env => cases point <;> first | rfl | simp [distance] at h

theorem iterationCalls_request {env : Surroundings} (hready : env.waitReady = 0) :
    ApiClient.iterationCalls c env = madeBy c env (.request (clockError c env)) ++
      if clockError c env = 0 then ApiClient.requestCalls c.config env else [] := by
  have hclock : (c.timeReady = true ∨ ApiClient.synchronizeTime c.config env = 0) ↔
      clockError c env = 0 := by
    by_cases hset : c.timeReady = true <;> simp [clockError, hset]
  rw [ApiClient.iterationCalls, if_neg (not_not.mpr hready)]
  simp only [hclock, madeBy]

theorem quiet_asks {a : Answers} (hbefore : distance s.point ≤ 2) (hafter : distance t.point ≤ 2)
    (he : s.asks e = []) :
    underWay c a.current t.point = underWay c a.current s.point ++ s.asks e := by
  rw [underWay_of_distance hbefore, underWay_of_distance hafter, he, List.nil_append]

/-- A step between the waits makes its part of the calls of the iteration. -/
theorem step_asks {a : Answers} (h : step parser arith s e = some t)
    (hs : Within parser arith c a.current s) (hreport : e ≠ .report)
    (hwait : ∀ env, e = .waitReady env → env.waitReady = 0) :
    (a.add e).finished = a.finished ∧
      underWay c (a.add e).current t.point = underWay c a.current s.point ++ s.asks e := by
  cases e with
  | requestRefresh =>
    obtain rfl := Option.some.inj h
    refine ⟨rfl, ?_⟩
    unfold requestRefresh
    split_ifs with hblocked
    · exact quiet_asks (by simp [hblocked, distance]) (by simp [distance]) rfl
    · exact (List.append_nil _).symm
  | waitReady env =>
    simp only [step] at h
    split_ifs at h with hplace hfailed
    · exact absurd (hwait env rfl) hfailed
    · obtain rfl := Option.some.inj h
      simp only [Answers.add, if_neg hfailed, true_and]
      have hbefore : underWay c a.current .waitReady = [] :=
        underWay_of_distance (by simp [distance])
      rw [hplace, hbefore]
      rfl
  | synchronize env =>
    simp only [step] at h
    split_ifs at h with hplace
    obtain rfl := Option.some.inj h
    obtain ⟨ready, hcurrent, -, rfl⟩ := hs.at_synchronize hplace
    simp only [Answers.add, hcurrent, Option.map_some, true_and]
    rw [hplace]
    rfl
  | request env =>
    simp only [step] at h
    split at h
    · next err hplace =>
      obtain ⟨clock, hcurrent, hready, rfl, hclient⟩ := hs.at_request hplace
      have hpoint : ∃ err, t.point = .report err := by
        split_ifs at h
        · obtain ⟨r, -, rfl⟩ := Option.map_eq_some_iff.mp h
          exact ⟨_, rfl⟩
        · obtain rfl := Option.some.inj h
          exact ⟨_, rfl⟩
      obtain ⟨err, hpoint⟩ := hpoint
      have hasks : s.asks (.request env) =
          if clockError c clock = 0 then ApiClient.requestCalls c.config env else [] := by
        simp only [asks, hplace, PollPoint.request.injEq, hclient]
        rfl
      have hcalls := @iterationCalls_request c { env with
        waitReady := clock.waitReady
        sntp := clock.sntp
        clockSettime := clock.clockSettime } hready
      simp only [Answers.add, hcurrent, Option.map_some, true_and]
      rw [hasks, hplace, hpoint]
      exact hcalls
    · cases h
  | report => exact absurd rfl hreport
  | take =>
    simp only [step] at h
    split_ifs at h with hplace
    obtain rfl := Option.some.inj h
    refine ⟨rfl, quiet_asks (by simp [hplace, distance]) ?_ rfl⟩
    rcases s.takeSignal_cases with ⟨-, hpoint, -⟩ | ⟨-, hpoint, -⟩ <;> simp [hpoint, distance]
  | timeout =>
    simp only [step] at h
    split_ifs at h with hplace
    obtain rfl := Option.some.inj h
    exact ⟨rfl, quiet_asks (by simp [hplace, distance]) (by simp [distance]) rfl⟩
  | leave err =>
    simp only [step] at h
    split_ifs at h with hplace
    obtain rfl := Option.some.inj h
    exact ⟨rfl, quiet_asks (by simp [hplace, distance]) (by simp [distance]) rfl⟩

theorem step_calls {client c' : ApiClient} {a : Answers} (h : step parser arith s e = some t)
    (hrun : (ApiClient.pollMachine parser arith).Run client a.finished c)
    (hs : Within parser arith c a.current s)
    (hrun' : (ApiClient.pollMachine parser arith).Run client (a.add e).finished c') :
    ApiClient.runCalls parser arith client (a.add e).finished ++
        underWay c' (a.add e).current t.point =
      ApiClient.runCalls parser arith client a.finished ++
        (underWay c a.current s.point ++ s.asks e) := by
  have hinner (hreport : e ≠ .report) (hwait : ∀ env, e = .waitReady env → env.waitReady = 0) :
      ApiClient.runCalls parser arith client (a.add e).finished ++
          underWay c' (a.add e).current t.point =
        ApiClient.runCalls parser arith client a.finished ++
          (underWay c a.current s.point ++ s.asks e) := by
    obtain ⟨hfinished, hasks⟩ := step_asks h hs hreport hwait
    rw [hfinished] at hrun' ⊢
    rw [Machine.run_ofFn_unique hrun' hrun, hasks]
  cases e with
  | report =>
    -- The iteration is over, and all its calls have been made.
    simp only [step] at h
    split at h
    · next err hplace =>
      obtain rfl := Option.some.inj h
      obtain ⟨env, stored, hcurrent, -, -⟩ := hs.at_report hplace
      simp only [Answers.add, hcurrent, Option.toList_some]
      rw [ApiClient.runCalls_concat hrun, hplace, List.append_assoc]
      rfl
    · cases h
  | waitReady env =>
    by_cases hready : env.waitReady = 0
    · exact hinner (by simp) fun env' he => PollAction.waitReady.inj he ▸ hready
    · -- An iteration without Wi-Fi makes no calls.
      simp only [step, ne_eq, hready, not_false_eq_true, if_true] at h
      split_ifs at h with hplace
      obtain rfl := Option.some.inj h
      simp only [Answers.add, ne_eq, hready, not_false_eq_true, if_true]
      have hnone (c : ApiClient) : underWay c a.current .waitReady = [] :=
        underWay_of_distance (by simp [distance])
      rw [ApiClient.runCalls_concat hrun, ApiClient.iterationCalls, if_pos hready, hplace, hnone,
        hnone, List.append_nil]
      rfl
  | _ => exact hinner (by simp) (by simp)

/-- The calls of a run: those of the iterations that are over, and of the one under way. -/
structure Asked (parser : JsonParser) (arith : DoubleArith) (client : ApiClient)
    (es : List (PollAction × List NetworkCall)) (s : PollLoop) (c : ApiClient) : Prop where
  run : (ApiClient.pollMachine parser arith).Run client
    (answers (es.map Prod.fst)).finished c
  within : Within parser arith c (answers (es.map Prod.fst)).current s
  calls : es.flatMap Prod.snd =
    ApiClient.runCalls parser arith client (answers (es.map Prod.fst)).finished ++
      underWay c (answers (es.map Prod.fst)).current s.point

/-- The loop makes the calls of its iterations. Whatever requests fall between its
steps, a run of the loop has made the calls of the iterations that are over, and
of the next one those of the steps it has taken. -/
theorem run_asks {client : ApiClient} {es : List (PollAction × List NetworkCall)}
    (h : (asking parser arith).Run (start client) es s) :
    ∃ c, Asked parser arith client es s c := by
  refine h.history_invariant (I := fun es s => ∃ c, Asked parser arith client es s c)
    ⟨client, Machine.Run.nil _, .between (by simp [start, distance]) rfl, rfl⟩ ?_
  rintro es s ⟨e, out⟩ t ⟨c, hrun, hs, hcalls⟩ ⟨hstep, rfl : out = s.asks e⟩
  dsimp only at hstep
  obtain ⟨c', hrun', ht⟩ := step_within hstep hrun hs
  have hanswers : answers ((es ++ [(e, s.asks e)]).map Prod.fst) =
      (answers (es.map Prod.fst)).add e := by
    rw [List.map_append]
    exact answers_concat _ e
  refine ⟨c', hanswers ▸ hrun', hanswers ▸ ht, ?_⟩
  rw [hanswers, List.flatMap_append, hcalls, List.flatMap_singleton, List.append_assoc,
    step_calls hstep hrun hs hrun']

theorem madeBy_run {n : Network} (hrest : n.Rest) (hclock : n.clock = c.timeReady)
    (parser : JsonParser) (arith : DoubleArith) (env : Surroundings) (point : PollPoint) :
    ∃ m, Network.protocol.Run n (madeBy c env point) m := by
  cases point with
  | request err =>
    cases hset : c.timeReady with
    | true => exact ⟨n, by simp [madeBy, hset]⟩
    | false =>
      obtain ⟨m, hrun, -⟩ := ApiClient.clockCalls_run c.config env hrest (hclock.trans hset)
      exact ⟨m, by simpa [madeBy, hset] using hrun⟩
  | report err =>
    obtain ⟨o, ho⟩ := ApiClient.pollIteration_isSome parser arith c env
    obtain ⟨m, hrun, -⟩ := ApiClient.iterationCalls_run ho hrest hclock
    exact ⟨m, hrun⟩
  | waitReady | synchronize | waitRefresh | blocked | woken => exact ⟨n, Machine.Run.nil n⟩

theorem Asked.protocol {client : ApiClient} {es : List (PollAction × List NetworkCall)}
    (h : Asked parser arith client es s c) (h₀ : client.timeReady = false) :
    ∃ n, Network.protocol.Run Network.boot (es.flatMap Prod.snd) n ∧
      (distance s.point ≤ 2 → n.Rest) := by
  obtain ⟨n, hfinished, hrest, hclock⟩ := ApiClient.runCalls_run h₀ h.run
  rw [h.calls]
  by_cases hplace : distance s.point ≤ 2
  · rw [underWay_of_distance hplace, List.append_nil]
    exact ⟨n, hfinished, fun _ => hrest⟩
  · cases (answers (es.map Prod.fst)).current with
    | none =>
      rw [underWay, Option.elim_none, List.append_nil]
      exact ⟨n, hfinished, fun _ => hrest⟩
    | some env =>
      obtain ⟨m, hrun⟩ := madeBy_run hrest hclock parser arith env s.point
      exact ⟨m, hfinished.trans hrun, fun hbetween => absurd hbetween hplace⟩

theorem asks_follow (s : PollLoop) (e : PollAction) :
    ∀ call ∈ s.asks e, call.Follows s.client.config := by
  cases e with
  | synchronize env =>
    simp only [asks]
    split_ifs
    · simp
    · exact ApiClient.clockCalls_follow s.client.config env
  | request env =>
    simp only [asks]
    split_ifs
    · exact ApiClient.requestCalls_follow s.client.config env
    · simp
  | requestRefresh | waitReady | report | take | timeout | leave => simp [asks]

/-- A step that asks something is in the middle of an attempt. -/
theorem distance_of_asks (h : step parser arith s e = some t) (hasks : s.asks e ≠ []) :
    3 ≤ distance s.point := by
  cases e with
  | synchronize env =>
    simp only [step] at h
    split_ifs at h with hplace
    simp [hplace, distance]
  | request env =>
    obtain ⟨err, hplace⟩ := request_point h
    simp [hplace, distance]
  | requestRefresh | waitReady | report | take | timeout | leave => exact absurd rfl hasks

end PollLoop

end SensorPanel
