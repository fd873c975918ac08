import SensorPanel.Sensor.Refresh
import SensorPanel.Sensor.SharedState

/-!
# What the worker publishes

A sample is published in the middle of an attempt and an error at its end. Cut
at its calls, the loop of `poll_api` still publishes one outcome for each
attempt, and a sample only where a complete response brought it.
-/

namespace SensorPanel

open Library

namespace PollAction

def begins : PollAction → Bool
  | .waitReady env => env.waitReady = 0
  | _ => false

end PollAction

namespace PollLoop

variable (parser : JsonParser) (arith : DoubleArith)

/-- What a step publishes: `sensor_model_update` is called in `request_sample`,
`sensor_model_error` at the end of the iteration. -/
def published (s : PollLoop) : PollAction → Option Publication
  | .request env =>
    match s.point with
    | .request err =>
      if err = 0 then
        ((ApiClient.requestSample parser arith s.client env).bind fun r => r.2.2).map fun value =>
          .sample value env.uptime
      else none
    | _ => none
  | .report =>
    match s.point with
    | .report err => if err ≠ 0 then some (.error err) else none
    | _ => none
  | _ => none

def publishing : Machine PollLoop (PollAction × Option Publication) :=
  (machine parser arith).observe (published parser arith)

/-- An attempt under way that has published nothing yet. -/
def owing : PollPoint → ℕ
  | .synchronize | .request _ => 1
  | .report err => if err = 0 then 0 else 1
  | _ => 0

variable {parser : JsonParser} {arith : DoubleArith} {s t : PollLoop} {e : PollAction}

/-- What a step does to the variables, given what it publishes. -/
structure Effect (s : PollLoop) (e : PollAction) (p : Option Publication) (t : PollLoop) :
    Prop where
  config_eq : t.client.config = s.client.config
  sensor_eq : t.client.sensor = p.elim s.client.sensor s.client.sensor.publish
  timeReady_iff : t.client.timeReady = true ↔ s.client.timeReady = true ∨
    ∃ env, e = .synchronize env ∧ ApiClient.synchronizeTime s.client.config env = 0
  cleared : ∀ err, t.point = .request err → (err = 0 ↔ t.client.timeReady = true) ∨
    s.point = .request err ∧ t.client.timeReady = s.client.timeReady
  outcomes : p.toList.length + owing t.point = owing s.point + e.begins.toNat

theorem Effect.of_quiet (hclient : t.client = s.client) (he : ∀ env, e ≠ .synchronize env)
    (hpoint : ∀ err, t.point = .request err → s.point = .request err)
    (howing : owing t.point = owing s.point + e.begins.toNat) : Effect s e none t where
  config_eq := by rw [hclient]
  sensor_eq := by rw [hclient]; rfl
  timeReady_iff := by simp [hclient, he]
  cleared err h := Or.inr ⟨hpoint err h, by rw [hclient]⟩
  outcomes := by simpa using howing

theorem synchronizeStep_effect (s : PollLoop) (env : Surroundings)
    (hpoint : s.point = .synchronize) :
    Effect s (.synchronize env) none (s.synchronizeStep env) := by
  cases hset : s.client.timeReady with
  | true =>
    refine ⟨rfl, rfl, by simp [synchronizeStep, hset], fun err h => Or.inl ?_, ?_⟩
    · obtain rfl : 0 = err := by simpa [synchronizeStep, hset] using h
      simp [synchronizeStep, hset]
    · simp [hpoint, owing, synchronizeStep, PollAction.begins]
  | false =>
    refine ⟨rfl, rfl, by simp [synchronizeStep, hset], fun err h => Or.inl ?_, ?_⟩
    · obtain rfl : ApiClient.synchronizeTime s.client.config env = err := by
        simpa [synchronizeStep, hset] using h
      simp [synchronizeStep, hset]
    · simp [hpoint, owing, synchronizeStep, PollAction.begins]

theorem request_effect {env : Surroundings} {r : ℤ × ApiClient × Option Int32} {good : Int32 → Prop}
    (hpoint : s.point = .request 0) (hends : ApiClient.Ends s.client env.uptime good r) :
    Effect s (.request env) (r.2.2.map fun value => .sample value env.uptime)
      { s with client := r.2.1, point := .report r.1 } := by
  rcases hends with ⟨-, hconfig, htime, hsensor⟩ | ⟨herr, -, hconfig, htime, hsensor⟩
  · refine ⟨hconfig, hsensor, by simp [htime], by simp, ?_⟩
    simp [hpoint, owing, PollAction.begins]
  · refine ⟨hconfig, hsensor, by simp [htime], by simp, ?_⟩
    simp [hpoint, owing, herr, PollAction.begins]

theorem report_effect {err : ℤ} (hpoint : s.point = .report err) :
    Effect s .report (if err ≠ 0 then some (.error err) else none) { s with
      client := (ApiClient.reportError (err, s.client, none)).client
      point := .waitRefresh } := by
  by_cases herr : err = 0
  · subst herr
    exact .of_quiet rfl (by simp) (by simp) (by simp [hpoint, owing, PollAction.begins])
  · rw [if_pos herr, ApiClient.reportError_of_ne herr]
    exact ⟨rfl, rfl, by simp, by simp, by simp [hpoint, owing, herr, PollAction.begins]⟩

theorem request_point {env : Surroundings} (h : step parser arith s (.request env) = some t) :
    ∃ err, s.point = .request err := by
  simp only [step] at h
  split at h
  · next err hplace => exact ⟨err, hplace⟩
  · cases h

theorem report_point (h : step parser arith s .report = some t) : ∃ err, s.point = .report err := by
  simp only [step] at h
  split at h
  · next err hplace => exact ⟨err, hplace⟩
  · cases h

theorem step_effect (h : step parser arith s e = some t) :
    Effect s e (published parser arith s e) t := by
  cases e with
  | requestRefresh =>
    obtain rfl := Option.some.inj h
    unfold requestRefresh
    split_ifs with hblocked
    · exact .of_quiet rfl (by simp) (by simp) (by simp [hblocked, owing, PollAction.begins])
    · exact .of_quiet rfl (by simp) (fun _ => id) (by simp [PollAction.begins])
  | waitReady env =>
    simp only [step] at h
    split_ifs at h with hplace hfailed
    · obtain rfl := Option.some.inj h
      exact .of_quiet rfl (by simp) (fun _ => id) (by simp [PollAction.begins, hfailed])
    · obtain rfl := Option.some.inj h
      refine .of_quiet rfl (by simp) (by simp) ?_
      simp [hplace, owing, PollAction.begins, not_not.mp hfailed]
  | synchronize env =>
    simp only [step] at h
    split_ifs at h with hplace
    obtain rfl := Option.some.inj h
    exact s.synchronizeStep_effect env hplace
  | request env =>
    obtain ⟨err, hplace⟩ := request_point h
    simp only [step, published, hplace] at h ⊢
    split_ifs at h with herr
    · subst herr
      obtain ⟨r, hr, hends⟩ := ApiClient.requestSample_ends parser arith s.client env
      rw [hr] at h ⊢
      obtain rfl := Option.some.inj h
      exact request_effect hplace hends
    · obtain rfl := Option.some.inj h
      rw [if_neg herr]
      exact .of_quiet rfl (by simp) (by simp) (by simp [hplace, owing, herr, PollAction.begins])
  | report =>
    obtain ⟨err, hplace⟩ := report_point h
    simp only [step, published, hplace] at h ⊢
    obtain rfl := Option.some.inj h
    exact report_effect hplace
  | take =>
    simp only [step] at h
    split_ifs at h with hplace
    obtain rfl := Option.some.inj h
    unfold takeSignal
    split
    · exact .of_quiet rfl (by simp) (by simp) (by simp [hplace, owing, PollAction.begins])
    · exact .of_quiet rfl (by simp) (by simp) (by simp [hplace, owing, PollAction.begins])
  | timeout =>
    simp only [step] at h
    split_ifs at h with hplace
    obtain rfl := Option.some.inj h
    exact .of_quiet rfl (by simp) (by simp) (by simp [hplace, owing, PollAction.begins])
  | leave err =>
    simp only [step] at h
    split_ifs at h with hplace
    obtain rfl := Option.some.inj h
    exact .of_quiet rfl (by simp) (by simp) (by simp [hplace, owing, PollAction.begins])

/-- The time server has answered before, and the clock was set. -/
def ClockSet (config : AppConfig) (past : List (PollAction × Option Publication)) : Prop :=
  ∃ env, .synchronize env ∈ past.map Prod.fst ∧ ApiClient.synchronizeTime config env = 0

def publications (es : List (PollAction × Option Publication)) : List Publication :=
  es.filterMap Prod.snd

/-- The variables of the worker against its run so far. -/
structure Tells (client : ApiClient) (es : List (PollAction × Option Publication))
    (s : PollLoop) : Prop where
  config_eq : s.client.config = client.config
  sensor_eq : s.client.sensor = (publications es).foldl SensorState.publish client.sensor
  timeReady_iff : s.client.timeReady = true ↔ ClockSet client.config es
  cleared : ∀ err, s.point = .request err → (err = 0 ↔ s.client.timeReady = true)
  outcomes : (publications es).length + owing s.point = es.countP fun e => e.1.begins

theorem start_tells {client : ApiClient} (h : client.timeReady = false) :
    Tells client [] (start client) where
  config_eq := rfl
  sensor_eq := rfl
  timeReady_iff := by simp [start, h, ClockSet]
  cleared := by simp [start]
  outcomes := rfl

theorem Effect.tells {client : ApiClient} {es : List (PollAction × Option Publication)}
    {p : Option Publication} (h : Effect s e p t) (hs : Tells client es s) :
    Tells client (es ++ [(e, p)]) t := by
  have hpublications : publications (es ++ [(e, p)]) = publications es ++ p.toList := by
    cases p <;> simp [publications]
  refine ⟨h.config_eq.trans hs.config_eq, ?_, ?_, fun err herr => ?_, ?_⟩
  · rw [h.sensor_eq, hs.sensor_eq, hpublications, List.foldl_append]
    cases p <;> rfl
  · rw [h.timeReady_iff, hs.timeReady_iff, hs.config_eq]
    simp [ClockSet, or_and_right, exists_or, eq_comm]
  · rcases h.cleared err herr with hiff | ⟨hpoint, htime⟩
    · exact hiff
    · rw [htime]
      exact hs.cleared err hpoint
  · have hcount := hs.outcomes
    have heffect := h.outcomes
    rw [hpublications, List.length_append, List.countP_append, List.countP_singleton]
    cases hbegins : e.begins <;> simp [hbegins] at heffect ⊢ <;> omega

theorem run_tells {client : ApiClient} (h₀ : client.timeReady = false)
    {es : List (PollAction × Option Publication)}
    (h : (publishing parser arith).Run (start client) es s) : Tells client es s := by
  refine h.history_invariant (start_tells h₀) ?_
  rintro es s ⟨e, p⟩ t hs ⟨hstep, hp⟩
  dsimp only at hstep hp
  subst hp
  exact (step_effect hstep).tells hs

theorem parsesTo_unique {text : Bytes} {value value' : Int32}
    (h : ParsesTo parser arith text value) (k : ParsesTo parser arith text value') :
    value = value' := by
  rw [ParsesTo, h] at k
  simpa using k

/-- A request publishes the sample a complete response brings, and nothing else. -/
theorem published_request {err : ℤ} (hpoint : s.point = .request err) (env : Surroundings)
    (p : Publication) : published parser arith s (.request env) = some p ↔
      ∃ value, p = .sample value env.uptime ∧ err = 0 ∧ env.Connects s.client.config ∧
        env.Delivers s.client.config ∧
        ParsesTo parser arith (env.body s.client.config) value := by
  simp only [published, hpoint]
  by_cases herr : err = 0
  · obtain ⟨r, hr, hends⟩ := ApiClient.requestSample_ends parser arith s.client env
    rw [if_pos herr, hr, Option.bind_some]
    rcases hends with ⟨⟨hconnects, hdelivers, hparses⟩, -⟩ | ⟨-, hnone, -⟩
    · simp only [Option.map_some, Option.some.injEq]
      constructor
      · rintro rfl
        exact ⟨_, rfl, herr, hconnects, hdelivers, hparses⟩
      · rintro ⟨value, rfl, -, -, -, hvalue⟩
        rw [parsesTo_unique hparses hvalue]
    · refine iff_of_false (by simp) ?_
      rintro ⟨value, -, -, hgood⟩
      exact hnone value hgood
  · rw [if_neg herr]
    simp [herr]

/-- Nothing but a request publishes a sample, and nothing but the end of an attempt
an error. -/
theorem published_report {p : Publication} (h : published parser arith s e = some p)
    (hrequest : ∀ env, e ≠ .request env) :
    e = .report ∧ ∃ err, s.point = .report err ∧ p = .error err ∧ err ≠ 0 := by
  cases e with
  | request env => exact absurd rfl (hrequest env)
  | report =>
    simp only [published] at h
    split at h
    · next err hplace =>
      split_ifs at h with herr
      exact ⟨rfl, err, hplace, (Option.some.inj h).symm, herr⟩
    · cases h
  | _ => cases h

theorem published_sample {value : Int32} {time : ℤ}
    (h : published parser arith s e = some (.sample value time)) :
    ∃ env, e = .request env ∧ time = env.uptime := by
  by_cases hrequest : ∀ env, e ≠ .request env
  · obtain ⟨-, err, -, herr, -⟩ := published_report h hrequest
    cases herr
  · push Not at hrequest
    obtain ⟨env, rfl⟩ := hrequest
    simp only [published] at h
    split at h
    · split_ifs at h
      obtain ⟨v, -, hv⟩ := Option.map_eq_some_iff.mp h
      exact ⟨env, rfl, (Publication.sample.inj hv).2.symm⟩
    · cases h

/-- What the sequence of publications tells about the attempts of a run. -/
structure Accounts (parser : JsonParser) (arith : DoubleArith) (client : ApiClient)
    (es : List (PollAction × Option Publication)) (s : PollLoop) : Prop where
  state : s.client.sensor = (publications es).foldl SensorState.publish client.sensor
  one_each : (publications es).length + owing s.point = es.countP fun e => e.1.begins
  samples : ∀ past later env out, es = past ++ (.request env, out) :: later →
    ∀ p, out = some p ↔ ∃ value, p = .sample value env.uptime ∧ ClockSet client.config past ∧
      env.Connects client.config ∧ env.Delivers client.config ∧
      ParsesTo parser arith (env.body client.config) value
  errors : ∀ past later e p, es = past ++ (e, some p) :: later → (∀ env, e ≠ .request env) →
    e = .report ∧ ∃ err, p = .error err ∧ err ≠ 0

/-- Every attempt has one outcome. In every run of the worker, whatever requests
fall between its steps, each attempt publishes once, and is over when it has. It
publishes a sample exactly if the clock has been set, the connection is made and
a complete response brings that sample, and otherwise an error; the state is what
these publications leave. -/
theorem each_attempt_publishes_once {client : ApiClient} (h₀ : client.timeReady = false)
    {es : List (PollAction × Option Publication)}
    (h : (publishing parser arith).Run (start client) es s) :
    Accounts parser arith client es s := by
  have htells := run_tells h₀ h
  refine ⟨htells.sensor_eq, htells.outcomes, ?_, ?_⟩
  · rintro past later env out rfl p
    obtain ⟨u, v, hpast, ⟨hstep, hout⟩, -⟩ := h.step_mid
    have hu := run_tells h₀ hpast
    dsimp only at hstep hout
    obtain ⟨err, hpoint⟩ := request_point hstep
    rw [hout, published_request hpoint, hu.config_eq, hu.cleared err hpoint, hu.timeReady_iff]
  · rintro past later e p rfl hrequest
    obtain ⟨u, v, -, ⟨-, hout⟩, -⟩ := h.step_mid
    obtain ⟨rfl, err, -, hp, herr⟩ := published_report hout.symm hrequest
    exact ⟨rfl, err, hp, herr⟩

def oneAttempt : List PollAction :=
  [.waitReady ApiClient.sampleSurroundings, .synchronize ApiClient.sampleSurroundings,
    .request ApiClient.sampleSurroundings, .report]

theorem one_attempt_publishes_sample : ∃ es s,
    (publishing ApiClient.sampleParser .exact).Run
      (start (ApiClient.initial AppConfig.defaults .boot)) es s ∧
    es.map Prod.fst = oneAttempt ∧ publications es = [.sample 2345 5000] ∧
    s.client.sensor = ⟨true, 2345, 5000, 0⟩ := by
  obtain ⟨o, ho⟩ := ApiClient.pollIteration_isSome ApiClient.sampleParser .exact
    (ApiClient.initial AppConfig.defaults .boot) ApiClient.sampleSurroundings
  obtain ⟨es, hrun, hes⟩ := (iteration_steps (Semaphore.empty) rfl ho).observe
    (published ApiClient.sampleParser .exact)
  obtain ⟨hstate, hone, hsamples, -⟩ := each_attempt_publishes_once rfl hrun
  obtain ⟨before, rest, rfl, hbefore, hrest⟩ := List.map_eq_append_iff.mp
    (show es.map Prod.fst = oneAttempt.take 2 ++ oneAttempt.drop 2 from hes)
  obtain ⟨⟨e, out⟩, later, rfl, rfl, hlater⟩ := List.map_eq_cons_iff.mp hrest
  have hclock : ClockSet AppConfig.defaults before :=
    ⟨ApiClient.sampleSurroundings, by rw [hbefore]; simp [oneAttempt], by decide⟩
  have hout : out = some (.sample 2345 5000) := by
    refine (hsamples before later _ out rfl _).mpr ⟨2345, rfl, hclock, ?_, ?_, ?_⟩
    · exact ⟨rfl, rfl, fun _ => rfl, rfl, rfl⟩
    · exact ⟨by decide, ⟨_, List.mem_singleton_self _, rfl⟩, ⟨_, rfl, rfl⟩, by decide⟩
    · rw [show ApiClient.sampleSurroundings.body _ = ApiClient.sampleDocument by decide]
      exact ApiClient.sampleDocument_parsesTo.mpr rfl
  subst hout
  have hlength : (publications (before ++ (.request ApiClient.sampleSurroundings,
      some (.sample 2345 5000)) :: later)).length = 1 := by
    have hcount := congrArg (List.countP PollAction.begins) hes
    rw [List.countP_map] at hcount
    exact hone.trans hcount
  obtain ⟨p, hp⟩ := List.length_eq_one_iff.mp hlength
  have hmem : Publication.sample 2345 5000 ∈ publications (before ++
      (.request ApiClient.sampleSurroundings, some (.sample 2345 5000)) :: later) := by
    simp [publications]
  rw [hp, List.mem_singleton] at hmem
  subst hmem
  exact ⟨_, _, hrun, hes, hp, by rw [hstate, hp]; rfl⟩

end PollLoop

end SensorPanel
