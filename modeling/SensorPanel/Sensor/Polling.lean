import SensorPanel.Library.Machine
import SensorPanel.Sensor.ApiClient

/-!
# The last good sample

Each request starts from cleared variables, so what an iteration stores depends
on this request alone; only the clock and the last sample are carried from one
iteration to the next.
-/

namespace SensorPanel

open Library

namespace Surroundings

variable (env : Surroundings) (config : AppConfig)

def calls : List ResponseCall := env.responseCalls (httpRequest config)

def body : Bytes := ResponseBuffer.bodyOf ((env.calls config).map fun call => call.rsp.bodyFrag)

/-- An iteration that would set the clock if it still had to. -/
def SetsClock : Prop :=
  env.waitReady = 0 ∧ env.sntp config.ntpHost.str = 0 ∧ env.clockSettime = none

/-- The connection is set up: the lookup returns an address, and the socket, all
its options and the connection succeed. -/
structure Connects : Prop where
  lookup : env.getaddrinfo config.apiHost.str = 0
  socket : env.socket = none
  options : ∀ o, env.setsockopt o = none
  addresses : env.addresses = true
  connect : env.connect = none

/-- A complete response of status 200 that fits the buffer. -/
structure Delivers : Prop where
  returned : 0 ≤ env.httpClientReq (httpRequest config)
  complete : ∃ call ∈ env.calls config, call.final = true
  status : ∃ call, (env.calls config).getLast? = some call ∧ call.rsp.httpStatusCode = 200
  fits : (env.body config).length ≤ 4095

end Surroundings

namespace ApiClient

variable {parser : JsonParser} {arith : DoubleArith} {c : ApiClient} {env : Surroundings}
  {config : AppConfig}

theorem synchronizeTime_eq_zero_iff : synchronizeTime config env = 0 ↔
    env.sntp config.ntpHost.str = 0 ∧ env.clockSettime = none := by
  unfold synchronizeTime
  by_cases hsntp : env.sntp config.ntpHost.str = 0
  · cases hclock : env.clockSettime with
    | none => simp [hsntp]
    | some errno => simp [hsntp, errno.2]
  · simp [hsntp]

theorem setUpConnection_eq_zero_iff : setUpConnection config env = 0 ↔ env.Connects config := by
  have hopts : SocketOption.inOrder.findSome? env.setsockopt = none ↔
      ∀ o, env.setsockopt o = none := by
    rw [List.findSome?_eq_none_iff]
    exact ⟨fun h o => h o (SocketOption.mem_inOrder o), fun h o _ => h o⟩
  unfold setUpConnection
  constructor
  · intro h
    by_cases hlookup : env.getaddrinfo config.apiHost.str = 0
    · rw [if_neg (not_not.mpr hlookup)] at h
      cases hsocket : env.socket with
      | some errno => simp [hsocket, errno.2] at h
      | none =>
        cases hoptions : SocketOption.inOrder.findSome? env.setsockopt with
        | some errno => simp [hsocket, hoptions, errno.2] at h
        | none =>
          cases haddresses : env.addresses with
          | false => simp [hsocket, hoptions, haddresses, EHOSTUNREACH] at h
          | true =>
            cases hconnect : env.connect with
            | some errno => simp [hsocket, hoptions, haddresses, hconnect, errno.2] at h
            | none => exact ⟨hlookup, hsocket, hopts.mp hoptions, haddresses, hconnect⟩
    · rw [if_pos hlookup] at h
      exact absurd h (by decide)
  · rintro ⟨hlookup, hsocket, hoptions, haddresses, hconnect⟩
    simp [hlookup, hsocket, hopts.mpr hoptions, haddresses, hconnect]

/-- The callbacks of one request: the buffer collects the fragments, the flag and
the status follow the calls. -/
theorem receiveResponse_all (calls : List ResponseCall) (c : ApiClient) :
    calls.foldlM receiveResponse c =
      (c.response.appendAll (calls.map fun call => call.rsp.bodyFrag)).map fun response =>
        { c with
          response := response
          complete := c.complete || calls.any ResponseCall.final
          httpStatus := (calls.getLast?.map fun call => call.rsp.httpStatusCode).getD
            c.httpStatus } := by
  induction calls generalizing c with
  | nil => simp [ResponseBuffer.appendAll]
  | cons call calls ih =>
    rw [List.foldlM_cons, List.map_cons, ResponseBuffer.appendAll, List.foldlM_cons,
      receiveResponse]
    cases happend : c.response.append call.rsp.bodyFrag with
    | none => rfl
    | some r =>
      have hflag : (if call.final = true then true else c.complete) =
          (c.complete || call.final) := by
        cases call.final <;> cases c.complete <;> rfl
      have hlast : ((call :: calls).getLast?.map fun call => call.rsp.httpStatusCode) =
          some ((calls.getLast?.map fun call => call.rsp.httpStatusCode).getD
            call.rsp.httpStatusCode) := by
        rw [List.getLast?_cons]
        cases calls.getLast? <;> rfl
      apply (ih _).trans
      rw [hlast, List.any_cons, hflag, Bool.or_assoc]
      rfl

/-- A request whose result may store the values `good` allows: it stores one of
them, or fails with an error and there is none. -/
inductive Ends (c : ApiClient) (uptime : ℤ) (good : Int32 → Prop) :
    ℤ × ApiClient × Option Int32 → Prop
  | sample {c' : ApiClient} {value : Int32} : good value → c'.config = c.config →
      c'.timeReady = c.timeReady → c'.sensor = c.sensor.update value uptime →
      Ends c uptime good (0, c', some value)
  | failure {c' : ApiClient} {err : ℤ} : err ≠ 0 → (∀ value, ¬ good value) →
      c'.config = c.config → c'.timeReady = c.timeReady → c'.sensor = c.sensor →
      Ends c uptime good (err, c', none)

theorem responseError_eq_zero_iff : c.responseError = 0 ↔
    c.response.error = 0 ∧ c.complete = true ∧ c.httpStatus = 200 := by
  unfold responseError
  split_ifs with herror hcomplete hstatus
  · exact iff_of_false herror (by tauto)
  · exact iff_of_false (by decide) (by tauto)
  · exact iff_of_true rfl (by tauto)
  · exact iff_of_false (by decide) (by tauto)

theorem publish_ends (parser : JsonParser) (arith : DoubleArith) (env : Surroundings) {body : Bytes}
    (h : c.response.Holds body) : ∃ r, publish parser arith c env = some r ∧
      Ends c env.uptime (ParsesTo parser arith body) r := by
  unfold publish
  rw [h.used_eq, sensorJsonParse_take h.take_eq]
  rcases sensorJsonParse_text parser arith body with ⟨value, hvalue⟩ | ⟨err, herr, hparse⟩
  · refine ⟨_, congrArg _ hvalue, ?_⟩
    exact .sample hvalue rfl rfl rfl
  · refine ⟨_, congrArg _ hparse, .failure herr.ne ?_ rfl rfl rfl⟩
    intro value hvalue
    rw [ParsesTo, hparse] at hvalue
    simp at hvalue

/-- What the callbacks of one request leave behind. -/
structure Collected (c : ApiClient) (env : Surroundings) (c' : ApiClient) : Prop where
  config_eq : c'.config = c.config
  timeReady_eq : c'.timeReady = c.timeReady
  sensor_eq : c'.sensor = c.sensor
  body : if (env.body c.config).length ≤ 4095 then c'.response.Holds (env.body c.config)
    else c'.response.error = -EMSGSIZE
  complete_iff : c'.complete = true ↔ ∃ call ∈ env.calls c.config, call.final = true
  status_iff : c'.httpStatus = 200 ↔
    ∃ call, (env.calls c.config).getLast? = some call ∧ call.rsp.httpStatusCode = 200

theorem collected (c : ApiClient) (env : Surroundings) :
    ∃ c', (env.calls c.config).foldlM receiveResponse c.clearResponse = some c' ∧
      Collected c env c' := by
  have hsound : ∀ f ∈ (env.calls c.config).map (fun call => call.rsp.bodyFrag), f.Sound := by
    intro f hf
    obtain ⟨call, -, rfl⟩ := List.mem_map.mp hf
    exact call.rsp.sound
  obtain ⟨response, hall, hresult⟩ := ResponseBuffer.zero_holds.appendAll hsound
  have hclear : c.clearResponse.response = ResponseBuffer.zero := rfl
  refine ⟨_, (receiveResponse_all _ _).trans (by rw [hclear, hall, Option.map_some]), ?_⟩
  refine ⟨rfl, rfl, rfl, hresult, ?_, ?_⟩
  · simp [clearResponse]
  · cases hlast : (env.calls c.config).getLast? <;> simp [clearResponse]

theorem Collected.responseError_iff {c' : ApiClient} (h : Collected c env c') :
    c'.responseError = 0 ↔ (env.body c.config).length ≤ 4095 ∧
      (∃ call ∈ env.calls c.config, call.final = true) ∧
      ∃ call, (env.calls c.config).getLast? = some call ∧ call.rsp.httpStatusCode = 200 := by
  have hbody := h.body
  rw [responseError_eq_zero_iff, h.complete_iff, h.status_iff]
  apply and_congr_left
  intro _
  split_ifs at hbody with hfits
  · exact iff_of_true hbody.no_error hfits
  · exact iff_of_false (by rw [hbody]; decide) hfits

/-- What one request stores depends on its own callbacks only. -/
theorem exchange_ends (parser : JsonParser) (arith : DoubleArith) (c : ApiClient)
    (env : Surroundings) : ∃ r, exchange parser arith c env = some r ∧
      Ends c env.uptime (fun value => env.Delivers c.config ∧
        ParsesTo parser arith (env.body c.config) value) r := by
  obtain ⟨c', hfold, h⟩ := collected c env
  unfold exchange
  change ∃ r, ((env.calls c.config).foldlM receiveResponse c.clearResponse).bind _ = some r ∧ _
  rw [hfold, Option.bind_some]
  by_cases hreturned : env.httpClientReq (httpRequest c.config) < 0
  · rw [if_pos hreturned]
    refine ⟨_, rfl, .failure hreturned.ne ?_ h.config_eq h.timeReady_eq h.sensor_eq⟩
    intro value hgood
    exact absurd hgood.1.returned (not_le.mpr hreturned)
  rw [if_neg hreturned]
  by_cases hresponse : c'.responseError = 0
  · obtain ⟨hfits, hcomplete, hstatus⟩ := h.responseError_iff.mp hresponse
    have hdelivers : env.Delivers c.config :=
      ⟨not_lt.mp hreturned, hcomplete, hstatus, hfits⟩
    have hbody := h.body
    rw [if_pos hfits] at hbody
    obtain ⟨r, hpublish, hends⟩ := publish_ends parser arith env hbody
    refine ⟨r, by rw [if_neg (not_not.mpr hresponse), hpublish], ?_⟩
    rcases hends with ⟨hvalue, hconfig, htime, hsensor⟩ | ⟨herr, hnone, hconfig, htime, hsensor⟩
    · exact .sample ⟨hdelivers, hvalue⟩ (hconfig.trans h.config_eq) (htime.trans h.timeReady_eq)
        (hsensor.trans (by rw [h.sensor_eq]))
    · exact .failure herr (fun value hgood => hnone value hgood.2) (hconfig.trans h.config_eq)
        (htime.trans h.timeReady_eq) (hsensor.trans h.sensor_eq)
  · refine ⟨_, if_pos hresponse, .failure hresponse ?_ h.config_eq h.timeReady_eq h.sensor_eq⟩
    intro value hgood
    apply hresponse
    exact h.responseError_iff.mpr ⟨hgood.1.fits, hgood.1.complete, hgood.1.status⟩

theorem requestSample_ends (parser : JsonParser) (arith : DoubleArith) (c : ApiClient)
    (env : Surroundings) : ∃ r, requestSample parser arith c env = some r ∧
      Ends c env.uptime (fun value => env.Connects c.config ∧ env.Delivers c.config ∧
        ParsesTo parser arith (env.body c.config) value) r := by
  unfold requestSample
  by_cases hconnects : env.Connects c.config
  · obtain ⟨r, hexchange, hends⟩ := exchange_ends parser arith c env
    refine ⟨r, ?_, by simpa only [hconnects, true_and] using hends⟩
    rw [← hexchange]
    exact if_neg (not_not.mpr (setUpConnection_eq_zero_iff.mpr hconnects))
  · have herr : setUpConnection c.config env ≠ 0 := fun h =>
      hconnects (setUpConnection_eq_zero_iff.mp h)
    exact ⟨_, if_pos herr, .failure herr (fun value hgood => hconnects hgood.1) rfl rfl rfl⟩

theorem reportError_of_ne {err : ℤ} (h : err ≠ 0) (c : ApiClient) (stored : Option Int32) :
    reportError (err, c, stored) = ⟨{ c with sensor := c.sensor.setError err }, stored⟩ := if_pos h

/-- How an iteration behind the Wi-Fi wait ends. The clock counts as set if it was
set before or is set now. -/
theorem pollIteration_ends (parser : JsonParser) (arith : DoubleArith) (c : ApiClient)
    (hready : env.waitReady = 0) : ∃ o, pollIteration parser arith c env = some o ∧
      o.client.config = c.config ∧
      (o.client.timeReady = true ↔ c.timeReady = true ∨ synchronizeTime c.config env = 0) ∧
      let good value := (c.timeReady = true ∨ synchronizeTime c.config env = 0) ∧
        env.Connects c.config ∧ env.Delivers c.config ∧
        ParsesTo parser arith (env.body c.config) value
      ((∃ value, o.stored = some value ∧ good value ∧
          o.client.sensor = c.sensor.update value env.uptime) ∨
        o.stored = none ∧ (∀ value, ¬ good value) ∧
          ∃ err, err ≠ 0 ∧ o.client.sensor = c.sensor.setError err) := by
  set err := if c.timeReady = true then 0 else synchronizeTime c.config env with herr
  have htime : err = 0 ↔ c.timeReady = true ∨ synchronizeTime c.config env = 0 := by
    rw [herr]
    split_ifs with h <;> simp [h]
  let clocked : ApiClient := { c with timeReady := if c.timeReady then true else err = 0 }
  have hclocked : clocked.timeReady = true ↔
      c.timeReady = true ∨ synchronizeTime c.config env = 0 := by
    rw [← htime]
    cases h : c.timeReady <;> simp [clocked, herr, h]
  have hstep : pollIteration parser arith c env =
      (if err = 0 then requestSample parser arith clocked env
        else some (err, clocked, none)).map reportError := by
    unfold pollIteration
    rw [if_neg (not_not.mpr hready)]
  rw [hstep, ← htime]
  by_cases hsync : err = 0
  · obtain ⟨r, hrequest, hends⟩ := requestSample_ends parser arith clocked env
    rw [if_pos hsync, hrequest]
    rcases hends with ⟨hgood, hconfig, hkept, hsensor⟩ | ⟨hne, hnone, hconfig, hkept, hsensor⟩
    · refine ⟨_, rfl, hconfig, ?_, Or.inl ⟨_, rfl, ⟨hsync, hgood⟩, hsensor⟩⟩
      exact (Bool.eq_iff_iff.mp hkept).trans (hclocked.trans htime.symm)
    · simp only [Option.map_some, reportError_of_ne hne]
      refine ⟨_, rfl, hconfig, ?_, Or.inr ⟨rfl, fun value h => hnone value h.2, _, hne, ?_⟩⟩
      · exact (Bool.eq_iff_iff.mp hkept).trans (hclocked.trans htime.symm)
      · exact congrArg (fun s : SensorState => s.setError _) hsensor
  · rw [if_neg hsync]
    simp only [Option.map_some, reportError_of_ne hsync]
    exact ⟨_, rfl, rfl, hclocked.trans htime.symm,
      Or.inr ⟨rfl, fun value h => hsync h.1, err, hsync, rfl⟩⟩

theorem pollIteration_offline (h : env.waitReady ≠ 0) :
    pollIteration parser arith c env = some ⟨c, none⟩ := if_pos h

/-- The clock is set after a run if one of its iterations could set it; the
configuration stays as it was. -/
theorem run_timeReady {c₀ : ApiClient} {past : List Surroundings} (h₀ : c₀.timeReady = false)
    (hrun : (pollMachine parser arith).Run c₀ past c) : c.config = c₀.config ∧
      (c.timeReady = true ↔ ∃ env ∈ past, env.SetsClock c₀.config) := by
  refine hrun.history_invariant (I := fun past c => c.config = c₀.config ∧
    (c.timeReady = true ↔ ∃ env ∈ past, env.SetsClock c₀.config)) ⟨rfl, by simp [h₀]⟩ ?_
  rintro past c env c' ⟨hconfig, htime⟩ hstep
  obtain ⟨o, ho, rfl⟩ := Option.map_eq_some_iff.mp hstep
  simp only [List.mem_append, List.mem_singleton, or_and_right, exists_or, exists_eq_left, ← htime]
  by_cases hready : env.waitReady = 0
  · obtain ⟨o', ho', hconfig', htime', -⟩ := pollIteration_ends parser arith c hready
    obtain rfl := Option.some.inj (ho.symm.trans ho')
    rw [hconfig] at hconfig' htime'
    rw [synchronizeTime_eq_zero_iff] at htime'
    exact ⟨hconfig', by simpa only [Surroundings.SetsClock, hready, true_and] using htime'⟩
  · rw [pollIteration_offline hready] at ho
    obtain rfl := Option.some.inj ho
    exact ⟨hconfig, by simp [Surroundings.SetsClock, hready]⟩

theorem pollIteration_isSome (parser : JsonParser) (arith : DoubleArith) (c : ApiClient)
    (env : Surroundings) : ∃ o, pollIteration parser arith c env = some o := by
  by_cases hready : env.waitReady = 0
  · obtain ⟨o, ho, -⟩ := pollIteration_ends parser arith c hready
    exact ⟨o, ho⟩
  · exact ⟨⟨c, none⟩, pollIteration_offline hready⟩

theorem exists_run (parser : JsonParser) (arith : DoubleArith) (c₀ : ApiClient)
    (past : List Surroundings) : ∃ c, (pollMachine parser arith).Run c₀ past c := by
  have htotal : ∀ (c : ApiClient) (env : Surroundings), True →
      ∃ c', (pollMachine parser arith).Step c env c' ∧ True := by
    intro c env _
    obtain ⟨o, ho⟩ := pollIteration_isSome parser arith c env
    exact ⟨o.client, by simp [pollMachine, ho], trivial⟩
  obtain ⟨c, hrun, -⟩ := Machine.exists_run_of_total htotal trivial past
  exact ⟨c, hrun⟩

/-- What an iteration does with the sample, given the surroundings of the
iterations before it and its own. -/
structure KeepsLastGood (parser : JsonParser) (arith : DoubleArith) (config : AppConfig)
    (past : List Surroundings) (env : Surroundings) (before : ApiClient) (o : Outcome) : Prop where
  stores_iff : (∃ value, o.stored = some value) ↔ env.waitReady = 0 ∧
    (∃ e ∈ past ++ [env], e.SetsClock config) ∧ env.Connects config ∧ env.Delivers config ∧
    ∃ value, ParsesTo parser arith (env.body config) value
  stored : ∀ value, o.stored = some value → ParsesTo parser arith (env.body config) value ∧
    o.client.sensor = ⟨true, value, env.uptime, 0⟩
  failed : env.waitReady = 0 → o.stored = none →
    ∃ err, err ≠ 0 ∧ o.client.sensor = { before.sensor with error := err }
  offline : env.waitReady ≠ 0 → o.stored = none ∧ o.client = before

/-- Whatever the iterations before it met, an iteration returns, and keeps the
last good sample. -/
theorem last_good_sample (parser : JsonParser) (arith : DoubleArith) {c₀ : ApiClient}
    (h₀ : c₀.timeReady = false) (past : List Surroundings) :
    (∃ c, (pollMachine parser arith).Run c₀ past c) ∧
      ∀ c, (pollMachine parser arith).Run c₀ past c → ∀ env, ∃ o,
        pollIteration parser arith c env = some o ∧
          KeepsLastGood parser arith c₀.config past env c o := by
  refine ⟨exists_run parser arith c₀ past, fun c hrun env => ?_⟩
  obtain ⟨hconfig, htime⟩ := run_timeReady h₀ hrun
  by_cases hready : env.waitReady = 0
  · have hclock : (∃ e ∈ past ++ [env], e.SetsClock c₀.config) ↔
        c.timeReady = true ∨ synchronizeTime c.config env = 0 := by
      rw [htime, hconfig, synchronizeTime_eq_zero_iff]
      simp [or_and_right, exists_or, Surroundings.SetsClock, hready]
    obtain ⟨o, ho, -, -, hends⟩ := pollIteration_ends parser arith c hready
    rw [← hclock, hconfig] at hends
    refine ⟨o, ho, ?_⟩
    rcases hends with ⟨value, hstored, hgood, hsensor⟩ | ⟨hstored, hnone, err, hne, hsensor⟩
    · obtain ⟨hset, hconnects, hdelivers, hparses⟩ := hgood
      exact {
        stores_iff := iff_of_true ⟨value, hstored⟩
          ⟨hready, hset, hconnects, hdelivers, value, hparses⟩
        stored := fun v hv => by
          obtain rfl := Option.some.inj (hstored.symm.trans hv)
          exact ⟨hparses, hsensor⟩
        failed := fun _ h => by simp [hstored] at h
        offline := fun h => absurd hready h }
    · exact {
        stores_iff := iff_of_false (by simp [hstored]) fun ⟨_, hset, hconnects, hdelivers, v, hv⟩ =>
          hnone v ⟨hset, hconnects, hdelivers, hv⟩
        stored := fun v hv => by simp [hstored] at hv
        failed := fun _ _ => ⟨err, hne, hsensor⟩
        offline := fun h => absurd hready h }
  · refine ⟨⟨c, none⟩, pollIteration_offline hready, ?_⟩
    exact {
      stores_iff := iff_of_false (by simp) fun h => hready h.1
      stored := fun v hv => by simp at hv
      failed := fun h => absurd h hready
      offline := fun _ => ⟨rfl, rfl⟩ }

/-- A document with the sample 23.45, and a parser that knows it. -/
def sampleDocument : Bytes :=
  ascii "\x7b\"things\":[\x7b\"device\":\x7b\"SensorValue\":[\x7b\"value\":23.45\x7d]\x7d\x7d]\x7d"

def sampleParser : JsonParser := fun text =>
  if text = sampleDocument ++ [0] then
    some (.object [(ascii "things", .array [.object [(ascii "device", .object
      [(ascii "SensorValue", .array [.object
        [(ascii "value", .number (.finite (469 / 20)))]])])]])])
  else none

/-- Surroundings in which everything succeeds, and the document comes in one piece. -/
def sampleSurroundings : Surroundings where
  waitReady := 0
  sntp _ := 0
  clockSettime := none
  getaddrinfo _ := 0
  addresses := true
  socket := none
  setsockopt _ := none
  connect := none
  responseCalls _ := [⟨⟨200, ⟨some sampleDocument, sampleDocument.length, by decide, by simp⟩,
    by simp [Fragment.Sound]⟩, true⟩]
  httpClientReq _ := sampleDocument.length
  uptime := 5000

theorem sampleDocument_parsesTo {centi : Int32} :
    ParsesTo sampleParser .exact sampleDocument centi ↔ centi = 2345 := by
  have hvalue : ((sampleParser (sampleDocument ++ [0])).bind fun root =>
      acceptedValue (sampleNodes root)) = some (469 / 20) := by
    rw [sampleParser, if_pos rfl, Option.bind_some, acceptedValue, if_pos ⟨rfl, rfl⟩]
    exact if_pos (by norm_num [abs_le])
  have hcenti : centiOf .exact (469 / 20) = some 2345 := by
    apply centiOf_eq (n := 2345) (by norm_num) (by norm_num)
    change truncate (469 / 20 * 100 + if (469 / 20 * 100 : ℚ) < 0 then -1 / 2 else 1 / 2) = 2345
    rw [if_neg (by norm_num)]
    exact truncate_offset (by norm_num) (by norm_num)
  rw [ParsesTo, sensorJsonParse_terminated, if_neg (by decide), hvalue]
  simp only [hcenti, Option.map_some]
  simp [eq_comm]

theorem sample_after_offline : ∃ c o,
    (pollMachine sampleParser .exact).Run (initial AppConfig.defaults .boot)
      [{ sampleSurroundings with waitReady := -11 }] c ∧
    pollIteration sampleParser .exact c sampleSurroundings = some o ∧
    o.client.sensor = ⟨true, 2345, 5000, 0⟩ := by
  obtain ⟨⟨c, hrun⟩, hall⟩ := last_good_sample sampleParser .exact
    (show (initial AppConfig.defaults .boot).timeReady = false from rfl)
    [{ sampleSurroundings with waitReady := -11 }]
  obtain ⟨o, ho, hkeeps⟩ := hall c hrun sampleSurroundings
  have hbody : sampleSurroundings.body (initial AppConfig.defaults .boot).config =
      sampleDocument := by decide
  have hfits : (sampleSurroundings.body (initial AppConfig.defaults .boot).config).length ≤ 4095 :=
    by decide
  obtain ⟨value, hstored⟩ := hkeeps.stores_iff.mpr ⟨rfl,
    ⟨sampleSurroundings, by simp, rfl, rfl, rfl⟩, ⟨rfl, rfl, fun _ => rfl, rfl, rfl⟩,
    ⟨by decide, ⟨_, List.mem_singleton_self _, rfl⟩, ⟨_, rfl, rfl⟩, hfits⟩,
    2345, by rw [hbody]; exact sampleDocument_parsesTo.mpr rfl⟩
  obtain ⟨hparses, hsensor⟩ := hkeeps.stored value hstored
  rw [hbody] at hparses
  obtain rfl := sampleDocument_parsesTo.mp hparses
  exact ⟨c, o, hrun, ho, hsensor⟩

end ApiClient

end SensorPanel
