import SensorPanel.Sensor.LoopCalls

/-!
# The credentials in the worker

The worker is given a copy of the whole configuration, credentials included, and
never reads these. Workers that differ in them alone take the same steps, make the
same calls and publish the same.
-/

namespace SensorPanel

open Library

namespace AppConfig

/-- The configuration as it would be with the credentials of another. -/
def withCredentials (c d : AppConfig) : AppConfig :=
  { c with ssid := d.ssid, password := d.password }

end AppConfig

namespace ApiClient

def withCredentials (c : ApiClient) (d : AppConfig) : ApiClient :=
  { c with config := c.config.withCredentials d }

variable (parser : JsonParser) (arith : DoubleArith) (c : ApiClient) (d : AppConfig)
  (env : Surroundings)

theorem responses_withCredentials (calls : List ResponseCall) :
    calls.foldlM receiveResponse (c.withCredentials d) =
      (calls.foldlM receiveResponse c).map fun c => c.withCredentials d := by
  induction calls generalizing c with
  | nil => rfl
  | cons call calls ih =>
    have hcall : receiveResponse (c.withCredentials d) call =
        (receiveResponse c call).map fun c => c.withCredentials d := by
      simp only [receiveResponse, Option.map_map]
      rfl
    rw [List.foldlM_cons, List.foldlM_cons, hcall]
    cases receiveResponse c call with
    | none => rfl
    | some c => exact ih c

theorem publish_withCredentials :
    publish parser arith (c.withCredentials d) env =
      (publish parser arith c env).map fun r => (r.1, r.2.1.withCredentials d, r.2.2) := by
  simp only [publish, Option.map_map]
  congr 1
  funext r
  obtain ⟨err, value⟩ := r
  cases value with
  | none => rfl
  | some value =>
    dsimp only [Function.comp_apply]
    split_ifs <;> rfl

theorem exchange_withCredentials :
    exchange parser arith (c.withCredentials d) env =
      (exchange parser arith c env).map fun r => (r.1, r.2.1.withCredentials d, r.2.2) := by
  have hrequest : httpRequest (c.withCredentials d).config = httpRequest c.config := rfl
  have hclear : (c.withCredentials d).clearResponse = c.clearResponse.withCredentials d := rfl
  simp only [exchange, hrequest, hclear, responses_withCredentials]
  cases (env.responseCalls (httpRequest c.config)).foldlM receiveResponse c.clearResponse with
  | none => rfl
  | some c =>
    have herr : (c.withCredentials d).responseError = c.responseError := rfl
    simp only [Option.map_some, Option.bind_some, herr, publish_withCredentials,
      apply_ite (Option.map _)]

/-- The worker has the credentials in its copy of the configuration and never reads them. -/
theorem requestSample_withCredentials :
    requestSample parser arith (c.withCredentials d) env =
      (requestSample parser arith c env).map fun r => (r.1, r.2.1.withCredentials d, r.2.2) := by
  have herr : setUpConnection (c.withCredentials d).config env = setUpConnection c.config env := rfl
  simp only [requestSample, herr, exchange_withCredentials, apply_ite (Option.map _),
    Option.map_some]

theorem reportError_withCredentials (err : ℤ) (stored : Option Int32) :
    (reportError (err, c.withCredentials d, stored)).client =
      (reportError (err, c, stored)).client.withCredentials d := by
  simp only [reportError]
  split_ifs <;> rfl

end ApiClient

namespace PollLoop

def withCredentials (s : PollLoop) (d : AppConfig) : PollLoop :=
  { s with client := s.client.withCredentials d }

variable (parser : JsonParser) (arith : DoubleArith) (s : PollLoop) (d : AppConfig)

@[simp] theorem withCredentials_client :
    (s.withCredentials d).client = s.client.withCredentials d := rfl

@[simp] theorem withCredentials_point : (s.withCredentials d).point = s.point := rfl

@[simp] theorem withCredentials_refreshSignal :
    (s.withCredentials d).refreshSignal = s.refreshSignal := rfl

theorem step_withCredentials (e : PollAction) :
    (s.withCredentials d).step parser arith e =
      (s.step parser arith e).map fun t => t.withCredentials d := by
  cases e with
  | requestRefresh =>
    have hrefresh : (s.withCredentials d).requestRefresh = s.requestRefresh.withCredentials d := by
      unfold requestRefresh
      rw [apply_ite (fun t : PollLoop => t.withCredentials d)]
      rfl
    exact congrArg some hrefresh
  | waitReady env =>
    simp only [step, apply_ite (Option.map _), apply_ite (fun t : PollLoop => t.withCredentials d),
      Option.map_some, Option.map_none]
    rfl
  | request env =>
    simp only [step, withCredentials_point, withCredentials_client,
      ApiClient.requestSample_withCredentials]
    cases s.point with
    | request err =>
      simp only [Option.map_map, apply_ite (Option.map _), Option.map_some]
      rfl
    | waitReady | synchronize | report | waitRefresh | blocked | woken => rfl
  | report =>
    simp only [step, withCredentials_point, withCredentials_client,
      ApiClient.reportError_withCredentials]
    cases s.point with
    | report err => rfl
    | waitReady | synchronize | request | waitRefresh | blocked | woken => rfl
  | take =>
    have htake : (s.withCredentials d).takeSignal = s.takeSignal.withCredentials d := by
      unfold takeSignal
      rw [withCredentials_refreshSignal]
      cases s.refreshSignal.take <;> rfl
    simp only [step, htake, apply_ite (Option.map _), Option.map_some, Option.map_none]
    rfl
  | synchronize | timeout | leave =>
    simp only [step, apply_ite (Option.map _), Option.map_some, Option.map_none]
    rfl

theorem published_withCredentials (e : PollAction) :
    (s.withCredentials d).published parser arith e = s.published parser arith e := by
  cases e with
  | request env =>
    simp only [published, withCredentials_point, withCredentials_client,
      ApiClient.requestSample_withCredentials, Option.bind_map]
    rfl
  | requestRefresh | waitReady | synchronize | report | take | timeout | leave => rfl

theorem asks_withCredentials (e : PollAction) :
    (s.withCredentials d).asks e = s.asks e := by
  cases e <;> rfl

end PollLoop

end SensorPanel
