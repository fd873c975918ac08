import SensorPanel.Network.HttpRequest
import SensorPanel.Sensor.ResponseBuffer
import SensorPanel.Sensor.SensorJson
import SensorPanel.Sensor.SensorModel

/-!
# The polling worker

One iteration of `poll_api` waits for Wi-Fi, sets the clock once, opens a TLS
connection, sends the request and publishes a sample or an error. The response
is collected by a callback in three static variables. Everything the network
and the clock answer is part of the surroundings of an iteration; an iteration
has no result where the C code would leave a buffer or an integer type.
-/

namespace SensorPanel

open Library

abbrev Errno := { errno : ℤ // errno ≠ 0 }

/-- The part of `struct http_response` the callback reads. -/
structure HttpResponse where
  httpStatusCode : ℕ
  bodyFrag : Fragment
  sound : bodyFrag.Sound

structure ResponseCall where
  rsp : HttpResponse
  final : Bool

inductive SocketOption
  | tlsSecTagList | tlsHostname | tlsPeerVerify | rcvTimeo | sndTimeo
  deriving DecidableEq, Repr

def SocketOption.inOrder : List SocketOption :=
  [.tlsSecTagList, .tlsHostname, .tlsPeerVerify, .rcvTimeo, .sndTimeo]

theorem SocketOption.mem_inOrder (o : SocketOption) : o ∈ inOrder := by
  cases o <;> decide

/-- What the calls of one iteration answer; `none` stands for success where a
failing call leaves an error number. A lookup that succeeds may return no address. -/
structure Surroundings where
  waitReady : ℤ
  sntp : Bytes → ℤ
  clockSettime : Option Errno
  getaddrinfo : Bytes → ℤ
  addresses : Bool
  socket : Option Errno
  setsockopt : SocketOption → Option Errno
  connect : Option Errno
  responseCalls : HttpRequest → List ResponseCall
  httpClientReq : HttpRequest → ℤ
  uptime : ℤ

/-- The static variables of `api_client.c`, `time_ready` and the published state. -/
structure ApiClient where
  config : AppConfig
  response : ResponseBuffer
  complete : Bool
  httpStatus : ℕ
  timeReady : Bool
  sensor : SensorState

namespace ApiClient

def receiveResponse (c : ApiClient) (call : ResponseCall) : Option ApiClient :=
  (c.response.append call.rsp.bodyFrag).map fun r =>
    { c with
      httpStatus := call.rsp.httpStatusCode
      response := r.2
      complete := if call.final then true else c.complete }

def synchronizeTime (config : AppConfig) (env : Surroundings) : ℤ :=
  let err := env.sntp config.ntpHost.str
  if err ≠ 0 then err
  else match env.clockSettime with
    | some errno => -errno
    | none => 0

/-- `request_sample` up to the request: 0 once the connection is set up. -/
def setUpConnection (config : AppConfig) (env : Surroundings) : ℤ :=
  if env.getaddrinfo config.apiHost.str ≠ 0 then -EHOSTUNREACH
  else match env.socket with
    | some errno => -errno
    | none =>
      match SocketOption.inOrder.findSome? env.setsockopt with
      | some errno => -errno
      | none =>
        if ¬ env.addresses then -EHOSTUNREACH
        else match env.connect with
          | some errno => -errno
          | none => 0

variable (parser : JsonParser) (arith : DoubleArith)

/-- The assignments of `request_sample` ahead of the request. -/
def clearResponse (c : ApiClient) : ApiClient :=
  { c with response := ResponseBuffer.zero, complete := false, httpStatus := 0 }

/-- The checks of `request_sample` after a request that returned. -/
def responseError (c : ApiClient) : ℤ :=
  if c.response.error ≠ 0 then c.response.error
  else if ¬ c.complete then -EBADMSG
  else if c.httpStatus ≠ 200 then -EACCES
  else 0

/-- The end of `request_sample`: the response is parsed and its value published. -/
def publish (c : ApiClient) (env : Surroundings) : Option (ℤ × ApiClient × Option Int32) :=
  (sensorJsonParse parser arith (some c.response.data.bytes) c.response.used true).map fun r =>
    match r with
    | (err, some value) =>
      if err = 0 then (0, { c with sensor := c.sensor.update value env.uptime }, some value)
      else (err, c, none)
    | (err, none) => (err, c, none)

/-- `request_sample` from the request on: its result, the variables it leaves
and the value it publishes. -/
def exchange (c : ApiClient) (env : Surroundings) : Option (ℤ × ApiClient × Option Int32) :=
  let request := httpRequest c.config
  ((env.responseCalls request).foldlM receiveResponse c.clearResponse).bind fun c =>
    if env.httpClientReq request < 0 then some (env.httpClientReq request, c, none)
    else if c.responseError ≠ 0 then some (c.responseError, c, none)
    else publish parser arith c env

def requestSample (c : ApiClient) (env : Surroundings) : Option (ℤ × ApiClient × Option Int32) :=
  let err := setUpConnection c.config env
  if err ≠ 0 then some (err, c, none) else exchange parser arith c env

/-- An iteration's end: the variables, and the value it stored. -/
structure Outcome where
  client : ApiClient
  stored : Option Int32

def reportError (r : ℤ × ApiClient × Option Int32) : Outcome :=
  match r with
  | (err, c, stored) =>
    if err ≠ 0 then ⟨{ c with sensor := c.sensor.setError err }, stored⟩ else ⟨c, stored⟩

/-- One iteration of the loop of `poll_api`, but for the wait at its end. -/
def pollIteration (c : ApiClient) (env : Surroundings) : Option Outcome :=
  if env.waitReady ≠ 0 then some ⟨c, none⟩
  else
    let err := if c.timeReady then 0 else synchronizeTime c.config env
    let c := { c with timeReady := if c.timeReady then true else err = 0 }
    (if err = 0 then requestSample parser arith c env else some (err, c, none)).map reportError

def pollMachine : Machine ApiClient Surroundings :=
  Machine.ofFn fun c env => (pollIteration parser arith c env).map Outcome.client

def initial (config : AppConfig) (sensor : SensorState) : ApiClient where
  config := config
  response := ResponseBuffer.zero
  complete := false
  httpStatus := 0
  timeReady := false
  sensor := sensor

def startAccepts (cfg : AppConfig) : Bool :=
  ¬ (cfg.apiHost.bytes.head? = some 0 ∨ cfg.apiPath.bytes.head? ≠ (ascii "/").head?)

/-- `api_client_start`, given the size of the embedded certificate and the
result of `tls_credential_add`: its result and the configuration the worker is
started with. -/
def start (cfg : Option AppConfig) (caCertificateSize : ℕ) (tlsCredentialAdd : ℤ) :
    ℤ × Option AppConfig :=
  match cfg with
  | none => (-EINVAL, none)
  | some cfg =>
    if ¬ startAccepts cfg then (-EINVAL, none)
    else if caCertificateSize ≤ 1 then (-EACCES, none)
    else if tlsCredentialAdd ≠ 0 then (tlsCredentialAdd, none)
    else (0, some cfg)

end ApiClient

end SensorPanel
