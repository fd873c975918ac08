import SensorPanel.Config.Validity
import SensorPanel.Library.Decimal
import SensorPanel.Library.Wire

/-!
# The request on the wire

`request_sample` hands three settings to the HTTP client, which copies them
verbatim into a line- and space-delimited head and a counted body. The path is
the one field whose rule does not forbid the separator of the place it ends up
in, so a request reads back as intended exactly if the path has no space.
-/

namespace SensorPanel

open Library

/-- The part of `struct http_request` that `request_sample` fills in and the
client writes to the socket; the payload is given by what the pointer points to. -/
structure HttpRequest where
  method : Bytes
  url : Bytes
  host : Bytes
  protocol : Bytes
  contentTypeValue : Bytes
  payload : Bytes
  payloadLen : ℕ
  deriving DecidableEq, Repr

/-- The request `request_sample` makes from its copy of the configuration. -/
def httpRequest (config : AppConfig) : HttpRequest where
  method := ascii "POST"
  url := config.apiPath.str
  host := config.apiHost.str
  protocol := ascii "HTTP/1.1"
  contentTypeValue := ascii "application/json"
  payload := config.apiBody.bytes
  payloadLen := config.apiBody.str.length

namespace HttpRequest

def requestLine (r : HttpRequest) : Bytes :=
  r.method ++ ascii " " ++ r.url ++ ascii " " ++ r.protocol

/-- The header lines the client adds, in one of the orders it may choose. -/
def headers (r : HttpRequest) : List Bytes :=
  [ascii "Host: " ++ r.host, ascii "Content-Type: " ++ r.contentTypeValue,
    ascii "Content-Length: " ++ decimal r.payloadLen]

/-- What `http_client_req` sends, given the order of the header lines. -/
def wire (r : HttpRequest) (order : List Bytes) : Bytes :=
  (r.requestLine :: order).flatMap writeLine ++ crlf ++ r.payload.take r.payloadLen

end HttpRequest

/-- A request that reads back as its configuration: one request line of three
tokens, the client's header lines, one host, and a counted body. -/
def ReadsBack (config : AppConfig) (order : List Bytes) (text : Bytes) : Prop :=
  ∃ requestLine body, readHead text = some (requestLine :: order, body) ∧
    requestLine.splitOn space = [ascii "POST", config.apiPath.str, ascii "HTTP/1.1"] ∧
    headerValues (ascii "Host: ") order = [config.apiHost.str] ∧
    (headerValues (ascii "Content-Length: ") order).map decimalValue = [body.length] ∧
    body = config.apiBody.str

theorem headers_host (r : HttpRequest) : headerValues (ascii "Host: ") r.headers = [r.host] := by
  rw [HttpRequest.headers, headerValues_cons_self,
    headerValues_cons_other (by decide) (by decide),
    headerValues_cons_other (by decide) (by decide)]
  rfl

theorem headers_length (r : HttpRequest) :
    headerValues (ascii "Content-Length: ") r.headers = [decimal r.payloadLen] := by
  rw [HttpRequest.headers, headerValues_cons_other (by decide) (by decide),
    headerValues_cons_other (by decide) (by decide), headerValues_cons_self]
  rfl

theorem headers_clean {r : HttpRequest} (hhost : cr ∉ r.host) (htype : cr ∉ r.contentTypeValue) :
    ∀ line ∈ r.headers, line ≠ [] ∧ cr ∉ line := by
  have hlength : cr ∉ decimal r.payloadLen := fun h =>
    absurd (isDigit_of_mem_decimal h) (by decide)
  intro line hline
  simp only [HttpRequest.headers, List.mem_cons, List.not_mem_nil, or_false] at hline
  rcases hline with rfl | rfl | rfl
  · exact ⟨by simp [ascii], by simp [hhost]; decide⟩
  · exact ⟨by simp [ascii], by simp [htype]; decide⟩
  · exact ⟨by simp [ascii], by simp [hlength]; decide⟩

theorem payload_config (s : Settings) :
    (httpRequest s.config).payload.take (httpRequest s.config).payloadLen = (s .apiBody).value := by
  have hbytes : s.config.apiBody.bytes = (s .apiBody).value ++ _ :=
    Buffer.padded_bytes (s .apiBody).lt_capacity.le
  rw [httpRequest, hbytes, Settings.apiBody_str, List.take_left]

/-- The head and the body a valid configuration sends. -/
theorem readHead_wire (s : Settings) (hvalid : s.Valid) {order : List Bytes}
    (horder : order.Perm (httpRequest s.config).headers) :
    readHead ((httpRequest s.config).wire order) =
      some ((httpRequest s.config).requestLine :: order, (s .apiBody).value) := by
  obtain ⟨-, hpath, -⟩ : Field.apiPath.Rule (s .apiPath).value := hvalid .apiPath
  obtain ⟨hhost, -⟩ : Field.apiHost.Rule (s .apiHost).value := hvalid .apiHost
  rw [HttpRequest.wire, payload_config]
  apply readHead_lines
  intro line hline
  rcases List.mem_cons.mp hline with rfl | hline
  · have hliterals : cr ∉ ascii "POST" ∧ cr ∉ ascii " " ∧ cr ∉ ascii "HTTP/1.1" := by decide
    refine ⟨by simp [HttpRequest.requestLine, ascii], ?_⟩
    simp [HttpRequest.requestLine, httpRequest, hliterals, hpath]
  · refine headers_clean ?_ ?_ line (horder.mem_iff.mp hline)
    · simpa [httpRequest] using hhost
    · simp only [httpRequest]
      decide

/-- A valid configuration's request reads back exactly if its path has no space. -/
theorem readsBack_iff (s : Settings) (hvalid : s.Valid) {order : List Bytes}
    (horder : order.Perm (httpRequest s.config).headers) :
    ReadsBack s.config order ((httpRequest s.config).wire order) ↔
      space ∉ (s .apiPath).value := by
  have hread := readHead_wire s hvalid horder
  have hsplit : (httpRequest s.config).requestLine.splitOn space =
      [ascii "POST", s.config.apiPath.str, ascii "HTTP/1.1"] ↔ space ∉ (s .apiPath).value := by
    have hmethod : space ∉ ascii "POST" := by decide
    have hprotocol : space ∉ ascii "HTTP/1.1" := by decide
    rw [← splitOn_three_iff hmethod hprotocol]
    simp [HttpRequest.requestLine, httpRequest, show ascii " " = [space] from rfl]
  have hhost := headerValues_perm (ascii "Host: ") horder
  have hlength := headerValues_perm (ascii "Content-Length: ") horder
  rw [headers_host, List.perm_singleton] at hhost
  rw [headers_length, List.perm_singleton] at hlength
  constructor
  · rintro ⟨requestLine, body, hread', htokens, -⟩
    obtain ⟨hlines, -⟩ := Prod.ext_iff.mp (Option.some.inj (hread.symm.trans hread'))
    obtain rfl := (List.cons.inj hlines).1
    exact hsplit.mp htokens
  · intro hspace
    refine ⟨_, _, hread, hsplit.mpr hspace, hhost, ?_, ?_⟩
    · rw [hlength]
      simp [decimalValue_decimal, httpRequest]
    · rw [Settings.apiBody_str]

/-- When stored settings cannot bend the request. After any sequence of sets,
and whatever order the client puts its header lines in, the request reads back
as the configuration if and only if the path has no space. -/
theorem request_reads_back_iff (store : SettingsStore) (calls : List StoreCall)
    (hsets : ∀ e ∈ calls, ∃ key value saved, e = .set key value saved) (d : Device)
    (hrun : storeMachine.Run ⟨AppConfig.defaults, store⟩ calls d) (order : List Bytes)
    (horder : order.Perm (httpRequest d.config).headers) :
    ReadsBack d.config order ((httpRequest d.config).wire order) ↔
      space ∉ d.config.apiPath.str := by
  obtain ⟨s, hs, hvalid⟩ := storeMachine_settings hrun
  have hobeys : ∀ e ∈ calls, e.Obeys := by
    intro e he
    obtain ⟨key, value, saved, rfl⟩ := hsets e he
    exact trivial
  rw [hs] at horder ⊢
  rw [readsBack_iff s (hvalid hobeys) horder, Settings.apiPath_str]

def hostAndPath (path : CString) : List StoreCall :=
  [.set (some Field.apiHost.key) (some (.literal "example.com")) 0,
    .set (some Field.apiPath.key) (some path) 0]

theorem hostAndPath_run (path : CString) (hlen : path.bytes.length < Field.apiPath.capacity)
    (hrule : Field.apiPath.Rule path.bytes) : ∃ (s : Settings) (store : SettingsStore),
      storeMachine.Run ⟨AppConfig.defaults, ∅⟩ (hostAndPath path) ⟨s.config, store⟩ ∧ s.Valid ∧
      (s .apiHost).value = ascii "example.com" ∧ (s .apiPath).value = path.bytes := by
  let host : Setting .apiHost := ⟨ascii "example.com", by decide, by decide⟩
  obtain ⟨store₁, h₁⟩ := storeStep_set Settings.defaults ∅ .apiHost ⟨host.value, host.noNul⟩
    host.lt_capacity (by decide)
  obtain ⟨store₂, h₂⟩ := storeStep_set (Function.update Settings.defaults .apiHost host) store₁
    .apiPath path hlen hrule
  have hvalid := (Settings.defaults_valid.update (v := host) (by decide)).update
    (v := (⟨path.bytes, hlen, path.noNul⟩ : Setting .apiPath)) hrule
  rw [Settings.defaults_config] at h₁
  exact ⟨_, store₂, ((Machine.Run.nil _).snoc h₁).snoc h₂, hvalid, by simp [host], by simp⟩

theorem plain_path_reads_back : ∃ d, storeMachine.Run ⟨AppConfig.defaults, ∅⟩
      (hostAndPath (.literal "/api")) d ∧
    ReadsBack d.config (httpRequest d.config).headers
      ((httpRequest d.config).wire (httpRequest d.config).headers) := by
  obtain ⟨s, store, hrun, -, -, hpath⟩ := hostAndPath_run (.literal "/api")
    (by decide) (by decide)
  refine ⟨_, hrun, (request_reads_back_iff ∅ _ ?_ _ hrun _ (List.Perm.refl _)).mpr ?_⟩
  · intro e he
    simp only [hostAndPath, List.mem_cons, List.not_mem_nil, or_false] at he
    rcases he with rfl | rfl
    · exact ⟨_, _, _, rfl⟩
    · exact ⟨_, _, _, rfl⟩
  · rw [Settings.apiPath_str, hpath]
    decide

/-- `panel set api_path "/a b"` is accepted, and the request line then has four
tokens. -/
theorem spaced_path_bends_request : ∃ d, storeMachine.Run ⟨AppConfig.defaults, ∅⟩
      (hostAndPath (.literal "/a b")) d ∧ d.config.apiHost.str ≠ [] ∧
    ¬ ReadsBack d.config (httpRequest d.config).headers
      ((httpRequest d.config).wire (httpRequest d.config).headers) := by
  obtain ⟨s, store, hrun, hvalid, hhost, hpath⟩ := hostAndPath_run (.literal "/a b")
    (by decide) (by decide)
  refine ⟨_, hrun, ?_, ?_⟩
  · rw [Settings.apiHost_str, hhost]
    decide
  · rw [readsBack_iff s hvalid (List.Perm.refl _), hpath]
    decide

end SensorPanel
