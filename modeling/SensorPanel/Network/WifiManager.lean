import SensorPanel.Library.Buffer
import SensorPanel.Library.Sync
import SensorPanel.Errno

/-!
# The Wi-Fi manager

The manager keeps a state, an association flag, a ready semaphore and one
delayable work item. `connectHandler` runs on the work queue, `wifiEvent` and
`ipEvent` on the network event thread. Requests to the DHCP client are results
of `wifiEvent`; what the driver and the client answer is left to the callers of
this module. Each handler is also given by the single steps it consists of.
-/

namespace SensorPanel

open Library

inductive WifiManagerState
  | disconnected | connecting | connected
  deriving DecidableEq, Repr

/-- A network interface, known by its address. -/
structure NetIf where
  address : ℕ
  deriving DecidableEq, Repr

inductive WifiSecurity
  | none | psk
  deriving DecidableEq, Repr

inductive WifiMfp
  | disable | optional | required
  deriving DecidableEq, Repr

def wifiChannelAny : ℕ := 255

/-- `struct wifi_connect_req_params`; the pointers are given by what they point to. -/
structure WifiConnectReqParams where
  ssid : Buffer 33
  ssidLength : ℕ
  psk : Buffer 65
  pskLength : ℕ
  channel : ℕ
  security : WifiSecurity
  mfp : WifiMfp
  timeout : ℕ
  deriving DecidableEq

/-- The static variables of `wifi_manager.c`; `connectWork` tells whether the
work item is scheduled. -/
structure WifiManager where
  iface : Option NetIf
  params : Option WifiConnectReqParams
  stationSsid : Buffer 33
  stationPassword : Buffer 65
  state : WifiManagerState
  associated : Bool
  ready : Semaphore 1
  connectWork : Bool

/-- The events the two callbacks are registered for. -/
inductive NetEvent
  | wifiConnectResult | wifiDisconnectResult | ipv4DhcpBound | ipv4AddrDel
  deriving DecidableEq, Repr

structure WifiStatus where
  status : ℤ
  deriving DecidableEq, Repr

/-- The calls of `wifi_event` to the DHCP client. -/
inductive DhcpCall
  | start | stop
  deriving DecidableEq, Repr

namespace WifiManager

def boot : WifiManager where
  iface := none
  params := none
  stationSsid := Buffer.zero _
  stationPassword := Buffer.zero _
  state := .disconnected
  associated := false
  ready := Semaphore.empty
  connectWork := false

def isConnected (w : WifiManager) : Bool := w.state = .connected

section Retry

/-! The four steps of `retry`. -/

def setDisconnected (w : WifiManager) : WifiManager := { w with state := .disconnected }

def clearAssociated (w : WifiManager) : WifiManager := { w with associated := false }

def resetReady (w : WifiManager) : WifiManager := { w with ready := w.ready.reset }

def rescheduleConnect (w : WifiManager) : WifiManager := { w with connectWork := true }

def retry (w : WifiManager) : WifiManager :=
  w.setDisconnected.clearAssociated.resetReady.rescheduleConnect

end Retry

def setConnecting (w : WifiManager) : WifiManager := { w with state := .connecting }

/-- The work queue takes the item off its schedule and runs it. -/
def dequeueConnect (w : WifiManager) : WifiManager := { w with connectWork := false }

/-- A result of `net_mgmt` after which `connect_handler` retries. -/
def Refused (err : ℤ) : Prop := err ≠ 0 ∧ err ≠ -EALREADY

instance (err : ℤ) : Decidable (Refused err) := inferInstanceAs (Decidable (_ ∧ _))

/-- `connect_handler`, given the result of `net_mgmt` if it gets there. -/
def connectHandler (w : WifiManager) (request : ℤ) : WifiManager :=
  if w.isConnected then w
  else if Refused request then w.setConnecting.retry else w.setConnecting

/-- `wifi_event`: the manager it leaves and its call to the DHCP client. -/
def wifiEvent (w : WifiManager) (info : Option WifiStatus) (event : NetEvent)
    (eventIface : NetIf) : WifiManager × Option DhcpCall :=
  if some eventIface ≠ w.iface then (w, none)
  else match event with
    | .wifiConnectResult =>
      match info with
      | none => (w.retry, none)
      | some result =>
        if result.status ≠ 0 then (w.retry, none)
        else ({ w with associated := true }, some .start)
    | .wifiDisconnectResult => (w.retry, some .stop)
    | _ => (w, none)

def ipEvent (w : WifiManager) (event : NetEvent) (eventIface : NetIf) : WifiManager :=
  if some eventIface ≠ w.iface then w
  else match event with
    | .ipv4DhcpBound =>
      if w.associated then { w with state := .connected, ready := w.ready.give } else w
    | .ipv4AddrDel => { w with state := .connecting, ready := w.ready.reset }
    | _ => w

/-- The rest of `wifi_manager_wait_ready` once `k_sem_take` has returned. -/
def waitReadyWoken (w : WifiManager) (err : ℤ) : ℤ :=
  if err ≠ 0 then err else if w.isConnected then 0 else -ENETDOWN

/-- `strcpy` of a string with its terminator; there is no result where it
would leave the buffer. -/
def strcpy {n : ℕ} (dst : Buffer n) (src : CString) : Option (Buffer n) :=
  dst.write 0 (src.bytes ++ [0])

/-- The argument check of `wifi_manager_init`. -/
def initAccepts (ssid password : CString) : Bool :=
  ¬ (ssid.bytes.length = 0 ∨ 32 < ssid.bytes.length ∨
    (password.bytes.length ≠ 0 ∧ (password.bytes.length < 8 ∨ 63 < password.bytes.length)))

/-- `wifi_manager_init`, given what `net_if_get_wifi_sta` returns. -/
def init (w : WifiManager) (ssid password : Option CString) (sta : Option NetIf) :
    Option (ℤ × WifiManager) :=
  match ssid, password with
  | some ssid, some password =>
    if ¬ initAccepts ssid password then some (-EINVAL, w)
    else match sta with
      | none => some (-ENODEV, { w with iface := none })
      | some iface =>
        (strcpy w.stationSsid ssid).bind fun stationSsid =>
          (strcpy w.stationPassword password).map fun stationPassword =>
            (0, { w with
              iface := some iface
              stationSsid := stationSsid
              stationPassword := stationPassword
              params := some {
                ssid := stationSsid
                ssidLength := stationSsid.str.length
                psk := stationPassword
                pskLength := stationPassword.str.length
                channel := wifiChannelAny
                security := if stationPassword.str.length ≠ 0 then .psk else .none
                mfp := .optional
                timeout := 20 }
              connectWork := true })
  | _, _ => some (-EINVAL, w)

variable {w : WifiManager}

@[simp] theorem isConnected_iff : w.isConnected = true ↔ w.state = .connected := by
  simp [isConnected]

/-- A result of 0 has seen the manager connected. -/
theorem waitReadyWoken_eq_zero_iff {err : ℤ} :
    w.waitReadyWoken err = 0 ↔ err = 0 ∧ w.state = .connected := by
  unfold waitReadyWoken
  split_ifs with herr hconnected
  · exact iff_of_false herr fun h => herr h.1
  · exact iff_of_true rfl ⟨not_not.mp herr, isConnected_iff.mp hconnected⟩
  · exact iff_of_false (by decide) fun h => hconnected (isConnected_iff.mpr h.2)

theorem retry_eq (w : WifiManager) : w.retry =
    { w with
      state := .disconnected
      associated := false
      ready := Semaphore.empty
      connectWork := true } :=
  rfl

theorem initAccepts_iff {ssid password : CString} : initAccepts ssid password = true ↔
    (0 < ssid.bytes.length ∧ ssid.bytes.length ≤ 32) ∧
      (password.bytes.length = 0 ∨ (8 ≤ password.bytes.length ∧ password.bytes.length ≤ 63)) := by
  simp only [initAccepts, decide_eq_true_eq]
  omega

theorem strcpy_zero {n : ℕ} {src : CString} (h : src.bytes.length < n) :
    strcpy (Buffer.zero n) src = some (Buffer.padded n src.bytes) := by
  have hlen : (src.bytes ++ [0]).length ≤ n := by simpa using h
  rw [strcpy, Buffer.zero_write hlen, Option.some.injEq]
  ext1
  rw [Buffer.padded_bytes hlen, Buffer.padded_bytes h.le, List.append_assoc,
    List.singleton_append, ← List.replicate_succ, List.length_append, List.length_singleton]
  congr 2
  omega

/-- The manager `wifi_manager_init` leaves at its first call with these strings. -/
def started (ssid password : CString) (iface : NetIf) : WifiManager :=
  { boot with
    iface := some iface
    stationSsid := Buffer.padded _ ssid.bytes
    stationPassword := Buffer.padded _ password.bytes
    params := some {
      ssid := Buffer.padded _ ssid.bytes
      ssidLength := ssid.bytes.length
      psk := Buffer.padded _ password.bytes
      pskLength := password.bytes.length
      channel := wifiChannelAny
      security := if password.bytes.length ≠ 0 then .psk else .none
      mfp := .optional
      timeout := 20 }
    connectWork := true }

/-- Accepted strings fit the static buffers and are copied whole. -/
theorem boot_init {ssid password : CString} (h : initAccepts ssid password = true) (iface : NetIf) :
    boot.init (some ssid) (some password) (some iface) =
      some (0, started ssid password iface) := by
  obtain ⟨⟨-, hssid⟩, hpassword⟩ := initAccepts_iff.mp h
  have hs : ssid.bytes.length < 33 := by omega
  have hp : password.bytes.length < 65 := by omega
  simp only [init, h, not_true_eq_false, if_false, boot, strcpy_zero hs, strcpy_zero hp,
    Option.bind_some, Option.map_some, Buffer.str_padded hs.le ssid.noNul,
    Buffer.str_padded hp.le password.noNul, started]

def openStarted : WifiManager := started (.literal "home") (.literal "") ⟨1⟩

theorem boot_init_open :
    boot.init (some (.literal "home")) (some (.literal "")) (some ⟨1⟩) =
      some (0, openStarted) := boot_init (by decide) ⟨1⟩

/-- A manager that `wifi_manager_init` has set going: what a run starts from. -/
structure Started (w : WifiManager) (iface : NetIf) : Prop where
  iface_eq : w.iface = some iface
  disconnected : w.state = .disconnected
  not_associated : w.associated = false
  no_token : w.ready.count = 0
  scheduled : w.connectWork = true

theorem init_started {ssid password : Option CString} {sta : Option NetIf}
    (h : boot.init ssid password sta = some (0, w)) :
    ∃ iface, sta = some iface ∧ w.Started iface := by
  unfold init at h
  cases ssid with
  | none => simp [EINVAL] at h
  | some ssid =>
    cases password with
    | none => simp [EINVAL] at h
    | some password =>
      by_cases hcheck : initAccepts ssid password = true
      · cases sta with
        | none => simp [hcheck, ENODEV] at h
        | some iface =>
          simp only [hcheck, not_true_eq_false, if_false] at h
          obtain ⟨stationSsid, -, h⟩ := Option.bind_eq_some_iff.mp h
          obtain ⟨stationPassword, -, h⟩ := Option.map_eq_some_iff.mp h
          obtain rfl := (Prod.ext_iff.mp h).2
          exact ⟨iface, rfl, rfl, rfl, rfl, rfl, rfl⟩
      · simp [hcheck, EINVAL] at h

/-- However it ends, `wifi_manager_init` writes neither flag. -/
theorem init_flags {w' : WifiManager} {ssid password : Option CString} {sta : Option NetIf}
    {err : ℤ} (h : w.init ssid password sta = some (err, w')) :
    w'.state = w.state ∧ w'.associated = w.associated := by
  unfold init at h
  split at h
  · split_ifs at h with hcheck
    · split at h
      · obtain rfl := (Prod.ext_iff.mp (Option.some.inj h)).2
        exact ⟨rfl, rfl⟩
      · obtain ⟨stationSsid, -, h⟩ := Option.bind_eq_some_iff.mp h
        obtain ⟨stationPassword, -, h⟩ := Option.map_eq_some_iff.mp h
        obtain rfl := (Prod.ext_iff.mp h).2
        exact ⟨rfl, rfl⟩
    · obtain rfl := (Prod.ext_iff.mp (Option.some.inj h)).2
      exact ⟨rfl, rfl⟩
  · obtain rfl := (Prod.ext_iff.mp (Option.some.inj h)).2
    exact ⟨rfl, rfl⟩

end WifiManager

end SensorPanel
