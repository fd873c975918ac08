import SensorPanel.Library.Machine
import SensorPanel.Network.WifiManager

/-!
# Recovery of the Wi-Fi manager

The work queue runs `connectHandler` step by step while complete runs of the
two callbacks fall between its steps. Around the manager there are the driver,
which reports results at any time and may have a request outstanding, and the
DHCP client, which obtains and drops leases while it runs and raises an event
for each. The manager is alive while something will still move it: its own work,
the driver's answer, or an address the client has yet to obtain or report.
-/

namespace SensorPanel

open Library

namespace WifiManager

/-- The next step of `connect_handler`, when it is running. -/
inductive ConnectPoint
  | idle
  | write
  | request
  | setDisconnected
  | clearAssociated
  | resetReady
  | reschedule
  deriving DecidableEq, Repr

structure DhcpClient where
  running : Bool
  lease : Bool
  deriving DecidableEq, Repr

/-- The manager with the driver, the DHCP client and the address events that
have been raised and not yet handled. -/
structure WifiSystem where
  manager : WifiManager
  handler : ConnectPoint
  dhcp : DhcpClient
  outstanding : Bool
  bounds : ℕ
  dels : ℕ

/-- One step of the work queue, a complete callback, or the environment. -/
inductive WifiAction
  | test
  | write
  | request (err : ℤ)
  | setDisconnected
  | clearAssociated
  | resetReady
  | reschedule
  | wifiEvent (info : Option WifiStatus) (event : NetEvent) (eventIface : NetIf)
  | ipEvent (event : NetEvent) (eventIface : NetIf)
  | obtainLease
  | dropLease
  | takeReady
  deriving DecidableEq

namespace WifiSystem

/-- The system `wifi_manager_init` leaves, before anything has answered. -/
def start (w : WifiManager) : WifiSystem where
  manager := w
  handler := .idle
  dhcp := ⟨false, false⟩
  outstanding := false
  bounds := 0
  dels := 0

/-- The lease goes, and with it an event is raised. -/
def loseLease (s : WifiSystem) : WifiSystem :=
  if s.dhcp.lease then { s with dhcp.lease := false, dels := s.dels + 1 } else s

def call (s : WifiSystem) : Option DhcpCall → WifiSystem
  | none => s
  | some .start => { s with dhcp.running := true }
  | some .stop => { s.loseLease with dhcp.running := false }

/-- A result of the driver answers the outstanding request. -/
def answer (s : WifiSystem) (eventIface : NetIf) : WifiSystem :=
  if some eventIface = s.manager.iface then { s with outstanding := false } else s

def deliverWifi (s : WifiSystem) (info : Option WifiStatus) (event : NetEvent)
    (eventIface : NetIf) : WifiSystem :=
  let r := s.manager.wifiEvent info event eventIface
  { (s.answer eventIface).call r.2 with manager := r.1 }

/-- A complete run of `ip_event`; an event of this interface has been raised before. -/
def deliverIp (s : WifiSystem) (event : NetEvent) (eventIface : NetIf) : Option WifiSystem :=
  let s' := { s with manager := s.manager.ipEvent event eventIface }
  if some eventIface ≠ s.manager.iface then some s'
  else match event with
    | .ipv4DhcpBound => if 0 < s.bounds then some { s' with bounds := s.bounds - 1 } else none
    | .ipv4AddrDel => if 0 < s.dels then some { s' with dels := s.dels - 1 } else none
    | _ => none

def handlerStep (s : WifiSystem) : WifiAction → Option WifiSystem
  | .test =>
    if s.handler = .idle ∧ s.manager.connectWork then
      some { s with
        manager := s.manager.dequeueConnect
        handler := if s.manager.isConnected then .idle else .write }
    else none
  | .write =>
    if s.handler = .write then
      some { s with manager := s.manager.setConnecting, handler := .request }
    else none
  | .request err =>
    if s.handler = .request then
      if Refused err then some { s with handler := .setDisconnected }
      else some { s with handler := .idle, outstanding := true }
    else none
  | .setDisconnected =>
    if s.handler = .setDisconnected then
      some { s with manager := s.manager.setDisconnected, handler := .clearAssociated }
    else none
  | .clearAssociated =>
    if s.handler = .clearAssociated then
      some { s with manager := s.manager.clearAssociated, handler := .resetReady }
    else none
  | .resetReady =>
    if s.handler = .resetReady then
      some { s with manager := s.manager.resetReady, handler := .reschedule }
    else none
  | .reschedule =>
    if s.handler = .reschedule then
      some { s with manager := s.manager.rescheduleConnect, handler := .idle }
    else none
  | _ => none

def step (s : WifiSystem) : WifiAction → Option WifiSystem
  | .wifiEvent info event eventIface =>
    if event = .wifiConnectResult ∨ event = .wifiDisconnectResult then
      some (s.deliverWifi info event eventIface)
    else none
  | .ipEvent event eventIface => s.deliverIp event eventIface
  | .obtainLease =>
    if s.dhcp.running ∧ ¬ s.dhcp.lease then
      some { s with dhcp.lease := true, bounds := s.bounds + 1 }
    else none
  | .dropLease => if s.dhcp.lease then some s.loseLease else none
  | .takeReady =>
    s.manager.ready.take.map fun ready => { s with manager := { s.manager with ready := ready } }
  | action => s.handlerStep action

def machine : Machine WifiSystem WifiAction := Machine.ofFn step

/-- An associated manager whose DHCP client has an address to obtain or to report. -/
def Leasing (s : WifiSystem) : Prop :=
  s.manager.associated = true ∧ s.dhcp.running = true ∧ (s.dhcp.lease = false ∨ 0 < s.bounds)

/-- Connected, or something will still move the manager. -/
def Alive (s : WifiSystem) : Prop :=
  s.manager.state = .connected ∨ s.manager.connectWork = true ∨ s.outstanding = true ∨ s.Leasing

/-- A lease that is held and has been reported: `net_dhcpv4_start` will not bring
another event about it. -/
def LeaseReported (s : WifiSystem) : Prop := s.dhcp.lease = true ∧ s.bounds = 0

def Served (s : WifiSystem) : Prop := s.manager.associated = true → s.dhcp.running = true

/-- The events that, with `connect_handler` not running, do not meet a lease
reported too early. A connect success may find one only when the manager is
connected or has work scheduled; a deleted address may disconnect a manager that
holds another, or that is not associated, only when it is about to try again. -/
def KeepsGoing (s : WifiSystem) (e : WifiAction) : Prop :=
  s.handler = .idle → match e with
    | .wifiEvent (some result) .wifiConnectResult eventIface =>
      some eventIface = s.manager.iface → result.status = 0 → s.LeaseReported →
        s.manager.state = .connected ∨ s.manager.connectWork = true
    | .ipEvent .ipv4AddrDel eventIface =>
      some eventIface = s.manager.iface → s.manager.state = .connected →
        (s.manager.associated = true → s.LeaseReported) →
          s.manager.connectWork = true ∨ s.outstanding = true
    | _ => True

instance (s : WifiSystem) (e : WifiAction) : Decidable (KeepsGoing s e) := by
  unfold KeepsGoing LeaseReported
  split <;> infer_instance

variable {s t : WifiSystem} {e : WifiAction}

@[simp] theorem loseLease_handler (s : WifiSystem) : s.loseLease.handler = s.handler := by
  unfold loseLease
  split_ifs <;> rfl

@[simp] theorem call_handler (s : WifiSystem) (c : Option DhcpCall) :
    (s.call c).handler = s.handler := by
  rcases c with _ | _ | _ <;> simp [call]

@[simp] theorem answer_handler (s : WifiSystem) (eventIface : NetIf) :
    (s.answer eventIface).handler = s.handler := by
  unfold answer
  split_ifs <;> rfl

@[simp] theorem deliverWifi_handler (s : WifiSystem) (info : Option WifiStatus) (event : NetEvent)
    (eventIface : NetIf) : (s.deliverWifi info event eventIface).handler = s.handler := by
  simp [deliverWifi]

@[simp] theorem ipEvent_associated (w : WifiManager) (event : NetEvent) (eventIface : NetIf) :
    (w.ipEvent event eventIface).associated = w.associated := by
  unfold ipEvent
  cases event <;> dsimp only <;> split_ifs <;> rfl

theorem deliverIp_frame {event : NetEvent} {eventIface : NetIf}
    (h : s.deliverIp event eventIface = some t) :
    t.handler = s.handler ∧ t.manager.associated = s.manager.associated ∧ t.dhcp = s.dhcp := by
  unfold deliverIp at h
  cases event <;> dsimp only at h <;> split_ifs at h <;>
    (obtain rfl := Option.some.inj h; simp)

theorem deliverWifi_success {eventIface : NetIf} (h : some eventIface = s.manager.iface)
    {result : WifiStatus} (hstatus : result.status = 0) :
    s.deliverWifi (some result) .wifiConnectResult eventIface =
      { s with
        manager := { s.manager with associated := true }
        dhcp.running := true
        outstanding := false } := by
  simp [deliverWifi, wifiEvent, answer, call, h, hstatus]

/-- What a run of `wifi_event` can do: nothing for another interface, start the
DHCP client on a connect success, and schedule a retry on anything else the
driver reports. -/
theorem deliverWifi_cases (s : WifiSystem) (info : Option WifiStatus) {event : NetEvent}
    (eventIface : NetIf) (hevent : event = .wifiConnectResult ∨ event = .wifiDisconnectResult) :
    s.deliverWifi info event eventIface = s ∨
      (∃ result, info = some result ∧ event = .wifiConnectResult ∧
        some eventIface = s.manager.iface ∧ result.status = 0) ∨
      (s.deliverWifi info event eventIface).manager = s.manager.retry := by
  by_cases hiface : some eventIface = s.manager.iface
  · right
    rcases hevent with rfl | rfl
    · cases info with
      | none => simp [deliverWifi, wifiEvent, hiface]
      | some result =>
        by_cases hstatus : result.status = 0
        · exact Or.inl ⟨result, rfl, rfl, hiface, hstatus⟩
        · simp [deliverWifi, wifiEvent, hiface, hstatus]
    · simp [deliverWifi, wifiEvent, hiface]
  · left
    simp [deliverWifi, wifiEvent, answer, call, hiface]

theorem not_leaseReported : ¬ s.LeaseReported ↔ s.dhcp.lease = false ∨ 0 < s.bounds := by
  simp [LeaseReported, Nat.pos_iff_ne_zero, or_iff_not_imp_left]

/-- A run of `wifi_event` leaves the manager alive unless it is a connect success
that finds a reported lease. -/
theorem alive_deliverWifi (halive : s.Alive) {info : Option WifiStatus} {event : NetEvent}
    {eventIface : NetIf} (hevent : event = .wifiConnectResult ∨ event = .wifiDisconnectResult)
    (hguard : ∀ result, info = some result → event = .wifiConnectResult →
      some eventIface = s.manager.iface → result.status = 0 → s.LeaseReported →
        s.manager.state = .connected ∨ s.manager.connectWork = true) :
    (s.deliverWifi info event eventIface).Alive := by
  obtain h | ⟨result, rfl, rfl, hiface, hstatus⟩ | h := s.deliverWifi_cases info eventIface hevent
  · rw [h]
    exact halive
  · rw [deliverWifi_success hiface hstatus]
    by_cases hreported : s.LeaseReported
    · rcases hguard result rfl rfl hiface hstatus hreported with h | h
      · exact Or.inl h
      · exact Or.inr (Or.inl h)
    · exact Or.inr (Or.inr (Or.inr ⟨rfl, rfl, not_leaseReported.mp hreported⟩))
  · right
    left
    rw [h]
    rfl

/-- A run of `ip_event` leaves the manager alive unless a deleted address
disconnects it with nothing left to wait for. -/
theorem alive_deliverIp (halive : s.Alive) (hserved : s.Served) {event : NetEvent}
    {eventIface : NetIf} (hstep : s.deliverIp event eventIface = some t)
    (hguard : event = .ipv4AddrDel → some eventIface = s.manager.iface →
      s.manager.state = .connected → (s.manager.associated = true → s.LeaseReported) →
        s.manager.connectWork = true ∨ s.outstanding = true) : t.Alive := by
  by_cases hiface : some eventIface = s.manager.iface
  · simp only [deliverIp, hiface, ne_eq, not_true_eq_false, if_false] at hstep
    cases event with
    | ipv4DhcpBound =>
      dsimp only at hstep
      split_ifs at hstep with hbounds
      obtain rfl := Option.some.inj hstep
      by_cases hassociated : s.manager.associated = true
      · left
        simp [ipEvent, hiface, hassociated]
      · have hsame : s.manager.ipEvent .ipv4DhcpBound eventIface = s.manager := by
          simp [ipEvent, hiface, hassociated]
        rw [hsame]
        rcases halive with h | h | h | h
        · exact Or.inl h
        · exact Or.inr (Or.inl h)
        · exact Or.inr (Or.inr (Or.inl h))
        · exact absurd h.1 hassociated
    | ipv4AddrDel =>
      dsimp only at hstep
      split_ifs at hstep with hdels
      obtain rfl := Option.some.inj hstep
      have hheld : s.manager.connectWork = true ∨ s.outstanding = true ∨ s.Leasing := by
        rcases halive with h | h
        · by_cases hleasing : s.manager.associated = true ∧ ¬ s.LeaseReported
          · exact Or.inr (Or.inr ⟨hleasing.1, hserved hleasing.1, not_leaseReported.mp hleasing.2⟩)
          · rw [not_and_not_right] at hleasing
            rcases hguard rfl hiface h hleasing with h | h
            · exact Or.inl h
            · exact Or.inr (Or.inl h)
        · exact h
      right
      simpa [ipEvent, hiface, Leasing] using hheld
    | wifiConnectResult | wifiDisconnectResult => simp at hstep
  · simp only [deliverIp, ne_eq, hiface, not_false_eq_true, if_true] at hstep
    obtain rfl := Option.some.inj hstep
    have hsame : s.manager.ipEvent event eventIface = s.manager := by
      simp [ipEvent, hiface]
    rw [hsame]
    exact halive

theorem alive_loseLease (halive : s.Alive) : s.loseLease.Alive := by
  unfold loseLease
  split_ifs
  · rcases halive with h | h | h | h
    · exact Or.inl h
    · exact Or.inr (Or.inl h)
    · exact Or.inr (Or.inr (Or.inl h))
    · exact Or.inr (Or.inr (Or.inr ⟨h.1, h.2.1, Or.inl rfl⟩))
  · exact halive

/-- `connect_handler` ends connected, with a request outstanding or with its
work scheduled again. -/
theorem alive_handlerStep (hstep : s.handlerStep e = some t) (hidle : t.handler = .idle) :
    t.Alive := by
  cases e with
  | test =>
    simp only [handlerStep] at hstep
    split_ifs at hstep with hdue hconnected
    · obtain rfl := Option.some.inj hstep
      exact Or.inl (isConnected_iff.mp hconnected)
    · obtain rfl := Option.some.inj hstep
      simp at hidle
  | request err =>
    simp only [handlerStep] at hstep
    split_ifs at hstep with hpoint hrefused
    · obtain rfl := Option.some.inj hstep
      simp at hidle
    · obtain rfl := Option.some.inj hstep
      exact Or.inr (Or.inr (Or.inl rfl))
  | reschedule =>
    simp only [handlerStep] at hstep
    split_ifs at hstep with hpoint
    obtain rfl := Option.some.inj hstep
    exact Or.inr (Or.inl rfl)
  | write | setDisconnected | clearAssociated | resetReady =>
    simp only [handlerStep] at hstep
    split_ifs at hstep with hpoint
    obtain rfl := Option.some.inj hstep
    simp at hidle
  | _ => simp [handlerStep] at hstep

@[simp] theorem loseLease_manager (s : WifiSystem) : s.loseLease.manager = s.manager := by
  unfold loseLease
  split_ifs <;> rfl

@[simp] theorem loseLease_running (s : WifiSystem) :
    s.loseLease.dhcp.running = s.dhcp.running := by
  unfold loseLease
  split_ifs <;> rfl

/-- `connect_handler` does not touch the DHCP client and associates nothing. -/
theorem handlerStep_frame (h : s.handlerStep e = some t) :
    t.dhcp = s.dhcp ∧ (t.manager.associated = true → s.manager.associated = true) := by
  cases e with
  | test | write | request err | setDisconnected | resetReady | reschedule =>
    simp only [handlerStep] at h
    split_ifs at h <;> (obtain rfl := Option.some.inj h; exact ⟨rfl, id⟩)
  | clearAssociated =>
    simp only [handlerStep] at h
    split_ifs at h with hpoint
    obtain rfl := Option.some.inj h
    exact ⟨rfl, fun hassociated => absurd hassociated (by simp [clearAssociated])⟩
  | _ => simp [handlerStep] at h

/-- Only a connect success associates the manager, and it starts the client; a
disconnect, which stops the client, clears the association. -/
theorem served_step (hserved : s.Served) (hstep : s.step e = some t) : t.Served := by
  cases e with
  | wifiEvent info event eventIface =>
    simp only [step] at hstep
    split_ifs at hstep with hevent
    obtain rfl := Option.some.inj hstep
    obtain h | ⟨result, rfl, rfl, hiface, hstatus⟩ | h := s.deliverWifi_cases info eventIface hevent
    · rw [h]
      exact hserved
    · rw [deliverWifi_success hiface hstatus]
      exact fun _ => rfl
    · intro hassociated
      rw [h] at hassociated
      exact absurd hassociated (by simp [retry_eq])
  | ipEvent event eventIface =>
    obtain ⟨-, hassociated, hdhcp⟩ := deliverIp_frame hstep
    rw [Served, hassociated, hdhcp]
    exact hserved
  | obtainLease =>
    simp only [step] at hstep
    split_ifs at hstep with hfree
    obtain rfl := Option.some.inj hstep
    exact hserved
  | dropLease =>
    simp only [step] at hstep
    split_ifs at hstep with hlease
    obtain rfl := Option.some.inj hstep
    simpa [Served] using hserved
  | takeReady =>
    obtain ⟨ready, -, rfl⟩ := Option.map_eq_some_iff.mp hstep
    exact hserved
  | _ =>
    simp only [step] at hstep
    obtain ⟨hdhcp, hassociated⟩ := handlerStep_frame hstep
    rw [Served, hdhcp]
    exact fun h => hserved (hassociated h)

theorem alive_step (halive : s.handler = .idle → s.Alive) (hserved : s.Served)
    (hguard : KeepsGoing s e) (hstep : s.step e = some t) (hidle : t.handler = .idle) :
    t.Alive := by
  cases e with
  | wifiEvent info event eventIface =>
    simp only [step] at hstep
    split_ifs at hstep with hevent
    obtain rfl := Option.some.inj hstep
    rw [deliverWifi_handler] at hidle
    apply alive_deliverWifi (halive hidle) hevent
    rintro result rfl rfl
    exact hguard hidle
  | ipEvent event eventIface =>
    have hidle' : s.handler = .idle := (deliverIp_frame hstep).1.symm.trans hidle
    apply alive_deliverIp (halive hidle') hserved hstep
    rintro rfl
    exact hguard hidle'
  | obtainLease =>
    simp only [step] at hstep
    split_ifs at hstep with hfree
    obtain rfl := Option.some.inj hstep
    rcases halive hidle with h | h | h | h
    · exact Or.inl h
    · exact Or.inr (Or.inl h)
    · exact Or.inr (Or.inr (Or.inl h))
    · exact Or.inr (Or.inr (Or.inr ⟨h.1, h.2.1, Or.inr (Nat.succ_pos _)⟩))
  | dropLease =>
    simp only [step] at hstep
    split_ifs at hstep with hlease
    obtain rfl := Option.some.inj hstep
    rw [loseLease_handler] at hidle
    exact alive_loseLease (halive hidle)
  | takeReady =>
    obtain ⟨ready, -, rfl⟩ := Option.map_eq_some_iff.mp hstep
    exact halive hidle
  | _ =>
    simp only [step] at hstep
    exact alive_handlerStep hstep hidle

theorem not_alive_of_not_keepsGoing (hstep : s.step e = some t) (hguard : ¬ KeepsGoing s e) :
    t.handler = .idle ∧ ¬ t.Alive := by
  unfold KeepsGoing at hguard
  rw [Classical.not_imp] at hguard
  obtain ⟨hidle, hguard⟩ := hguard
  split at hguard
  · push Not at hguard
    obtain ⟨hiface, hstatus, ⟨hlease, hbounds⟩, hstate, hwork⟩ := hguard
    obtain rfl := Option.some.inj (show some _ = some t from hstep)
    refine ⟨by rw [deliverWifi_handler, hidle], ?_⟩
    rw [deliverWifi_success hiface hstatus]
    simp_all [Alive, Leasing]
  · push Not at hguard
    obtain ⟨hiface, hstate, hreported, hwork, houtstanding⟩ := hguard
    simp only [step] at hstep
    refine ⟨(deliverIp_frame hstep).1.trans hidle, ?_⟩
    simp only [deliverIp, hiface, ne_eq, not_true_eq_false, if_false] at hstep
    split_ifs at hstep with hdels
    obtain rfl := Option.some.inj hstep
    rintro (h | h | h | ⟨h, -, hleasing⟩)
    · exact absurd h (by simp [ipEvent, hiface])
    · exact hwork (by simpa [ipEvent, hiface] using h)
    · exact houtstanding h
    · rw [ipEvent_associated] at h
      exact not_leaseReported.mpr hleasing (hreported h)
  · exact absurd trivial hguard

/-- Uninterrupted, the steps of `connect_handler` are the handler. -/
theorem connectHandler_steps (hidle : s.handler = .idle) (hwork : s.manager.connectWork = true)
    (request : ℤ) : ∃ es t, machine.Run s es t ∧ t.handler = .idle ∧
      t.manager = s.manager.dequeueConnect.connectHandler request := by
  have hsame : s.manager.dequeueConnect.isConnected = s.manager.isConnected := rfl
  by_cases hconnected : s.manager.isConnected = true
  · refine ⟨[.test], { s with manager := s.manager.dequeueConnect, handler := .idle },
      Machine.run_ofFn_iff.mpr ?_, rfl, ?_⟩
    · simp [step, handlerStep, hidle, hwork, hconnected]
    · rw [connectHandler, hsame, if_pos hconnected]
  · by_cases hrefused : Refused request
    · refine ⟨[.test, .write, .request request, .setDisconnected, .clearAssociated, .resetReady,
        .reschedule],
        { s with manager := s.manager.dequeueConnect.setConnecting.retry, handler := .idle },
        Machine.run_ofFn_iff.mpr ?_, rfl, ?_⟩
      · simp [step, handlerStep, hidle, hwork, hconnected, hrefused, retry]
      · rw [connectHandler, hsame, if_neg hconnected, if_pos hrefused]
    · refine ⟨[.test, .write, .request request], { s with
        manager := s.manager.dequeueConnect.setConnecting, handler := .idle, outstanding := true },
        Machine.run_ofFn_iff.mpr ?_, rfl, ?_⟩
      · simp [step, handlerStep, hidle, hwork, hconnected, hrefused]
      · rw [connectHandler, hsame, if_neg hconnected, if_neg hrefused]

/-- When the manager recovers. In every run whose steps all keep it going, it is
alive whenever no handler is running; a step of any run that does not keep it
going leaves it dead. -/
theorem manager_recovers (ssid password : Option CString) (sta : Option NetIf) (w : WifiManager)
    (hinit : boot.init ssid password sta = some (0, w)) :
    (∀ t, (machine.restrict KeepsGoing).Reachable (start w) t → t.handler = .idle → t.Alive) ∧
    ∀ s e t, machine.Reachable (start w) s → machine.Step s e t → ¬ KeepsGoing s e →
      t.handler = .idle ∧ ¬ t.Alive := by
  obtain ⟨iface, -, hstarted⟩ := init_started hinit
  constructor
  · intro t hreach
    refine (Machine.Reachable.invariant (I := fun s => s.Served ∧ (s.handler = .idle → s.Alive))
      hreach ⟨?_, ?_⟩ ?_).2
    · intro hassociated
      exact absurd hassociated (by simp [start, hstarted.not_associated])
    · intro _
      exact Or.inr (Or.inl hstarted.scheduled)
    · intro s e t hinv hstep
      exact ⟨served_step hinv.1 hstep.2, alive_step hinv.2 hinv.1 hstep.1 hstep.2⟩
  · intro s e t _ hstep hguard
    exact not_alive_of_not_keepsGoing hstep hguard

/-- A first connection, its failure, and a second association: the failure left
the DHCP client running with its lease. -/
def secondAssociation : List WifiAction :=
  [.test, .write, .request 0, .wifiEvent (some ⟨0⟩) .wifiConnectResult ⟨1⟩, .obtainLease,
    .ipEvent .ipv4DhcpBound ⟨1⟩, .wifiEvent (some ⟨1⟩) .wifiConnectResult ⟨1⟩, .test, .write,
    .request 0]

/-- On an open network the manager is alive after every step of these, and no longer
when the second association succeeds. -/
theorem second_association_not_alive : ∃ t u,
    (machine.restrict KeepsGoing).Run (start openStarted) secondAssociation t ∧
    t.handler = .idle ∧ t.Alive ∧
    machine.Step t (.wifiEvent (some ⟨0⟩) .wifiConnectResult ⟨1⟩) u ∧ ¬ u.Alive := by
  obtain ⟨halive, hnot⟩ := manager_recovers _ _ _ _ boot_init_open
  have hfacts : (secondAssociation.foldlM (fun s e => if KeepsGoing s e then step s e else none)
      (start openStarted)).map (fun t => (t.handler,
        decide (KeepsGoing t (.wifiEvent (some ⟨0⟩) .wifiConnectResult ⟨1⟩)))) =
      some (.idle, false) := by
    decide
  obtain ⟨t, ht, hpair⟩ := Option.map_eq_some_iff.mp hfacts
  obtain ⟨hidle, hkeeps⟩ := Prod.ext_iff.mp hpair
  have hrun : (machine.restrict KeepsGoing).Run (start openStarted) secondAssociation t :=
    Machine.Run.of_guarded ht
  have hdead := hnot t (.wifiEvent (some ⟨0⟩) .wifiConnectResult ⟨1⟩) _ ⟨_, hrun.of_restrict⟩ rfl
    (of_decide_eq_false hkeeps)
  exact ⟨t, _, hrun, hidle, halive t ⟨_, hrun⟩ hidle, rfl, hdead.2⟩

/-- The second association finds the lease of the first: `net_dhcpv4_start` has
no effect, no address will be reported, and no work is scheduled. -/
theorem manager_wedges : ∃ t, machine.Run (start openStarted)
      (secondAssociation ++ [.wifiEvent (some ⟨0⟩) .wifiConnectResult ⟨1⟩]) t ∧
    t.handler = .idle ∧ t.manager.state = .connecting ∧ t.manager.connectWork = false ∧
    t.outstanding = false ∧ t.dhcp.lease = true ∧ t.bounds = 0 ∧ ¬ t.Alive := by
  refine ⟨_, Machine.run_ofFn_iff.mpr rfl, rfl, rfl, rfl, rfl, rfl, rfl, ?_⟩
  rintro (h | h | h | ⟨-, -, h | h⟩) <;> exact absurd h (by decide)

end WifiSystem

end WifiManager

end SensorPanel
