import SensorPanel.Network.WaitReady

/-!
# The credentials of the station

The manager keeps the name and the password of the network for the requests of
`connect_handler` and decides nothing by them. Managers that differ in them alone
take the same steps and go on differing in them alone.
-/

namespace SensorPanel

open Library

namespace WifiManager

/-- The manager as it would be with the credentials of another. -/
def withCredentials (w v : WifiManager) : WifiManager :=
  { w with params := v.params, stationSsid := v.stationSsid, stationPassword := v.stationPassword }

variable (w v : WifiManager)

@[simp] theorem withCredentials_iface : (w.withCredentials v).iface = w.iface := rfl

@[simp] theorem withCredentials_associated :
    (w.withCredentials v).associated = w.associated := rfl

theorem wifiEvent_withCredentials (info : Option WifiStatus) (event : NetEvent)
    (eventIface : NetIf) : (w.withCredentials v).wifiEvent info event eventIface =
      ((w.wifiEvent info event eventIface).1.withCredentials v,
        (w.wifiEvent info event eventIface).2) := by
  unfold wifiEvent
  rw [withCredentials_iface]
  by_cases hiface : some eventIface = w.iface
  · simp only [ne_eq, hiface, not_true_eq_false, if_false]
    cases event with
    | wifiConnectResult =>
      cases info with
      | none => rfl
      | some result =>
        dsimp only
        split_ifs <;> rfl
    | wifiDisconnectResult | ipv4DhcpBound | ipv4AddrDel => rfl
  · simp only [ne_eq, hiface, not_false_eq_true, if_true]

theorem ipEvent_withCredentials (event : NetEvent) (eventIface : NetIf) :
    (w.withCredentials v).ipEvent event eventIface =
      (w.ipEvent event eventIface).withCredentials v := by
  unfold ipEvent
  rw [withCredentials_iface, withCredentials_associated]
  by_cases hiface : some eventIface = w.iface
  · simp only [ne_eq, hiface, not_true_eq_false, if_false]
    cases event with
    | ipv4DhcpBound =>
      dsimp only
      split_ifs <;> rfl
    | wifiConnectResult | wifiDisconnectResult | ipv4AddrDel => rfl
  · simp only [ne_eq, hiface, not_false_eq_true, if_true]

namespace WifiSystem

def withCredentials (s : WifiSystem) (v : WifiManager) : WifiSystem :=
  { s with manager := s.manager.withCredentials v }

variable (s : WifiSystem)

@[simp] theorem withCredentials_manager :
    (s.withCredentials v).manager = s.manager.withCredentials v := rfl

theorem answer_withCredentials (eventIface : NetIf) :
    (s.withCredentials v).answer eventIface = (s.answer eventIface).withCredentials v := by
  rw [answer, answer, apply_ite (fun t : WifiSystem => t.withCredentials v)]
  rfl

theorem loseLease_withCredentials :
    (s.withCredentials v).loseLease = s.loseLease.withCredentials v := by
  rw [loseLease, loseLease, apply_ite (fun t : WifiSystem => t.withCredentials v)]
  rfl

theorem call_withCredentials (c : Option DhcpCall) :
    (s.withCredentials v).call c = (s.call c).withCredentials v := by
  rcases c with _ | _ | _
  · rfl
  · rfl
  · simp only [call, loseLease_withCredentials]
    rfl

theorem deliverWifi_withCredentials (info : Option WifiStatus) (event : NetEvent)
    (eventIface : NetIf) : (s.withCredentials v).deliverWifi info event eventIface =
      (s.deliverWifi info event eventIface).withCredentials v := by
  simp only [deliverWifi, withCredentials_manager, wifiEvent_withCredentials,
    answer_withCredentials, call_withCredentials]
  rfl

theorem deliverIp_withCredentials (event : NetEvent) (eventIface : NetIf) :
    (s.withCredentials v).deliverIp event eventIface =
      (s.deliverIp event eventIface).map fun t => t.withCredentials v := by
  simp only [deliverIp, withCredentials_manager, ipEvent_withCredentials]
  cases event <;>
    simp only [apply_ite (Option.map _), Option.map_some, Option.map_none] <;> rfl

theorem handlerStep_withCredentials (e : WifiAction) :
    (s.withCredentials v).handlerStep e =
      (s.handlerStep e).map fun t => t.withCredentials v := by
  cases e with
  | test | write | setDisconnected | clearAssociated | resetReady | reschedule =>
    simp only [handlerStep, apply_ite (Option.map _), Option.map_some, Option.map_none]
    rfl
  | request err =>
    simp only [handlerStep, apply_ite (Option.map _), Option.map_some, Option.map_none]
    rfl
  | wifiEvent | ipEvent | obtainLease | dropLease | takeReady => rfl

/-- The manager goes its way whatever its credentials are. -/
theorem step_withCredentials (e : WifiAction) :
    (s.withCredentials v).step e = (s.step e).map fun t => t.withCredentials v := by
  cases e with
  | wifiEvent info event eventIface =>
    simp only [step, deliverWifi_withCredentials, apply_ite (Option.map _), Option.map_some,
      Option.map_none]
  | ipEvent event eventIface => exact s.deliverIp_withCredentials v event eventIface
  | obtainLease =>
    simp only [step, apply_ite (Option.map _), Option.map_some, Option.map_none]
    rfl
  | dropLease =>
    simp only [step, loseLease_withCredentials, apply_ite (Option.map _), Option.map_some,
      Option.map_none]
    rfl
  | takeReady =>
    simp only [step, Option.map_map]
    rfl
  | test | write | request | setDisconnected | clearAssociated | resetReady | reschedule =>
    simp only [step, handlerStep_withCredentials]

end WifiSystem

namespace ReadySystem

def withCredentials (s : ReadySystem) (v : WifiManager) : ReadySystem :=
  { s with system := s.system.withCredentials v }

variable (s : ReadySystem) (v : WifiManager)

@[simp] theorem withCredentials_system :
    (s.withCredentials v).system = s.system.withCredentials v := rfl

@[simp] theorem withCredentials_waiter : (s.withCredentials v).waiter = s.waiter := rfl

theorem act_withCredentials (e : WifiAction) :
    (s.withCredentials v).act e = (s.act e).map fun t => t.withCredentials v := by
  simp only [act, withCredentials_system, WifiSystem.step_withCredentials, Option.map_map]
  congr 1
  funext t
  simp only [Function.comp_apply, apply_ite (fun t : ReadySystem => t.withCredentials v)]
  rfl

theorem step_withCredentials (e : ReadyAction) :
    (s.withCredentials v).step e = (s.step e).map fun t => t.withCredentials v := by
  cases e with
  | system e => cases e <;> first | rfl | exact s.act_withCredentials v _
  | test | timeout | leave =>
    simp only [step, apply_ite (Option.map _), Option.map_some, Option.map_none]
    rfl
  | take =>
    have htake : (s.withCredentials v).takeReady = s.takeReady.withCredentials v := by
      have hready : (s.withCredentials v).system.manager.ready = s.system.manager.ready := rfl
      unfold takeReady
      rw [hready]
      cases s.system.manager.ready.take <;> rfl
    simp only [step, htake, apply_ite (Option.map _), Option.map_some, Option.map_none]
    rfl
  | check =>
    simp only [step, withCredentials_waiter]
    cases s.waiter <;> rfl

end ReadySystem

end WifiManager

end SensorPanel
