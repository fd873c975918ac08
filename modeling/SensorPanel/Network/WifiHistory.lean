import SensorPanel.Library.Machine
import SensorPanel.Network.WifiManager

/-!
# What "connected" says about the past

Complete handler runs one after another, in any order. The association flag
and the state are compared with the history of the run: each is set by one kind
of event and cleared by others, so each is a `Since` of the events so far.
-/

namespace SensorPanel

open Library

namespace WifiManager

/-- A complete run of a handler, or a waiter taking the token. A run of
`connect_handler` shows the result of its request, if it makes one. -/
inductive HandlerRun
  | connectHandler (request : Option ℤ)
  | wifiEvent (info : Option WifiStatus) (event : NetEvent) (eventIface : NetIf)
  | ipEvent (event : NetEvent) (eventIface : NetIf)
  | takeReady
  deriving DecidableEq

/-- `connect_handler` runs when its work is due and makes a request unless it
finds the manager connected. -/
def handlerStep (w : WifiManager) : HandlerRun → Option WifiManager
  | .connectHandler request =>
    if w.connectWork ∧ (request = none ↔ w.isConnected) then
      some (w.dequeueConnect.connectHandler (request.getD 0))
    else none
  | .wifiEvent info event eventIface => some (w.wifiEvent info event eventIface).1
  | .ipEvent event eventIface => some (w.ipEvent event eventIface)
  | .takeReady => w.ready.take.map fun ready => { w with ready := ready }

def handlerMachine : Machine WifiManager HandlerRun := Machine.ofFn handlerStep

namespace HandlerRun

def Success (iface : NetIf) : HandlerRun → Prop
  | wifiEvent (some result) .wifiConnectResult eventIface =>
    eventIface = iface ∧ result.status = 0
  | _ => False

def Failure (iface : NetIf) : HandlerRun → Prop
  | wifiEvent none .wifiConnectResult eventIface => eventIface = iface
  | wifiEvent (some result) .wifiConnectResult eventIface =>
    eventIface = iface ∧ result.status ≠ 0
  | _ => False

def Disconnect (iface : NetIf) : HandlerRun → Prop
  | wifiEvent _ .wifiDisconnectResult eventIface => eventIface = iface
  | _ => False

/-- A run of `connect_handler` whose request was refused. -/
def RequestRefused : HandlerRun → Prop
  | connectHandler (some request) => Refused request
  | _ => False

def DhcpBound (iface : NetIf) : HandlerRun → Prop
  | ipEvent .ipv4DhcpBound eventIface => eventIface = iface
  | _ => False

def AddrDel (iface : NetIf) : HandlerRun → Prop
  | ipEvent .ipv4AddrDel eventIface => eventIface = iface
  | _ => False

/-- A run that neither history counts, a bound address apart. -/
structure Quiet (iface : NetIf) (e : HandlerRun) : Prop where
  not_success : ¬ e.Success iface
  not_failure : ¬ e.Failure iface
  not_disconnect : ¬ e.Disconnect iface
  not_refused : ¬ e.RequestRefused
  not_addrDel : ¬ e.AddrDel iface

theorem connectHandler_quiet (iface : NetIf) {request : Option ℤ}
    (h : ∀ err, request = some err → ¬ Refused err) : (connectHandler request).Quiet iface := by
  refine ⟨id, id, id, ?_, id⟩
  cases request with
  | none => exact id
  | some err => exact h err rfl

theorem wifiEvent_quiet {iface eventIface : NetIf} (info : Option WifiStatus) {event : NetEvent}
    (h : eventIface = iface → event = .ipv4DhcpBound ∨ event = .ipv4AddrDel) :
    (wifiEvent info event eventIface).Quiet iface := by
  constructor <;> cases info <;> cases event <;> simp_all [Success, Failure, Disconnect,
    RequestRefused, AddrDel]

theorem ipEvent_quiet {iface eventIface : NetIf} {event : NetEvent}
    (h : eventIface = iface → event ≠ .ipv4AddrDel) : (ipEvent event eventIface).Quiet iface := by
  refine ⟨id, id, id, id, ?_⟩
  cases event with
  | ipv4AddrDel => exact fun hiface => h hiface rfl
  | _ => exact id

theorem takeReady_quiet (iface : NetIf) : takeReady.Quiet iface := ⟨id, id, id, id, id⟩

end HandlerRun

/-- A connect success, and since then no failure, disconnect or refused request. -/
def AssociatedSince (iface : NetIf) (runs : List HandlerRun) : Prop :=
  Since (fun _ e => HandlerRun.Success iface e)
    (fun e => e.Failure iface ∨ e.Disconnect iface ∨ e.RequestRefused) runs

/-- A bound address while associated, and since then no failure, disconnect or
deleted address. -/
def ConnectedSince (iface : NetIf) (runs : List HandlerRun) : Prop :=
  Since (fun past e => HandlerRun.DhcpBound iface e ∧ AssociatedSince iface past)
    (fun e => e.Failure iface ∨ e.Disconnect iface ∨ e.AddrDel iface) runs

/-- The variables of the manager between two handler runs. -/
structure Consistent (w : WifiManager) : Prop where
  associated_of_connected : w.state = .connected → w.associated = true
  connected_of_token : 0 < w.ready.count → w.state = .connected
  scheduled_of_disconnected : w.state = .disconnected → w.connectWork = true

structure Summarises (iface : NetIf) (runs : List HandlerRun) (w : WifiManager) : Prop where
  iface_eq : w.iface = some iface
  associated_iff : w.associated = true ↔ AssociatedSince iface runs
  connected_iff : w.state = .connected ↔ ConnectedSince iface runs
  consistent : w.Consistent

variable {w w' : WifiManager} {iface : NetIf} {runs : List HandlerRun} {e : HandlerRun}

theorem Started.consistent (h : w.Started iface) : w.Consistent where
  associated_of_connected hc := by simp [h.disconnected] at hc
  connected_of_token ht := by simp [h.no_token] at ht
  scheduled_of_disconnected _ := h.scheduled

theorem Started.summarises (h : w.Started iface) : Summarises iface [] w where
  iface_eq := h.iface_eq
  associated_iff := by simp [h.not_associated, AssociatedSince, not_since_nil]
  connected_iff := by simp [h.disconnected, ConnectedSince, not_since_nil]
  consistent := h.consistent

theorem retry_consistent (w : WifiManager) : w.retry.Consistent where
  associated_of_connected hc := by simp [retry_eq] at hc
  connected_of_token ht := by simp [retry_eq] at ht
  scheduled_of_disconnected _ := rfl

theorem associatedSince_concat (hsuccess : ¬ e.Success iface)
    (hlost : ¬ (e.Failure iface ∨ e.Disconnect iface ∨ e.RequestRefused)) :
    AssociatedSince iface (runs ++ [e]) ↔ AssociatedSince iface runs := by
  rw [AssociatedSince, AssociatedSince, since_concat]
  simp [hsuccess, hlost]

theorem Summarises.of_quiet (h : Summarises iface runs w) (hiface : w'.iface = w.iface)
    (hassociated : w'.associated = w.associated)
    (hstate : w'.state = .connected ↔ w.state = .connected)
    (hconsistent : w'.Consistent)
    (hquiet : e.Quiet iface) (hbound : e.DhcpBound iface → ¬ w.associated = true) :
    Summarises iface (runs ++ [e]) w' := by
  obtain ⟨h₁, h₂, h₃, h₄, h₅⟩ := hquiet
  refine ⟨hiface.trans h.iface_eq, ?_, ?_, hconsistent⟩
  · rw [hassociated, h.associated_iff, associatedSince_concat h₁ (by simp [h₂, h₃, h₄])]
  · have hstart : ¬ (e.DhcpBound iface ∧ AssociatedSince iface runs) :=
      fun hb => hbound hb.1 (h.associated_iff.mpr hb.2)
    rw [hstate, h.connected_iff, ConnectedSince, ConnectedSince, since_concat]
    simp [hstart, h₂, h₃, h₅]

/-- A step that ends the association ends the connection. -/
theorem Summarises.of_retry (h : Summarises iface runs w) (hw : w.iface = w'.iface)
    (hlost : e.Failure iface ∨ e.Disconnect iface ∨ (e.RequestRefused ∧ w.state ≠ .connected))
    (hsuccess : ¬ e.Success iface) (hbound : ¬ e.DhcpBound iface) :
    Summarises iface (runs ++ [e]) w'.retry := by
  refine ⟨?_, ?_, ?_, retry_consistent w'⟩
  · rw [retry_eq]
    exact hw.symm.trans h.iface_eq
  · rw [AssociatedSince, since_concat]
    simp only [retry_eq, Bool.false_eq_true, hsuccess, false_or, false_iff, not_and, not_not]
    intro _
    tauto
  · rw [ConnectedSince, since_concat]
    simp only [retry_eq, reduceCtorEq, hbound, false_and, false_or, false_iff, not_and, not_not]
    intro hsince
    rcases hlost with hlost | hlost | ⟨-, hstate⟩
    · exact Or.inl hlost
    · exact Or.inr (Or.inl hlost)
    · exact absurd (h.connected_iff.mpr hsince) hstate

theorem connectHandler_summarises (h : Summarises iface runs w) {request : Option ℤ}
    (hrequest : request = none ↔ w.isConnected) :
    Summarises iface (runs ++ [.connectHandler request])
      (w.dequeueConnect.connectHandler (request.getD 0)) := by
  cases request with
  | none =>
    have hconnected : w.state = .connected := isConnected_iff.mp (hrequest.mp rfl)
    have hsame : w.dequeueConnect.connectHandler 0 = w.dequeueConnect := by
      simp [connectHandler, dequeueConnect, hconnected]
    rw [Option.getD_none, hsame]
    refine h.of_quiet rfl rfl Iff.rfl ⟨h.consistent.1, h.consistent.2, fun hd => ?_⟩
      (HandlerRun.connectHandler_quiet iface (by simp)) False.elim
    simp [dequeueConnect, hconnected] at hd
  | some r =>
    have hstate : w.state ≠ .connected := by
      intro hc
      exact Option.some_ne_none r (hrequest.mpr (isConnected_iff.mpr hc))
    have hnot : ¬ w.dequeueConnect.isConnected = true := by simpa [dequeueConnect] using hstate
    rw [Option.getD_some, connectHandler, if_neg hnot]
    by_cases hrefused : Refused r
    · rw [if_pos hrefused]
      exact h.of_retry rfl (Or.inr (Or.inr ⟨hrefused, hstate⟩)) id id
    · rw [if_neg hrefused]
      refine h.of_quiet rfl rfl ?_ ⟨?_, fun ht => ?_, ?_⟩
        (HandlerRun.connectHandler_quiet iface (by simpa using hrefused)) False.elim
      · simp [setConnecting, hstate]
      · simp [setConnecting]
      · exact absurd (h.consistent.connected_of_token ht) hstate
      · simp [setConnecting]

theorem Summarises.ignored (h : Summarises iface runs w)
    (hquiet : e.Quiet iface) (hbound : e.DhcpBound iface → ¬ w.associated = true) :
    Summarises iface (runs ++ [e]) w :=
  h.of_quiet rfl rfl Iff.rfl h.consistent hquiet hbound

theorem wifiEvent_summarises (h : Summarises iface runs w) (info : Option WifiStatus)
    (event : NetEvent) (eventIface : NetIf) :
    Summarises iface (runs ++ [.wifiEvent info event eventIface])
      (w.wifiEvent info event eventIface).1 := by
  by_cases hiface : eventIface = iface
  · subst hiface
    simp only [wifiEvent, h.iface_eq, ne_eq, not_true_eq_false, if_false]
    cases event with
    | wifiConnectResult =>
      cases info with
      | none => exact h.of_retry rfl (Or.inl rfl) id id
      | some result =>
        by_cases hstatus : result.status = 0
        · simp only [hstatus, not_true_eq_false, if_false]
          refine ⟨rfl, ?_, ?_, fun hc => rfl, h.consistent.2, h.consistent.3⟩
          · rw [AssociatedSince, since_concat]
            simp [HandlerRun.Success, hstatus]
          · rw [h.connected_iff, ConnectedSince, ConnectedSince, since_concat]
            simp [HandlerRun.DhcpBound, HandlerRun.Failure, HandlerRun.Disconnect,
              HandlerRun.AddrDel, hstatus]
        · simp only [hstatus, not_false_eq_true, if_true]
          exact h.of_retry rfl (Or.inl ⟨rfl, hstatus⟩) (fun hs => hstatus hs.2) id
    | wifiDisconnectResult =>
      refine h.of_retry rfl (Or.inr (Or.inl ?_)) ?_ id
      · cases info <;> rfl
      · cases info <;> exact id
    | ipv4DhcpBound | ipv4AddrDel =>
      exact h.ignored (HandlerRun.wifiEvent_quiet info (by simp)) False.elim
  · have hne : ¬ some eventIface = w.iface := by
      rw [h.iface_eq]
      simpa using hiface
    simp only [wifiEvent, ne_eq, hne, not_false_eq_true, if_true]
    exact h.ignored (HandlerRun.wifiEvent_quiet info (fun hsame => absurd hsame hiface)) False.elim

theorem ipEvent_summarises (h : Summarises iface runs w) (event : NetEvent) (eventIface : NetIf) :
    Summarises iface (runs ++ [.ipEvent event eventIface]) (w.ipEvent event eventIface) := by
  by_cases hiface : eventIface = iface
  · subst hiface
    simp only [ipEvent, h.iface_eq, ne_eq, not_true_eq_false, if_false]
    -- An event of the IP layer does not touch the association.
    have hkept : w.associated = true ↔
        AssociatedSince eventIface (runs ++ [.ipEvent event eventIface]) := by
      apply h.associated_iff.trans
      exact (associatedSince_concat id (by rintro (h | h | h) <;> exact h)).symm
    cases event with
    | ipv4DhcpBound =>
      by_cases hassociated : w.associated = true
      · rw [if_pos hassociated]
        refine ⟨rfl, hkept, ?_, fun _ => hassociated, fun _ => rfl, fun hd => ?_⟩
        · rw [ConnectedSince, since_concat]
          simp [HandlerRun.DhcpBound, h.associated_iff.mp hassociated]
        · simp at hd
      · rw [if_neg hassociated]
        exact h.ignored (HandlerRun.ipEvent_quiet (by simp)) fun _ => hassociated
    | ipv4AddrDel =>
      refine ⟨rfl, hkept, ?_, ?_, ?_, ?_⟩
      · rw [ConnectedSince, since_concat]
        simp [HandlerRun.DhcpBound, HandlerRun.AddrDel]
      all_goals simp
    | wifiConnectResult | wifiDisconnectResult =>
      exact h.ignored (HandlerRun.ipEvent_quiet (by simp)) False.elim
  · have hne : ¬ some eventIface = w.iface := by
      rw [h.iface_eq]
      simpa using hiface
    simp only [ipEvent, ne_eq, hne, not_false_eq_true, if_true]
    refine h.ignored (HandlerRun.ipEvent_quiet fun hsame => absurd hsame hiface) ?_
    cases event <;> simp [HandlerRun.DhcpBound, hiface]

theorem takeReady_summarises (h : Summarises iface runs w) {ready : Semaphore 1}
    (htake : w.ready.take = some ready) :
    Summarises iface (runs ++ [.takeReady]) { w with ready := ready } := by
  have hcount : 0 < w.ready.count := Semaphore.take_isSome_iff.mp (by rw [htake]; rfl)
  exact h.of_quiet rfl rfl Iff.rfl
    ⟨h.consistent.1, fun _ => h.consistent.connected_of_token hcount, h.consistent.3⟩
    (HandlerRun.takeReady_quiet iface) False.elim

theorem Summarises.step (h : Summarises iface runs w) (hstep : handlerStep w e = some w') :
    Summarises iface (runs ++ [e]) w' := by
  cases e with
  | connectHandler request =>
    simp only [handlerStep] at hstep
    split_ifs at hstep with hdue
    obtain rfl := Option.some.inj hstep
    exact connectHandler_summarises h hdue.2
  | wifiEvent info event eventIface =>
    obtain rfl := Option.some.inj hstep
    exact wifiEvent_summarises h info event eventIface
  | ipEvent event eventIface =>
    obtain rfl := Option.some.inj hstep
    exact ipEvent_summarises h event eventIface
  | takeReady =>
    obtain ⟨ready, htake, rfl⟩ := Option.map_eq_some_iff.mp hstep
    exact takeReady_summarises h htake

/-- The exact meaning of "connected". After any run of handlers the manager is
connected if and only if the run holds a bound address that a live association
preceded and that nothing has undone since. Between handler runs a connected
manager is associated, an available token means connected, so that a waiter
that takes it returns 0, and a disconnected manager has its work scheduled. -/
theorem connected_iff_history (ssid password : Option CString) (sta : Option NetIf)
    (w w' : WifiManager) (hinit : boot.init ssid password sta = some (0, w))
    (runs : List HandlerRun) (hruns : handlerMachine.Run w runs w') :
    ∃ iface, w.iface = some iface ∧ (w'.isConnected = true ↔ ConnectedSince iface runs) ∧
      (w'.state = .connected → w'.associated = true) ∧
      (0 < w'.ready.count → w'.state = .connected) ∧
      (∀ ready, w'.ready.take = some ready → waitReadyWoken { w' with ready := ready } 0 = 0) ∧
      (w'.state = .disconnected → w'.connectWork = true) := by
  obtain ⟨iface, -, hstarted⟩ := init_started hinit
  have h : Summarises iface runs w' :=
    hruns.history_invariant hstarted.summarises fun _ _ _ _ hs hstep => hs.step hstep
  refine ⟨iface, hstarted.iface_eq, isConnected_iff.trans h.connected_iff,
    h.consistent.1, h.consistent.2, fun ready htake => ?_, h.consistent.3⟩
  have hcount : 0 < w'.ready.count := Semaphore.take_isSome_iff.mp (by rw [htake]; rfl)
  simp [waitReadyWoken, isConnected, h.consistent.connected_of_token hcount]

theorem connected_after_bound : ∃ w w', handlerMachine.Run w
    [.connectHandler (some 0), .wifiEvent (some ⟨0⟩) .wifiConnectResult ⟨1⟩,
      .ipEvent .ipv4DhcpBound ⟨1⟩] w' ∧ w'.isConnected = true := by
  have hrun : handlerMachine.Run openStarted
      [.connectHandler (some 0), .wifiEvent (some ⟨0⟩) .wifiConnectResult ⟨1⟩,
        .ipEvent .ipv4DhcpBound ⟨1⟩] _ :=
    Machine.run_ofFn_iff.mpr rfl
  obtain ⟨iface, hiface, hconnected, -⟩ := connected_iff_history _ _ _ _ _ boot_init_open _ hrun
  obtain rfl : ⟨1⟩ = iface := Option.some.inj hiface
  refine ⟨_, _, hrun, hconnected.mpr ⟨[.connectHandler (some 0),
    .wifiEvent (some ⟨0⟩) .wifiConnectResult ⟨1⟩], .ipEvent .ipv4DhcpBound ⟨1⟩, [], rfl,
    ⟨rfl, ?_⟩, by simp⟩⟩
  exact ⟨[.connectHandler (some 0)], .wifiEvent (some ⟨0⟩) .wifiConnectResult ⟨1⟩, [], rfl,
    ⟨rfl, rfl⟩, by simp⟩

end WifiManager

end SensorPanel
