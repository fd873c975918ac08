import SensorPanel.Network.WaitReady

/-!
# What "connected" says about the past, step by step

The work queue may be preempted in the middle of `connect_handler`, so that the
flags of the manager are written by two threads. Each still tells which of its
writes came last. What the two of them together promise is lost at one point of
`retry` only.
-/

namespace SensorPanel

open Library

namespace WifiManager

namespace WifiAction

def Success (iface : Option NetIf) : WifiAction → Prop
  | wifiEvent (some result) .wifiConnectResult eventIface =>
    some eventIface = iface ∧ result.status = 0
  | _ => False

def Lost (iface : Option NetIf) : WifiAction → Prop
  | wifiEvent info .wifiConnectResult eventIface =>
    some eventIface = iface ∧ ∀ result, info = some result → result.status ≠ 0
  | wifiEvent _ .wifiDisconnectResult eventIface => some eventIface = iface
  | _ => False

def Bound (iface : Option NetIf) : WifiAction → Prop
  | ipEvent .ipv4DhcpBound eventIface => some eventIface = iface
  | _ => False

def Deleted (iface : Option NetIf) : WifiAction → Prop
  | ipEvent .ipv4AddrDel eventIface => some eventIface = iface
  | _ => False

end WifiAction

/-- The last write of the association flag was by a connect success. -/
def LinkAssociated (iface : Option NetIf) (actions : List WifiAction) : Prop :=
  Since (fun _ a => WifiAction.Success iface a)
    (fun a => a.Lost iface ∨ a = .clearAssociated) actions

/-- The last write of the state was by an address bound while associated. -/
def LinkUp (iface : Option NetIf) (actions : List WifiAction) : Prop :=
  Since (fun past a => WifiAction.Bound iface a ∧ LinkAssociated iface past)
    (fun a => a.Lost iface ∨ a.Deleted iface ∨ a = .write ∨ a = .setDisconnected) actions

namespace WifiSystem

/-- What a step writes to the flags. -/
structure Writes (s : WifiSystem) (e : WifiAction) (t : WifiSystem) : Prop where
  iface_eq : t.manager.iface = s.manager.iface
  associated_iff : t.manager.associated = true ↔ e.Success s.manager.iface ∨
    s.manager.associated = true ∧ ¬ (e.Lost s.manager.iface ∨ e = .clearAssociated)
  connected_iff : t.manager.state = .connected ↔
    e.Bound s.manager.iface ∧ s.manager.associated = true ∨
      s.manager.state = .connected ∧ ¬ (e.Lost s.manager.iface ∨ e.Deleted s.manager.iface ∨
        e = .write ∨ e = .setDisconnected)

variable {s t : WifiSystem} {e : WifiAction}

theorem Writes.of_quiet (hiface : t.manager.iface = s.manager.iface)
    (hassociated : t.manager.associated = s.manager.associated)
    (hstate : t.manager.state = s.manager.state) (hsuccess : ¬ e.Success s.manager.iface)
    (hlost : ¬ (e.Lost s.manager.iface ∨ e = .clearAssociated))
    (hbound : ¬ (e.Bound s.manager.iface ∧ s.manager.associated = true))
    (hdeleted : ¬ (e.Lost s.manager.iface ∨ e.Deleted s.manager.iface ∨ e = .write ∨
      e = .setDisconnected)) : Writes s e t where
  iface_eq := hiface
  associated_iff := by simp [hassociated, hsuccess, hlost]
  connected_iff := by simp [hstate, hbound, hdeleted]

theorem writes_deliverIp {event : NetEvent} {eventIface : NetIf}
    (h : s.deliverIp event eventIface = some t) : Writes s (.ipEvent event eventIface) t := by
  have hmanager : t.manager = s.manager.ipEvent event eventIface := by
    unfold deliverIp at h
    cases event <;> dsimp only at h <;> split_ifs at h <;> obtain rfl := Option.some.inj h <;> rfl
  by_cases hiface : some eventIface = s.manager.iface
  · constructor <;> rw [hmanager]
    · unfold ipEvent
      cases event <;> dsimp only <;> split_ifs <;> rfl
    · simp [WifiAction.Success, WifiAction.Lost]
    · cases event with
      | ipv4DhcpBound =>
        by_cases hassociated : s.manager.associated = true
        · simp [ipEvent, hiface, hassociated, WifiAction.Bound]
        · simp [ipEvent, hiface, hassociated, WifiAction.Lost, WifiAction.Deleted]
      | ipv4AddrDel => simp [ipEvent, hiface, WifiAction.Bound, WifiAction.Deleted]
      | wifiConnectResult | wifiDisconnectResult =>
        simp [ipEvent, hiface, WifiAction.Bound, WifiAction.Lost, WifiAction.Deleted]
  · have hsame : t.manager = s.manager := by
      rw [hmanager]
      simp [ipEvent, hiface]
    refine .of_quiet (congrArg iface hsame) (congrArg associated hsame) (congrArg state hsame)
      ?_ ?_ ?_ ?_ <;> cases event <;>
      simp [hiface, WifiAction.Success, WifiAction.Lost, WifiAction.Bound, WifiAction.Deleted]

theorem writes_deliverWifi (info : Option WifiStatus) {event : NetEvent} (eventIface : NetIf)
    (hevent : event = .wifiConnectResult ∨ event = .wifiDisconnectResult) :
    Writes s (.wifiEvent info event eventIface) (s.deliverWifi info event eventIface) := by
  by_cases hiface : some eventIface = s.manager.iface
  · by_cases hsuccess : WifiAction.Success s.manager.iface (.wifiEvent info event eventIface)
    · obtain ⟨result, rfl, rfl, hstatus⟩ : ∃ result, info = some result ∧
          event = .wifiConnectResult ∧ result.status = 0 := by
        rcases hevent with rfl | rfl <;> cases info <;> simp_all [WifiAction.Success]
      rw [deliverWifi_success hiface hstatus]
      refine ⟨rfl, by simp [hsuccess], ?_⟩
      simp [WifiAction.Bound, WifiAction.Lost, WifiAction.Deleted, hstatus]
    · have hfailed : event = .wifiDisconnectResult ∨
          event = .wifiConnectResult ∧ ∀ result, info = some result → result.status ≠ 0 := by
        rcases hevent with rfl | rfl
        · refine Or.inr ⟨rfl, ?_⟩
          rintro result rfl hstatus
          exact hsuccess ⟨hiface, hstatus⟩
        · exact Or.inl rfl
      have hretry := deliverWifi_lost hiface hfailed
      have hlost : WifiAction.Lost s.manager.iface (.wifiEvent info event eventIface) := by
        rcases hfailed with rfl | ⟨rfl, hstatus⟩
        · exact hiface
        · exact ⟨hiface, hstatus⟩
      refine ⟨by rw [hretry]; rfl, ?_, ?_⟩
      · simp [hretry, retry_eq, hsuccess, hlost]
      · simp [hretry, retry_eq, hlost, WifiAction.Bound]
  · have hsame : s.deliverWifi info event eventIface = s := by
      simp [deliverWifi, wifiEvent, answer, call, hiface]
    rw [hsame]
    refine .of_quiet rfl rfl rfl ?_ ?_ ?_ ?_ <;> rcases hevent with rfl | rfl <;> cases info <;>
      simp [hiface, WifiAction.Success, WifiAction.Lost, WifiAction.Bound, WifiAction.Deleted]

theorem writes_handlerStep (h : s.handlerStep e = some t) : Writes s e t := by
  cases e with
  | test | write | request err | setDisconnected | clearAssociated | resetReady | reschedule =>
    simp only [handlerStep] at h
    split_ifs at h <;> obtain rfl := Option.some.inj h <;> constructor <;>
      simp [WifiAction.Success, WifiAction.Lost, WifiAction.Bound, WifiAction.Deleted,
        dequeueConnect, setConnecting, setDisconnected, clearAssociated, resetReady,
        rescheduleConnect]
  | _ => simp [handlerStep] at h

theorem step_writes (h : s.step e = some t) : Writes s e t := by
  cases e with
  | wifiEvent info event eventIface =>
    simp only [step] at h
    split_ifs at h with hevent
    obtain rfl := Option.some.inj h
    exact writes_deliverWifi info eventIface hevent
  | ipEvent event eventIface => exact writes_deliverIp h
  | obtainLease =>
    simp only [step] at h
    split_ifs at h with hfree
    obtain rfl := Option.some.inj h
    exact .of_quiet rfl rfl rfl id (by simp [WifiAction.Lost]) (by simp [WifiAction.Bound])
      (by simp [WifiAction.Lost, WifiAction.Deleted])
  | dropLease =>
    simp only [step] at h
    split_ifs at h with hlease
    obtain rfl := Option.some.inj h
    exact .of_quiet (by simp) (by simp) (by simp) id (by simp [WifiAction.Lost])
      (by simp [WifiAction.Bound]) (by simp [WifiAction.Lost, WifiAction.Deleted])
  | takeReady =>
    obtain ⟨ready, -, rfl⟩ := Option.map_eq_some_iff.mp h
    exact .of_quiet rfl rfl rfl id (by simp [WifiAction.Lost]) (by simp [WifiAction.Bound])
      (by simp [WifiAction.Lost, WifiAction.Deleted])
  | _ =>
    simp only [step] at h
    exact writes_handlerStep h

/-- The flags against the steps so far. -/
structure Follows (iface : Option NetIf) (past : List WifiAction) (s : WifiSystem) : Prop where
  iface_eq : s.manager.iface = iface
  associated_iff : s.manager.associated = true ↔ LinkAssociated iface past
  connected_iff : s.manager.state = .connected ↔ LinkUp iface past

theorem start_follows {w : WifiManager} (hstate : w.state ≠ .connected)
    (hassociated : w.associated = false) : Follows w.iface [] (start w) where
  iface_eq := rfl
  associated_iff := by simp [start, hassociated, LinkAssociated, not_since_nil]
  connected_iff := by simp [start, hstate, LinkUp, not_since_nil]

theorem Writes.follows {iface : Option NetIf} {past : List WifiAction} (h : Writes s e t)
    (hs : Follows iface past s) : Follows iface (past ++ [e]) t := by
  obtain ⟨rfl, hassociated, hconnected⟩ := hs
  refine ⟨h.iface_eq, ?_, ?_⟩
  · rw [h.associated_iff, LinkAssociated, since_concat, hassociated]
    rfl
  · rw [h.connected_iff, LinkUp, since_concat, hconnected, hassociated]
    rfl

/-- No address is bound between the two writes of `retry`. -/
def KeepsLink (s : WifiSystem) (e : WifiAction) : Prop :=
  s.gives e = true → s.handler ≠ .clearAssociated

structure Linked (s : WifiSystem) : Prop where
  associated : s.manager.state = .connected → s.manager.associated = true
  disconnected : s.handler = .clearAssociated → s.manager.state ≠ .connected

theorem gives_iff : s.gives e = true ↔
    e.Bound s.manager.iface ∧ s.manager.associated = true := by
  cases e with
  | ipEvent event eventIface => cases event <;> simp [gives, WifiAction.Bound]
  | _ => simp [gives, WifiAction.Bound]

theorem step_point (h : s.step e = some t) (hpoint : t.handler = .clearAssociated) :
    s.handler = .clearAssociated ∨ e = .setDisconnected := by
  cases e with
  | setDisconnected => exact Or.inr rfl
  | wifiEvent info event eventIface =>
    simp only [step] at h
    split_ifs at h with hevent
    obtain rfl := Option.some.inj h
    exact Or.inl (by simpa using hpoint)
  | ipEvent event eventIface => exact Or.inl ((deliverIp_frame h).1 ▸ hpoint)
  | dropLease =>
    simp only [step] at h
    split_ifs at h with hlease
    obtain rfl := Option.some.inj h
    exact Or.inl (by simpa using hpoint)
  | takeReady =>
    obtain ⟨ready, -, rfl⟩ := Option.map_eq_some_iff.mp h
    exact Or.inl hpoint
  | _ =>
    simp only [step, handlerStep] at h
    split_ifs at h <;> obtain rfl := Option.some.inj h <;> simp_all

theorem clearAssociated_point (h : s.step .clearAssociated = some t) :
    s.handler = .clearAssociated := by
  simp only [step, handlerStep] at h
  split_ifs at h with hpoint
  exact hpoint

theorem linked_step (hs : s.Linked) (hguard : KeepsLink s e) (h : s.step e = some t) :
    t.Linked := by
  have hwrites := step_writes h
  constructor
  · intro hconnected
    rw [hwrites.associated_iff]
    right
    rcases hwrites.connected_iff.mp hconnected with ⟨hbound, hassociated⟩ | ⟨hkept, hnot⟩
    · refine ⟨hassociated, ?_⟩
      cases e <;> simp_all [WifiAction.Bound, WifiAction.Lost]
    · refine ⟨hs.associated hkept, ?_⟩
      rintro (hlost | rfl)
      · exact hnot (Or.inl hlost)
      · exact hs.disconnected (clearAssociated_point h) hkept
  · intro hpoint hconnected
    rcases step_point h hpoint with hback | rfl
    · rcases hwrites.connected_iff.mp hconnected with hbound | ⟨hkept, -⟩
      · exact hguard (gives_iff.mpr hbound) hback
      · exact hs.disconnected hback hkept
    · rcases hwrites.connected_iff.mp hconnected with ⟨hbound, -⟩ | ⟨-, hnot⟩
      · exact hbound
      · exact hnot (by simp)

/-- What the flags say in every interleaving. The association flag and the state
tell which of the writes of the two threads came last. A connected manager is
associated if no address is ever bound between the two writes of `retry`; after
one that is, `connect_handler` leaves a manager connected and not associated. -/
theorem flags_tell_last_write (ssid password : Option CString) (sta : Option NetIf)
    (w : WifiManager) (hinit : boot.init ssid password sta = some (0, w)) :
    (∀ actions s, machine.Run (start w) actions s →
      (s.manager.associated = true ↔ LinkAssociated sta actions) ∧
      (s.manager.state = .connected ↔ LinkUp sta actions)) ∧
    (∀ actions s, (machine.restrict KeepsLink).Run (start w) actions s →
      LinkUp sta actions → LinkAssociated sta actions) ∧
    ∀ actions s e t, machine.Run (start w) actions s → machine.Step s e t → ¬ KeepsLink s e →
      ∃ u, machine.Step t .clearAssociated u ∧ LinkUp sta (actions ++ [e, .clearAssociated]) ∧
        ¬ LinkAssociated sta (actions ++ [e, .clearAssociated]) := by
  obtain ⟨iface, rfl, hstarted⟩ := init_started hinit
  have hstart := start_follows (w := w) (by simp [hstarted.disconnected]) hstarted.not_associated
  rw [hstarted.iface_eq] at hstart
  have hfollows {actions : List WifiAction} {s : WifiSystem}
      (hrun : machine.Run (start w) actions s) : Follows (some iface) actions s :=
    hrun.history_invariant hstart fun _ _ _ _ hs hstep => (step_writes hstep).follows hs
  refine ⟨fun actions s hrun => ?_, fun actions s hrun hup => ?_,
    fun actions s e t hrun hstep hguard => ?_⟩
  · exact ⟨(hfollows hrun).associated_iff, (hfollows hrun).connected_iff⟩
  · have hs := hfollows hrun.of_restrict
    have hlinked : s.Linked := hrun.invariant
      ⟨by simp [start, hstarted.disconnected], by simp [start]⟩
      fun s e t hs hstep => linked_step hs hstep.1 hstep.2
    exact hs.associated_iff.mp (hlinked.associated (hs.connected_iff.mpr hup))
  · simp only [KeepsLink, Classical.not_imp, not_not] at hguard
    obtain ⟨hgives, hpoint⟩ := hguard
    have hwrites := step_writes hstep
    have hpoint' : t.handler = .clearAssociated := (gives_handler hstep hgives).trans hpoint
    have hclear : machine.Step t .clearAssociated
        { t with manager := t.manager.clearAssociated, handler := .resetReady } := by
      simp [machine, step, handlerStep, hpoint']
    have hu := hfollows ((hrun.snoc hstep).snoc hclear)
    rw [List.append_assoc] at hu
    refine ⟨_, hclear, hu.connected_iff.mp ?_, ?_⟩
    · exact hwrites.connected_iff.mpr (Or.inl (gives_iff.mp hgives))
    · exact hu.associated_iff.not.mp (by simp [clearAssociated])

/-- The address of the second association comes between the two writes. -/
def lateBound : List WifiAction :=
  [.test, .write, .request 0, .wifiEvent (some ⟨1⟩) .wifiConnectResult ⟨1⟩, .test, .write,
    .wifiEvent (some ⟨0⟩) .wifiConnectResult ⟨1⟩, .obtainLease, .request (-5), .setDisconnected]

theorem late_bound_unlinks :
    LinkUp (some ⟨1⟩) (lateBound ++ [.ipEvent .ipv4DhcpBound ⟨1⟩, .clearAssociated]) ∧
      ¬ LinkAssociated (some ⟨1⟩)
        (lateBound ++ [.ipEvent .ipv4DhcpBound ⟨1⟩, .clearAssociated]) := by
  have hrun : machine.Run (start openStarted) lateBound ReadySystem.retreating.system :=
    Machine.run_ofFn_iff.mpr rfl
  obtain ⟨u, -, hup, hnot⟩ := (flags_tell_last_write _ _ _ _ boot_init_open).2.2 _ _
    (.ipEvent .ipv4DhcpBound ⟨1⟩) _ hrun rfl fun hguard => hguard rfl rfl
  exact ⟨hup, hnot⟩

end WifiSystem

namespace ReadySystem

def system? : ReadyAction → Option WifiAction
  | .system a => some a
  | _ => none

theorem run_follows {w : WifiManager} (hstate : w.state ≠ .connected)
    (hassociated : w.associated = false) {es : List ReadyAction} {s : ReadySystem}
    (h : machine.Run (start w) es s) :
    WifiSystem.Follows w.iface (es.filterMap system?) s.system := by
  refine h.history_invariant (I := fun es (s : ReadySystem) => WifiSystem.Follows w.iface
    (es.filterMap system?) s.system) (WifiSystem.start_follows hstate hassociated) ?_
  intro es s e t hs hstep
  rw [List.filterMap_append]
  cases step_moves hstep with
  | passed htake hu awake => exact (WifiSystem.step_writes hu).follows hs
  | reset htake hu asleep hresets => exact (WifiSystem.step_writes hu).follows hs
  | slept htake hu asleep hresets hgives => exact (WifiSystem.step_writes hu).follows hs
  | given htake hu asleep hresets hgives =>
    obtain ⟨hiface, hassociated, hconnected⟩ := (WifiSystem.step_writes hu).follows hs
    exact ⟨hiface, hassociated, hconnected⟩
  | ready | unready | blocks | timedOut | checked | left | taken =>
    rw [List.filterMap_cons_none rfl, List.filterMap_nil, List.append_nil]
    exact ⟨hs.iface_eq, hs.associated_iff, hs.connected_iff⟩

end ReadySystem

end WifiManager

end SensorPanel
