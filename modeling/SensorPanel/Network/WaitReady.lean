import SensorPanel.Network.WifiRecovery

/-!
# Waiting for Wi-Fi

`wifi_manager_wait_ready` looks at the state, waits for the ready semaphore and
looks again, while the work queue goes on between any two of its steps. A callback
runs to its end as one step. A waiter that blocks is woken by `k_sem_give`, which
then leaves no token, and by `k_sem_reset`, which makes its `k_sem_take` fail.
Whether it can sleep beside a connected manager depends on where in
`connect_handler` an address is bound.
-/

namespace SensorPanel

open Library

namespace WifiManager

namespace WifiSystem

def gives (s : WifiSystem) : WifiAction → Bool
  | .ipEvent .ipv4DhcpBound eventIface =>
    some eventIface = s.manager.iface && s.manager.associated
  | _ => false

def resets (s : WifiSystem) : WifiAction → Bool
  | .wifiEvent info event eventIface =>
    some eventIface = s.manager.iface && (event = .wifiDisconnectResult ||
      event = .wifiConnectResult && ¬ info.any fun result => result.status = 0)
  | .ipEvent .ipv4AddrDel eventIface => some eventIface = s.manager.iface
  | .resetReady => true
  | _ => false

/-- `retry` has written the state, and its `k_sem_reset` is still to come. -/
def Retreating (s : WifiSystem) : Prop := s.handler = .clearAssociated ∨ s.handler = .resetReady

/-- What a step means to a waiter. -/
structure Effect (s : WifiSystem) (e : WifiAction) (t : WifiSystem) : Prop where
  ready_eq : t.manager.ready = if s.resets e then Semaphore.empty
    else if s.gives e then s.manager.ready.give else s.manager.ready
  given : s.gives e = true → t.manager.state = .connected ∧ s.resets e = false
  kept : t.manager.state = .connected → s.gives e = true ∨
    s.manager.state = .connected ∧ (s.resets e = true → s.Retreating)
  retreating : t.Retreating → s.Retreating ∨ t.manager.state ≠ .connected

variable {s t : WifiSystem} {e : WifiAction}

theorem Effect.of_quiet (hready : t.manager.ready = s.manager.ready)
    (hstate : t.manager.state = .connected → s.manager.state = .connected)
    (hpoint : t.Retreating → s.Retreating ∨ t.manager.state ≠ .connected)
    (hgives : s.gives e = false) (hresets : s.resets e = false) : Effect s e t where
  ready_eq := by simp [hready, hgives, hresets]
  given h := by simp [hgives] at h
  kept h := Or.inr ⟨hstate h, by simp [hresets]⟩
  retreating := hpoint

theorem Effect.of_reset (hready : t.manager.ready = Semaphore.empty)
    (hstate : t.manager.state ≠ .connected) (hgives : s.gives e = false)
    (hresets : s.resets e = true) : Effect s e t where
  ready_eq := by simp [hready, hresets]
  given h := by simp [hgives] at h
  kept h := absurd h hstate
  retreating _ := Or.inr hstate

theorem effect_deliverIp {event : NetEvent} {eventIface : NetIf}
    (h : s.deliverIp event eventIface = some t) : Effect s (.ipEvent event eventIface) t := by
  by_cases hiface : some eventIface = s.manager.iface
  · simp only [deliverIp, hiface, ne_eq, not_true_eq_false, if_false] at h
    cases event with
    | ipv4DhcpBound =>
      dsimp only at h
      split_ifs at h with hbounds
      obtain rfl := Option.some.inj h
      by_cases hassociated : s.manager.associated = true
      · have hgives : s.gives (.ipEvent .ipv4DhcpBound eventIface) = true := by
          simp [gives, hiface, hassociated]
        refine ⟨?_, fun _ => ⟨?_, rfl⟩, fun _ => Or.inl hgives, Or.inl⟩
        · rw [if_neg (by simp [resets]), if_pos hgives]
          simp [ipEvent, hiface, hassociated]
        · simp [ipEvent, hiface, hassociated]
      · have hsame : s.manager.ipEvent .ipv4DhcpBound eventIface = s.manager := by
          simp [ipEvent, hiface, hassociated]
        exact .of_quiet (congrArg ready hsame) (by simp [hsame]) Or.inl
          (by simp [gives, hassociated]) rfl
    | ipv4AddrDel =>
      dsimp only at h
      split_ifs at h with hdels
      obtain rfl := Option.some.inj h
      exact .of_reset (by simp [ipEvent, hiface, Semaphore.reset]) (by simp [ipEvent, hiface]) rfl
        (by simp [resets, hiface])
    | wifiConnectResult | wifiDisconnectResult => simp at h
  · simp only [deliverIp, ne_eq, hiface, not_false_eq_true, if_true] at h
    obtain rfl := Option.some.inj h
    have hsame : s.manager.ipEvent event eventIface = s.manager := by
      simp [ipEvent, hiface]
    exact .of_quiet (congrArg ready hsame) (by simp [hsame]) Or.inl
      (by cases event <;> simp [gives, hiface]) (by cases event <;> simp [resets, hiface])

theorem deliverWifi_lost {info : Option WifiStatus} {event : NetEvent} {eventIface : NetIf}
    (hiface : some eventIface = s.manager.iface)
    (hlost : event = .wifiDisconnectResult ∨
      event = .wifiConnectResult ∧ ∀ result, info = some result → result.status ≠ 0) :
    (s.deliverWifi info event eventIface).manager = s.manager.retry := by
  rcases hlost with rfl | ⟨rfl, hstatus⟩
  · simp [deliverWifi, wifiEvent, hiface]
  · cases info with
    | none => simp [deliverWifi, wifiEvent, hiface]
    | some result => simp [deliverWifi, wifiEvent, hiface, hstatus result rfl]

theorem effect_deliverWifi (info : Option WifiStatus) {event : NetEvent} (eventIface : NetIf)
    (hevent : event = .wifiConnectResult ∨ event = .wifiDisconnectResult) :
    Effect s (.wifiEvent info event eventIface) (s.deliverWifi info event eventIface) := by
  by_cases hiface : some eventIface = s.manager.iface
  · by_cases hlost : s.resets (.wifiEvent info event eventIface) = true
    · have hretry : (s.deliverWifi info event eventIface).manager = s.manager.retry := by
        apply deliverWifi_lost hiface
        rcases hevent with rfl | rfl
        · refine Or.inr ⟨rfl, ?_⟩
          rintro result rfl
          simpa [resets, hiface] using hlost
        · exact Or.inl rfl
      exact .of_reset (by rw [hretry]; rfl) (by simp [hretry, retry_eq]) rfl hlost
    · obtain ⟨result, rfl, rfl, hstatus⟩ : ∃ result, info = some result ∧
          event = .wifiConnectResult ∧ result.status = 0 := by
        rcases hevent with rfl | rfl
        · cases info <;> simp_all [resets]
        · simp [resets, hiface] at hlost
      rw [deliverWifi_success hiface hstatus]
      exact .of_quiet rfl id Or.inl rfl (by simpa using hlost)
  · have hsame : s.deliverWifi info event eventIface = s := by
      simp [deliverWifi, wifiEvent, answer, call, hiface]
    rw [hsame]
    exact .of_quiet rfl id Or.inl rfl (by simp [resets, hiface])

theorem effect_handlerStep (h : s.handlerStep e = some t) : Effect s e t := by
  cases e with
  | resetReady =>
    simp only [handlerStep] at h
    split_ifs at h with hpoint
    obtain rfl := Option.some.inj h
    exact ⟨rfl, by simp [gives], fun hstate => Or.inr ⟨hstate, fun _ => Or.inr hpoint⟩,
      by simp [Retreating]⟩
  | clearAssociated =>
    simp only [handlerStep] at h
    split_ifs at h with hpoint
    obtain rfl := Option.some.inj h
    exact .of_quiet rfl id (fun _ => Or.inl (Or.inl hpoint)) rfl rfl
  | test | write | request err | setDisconnected | reschedule =>
    simp only [handlerStep] at h
    split_ifs at h <;> obtain rfl := Option.some.inj h <;>
      exact .of_quiet rfl (by simp [setConnecting, setDisconnected, dequeueConnect,
        rescheduleConnect]) (by simp [Retreating, setDisconnected]) rfl rfl
  | _ => simp [handlerStep] at h

theorem step_effect (htake : e ≠ .takeReady) (h : s.step e = some t) : Effect s e t := by
  cases e with
  | wifiEvent info event eventIface =>
    simp only [step] at h
    split_ifs at h with hevent
    obtain rfl := Option.some.inj h
    exact effect_deliverWifi info eventIface hevent
  | ipEvent event eventIface => exact effect_deliverIp h
  | obtainLease =>
    simp only [step] at h
    split_ifs at h with hfree
    obtain rfl := Option.some.inj h
    exact .of_quiet rfl id Or.inl rfl rfl
  | dropLease =>
    simp only [step] at h
    split_ifs at h with hlease
    obtain rfl := Option.some.inj h
    exact .of_quiet (by simp) (by simp) (fun h => Or.inl (by simpa [Retreating] using h)) rfl rfl
  | takeReady => exact absurd rfl htake
  | _ =>
    simp only [step] at h
    exact effect_handlerStep h

theorem gives_handler (h : s.step e = some t) (hgives : s.gives e = true) :
    t.handler = s.handler := by
  cases e with
  | ipEvent event eventIface => exact (deliverIp_frame h).1
  | _ => simp [gives] at hgives

end WifiSystem

/-- Where the worker stands in `wifi_manager_wait_ready`. -/
inductive WaitPoint
  | idle
  | take
  | blocked
  | woken (err : ℤ)
  | returns (result : ℤ)
  deriving DecidableEq, Repr

structure ReadySystem where
  system : WifiSystem
  waiter : WaitPoint

/-- A step of the Wi-Fi system or of the waiter; `leave` shows the result. -/
inductive ReadyAction
  | system (e : WifiAction)
  | test
  | take
  | timeout
  | check
  | leave (result : ℤ)
  deriving DecidableEq

def ReadyAction.own : ReadyAction → Bool
  | .test | .take | .timeout | .check => true
  | _ => false

namespace ReadySystem

/-- A step of the others, who find the waiter blocked or not. -/
def act (s : ReadySystem) (e : WifiAction) : Option ReadySystem :=
  (s.system.step e).map fun t =>
    if s.waiter = .blocked then
      if s.system.resets e then ⟨t, .woken (-EAGAIN)⟩
      else if s.system.gives e then ⟨{ t with manager.ready := s.system.manager.ready }, .woken 0⟩
      else ⟨t, .blocked⟩
    else ⟨t, s.waiter⟩

/-- `k_sem_take`: it finds the token, or blocks. -/
def takeReady (s : ReadySystem) : ReadySystem :=
  match s.system.manager.ready.take with
  | some ready => ⟨{ s.system with manager.ready := ready }, .woken 0⟩
  | none => { s with waiter := .blocked }

def step (s : ReadySystem) : ReadyAction → Option ReadySystem
  | .system .takeReady => none
  | .system e => s.act e
  | .test =>
    if s.waiter = .idle then
      some { s with waiter := if s.system.manager.isConnected then .returns 0 else .take }
    else none
  | .take => if s.waiter = .take then some s.takeReady else none
  | .timeout => if s.waiter = .blocked then some { s with waiter := .woken (-EAGAIN) } else none
  | .check =>
    match s.waiter with
    | .woken err => some { s with waiter := .returns (s.system.manager.waitReadyWoken err) }
    | _ => none
  | .leave result => if s.waiter = .returns result then some { s with waiter := .idle } else none

def machine : Machine ReadySystem ReadyAction := Machine.ofFn step

def start (w : WifiManager) : ReadySystem := ⟨WifiSystem.start w, .idle⟩

def Connected (s : ReadySystem) : Prop := s.system.manager.state = .connected

/-- No address is bound while `retry` has its `k_sem_reset` still to come. -/
def KeepsToken (s : ReadySystem) (e : ReadyAction) : Prop :=
  ∀ a, e = .system a → s.system.gives a = true → ¬ s.system.Retreating

/-- The worker alone, without waiting for a timeout, is told that Wi-Fi is ready. -/
def Returns (s : ReadySystem) : Prop :=
  ∃ es t, machine.Run s (es ++ [.leave 0]) t ∧ .timeout ∉ es ∧ ∀ a, .system a ∉ es

/-- The waiter can come to sleep beside a connected manager. -/
def Sleeps (s : ReadySystem) : Prop :=
  ∃ es t, machine.Run s es t ∧ t.waiter = .blocked ∧ t.Connected

/-- A connected manager never has its waiter asleep, nor one that is about to
sleep without a token to find. -/
structure Attended (s : ReadySystem) : Prop where
  retreating : s.system.Retreating → ¬ s.Connected
  token : s.Connected → s.waiter = .take → s.system.manager.ready.count = 1
  awake : s.Connected → s.waiter ≠ .blocked

variable {s t : ReadySystem} {e : ReadyAction} {es : List ReadyAction}

/-- What a step does. The others leave the waiter alone, or wake it if it is blocked. -/
inductive Moves (s : ReadySystem) : ReadyAction → ReadySystem → Prop
  | passed {a : WifiAction} {u : WifiSystem} (htake : a ≠ .takeReady)
      (hu : s.system.step a = some u) (awake : s.waiter ≠ .blocked) :
      Moves s (.system a) ⟨u, s.waiter⟩
  | reset {a : WifiAction} {u : WifiSystem} (htake : a ≠ .takeReady)
      (hu : s.system.step a = some u) (asleep : s.waiter = .blocked)
      (hresets : s.system.resets a = true) : Moves s (.system a) ⟨u, .woken (-EAGAIN)⟩
  | given {a : WifiAction} {u : WifiSystem} (htake : a ≠ .takeReady)
      (hu : s.system.step a = some u) (asleep : s.waiter = .blocked)
      (hresets : s.system.resets a = false) (hgives : s.system.gives a = true) :
      Moves s (.system a) ⟨{ u with manager.ready := s.system.manager.ready }, .woken 0⟩
  | slept {a : WifiAction} {u : WifiSystem} (htake : a ≠ .takeReady)
      (hu : s.system.step a = some u) (asleep : s.waiter = .blocked)
      (hresets : s.system.resets a = false) (hgives : s.system.gives a = false) :
      Moves s (.system a) ⟨u, .blocked⟩
  | ready (place : s.waiter = .idle) (connected : s.Connected) :
      Moves s .test { s with waiter := .returns 0 }
  | unready (place : s.waiter = .idle) (offline : ¬ s.Connected) :
      Moves s .test { s with waiter := .take }
  | taken {token : Semaphore 1} (place : s.waiter = .take)
      (found : s.system.manager.ready.take = some token) :
      Moves s .take ⟨{ s.system with manager.ready := token }, .woken 0⟩
  | blocks (place : s.waiter = .take) (empty : s.system.manager.ready.count = 0) :
      Moves s .take { s with waiter := .blocked }
  | timedOut (place : s.waiter = .blocked) :
      Moves s .timeout { s with waiter := .woken (-EAGAIN) }
  | checked {err : ℤ} (place : s.waiter = .woken err) :
      Moves s .check { s with waiter := .returns (s.system.manager.waitReadyWoken err) }
  | left {result : ℤ} (place : s.waiter = .returns result) :
      Moves s (.leave result) { s with waiter := .idle }

theorem act_moves {a : WifiAction} (htake : a ≠ .takeReady) (h : s.act a = some t) :
    Moves s (.system a) t := by
  obtain ⟨u, hu, ht⟩ := Option.map_eq_some_iff.mp h
  split_ifs at ht with hblocked hresets hgives
  · obtain rfl := ht
    exact .reset htake hu hblocked hresets
  · obtain rfl := ht
    exact .given htake hu hblocked (by simpa using hresets) hgives
  · obtain rfl := ht
    exact .slept htake hu hblocked (by simpa using hresets) (by simpa using hgives)
  · obtain rfl := ht
    exact .passed htake hu hblocked

theorem step_moves (h : step s e = some t) : Moves s e t := by
  cases e with
  | system a =>
    cases a with
    | takeReady => simp [step] at h
    | _ => exact act_moves (by simp) h
  | test =>
    simp only [step] at h
    split_ifs at h with hplace hconnected
    · obtain rfl := Option.some.inj h
      exact .ready hplace (isConnected_iff.mp hconnected)
    · obtain rfl := Option.some.inj h
      exact .unready hplace (isConnected_iff.not.mp hconnected)
  | take =>
    simp only [step] at h
    split_ifs at h with hplace
    obtain rfl := Option.some.inj h
    unfold takeReady
    split
    · next token hfound => exact .taken hplace hfound
    · next hempty => exact .blocks hplace (by simpa [Semaphore.take] using hempty)
  | timeout =>
    simp only [step] at h
    split_ifs at h with hplace
    obtain rfl := Option.some.inj h
    exact .timedOut hplace
  | check =>
    simp only [step] at h
    split at h
    · next err hplace =>
      obtain rfl := Option.some.inj h
      exact .checked hplace
    · simp at h
  | leave result =>
    simp only [step] at h
    split_ifs at h with hplace
    obtain rfl := Option.some.inj h
    exact .left hplace

theorem start_attended (w : WifiManager) : (start w).Attended where
  retreating := by simp [start, WifiSystem.start, WifiSystem.Retreating]
  token := by simp [start]
  awake := by simp [start]

theorem retreating_step {a : WifiAction} {u : WifiSystem} (hs : s.Attended) (htake : a ≠ .takeReady)
    (hguard : s.system.gives a = true → ¬ s.system.Retreating) (hu : s.system.step a = some u)
    (hretreat : u.Retreating) : u.manager.state ≠ .connected := by
  intro hconnected
  have heffect := WifiSystem.step_effect htake hu
  rcases heffect.retreating hretreat with hback | hback
  · rcases heffect.kept hconnected with hgives | ⟨hkept, -⟩
    · exact hguard hgives hback
    · exact hs.retreating hback hkept
  · exact hback hconnected

/-- A connected manager has its token, unless the waiter took it before. -/
theorem token_step {a : WifiAction} {u : WifiSystem} (hs : s.Attended) (htake : a ≠ .takeReady)
    (hu : s.system.step a = some u) (hconnected : u.manager.state = .connected)
    (htoken : s.Connected → s.system.manager.ready.count = 1) : u.manager.ready.count = 1 := by
  have heffect := WifiSystem.step_effect htake hu
  rw [heffect.ready_eq]
  rcases heffect.kept hconnected with hgives | ⟨hkept, hresets⟩
  · rw [if_neg (by simp [(heffect.given hgives).2]), if_pos hgives, Semaphore.give_count_one]
  · rw [if_neg fun h => hs.retreating (hresets h) hkept]
    split_ifs
    · exact Semaphore.give_count_one _
    · exact htoken hkept

theorem attended_step (hs : s.Attended) (hguard : KeepsToken s e) (h : step s e = some t) :
    t.Attended := by
  have hretreating {a : WifiAction} {u : WifiSystem} (he : e = .system a) (htake : a ≠ .takeReady)
      (hu : s.system.step a = some u) : u.Retreating → u.manager.state ≠ .connected :=
    retreating_step hs htake (hguard a he) hu
  cases step_moves h with
  | passed htake hu awake =>
    exact ⟨hretreating rfl htake hu, fun hconnected hplace =>
      token_step hs htake hu hconnected fun h => hs.token h hplace, fun _ => awake⟩
  | reset htake hu asleep hresets => exact ⟨hretreating rfl htake hu, by simp, by simp⟩
  | @given a u htake hu asleep hresets hgives =>
    have hu' : u.Retreating → u.manager.state ≠ .connected := hretreating rfl htake hu
    exact ⟨hu', by simp, by simp⟩
  | slept htake hu asleep hresets hgives =>
    refine ⟨hretreating rfl htake hu, by simp, fun hconnected => ?_⟩
    rcases (WifiSystem.step_effect htake hu).kept hconnected with h | ⟨hkept, -⟩
    · simp [hgives] at h
    · exact absurd asleep (hs.awake hkept)
  | unready place offline => exact ⟨hs.retreating, fun h => absurd h offline, by simp⟩
  | blocks place empty =>
    refine ⟨hs.retreating, by simp, fun hconnected => ?_⟩
    rw [hs.token hconnected place] at empty
    simp at empty
  | ready | taken | timedOut | checked | left => exact ⟨hs.retreating, by simp, by simp⟩

theorem Returns.of_step (ht : t.Returns) (h : step s e = some t) (htimeout : e ≠ .timeout)
    (hown : ∀ a, e ≠ .system a) : s.Returns := by
  obtain ⟨es, u, hrun, hes, hown'⟩ := ht
  refine ⟨e :: es, u, (Machine.Run.single h).trans hrun, ?_, fun a => ?_⟩
  · simp [htimeout.symm, hes]
  · simp [(hown a).symm, hown' a]

theorem returns_of_idle (hconnected : s.Connected) (hplace : s.waiter = .idle) : s.Returns := by
  refine ⟨[.test], { s with waiter := .idle }, Machine.run_ofFn_iff.mpr ?_, by simp, by simp⟩
  simp [step, hplace, isConnected_iff.mpr hconnected]

theorem returns_of_returns (hconnected : s.Connected) {result : ℤ}
    (hplace : s.waiter = .returns result) : s.Returns := by
  by_cases hresult : result = 0
  · subst hresult
    exact ⟨[], { s with waiter := .idle }, Machine.Run.single (if_pos hplace), by simp, by simp⟩
  · exact Returns.of_step (returns_of_idle (s := { s with waiter := .idle }) hconnected rfl)
      (e := .leave result) (if_pos hplace) (by simp) (by simp)

theorem returns_of_woken (hconnected : s.Connected) {err : ℤ} (hplace : s.waiter = .woken err) :
    s.Returns := by
  refine Returns.of_step (returns_of_returns (s := { s with
    waiter := .returns (s.system.manager.waitReadyWoken err) }) hconnected rfl)
    (e := .check) ?_ (by simp) (by simp)
  simp [step, hplace]

/-- The worker alone finds a connected manager, at whatever point of the call it is. -/
theorem returns_of_connected (hs : s.Attended) (hconnected : s.Connected) : s.Returns := by
  cases hplace : s.waiter with
  | idle => exact returns_of_idle hconnected hplace
  | take =>
    have htoken := hs.token hconnected hplace
    obtain ⟨ready, htake⟩ := Option.isSome_iff_exists.mp
      (Semaphore.take_isSome_iff.mpr (htoken ▸ Nat.one_pos))
    refine Returns.of_step (returns_of_woken (s := ⟨{ s.system with
      manager.ready := ready }, .woken 0⟩) hconnected rfl) (e := .take) ?_ (by simp) (by simp)
    simp [step, hplace, takeReady, htake]
  | blocked => exact absurd hplace (hs.awake hconnected)
  | woken err => exact returns_of_woken hconnected hplace
  | returns result => exact returns_of_returns hconnected hplace

theorem sleeps_of_reset (hplace : s.waiter = .take) (hpoint : s.system.handler = .resetReady)
    (hconnected : s.Connected) : s.Sleeps := by
  have hreset : step s (.system .resetReady) = some ⟨{ s.system with
      manager := s.system.manager.resetReady, handler := .reschedule }, .take⟩ := by
    simp [step, act, WifiSystem.step, WifiSystem.handlerStep, hpoint, hplace]
  refine ⟨[.system .resetReady, .take], ⟨{ s.system with
    manager := s.system.manager.resetReady, handler := .reschedule }, .blocked⟩,
    Machine.Run.snoc (Machine.Run.single hreset) ?_, rfl, hconnected⟩
  simp [machine, step, takeReady, resetReady, Semaphore.take]

theorem sleeps_of_clear (hplace : s.waiter = .take) (hpoint : s.system.handler = .clearAssociated)
    (hconnected : s.Connected) : s.Sleeps := by
  have hclear : step s (.system .clearAssociated) = some ⟨{ s.system with
      manager := s.system.manager.clearAssociated, handler := .resetReady }, .take⟩ := by
    simp [step, act, WifiSystem.step, WifiSystem.handlerStep, hpoint, hplace]
  obtain ⟨es, t, hrun, ht⟩ := sleeps_of_reset (s := ⟨{ s.system with
      manager := s.system.manager.clearAssociated, handler := .resetReady }, .take⟩) rfl rfl
    hconnected
  exact ⟨_, t, (Machine.Run.single hclear).trans hrun, ht⟩

/-- A token given while `retry` still has its reset to come is lost to a waiter
that is about to take it. -/
theorem sleeps_of_not_keepsToken (hplace : s.waiter = .take) (hguard : ¬ KeepsToken s e)
    (h : step s e = some t) : t.Sleeps := by
  obtain ⟨a, rfl, hgives, hretreating⟩ : ∃ a, e = .system a ∧ s.system.gives a = true ∧
      s.system.Retreating := by simpa [KeepsToken] using hguard
  cases step_moves h with
  | @passed _ u htake hu awake =>
    have hconnected := ((WifiSystem.step_effect htake hu).given hgives).1
    have hpoint := WifiSystem.gives_handler hu hgives
    rcases hretreating with hhandler | hhandler
    · exact sleeps_of_clear hplace (hpoint.trans hhandler) hconnected
    · exact sleeps_of_reset hplace (hpoint.trans hhandler) hconnected
  | reset _ _ asleep | given _ _ asleep | slept _ _ asleep => simp [hplace] at asleep

/-- The results of `wifi_manager_wait_ready`, and what each of them tells. -/
structure Answers (w : WifiManager) (past : List ReadyAction) (result : ℤ) : Prop where
  result_mem : result = 0 ∨ result = -EAGAIN ∨ result = -ENETDOWN
  ready : result = 0 → ∃ before e later s, past = before ++ e :: later ∧ (e = .test ∨ e = .check) ∧
    (∀ x ∈ later, ∃ a, x = .system a) ∧ machine.Run (start w) before s ∧ s.Connected

theorem Answers.system {w : WifiManager} {past : List ReadyAction} {result : ℤ}
    (h : Answers w past result) (a : WifiAction) : Answers w (past ++ [.system a]) result where
  result_mem := h.result_mem
  ready hresult := by
    obtain ⟨before, e, later, s, rfl, he, hlater, hs⟩ := h.ready hresult
    refine ⟨before, e, later ++ [.system a], s, by simp, he, fun x hx => ?_, hs⟩
    rcases List.mem_append.mp hx with hx | hx
    · exact hlater x hx
    · exact ⟨a, List.mem_singleton.mp hx⟩

theorem answers_of_last {w : WifiManager} {result : ℤ} (h : machine.Run (start w) es s)
    (he : e = .test ∨ e = .check)
    (hresult : result = 0 ∧ s.Connected ∨ result ≠ 0 ∧ (result = -EAGAIN ∨ result = -ENETDOWN)) :
    Answers w (es ++ [e]) result where
  result_mem := by tauto
  ready hzero := ⟨es, e, [], s, rfl, he, by simp, h, by tauto⟩

structure Holds (w : WifiManager) (es : List ReadyAction) (s : ReadySystem) : Prop where
  woken : ∀ err, s.waiter = .woken err → err = 0 ∨ err = -EAGAIN
  returns : ∀ result, s.waiter = .returns result → Answers w es result

theorem run_holds {w : WifiManager} (h : machine.Run (start w) es s) : Holds w es s := by
  induction h with
  | nil => exact ⟨by simp [start], by simp [start]⟩
  | @snoc s t es e hrun hstep ih =>
    cases step_moves hstep with
    | @passed a u htake hu awake =>
      exact ⟨ih.woken, fun result hresult => (ih.returns result hresult).system a⟩
    | ready place connected =>
      refine ⟨by simp, fun result hresult => ?_⟩
      obtain rfl := WaitPoint.returns.inj hresult
      exact answers_of_last hrun (Or.inl rfl) (Or.inl ⟨rfl, connected⟩)
    | @checked err place =>
      refine ⟨by simp, fun result hresult => ?_⟩
      obtain rfl := WaitPoint.returns.inj hresult
      apply answers_of_last hrun (Or.inr rfl)
      rcases ih.woken err place with rfl | rfl
      · by_cases hconnected : s.system.manager.isConnected = true
        · exact Or.inl ⟨by simp [waitReadyWoken, hconnected], isConnected_iff.mp hconnected⟩
        · exact Or.inr (by simp [waitReadyWoken, hconnected, ENETDOWN])
      · exact Or.inr (by simp [waitReadyWoken, EAGAIN])
    | reset | given | slept | unready | taken | blocks | timedOut | left =>
      exact ⟨by simp, by simp⟩

/-- A waiter blocks without a token. -/
theorem run_blocked {w : WifiManager} (h : machine.Run (start w) es s)
    (hblocked : s.waiter = .blocked) : s.system.manager.ready.count = 0 := by
  induction h with
  | nil => simp [start] at hblocked
  | @snoc s t es e hrun hstep ih =>
    cases step_moves hstep with
    | passed htake hu awake => exact absurd hblocked awake
    | slept htake hu asleep hresets hgives =>
      rw [(WifiSystem.step_effect htake hu).ready_eq]
      simpa [hresets, hgives] using ih asleep
    | blocks place empty => exact empty
    | reset | given | ready | unready | taken | timedOut | checked | left => simp at hblocked

theorem takeReady_step {u : WifiSystem} {token : Semaphore 1}
    (h : u.manager.ready.take = some token) : WifiSystem.machine.Step u .takeReady
      { u with manager := { u.manager with ready := token } } := by
  simp [WifiSystem.machine, WifiSystem.step, h]

/-- Under the waiter the Wi-Fi system goes through a run of its own, in which a
token given to a blocked waiter is taken at once. -/
theorem run_projects {w : WifiManager} (h : machine.Run (start w) es s) :
    ∃ ds, WifiSystem.machine.Run (WifiSystem.start w) ds s.system := by
  induction h with
  | nil => exact ⟨[], Machine.Run.nil _⟩
  | @snoc s t es e hrun hstep ih =>
    obtain ⟨ds, hds⟩ := ih
    cases step_moves hstep with
    | passed htake hu awake => exact ⟨_, hds.snoc hu⟩
    | reset htake hu asleep hresets => exact ⟨_, hds.snoc hu⟩
    | slept htake hu asleep hresets hgives => exact ⟨_, hds.snoc hu⟩
    | @given a u htake hu asleep hresets hgives =>
      have hready : u.manager.ready = s.system.manager.ready.give := by
        rw [(WifiSystem.step_effect htake hu).ready_eq, hresets, hgives]
        rfl
      have htoken : u.manager.ready.take = some s.system.manager.ready := by
        rw [hready, Semaphore.take_give (run_blocked hrun asleep)]
      exact ⟨_, (hds.snoc hu).snoc (takeReady_step htoken)⟩
    | taken place found => exact ⟨_, hds.snoc (takeReady_step found)⟩
    | ready | unready | blocks | timedOut | checked | left => exact ⟨ds, hds⟩

/-- When waiting for Wi-Fi ends. In every run in which no address is bound between
the state that `retry` writes and its `k_sem_reset`, a connected manager never
has its waiter asleep, and the worker alone is told without any timeout; an
address bound just there is one a waiter about to sleep can miss. In every run a
result of 0 was seen true in the same call, and the manager does nothing it could
not do where a waiter only takes the token. -/
theorem wait_ready_wakes (w : WifiManager) :
    (∀ t, (machine.restrict KeepsToken).Reachable (start w) t → t.Connected →
      t.waiter ≠ .blocked ∧ t.Returns) ∧
    (∀ s e t, machine.Reachable (start w) s → machine.Step s e t → s.waiter = .take →
      ¬ KeepsToken s e → t.Sleeps) ∧
    (∀ past result t, machine.Run (start w) (past ++ [.leave result]) t →
      Answers w past result) ∧
    ∀ es t, machine.Run (start w) es t →
      ∃ ds, WifiSystem.machine.Run (WifiSystem.start w) ds t.system := by
  refine ⟨fun t hreach hconnected => ?_, fun s e t _ hstep hplace hguard => ?_,
    fun past result t hrun => ?_, fun es t hrun => run_projects hrun⟩
  · have hattended : t.Attended := hreach.invariant (start_attended w)
      fun s e t hs hstep => attended_step hs hstep.1 hstep.2
    exact ⟨hattended.awake hconnected, returns_of_connected hattended hconnected⟩
  · exact sleeps_of_not_keepsToken hplace hguard hstep
  · obtain ⟨s, hrun, hstep⟩ := Machine.run_concat_iff.mp hrun
    simp only [machine, Machine.ofFn_step, step] at hstep
    split_ifs at hstep with hplace
    exact (run_holds hrun).returns result hplace

/-- A late success associates the manager while `connect_handler` is at its next
request, which is refused, and the address comes after the state is written. -/
def lateSuccess : List ReadyAction :=
  [.test, .system .test, .system .write, .system (.request 0),
    .system (.wifiEvent (some ⟨1⟩) .wifiConnectResult ⟨1⟩), .system .test, .system .write,
    .system (.wifiEvent (some ⟨0⟩) .wifiConnectResult ⟨1⟩), .system .obtainLease,
    .system (.request (-5)), .system .setDisconnected]

/-- The manager in front of its `atomic_clear`, and the address reported to it. -/
def retreating : ReadySystem where
  system :=
    { manager := { openStarted with associated := true, connectWork := false }
      handler := .clearAssociated
      dhcp := ⟨true, true⟩
      outstanding := false
      bounds := 1
      dels := 0 }
  waiter := .take

theorem late_success_sleeps : machine.Run (start openStarted) lateSuccess retreating ∧
    ∃ t, machine.Step retreating (.system (.ipEvent .ipv4DhcpBound ⟨1⟩)) t ∧ t.Sleeps := by
  have hrun : machine.Run (start openStarted) lateSuccess retreating :=
    Machine.run_ofFn_iff.mpr rfl
  have hstep : machine.Step retreating (.system (.ipEvent .ipv4DhcpBound ⟨1⟩)) ⟨{
      manager := { openStarted with
        state := .connected
        associated := true
        ready := Semaphore.empty.give
        connectWork := false }
      handler := .clearAssociated
      dhcp := ⟨true, true⟩
      outstanding := false
      bounds := 0
      dels := 0 }, .take⟩ := rfl
  refine ⟨hrun, _, hstep, ?_⟩
  refine (wait_ready_wakes openStarted).2.1 _ _ _ ⟨_, hrun⟩ hstep rfl fun hguard => ?_
  exact hguard _ rfl rfl (Or.inl rfl)

end ReadySystem

end WifiManager

end SensorPanel
