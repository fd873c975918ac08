import SensorPanel.Panel

/-!
# A refresh is served

The worker passes two waits before it polls: for a request and for Wi-Fi. With a
request pending and Wi-Fi up it passes both by itself, whatever the other threads
have left it with, as long as no address is bound just before the semaphore of
the manager is reset.
-/

namespace SensorPanel

open Library WifiManager

/-- A step of the worker's thread other than the end of a timeout. -/
def PanelAction.works : PanelAction → Bool
  | wait e => e ≠ .timeout
  | poll .requestRefresh | poll .timeout => false
  | poll _ => true
  | _ => false

def PanelAction.poll? : PanelAction → Option PollAction
  | poll e => some e
  | _ => none

namespace PollLoop

variable {parser : JsonParser} {arith : DoubleArith} {s t : PollLoop} {e : PollAction}

/-- A step between the two waits, in which the network answers `env`. -/
def Answered (env : Surroundings) : PollAction → Prop
  | .synchronize env' | .request env' => env' = env
  | .report | .take | .leave _ => True
  | .requestRefresh | .waitReady _ | .timeout => False

/-- A worker that has heard of a request goes on by itself, with any answers. -/
theorem exists_answered_step (hs : s.Heard) (hplace : s.point ≠ .waitReady) (env : Surroundings) :
    ∃ e t, step parser arith s e = some t ∧ Answered env e := by
  cases hpoint : s.point with
  | waitReady => exact absurd hpoint hplace
  | synchronize => exact ⟨.synchronize env, _, if_pos hpoint, rfl⟩
  | request err =>
    obtain ⟨r, hr, -⟩ := ApiClient.requestSample_ends parser arith s.client env
    refine ⟨.request env, ?_⟩
    by_cases herr : err = 0
    · exact ⟨{ s with client := r.2.1, point := .report r.1 },
        by simp [step, hpoint, herr, hr], rfl⟩
    · exact ⟨{ s with point := .report err }, by simp [step, hpoint, herr], rfl⟩
  | report err => exact ⟨.report, _, by simp only [step, hpoint]; rfl, trivial⟩
  | waitRefresh => exact ⟨.take, _, if_pos hpoint, trivial⟩
  | blocked => exact absurd hpoint (not_blocked_of_heard hs)
  | woken err => exact ⟨.leave err, _, if_pos hpoint, trivial⟩

theorem returns_to_wait (hs : s.point = .waitReady ∨ s.Heard) (env : Surroundings) :
    ∃ es t, (machine parser arith).Run s es t ∧ t.point = .waitReady ∧
      ∀ e ∈ es, Answered env e := by
  refine Machine.exists_run_of_rank (I := fun s => s.point = .waitReady ∨ s.Heard)
    (fun s => distance s.point) (fun s hs => ?_) hs
  by_cases hplace : s.point = .waitReady
  · exact Or.inl hplace
  · obtain ⟨e, t, hstep, he⟩ := exists_answered_step (hs.resolve_left hplace) hplace env
    have hbegin : ¬ e.Begins := by
      rintro ⟨env, rfl, -⟩
      exact he
    have hadvances : e.advances = true := by
      cases e <;> first | rfl | exact he.elim
    have hmoves := step_moves hstep
    have hnearer := hmoves.nearer hs hbegin
    rw [if_pos hadvances] at hnearer
    exact Or.inr ⟨e, t, hstep, he, hmoves.attended hs hbegin, hnearer⟩

end PollLoop

namespace Panel

variable (parser : JsonParser) (arith : DoubleArith)

/-- The worker alone, without any timeout. -/
def worker : Machine Panel PanelEvent :=
  (machine parser arith).restrict fun _ e => e.1.works = true

variable {parser : JsonParser} {arith : DoubleArith} {p q : Panel} {env : Surroundings}
  {es : List PanelEvent}

theorem worker_step {t : PollLoop} {e : PollAction} (hstarted : p.started = true)
    (huptime : env.uptime = p.uptime) (h : p.poll.step parser arith e = some t)
    (he : PollLoop.Answered env e) : (worker parser arith).Step p
      (.poll e, p.poll.published parser arith e) { p with poll := t } := by
  have hallowed : p.Allows e := by
    cases e with
    | request env' => exact ⟨hstarted, (congrArg Surroundings.uptime he).trans huptime⟩
    | waitReady | requestRefresh | timeout => exact he.elim
    | _ => exact hstarted
  have hready : p.readyAfter e = p.ready := by
    cases e <;> first | rfl | exact he.elim
  refine ⟨?_, ?_, rfl⟩
  · cases e <;> first | rfl | exact he.elim
  · simp only [Machine.ofFn_step, step, if_pos hallowed, h, Option.map_some, hready]

theorem worker_poll {t : PollLoop} {actions : List PollAction} (hstarted : p.started = true)
    (huptime : env.uptime = p.uptime) (h : (PollLoop.machine parser arith).Run p.poll actions t)
    (hactions : ∀ e ∈ actions, PollLoop.Answered env e) :
    ∃ os, (worker parser arith).Run p os { p with poll := t } ∧
      os.map Prod.fst = actions.map .poll := by
  generalize hs : p.poll = s at h
  induction h with
  | nil =>
    subst hs
    exact ⟨[], Machine.Run.nil p, rfl⟩
  | @snoc t u actions e hrun hstep ih =>
    obtain ⟨os, hos, hmap⟩ := ih fun x hx => hactions x (by simp [hx])
    have hlast := worker_step (p := { p with poll := t }) hstarted huptime hstep
      (hactions e (by simp))
    exact ⟨_, hos.snoc hlast, by simp [hmap]⟩

theorem worker_wait (parser : JsonParser) (arith : DoubleArith) {r : ReadySystem} {e : ReadyAction}
    (hstarted : p.started = true) (hplace : p.poll.point = .waitReady) (h : p.ready.step e = some r)
    (hsystem : ∀ a, e ≠ .system a) (htimeout : e ≠ .timeout) (hleave : e ≠ .leave 0)
    (env : Surroundings) : ∃ o, (worker parser arith).Step p o { p with ready := r } := by
  have hown (hown : e.own = true) : (worker parser arith).Step p (.wait e, none)
      { p with ready := r } := by
    refine ⟨by simp [PanelAction.works, htimeout], ?_, rfl⟩
    simp only [Machine.ofFn_step, step, hown, hstarted, hplace, and_self, if_true, h,
      Option.map_some]
  cases e with
  | system a => exact absurd rfl (hsystem a)
  | timeout => exact absurd rfl htimeout
  | test | take | check => exact ⟨_, hown rfl⟩
  | leave result =>
    have hresult : result ≠ 0 := fun h => hleave (h ▸ rfl)
    simp only [ReadySystem.step] at h
    split_ifs at h with hwaiter
    obtain rfl := Option.some.inj h
    refine ⟨(.poll (.waitReady { env with waitReady := result }), none), rfl, ?_, rfl⟩
    have hallowed : p.Allows (.waitReady { env with waitReady := result }) := ⟨hstarted, hwaiter⟩
    simp [Machine.ofFn_step, step, hallowed, PollLoop.step, hplace, hresult, readyAfter]

/-- The worker passes its wait for Wi-Fi, if the waiter can return 0 by itself. -/
theorem passes_wait (parser : JsonParser) (arith : DoubleArith) {r : ReadySystem}
    {actions : List ReadyAction} (hstarted : p.started = true)
    (hplace : p.poll.point = .waitReady) (h : ReadySystem.machine.Run p.ready actions r)
    (hsystem : ∀ a, .system a ∉ actions) (htimeout : .timeout ∉ actions)
    (hleave : .leave 0 ∈ actions) (env : Surroundings) :
    ∃ os ready, (worker parser arith).Run p os { p with ready := ready } ∧
      ready.waiter = .returns 0 := by
  induction actions generalizing p with
  | nil => cases hleave
  | cons e actions ih =>
    obtain ⟨u, hstep, hrest⟩ := Machine.run_cons_iff.mp h
    by_cases he : e = .leave 0
    · subst he
      refine ⟨[], p.ready, Machine.Run.nil p, ?_⟩
      simp only [ReadySystem.machine, Machine.ofFn_step, ReadySystem.step] at hstep
      split_ifs at hstep with hwaiter
      exact hwaiter
    · rw [List.mem_cons, or_iff_right (Ne.symm he)] at hleave
      simp only [List.mem_cons, not_or] at hsystem htimeout
      obtain ⟨o, ho⟩ := worker_wait parser arith hstarted hplace hstep
        (fun a => Ne.symm (hsystem a).1) (Ne.symm htimeout.1) he env
      obtain ⟨os, ready, hos, hwaiter⟩ := ih (p := { p with ready := u }) hstarted hplace hrest
        (fun a => (hsystem a).2) htimeout.2 hleave
      exact ⟨o :: os, ready, (Machine.Run.single ho).trans hos, hwaiter⟩

/-- No address is bound while `retry` has its `k_sem_reset` still to come. -/
def KeepsToken (p : Panel) : PanelAction → Prop
  | .wifi a => p.ready.system.gives a = true → ¬ p.ready.system.Retreating
  | _ => True

instance (p : Panel) (a : PanelAction) : Decidable (p.KeepsToken a) := by
  cases a <;> unfold KeepsToken WifiSystem.Retreating <;> infer_instance

/-- The runs in which a waiter finds its token. -/
def attended (parser : JsonParser) (arith : DoubleArith) : Machine Panel PanelEvent :=
  (machine parser arith).restrict fun p e => p.KeepsToken e.1

theorem run_attended {b : Boot} {uptime : ℕ}
    (h : (attended parser arith).Run (start b uptime) es p) : p.ready.Attended := by
  refine h.invariant (I := fun p : Panel => p.ready.Attended)
    (ReadySystem.start_attended b.manager) ?_
  rintro p e q hp ⟨hkeeps, hstep⟩
  cases hlabel : ready? e with
  | none =>
    rw [(ready_step hstep).2 hlabel]
    exact hp
  | some d =>
    refine ReadySystem.attended_step hp ?_ ((ready_step hstep).1 d hlabel)
    rintro a rfl
    have hwifi : e.1.wifi? = some a := by rw [← ready?_system, hlabel]; rfl
    obtain ⟨action, out⟩ := e
    cases action with
    | wifi a' =>
      obtain rfl := Option.some.inj hwifi
      exact hkeeps
    | _ => cases hwifi

def attemptCalls (env : Surroundings) : List PanelAction :=
  [.poll (.waitReady env), .poll (.synchronize env), .poll (.request env), .poll .report]

theorem makes_attempt (parser : JsonParser) (arith : DoubleArith)
    (hstarted : p.started = true) (hplace : p.poll.point = .waitReady)
    (hwaiter : p.ready.waiter = .returns 0) (hready : env.waitReady = 0)
    (huptime : env.uptime = p.uptime) : ∃ os q, (worker parser arith).Run p os q ∧
      os.map Prod.fst = attemptCalls env ∧ q.poll.point = .waitRefresh := by
  obtain ⟨o, ho⟩ := ApiClient.pollIteration_isSome parser arith p.poll.client env
  have hrun := PollLoop.iteration_steps p.poll.refreshSignal hready ho
  rw [← hplace] at hrun
  obtain ⟨u, hbegin, hrest⟩ := Machine.run_cons_iff.mp hrun
  have hallowed : p.Allows (.waitReady env) := ⟨hstarted, by rw [hready, hwaiter]⟩
  have hstep : (worker parser arith).Step p (.poll (.waitReady env), none)
      { p with poll := u, ready := p.readyAfter (.waitReady env) } := by
    refine ⟨rfl, ?_, rfl⟩
    simp only [Machine.ofFn_step, step, if_pos hallowed]
    exact congrArg (Option.map _) hbegin
  obtain ⟨os, hos, hmap⟩ := worker_poll (p := { p with
    poll := u, ready := p.readyAfter (.waitReady env) }) hstarted huptime hrest (by
      simp [PollLoop.Answered])
  exact ⟨_, _, (Machine.Run.single hstep).trans hos, by simp [attemptCalls, hmap], rfl⟩

def pollActions (es : List PanelEvent) : List PollAction :=
  (es.map Prod.fst).filterMap PanelAction.poll?

theorem map_poll? (es : List PanelEvent) : (es.filterMap poll?).map Prod.fst = pollActions es := by
  rw [pollActions, List.map_filterMap, List.filterMap_map]
  refine congrArg (fun f => es.filterMap f) (funext fun e => ?_)
  obtain ⟨a, out⟩ := e
  cases a <;> rfl

/-- What a run of the worker's has published, counted by its attempts. -/
theorem run_outcomes {b : Boot} {uptime : ℕ}
    (h : (machine parser arith).Run (start b uptime) es p) :
    (publications es).length + PollLoop.owing p.poll.point =
      (pollActions es).countP PollAction.begins := by
  rw [publications, (PollLoop.run_tells rfl (run_poll h)).outcomes, ← map_poll?, List.countP_map]
  rfl

theorem attempt_publishes {b : Boot} {uptime : ℕ} {os : List PanelEvent}
    (h : (machine parser arith).Run (start b uptime) es p) (hp : p.poll.point = .waitReady)
    (hos : (machine parser arith).Run p os q) (hq : q.poll.point = .waitRefresh)
    (hcalls : os.map Prod.fst = attemptCalls env) (hready : env.waitReady = 0) :
    (publications os).length = 1 := by
  have hbefore := run_outcomes h
  have hafter := run_outcomes (h.trans hos)
  have hone : (pollActions os).countP PollAction.begins = 1 := by
    rw [pollActions, hcalls]
    simp [attemptCalls, PanelAction.poll?, PollAction.begins, hready]
  have hpublications : publications (es ++ os) = publications es ++ publications os := by
    simp [publications, PollLoop.publications]
  have hactions : pollActions (es ++ os) = pollActions es ++ pollActions os := by
    simp [pollActions]
  rw [hp] at hbefore
  rw [hq, hpublications, hactions, List.length_append, List.countP_append, hone] at hafter
  simp only [PollLoop.owing] at hbefore hafter
  omega

/-- The worker alone makes an attempt with the answers `env`, which publishes once. -/
structure Serves (parser : JsonParser) (arith : DoubleArith) (p : Panel) (env : Surroundings) :
    Prop where
  run : ∃ before attempt q, (worker parser arith).Run p (before ++ attempt) q ∧
    attempt.map Prod.fst = attemptCalls env ∧ (publications attempt).length = 1

/-- A refresh is served. In every run from a boot that has started the worker, and
in which no address is bound between the state that `retry` writes and its
`k_sem_reset`: whenever a request has come since the last attempt began and Wi-Fi
is up, the worker alone, without any timeout, makes its next attempt, whatever the
network answers, and publishes one outcome. -/
theorem refresh_is_served {d : Device} {boot : BootSurroundings} {b : Boot}
    (hmain : Boot.main d boot = some b) (hworker : b.worker.isSome = true) {uptime : ℕ}
    (h : (attended parser arith).Run (start b uptime) es p)
    (hrequest : PollLoop.RequestedSince PollAction.Begins (pollActions es))
    (hup : LinkUp b.manager.iface (wifiActions es)) (hready : env.waitReady = 0)
    (huptime : env.uptime = p.uptime) : Serves parser arith p env := by
  have hrun := h.of_restrict
  have hstarted : p.started = true := (run_attempts hmain hrun).started_eq.trans hworker
  have htracks := PollLoop.run_tracks (run_poll hrun).of_observe
  rw [map_poll?] at htracks
  -- First the wait for a request is over,
  obtain ⟨actions, poll, hpoll, hplace, hanswered⟩ :=
    PollLoop.returns_to_wait (htracks.unattended hrequest) env
  obtain ⟨rest, hrest, -⟩ := worker_poll hstarted huptime hpoll hanswered
  -- then the wait for Wi-Fi,
  have hconnected : p.ready.Connected := (run_knows hmain hrun).up_iff.mpr hup
  obtain ⟨waits, r, hwaits, htimeout, hsystem⟩ :=
    ReadySystem.returns_of_connected (run_attended h) hconnected
  obtain ⟨wait, ready, hwait, hwaiter⟩ := passes_wait parser arith
    (p := { p with poll := poll }) hstarted hplace hwaits (by simpa using hsystem)
    (by simpa using htimeout) (by simp) env
  -- and then comes the attempt.
  obtain ⟨attempt, q, hattempt, hcalls, hend⟩ := makes_attempt parser arith
    (p := { p with poll := poll, ready := ready }) hstarted hplace hwaiter hready huptime
  have hbefore := hrest.trans hwait
  exact ⟨rest ++ wait, attempt, q, hbefore.trans hattempt, hcalls,
    attempt_publishes (hrun.trans hbefore.of_restrict) hplace hattempt.of_restrict hend hcalls
      hready⟩

/-- The worker sleeps in its wait for Wi-Fi, the panel connects, and the button is
pressed. -/
def pressedRefresh : List PanelAction :=
  [.wait .test, .wait .take, .wifi .test, .wifi .write, .wifi (.request 0),
    .wifi (.wifiEvent (some ⟨0⟩) .wifiConnectResult ⟨1⟩), .wifi .obtainLease,
    .wifi (.ipEvent .ipv4DhcpBound ⟨1⟩), .poll .requestRefresh]

theorem pressed_refresh_served : ∃ d b es p, Boot.main d Boot.supportedBoard = some b ∧
    (machine ApiClient.sampleParser .exact).Run (start b 0) es p ∧
    es.map Prod.fst = pressedRefresh ∧
    Serves ApiClient.sampleParser .exact p { PollLoop.unsynchronized with uptime := 0 } := by
  have hpressed : ((Boot.provisioning.foldlM sessionStep Session.start).bind fun t =>
      (Boot.main t.device Boot.supportedBoard).bind fun b =>
        (pressedRefresh.foldlM (fun (p : Panel) a => if p.KeepsToken a then
          step ApiClient.sampleParser .exact p a else none) (start b 0)).map fun p =>
            (b.worker.isSome, p.ready.system.manager.isConnected, p.uptime)) =
      some (true, true, 0) := by
    decide +kernel
  obtain ⟨t, -, hboot⟩ := Option.bind_eq_some_iff.mp hpressed
  obtain ⟨b, hb, hpanel⟩ := Option.bind_eq_some_iff.mp hboot
  obtain ⟨p, hp, hfacts⟩ := Option.map_eq_some_iff.mp hpanel
  obtain ⟨hworker, hconnected, huptime⟩ := by simpa only [Prod.mk.injEq] using hfacts
  have hguarded : ((Machine.ofFn (step ApiClient.sampleParser .exact)).restrict KeepsToken).Run
      (start b 0) pressedRefresh p := Machine.Run.of_guarded hp
  obtain ⟨es, hes, hmap⟩ := hguarded.observe (published ApiClient.sampleParser .exact)
  have hrun : (attended ApiClient.sampleParser .exact).Run (start b 0) es p := by
    refine hes.mono ?_
    rintro p e q ⟨⟨hkeeps, hstep⟩, hout⟩
    exact ⟨hkeeps, hstep, hout⟩
  have hrequest : PollLoop.RequestedSince PollAction.Begins (pollActions es) := by
    rw [pollActions, hmap]
    exact ⟨[], .requestRefresh, [], rfl, rfl, by simp⟩
  have hup := (run_knows hb hrun.of_restrict).up_iff.mp (isConnected_iff.mp hconnected)
  exact ⟨t.device, b, es, p, hb, hrun.of_restrict, hmap,
    refresh_is_served hb hworker hrun hrequest hup rfl huptime.symm⟩

end Panel

end SensorPanel
