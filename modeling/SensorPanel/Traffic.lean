import SensorPanel.Panel
import SensorPanel.Sensor.LoopCalls

/-!
# The traffic of the panel

Everything the panel sends comes from the worker's steps, with other threads
between any two of them. Since a boot the calls have followed the protocol of the
sockets, towards the hosts of the configuration of this boot and no other, and
each of them was made in an attempt that saw Wi-Fi up.
-/

namespace SensorPanel

open Library

namespace Panel

def asks (p : Panel) : PanelAction → List NetworkCall
  | .poll e => p.poll.asks e
  | _ => []

variable (parser : JsonParser) (arith : DoubleArith)

/-- The panel with what it publishes and with its calls. -/
def traffic : Machine Panel (PanelEvent × List NetworkCall) :=
  (machine parser arith).observe fun p e => p.asks e.1

variable {parser : JsonParser} {arith : DoubleArith} {p q : Panel}
  {es : List (PanelEvent × List NetworkCall)}

def asked? (e : PanelEvent × List NetworkCall) : Option (PollAction × List NetworkCall) :=
  (poll? e.1).map fun x => (x.1, e.2)

theorem run_asked {b : Boot} {uptime : ℕ} (h : (traffic parser arith).Run (start b uptime) es p) :
    (PollLoop.asking parser arith).Run (start b uptime).poll (es.filterMap asked?) p.poll := by
  refine h.project (f := Panel.poll) ?_ ?_
  · rintro p ⟨⟨a, out⟩, calls⟩ q d ⟨⟨hstep, -⟩, hcalls⟩ hd
    cases step_moves hstep with
    | poll allowed h =>
      obtain rfl := Option.some.inj hd
      exact ⟨h, hcalls⟩
    | wifi | wait | set | print | tick | get | online | render => cases hd
  · rintro p ⟨⟨a, out⟩, calls⟩ q ⟨⟨hstep, -⟩, -⟩ hd
    cases step_moves hstep with
    | poll allowed h => cases hd
    | wifi | wait | set | print | tick | get | online | render => rfl

theorem run_calls {b : Boot} {uptime : ℕ} (h : (traffic parser arith).Run (start b uptime) es p) :
    (es.filterMap asked?).flatMap Prod.snd = es.flatMap Prod.snd := by
  refine h.history_invariant (I := fun es (_ : Panel) =>
    (es.filterMap asked?).flatMap Prod.snd = es.flatMap Prod.snd) rfl ?_
  rintro es p ⟨⟨a, out⟩, calls⟩ q ih ⟨-, hcalls⟩
  have hlast : ([((a, out), calls)].filterMap asked?).flatMap Prod.snd = calls := by
    cases a with
    | poll e => simp [asked?, poll?]
    | wifi | wait | set | print | tick | get | online | render => exact hcalls.symm
  rw [List.filterMap_append, List.flatMap_append, List.flatMap_append, ih, hlast,
    List.flatMap_singleton]

/-- What the network sees of a run from the boot `b`. -/
structure Traffic (b : Boot) (es : List (PanelEvent × List NetworkCall)) (p : Panel) : Prop where
  protocol : ∃ n, Network.protocol.Run Network.boot (es.flatMap Prod.snd) n ∧
    (PollLoop.distance p.poll.point ≤ 2 → n.Rest)
  origin : ∀ past e calls later, es = past ++ (e, calls) :: later → calls ≠ [] →
    b.worker = some b.device.config ∧ SawUp b (past.map Prod.fst) ∧
      ∀ call ∈ calls, call.Follows b.device.config

/-- The traffic of the panel. In every run from a boot, whatever the other threads
do between the steps of the worker, its calls so far are a run of the protocol of
the sockets, which holds nothing between two attempts; and each call belongs to an
attempt that saw Wi-Fi up, of a worker that was given the configuration of this
boot, and names the hosts and makes the request of that configuration. -/
theorem traffic_keeps_protocol {d : Device} {env : BootSurroundings} {b : Boot}
    (hmain : Boot.main d env = some b) {uptime : ℕ}
    (h : (traffic parser arith).Run (start b uptime) es p) : Traffic b es p := by
  refine ⟨?_, ?_⟩
  · obtain ⟨c, hasked⟩ := PollLoop.run_asks (run_asked h)
    rw [← run_calls h]
    exact hasked.protocol rfl
  · rintro past ⟨a, out⟩ calls later rfl hne
    obtain ⟨q, r, hrun, ⟨⟨hstep, -⟩, hcalls⟩, -⟩ := h.step_mid
    dsimp only at hstep hcalls
    subst hcalls
    have hpast := hrun.of_observe
    have hattempts := run_attempts hmain hpast
    cases step_moves hstep with
    | @poll e poll allowed hpoll =>
      have hstarted : q.started = true := by
        cases e with
        | requestRefresh => exact absurd rfl hne
        | waitReady env => exact allowed.1
        | request env => exact allowed.1
        | synchronize | report | take | timeout | leave => exact allowed
      obtain ⟨cfg, hcfg⟩ := Option.isSome_iff_exists.mp (hattempts.started_eq.symm.trans hstarted)
      obtain rfl := (Boot.main_made hmain).worker_eq cfg hcfg
      have hconfig : q.poll.client.config = b.device.config := by
        rw [(PollLoop.run_tells rfl (run_poll hpast)).config_eq, hcfg]
        rfl
      refine ⟨hcfg, hattempts.attempting (PollLoop.distance_of_asks hpoll hne), ?_⟩
      rw [← hconfig]
      exact PollLoop.asks_follow q.poll e
    | wifi | wait | set | print | tick | get | online | render => exact absurd rfl hne

theorem second_attempt_asks_host : ∃ d b es calls p, Boot.main d Boot.supportedBoard = some b ∧
    (traffic ApiClient.sampleParser .exact).Run (start b 0) (es ++
      [((.poll (.request ApiClient.sampleSurroundings), some (.sample 2345 5000)), calls)]) p ∧
    es.map (fun e => e.1.1) = secondAttempt ∧ .socket true ∈ calls ∧ .connect true ∈ calls ∧
    (calls.filterMap NetworkCall.request?).map (fun r => r.1.host) = [ascii "example.com"] ∧
    Traffic b (es ++
      [((.poll (.request ApiClient.sampleSurroundings), some (.sample 2345 5000)), calls)]) p := by
  have hcalls : (provisioned secondAttempt).map (fun p =>
      (published ApiClient.sampleParser .exact p (.poll (.request ApiClient.sampleSurroundings)),
        (step ApiClient.sampleParser .exact p
          (.poll (.request ApiClient.sampleSurroundings))).isSome,
        decide (.socket true ∈ asks p (.poll (.request ApiClient.sampleSurroundings)) ∧
          .connect true ∈ asks p (.poll (.request ApiClient.sampleSurroundings)) ∧
          ((asks p (.poll (.request ApiClient.sampleSurroundings))).filterMap
            NetworkCall.request?).map (fun r => r.1.host) = [ascii "example.com"]))) =
      some (some (.sample 2345 5000), true, true) := by
    decide +kernel
  obtain ⟨p, hp, htriple⟩ := Option.map_eq_some_iff.mp hcalls
  obtain ⟨hout, hstep, hfacts⟩ := by simpa only [Prod.mk.injEq] using htriple
  obtain ⟨q, hq⟩ := Option.isSome_iff_exists.mp hstep
  obtain ⟨hsocket, hconnect, hhost⟩ := of_decide_eq_true hfacts
  obtain ⟨d, b, es, hmain, hrun, hes⟩ := run_of_provisioned hp
  obtain ⟨os, hos, rfl⟩ := hrun.observe fun p e => asks p e.1
  have hlast := hos.snoc (M := traffic ApiClient.sampleParser .exact)
    (e := ((.poll (.request ApiClient.sampleSurroundings), some (.sample 2345 5000)),
      asks p (.poll (.request ApiClient.sampleSurroundings)))) ⟨⟨hq, hout.symm⟩, rfl⟩
  refine ⟨d, b, os, _, q, hmain, hlast, ?_, hsocket, hconnect, hhost,
    traffic_keeps_protocol hmain hlast⟩
  rw [← hes, List.map_map]
  rfl

end Panel

end SensorPanel
