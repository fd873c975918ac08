import SensorPanel.Boot
import SensorPanel.Network.LinkHistory
import SensorPanel.Sensor.Display
import SensorPanel.Sensor.Publications

/-!
# The running panel

What `main` leaves goes on as four threads: the loop that draws the frames, the
worker of `api_client.c`, the work queue of `wifi_manager.c` and the callbacks
of the network. The shell may change settings meanwhile. A pass of the main loop
reads the sample, the connection and the time one after another, and anything
may happen in between.
-/

namespace SensorPanel

open Library WifiManager

/-- Where the main thread stands in a pass of its loop, with what it has read. -/
inductive MainPoint
  | get
  | online (state : SensorState)
  | render (state : SensorState) (online : Bool)
  deriving DecidableEq

/-- A `panel set` whose `config_store_set` has returned and whose line is to come. -/
structure SetCommand where
  key : Option Bytes
  value : Option CString
  err : ℤ

/-- The static variables of the running program and the places of its threads.
There are the variables of `api_client.c` also if its thread was not started. -/
structure Panel where
  device : Device
  ready : ReadySystem
  poll : PollLoop
  started : Bool
  main : MainPoint
  labels : Labels
  shell : Option SetCommand
  uptime : ℤ

/-- A step of a thread, or the time passing. A request for a refresh comes from the
button or the shell; a `panel set` first saves and then prints. -/
inductive PanelAction
  | wifi (e : WifiAction)
  | wait (e : ReadyAction)
  | poll (e : PollAction)
  | set (key : Option Bytes) (value : Option CString) (saved : ℤ)
  | print
  | tick (ms : ℕ)
  | get
  | online
  | render

namespace PanelAction

def wifi? : PanelAction → Option WifiAction
  | wifi e => some e
  | _ => none

def waits : PanelAction → Bool
  | wait _ => true
  | _ => false

/-- One of the two looks `wifi_manager_wait_ready` takes at the state. -/
def looks : PanelAction → Bool
  | wait .test | wait .check => true
  | _ => false

def draws : PanelAction → Bool
  | get | online | render => true
  | _ => false

def ms : PanelAction → ℕ
  | tick ms => ms
  | _ => 0

end PanelAction

abbrev PanelEvent := PanelAction × Option Publication

def uiInit : Labels := ⟨ascii "--.--", ascii "No data", ascii "Wi-Fi offline"⟩

/-- The static `config` of `api_client.c` before `api_client_start`. -/
def AppConfig.zero : AppConfig where
  ssid := Buffer.zero _
  password := Buffer.zero _
  apiHost := Buffer.zero _
  apiPath := Buffer.zero _
  apiBody := Buffer.zero _
  ntpHost := Buffer.zero _

namespace Boot

/-- The configuration of the worker, if `api_client_start` has started it. -/
def worker (b : Boot) : Option AppConfig := b.apiStart.bind ApiStartCall.worker

def manager (b : Boot) : WifiManager := b.wifiInit.elim WifiManager.boot WifiInitCall.manager

def publications (b : Boot) : List Publication := if b.err ≠ 0 then [.error b.err] else []

/-- What the panel starts from. -/
structure Made (b : Boot) : Prop where
  disconnected : b.manager.state ≠ .connected
  not_associated : b.manager.associated = false
  worker_eq : ∀ cfg, b.worker = some cfg → cfg = b.device.config
  sensor_eq : b.sensor = SensorState.after b.publications

theorem enterLoop_sensor (d : Device) (err : ℤ) (wifi : Option WifiInitCall)
    (api : Option ApiStartCall) : (enterLoop d err wifi api).sensor =
      SensorState.after (enterLoop d err wifi api).publications := by
  unfold publications enterLoop
  dsimp only
  split_ifs
  · rfl
  · rfl

theorem start_worker {cfg : AppConfig} {size : ℕ} {added : ℤ} {worker : AppConfig}
    (h : (ApiClient.start (some cfg) size added).2 = some worker) : worker = cfg := by
  simp only [ApiClient.start] at h
  split_ifs at h
  exact (Option.some.inj h).symm

theorem startApi_made (d : Device) {wifi : WifiInitCall} (env : BootSurroundings)
    (hstate : wifi.manager.state ≠ .connected) (hassociated : wifi.manager.associated = false) :
    (startApi d wifi env).Made := by
  unfold startApi
  dsimp only
  split_ifs with hstart
  · exact ⟨hstate, hassociated, fun cfg hcfg => start_worker hcfg, enterLoop_sensor _ _ _ _⟩
  · exact ⟨hstate, hassociated, by simp [worker, enterLoop], enterLoop_sensor _ _ _ _⟩

theorem enterLoop_made (d : Device) (err : ℤ) : (enterLoop d err none none).Made where
  disconnected := by simp [manager, enterLoop, WifiManager.boot]
  not_associated := rfl
  worker_eq := by simp [worker, enterLoop]
  sensor_eq := enterLoop_sensor d err none none

theorem main_made {d : Device} {env : BootSurroundings} {b : Boot} (h : main d env = some b) :
    b.Made := by
  unfold main at h
  split_ifs at h with hdisplay
  · obtain ⟨⟨err, d'⟩, -, h⟩ := Option.bind_eq_some_iff.mp h
    dsimp only at h
    split_ifs at h with herr
    · unfold bringUp at h
      dsimp only at h
      split_ifs at h with hssid
      · obtain ⟨⟨result, w⟩, hinit, rfl⟩ := Option.map_eq_some_iff.mp h
        obtain ⟨hstate, hassociated⟩ := WifiManager.init_flags hinit
        exact startApi_made d' env (by simp [hstate, WifiManager.boot]) hassociated
      · obtain rfl := Option.some.inj h
        exact enterLoop_made d' 0
    · obtain rfl := Option.some.inj h
      exact enterLoop_made d' err
  · obtain rfl := Option.some.inj h
    exact ⟨by simp [manager, WifiManager.boot], rfl, by simp [worker], rfl⟩

end Boot

namespace Panel

def start (b : Boot) (uptime : ℕ) : Panel where
  device := b.device
  ready := ReadySystem.start b.manager
  poll := PollLoop.start (ApiClient.initial (b.worker.getD AppConfig.zero) b.sensor)
  started := b.worker.isSome
  main := .get
  labels := uiInit
  shell := none
  uptime := uptime

variable (parser : JsonParser) (arith : DoubleArith)

/-- Whether the worker can make the step: it is given what the panel shows it. -/
def Allows (p : Panel) : PollAction → Prop
  | .requestRefresh => True
  | .waitReady env => p.started = true ∧ p.ready.waiter = .returns env.waitReady
  | .request env => p.started = true ∧ env.uptime = p.uptime
  | _ => p.started = true

instance (p : Panel) (e : PollAction) : Decidable (p.Allows e) := by
  cases e <;> unfold Allows <;> infer_instance

/-- `wifi_manager_wait_ready` returns as the loop goes on. -/
def readyAfter (p : Panel) : PollAction → ReadySystem
  | .waitReady _ => { p.ready with waiter := .idle }
  | _ => p.ready

def step (p : Panel) : PanelAction → Option Panel
  | .wifi e => (p.ready.step (.system e)).map fun ready => { p with ready := ready }
  | .wait e =>
    if e.own ∧ p.started ∧ p.poll.point = .waitReady then
      (p.ready.step e).map fun ready => { p with ready := ready }
    else none
  | .poll e =>
    if p.Allows e then
      (p.poll.step parser arith e).map fun poll =>
        { p with poll := poll, ready := p.readyAfter e }
    else none
  -- The shell takes one command at a time. Of the configuration in RAM there is no other
  -- reader before a boot resets it, so its write is one step with the save.
  | .set key value saved =>
    if p.shell = none then
      (configStoreSet p.device key value saved).map fun r =>
        { p with device := r.2, shell := some ⟨key, value, r.1⟩ }
    else none
  | .print => p.shell.map fun _ => { p with shell := none }
  | .tick ms => some { p with uptime := p.uptime + ms }
  | .get => if p.main = .get then some { p with main := .online p.poll.client.sensor } else none
  | .online =>
    match p.main with
    | .online state => some { p with main := .render state p.ready.system.manager.isConnected }
    | _ => none
  | .render =>
    match p.main with
    | .render state online =>
      some { p with labels := uiRender state online p.uptime, main := .get }
    | _ => none

def published (p : Panel) : PanelAction → Option Publication
  | .poll e => p.poll.published parser arith e
  | _ => none

def machine : Machine Panel PanelEvent :=
  (Machine.ofFn (step parser arith)).observe (published parser arith)

variable {parser : JsonParser} {arith : DoubleArith} {p q : Panel} {a : PanelAction}
  {es : List PanelEvent}

inductive Moves (parser : JsonParser) (arith : DoubleArith) (p : Panel) :
    PanelAction → Panel → Prop
  | wifi {e : WifiAction} {ready : ReadySystem} (h : p.ready.step (.system e) = some ready) :
      Moves parser arith p (.wifi e) { p with ready := ready }
  | wait {e : ReadyAction} {ready : ReadySystem} (own : e.own = true)
      (place : p.poll.point = .waitReady) (h : p.ready.step e = some ready) :
      Moves parser arith p (.wait e) { p with ready := ready }
  | poll {e : PollAction} {poll : PollLoop} (allowed : p.Allows e)
      (h : p.poll.step parser arith e = some poll) :
      Moves parser arith p (.poll e) { p with poll := poll, ready := p.readyAfter e }
  | set {key : Option Bytes} {value : Option CString} {saved : ℤ} {r : ℤ × Device}
      (place : p.shell = none) (h : configStoreSet p.device key value saved = some r) :
      Moves parser arith p (.set key value saved)
        { p with device := r.2, shell := some ⟨key, value, r.1⟩ }
  | print {command : SetCommand} (place : p.shell = some command) :
      Moves parser arith p .print { p with shell := none }
  | tick {ms : ℕ} : Moves parser arith p (.tick ms) { p with uptime := p.uptime + ms }
  | get (place : p.main = .get) :
      Moves parser arith p .get { p with main := .online p.poll.client.sensor }
  | online {state : SensorState} (place : p.main = .online state) :
      Moves parser arith p .online
        { p with main := .render state p.ready.system.manager.isConnected }
  | render {state : SensorState} {online : Bool} (place : p.main = .render state online) :
      Moves parser arith p .render
        { p with labels := uiRender state online p.uptime, main := .get }

theorem step_moves (h : step parser arith p a = some q) : Moves parser arith p a q := by
  cases a with
  | wifi e =>
    obtain ⟨ready, hready, rfl⟩ := Option.map_eq_some_iff.mp h
    exact .wifi hready
  | wait e =>
    simp only [step] at h
    split_ifs at h with hplace
    obtain ⟨ready, hready, rfl⟩ := Option.map_eq_some_iff.mp h
    exact .wait hplace.1 hplace.2.2 hready
  | poll e =>
    simp only [step] at h
    split_ifs at h with hallowed
    obtain ⟨poll, hpoll, rfl⟩ := Option.map_eq_some_iff.mp h
    exact .poll hallowed hpoll
  | set key value saved =>
    simp only [step] at h
    split_ifs at h with hplace
    obtain ⟨r, hr, rfl⟩ := Option.map_eq_some_iff.mp h
    exact .set hplace hr
  | print =>
    obtain ⟨command, hplace, rfl⟩ := Option.map_eq_some_iff.mp h
    exact .print hplace
  | tick ms =>
    obtain rfl := Option.some.inj h
    exact .tick
  | get =>
    simp only [step] at h
    split_ifs at h with hplace
    obtain rfl := Option.some.inj h
    exact .get hplace
  | online =>
    simp only [step] at h
    split at h
    · next state hplace =>
      obtain rfl := Option.some.inj h
      exact .online hplace
    · cases h
  | render =>
    simp only [step] at h
    split at h
    · next state online hplace =>
      obtain rfl := Option.some.inj h
      exact .render hplace
    · cases h

/-- The step of the Wi-Fi system and its waiter in a step of the panel. -/
def ready? : PanelEvent → Option ReadyAction
  | (.wifi e, _) => some (.system e)
  | (.wait e, _) => if e.own then some e else none
  | (.poll (.waitReady env), _) => some (.leave env.waitReady)
  | _ => none

def poll? : PanelEvent → Option (PollAction × Option Publication)
  | (.poll e, out) => some (e, out)
  | _ => none

theorem ready_step {e : PanelEvent} (h : (machine parser arith).Step p e q) :
    (∀ d, ready? e = some d → ReadySystem.machine.Step p.ready d q.ready) ∧
      (ready? e = none → q.ready = p.ready) := by
  obtain ⟨a, out⟩ := e
  obtain ⟨hstep, -⟩ := h
  cases step_moves hstep with
  | wifi h =>
    refine ⟨fun d hd => ?_, nofun⟩
    obtain rfl := Option.some.inj hd
    exact h
  | wait own place h =>
    rw [ready?, if_pos own]
    refine ⟨fun d hd => ?_, nofun⟩
    obtain rfl := Option.some.inj hd
    exact h
  | @poll e poll allowed h =>
    cases e with
    | waitReady env =>
      refine ⟨fun d hd => ?_, nofun⟩
      obtain rfl := Option.some.inj hd
      exact if_pos allowed.2
    | _ => exact ⟨nofun, fun _ => rfl⟩
  | set | print | tick | get | online | render => exact ⟨nofun, fun _ => rfl⟩

theorem run_ready {b : Boot} {uptime : ℕ} (h : (machine parser arith).Run (start b uptime) es p) :
    ReadySystem.machine.Run (ReadySystem.start b.manager) (es.filterMap ready?) p.ready :=
  h.project (f := Panel.ready) (fun _ _ _ d hstep hd => (ready_step hstep).1 d hd)
    fun _ _ _ hstep hd => (ready_step hstep).2 hd

theorem run_poll {b : Boot} {uptime : ℕ} (h : (machine parser arith).Run (start b uptime) es p) :
    (PollLoop.publishing parser arith).Run (start b uptime).poll (es.filterMap poll?) p.poll := by
  refine h.project (f := Panel.poll) ?_ ?_
  · rintro p ⟨a, out⟩ q d ⟨hstep, hout⟩ hd
    cases step_moves hstep with
    | poll allowed h =>
      obtain rfl := Option.some.inj hd
      exact ⟨h, hout⟩
    | wifi | wait | set | print | tick | get | online | render => cases hd
  · rintro p ⟨a, out⟩ q ⟨hstep, -⟩ hd
    cases step_moves hstep with
    | poll allowed h => cases hd
    | wifi | wait | set | print | tick | get | online | render => rfl

def wifiActions (es : List PanelEvent) : List WifiAction := es.filterMap fun e => e.1.wifi?

def publications (es : List PanelEvent) : List Publication :=
  PollLoop.publications (es.filterMap poll?)

def elapsed (es : List PanelEvent) : ℕ := (es.map fun e => e.1.ms).sum

def Undrawn (es : List PanelEvent) : Prop := ∀ e ∈ es, e.1.draws = false

/-- What the variables say of the run so far, from the start `b` on. -/
structure Knows (b : Boot) (uptime : ℕ) (es : List PanelEvent) (p : Panel) : Prop where
  sensor_eq : p.poll.client.sensor = SensorState.after (b.publications ++ publications es)
  up_iff : p.ready.system.manager.state = .connected ↔ LinkUp b.manager.iface (wifiActions es)
  uptime_eq : p.uptime = uptime + elapsed es
  past : ∀ value time, .sample value time ∈ publications es → 0 ≤ time ∧ time ≤ p.uptime

theorem ready?_system : ∀ e : PanelEvent,
    (ready? e).bind ReadySystem.system? = e.1.wifi? := by
  rintro ⟨a, out⟩
  cases a with
  | poll e => cases e <;> rfl
  | wait e => cases e <;> rfl
  | wifi | set | print | tick | get | online | render => rfl

theorem wifiActions_eq (es : List PanelEvent) :
    (es.filterMap ready?).filterMap ReadySystem.system? = wifiActions es := by
  rw [List.filterMap_filterMap, wifiActions]
  exact congrArg (fun f => es.filterMap f) (funext ready?_system)

theorem run_time {b : Boot} {uptime : ℕ} (h : (machine parser arith).Run (start b uptime) es p) :
    p.uptime = uptime + elapsed es ∧
      ∀ value time, .sample value time ∈ publications es → 0 ≤ time ∧ time ≤ p.uptime := by
  refine h.history_invariant (I := fun es (p : Panel) => p.uptime = uptime + elapsed es ∧
    ∀ value time, .sample value time ∈ publications es → 0 ≤ time ∧ time ≤ p.uptime)
    ⟨by simp [start, elapsed], by simp [publications, PollLoop.publications]⟩ ?_
  rintro es p ⟨a, out⟩ q ⟨huptime, hpast⟩ ⟨hstep, hout⟩
  have helapsed : elapsed (es ++ [(a, out)]) = elapsed es + a.ms := by simp [elapsed]
  rw [helapsed]
  dsimp only at hstep hout
  cases step_moves hstep with
  | @poll e poll allowed h =>
    have hpublications : publications (es ++ [(.poll e, out)]) = publications es ++ out.toList := by
      cases out <;> simp [publications, PollLoop.publications, poll?]
    refine ⟨huptime, fun value time hmem => ?_⟩
    rw [hpublications, List.mem_append, Option.mem_toList] at hmem
    rcases hmem with hmem | hmem
    · exact hpast value time hmem
    · obtain ⟨env, rfl, rfl⟩ := PollLoop.published_sample (hout.symm.trans hmem)
      rw [show env.uptime = p.uptime from allowed.2]
      exact ⟨by omega, le_refl _⟩
  | @tick ms =>
    rw [publications, List.filterMap_append, List.filterMap_cons_none rfl, List.filterMap_nil,
      List.append_nil]
    refine ⟨by simp [PanelAction.ms, huptime, add_assoc], fun value time hmem => ?_⟩
    obtain ⟨hstart, hnow⟩ := hpast value time hmem
    exact ⟨hstart, by dsimp only; omega⟩
  | wifi | wait | set | print | get | online | render =>
    rw [publications, List.filterMap_append, List.filterMap_cons_none rfl, List.filterMap_nil,
      List.append_nil]
    exact ⟨huptime, hpast⟩

theorem run_knows {d : Device} {env : BootSurroundings} {b : Boot}
    (hmain : Boot.main d env = some b) {uptime : ℕ}
    (h : (machine parser arith).Run (start b uptime) es p) :
    Knows b uptime es p := by
  have hmade := Boot.main_made hmain
  have hworker := PollLoop.run_tells rfl (run_poll h)
  have hwifi := ReadySystem.run_follows hmade.disconnected hmade.not_associated (run_ready h)
  obtain ⟨huptime, hpast⟩ := run_time h
  refine ⟨?_, ?_, huptime, hpast⟩
  · rw [hworker.sensor_eq, SensorState.after, List.foldl_append]
    exact congrArg (fun state => (publications es).foldl SensorState.publish state) hmade.sensor_eq
  · rw [← wifiActions_eq]
    exact hwifi.connected_iff

/-- The pass under way: what it has read, and when. -/
def Reads (b : Boot) (es : List PanelEvent) : MainPoint → Prop
  | .get => True
  | .online state => ∃ before between, es = before ++ (.get, none) :: between ∧
      Undrawn between ∧ state = SensorState.after (b.publications ++ publications before)
  | .render state online => ∃ before between after,
      es = before ++ (.get, none) :: between ++ (.online, none) :: after ∧
      Undrawn between ∧ Undrawn after ∧
      state = SensorState.after (b.publications ++ publications before) ∧
      (online = true ↔ LinkUp b.manager.iface (wifiActions (before ++ (.get, none) :: between)))

theorem Undrawn.concat {es : List PanelEvent} (h : Undrawn es) {e : PanelEvent}
    (he : e.1.draws = false) : Undrawn (es ++ [e]) := by
  intro x hx
  rcases List.mem_append.mp hx with hx | hx
  · exact h x hx
  · rw [List.mem_singleton.mp hx]
    exact he

/-- What was read stays read while the others go on. -/
theorem Reads.concat {b : Boot} {es : List PanelEvent} {point : MainPoint} (h : Reads b es point)
    {e : PanelEvent} (he : e.1.draws = false) : Reads b (es ++ [e]) point := by
  cases point with
  | get => trivial
  | online state =>
    obtain ⟨before, between, rfl, hbetween, hstate⟩ := h
    exact ⟨before, between ++ [e], by simp, hbetween.concat he, hstate⟩
  | render state online =>
    obtain ⟨before, between, after, rfl, hbetween, hafter, hread⟩ := h
    exact ⟨before, between, after ++ [e], by simp, hbetween, hafter.concat he, hread⟩

theorem run_reads {d : Device} {env : BootSurroundings} {b : Boot}
    (hmain : Boot.main d env = some b) {uptime : ℕ}
    (h : (machine parser arith).Run (start b uptime) es p) : Reads b es p.main := by
  induction h with
  | nil => trivial
  | @snoc p q es e hrun hstep ih =>
    obtain ⟨a, out⟩ := e
    obtain ⟨hstep, hout⟩ := hstep
    dsimp only at hstep hout
    have hknows := run_knows hmain hrun
    cases step_moves hstep with
    | get place =>
      obtain rfl : out = none := hout
      exact ⟨es, [], rfl, by simp [Undrawn], hknows.sensor_eq⟩
    | online place =>
      obtain rfl : out = none := hout
      rw [place] at ih
      obtain ⟨before, between, rfl, hbetween, hstate⟩ := ih
      refine ⟨before, between, [], rfl, hbetween, by simp [Undrawn], hstate, ?_⟩
      exact isConnected_iff.trans hknows.up_iff
    | render place => trivial
    | wifi | wait | poll | set | print | tick => exact ih.concat rfl

/-- Labels that tell what was published, whether Wi-Fi is up, and what time it is. -/
structure Shows (labels : Labels) (pubs : List Publication) (up : Prop) (now : ℤ) : Prop where
  blank : Publication.lastSample pubs = none →
    labels.value = ascii "--.--" ∧ labels.age = ascii "No data"
  value : ∀ value time, Publication.lastSample pubs = some (value, time) →
    IsTwoDigitDecimal value.toInt labels.value ∧ decodeCenti labels.value = value.toInt
  age : ∀ value time, Publication.lastSample pubs = some (value, time) → time ≤ now ∧
    (now < 2 ^ 63 → labels.age = decimal ((now - time) / 1000).toNat ++ ascii "s ago")
  offline : ¬ up → labels.status = ascii "Wi-Fi offline"
  failed : up → Publication.lastError pubs ≠ 0 → labels.status = ascii "API error"
  online : up → Publication.lastError pubs = 0 → labels.status = ascii "Wi-Fi online"

theorem shows_uiRender {pubs : List Publication} {up : Prop} {online : Bool}
    (hup : online = true ↔ up) {now : ℤ}
    (hpast : ∀ value time, .sample value time ∈ pubs → 0 ≤ time ∧ time ≤ now) :
    Shows (uiRender (SensorState.after pubs) online now) pubs up now := by
  have hstate := SensorState.after_eq pubs
  have hsample {value : Int32} {time : ℤ} (h : Publication.lastSample pubs = some (value, time)) :
      (SensorState.after pubs).valid = true ∧ (SensorState.after pubs).centiValue = value ∧
        (SensorState.after pubs).updatedMs = time := by simp [hstate, h]
  have herror : (SensorState.after pubs).error = Publication.lastError pubs := by simp [hstate]
  refine ⟨fun h => ?_, fun value time h => ?_, fun value time h => ?_, fun h => ?_, fun h he => ?_,
    fun h he => ?_⟩
  · have hvalid : ¬ (SensorState.after pubs).valid = true := by simp [hstate, h]
    simp [uiRender, hvalid]
  · obtain ⟨hvalid, hvalue, -⟩ := hsample h
    have hlabel := uiRender_value hvalid online now
    rw [hvalue] at hlabel
    exact ⟨hlabel, hlabel.decode⟩
  · obtain ⟨hvalid, -, htime⟩ := hsample h
    obtain ⟨hstart, hnow⟩ := hpast value time (Publication.mem_of_lastSample h)
    refine ⟨hnow, fun hlong => ?_⟩
    rw [uiRender_age hvalid online (by omega) (by omega), htime]
  · simp [uiRender, hup, h]
  · simp [uiRender, hup, h, herror, he]
  · simp [uiRender, hup, h, herror, he]

theorem past_publications {b : Boot} {es : List PanelEvent} {now : ℤ}
    (h : ∀ value time, .sample value time ∈ publications es → 0 ≤ time ∧ time ≤ now) :
    ∀ value time, .sample value time ∈ b.publications ++ publications es →
      0 ≤ time ∧ time ≤ now := by
  intro value time hmem
  rcases List.mem_append.mp hmem with hmem | hmem
  · unfold Boot.publications at hmem
    split_ifs at hmem <;> simp at hmem
  · exact h value time hmem

/-- A frame: three moments of the run, in this order, at which the pass has read
the sample and the connection and has drawn the labels. -/
structure Frame (b : Boot) (uptime : ℕ) (past : List PanelEvent) (labels : Labels) : Prop where
  shown : ∃ before between after,
    past = before ++ (.get, none) :: between ++ (.online, none) :: after ∧
    Undrawn between ∧ Undrawn after ∧
    Shows labels (b.publications ++ publications before)
      (LinkUp b.manager.iface (wifiActions (before ++ (.get, none) :: between)))
      (uptime + elapsed past)

theorem mem_publications_append {p : Publication} {es ds : List PanelEvent}
    (h : p ∈ publications es) : p ∈ publications (es ++ ds) := by
  rw [publications, List.filterMap_append, PollLoop.publications, List.filterMap_append]
  exact List.mem_append_left _ h

theorem frame_of_step {d : Device} {env : BootSurroundings} {b : Boot}
    (hmain : Boot.main d env = some b) {uptime : ℕ}
    (h : (machine parser arith).Run (start b uptime) es p)
    (hstep : step parser arith p .render = some q) : Frame b uptime es q.labels := by
  have hknows := run_knows hmain h
  have hreads := run_reads hmain h
  cases step_moves hstep with
  | @render state online place =>
    rw [place] at hreads
    obtain ⟨before, between, after, rfl, hbetween, hafter, rfl, hup⟩ := hreads
    refine ⟨before, between, after, rfl, hbetween, hafter, ?_⟩
    dsimp only
    rw [← hknows.uptime_eq]
    refine shows_uiRender hup (past_publications fun value time hmem => hknows.past value time ?_)
    rw [List.append_assoc]
    exact mem_publications_append hmem

/-- Every frame tells the truth. In every run from a boot, however the threads
interleave within a pass of the main loop, the labels tell the last sample and
the last error of the publications up to the moment at which the pass reads them,
whether Wi-Fi is up at a later moment of the pass, and the age at its end. -/
theorem frames_tell_truth {d : Device} {env : BootSurroundings} {b : Boot}
    (hmain : Boot.main d env = some b) {uptime : ℕ} {past : List PanelEvent}
    (h : (machine parser arith).Run (start b uptime) (past ++ [(.render, none)]) p) :
    Frame b uptime past p.labels := by
  obtain ⟨q, hrun, hstep, -⟩ := Machine.run_concat_iff.mp h
  exact frame_of_step hmain hrun hstep

/-- When the worker last looked, Wi-Fi was up. -/
def SawUp (b : Boot) (es : List PanelEvent) : Prop :=
  Since (fun past e => e.1.looks = true ∧ LinkUp b.manager.iface (wifiActions past))
    (fun e => e.1.waits = true) es

/-- A call that is about to return 0, and the attempt that follows it, have seen
Wi-Fi up. -/
structure Attempts (b : Boot) (es : List PanelEvent) (p : Panel) : Prop where
  started_eq : p.started = b.worker.isSome
  returning : p.ready.waiter = .returns 0 → SawUp b es
  attempting : 3 ≤ PollLoop.distance p.poll.point → SawUp b es

theorem SawUp.concat {b : Boot} {es : List PanelEvent} (h : SawUp b es) {e : PanelEvent}
    (he : e.1.waits = false) : SawUp b (es ++ [e]) :=
  (since_concat es e).mpr (Or.inr ⟨h, by simp [he]⟩)

/-- An attempt goes on, or begins with the result of the wait. -/
theorem attempt_step {s t : PollLoop} {e : PollAction} (h : s.step parser arith e = some t)
    (ht : 3 ≤ PollLoop.distance t.point) :
    3 ≤ PollLoop.distance s.point ∨ ∃ env, e = .waitReady env ∧ env.waitReady = 0 := by
  cases PollLoop.step_moves h with
  | requested => exact Or.inl (s.requestRefresh_distance ▸ ht)
  | taken place =>
    rcases s.takeSignal_cases with ⟨-, hpoint, -⟩ | ⟨-, hpoint, -⟩ <;>
      simp [hpoint, PollLoop.distance] at ht
  | offline place failed => exact Or.inl ht
  | @begun env place ready => exact Or.inr ⟨env, rfl, ready⟩
  | advanced inner before nearer => exact Or.inl (ht.trans nearer.le)
  | timedOut | left => simp [PollLoop.distance] at ht

theorem run_attempts {d : Device} {env : BootSurroundings} {b : Boot}
    (hmain : Boot.main d env = some b) {uptime : ℕ}
    (h : (machine parser arith).Run (start b uptime) es p) : Attempts b es p := by
  induction h with
  | nil =>
    refine ⟨rfl, ?_, ?_⟩
    · simp [start, ReadySystem.start]
    · simp [start, PollLoop.start, PollLoop.distance]
  | @snoc p q es e hrun hstep ih =>
    obtain ⟨a, out⟩ := e
    obtain ⟨hstep, -⟩ := hstep
    dsimp only at hstep
    have hup := (run_knows hmain hrun).up_iff
    cases step_moves hstep with
    | wifi h =>
      refine ⟨ih.started_eq, fun hreturns => ?_, fun h => (ih.attempting h).concat rfl⟩
      cases ReadySystem.step_moves h with
      | passed htake hu awake => exact (ih.returning hreturns).concat rfl
      | reset | given | slept => cases hreturns
    | @wait e ready own place h =>
      refine ⟨ih.started_eq, fun hreturns => ?_, fun hpoint => ?_⟩
      · have hseen (hlooks : PanelAction.looks (.wait e) = true)
            (hconnected : p.ready.Connected) : SawUp b (es ++ [(.wait e, out)]) :=
          (since_concat es _).mpr (Or.inl ⟨hlooks, hup.mp hconnected⟩)
        cases ReadySystem.step_moves h with
        | ready place connected => exact hseen rfl connected
        | @checked err place =>
          exact hseen rfl (waitReadyWoken_eq_zero_iff.mp (WaitPoint.returns.inj hreturns)).2
        | passed | reset | given | slept => cases own
        | unready | taken | blocks | timedOut | left => cases hreturns
      · simp [place, PollLoop.distance] at hpoint
    | @poll e poll allowed h =>
      refine ⟨ih.started_eq, fun hreturns => ?_, fun hpoint => ?_⟩
      · cases e with
        | waitReady env => cases hreturns
        | _ => exact (ih.returning hreturns).concat rfl
      · rcases attempt_step h hpoint with hbefore | ⟨env, rfl, hready⟩
        · exact (ih.attempting hbefore).concat rfl
        · obtain ⟨-, hwaiter⟩ := allowed
          rw [hready] at hwaiter
          exact (ih.returning hwaiter).concat rfl
    | set | print | tick | get | online | render =>
      exact ⟨ih.started_eq, fun h => (ih.returning h).concat rfl,
        fun h => (ih.attempting h).concat rfl⟩

theorem started_of_published {e : PollAction} {pub : Publication} (allowed : p.Allows e)
    (h : p.poll.published parser arith e = some pub) : p.started = true := by
  cases e with
  | request env => exact allowed.1
  | report => exact allowed
  | _ => cases h

/-- What a publication goes back to: a complete response to the request of the
configuration the boot has loaded, or an attempt that failed. -/
inductive Origin (parser : JsonParser) (arith : DoubleArith) (b : Boot) (uptime : ℕ)
    (past : List PanelEvent) : PanelAction → Publication → Prop
  | sample {env : Surroundings} {value : Int32}
      (clock : PollLoop.ClockSet b.device.config (past.filterMap poll?))
      (connects : env.Connects b.device.config) (delivers : env.Delivers b.device.config)
      (parses : ParsesTo parser arith (env.body b.device.config) value) :
      Origin parser arith b uptime past (.poll (.request env))
        (.sample value (uptime + elapsed past))
  | error {err : ℤ} (failed : err ≠ 0) :
      Origin parser arith b uptime past (.poll .report) (.error err)

/-- What a step that publishes goes back to. -/
theorem origin_of_step {d : Device} {env : BootSurroundings} {b : Boot}
    (hmain : Boot.main d env = some b) {uptime : ℕ} {a : PanelAction} {pub : Publication}
    (h : (machine parser arith).Run (start b uptime) es p)
    (hpublished : (machine parser arith).Step p (a, some pub) q) :
    b.worker = some b.device.config ∧ SawUp b es ∧ Origin parser arith b uptime es a pub := by
  obtain ⟨hstep, hout⟩ := hpublished
  dsimp only at hstep hout
  have hattempts := run_attempts hmain h
  have hknows := run_knows hmain h
  have hworker := PollLoop.run_tells rfl (run_poll h)
  cases step_moves hstep with
  | @poll e poll allowed hpoll =>
    obtain ⟨cfg, hcfg⟩ : ∃ cfg, b.worker = some cfg := by
      rw [← Option.isSome_iff_exists, ← hattempts.started_eq]
      exact started_of_published allowed hout.symm
    obtain rfl := (Boot.main_made hmain).worker_eq cfg hcfg
    have hconfig : (ApiClient.initial (b.worker.getD AppConfig.zero) b.sensor).config =
        b.device.config := by
      rw [hcfg]
      rfl
    have hclient := hworker.config_eq.trans hconfig
    refine ⟨hcfg, ?_⟩
    by_cases hrequest : ∀ env, e ≠ .request env
    · obtain ⟨rfl, err, hpoint, rfl, herr⟩ := PollLoop.published_report hout.symm hrequest
      exact ⟨hattempts.attempting (by rw [hpoint, PollLoop.distance]), .error herr⟩
    · push Not at hrequest
      obtain ⟨env, rfl⟩ := hrequest
      obtain ⟨err, hpoint⟩ := PollLoop.request_point hpoll
      obtain ⟨value, rfl, herr, hgood⟩ := (PollLoop.published_request hpoint env pub).mp hout.symm
      rw [hclient] at hgood
      obtain ⟨hconnects, hdelivers, hparses⟩ := hgood
      have hclock := hworker.timeReady_iff.mp ((hworker.cleared err hpoint).mp herr)
      rw [hconfig] at hclock
      refine ⟨hattempts.attempting (by simp [hpoint, PollLoop.distance]), ?_⟩
      rw [show env.uptime = uptime + elapsed es from allowed.2.trans hknows.uptime_eq]
      exact .sample hclock hconnects hdelivers hparses
  | wifi | wait | set | print | tick | get | online | render => cases hout

/-- Every number on the panel has an origin. In every run from a boot, each
publication comes from an attempt of the worker that saw Wi-Fi up in its wait; a
sample is the value of a complete response of status 200 that fits the buffer,
to the request of the configuration this boot has loaded, whatever was set since. -/
theorem publications_have_origins {d : Device} {env : BootSurroundings} {b : Boot}
    (hmain : Boot.main d env = some b) {uptime : ℕ} {past later : List PanelEvent} {a : PanelAction}
    {pub : Publication}
    (h : (machine parser arith).Run (start b uptime) (past ++ (a, some pub) :: later) p) :
    b.worker = some b.device.config ∧ SawUp b past ∧ Origin parser arith b uptime past a pub := by
  obtain ⟨q, r, hrun, hstep, -⟩ := h.step_mid
  exact origin_of_step hmain hrun hstep

/-- The panel connects, and the worker's first attempt gets no answer of the time
server. -/
def failedAttempt : List PanelAction :=
  [.wifi .test, .wifi .write, .wifi (.request 0),
    .wifi (.wifiEvent (some ⟨0⟩) .wifiConnectResult ⟨1⟩), .wifi .obtainLease,
    .wifi (.ipEvent .ipv4DhcpBound ⟨1⟩), .wait .test, .poll (.waitReady PollLoop.unsynchronized),
    .tick 5000, .poll (.synchronize PollLoop.unsynchronized),
    .poll (.request { PollLoop.unsynchronized with uptime := 5000 })]

/-- The attempt after it, up to the request that brings the document with 23.45. -/
def secondAttempt : List PanelAction :=
  failedAttempt ++ [.poll .report, .poll .take, .poll .timeout, .poll (.leave (-EAGAIN)),
    .wait .test, .poll (.waitReady ApiClient.sampleSurroundings),
    .poll (.synchronize ApiClient.sampleSurroundings)]

/-- A pass of the main loop that reads the sample a second later. -/
def secondFrame : List PanelAction :=
  secondAttempt ++ [.poll (.request ApiClient.sampleSurroundings), .tick 1000, .get, .online]

/-- A panel that was provisioned and booted, taken through these steps. -/
def provisioned (actions : List PanelAction) : Option Panel :=
  (Boot.provisioning.foldlM sessionStep Session.start).bind fun t =>
    (Boot.main t.device Boot.supportedBoard).bind fun b =>
      actions.foldlM (step ApiClient.sampleParser .exact) (start b 0)

theorem run_of_provisioned {actions : List PanelAction} {p : Panel}
    (h : provisioned actions = some p) : ∃ d b es, Boot.main d Boot.supportedBoard = some b ∧
      (machine ApiClient.sampleParser .exact).Run (start b 0) es p ∧ es.map Prod.fst = actions := by
  obtain ⟨t, -, h⟩ := Option.bind_eq_some_iff.mp h
  obtain ⟨b, hb, h⟩ := Option.bind_eq_some_iff.mp h
  obtain ⟨es, hrun, hes⟩ := (Machine.run_ofFn_iff.mpr h).observe
    (published ApiClient.sampleParser .exact)
  exact ⟨t.device, b, es, hb, hrun, hes⟩

theorem second_attempt_has_origin : ∃ d b es p, Boot.main d Boot.supportedBoard = some b ∧
    (machine ApiClient.sampleParser .exact).Run (start b 0)
      (es ++ [(.poll (.request ApiClient.sampleSurroundings), some (.sample 2345 5000))]) p ∧
    es.map Prod.fst = secondAttempt ∧ b.worker = some b.device.config ∧ SawUp b es ∧
    Origin ApiClient.sampleParser .exact b 0 es (.poll (.request ApiClient.sampleSurroundings))
      (.sample 2345 5000) := by
  have hrequest : (provisioned secondAttempt).map (fun p =>
      (published ApiClient.sampleParser .exact p (.poll (.request ApiClient.sampleSurroundings)),
        (step ApiClient.sampleParser .exact p
          (.poll (.request ApiClient.sampleSurroundings))).isSome)) =
      some (some (.sample 2345 5000), true) := by
    decide +kernel
  obtain ⟨p, hp, hpair⟩ := Option.map_eq_some_iff.mp hrequest
  obtain ⟨hout, hstep⟩ := Prod.ext_iff.mp hpair
  obtain ⟨q, hq⟩ := Option.isSome_iff_exists.mp hstep
  obtain ⟨d, b, es, hmain, hrun, hes⟩ := run_of_provisioned hp
  have hlast : (machine ApiClient.sampleParser .exact).Run (start b 0)
      (es ++ (.poll (.request ApiClient.sampleSurroundings), some (.sample 2345 5000)) :: []) q :=
    hrun.snoc ⟨hq, hout.symm⟩
  obtain ⟨hworker, hsaw, horigin⟩ := publications_have_origins hmain hlast
  exact ⟨d, b, es, q, hmain, hlast, hes, hworker, hsaw, horigin⟩

theorem second_frame_tells_truth : ∃ d b es p, Boot.main d Boot.supportedBoard = some b ∧
    (machine ApiClient.sampleParser .exact).Run (start b 0) (es ++ [(.render, none)]) p ∧
    es.map Prod.fst = secondFrame ∧ Frame b 0 es p.labels ∧
    p.labels = ⟨ascii "23.45", ascii "1s ago", ascii "Wi-Fi online"⟩ := by
  have hframe : ((provisioned secondFrame).bind fun p =>
      step ApiClient.sampleParser .exact p .render).map Panel.labels =
      some ⟨ascii "23.45", ascii "1s ago", ascii "Wi-Fi online"⟩ := by
    decide +kernel
  obtain ⟨q, hq, hlabels⟩ := Option.map_eq_some_iff.mp hframe
  obtain ⟨p, hp, hstep⟩ := Option.bind_eq_some_iff.mp hq
  obtain ⟨d, b, es, hmain, hrun, hes⟩ := run_of_provisioned hp
  have hlast : (machine ApiClient.sampleParser .exact).Run (start b 0)
      (es ++ [(.render, none)]) q := hrun.snoc ⟨hstep, rfl⟩
  exact ⟨d, b, es, q, hmain, hlast, hes, frames_tell_truth hmain hlast, hlabels⟩

end Panel

end SensorPanel
