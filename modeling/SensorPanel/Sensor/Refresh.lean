import SensorPanel.Library.Sync
import SensorPanel.Sensor.Polling

/-!
# Refresh requests

The button and the shell give one semaphore, and the worker takes it between two
polls. A request finds the worker anywhere: it ends a wait that is under way, or
leaves the one token behind, and further requests are coalesced with it. The
loop of `poll_api` is cut here at each of its calls, so that requests may fall
between any two of them.
-/

namespace SensorPanel

open Library

/-- Where the thread of `poll_api` stands; an iteration carries its error along. -/
inductive PollPoint
  | waitReady
  | synchronize
  | request (err : ℤ)
  | report (err : ℤ)
  | waitRefresh
  | blocked
  | woken (err : ℤ)
  deriving DecidableEq, Repr

/-- The worker's variables, its place and `refresh_signal`. -/
structure PollLoop where
  client : ApiClient
  point : PollPoint
  refreshSignal : Semaphore 1

/-- A request from another thread, or a step of the worker. `take` enters the wait,
which a request or the timeout ends, and `leave` returns from it. -/
inductive PollAction
  | requestRefresh
  | waitReady (env : Surroundings)
  | synchronize (env : Surroundings)
  | request (env : Surroundings)
  | report
  | take
  | timeout
  | leave (err : ℤ)

namespace PollAction

def Begins (e : PollAction) : Prop := ∃ env, e = .waitReady env ∧ env.waitReady = 0

def Leaves (e : PollAction) : Prop := ∃ err, e = .leave err

def isRequest : PollAction → Bool
  | .requestRefresh => true
  | _ => false

/-- `sensor_wait_refresh` returns 0: the wait ended by a token. -/
def byToken : PollAction → Bool
  | .leave err => err = 0
  | _ => false

/-- A step of the worker other than waiting for Wi-Fi. -/
def advances : PollAction → Bool
  | .requestRefresh | .waitReady _ => false
  | _ => true

end PollAction

namespace PollLoop

variable (parser : JsonParser) (arith : DoubleArith)

def start (client : ApiClient) : PollLoop where
  client := client
  point := .waitReady
  refreshSignal := Semaphore.empty

/-- `sensor_request_refresh`: the token goes to the thread that waits for it. -/
def requestRefresh (s : PollLoop) : PollLoop :=
  if s.point = .blocked then { s with point := .woken 0 }
  else { s with refreshSignal := s.refreshSignal.give }

/-- `k_sem_take` of `sensor_wait_refresh`: it finds the token, or blocks. -/
def takeSignal (s : PollLoop) : PollLoop :=
  match s.refreshSignal.take with
  | some signal => { s with refreshSignal := signal, point := .woken 0 }
  | none => { s with point := .blocked }

def synchronizeStep (s : PollLoop) (env : Surroundings) : PollLoop :=
  let err := if s.client.timeReady then 0 else ApiClient.synchronizeTime s.client.config env
  { s with
    client := { s.client with timeReady := if s.client.timeReady then true else err = 0 }
    point := .request err }

def step (s : PollLoop) : PollAction → Option PollLoop
  | .requestRefresh => some s.requestRefresh
  | .waitReady env =>
    if s.point = .waitReady then
      some (if env.waitReady ≠ 0 then s else { s with point := .synchronize })
    else none
  | .synchronize env => if s.point = .synchronize then some (s.synchronizeStep env) else none
  | .request env =>
    match s.point with
    | .request err =>
      if err = 0 then
        (ApiClient.requestSample parser arith s.client env).map fun r =>
          { s with client := r.2.1, point := .report r.1 }
      else some { s with point := .report err }
    | _ => none
  | .report =>
    match s.point with
    | .report err =>
      some { s with
        client := (ApiClient.reportError (err, s.client, none)).client
        point := .waitRefresh }
    | _ => none
  | .take => if s.point = .waitRefresh then some s.takeSignal else none
  | .timeout => if s.point = .blocked then some { s with point := .woken (-EAGAIN) } else none
  | .leave err => if s.point = .woken err then some { s with point := .waitReady } else none

def machine : Machine PollLoop PollAction := Machine.ofFn (step parser arith)

variable {parser : JsonParser} {arith : DoubleArith} {s t : PollLoop} {e : PollAction}
  {es : List PollAction}

/-- How many steps of the worker lie between a point and its next poll attempt. -/
def distance : PollPoint → ℕ
  | .waitReady => 0
  | .woken _ | .blocked => 1
  | .waitRefresh => 2
  | .report _ => 3
  | .request _ => 4
  | .synchronize => 5

/-- What a step does to the worker's place and to the token. Between two waits the
worker only comes nearer to its next wait. -/
inductive Moves (s : PollLoop) : PollAction → PollLoop → Prop
  | requested : Moves s .requestRefresh s.requestRefresh
  | taken (place : s.point = .waitRefresh) : Moves s .take s.takeSignal
  | timedOut (place : s.point = .blocked) :
      Moves s .timeout { s with point := .woken (-EAGAIN) }
  | left {err : ℤ} (place : s.point = .woken err) :
      Moves s (.leave err) { s with point := .waitReady }
  | offline {env : Surroundings} (place : s.point = .waitReady) (failed : env.waitReady ≠ 0) :
      Moves s (.waitReady env) s
  | begun {env : Surroundings} (place : s.point = .waitReady) (ready : env.waitReady = 0) :
      Moves s (.waitReady env) { s with point := .synchronize }
  | advanced {e : PollAction} {client : ApiClient} {point : PollPoint}
      (inner : ¬ e.Begins ∧ ¬ e.Leaves ∧ e.isRequest = false ∧ e.byToken = false)
      (before : 2 ≤ distance point) (nearer : distance point < distance s.point) :
      Moves s e { s with client := client, point := point }

theorem step_moves (h : step parser arith s e = some t) : Moves s e t := by
  have hinner : ∀ e : PollAction, (∀ env, e ≠ .waitReady env) → (∀ err, e ≠ .leave err) →
      e ≠ .requestRefresh →
        ¬ e.Begins ∧ ¬ e.Leaves ∧ e.isRequest = false ∧ e.byToken = false := by
    intro e hbegin hleave hrequest
    refine ⟨fun ⟨env, he, _⟩ => hbegin env he, fun ⟨err, he⟩ => hleave err he, ?_, ?_⟩
    · cases e <;> first | rfl | exact absurd rfl hrequest
    · cases e <;> first | rfl | exact absurd rfl (hleave _)
  cases e with
  | requestRefresh =>
    obtain rfl := Option.some.inj h
    exact .requested
  | waitReady env =>
    simp only [step] at h
    split_ifs at h with hplace hfailed
    · obtain rfl := Option.some.inj h
      exact .offline hplace hfailed
    · obtain rfl := Option.some.inj h
      exact .begun hplace (not_not.mp hfailed)
  | synchronize env =>
    simp only [step] at h
    split_ifs at h with hplace
    obtain rfl := Option.some.inj h
    exact .advanced (hinner _ (by simp) (by simp) (by simp)) (by simp [distance])
      (by simp [distance, hplace])
  | request env =>
    simp only [step] at h
    split at h
    · next err hplace =>
      split_ifs at h with herr
      · obtain ⟨r, -, rfl⟩ := Option.map_eq_some_iff.mp h
        exact .advanced (hinner _ (by simp) (by simp) (by simp)) (by simp [distance])
          (by simp [distance, hplace])
      · obtain rfl := Option.some.inj h
        have hnearer : distance (.report err) < distance s.point := by simp [distance, hplace]
        exact Moves.advanced (hinner _ (by simp) (by simp) (by simp)) (by simp [distance]) hnearer
    · cases h
  | report =>
    simp only [step] at h
    split at h
    · next err hplace =>
      obtain rfl := Option.some.inj h
      exact .advanced (hinner _ (by simp) (by simp) (by simp)) (by simp [distance])
        (by simp [distance, hplace])
    · cases h
  | take =>
    simp only [step] at h
    split_ifs at h with hplace
    obtain rfl := Option.some.inj h
    exact .taken hplace
  | timeout =>
    simp only [step] at h
    split_ifs at h with hplace
    obtain rfl := Option.some.inj h
    exact .timedOut hplace
  | leave err =>
    simp only [step] at h
    split_ifs at h with hplace
    obtain rfl := Option.some.inj h
    exact .left hplace

/-- Some request came after the last event that `stop` names, or after the start. -/
def RequestedSince (stop : PollAction → Prop) (es : List PollAction) : Prop :=
  Since (fun _ e => e = .requestRefresh) stop es

def Woken (s : PollLoop) : Prop := ∃ err, s.point = .woken err

/-- The token is there and the worker is not asleep. -/
def Signalled (s : PollLoop) : Prop := s.point ≠ .blocked ∧ s.refreshSignal.count = 1

/-- The worker has been told of a request, or will be as it enters its wait. -/
def Heard (s : PollLoop) : Prop := s.Woken ∨ s.Signalled

/-- Tokens that have been given and that no wait has returned yet. -/
def owed (s : PollLoop) : ℕ := s.refreshSignal.count + if s.point = .woken 0 then 1 else 0

theorem requestRefresh_heard (s : PollLoop) : s.requestRefresh.Heard := by
  unfold requestRefresh
  split_ifs with h
  · exact Or.inl ⟨0, rfl⟩
  · exact Or.inr ⟨h, Semaphore.give_count_one _⟩

theorem requestRefresh_owed (s : PollLoop) : s.requestRefresh.owed ≤ s.owed + 1 := by
  unfold requestRefresh
  split_ifs with hblocked
  · simp [owed, hblocked]
  · have hgive := s.refreshSignal.give_count_le
    simp only [owed]
    omega

theorem takeSignal_cases (s : PollLoop) :
    (s.refreshSignal.count = 1 ∧ s.takeSignal.point = .woken 0 ∧
      s.takeSignal.refreshSignal.count = 0) ∨
    (s.refreshSignal.count = 0 ∧ s.takeSignal.point = .blocked ∧
      s.takeSignal.refreshSignal = s.refreshSignal) := by
  have hle := s.refreshSignal.le_limit
  by_cases h : s.refreshSignal.count = 0
  · right
    simp [takeSignal, Semaphore.take, h]
  · left
    have hone : s.refreshSignal.count = 1 := by omega
    simp [takeSignal, Semaphore.take, hone]

/-- A wait that returns 0 pays with a token that a request gave. -/
theorem Moves.owed (h : Moves s e t) : t.owed + (if e.byToken = true then 1 else 0) ≤
    s.owed + if e.isRequest = true then 1 else 0 := by
  cases h with
  | requested => exact s.requestRefresh_owed
  | taken place =>
    rcases s.takeSignal_cases with ⟨hcount, hpoint, hleft⟩ | ⟨hcount, hpoint, hleft⟩
    · simp [PollLoop.owed, place, hcount, hpoint, hleft, PollAction.byToken, PollAction.isRequest]
    · simp [PollLoop.owed, place, hcount, hpoint, hleft, PollAction.byToken, PollAction.isRequest]
  | timedOut place =>
    simp [PollLoop.owed, place, PollAction.byToken, PollAction.isRequest, EAGAIN]
  | @left err place =>
    by_cases herr : err = 0 <;>
      simp [PollLoop.owed, place, herr, PollAction.byToken, PollAction.isRequest]
  | offline place failed => simp [PollAction.byToken, PollAction.isRequest]
  | begun place ready => simp [PollLoop.owed, place, PollAction.byToken, PollAction.isRequest]
  | @advanced _ client point inner before nearer =>
    have hpoint : point ≠ .woken 0 := by
      rintro rfl
      simp [distance] at before
    simp [PollLoop.owed, hpoint, inner.2.2.1, inner.2.2.2]

theorem signalled_of_heard (hs : s.Heard) (hplace : ∀ err, s.point ≠ .woken err) :
    s.Signalled := by
  rcases hs with ⟨err, herr⟩ | hs
  · exact absurd herr (hplace err)
  · exact hs

theorem not_blocked_of_heard (hs : s.Heard) : s.point ≠ .blocked := fun hblocked =>
  (signalled_of_heard hs (by simp [hblocked])).1 hblocked

theorem not_blocked_of_attended (hs : s.point = .waitReady ∨ s.Heard) : s.point ≠ .blocked := by
  rcases hs with hplace | hs
  · simp [hplace]
  · exact not_blocked_of_heard hs

theorem Moves.heard_of_request (h : Moves s .requestRefresh t) : t.Heard := by
  cases h with
  | requested => exact s.requestRefresh_heard
  | advanced inner before nearer => exact absurd inner.2.2.1 (by simp [PollAction.isRequest])

theorem Moves.heard (h : Moves s e t) (hs : s.Heard) (hstop : ¬ e.Leaves) : t.Heard := by
  cases h with
  | requested => exact s.requestRefresh_heard
  | taken place =>
    have hcount := (signalled_of_heard hs (by simp [place])).2
    rcases s.takeSignal_cases with ⟨-, hpoint, -⟩ | ⟨hzero, -, -⟩
    · exact Or.inl ⟨0, hpoint⟩
    · omega
  | timedOut place => exact Or.inl ⟨_, rfl⟩
  | left place => exact absurd ⟨_, rfl⟩ hstop
  | offline place failed => exact hs
  | begun place ready => exact Or.inr ⟨by simp, (signalled_of_heard hs (by simp [place])).2⟩
  | @advanced _ client point inner before nearer =>
    have hplace : ∀ err, s.point ≠ .woken err := by
      intro err herr
      have hdistance : distance s.point = 1 := by rw [herr]; rfl
      omega
    have hpoint : point ≠ .blocked := by
      rintro rfl
      simp [distance] at before
    exact Or.inr ⟨hpoint, (signalled_of_heard hs hplace).2⟩

theorem Moves.attended (h : Moves s e t) (hs : s.point = .waitReady ∨ s.Heard)
    (hstop : ¬ e.Begins) : t.point = .waitReady ∨ t.Heard := by
  by_cases hleave : e.Leaves
  · left
    obtain ⟨err, rfl⟩ := hleave
    cases h with
    | left place => rfl
    | advanced inner before nearer => exact absurd ⟨err, rfl⟩ inner.2.1
  · rcases hs with hplace | hs
    · cases h with
      | requested => exact Or.inr s.requestRefresh_heard
      | taken place => simp [hplace] at place
      | timedOut place => simp [hplace] at place
      | left place => simp [hplace] at place
      | offline place failed => exact Or.inl hplace
      | begun place ready => exact absurd ⟨_, rfl, ready⟩ hstop
      | advanced inner before nearer => simp [hplace, distance] at nearer
    · exact Or.inr (h.heard hs hleave)

theorem requestRefresh_distance (s : PollLoop) :
    distance s.requestRefresh.point = distance s.point := by
  unfold requestRefresh
  split_ifs with h
  · rw [h]
    rfl
  · rfl

/-- What the worker does after a request brings it nearer to its next attempt. -/
theorem Moves.nearer (h : Moves s e t) (hs : s.point = .waitReady ∨ s.Heard)
    (hstop : ¬ e.Begins) :
    distance t.point + (if e.advances = true then 1 else 0) ≤ distance s.point := by
  cases h with
  | requested => simp [PollAction.advances, requestRefresh_distance]
  | taken place =>
    have hnear : distance s.takeSignal.point = 1 := by
      rcases s.takeSignal_cases with ⟨-, hpoint, -⟩ | ⟨-, hpoint, -⟩ <;> rw [hpoint] <;> rfl
    rw [hnear, place]
    decide
  | timedOut place => exact absurd place (not_blocked_of_attended hs)
  | left place => simp [place, distance, PollAction.advances]
  | offline place failed => simp [PollAction.advances]
  | begun place ready => exact absurd ⟨_, rfl, ready⟩ hstop
  | advanced inner before nearer =>
    dsimp only
    split_ifs <;> omega

/-- The worker against the history of the run. -/
structure Tracks (es : List PollAction) (s : PollLoop) : Prop where
  unserved : RequestedSince PollAction.Leaves es → s.Heard
  unattended : RequestedSince PollAction.Begins es → s.point = .waitReady ∨ s.Heard
  paid : es.countP PollAction.byToken + s.owed ≤ es.countP PollAction.isRequest

theorem start_tracks (client : ApiClient) : Tracks [] (start client) where
  unserved h := absurd h not_since_nil
  unattended h := absurd h not_since_nil
  paid := by simp [owed, start]

theorem Moves.tracks (h : Moves s e t) (hs : Tracks es s) : Tracks (es ++ [e]) t where
  unserved hreq := by
    rcases (since_concat es e).mp hreq with rfl | ⟨hreq, hstop⟩
    · exact h.heard_of_request
    · exact h.heard (hs.unserved hreq) hstop
  unattended hreq := by
    rcases (since_concat es e).mp hreq with rfl | ⟨hreq, hstop⟩
    · exact Or.inr h.heard_of_request
    · exact h.attended (hs.unattended hreq) hstop
  paid := by
    have hpaid := hs.paid
    have howed := h.owed
    rw [List.countP_append, List.countP_append, List.countP_singleton, List.countP_singleton]
    omega

theorem run_tracks {client : ApiClient} (h : (machine parser arith).Run (start client) es s) :
    Tracks es s :=
  h.history_invariant (start_tracks client) fun _ _ _ _ hs hstep => (step_moves hstep).tracks hs

theorem reportError_client (err : ℤ) (client : ApiClient) (stored : Option Int32) :
    (ApiClient.reportError (err, client, stored)).client =
      (ApiClient.reportError (err, client, none)).client := by
  unfold ApiClient.reportError
  dsimp only
  split_ifs <;> rfl

/-- Uninterrupted, the steps between two waits are one iteration of the loop. -/
theorem iteration_steps {client : ApiClient} (signal : Semaphore 1) {env : Surroundings}
    (hready : env.waitReady = 0) {o : ApiClient.Outcome}
    (ho : ApiClient.pollIteration parser arith client env = some o) :
    (machine parser arith).Run ⟨client, .waitReady, signal⟩
      [.waitReady env, .synchronize env, .request env, .report]
      ⟨o.client, .waitRefresh, signal⟩ := by
  set err := if client.timeReady then 0 else ApiClient.synchronizeTime client.config env
  set clocked := { client with timeReady := if client.timeReady then true else decide (err = 0) }
  rw [ApiClient.pollIteration, if_neg (not_not.mpr hready)] at ho
  obtain ⟨r, hr, rfl⟩ := Option.map_eq_some_iff.mp ho
  have hbegin : step parser arith ⟨client, .waitReady, signal⟩ (.waitReady env) =
      some ⟨client, .synchronize, signal⟩ := by
    simp [step, hready]
  have hsynchronize : step parser arith ⟨client, .synchronize, signal⟩ (.synchronize env) =
      some ⟨clocked, .request err, signal⟩ := rfl
  have hrequest : step parser arith ⟨clocked, .request err, signal⟩ (.request env) =
      some ⟨r.2.1, .report r.1, signal⟩ := by
    by_cases herr : err = 0
    · have hsample : ApiClient.requestSample parser arith clocked env = some r :=
        (if_pos herr).symm.trans hr
      simp [step, herr, hsample]
    · have hfailed : (err, clocked, none) = r := Option.some.inj ((if_neg herr).symm.trans hr)
      rw [← hfailed]
      exact if_neg herr
  have hreport : step parser arith ⟨r.2.1, .report r.1, signal⟩ .report =
      some ⟨(ApiClient.reportError r).client, .waitRefresh, signal⟩ := by
    rw [show r = (r.1, r.2.1, r.2.2) from rfl, reportError_client]
    rfl
  exact (((Machine.Run.single hbegin).snoc hsynchronize).snoc hrequest).snoc hreport

theorem exists_own_step (hs : s.Heard) (hplace : s.point ≠ .waitReady) (env : Surroundings) :
    ∃ e t, step parser arith s e = some t ∧ e.advances = true ∧ e ≠ .timeout := by
  cases hpoint : s.point with
  | waitReady => exact absurd hpoint hplace
  | synchronize => exact ⟨.synchronize env, _, if_pos hpoint, rfl, by simp⟩
  | request err =>
    obtain ⟨r, hr, -⟩ := ApiClient.requestSample_ends parser arith s.client env
    by_cases herr : err = 0
    · exact ⟨.request env, { s with client := r.2.1, point := .report r.1 },
        by simp [step, hpoint, herr, hr], rfl, by simp⟩
    · exact ⟨.request env, { s with point := .report err }, by simp [step, hpoint, herr],
        rfl, by simp⟩
  | report err => exact ⟨.report, _, by simp only [step, hpoint]; rfl, rfl, by simp⟩
  | waitRefresh => exact ⟨.take, _, if_pos hpoint, rfl, by simp⟩
  | blocked => exact absurd hpoint (not_blocked_of_heard hs)
  | woken err => exact ⟨.leave err, _, if_pos hpoint, rfl, by simp⟩

/-- The worker alone reaches its next poll attempt, and waits for no timeout. -/
def ReachesAttempt (parser : JsonParser) (arith : DoubleArith) (s : PollLoop)
    (env : Surroundings) : Prop :=
  ∃ es t, (machine parser arith).Run s (es ++ [.waitReady env]) t ∧ t.point = .synchronize ∧
    ∀ e ∈ es, e ≠ .requestRefresh ∧ e ≠ .timeout

theorem reachesAttempt_of_heard (hs : s.point = .waitReady ∨ s.Heard) {env : Surroundings}
    (hready : env.waitReady = 0) : ReachesAttempt parser arith s env := by
  induction hd : distance s.point using Nat.strong_induction_on generalizing s with
  | _ d ih =>
    by_cases hplace : s.point = .waitReady
    · refine ⟨[], { s with point := .synchronize }, ?_, rfl, by simp⟩
      exact Machine.Run.single (by simp [machine, step, hplace, hready])
    · obtain ⟨e, t, hstep, hadvances, htimeout⟩ :=
        exists_own_step (hs.resolve_left hplace) hplace env
      have hbegin : ¬ e.Begins := by
        rintro ⟨env, rfl, -⟩
        simp [PollAction.advances] at hadvances
      have hrequest : e ≠ .requestRefresh := by
        rintro rfl
        simp [PollAction.advances] at hadvances
      have hmoves := step_moves hstep
      have hnearer := hmoves.nearer hs hbegin
      rw [if_pos hadvances] at hnearer
      obtain ⟨es, u, hrun, hu, hown⟩ :=
        ih (distance t.point) (by omega) (hmoves.attended hs hbegin) rfl
      refine ⟨e :: es, u, ?_, hu, ?_⟩
      · exact (Machine.Run.single hstep).trans hrun
      · intro x hx
        rcases List.mem_cons.mp hx with rfl | hx
        · exact ⟨hrequest, htimeout⟩
        · exact hown x hx

/-- The worker times out of its wait only when it is blocked in it. -/
theorem blocked_of_timeout (h : step parser arith s .timeout = some t) : s.point = .blocked := by
  simp only [step] at h
  split_ifs at h with hplace
  exact hplace

/-- Between a request and the next poll attempt no poll interval is waited out. -/
theorem no_timeout_after_request {client : ApiClient} {past later : List PollAction}
    (h : (machine parser arith).Run (start client) (past ++ .requestRefresh :: later) s)
    (hbegin : ∀ e ∈ later, ¬ e.Begins) : .timeout ∉ later := by
  intro htimeout
  obtain ⟨front, back, rfl⟩ := List.append_of_mem htimeout
  have hsplit : past ++ .requestRefresh :: (front ++ .timeout :: back) =
      past ++ .requestRefresh :: front ++ [.timeout] ++ back := by simp
  rw [hsplit, Machine.run_append_iff] at h
  obtain ⟨u, hrun, -⟩ := h
  obtain ⟨v, hrun, hstep⟩ := Machine.run_concat_iff.mp hrun
  have hrequest : RequestedSince PollAction.Begins (past ++ .requestRefresh :: front) :=
    ⟨past, .requestRefresh, front, rfl, rfl, fun e he => hbegin e (by simp [he])⟩
  exact not_blocked_of_attended ((run_tracks hrun).unattended hrequest) (blocked_of_timeout hstep)

theorem distance_le (p : PollPoint) : distance p ≤ 5 := by
  cases p <;> simp [distance]

/-- Between a request and the next poll attempt the worker takes at most five steps
besides waiting for Wi-Fi, however the requests fall between them. -/
theorem steps_after_request {client : ApiClient} {past later : List PollAction}
    (h : (machine parser arith).Run (start client) (past ++ .requestRefresh :: later) s)
    (hbegin : ∀ e ∈ later, ¬ e.Begins) :
    distance s.point + later.countP PollAction.advances ≤ 5 := by
  induction later using List.reverseRecOn generalizing s with
  | nil => exact distance_le s.point
  | append_singleton later e ih =>
    rw [← List.cons_append, ← List.append_assoc] at h
    obtain ⟨u, hrun, hstep⟩ := Machine.run_concat_iff.mp h
    have hlater : ∀ e ∈ later, ¬ e.Begins := fun e he => hbegin e (by simp [he])
    have hattended := (run_tracks hrun).unattended ⟨past, _, later, rfl, rfl, hlater⟩
    have hnearer := (step_moves hstep).nearer hattended (hbegin e (by simp))
    have hcount := ih hrun hlater
    rw [List.countP_append, List.countP_singleton]
    omega

/-- No refresh request is lost and none is invented. After a request the worker is
not blocked in its wait until it has returned from one, nor until its next poll
attempt begins, which it reaches by itself, before any timeout and within five
steps besides waiting for Wi-Fi; and there are never more waits that ended by a
token, with those still to return, than requests. -/
theorem no_refresh_lost {client : ApiClient}
    (h : (machine parser arith).Run (start client) es s) :
    (RequestedSince PollAction.Leaves es → s.point ≠ .blocked) ∧
    (RequestedSince PollAction.Begins es → s.point ≠ .blocked ∧
      ∀ env : Surroundings, env.waitReady = 0 → ReachesAttempt parser arith s env) ∧
    (∀ past later, es = past ++ .requestRefresh :: later → (∀ e ∈ later, ¬ e.Begins) →
      .timeout ∉ later ∧ later.countP PollAction.advances ≤ 5) ∧
    es.countP PollAction.byToken + s.owed ≤ es.countP PollAction.isRequest := by
  have htracks := run_tracks h
  refine ⟨?_, fun hrequest => ⟨?_, ?_⟩, ?_, ?_⟩
  · intro hrequest
    exact not_blocked_of_heard (htracks.unserved hrequest)
  · exact not_blocked_of_attended (htracks.unattended hrequest)
  · intro env hready
    exact reachesAttempt_of_heard (htracks.unattended hrequest) hready
  · rintro past later rfl hbegin
    have hsteps := steps_after_request h hbegin
    exact ⟨no_timeout_after_request h hbegin, by omega⟩
  · exact htracks.paid

def unsynchronized : Surroundings := { ApiClient.sampleSurroundings with sntp := fun _ => -EAGAIN }

/-- Two requests during an iteration, which end the wait behind it by one token. -/
def pressedTwice : List PollAction :=
  [.waitReady unsynchronized, .synchronize unsynchronized, .requestRefresh, .request unsynchronized,
    .requestRefresh, .report, .take, .leave 0]

theorem pressed_twice_polls_again : ∃ s, (machine ApiClient.sampleParser .exact).Run
      (start (ApiClient.initial AppConfig.defaults .boot)) pressedTwice s ∧
    s.point ≠ .blocked ∧ ReachesAttempt ApiClient.sampleParser .exact s unsynchronized ∧
    pressedTwice.countP PollAction.byToken = 1 := by
  have hrun : (machine ApiClient.sampleParser .exact).Run
      (start (ApiClient.initial AppConfig.defaults .boot)) pressedTwice _ :=
    Machine.run_ofFn_iff.mpr rfl
  obtain ⟨-, hattempt, -⟩ := no_refresh_lost hrun
  obtain ⟨hawake, hreaches⟩ := hattempt
    ⟨[.waitReady unsynchronized, .synchronize unsynchronized], .requestRefresh, _, rfl, rfl,
      by simp [PollAction.Begins]⟩
  exact ⟨_, hrun, hawake, hreaches _ rfl, by decide⟩

end PollLoop

end SensorPanel
