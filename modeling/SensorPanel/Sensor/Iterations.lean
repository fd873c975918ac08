import SensorPanel.Sensor.Refresh

/-!
# The loop of `poll_api`, call by call and iteration by iteration

The worker is modelled twice: as iterations that run at once, each with the
answers of all its calls, and as single calls between which others go on. A run
of single calls is a run of the iterations whose ends it contains, with the
answers its calls were given, and there are no other runs of iterations.
-/

namespace SensorPanel

open Library

namespace PollLoop

/-- The answers of the iterations that are over, and so far those of the one
that is not. -/
structure Answers where
  finished : List Surroundings
  current : Option Surroundings

namespace Answers

/-- The iteration that is under way takes its answers from three calls: the wait,
the clock and the request. -/
def add (a : Answers) : PollAction → Answers
  | .waitReady env =>
    if env.waitReady ≠ 0 then { a with finished := a.finished ++ [env] }
    else { a with current := some env }
  | .synchronize env =>
    { a with current := a.current.map fun ready =>
        { ready with sntp := env.sntp, clockSettime := env.clockSettime } }
  | .request env =>
    { a with current := a.current.map fun clock =>
        { env with
          waitReady := clock.waitReady
          sntp := clock.sntp
          clockSettime := clock.clockSettime } }
  | .report => ⟨a.finished ++ a.current.toList, none⟩
  | _ => a

end Answers

def answers (es : List PollAction) : Answers := es.foldl Answers.add ⟨[], none⟩

theorem answers_concat (es : List PollAction) (e : PollAction) :
    answers (es ++ [e]) = (answers es).add e := by
  rw [answers, List.foldl_append]
  rfl

variable (parser : JsonParser) (arith : DoubleArith)

def clockError (c : ApiClient) (env : Surroundings) : ℤ :=
  if c.timeReady then 0 else ApiClient.synchronizeTime c.config env

/-- The variables once the clock is set, or not. -/
def clocked (c : ApiClient) (env : Surroundings) : ApiClient :=
  { c with timeReady := if c.timeReady then true else clockError c env = 0 }

def attempt (c : ApiClient) (env : Surroundings) : Option (ℤ × ApiClient × Option Int32) :=
  if clockError c env = 0 then ApiClient.requestSample parser arith (clocked c env) env
  else some (clockError c env, clocked c env, none)

variable {parser : JsonParser} {arith : DoubleArith} {s t : PollLoop} {e : PollAction}

theorem pollIteration_attempt {c : ApiClient} {env : Surroundings} (hready : env.waitReady = 0) :
    ApiClient.pollIteration parser arith c env =
      (attempt parser arith c env).map ApiClient.reportError :=
  if_neg (not_not.mpr hready)

/-- Where the loop is, seen from the variables `c` of the last iteration that is over. -/
inductive Within (parser : JsonParser) (arith : DoubleArith) (c : ApiClient) :
    Option Surroundings → PollLoop → Prop
  | between {env : Option Surroundings} {s : PollLoop} (place : distance s.point ≤ 2)
      (same : s.client = c) : Within parser arith c env s
  | synchronizing {env : Surroundings} {s : PollLoop} (ready : env.waitReady = 0)
      (place : s.point = .synchronize) (same : s.client = c) : Within parser arith c (some env) s
  | requesting {env : Surroundings} {s : PollLoop} (ready : env.waitReady = 0)
      (place : s.point = .request (clockError c env)) (client : s.client = clocked c env) :
      Within parser arith c (some env) s
  | reporting {env : Surroundings} {s : PollLoop} {r : ℤ × ApiClient × Option Int32}
      (ready : env.waitReady = 0) (place : s.point = .report r.1) (client : s.client = r.2.1)
      (result : attempt parser arith c env = some r) : Within parser arith c (some env) s

namespace Within

variable {c : ApiClient} {cur : Option Surroundings}

theorem congr (h : Within parser arith c cur s) (hpoint : t.point = s.point)
    (hclient : t.client = s.client) : Within parser arith c cur t := by
  cases h with
  | between place same => exact .between (hpoint ▸ place) (hclient.trans same)
  | synchronizing ready place same =>
    exact .synchronizing ready (hpoint.trans place) (hclient.trans same)
  | requesting ready place client =>
    exact .requesting ready (hpoint.trans place) (hclient.trans client)
  | reporting ready place client result =>
    exact .reporting ready (hpoint.trans place) (hclient.trans client) result

/-! What each place of the loop tells. -/

theorem at_rest (h : Within parser arith c cur s) (hplace : distance s.point ≤ 2) :
    s.client = c := by
  cases h with
  | between place same => exact same
  | synchronizing ready place => simp [place, distance] at hplace
  | requesting ready place => simp [place, distance] at hplace
  | reporting ready place => simp [place, distance] at hplace

theorem at_synchronize (h : Within parser arith c cur s) (hplace : s.point = .synchronize) :
    ∃ env, cur = some env ∧ env.waitReady = 0 ∧ s.client = c := by
  cases h with
  | between place => simp [hplace, distance] at place
  | synchronizing ready place same => exact ⟨_, rfl, ready, same⟩
  | requesting ready place => simp [hplace] at place
  | reporting ready place => simp [hplace] at place

theorem at_request (h : Within parser arith c cur s) {err : ℤ} (hplace : s.point = .request err) :
    ∃ env, cur = some env ∧ env.waitReady = 0 ∧ err = clockError c env ∧
      s.client = clocked c env := by
  cases h with
  | between place => simp [hplace, distance] at place
  | synchronizing ready place => simp [hplace] at place
  | requesting ready place client =>
    exact ⟨_, rfl, ready, PollPoint.request.inj (hplace.symm.trans place), client⟩
  | reporting ready place => simp [hplace] at place

theorem at_report (h : Within parser arith c cur s) {err : ℤ} (hplace : s.point = .report err) :
    ∃ env stored, cur = some env ∧ env.waitReady = 0 ∧
      attempt parser arith c env = some (err, s.client, stored) := by
  cases h with
  | between place => simp [hplace, distance] at place
  | synchronizing ready place => simp [hplace] at place
  | requesting ready place => simp [hplace] at place
  | @reporting env _ r ready place client result =>
    obtain rfl : err = r.1 := PollPoint.report.inj (hplace.symm.trans place)
    exact ⟨env, r.2.2, rfl, ready, client ▸ result⟩

end Within

/-- One call: the loop stays within its iteration, or ends it. -/
theorem step_within {client c : ApiClient} {a : Answers} (h : step parser arith s e = some t)
    (hrun : (ApiClient.pollMachine parser arith).Run client a.finished c)
    (hs : Within parser arith c a.current s) : ∃ c',
      (ApiClient.pollMachine parser arith).Run client (a.add e).finished c' ∧
        Within parser arith c' (a.add e).current t := by
  cases e with
  | requestRefresh =>
    obtain rfl := Option.some.inj h
    refine ⟨c, hrun, ?_⟩
    unfold requestRefresh
    split_ifs with hblocked
    · exact .between (by simp [distance]) (hs.at_rest (by simp [hblocked, distance]))
    · exact hs.congr rfl rfl
  | waitReady env =>
    simp only [step] at h
    split_ifs at h with hplace hfailed
    · obtain rfl := Option.some.inj h
      have hsame := hs.at_rest (by simp [hplace, distance])
      have hstep : (ApiClient.pollMachine parser arith).Step c env c := by
        simp [ApiClient.pollMachine, ApiClient.pollIteration_offline hfailed]
      simp only [Answers.add, if_pos hfailed]
      exact ⟨c, hrun.snoc hstep, .between (by simp [hplace, distance]) hsame⟩
    · obtain rfl := Option.some.inj h
      have hsame := hs.at_rest (by simp [hplace, distance])
      simp only [Answers.add, if_neg hfailed]
      exact ⟨c, hrun, .synchronizing (not_not.mp hfailed) rfl hsame⟩
  | synchronize env =>
    simp only [step] at h
    split_ifs at h with hplace
    obtain rfl := Option.some.inj h
    obtain ⟨ready, hcurrent, hready, rfl⟩ := hs.at_synchronize hplace
    refine ⟨s.client, hrun, ?_⟩
    simp only [Answers.add, hcurrent, Option.map_some]
    exact .requesting hready rfl rfl
  | request env =>
    simp only [step] at h
    split at h
    · next err hplace =>
      obtain ⟨clock, hcurrent, hready, rfl, hclient⟩ := hs.at_request hplace
      refine ⟨c, hrun, ?_⟩
      simp only [Answers.add, hcurrent, Option.map_some]
      split_ifs at h with herr
      · obtain ⟨r, hr, rfl⟩ := Option.map_eq_some_iff.mp h
        rw [hclient] at hr
        exact .reporting hready rfl rfl ((if_pos herr).trans hr)
      · obtain rfl := Option.some.inj h
        exact .reporting hready rfl hclient (if_neg herr)
    · cases h
  | report =>
    simp only [step] at h
    split at h
    · next err hplace =>
      obtain rfl := Option.some.inj h
      obtain ⟨env, stored, hcurrent, hready, hattempt⟩ := hs.at_report hplace
      have hstep : (ApiClient.pollMachine parser arith).Step c env
          (ApiClient.reportError (err, s.client, none)).client := by
        simp [ApiClient.pollMachine, pollIteration_attempt hready, hattempt,
          reportError_client err s.client stored]
      simp only [Answers.add, hcurrent, Option.toList_some]
      exact ⟨_, hrun.snoc hstep, .between (by simp [distance]) rfl⟩
    · cases h
  | take =>
    simp only [step] at h
    split_ifs at h with hplace
    obtain rfl := Option.some.inj h
    have hsame := hs.at_rest (by simp [hplace, distance])
    refine ⟨c, hrun, ?_⟩
    unfold takeSignal
    split
    · exact .between (by simp [distance]) hsame
    · exact .between (by simp [distance]) hsame
  | timeout =>
    simp only [step] at h
    split_ifs at h with hplace
    obtain rfl := Option.some.inj h
    exact ⟨c, hrun, .between (by simp [distance]) (hs.at_rest (by simp [hplace, distance]))⟩
  | leave err =>
    simp only [step] at h
    split_ifs at h with hplace
    obtain rfl := Option.some.inj h
    exact ⟨c, hrun, .between (by simp [distance]) (hs.at_rest (by simp [hplace, distance]))⟩

theorem run_within {client : ApiClient} {es : List PollAction}
    (h : (machine parser arith).Run (start client) es s) :
    ∃ c, (ApiClient.pollMachine parser arith).Run client (answers es).finished c ∧
      Within parser arith c (answers es).current s := by
  refine h.history_invariant (I := fun es s =>
    ∃ c, (ApiClient.pollMachine parser arith).Run client (answers es).finished c ∧
      Within parser arith c (answers es).current s)
    ⟨client, Machine.Run.nil _, .between (by simp [start, distance]) rfl⟩ ?_
  rintro es s e t ⟨c, hrun, hs⟩ hstep
  rw [answers_concat]
  exact step_within hstep hrun hs

/-- The calls of an iteration between which no request falls, and the wait for the
next one. -/
def calls (env : Surroundings) : List PollAction :=
  if env.waitReady ≠ 0 then [.waitReady env]
  else [.waitReady env, .synchronize env, .request env, .report, .take, .timeout, .leave (-EAGAIN)]

theorem answers_calls (past : List Surroundings) (env : Surroundings) :
    (calls env).foldl Answers.add ⟨past, none⟩ = ⟨past ++ [env], none⟩ := by
  unfold calls
  split_ifs with hready <;> simp [Answers.add, hready]

theorem calls_run {c c' : ApiClient} {env : Surroundings}
    (h : (ApiClient.pollMachine parser arith).Step c env c') :
    (machine parser arith).Run (start c) (calls env) (start c') := by
  obtain ⟨o, ho, rfl⟩ := Option.map_eq_some_iff.mp h
  unfold calls
  split_ifs with hready
  · rw [ApiClient.pollIteration_offline hready] at ho
    obtain rfl := Option.some.inj ho
    exact Machine.Run.single (by simp [machine, step, start, hready])
  · have hwait : (machine parser arith).Run ⟨o.client, .waitRefresh, Semaphore.empty⟩
        [.take, .timeout, .leave (-EAGAIN)] (start o.client) :=
      Machine.run_ofFn_iff.mpr rfl
    exact (iteration_steps Semaphore.empty (not_not.mp hready) ho).trans hwait

theorem run_iterations {client c : ApiClient} {past : List Surroundings}
    (h : (ApiClient.pollMachine parser arith).Run client past c) :
    ∃ es, (machine parser arith).Run (start client) es (start c) ∧ answers es = ⟨past, none⟩ := by
  induction h with
  | nil => exact ⟨[], Machine.Run.nil _, rfl⟩
  | @snoc c c' past env hrun hstep ih =>
    obtain ⟨es, hes, hanswers⟩ := ih
    refine ⟨es ++ calls env, hes.trans (calls_run hstep), ?_⟩
    rw [answers, List.foldl_append, ← answers, hanswers, answers_calls]

/-- The loop refines its iterations. Whatever requests fall between its calls, a
run of the loop has made a run of the iterations that are over, with the answers
its calls were given, and stands within the next one; and every run of
iterations is made by some run of the loop. -/
theorem loop_refines_iterations (client : ApiClient) :
    (∀ es s, (machine parser arith).Run (start client) es s →
      ∃ c, (ApiClient.pollMachine parser arith).Run client (answers es).finished c ∧
        Within parser arith c (answers es).current s) ∧
    ∀ past c, (ApiClient.pollMachine parser arith).Run client past c →
      ∃ es s, (machine parser arith).Run (start client) es s ∧ answers es = ⟨past, none⟩ ∧
        s.point = .waitReady ∧ s.client = c := by
  refine ⟨fun es s h => run_within h, fun past c h => ?_⟩
  obtain ⟨es, hrun, hanswers⟩ := run_iterations h
  exact ⟨es, _, hrun, hanswers, rfl, rfl⟩

theorem pressed_twice_iterates : ∃ s, (machine ApiClient.sampleParser .exact).Run
      (start (ApiClient.initial AppConfig.defaults .boot)) pressedTwice s ∧
    (ApiClient.pollMachine ApiClient.sampleParser .exact).Run
      (ApiClient.initial AppConfig.defaults .boot) [unsynchronized] s.client := by
  have hrun : (machine ApiClient.sampleParser .exact).Run
      (start (ApiClient.initial AppConfig.defaults .boot)) pressedTwice _ :=
    Machine.run_ofFn_iff.mpr rfl
  obtain ⟨c, hiterations, hwithin⟩ := (loop_refines_iterations _).1 _ _ hrun
  refine ⟨_, hrun, ?_⟩
  rw [hwithin.at_rest (by decide)]
  exact hiterations

end PollLoop

end SensorPanel
