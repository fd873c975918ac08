import SensorPanel.Provisioning
import SensorPanel.Sensor.DocumentShape

/-!
# Where a shown number comes from

From the shell to the label, over all lives of a panel. A number on the display
is the one that the document of the last good answer holds, to the hundredth; the
answer is one to the host, path and body which the shell had saved before the
present boot, and it came in the present life.
-/

namespace SensorPanel

open Library

theorem ParsesTo.holdsSample {parser : JsonParser} {arith : DoubleArith} {text : Bytes}
    {centi : Int32} (h : ParsesTo parser arith text centi) : ∃ root q,
      parser (text ++ [0]) = some root ∧ root.HoldsSample q ∧ centiOf arith q = some centi := by
  rw [ParsesTo, sensorJsonParse_terminated] at h
  split_ifs at h with hbad
  · simp at h
  · cases hvalue : (parser (text ++ [0])).bind fun root => acceptedValue (sampleNodes root) with
    | none => simp [hvalue] at h
    | some q =>
      rw [hvalue] at h
      obtain ⟨root, hparse, hq⟩ := Option.bind_eq_some_iff.mp hvalue
      obtain ⟨centi', hcenti, heq⟩ := Option.map_eq_some_iff.mp h
      obtain rfl : centi' = centi := by simpa using heq
      exact ⟨root, q, hparse, acceptedValue_sampleNodes_iff.mp hq, hcenti⟩

namespace Panel

def sampled? (e : PanelEvent) : Option (Int32 × ℤ) :=
  (poll? e).bind fun x => x.2.bind Publication.sample?

/-- The rest of a pass of the main loop that has read the sample. -/
def Pass (rest : List PanelEvent) : Prop :=
  ∃ between after, rest = between ++ (.online, none) :: after ∧ Undrawn between ∧ Undrawn after

variable {parser : JsonParser} {arith : DoubleArith} {p q : Panel} {es : List PanelEvent}
  {b : Boot} {uptime : ℕ}

theorem sampled?_eq_some_iff {e : PanelEvent} {value : Int32} {time : ℤ} :
    sampled? e = some (value, time) ↔ ∃ a, e = (.poll a, some (.sample value time)) := by
  obtain ⟨a, out⟩ := e
  constructor
  · intro h
    cases a with
    | poll a =>
      cases out with
      | none => cases h
      | some pub =>
        cases pub with
        | sample v t =>
          obtain ⟨rfl, rfl⟩ := Prod.ext_iff.mp (Option.some.inj h)
          exact ⟨a, rfl⟩
        | error err => cases h
    | wifi | wait | set | print | tick | get | online | render => cases h
  · rintro ⟨a, h⟩
    cases h
    rfl

/-- `main` publishes no sample, so the last one is of the worker. -/
theorem lastSample_eq (b : Boot) (es : List PanelEvent) :
    Publication.lastSample (b.publications ++ publications es) =
      es.reverse.findSome? sampled? := by
  have hmain : b.publications.filterMap Publication.sample? = [] := by
    unfold Boot.publications
    split_ifs <;> rfl
  have hworker : (publications es).filterMap Publication.sample? = es.filterMap sampled? := by
    rw [publications, PollLoop.publications, List.filterMap_filterMap, List.filterMap_filterMap]
    rfl
  rw [Publication.lastSample, List.filterMap_append, hmain, hworker, List.nil_append,
    List.getLast?_filterMap]

theorem exists_of_lastSample {value : Int32} {time : ℤ}
    (h : Publication.lastSample (b.publications ++ publications es) = some (value, time)) :
    ∃ before a between, es = before ++ (.poll a, some (.sample value time)) :: between ∧
      ∀ e ∈ between, sampled? e = none := by
  rw [lastSample_eq, List.findSome?_eq_some_iff] at h
  obtain ⟨after, e, before, hsplit, he, hafter⟩ := h
  obtain ⟨a, rfl⟩ := sampled?_eq_some_iff.mp he
  refine ⟨before.reverse, a, after.reverse, ?_, fun e he => hafter e (List.mem_reverse.mp he)⟩
  have hreverse := congrArg List.reverse hsplit
  simpa using hreverse

/-- The present life of a panel: a boot, and the steps taken since. A worker asks for
what was saved before the boot. -/
structure Life (parser : JsonParser) (arith : DoubleArith) (es : List LifeEvent) (b : Boot)
    (uptime : ℕ) (steps : List PanelEvent) (p : Panel) : Prop where
  booted : ∃ d env, Boot.main d env = some b
  run : (machine parser arith).Run (start b uptime) steps p
  begun : b.worker = none ∨ ∃ past d env since, es = past ++ (.reboot env uptime, none) :: since ∧
    since.map Prod.fst = steps.map (fun e => LifeAction.act e.1) ∧ Boot.main d env = some b ∧
    b.device.config.Asks (inFlash past) ∧ Explained past (.reboot env uptime, none)

theorem lives_life {es : List LifeEvent} (h : (lives parser arith).Run new es p) :
    ∃ b uptime steps, Life parser arith es b uptime steps p := by
  induction h with
  | nil =>
    have hmain : Boot.main Device.blank { Boot.supportedBoard with display := none } =
        some ⟨Device.blank, 0, none, none, SensorState.boot, false⟩ := rfl
    exact ⟨_, 0, [], ⟨_, _, hmain⟩, Machine.Run.nil _, Or.inl rfl⟩
  | @snoc p q es e hrun hstep ih =>
    obtain ⟨action, line⟩ := e
    obtain ⟨hlive, hline⟩ := hstep
    dsimp only at hlive hline
    cases action with
    | reboot env uptime =>
      obtain ⟨b, hb, rfl⟩ := Option.map_eq_some_iff.mp hlive
      obtain rfl : line = none := hline
      have hrecalls := lives_recall hrun
      refine ⟨b, uptime, [], ⟨_, _, hb⟩, Machine.Run.nil _, ?_⟩
      refine (hrecalls.boot_asks hb).imp_right fun hasks => ?_
      exact ⟨es, _, env, [], rfl, rfl, hb, hasks, hrecalls.explained env uptime⟩
    | act a =>
      obtain ⟨b, uptime, steps, hlife⟩ := ih
      refine ⟨b, uptime, steps ++ [(a, published parser arith p a)], hlife.booted,
        hlife.run.snoc ⟨hlive, rfl⟩, ?_⟩
      rcases hlife.begun with hnone | ⟨past, d, env, since, rfl, hsince, hmain, hasks⟩
      · exact Or.inl hnone
      · exact Or.inr ⟨past, d, env, since ++ [(.act a, line)], by simp, by simp [hsince], hmain,
          hasks⟩

/-- The label shows the number of the last answer: a complete response of status 200
to a request of these values, with a sample document, published before the pass has
read the sample and followed by no other until then. -/
inductive Answer (parser : JsonParser) (arith : DoubleArith) (values : Field → Bytes)
    (uptime : ℕ) (labels : Labels) : List PanelEvent → Prop
  | mk {config : AppConfig} {env : Surroundings} {value : Int32} {root : Json} {number : ℚ}
      {before between rest : List PanelEvent} (asks : config.Asks values)
      (connects : env.Connects config) (delivers : env.Delivers config)
      (parses : parser (env.body config ++ [0]) = some root) (holds : root.HoldsSample number)
      (newest : ∀ e ∈ between, sampled? e = none) (pass : Pass rest)
      (text : IsTwoDigitDecimal value.toInt labels.value)
      (near : arith.RoundsAt number → |number * 100 - value.toInt| ≤ 1 / 2 + 1 / 2 ^ 27)
      (age : uptime + elapsed (before ++ between ++ rest) < 2 ^ 63 → labels.age =
        decimal (elapsed (between ++ rest) / 1000) ++ ascii "s ago") :
      Answer parser arith values uptime labels (before ++
        (.poll (.request env), some (.sample value (uptime + elapsed before))) ::
        between ++ (.get, none) :: rest)

theorem elapsed_append (es ds : List PanelEvent) :
    elapsed (es ++ ds) = elapsed es + elapsed ds := by
  simp [elapsed]

theorem elapsed_cons (e : PanelEvent) (es : List PanelEvent) :
    elapsed (e :: es) = e.1.ms + elapsed es := by
  simp [elapsed]

/-- A frame with a number shows the last answer to the worker of its boot. -/
theorem Frame.answer {d : Device} {boot : BootSurroundings} (hmain : Boot.main d boot = some b)
    (h : (machine parser arith).Run (start b uptime) es p) {labels : Labels}
    (hframe : Frame b uptime es labels) (hshown : labels.value ≠ ascii "--.--") :
    b.worker = some b.device.config ∧ ∀ values, b.device.config.Asks values →
      Answer parser arith values uptime labels es := by
  obtain ⟨read, between, after, rfl, hbetween, hafter, hshows⟩ := hframe.shown
  cases hlast : Publication.lastSample (b.publications ++ publications read) with
  | none => exact absurd (hshows.blank hlast).1 hshown
  | some sample =>
    obtain ⟨value, time⟩ := sample
    obtain ⟨before, a, since, rfl, hnewest⟩ := exists_of_lastSample hlast
    simp only [List.append_assoc, List.cons_append] at h
    obtain ⟨s, t, hrun, hstep, -⟩ := h.step_mid
    obtain ⟨hworker, -, horigin⟩ := origin_of_step hmain hrun hstep
    cases horigin with
    | @sample env _ clock connects delivers parses =>
      obtain ⟨root, number, hparse, hholds, hcenti⟩ := parses.holdsSample
      obtain ⟨htext, -⟩ := hshows.value _ _ hlast
      obtain ⟨-, hage⟩ := hshows.age _ _ hlast
      rw [List.append_assoc _ _ (_ :: after), List.cons_append]
      refine ⟨hworker, fun values hasks => ?_⟩
      refine .mk hasks connects delivers hparse hholds hnewest
        ⟨between, after, rfl, hbetween, hafter⟩ htext ?_ ?_
      · intro harith
        obtain ⟨centi, hcenti', hnear, -⟩ := centiOf_near hholds.magnitude harith
        obtain rfl := Option.some.inj (hcenti.symm.trans hcenti')
        exact hnear
      · intro hlong
        simp only [elapsed_append, elapsed_cons, PanelAction.ms] at hlong hage ⊢
        rw [hage (by push_cast at hlong ⊢; omega)]
        congr 3
        push_cast
        omega

/-- Every number on the display is the number that was sent. In every sequence of
boots and of steps of the panel, a frame that shows a number was drawn in a life
whose worker asks for what the shell had saved before its boot, and acknowledged
unless the boot cut it off; and the number is that of the last answer in this life,
a complete response of status 200 with a sample document, to half a hundredth and
the rounding of doubles. -/
theorem shown_numbers_are_answers {es : List LifeEvent}
    (h : (lives parser arith).Run new (es ++ [(.act .render, none)]) p)
    (hshown : p.labels.value ≠ ascii "--.--") :
    ∃ past boot uptime since steps d b, es = past ++ (.reboot boot uptime, none) :: since ∧
      since.map Prod.fst = steps.map (fun e => LifeAction.act e.1) ∧
      Boot.main d boot = some b ∧
      (machine parser arith).Run (start b uptime) (steps ++ [(.render, none)]) p ∧
      Explained past (.reboot boot uptime, none) ∧
      Answer parser arith (inFlash past) uptime p.labels steps := by
  obtain ⟨q, hrun, hstep, -⟩ := Machine.run_concat_iff.mp h
  obtain ⟨b, uptime, steps, hlife⟩ := lives_life hrun
  obtain ⟨d, boot, hmain⟩ := hlife.booted
  have hframe := frame_of_step hmain hlife.run hstep
  obtain ⟨hworker, hanswer⟩ := hframe.answer hmain hlife.run hshown
  rcases hlife.begun with hnone | ⟨past, d, boot, since, hes, hsince, hmain, hasks, hexplained⟩
  · rw [hnone] at hworker
    cases hworker
  · exact ⟨past, boot, uptime, since, steps, d, b, hes, hsince, hmain,
      hlife.run.snoc ⟨hstep, rfl⟩, hexplained, hanswer _ hasks⟩

theorem second_attempt_shown : ∃ es p,
    (lives ApiClient.sampleParser .exact).Run new (es ++ [(.act .render, none)]) p ∧
    es.map Prod.fst = provisionedLife.map Prod.fst ++ secondFrame.map LifeAction.act ∧
    p.labels.value = ascii "23.45" ∧
    ∃ past boot uptime since steps d b, es = past ++ (.reboot boot uptime, none) :: since ∧
      since.map Prod.fst = steps.map (fun e => LifeAction.act e.1) ∧
      Boot.main d boot = some b ∧
      (machine ApiClient.sampleParser .exact).Run (start b uptime) (steps ++ [(.render, none)]) p ∧
      Explained past (.reboot boot uptime, none) ∧
      Answer ApiClient.sampleParser .exact (inFlash past) uptime p.labels steps := by
  have hvalue : (((provisionedLife.map Prod.fst ++ secondFrame.map LifeAction.act).foldlM
      (live ApiClient.sampleParser .exact) new).bind fun p =>
        step ApiClient.sampleParser .exact p .render).map (fun p => p.labels.value) =
      some (ascii "23.45") := by
    decide +kernel
  obtain ⟨p, hp, hlabel⟩ := Option.map_eq_some_iff.mp hvalue
  obtain ⟨q, hq, hstep⟩ := Option.bind_eq_some_iff.mp hp
  obtain ⟨es, hrun, hes⟩ := (Machine.run_ofFn_iff.mpr hq).observe printed
  have hlast : (lives ApiClient.sampleParser .exact).Run new (es ++ [(.act .render, none)]) p :=
    hrun.snoc ⟨hstep, rfl⟩
  refine ⟨es, p, hlast, hes, hlabel, shown_numbers_are_answers hlast ?_⟩
  rw [hlabel]
  decide

end Panel

end SensorPanel
