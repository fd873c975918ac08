import SensorPanel.Library.Guarded
import SensorPanel.Sensor.SensorModel

/-!
# The published sample, field by field

The worker publishes and the display thread reads a struct of four fields, each
under `sensor_lock`. Field by field, in whatever order the compiler copies them
and however the threads interleave, a reader gets the state some number of
publications have left: what is shown is never put together from two samples.
-/

namespace SensorPanel

open Library

/-- A call of `sensor_model_update`, with what `k_uptime_get` returns in it, or of
`sensor_model_error`. -/
inductive Publication
  | sample (value : Int32) (uptime : ℤ)
  | error (err : ℤ)
  deriving DecidableEq

namespace Publication

def sample? : Publication → Option (Int32 × ℤ)
  | sample value uptime => some (value, uptime)
  | error _ => none

def lastSample (pubs : List Publication) : Option (Int32 × ℤ) := (pubs.filterMap sample?).getLast?

theorem mem_of_lastSample {pubs : List Publication} {value : Int32} {time : ℤ}
    (h : lastSample pubs = some (value, time)) : sample value time ∈ pubs := by
  obtain ⟨p, hp, hvalue⟩ := List.mem_filterMap.mp (List.mem_of_getLast? h)
  cases p with
  | sample v t =>
    obtain ⟨rfl, rfl⟩ := Prod.ext_iff.mp (Option.some.inj hvalue)
    exact hp
  | error err => cases hvalue

/-- The error of the last publication; a sample clears it. -/
def lastError (pubs : List Publication) : ℤ :=
  match pubs.getLast? with
  | some (error err) => err
  | _ => 0

end Publication

namespace SensorState

def publish (state : SensorState) : Publication → SensorState
  | .sample value uptime => state.update value uptime
  | .error err => state.setError err

/-- The state after these publications, from the start on. -/
def after (pubs : List Publication) : SensorState := pubs.foldl publish boot

@[simp] theorem after_nil : after [] = boot := rfl

theorem after_concat (pubs : List Publication) (p : Publication) :
    after (pubs ++ [p]) = (after pubs).publish p := by
  simp [after]

/-- The state is the last sample with the error of the last publication. -/
theorem after_eq (pubs : List Publication) : after pubs =
    { valid := (Publication.lastSample pubs).isSome
      centiValue := ((Publication.lastSample pubs).map Prod.fst).getD 0
      updatedMs := ((Publication.lastSample pubs).map Prod.snd).getD 0
      error := Publication.lastError pubs } := by
  induction pubs using List.reverseRecOn with
  | nil => rfl
  | append_singleton pubs p ih =>
    rw [after_concat, ih]
    cases p <;> simp [publish, update, setError, Publication.lastSample, Publication.lastError,
      Publication.sample?, List.filterMap_append]

end SensorState

inductive SensorField
  | valid | centiValue | updatedMs | error
  deriving DecidableEq

namespace SensorField

def copy (src dst : SensorState) : SensorField → SensorState
  | valid => { dst with valid := src.valid }
  | centiValue => { dst with centiValue := src.centiValue }
  | updatedMs => { dst with updatedMs := src.updatedMs }
  | error => { dst with error := src.error }

theorem copy_self (src dst : SensorState) (f : SensorField) :
    copy src (copy src dst f) f = copy src dst f := by
  cases f <;> rfl

theorem copy_comm (src dst : SensorState) (f g : SensorField) :
    copy src (copy src dst g) f = copy src (copy src dst f) g := by
  cases f <;> cases g <;> rfl

theorem eq_of_copied {src dst : SensorState} (h : ∀ f, copy src dst f = dst) : dst = src := by
  rw [← h error, ← h updatedMs, ← h centiValue, ← h valid]
  rfl

end SensorField

/-- A struct assignment: every field, in an order the compiler chooses. -/
structure CopyOrder where
  fields : List SensorField
  complete : ∀ f, f ∈ fields

theorem CopyOrder.foldl_copy (order : CopyOrder) (src dst : SensorState) :
    order.fields.foldl (SensorField.copy src) dst = src := by
  have hcopied : ∀ (fields : List SensorField), ∀ f ∈ fields,
      SensorField.copy src (fields.foldl (SensorField.copy src) dst) f =
        fields.foldl (SensorField.copy src) dst := by
    intro fields
    induction fields using List.reverseRecOn with
    | nil => simp
    | append_singleton fields g ih =>
      intro f hf
      rw [List.foldl_append, List.foldl_cons, List.foldl_nil]
      rcases List.mem_append.mp hf with hf | hf
      · rw [SensorField.copy_comm, ih f hf]
      · obtain rfl := List.mem_singleton.mp hf
        exact SensorField.copy_self _ _ _
  exact SensorField.eq_of_copied fun f => hcopied _ f (order.complete f)

/-- A call of `sensor_model.c`; `sensor_model_get` fills what `out` points to. -/
inductive SensorCall
  | publish (p : Publication)
  | get (out : SensorState)

def SensorCall.publication? : SensorCall → Option Publication
  | publish p => some p
  | get _ => none

/-- The functions of `sensor_model.c` as sections under `sensor_lock`. The struct
assignments of `sensor_model_update` and `sensor_model_get` go field by field. -/
def sensorModel (writeOrder readOrder : CopyOrder) :
    Guarded SensorState SensorState SensorCall where
  enter
    | .publish _ => SensorState.boot
    | .get out => out
  body
    | .publish (.sample value uptime) => writeOrder.fields.map fun f d =>
        (SensorField.copy ⟨true, value, uptime, 0⟩ d.1 f, d.2)
    | .publish (.error err) => [fun d => ({ d.1 with error := err }, d.2)]
    | .get _ => readOrder.fields.map fun f d => (d.1, SensorField.copy d.1 d.2 f)

namespace SensorCall

variable {writeOrder readOrder : CopyOrder}

/-- Without interruption the sections are the functions on the whole struct. -/
theorem apply_publish (data : SensorState) (p : Publication) :
    ((sensorModel writeOrder readOrder).apply data (.publish p)).1 = data.publish p := by
  cases p with
  | error err => rfl
  | sample value uptime =>
    have hfold : ∀ (fields : List SensorField) (d : SensorState × SensorState),
        (fields.foldl (fun d f => (SensorField.copy ⟨true, value, uptime, 0⟩ d.1 f, d.2)) d).1 =
          fields.foldl (SensorField.copy ⟨true, value, uptime, 0⟩) d.1 := by
      intro fields
      induction fields with
      | nil => exact fun d => rfl
      | cons f fields ih => exact fun d => ih _
    rw [Guarded.apply, Guarded.exec, sensorModel]
    dsimp only
    rw [List.foldl_map, hfold, writeOrder.foldl_copy]
    rfl

theorem apply_get (data out : SensorState) :
    (sensorModel writeOrder readOrder).apply data (.get out) = (data, data) := by
  have hfold : ∀ (fields : List SensorField) (d : SensorState × SensorState),
      fields.foldl (fun d f => (d.1, SensorField.copy d.1 d.2 f)) d =
        (d.1, fields.foldl (SensorField.copy d.1) d.2) := by
    intro fields
    induction fields with
    | nil => exact fun d => rfl
    | cons f fields ih => exact fun d => ih _
  rw [Guarded.apply, Guarded.exec, sensorModel]
  dsimp only
  rw [List.foldl_map, hfold, readOrder.foldl_copy]

theorem replay_boot (calls : List SensorCall) :
    (sensorModel writeOrder readOrder).replay SensorState.boot calls =
      SensorState.after (calls.filterMap publication?) := by
  induction calls using List.reverseRecOn with
  | nil => rfl
  | append_singleton calls call ih =>
    rw [Guarded.replay_concat, ih, List.filterMap_append]
    cases call with
    | publish p =>
      rw [apply_publish]
      exact (SensorState.after_concat _ p).symm
    | get out =>
      rw [apply_get, show [get out].filterMap publication? = [] from rfl, List.append_nil]

/-- The publications of a run, in the order in which their sections were left. -/
def publications {ι : Type*} (order : List (ι × SensorCall)) : List Publication :=
  (order.map Prod.snd).filterMap publication?

section Runs

variable {ι : Type*} [DecidableEq ι]
  {es : List (ι × Act Unit (GuardedEvent SensorState SensorCall))}
  {t : Threads SensorState (GuardedPoint SensorState SensorState SensorCall) Unit ι}

/-- A reader has been given the state that the first publications left, all those
among them that were done when it called. -/
def Reads (past : List (ι × Act Unit (GuardedEvent SensorState SensorCall))) (i : ι)
    (out own : SensorState) : Prop :=
  ∃ k n, Guarded.CalledAt past i (.get out) k ∧ k ≤ n ∧ n < (Guarded.seen past).order.length ∧
    own = SensorState.after (publications ((Guarded.seen past).order.take n))

/-- Nobody reads a torn sample. Threads call `sensor_model_update`,
`sensor_model_error` and `sensor_model_get` in any interleaving of the single
field copies: every reader is given the state that a number of publications have
left, none missing that was done before its call; between the sections the data
is what all of them have left; and a call under way never blocks the threads. -/
theorem readers_see_publications (writeOrder readOrder : CopyOrder)
    (h : (sensorModel writeOrder readOrder).code.system.Run (Guarded.idle SensorState.boot) es t) :
    (∀ past later i out own, es = past ++ (i, .emit (.ret (.get out) own)) :: later →
      Reads past i out own) ∧
    ((∀ i, ¬ Guarded.Inside (t.point i)) →
      t.memory = SensorState.after (publications (Guarded.seen es).order)) ∧
    ∀ i, t.point i ≠ .idle → ∃ j a u, t.point j ≠ .idle ∧
      (sensorModel writeOrder readOrder).code.system.Step t (j, a) u := by
  refine ⟨?_, ?_, fun i hi => Guarded.goes_on h hi⟩
  · intro past later i out own hret
    obtain ⟨k, n, hcalled, hle, hn, rfl⟩ := Guarded.linearizable h hret
    obtain ⟨hlt, -⟩ := List.getElem?_eq_some_iff.mp hn
    refine ⟨k, n, hcalled, hle, hlt, ?_⟩
    rw [apply_get, replay_boot]
    rfl
  · intro hnone
    rw [(Guarded.run_agrees h).free hnone, Guarded.replayed, replay_boot]
    rfl

end Runs

def declared : List SensorField := [.valid, .centiValue, .updatedMs, .error]

theorem mem_declared (f : SensorField) : f ∈ declared := by
  cases f <;> decide

def asDeclared : CopyOrder := ⟨declared, mem_declared⟩

/-- A publication, and what another thread then reads, in the run so far. -/
def publishedThenRead : List (Bool × Act Unit (GuardedEvent SensorState SensorCall)) :=
  (sensorModel asDeclared asDeclared).uninterrupted SensorState.boot true
      (.publish (.sample 5 10)) ++
    (sensorModel asDeclared asDeclared).uninterrupted ⟨true, 5, 10, 0⟩ false (.get SensorState.boot)

theorem read_after_publication : ∃ past,
    publishedThenRead = past ++ [(false, .emit (.ret (.get SensorState.boot) ⟨true, 5, 10, 0⟩))] ∧
      Reads past false SensorState.boot ⟨true, 5, 10, 0⟩ := by
  have hpublish := (sensorModel asDeclared asDeclared).run_uninterrupted SensorState.boot true
    (.publish (.sample 5 10))
  have hread := (sensorModel asDeclared asDeclared).run_uninterrupted ⟨true, 5, 10, 0⟩ false
    (.get SensorState.boot)
  rw [apply_publish] at hpublish
  refine ⟨publishedThenRead.dropLast, rfl, ?_⟩
  exact (readers_see_publications asDeclared asDeclared (hpublish.trans hread)).1 _ [] _ _ _ rfl

end SensorCall

end SensorPanel
