import Mathlib.Tactic

/-!
# The published sample

The worker publishes the last good sample and the error of its latest attempt;
the display thread reads both. Every access copies the state under one lock.
-/

namespace SensorPanel

structure SensorState where
  valid : Bool
  centiValue : Int32
  updatedMs : ℤ
  error : ℤ
  deriving DecidableEq

namespace SensorState

def boot : SensorState := ⟨false, 0, 0, 0⟩

/-- `sensor_model_update`, given `k_uptime_get`. -/
def update (_state : SensorState) (value : Int32) (uptime : ℤ) : SensorState :=
  ⟨true, value, uptime, 0⟩

def setError (state : SensorState) (error : ℤ) : SensorState := { state with error := error }

end SensorState

end SensorPanel
