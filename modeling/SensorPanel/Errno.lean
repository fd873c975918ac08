import Mathlib.Tactic

/-!
# Error numbers

The values are those of newlib, the C library the board configuration selects.
Functions return them negated.
-/

namespace SensorPanel

def ENOENT : ℤ := 2
def EAGAIN : ℤ := 11
def EACCES : ℤ := 13
def ENODEV : ℤ := 19
def EINVAL : ℤ := 22
def EBADMSG : ℤ := 77
def ENETDOWN : ℤ := 115
def EHOSTUNREACH : ℤ := 118
def EALREADY : ℤ := 120
def EMSGSIZE : ℤ := 122

end SensorPanel
