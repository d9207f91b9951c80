import Mathlib.Data.Int.Order.Basic
import Mathlib.Tactic.Ring

/-!
# Constants and machine-integer conventions of lmkd

The score constants, the two hash/slot macros of the process registry, and the
truncating conversions of `lmkd.cpp`. Scores, pids and sizes are `Int`; where the
source stores a value into a narrower C type the conversion is written out.
-/

namespace Lmkd

/-- `OOM_SCORE_ADJ_MIN`. -/
def oomScoreAdjMin : Int := -1000

/-- `OOM_SCORE_ADJ_MAX`. -/
def oomScoreAdjMax : Int := 1000

/-- `ADJTOSLOT(adj)`: the index of the score bucket of `adj`. -/
def adjtoslot (adj : Int) : Int := adj + -oomScoreAdjMin

/-- `ADJTOSLOT_COUNT`: the number of score buckets. -/
def adjtoslotCount : Int := adjtoslot oomScoreAdjMax + 1

/-- `PIDHASH_SZ`. -/
def pidhashSz : Nat := 1024

/-- `pid_hashfn(x)` on a 32-bit `int`: arithmetic shift, xor, mask. -/
def pidHashfn (x : Int) : Nat :=
  (((BitVec.ofInt 32 x).sshiftRight 8 ^^^ BitVec.ofInt 32 x) &&&
    BitVec.ofNat 32 (pidhashSz - 1)).toNat

/-- `PERCEPTIBLE_APP_ADJ`. -/
def perceptibleAppAdj : Int := 200

/-- `PREVIOUS_APP_ADJ`. -/
def previousAppAdj : Int := 700

/-- `MAX_DATA_CONN`: data connections of the control socket. -/
def maxDataConn : Nat := 3

/-- `VMPRESS_LEVEL_COUNT`. -/
def vmpressLevelCount : Nat := 3

/-- `MAX_EPOLL_EVENTS`. -/
def maxEpollEvents : Int := 1 + maxDataConn + vmpressLevelCount + 1 + 1 + 1 + 1

/-- Reading an `int` out of a wider integer: reduction modulo `2^32` into the signed
range, as every two's-complement target of the daemon does. -/
def toInt32 (v : Int) : Int := (v + 2 ^ 31) % 2 ^ 32 - 2 ^ 31

/-- `clamp(low, high, value)`. -/
def clamp (low high value : Int) : Int := max (min value high) low

@[simp] theorem adjtoslot_eq (adj : Int) : adjtoslot adj = adj + 1000 := rfl

@[simp] theorem adjtoslotCount_eq : adjtoslotCount = 2001 := rfl

theorem pidHashfn_lt (x : Int) : pidHashfn x < pidhashSz := by
  unfold pidHashfn
  rw [BitVec.toNat_and]
  exact Nat.lt_of_le_of_lt Nat.and_le_right (by decide)

theorem toInt32_of_bounds {v : Int} (lo : -2 ^ 31 ≤ v) (hi : v < 2 ^ 31) : toInt32 v = v := by
  unfold toInt32
  rw [Int.emod_eq_of_lt (by omega) (by omega)]
  ring

example : pidHashfn 1234 = 214 := by decide
example : pidHashfn (-1) = 0 := by decide

end Lmkd
