import CxkFramework.FdCtx
import Mathlib.Tactic

/-!
# Timeouts of sockets

`Socket` takes a timeout in milliseconds, the system call a `timeval`, and the hooked
`setsockopt` keeps milliseconds again, this time unsigned. As long as the seconds fit into an
`int` nothing is lost on the way, so a negative timeout becomes one close to `2^64`.
-/

namespace CxkFramework

/-- `struct timeval`. -/
structure TimeVal where
  sec : Int64
  usec : Int64
  deriving DecidableEq

namespace TimeVal

/-- The `timeval` of `Socket::setSendTimeout` and `Socket::setRecvTimeout`, both of its members cut
down to an `int`. -/
def ofTimeout (timeout : Int64) : TimeVal where
  sec := (timeout / 1000).toInt32.toInt64
  usec := (timeout % 1000 * 1000).toInt32.toInt64

/-- What the hooked `setsockopt` makes of it. -/
def ms (tv : TimeVal) : UInt64 := (tv.sec * 1000 + tv.usec / 1000).toUInt64

end TimeVal

namespace HookedFd

/-- `setsockopt` with a timeout. -/
def setsockopt (s : HookedFd) (optname : SockOpt) (tv : TimeVal) : HookedFd :=
  { s with ctx := s.ctx.map (FdCtx.setTimeOut optname tv.ms) }

/-- A timeout of `Socket`, in one direction. -/
def setTimeout (s : HookedFd) (optname : SockOpt) (timeout : Int64) : HookedFd :=
  s.setsockopt optname (.ofTimeout timeout)

def getTimeout (s : HookedFd) (optname : SockOpt) : Int64 :=
  match s.ctx with
  | some ctx => (ctx.getTimeOut optname).toInt64
  | none => -1

def setSendTimeout (s : HookedFd) (timeout : Int64) : HookedFd := s.setTimeout .SO_SNDTIMEO timeout

def getSendTimeout (s : HookedFd) : Int64 := s.getTimeout .SO_SNDTIMEO

def setRecvTimeout (s : HookedFd) (timeout : Int64) : HookedFd := s.setTimeout .SO_RCVTIMEO timeout

def getRecvTimeout (s : HookedFd) : Int64 := s.getTimeout .SO_RCVTIMEO

end HookedFd

/-- The seconds of the timeout fit into an `int`. -/
def FitsInt (timeout : Int64) : Prop :=
  -2 ^ 31 ≤ timeout.toInt.tdiv 1000 ∧ timeout.toInt.tdiv 1000 < 2 ^ 31

instance (timeout : Int64) : Decidable (FitsInt timeout) :=
  inferInstanceAs (Decidable (_ ∧ _))

section

variable {timeout : Int64}

theorem sec_ofTimeout (h : FitsInt timeout) :
    (TimeVal.ofTimeout timeout).sec.toInt = timeout.toInt.tdiv 1000 := by
  obtain ⟨hlow, hhigh⟩ := h
  rw [TimeVal.ofTimeout, Int32.toInt_toInt64, Int64.toInt_toInt32,
    Int64.toInt_div_of_ne_right timeout 1000 (by decide)]
  exact Int.bmod_eq_of_le (by simpa using hlow) (by simpa using hhigh)

theorem usec_ofTimeout (timeout : Int64) :
    (TimeVal.ofTimeout timeout).usec.toInt = timeout.toInt.tmod 1000 * 1000 := by
  have hlow := Int.lt_tmod_of_pos timeout.toInt (b := 1000) (by decide)
  have hhigh := Int.tmod_lt_of_pos timeout.toInt (b := 1000) (by decide)
  have hmod : (timeout % 1000).toInt = timeout.toInt.tmod 1000 := Int64.toInt_mod timeout 1000
  have hmul : (timeout % 1000 * 1000).toInt = timeout.toInt.tmod 1000 * 1000 := by
    rw [Int64.toInt_mul, hmod]
    apply Int.bmod_eq_of_le
    · change -(2 ^ 64 / 2 : Int) ≤ timeout.toInt.tmod 1000 * 1000
      omega
    · change timeout.toInt.tmod 1000 * 1000 < (2 ^ 64 + 1) / 2
      omega
  rw [TimeVal.ofTimeout, Int32.toInt_toInt64, Int64.toInt_toInt32, hmul]
  apply Int.bmod_eq_of_le
  · change -(2 ^ 32 / 2 : Int) ≤ timeout.toInt.tmod 1000 * 1000
    omega
  · change timeout.toInt.tmod 1000 * 1000 < (2 ^ 32 + 1) / 2
    omega

/-- Both ways around the timeout is the same. -/
theorem ms_ofTimeout (h : FitsInt timeout) : (TimeVal.ofTimeout timeout).ms = timeout.toUInt64 := by
  have hsec := sec_ofTimeout h
  have husec := usec_ofTimeout timeout
  have hparts := Int.mul_tdiv_add_tmod timeout.toInt 1000
  obtain ⟨hlow, hhigh⟩ := h
  have hmul : ((TimeVal.ofTimeout timeout).sec * 1000).toInt = timeout.toInt.tdiv 1000 * 1000 := by
    rw [Int64.toInt_mul, hsec]
    apply Int.bmod_eq_of_le
    · change -(2 ^ 64 / 2 : Int) ≤ timeout.toInt.tdiv 1000 * 1000
      omega
    · change timeout.toInt.tdiv 1000 * 1000 < (2 ^ 64 + 1) / 2
      omega
  have hdiv : ((TimeVal.ofTimeout timeout).usec / 1000).toInt = timeout.toInt.tmod 1000 := by
    rw [Int64.toInt_div_of_ne_right _ _ (by decide), husec]
    exact Int.mul_tdiv_cancel _ (by decide)
  rw [TimeVal.ms]
  congr 1
  apply Int64.toInt_inj.mp
  have hbound := Int64.toInt_lt timeout
  have hbound' := Int64.le_toInt timeout
  rw [Int64.toInt_add, hmul, hdiv, mul_comm, hparts]
  apply Int.bmod_eq_of_le
  · change -(2 ^ 64 / 2 : Int) ≤ timeout.toInt
    omega
  · change timeout.toInt < (2 ^ 64 + 1) / 2
    omega

theorem toNat_ms_ofTimeout (h : FitsInt timeout) : ((TimeVal.ofTimeout timeout).ms.toNat : Int) =
    if 0 ≤ timeout.toInt then timeout.toInt else 2 ^ 64 + timeout.toInt := by
  have hcond := BitVec.toInt_eq_toNat_cond timeout.toBitVec
  have hlt := timeout.toBitVec.isLt
  rw [ms_ofTimeout h]
  change (timeout.toBitVec.toNat : Int) = _
  change timeout.toInt = _ at hcond
  split at hcond
  · rw [hcond, if_pos (by omega)]
  · rw [hcond, if_neg (by omega)]
    omega

/-- What is set is read back. -/
theorem getTimeout_setTimeout {s : HookedFd} {ctx : FdCtx} (hctx : s.ctx = some ctx)
    (optname : SockOpt) (h : FitsInt timeout) :
    (s.setTimeout optname timeout).getTimeout optname = timeout := by
  have hback : timeout.toUInt64.toInt64 = timeout := rfl
  rw [HookedFd.setTimeout, HookedFd.setsockopt, HookedFd.getTimeout, hctx]
  cases optname <;> simp [FdCtx.setTimeOut, FdCtx.getTimeOut, ms_ofTimeout h, hback]

end

end CxkFramework
