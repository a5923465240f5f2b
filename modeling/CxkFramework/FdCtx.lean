import CxkFramework.Runs

/-!
# File status flags under the hook

`FdCtx` and the hooked `fcntl` and `ioctl`. The kernel's flags of a socket always have `O_NONBLOCK`;
whether the user asked for it is in the context.
-/

namespace CxkFramework

/-- `04000`. -/
def O_NONBLOCK : BitVec 32 := BitVec.twoPow 32 11

/-- `flags & O_NONBLOCK` as a condition. -/
def nonblock (flags : BitVec 32) : Bool := flags &&& O_NONBLOCK != 0

/-- What `fcntl_f` does to the file status flags. -/
structure FlagKernel where
  /-- `F_SETFL` can change these; the access mode and the creation flags stay. -/
  settable : BitVec 32
  settable_nonblock : nonblock settable = true
  /-- Whether `F_SETFL` fails on a file with these flags. -/
  refuses : BitVec 32 → BitVec 32 → Bool
  /-- What is set may be set again, with `O_NONBLOCK`. -/
  refuses_nonblock : ∀ flags, refuses flags (flags ||| O_NONBLOCK) = false

namespace FlagKernel

/-- `F_SETFL`: the flags and what the call returns. -/
def setfl (k : FlagKernel) (flags arg : BitVec 32) : BitVec 32 × Int32 :=
  if k.refuses flags arg then (flags, -1)
  else ((arg &&& k.settable) ||| (flags &&& ~~~k.settable), 0)

/-- `FIONBIO`, which turns one flag on or off. -/
def fionbio (_ : FlagKernel) (flags value : BitVec 32) : BitVec 32 × Int32 :=
  if value != 0 then (flags ||| O_NONBLOCK, 0) else (flags &&& ~~~O_NONBLOCK, 0)

end FlagKernel

inductive SockOpt where
  | SO_RCVTIMEO
  | SO_SNDTIMEO
  deriving DecidableEq, Repr

structure FdCtx where
  isInit : Bool
  isSocket : Bool
  sysNoblock : Bool
  userNoblock : Bool
  isClosed : Bool
  recvTimeOut : UInt64
  sendTimeOut : UInt64
  deriving DecidableEq, Repr

namespace FdCtx

/-- `init`, with what `fstat` says (none if it fails, whether it is a socket otherwise). -/
def init (k : FlagKernel) (stat : Option Bool) (flags : BitVec 32) (c : FdCtx) : FdCtx × BitVec 32 :=
  if c.isInit then (c, flags)
  else
    let isSocket := stat.getD false
    let flags' :=
      if isSocket && !nonblock flags then (k.setfl flags (flags ||| O_NONBLOCK)).1 else flags
    ({ isInit := stat.isSome
       isSocket := isSocket
       sysNoblock := isSocket
       userNoblock := false
       isClosed := false
       recvTimeOut := -1
       sendTimeOut := -1 }, flags')

/-- The constructor. -/
def create (k : FlagKernel) (stat : Option Bool) (flags : BitVec 32) : FdCtx × BitVec 32 :=
  init k stat flags
    { isInit := false
      isSocket := false
      sysNoblock := false
      userNoblock := false
      isClosed := false
      recvTimeOut := -1
      sendTimeOut := -1 }

def setUserNoblock (v : Bool) (c : FdCtx) : FdCtx := { c with userNoblock := v }

def setTimeOut (type : SockOpt) (v : UInt64) (c : FdCtx) : FdCtx :=
  if type = .SO_RCVTIMEO then { c with recvTimeOut := v } else { c with sendTimeOut := v }

def getTimeOut (type : SockOpt) (c : FdCtx) : UInt64 :=
  if type = .SO_RCVTIMEO then c.recvTimeOut else c.sendTimeOut

end FdCtx

/-- A file descriptor: its context, if there is one, and the kernel's flags. -/
structure HookedFd where
  ctx : Option FdCtx
  flags : BitVec 32
  deriving DecidableEq, Repr

namespace HookedFd

open Runs

/-- `fcntl(fd, F_SETFL, arg)`. -/
def setfl (k : FlagKernel) (s : HookedFd) (arg : BitVec 32) : HookedFd × Int32 :=
  match s.ctx with
  | none => ({ s with flags := (k.setfl s.flags arg).1 }, (k.setfl s.flags arg).2)
  | some ctx =>
    if ctx.isClosed || !ctx.isSocket then
      ({ s with flags := (k.setfl s.flags arg).1 }, (k.setfl s.flags arg).2)
    else
      let arg' := if ctx.sysNoblock then arg ||| O_NONBLOCK else arg &&& ~~~O_NONBLOCK
      ({ ctx := some (ctx.setUserNoblock (nonblock arg))
         flags := (k.setfl s.flags arg').1 }, (k.setfl s.flags arg').2)

/-- `fcntl(fd, F_GETFL)`. -/
def getfl (s : HookedFd) : BitVec 32 :=
  match s.ctx with
  | none => s.flags
  | some ctx =>
    if ctx.isClosed || !ctx.isSocket then s.flags
    else if ctx.userNoblock then s.flags ||| O_NONBLOCK
    else s.flags &&& ~~~O_NONBLOCK

/-- `ioctl(fd, FIONBIO, &value)`. -/
def ioctl (k : FlagKernel) (s : HookedFd) (value : BitVec 32) : HookedFd × Int32 :=
  let r := k.fionbio s.flags value
  match s.ctx with
  | none => ({ s with flags := r.1 }, r.2)
  | some ctx =>
    if ctx.isClosed || !ctx.isSocket then ({ s with flags := r.1 }, r.2)
    else ({ ctx := some (ctx.setUserNoblock (value != 0)), flags := r.1 }, r.2)

inductive Label where
  | setfl (arg : BitVec 32)
  | getfl
  | fionbio (value : BitVec 32)
  deriving DecidableEq, Repr

/-- What the user did: whether the last call that could asked for `O_NONBLOCK`, and the other flags
as the last `F_SETFL` that did not fail left them. -/
structure Asked where
  nonblock : Bool
  others : BitVec 32
  deriving DecidableEq, Repr

def Asked.next (k : FlagKernel) (v : Asked) : Label → Int32 → Asked
  | .setfl arg, result =>
    { nonblock := CxkFramework.nonblock arg
      others :=
        if result = 0 then
          ((arg &&& k.settable) ||| (v.others &&& ~~~k.settable)) &&& ~~~O_NONBLOCK
        else v.others }
  | .getfl, _ => v
  | .fionbio value, _ => { v with nonblock := value != 0 }

/-- One call. -/
def step (k : FlagKernel) (s : HookedFd × Asked) (a : Label) : HookedFd × Asked :=
  match a with
  | .setfl arg => ((s.1.setfl k arg).1, s.2.next k a (s.1.setfl k arg).2)
  | .getfl => s
  | .fionbio value => ((s.1.ioctl k value).1, s.2.next k a (s.1.ioctl k value).2)

/-- The context of a socket has just been made. -/
def start (k : FlagKernel) (flags : BitVec 32) : HookedFd × Asked :=
  let r := FdCtx.create k (some true) flags
  ({ ctx := some r.1, flags := r.2 }, { nonblock := false, others := flags &&& ~~~O_NONBLOCK })

/-- The kernel does not block, and the user sees what was asked for. -/
def Consistent (s : HookedFd × Asked) : Prop :=
  nonblock s.1.flags = true ∧ nonblock s.1.getfl = s.2.nonblock ∧
    s.1.getfl &&& ~~~O_NONBLOCK = s.2.others

instance : DecidablePred Consistent := fun s => by
  unfold Consistent
  infer_instance

/-! ## Bits -/

section Bits

variable {k : FlagKernel} {f g arg : BitVec 32}

theorem nonblock_eq_getLsbD (f : BitVec 32) : nonblock f = f.getLsbD 11 := by
  rw [nonblock, O_NONBLOCK, BitVec.and_twoPow]
  split
  · rename_i h
    rw [h]
    rfl
  · rename_i h
    rw [Bool.not_eq_true] at h
    rw [h]
    rfl

@[simp] theorem nonblock_or (f g : BitVec 32) : nonblock (f ||| g) = (nonblock f || nonblock g) := by
  simp [nonblock_eq_getLsbD]

@[simp] theorem nonblock_and (f g : BitVec 32) :
    nonblock (f &&& g) = (nonblock f && nonblock g) := by simp [nonblock_eq_getLsbD]

@[simp] theorem nonblock_not (f : BitVec 32) : nonblock (~~~f) = !nonblock f := by
  simp [nonblock_eq_getLsbD]

@[simp] theorem nonblock_O_NONBLOCK : nonblock O_NONBLOCK = true := rfl

theorem or_nonblock_and_not (f : BitVec 32) :
    (f ||| O_NONBLOCK) &&& ~~~O_NONBLOCK = f &&& ~~~O_NONBLOCK := by
  ext i
  simp only [BitVec.getElem_and, BitVec.getElem_or, BitVec.getElem_not]
  cases f[i] <;> cases O_NONBLOCK[i] <;> rfl

theorem and_not_and_not (f : BitVec 32) :
    f &&& ~~~O_NONBLOCK &&& ~~~O_NONBLOCK = f &&& ~~~O_NONBLOCK := by
  rw [BitVec.and_assoc, BitVec.and_self]

/-- Besides `O_NONBLOCK`, what an `F_SETFL` leaves does not depend on it. -/
theorem setfl_others (k : FlagKernel) (f arg : BitVec 32) :
    (((arg ||| O_NONBLOCK) &&& k.settable) ||| (f &&& ~~~k.settable)) &&& ~~~O_NONBLOCK =
      ((arg &&& k.settable) ||| ((f &&& ~~~O_NONBLOCK) &&& ~~~k.settable)) &&& ~~~O_NONBLOCK := by
  ext i
  simp only [BitVec.getElem_and, BitVec.getElem_or, BitVec.getElem_not]
  cases f[i] <;> cases arg[i] <;> cases k.settable[i] <;> cases O_NONBLOCK[i] <;> rfl

/-- Besides `O_NONBLOCK`, setting the flags that are set changes nothing. -/
theorem setfl_same (k : FlagKernel) (f : BitVec 32) :
    ((f &&& k.settable) ||| ((f &&& ~~~O_NONBLOCK) &&& ~~~k.settable)) &&& ~~~O_NONBLOCK =
      f &&& ~~~O_NONBLOCK := by
  ext i
  simp only [BitVec.getElem_and, BitVec.getElem_or, BitVec.getElem_not]
  cases f[i] <;> cases k.settable[i] <;> cases O_NONBLOCK[i] <;> rfl

end Bits

/-! ## The two views -/

section Views

variable {k : FlagKernel} {s : HookedFd × Asked}

/-- The context is that of a socket and knows what the user asked for. -/
structure Inv (s : HookedFd × Asked) (ctx : FdCtx) : Prop where
  ctx_eq : s.1.ctx = some ctx
  isClosed : ctx.isClosed = false
  isSocket : ctx.isSocket = true
  sysNoblock : ctx.sysNoblock = true
  userNoblock : ctx.userNoblock = s.2.nonblock
  kernel : nonblock s.1.flags = true
  others : s.1.flags &&& ~~~O_NONBLOCK = s.2.others

variable {ctx : FdCtx}

theorem Inv.getfl_eq (h : Inv s ctx) :
    s.1.getfl = if s.2.nonblock then s.1.flags ||| O_NONBLOCK else s.1.flags &&& ~~~O_NONBLOCK := by
  simp [HookedFd.getfl, h.ctx_eq, h.isClosed, h.isSocket, h.userNoblock]

theorem Inv.consistent (h : Inv s ctx) : Consistent s := by
  refine ⟨h.kernel, ?_, ?_⟩
  · rw [h.getfl_eq]
    cases s.2.nonblock <;> simp
  · rw [h.getfl_eq, ← h.others]
    cases s.2.nonblock
    · exact and_not_and_not _
    · exact or_nonblock_and_not _

theorem Inv.setfl (h : Inv s ctx) (arg : BitVec 32) :
    Inv (step k s (.setfl arg)) (ctx.setUserNoblock (nonblock arg)) := by
  have hset : s.1.setfl k arg =
      ({ ctx := some (ctx.setUserNoblock (nonblock arg))
         flags := (k.setfl s.1.flags (arg ||| O_NONBLOCK)).1 },
        (k.setfl s.1.flags (arg ||| O_NONBLOCK)).2) := by
    simp [HookedFd.setfl, h.ctx_eq, h.isClosed, h.isSocket, h.sysNoblock]
  have hkernel := h.kernel
  have hothers := h.others
  have hnb := k.settable_nonblock
  constructor
  case kernel =>
    simp only [step, hset, FlagKernel.setfl]
    split <;> simp [hkernel, hnb]
  case others =>
    simp only [step, hset, FlagKernel.setfl, Asked.next]
    split
    · exact hothers
    · rw [if_pos rfl, ← hothers]
      exact setfl_others k _ arg
  all_goals simp [step, hset, FdCtx.setUserNoblock, Asked.next, h.isClosed, h.isSocket, h.sysNoblock]

/-- `FIONBIO` with a value other than zero. -/
theorem Inv.fionbio (h : Inv s ctx) {value : BitVec 32} (hv : ¬value = 0#32) :
    Inv (step k s (.fionbio value)) (ctx.setUserNoblock true) := by
  have hbne : (value != 0#32) = true := bne_iff_ne.mpr hv
  have hset : s.1.ioctl k value =
      ({ ctx := some (ctx.setUserNoblock true), flags := s.1.flags ||| O_NONBLOCK }, 0) := by
    simp [HookedFd.ioctl, FlagKernel.fionbio, h.ctx_eq, h.isClosed, h.isSocket, hbne]
  constructor
  case kernel => simp [step, hset]
  case others =>
    simp only [step, hset, Asked.next, ← h.others]
    exact or_nonblock_and_not _
  all_goals
    simp [step, hset, FdCtx.setUserNoblock, Asked.next, h.isClosed, h.isSocket, h.sysNoblock, hv]

/-- `FIONBIO` with zero goes through to the kernel. -/
theorem Inv.not_consistent_fionbio (h : Inv s ctx) : ¬Consistent (step k s (.fionbio 0)) := by
  intro hc
  have hkernel := hc.1
  simp [step, HookedFd.ioctl, FlagKernel.fionbio, h.ctx_eq, h.isClosed, h.isSocket] at hkernel

theorem inv_start (k : FlagKernel) (flags : BitVec 32) :
    ∃ ctx, Inv (start k flags) ctx := by
  refine ⟨(FdCtx.create k (some true) flags).1, rfl, rfl, rfl, rfl, rfl, ?_, ?_⟩
  · have hnb := k.settable_nonblock
    by_cases h : nonblock flags = true <;>
      simp [start, FdCtx.create, FdCtx.init, FlagKernel.setfl, k.refuses_nonblock, h, hnb]
  · by_cases h : nonblock flags = true
    · simp [start, FdCtx.create, FdCtx.init, h]
    · rw [Bool.not_eq_true] at h
      simp only [start, FdCtx.create, FdCtx.init, FlagKernel.setfl, k.refuses_nonblock, h,
        Option.getD_some, Bool.not_false, Bool.and_self, Bool.false_eq_true, if_true, if_false]
      rw [setfl_others, setfl_same]

/-- Kernel, context and user agree exactly as long as no `FIONBIO` asks for a blocking socket. -/
theorem run_consistent_iff {flags : BitVec 32} {t : List (Label × (HookedFd × Asked))}
    (run : Run (fun s a s' => step k s a = s') (start k flags) t) :
    Always Consistent (start k flags) t ↔
      Meets (fun _ a => a ≠ .fionbio 0) (start k flags) t := by
  apply always_iff_meets_of_inv (fun s => ∃ ctx, Inv s ctx) ?_ ?_ ?_ run (inv_start k flags)
  · rintro s ⟨ctx, h⟩
    exact h.consistent
  · rintro s a s' ⟨ctx, h⟩ ha rfl
    cases a with
    | setfl arg => exact ⟨_, h.setfl arg⟩
    | getfl => exact ⟨ctx, h⟩
    | fionbio value => exact ⟨_, h.fionbio fun hv => ha (congrArg _ hv)⟩
  · rintro s a s' ⟨ctx, h⟩ ha rfl
    rw [not_ne_iff.mp ha]
    exact h.not_consistent_fionbio

end Views

/-- `O_APPEND`, `O_NONBLOCK`, `O_ASYNC`, `O_DIRECT` and `O_NOATIME` can be set, and a socket refuses
`O_DIRECT`. -/
def linux : FlagKernel where
  settable := 0x46C00
  settable_nonblock := rfl
  refuses flags arg := (arg &&& ~~~flags) &&& 0x4000 != 0
  refuses_nonblock flags := by
    rw [bne_eq_false_iff_eq]
    have hdirect : O_NONBLOCK &&& 0x4000#32 = 0#32 := rfl
    ext i hi
    have hbit : (O_NONBLOCK[i] && (0x4000#32)[i]) = false := by
      rw [← BitVec.getElem_and, hdirect, BitVec.getElem_zero]
    simp only [BitVec.getElem_and, BitVec.getElem_or, BitVec.getElem_not]
    cases hf : flags[i]
    · simpa using hbit
    · simp

/-- A socket made blocking again with `FIONBIO`. -/
theorem run_fionbio_breaks_consistent :
    ∃ t, Run (fun s a s' => step linux s a = s') (start linux 2) t ∧
      (Runs.last (start linux 2) t).1.flags = 2 ∧
      ¬Always Consistent (start linux 2) t := by
  refine ⟨_, .cons (a := .fionbio 1) rfl (.cons (a := .fionbio 0) rfl (.nil _)), rfl, ?_⟩
  intro h
  have hlast := h.last
  revert hlast
  decide

/-- Blocking again by `F_SETFL`. -/
theorem run_consistent_setfl :
    ∃ t, Run (fun s a s' => step linux s a = s') (start linux 2) t ∧
      (Runs.last (start linux 2) t).1.getfl = 0x402 ∧
      Always Consistent (start linux 2) t := by
  have run : Run (fun s a s' => step linux s a = s') (start linux 2) _ :=
    .cons (a := .fionbio 1) rfl (.cons (a := .getfl) rfl (.cons (a := .setfl 0x402) rfl (.nil _)))
  exact ⟨_, run, rfl, (run_consistent_iff run).mpr (by simp [Meets])⟩

end HookedFd

end CxkFramework
