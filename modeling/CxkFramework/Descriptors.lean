import CxkFramework.FdManager
import Mathlib.Logic.Function.Basic

/-!
# Sockets and their descriptors

`Socket` over the hooked calls, with the kernel's table of descriptors and the contexts of
`FdManager`, for any number of fibers on any number of threads. The kernel gives a number out again
once it is closed, and everything above goes by numbers: the contexts, the events and the calls that
wait.
-/

namespace CxkFramework.Descriptors

/-- A descriptor, and the file that the kernel opened for it. Files are numbered as they are
opened. -/
structure Desc where
  fd : Nat
  file : Nat
  deriving DecidableEq, Repr

inductive Kind where
  | recv
  | send
  | accept
  /-- with `timeout_ms` -/
  | connect (timeout : UInt64)
  deriving DecidableEq, Repr

/-- The event is `READ` and not `WRITE`. -/
def Kind.reads : Kind → Bool
  | .recv => true
  | .send => false
  | .accept => true
  | .connect _ => false

/-- How far a hooked `socket` or `accept` is with its new descriptor. -/
inductive Stage where
  | opened
  /-- `get` has found no context -/
  | missed
  | ready
  deriving DecidableEq, Repr

/-- How far a call on a descriptor is. -/
inductive Place where
  /-- before `FdMgr::get` -/
  | looking
  | trying
  | adding
  /-- yielded, with the event registered on this file -/
  | waiting (file : Nat)
  | resumed (cancelled : Bool)
  /-- the `getsockopt` of `connect_with_timeout` -/
  | asking
  deriving DecidableEq, Repr

/-- How far `Socket::close` is, in the hooked `close` and behind it. -/
inductive Closing where
  | looking
  | cancelling
  | deleting
  | closing
  | forgetting
  deriving DecidableEq, Repr

/-- What a fiber does; sockets are numbered as they are made. -/
inductive Act where
  | idle
  /-- The descriptor will be the socket's; `accepted` is `Socket::accept` and not `newSock`. -/
  | opening (i : Nat) (d : Desc) (accepted : Bool) (stage : Stage)
  /-- `isConnected()` was true, `m_socket` is still to be read -/
  | asked (kind : Kind) (i : Nat) (hook : Bool)
  /-- `timeout` is the timeout of a call that may wait -/
  | io (kind : Kind) (i : Nat) (d : Desc) (timeout : Option UInt64) (place : Place)
  | closing (i : Nat) (d : Desc) (stage : Closing)
  deriving DecidableEq, Repr

/-- A system call on a descriptor: the file it was opened for, the file it stood for, and whether
the call could block the thread though the hook made it wait. -/
structure Use where
  opened : Nat
  used : Option Nat
  blocks : Bool
  deriving DecidableEq, Repr

end Descriptors

open Descriptors Runs

structure Descriptors where
  /-- the kernel's table -/
  table : Nat → Option Nat
  files : Nat
  /-- the file status flags -/
  flags : Nat → BitVec 32
  fds : FdManager
  /-- the file that a context was made on -/
  madeFor : Nat → Option Nat
  /-- the fiber that waits for `READ` (or `WRITE`) of a descriptor -/
  waiters : Nat → Bool → Option Nat
  /-- `m_socket` -/
  sock : Nat → Option Desc
  /-- `m_isConnected` -/
  connected : Nat → Bool
  created : Nat
  acts : List Act
  uses : List Use

namespace Descriptors

/-- Files are opened with `O_RDWR`. -/
def init (fibers : Nat) : Descriptors where
  table _ := none
  files := 0
  flags _ := 2
  fds := FdManager.create
  madeFor _ := none
  waiters _ _ := none
  sock _ := none
  connected _ := false
  created := 0
  acts := List.replicate fibers .idle
  uses := []

/-- Why a step has no result. -/
inductive Halt where
  | disabled
  | crash
  deriving DecidableEq, Repr

def setAct (s : Descriptors) (f : Nat) (a : Act) : Descriptors :=
  { s with acts := s.acts.set f a }

/-- The kernel opens a file. -/
def opens (s : Descriptors) (fd : Nat) : Descriptors :=
  { s with table := Function.update s.table fd (some s.files), files := s.files + 1 }

/-- `FdMgr::get(fd)`. -/
def ctxOf (s : Descriptors) (fd : Nat) : Option FdCtx :=
  (s.fds.lookup fd false).join.bind fun id => s.fds.heap[id]?

/-- `newSock` up to the kernel's `socket`. -/
def socket (s : Descriptors) (f i : Nat) (hook : Bool) (fd : Nat) : Except Halt Descriptors :=
  match s.acts[f]? with
  | some .idle =>
    if i < s.created ∧ s.sock i = none ∧ s.table fd = none then
      .ok ((s.opens fd).setAct f
        (.opening i ⟨fd, s.files⟩ false (if hook then .opened else .ready)))
    else .error .disabled
  | _ => .error .disabled

/-- `FdMgr::get(fd, true)` under the read lock. -/
def get (s : Descriptors) (f : Nat) : Except Halt Descriptors :=
  match s.acts[f]? with
  | some (.opening i d accepted .opened) =>
    let stage := if (s.fds.lookup d.fd true).isSome then .ready else .missed
    .ok (s.setAct f (.opening i d accepted stage))
  | _ => .error .disabled

/-- The constructor of `FdCtx` on a descriptor: the context and the flags of the files, which are
all sockets. -/
def newCtx (k : FlagKernel) (s : Descriptors) (fd : Nat) : FdCtx × (Nat → BitVec 32) :=
  match s.table fd with
  | none => ((FdCtx.create k none 0).1, s.flags)
  | some file =>
    ((FdCtx.create k (some true) (s.flags file)).1,
      Function.update s.flags file (FdCtx.create k (some true) (s.flags file)).2)

/-- The second part of `FdMgr::get(fd, true)`, which makes a context. -/
def make (s : Descriptors) (k : FlagKernel) (fd : Nat) : Except Halt Descriptors :=
  (s.fds.insert fd (newCtx k s fd).1).elim (.error .crash) fun (fds, id) =>
    .ok { s with
      fds := fds
      flags := (newCtx k s fd).2
      madeFor := Function.update s.madeFor id (s.table fd) }

/-- And under the write lock. -/
def insert (k : FlagKernel) (s : Descriptors) (f : Nat) : Except Halt Descriptors :=
  match s.acts[f]? with
  | some (.opening i d accepted .missed) =>
    (s.make k d.fd).map fun s => s.setAct f (.opening i d accepted .ready)
  | _ => .error .disabled

/-- The end of `newSock`, or `Socket::init`, which drops a descriptor without a context. -/
def assign (s : Descriptors) (f : Nat) : Except Halt Descriptors :=
  match s.acts[f]? with
  | some (.opening i d accepted .ready) =>
    if accepted then
      if (s.ctxOf d.fd).any fun ctx => ctx.isSocket && !ctx.isClosed then
        .ok ({ s with
          sock := Function.update s.sock i (some d)
          connected := Function.update s.connected i true }.setAct f .idle)
      else .ok (s.setAct f .idle)
    else .ok ({ s with sock := Function.update s.sock i (some d) }.setAct f .idle)
  | _ => .error .disabled

/-- `recv` and `send` look at `m_isConnected`. -/
def ask (s : Descriptors) (f : Nat) (kind : Kind) (i : Nat) (hook : Bool) :
    Except Halt Descriptors :=
  match s.acts[f]? with
  | some .idle =>
    if (kind = .recv ∨ kind = .send) ∧ s.connected i = false then .ok s
    else .ok (s.setAct f (.asked kind i hook))
  | _ => .error .disabled

/-- `m_socket` is read, and goes on as a number. -/
def start (s : Descriptors) (f : Nat) : Except Halt Descriptors :=
  match s.acts[f]? with
  | some (.asked kind i hook) =>
    match s.sock i with
    | none => .ok (s.setAct f .idle)
    | some d => .ok (s.setAct f (.io kind i d none (if hook then .looking else .trying)))
  | _ => .error .disabled

/-- The timeout of a call. -/
def Kind.timeout (ctx : FdCtx) : Kind → UInt64
  | .recv => ctx.getTimeOut .SO_RCVTIMEO
  | .send => ctx.getTimeOut .SO_SNDTIMEO
  | .accept => ctx.getTimeOut .SO_RCVTIMEO
  | .connect timeout => timeout

def Kind.connects : Kind → Bool
  | .connect _ => true
  | _ => false

/-- What the call does with the context it finds. -/
def found (kind : Kind) (i : Nat) (d : Desc) : Option FdCtx → Act
  | none => if kind.connects then .idle else .io kind i d none .trying
  | some ctx =>
    if ctx.isClosed then .idle
    else if !ctx.isSocket || ctx.userNoblock then .io kind i d none .trying
    else .io kind i d (some (kind.timeout ctx)) .trying

def find (s : Descriptors) (f : Nat) : Except Halt Descriptors :=
  match s.acts[f]? with
  | some (.io kind i d none .looking) => .ok (s.setAct f (found kind i d (s.ctxOf d.fd)))
  | _ => .error .disabled

/-- What a system call comes to. -/
inductive Answer where
  | fails
  | done
  /-- `EINTR` -/
  | intr
  /-- `EAGAIN`, or `EINPROGRESS` of `connect` -/
  | again
  /-- `accept` has made a descriptor -/
  | opened (fd : Nat)
  deriving DecidableEq, Repr

def use (s : Descriptors) (d : Desc) (waits : Bool) : Descriptors :=
  { s with uses := s.uses ++ [⟨d.file, s.table d.fd,
      waits && (s.table d.fd).any fun file => !nonblock (s.flags file)⟩] }

/-- The system call of `do_io`, or `connect`. Nothing but failure comes of a number that is
closed. -/
def attempt (s : Descriptors) (f : Nat) (answer : Answer) : Except Halt Descriptors :=
  match s.acts[f]? with
  | some (.io kind i d timeout .trying) =>
    if answer ≠ .fails ∧ s.table d.fd = none then .error .disabled
    else
      let s := s.use d timeout.isSome
      match kind, answer with
      | _, .fails => .ok (s.setAct f .idle)
      | .accept, .done => .error .disabled
      | .connect _, .done =>
        .ok ({ s with connected := Function.update s.connected i true }.setAct f .idle)
      | _, .done => .ok (s.setAct f .idle)
      | .connect _, .intr => .ok (s.setAct f .idle)
      | _, .intr => .ok (if timeout.isSome then s else s.setAct f .idle)
      | _, .again =>
        .ok (s.setAct f (if timeout.isSome then .io kind i d timeout .adding else .idle))
      | .accept, .opened fd =>
        if s.table fd = none then
          .ok ({ s.opens fd with created := s.created + 1 }.setAct f
            (.opening s.created ⟨fd, s.files⟩ true .opened))
        else .error .disabled
      | _, .opened _ => .error .disabled
  | _ => .error .disabled

/-- `addEvent`, which asserts that nobody waits for the event, and the yield. -/
def addEvent (s : Descriptors) (f : Nat) (fails : Bool) : Except Halt Descriptors :=
  match s.acts[f]? with
  | some (.io kind i d timeout .adding) =>
    if s.waiters d.fd kind.reads ≠ none then .error .crash
    else
      match if fails then none else s.table d.fd with
      | some file =>
        .ok ({ s with
          waiters := Function.update s.waiters d.fd
            (Function.update (s.waiters d.fd) kind.reads (some f)) }.setAct f
              (.io kind i d timeout (.waiting file)))
      | none =>
        match kind with
        | .connect _ => .ok (s.setAct f (.io kind i d timeout .asking))
        | _ => .ok (s.setAct f .idle)
  | _ => .error .disabled

def Act.wake (cancelled : Bool) : Act → Act
  | .io kind i d timeout (.waiting _) => .io kind i d timeout (.resumed cancelled)
  | a => a

/-- The event is taken out and its fiber scheduled. -/
def trigger (s : Descriptors) (fd : Nat) (reads cancelled : Bool) : Descriptors :=
  match s.waiters fd reads with
  | none => s
  | some f =>
    { s with
      waiters := Function.update s.waiters fd (Function.update (s.waiters fd) reads none)
      acts := s.acts.modify f (Act.wake cancelled) }

/-- `epoll_wait` reports the event, as long as the file is open. -/
def ready (s : Descriptors) (f : Nat) : Except Halt Descriptors :=
  match s.acts[f]? with
  | some (.io kind _ d _ (.waiting file)) =>
    if s.table d.fd = some file then .ok (s.trigger d.fd kind.reads false) else .error .disabled
  | _ => .error .disabled

/-- The condition timer runs out and finds its fiber; what else may come of it is in `Hook`. -/
def expire (s : Descriptors) (f : Nat) : Except Halt Descriptors :=
  match s.acts[f]? with
  | some (.io kind _ d (some timeout) (.waiting _)) =>
    if timeout ≠ -1 ∧ s.waiters d.fd kind.reads = some f then .ok (s.trigger d.fd kind.reads true)
    else .error .disabled
  | _ => .error .disabled

/-- The fiber goes on: `errno`, `goto retry`, or `getsockopt`. -/
def resume (s : Descriptors) (f : Nat) : Except Halt Descriptors :=
  match s.acts[f]? with
  | some (.io kind i d timeout (.resumed cancelled)) =>
    if cancelled then .ok (s.setAct f .idle)
    else
      match kind with
      | .connect _ => .ok (s.setAct f (.io kind i d timeout .asking))
      | _ => .ok (s.setAct f (.io kind i d timeout .trying))
  | _ => .error .disabled

/-- The `getsockopt` of `connect_with_timeout`, and whether it says that the socket is connected. -/
def getsockopt (s : Descriptors) (f : Nat) (ok : Bool) : Except Halt Descriptors :=
  match s.acts[f]? with
  | some (.io _ i d _ .asking) =>
    if ok = true ∧ s.table d.fd = none then .error .disabled
    else if ok then
      .ok ({ s.use d false with connected := Function.update s.connected i true }.setAct f .idle)
    else .ok ((s.use d false).setAct f .idle)
  | _ => .error .disabled

/-- `IOManager::cancelAll`. -/
def cancelFd (s : Descriptors) (fd : Nat) : Descriptors :=
  (s.trigger fd true false).trigger fd false false

/-- `Socket::cancelAll`. -/
def cancelAll (s : Descriptors) (i : Nat) : Except Halt Descriptors :=
  match s.sock i with
  | none => .error .disabled
  | some d => .ok (s.cancelFd d.fd)

/-- `Socket::close` up to the call of `close`. -/
def close (s : Descriptors) (f i : Nat) (hook : Bool) : Except Halt Descriptors :=
  match s.acts[f]? with
  | some .idle =>
    let s := { s with connected := Function.update s.connected i false }
    match s.sock i with
    | none => .ok s
    | some d => .ok (s.setAct f (.closing i d (if hook then .looking else .closing)))
  | _ => .error .disabled

/-- The hooked `close`, in its sections. -/
def closing (s : Descriptors) (f : Nat) : Except Halt Descriptors :=
  match s.acts[f]? with
  | some (.closing i d .looking) =>
    let stage := if (s.fds.lookup d.fd false).join.isSome then .cancelling else .closing
    .ok (s.setAct f (.closing i d stage))
  | some (.closing i d .cancelling) => .ok ((s.cancelFd d.fd).setAct f (.closing i d .deleting))
  | some (.closing i d .deleting) =>
    .ok ({ s with fds := s.fds.del d.fd }.setAct f (.closing i d .closing))
  | some (.closing i d .closing) =>
    .ok ({ s with table := Function.update s.table d.fd none }.setAct f
      (.closing i d .forgetting))
  | some (.closing i _ .forgetting) =>
    .ok ({ s with sock := Function.update s.sock i none }.setAct f .idle)
  | _ => .error .disabled

/-- `Socket::setRecvTimeout` and `setSendTimeout` under the hook. -/
def setTimeOut (s : Descriptors) (i : Nat) (type : SockOpt) (v : UInt64) : Descriptors :=
  match s.sock i with
  | none => s
  | some d =>
    let heap := (s.fds.lookup d.fd false).join.elim s.fds.heap fun id =>
      s.fds.heap.modify id (FdCtx.setTimeOut type v)
    { s with fds := { s.fds with heap := heap } }

inductive Op where
  /-- `new Socket` -/
  | create
  | socket (f i : Nat) (hook : Bool) (fd : Nat)
  | get (f : Nat)
  | insert (f : Nat)
  | assign (f : Nat)
  | ask (f : Nat) (kind : Kind) (i : Nat) (hook : Bool)
  | start (f : Nat)
  | find (f : Nat)
  | attempt (f : Nat) (answer : Answer)
  | addEvent (f : Nat) (fails : Bool)
  | ready (f : Nat)
  | expire (f : Nat)
  | resume (f : Nat)
  | getsockopt (f : Nat) (ok : Bool)
  | cancelAll (i : Nat)
  | close (f i : Nat) (hook : Bool)
  | closing (f : Nat)
  | setTimeOut (i : Nat) (type : SockOpt) (v : UInt64)
  deriving DecidableEq, Repr

def step (k : FlagKernel) (s : Descriptors) : Op → Except Halt Descriptors
  | .create => .ok { s with created := s.created + 1 }
  | .socket f i hook fd => s.socket f i hook fd
  | .get f => s.get f
  | .insert f => s.insert k f
  | .assign f => s.assign f
  | .ask f kind i hook => s.ask f kind i hook
  | .start f => s.start f
  | .find f => s.find f
  | .attempt f answer => s.attempt f answer
  | .addEvent f fails => s.addEvent f fails
  | .ready f => s.ready f
  | .expire f => s.expire f
  | .resume f => s.resume f
  | .getsockopt f ok => s.getsockopt f ok
  | .cancelAll i => s.cancelAll i
  | .close f i hook => s.close f i hook
  | .closing f => s.closing f
  | .setTimeOut i type v => .ok (s.setTimeOut i type v)

def Step (k : FlagKernel) (s : Descriptors) (op : Op) (s' : Descriptors) : Prop :=
  s.step k op = .ok s'

/-- The number that a fiber goes by. -/
def Act.holds : Act → Option Nat
  | .opening _ d _ _ => some d.fd
  | .io _ _ d _ _ => some d.fd
  | .closing _ d _ => some d.fd
  | _ => none

/-- The socket that a fiber opens. -/
def Act.opens : Act → Option Nat
  | .opening i _ _ _ => some i
  | _ => none

/-- The socket that a fiber closes. -/
def Act.closes : Act → Option Nat
  | .closing i _ _ => some i
  | _ => none

/-- The number whose waiters a fiber has cancelled. -/
def Act.past : Act → Option Nat
  | .closing _ d .deleting => some d.fd
  | .closing _ d .closing => some d.fd
  | .closing _ d .forgetting => some d.fd
  | _ => none

/-- No fiber goes by the number, and the table of contexts can have it. -/
def Free (s : Descriptors) (fd : Nat) : Prop :=
  (∀ a ∈ s.acts, a.holds ≠ some fd) ∧ fd * 3 / 2 < 2147483648

/-- A number is given out again when no fiber goes by it any more; a socket is opened, and closed,
by one fiber at a time, and closed under the hook when it has a context; and no fiber begins to wait
on a number whose waiters have been cancelled. -/
def Orderly (s : Descriptors) : Op → Prop
  | .socket _ i _ fd => s.Free fd ∧ ∀ a ∈ s.acts, a.opens ≠ some i
  | .attempt _ (.opened fd) => s.Free fd
  | .addEvent f _ => ∀ b ∈ s.acts[f]?, ∀ a ∈ s.acts, a.past ≠ none → a.past ≠ b.holds
  | .close _ i hook => (∀ a ∈ s.acts, a.closes ≠ some i) ∧
      (hook = false → ∀ d, s.sock i = some d → s.fds.slot d.fd = none)
  | _ => True

/-- Two sockets have two descriptors; every system call goes to the file that its socket was opened
for, or to none; one that the hook made wait cannot block the thread; a context is of the file that
its descriptor stands for; and a fiber that waits can be woken. -/
structure Separate (s : Descriptors) : Prop where
  apart : ∀ i j d e, s.sock i = some d → s.sock j = some e → d.fd = e.fd → i = j
  own : ∀ u ∈ s.uses, u.used = none ∨ u.used = some u.opened
  prompt : ∀ u ∈ s.uses, u.blocks = false
  fresh : ∀ fd id, s.fds.slot fd = some id →
    ∃ file, s.table fd = some file ∧ s.madeFor id = some file
  woken : ∀ kind i d timeout file, .io kind i d timeout (.waiting file) ∈ s.acts →
    s.table d.fd = some file

/-- The number that a fiber opens. -/
def Act.taken : Act → Option Nat
  | .opening _ d _ _ => some d.fd
  | _ => none

/-- Two fibers do not open or close one socket. -/
structure Apart (a b : Act) : Prop where
  closes : a.closes ≠ none → a.closes ≠ b.closes
  opens : a.opens ≠ none → a.opens ≠ b.opens
  taken : a.taken ≠ none → a.taken ≠ b.taken

/-- What holds of each fiber's activity. -/
def Fine (s : Descriptors) : Act → Prop
  | .opening i d _ _ => s.table d.fd = some d.file ∧ s.sock i = none ∧ i < s.created ∧
      d.fd * 3 / 2 < 2147483648 ∧ ∀ j e, s.sock j = some e → e.fd ≠ d.fd
  | .io _ _ d timeout place => (s.table d.fd = none ∨ s.table d.fd = some d.file) ∧
      (place = .adding → timeout ≠ none) ∧
      (timeout ≠ none → nonblock (s.flags d.file) = true ∧
        (s.table d.fd = none ∨ s.fds.slot d.fd ≠ none ∨ ∃ a ∈ s.acts, a.past = some d.fd))
  | .closing i d stage => s.sock i = some d ∧
      (stage ≠ .forgetting → s.table d.fd = some d.file) ∧
      (stage = .closing → s.fds.slot d.fd = none) ∧
      (stage = .forgetting → s.table d.fd = none)
  | _ => True

/-- The part of the invariant that no fiber's place is in. -/
structure Base (s : Descriptors) : Prop where
  size_ge : 64 ≤ s.fds.datas.length
  size_lt : s.fds.datas.length < 2147483648
  made_lt : ∀ fd id, s.fds.slot fd = some id → id < s.fds.heap.length
  sock_lt : ∀ i d, s.sock i = some d → i < s.created
  apart : ∀ i j d e, s.sock i = some d → s.sock j = some e → d.fd = e.fd → i = j
  own : ∀ u ∈ s.uses, u.used = none ∨ u.used = some u.opened
  prompt : ∀ u ∈ s.uses, u.blocks = false
  fresh : ∀ fd id, s.fds.slot fd = some id →
    ∃ file, s.table fd = some file ∧ s.madeFor id = some file
  nonblocking : ∀ fd id file, s.fds.slot fd = some id → s.table fd = some file →
    nonblock (s.flags file) = true

structure Inv (s : Descriptors) : Prop extends Base s where
  sock_table : ∀ i d, s.sock i = some d →
    s.table d.fd = some d.file ∨ .closing i d .forgetting ∈ s.acts
  fine : ∀ a ∈ s.acts, s.Fine a
  distinct : ∀ (f g : Nat) (a b : Act), f ≠ g → s.acts[f]? = some a → s.acts[g]? = some b →
    Apart a b
  waiting : ∀ (f : Nat) kind i d timeout file,
    s.acts[f]? = some (.io kind i d timeout (.waiting file)) →
      s.waiters d.fd kind.reads = some f ∧ s.table d.fd = some file ∧ s.fds.slot d.fd ≠ none ∧
        ∀ a ∈ s.acts, a.past ≠ some d.fd

section Acts

variable {s s' : Descriptors} {f : Nat} {old new : Act}

theorem Inv.separate (h : Inv s) : Separate s where
  apart := h.apart
  own := h.own
  prompt := h.prompt
  fresh := h.fresh
  woken kind i d timeout file hmem := by
    obtain ⟨f, hf⟩ := List.mem_iff_getElem?.mp hmem
    exact (h.waiting f kind i d timeout file hf).2.1

theorem Inv.fine_at (h : Inv s) {a : Act} (hf : s.acts[f]? = some a) : s.Fine a :=
  h.fine a (List.mem_of_getElem? hf)

/-- One fiber goes on. -/
theorem getElem?_set_cases (hf : s.acts[f]? = some old) {g : Nat} {b : Act}
    (hg : (s.acts.set f new)[g]? = some b) : (g = f ∧ b = new) ∨ (g ≠ f ∧ s.acts[g]? = some b) := by
  obtain ⟨hlt, -⟩ := List.getElem?_eq_some_iff.mp hf
  rw [List.getElem?_set] at hg
  by_cases hfg : f = g
  · subst hfg
    rw [if_pos rfl, if_pos hlt] at hg
    exact .inl ⟨rfl, (Option.some.inj hg).symm⟩
  · rw [if_neg hfg] at hg
    exact .inr ⟨fun h => hfg h.symm, hg⟩

theorem mem_set_cases (hf : s.acts[f]? = some old) {b : Act} (hb : b ∈ s.acts.set f new) :
    b = new ∨ ∃ g, g ≠ f ∧ s.acts[g]? = some b := by
  obtain ⟨g, hg⟩ := List.mem_iff_getElem?.mp hb
  cases getElem?_set_cases hf hg with
  | inl h => exact .inl h.2
  | inr h => exact .inr ⟨g, h⟩

theorem mem_set_self (hf : s.acts[f]? = some old) : new ∈ s.acts.set f new := by
  obtain ⟨hlt, -⟩ := List.getElem?_eq_some_iff.mp hf
  exact List.mem_set hlt new

theorem mem_set_of_ne (hf : s.acts[f]? = some old) {b : Act} (hb : b ∈ s.acts) (hne : b ≠ old) :
    b ∈ s.acts.set f new := by
  obtain ⟨g, hg⟩ := List.mem_iff_getElem?.mp hb
  have hfg : f ≠ g := by
    rintro rfl
    exact hne (Option.some.inj (hg.symm.trans hf))
  exact List.mem_of_getElem? ((List.getElem?_set_ne hfg).trans hg)

/-- What has been past its cancelling still is. -/
theorem past_set (hf : s.acts[f]? = some old) (hpast : old.past = none ∨ new.past = old.past)
    {fd : Nat} (h : ∃ a ∈ s.acts, a.past = some fd) : ∃ a ∈ s.acts.set f new, a.past = some fd := by
  obtain ⟨a, ha, hfd⟩ := h
  by_cases heq : a = old
  · subst heq
    cases hpast with
    | inl hnone => cases hnone.symm.trans hfd
    | inr hsame => exact ⟨new, mem_set_self hf, hsame.trans hfd⟩
  · exact ⟨a, mem_set_of_ne hf ha heq, hfd⟩

/-- And nothing else is. -/
theorem not_past_set (hf : s.acts[f]? = some old) {fd : Nat}
    (hno : ∀ a ∈ s.acts, a.past ≠ some fd) (hnew : new.past ≠ some fd) :
    ∀ a ∈ s.acts.set f new, a.past ≠ some fd := by
  intro a ha
  cases mem_set_cases hf ha with
  | inl heq => exact heq ▸ hnew
  | inr hex =>
    obtain ⟨g, -, hg⟩ := hex
    exact hno a (List.mem_of_getElem? hg)

theorem Apart.symm {a b : Act} (h : Apart a b) : Apart b a where
  closes hb heq := h.closes (heq ▸ hb) heq.symm
  opens hb heq := h.opens (heq ▸ hb) heq.symm
  taken hb heq := h.taken (heq ▸ hb) heq.symm

theorem Apart.of_eq {a b : Act} (h : Apart old b) (hcloses : a.closes = old.closes)
    (hopens : a.opens = old.opens) (htaken : a.taken = old.taken) : Apart a b where
  closes := by
    rw [hcloses]
    exact h.closes
  opens := by
    rw [hopens]
    exact h.opens
  taken := by
    rw [htaken]
    exact h.taken

theorem apart_of_none {a b : Act} (hcloses : a.closes = none) (hopens : a.opens = none)
    (htaken : a.taken = none) : Apart a b where
  closes h := absurd hcloses h
  opens h := absurd hopens h
  taken h := absurd htaken h

/-- `Fine` looks at the other fibers only for a number that is past its cancelling. -/
theorem Fine.mono {a : Act} (h : s.Fine a) (htable : s'.table = s.table) (hsock : s'.sock = s.sock)
    (hcreated : s'.created = s.created) (hflags : s'.flags = s.flags)
    (hslot : s'.fds.slot = s.fds.slot)
    (hpast : ∀ fd, (∃ b ∈ s.acts, b.past = some fd) → s'.table fd = none ∨
      ∃ b ∈ s'.acts, b.past = some fd) : s'.Fine a := by
  cases a with
  | idle => trivial
  | asked kind i hook => trivial
  | opening i d accepted stage =>
    rw [Fine, htable, hsock, hcreated]
    exact h
  | closing i d stage =>
    rw [Fine, htable, hsock, hslot]
    exact h
  | io kind i d timeout place =>
    obtain ⟨hfile, hplace, hwait⟩ := h
    refine ⟨htable ▸ hfile, hplace, fun hsome => ?_⟩
    obtain ⟨hnonblock, hctx⟩ := hwait hsome
    refine ⟨hflags ▸ hnonblock, ?_⟩
    rcases hctx with hnone | hslot' | hex
    · exact .inl (htable ▸ hnone)
    · exact .inr (.inl (hslot ▸ hslot'))
    · exact (hpast _ hex).imp id .inr

theorem Inv.distinct_set (h : Inv s) (hf : s.acts[f]? = some old)
    (hapart : ∀ g b, g ≠ f → s.acts[g]? = some b → Apart new b) (g g' : Nat) (a b : Act)
    (hne : g ≠ g') (hg : (s.acts.set f new)[g]? = some a)
    (hg' : (s.acts.set f new)[g']? = some b) : Apart a b := by
  cases getElem?_set_cases hf hg with
  | inl hl =>
    obtain ⟨rfl, rfl⟩ := hl
    cases getElem?_set_cases hf hg' with
    | inl hl' => exact absurd hl'.1.symm hne
    | inr hr' => exact hapart g' b hr'.1 hr'.2
  | inr hr =>
    cases getElem?_set_cases hf hg' with
    | inl hl' =>
      obtain ⟨rfl, rfl⟩ := hl'
      exact (hapart g a hr.1 hr.2).symm
    | inr hr' => exact h.distinct g g' a b hne hr.2 hr'.2

theorem Inv.fine_set (h : Inv s) (hf : s.acts[f]? = some old) (hfine : s.Fine new)
    (hpast : old.past = none ∨ new.past = old.past) :
    ∀ a ∈ s.acts.set f new, (s.setAct f new).Fine a := by
  intro a ha
  have hmono : ∀ b, s.Fine b → (s.setAct f new).Fine b := fun b hb =>
    hb.mono rfl rfl rfl rfl rfl fun fd hex => .inr (past_set hf hpast hex)
  cases mem_set_cases hf ha with
  | inl heq => exact heq ▸ hmono new hfine
  | inr hex =>
    obtain ⟨g, -, hg⟩ := hex
    exact hmono a (h.fine_at hg)

/-- A fiber goes on, and all else stays. -/
theorem Inv.move (h : Inv s) (hf : s.acts[f]? = some old) (hfine : s.Fine new)
    (hpast : old.past = none ∨ new.past = old.past)
    (hapart : ∀ g b, g ≠ f → s.acts[g]? = some b → Apart new b)
    (hforget : ∀ i d, old ≠ .closing i d .forgetting)
    (hwait : ∀ kind i d timeout file, new ≠ .io kind i d timeout (.waiting file))
    (hnew : ∀ fd, new.past = some fd → old.past = some fd ∨
      ∀ (g : Nat) kind i d timeout file,
        s.acts[g]? = some (.io kind i d timeout (.waiting file)) → d.fd ≠ fd) :
    Inv (s.setAct f new) where
  toBase := ⟨h.size_ge, h.size_lt, h.made_lt, h.sock_lt, h.apart, h.own, h.prompt, h.fresh,
    h.nonblocking⟩
  sock_table i d hi := by
    refine (h.sock_table i d hi).imp id fun hmem => ?_
    exact mem_set_of_ne hf hmem (hforget i d).symm
  fine := h.fine_set hf hfine hpast
  distinct := h.distinct_set hf hapart
  waiting g kind i d timeout file hg := by
    cases getElem?_set_cases hf hg with
    | inl hl => exact absurd hl.2.symm (hwait kind i d timeout file)
    | inr hr =>
      obtain ⟨hwaiter, htable, hslot, hpasts⟩ := h.waiting g kind i d timeout file hr.2
      refine ⟨hwaiter, htable, hslot, not_past_set hf hpasts fun hfd => ?_⟩
      cases hnew d.fd hfd with
      | inl hold => exact hpasts old (List.mem_of_getElem? hf) hold
      | inr hnone => exact hnone g kind i d timeout file hr.2 rfl

/-- A fiber goes on to something that opens and closes nothing and does not wait. -/
theorem Inv.free (h : Inv s) (hf : s.acts[f]? = some old) (hfine : s.Fine new)
    (hold : old.past = none) (hcloses : new.closes = none) (hopens : new.opens = none)
    (htaken : new.taken = none) (hpast : new.past = none)
    (hwait : ∀ kind i d timeout file, new ≠ .io kind i d timeout (.waiting file)) :
    Inv (s.setAct f new) := by
  refine h.move hf hfine (.inl hold) (fun g b _ _ => apart_of_none hcloses hopens htaken) ?_
    hwait ?_
  · rintro i d rfl
    cases hold
  · intro fd hfd
    cases hpast.symm.trans hfd

theorem Inv.idle (h : Inv s) (hf : s.acts[f]? = some old) (hold : old.past = none) :
    Inv (s.setAct f .idle) :=
  h.free hf trivial hold rfl rfl rfl rfl fun _ _ _ _ _ heq => by cases heq

/-! ## The kernel's part -/

theorem Inv.connect (h : Inv s) (connected : Nat → Bool) :
    Inv { s with connected := connected } where
  toBase := ⟨h.size_ge, h.size_lt, h.made_lt, h.sock_lt, h.apart, h.own, h.prompt, h.fresh,
    h.nonblocking⟩
  sock_table := h.sock_table
  fine a ha := (h.fine a ha).mono rfl rfl rfl rfl rfl fun _ hex => .inr hex
  distinct := h.distinct
  waiting := h.waiting

/-- A system call in the place of a fiber that has the descriptor. -/
theorem Inv.use (h : Inv s) {kind : Kind} {i : Nat} {d : Desc} {timeout : Option UInt64}
    {place : Place} (hf : s.acts[f]? = some (.io kind i d timeout place)) {waits : Bool}
    (hwaits : waits = true → timeout ≠ none) : Inv (s.use d waits) where
  toBase := by
    obtain ⟨hfile, -, hwait⟩ := h.fine_at hf
    refine ⟨h.size_ge, h.size_lt, h.made_lt, h.sock_lt, h.apart, ?_, ?_, h.fresh, h.nonblocking⟩
    · intro u hu
      cases List.mem_append.mp hu with
      | inl hold => exact h.own u hold
      | inr hnew =>
        rw [List.mem_singleton.mp hnew]
        exact hfile
    · intro u hu
      cases List.mem_append.mp hu with
      | inl hold => exact h.prompt u hold
      | inr hnew =>
        rw [List.mem_singleton.mp hnew]
        cases waits with
        | false => rfl
        | true =>
          obtain ⟨hnonblock, -⟩ := hwait (hwaits rfl)
          cases hfile with
          | inl hnone => simp [hnone]
          | inr hsome => simp [hsome, hnonblock]
  sock_table := h.sock_table
  fine a ha := (h.fine a ha).mono rfl rfl rfl rfl rfl fun _ hex => .inr hex
  distinct := h.distinct
  waiting := h.waiting

theorem Inv.create (h : Inv s) : Inv { s with created := s.created + 1 } where
  toBase := ⟨h.size_ge, h.size_lt, h.made_lt, fun i d hi => Nat.lt_succ_of_lt (h.sock_lt i d hi),
    h.apart, h.own, h.prompt, h.fresh, h.nonblocking⟩
  sock_table := h.sock_table
  fine a ha := by
    have hfine := h.fine a ha
    cases a with
    | opening i d accepted stage =>
      obtain ⟨htable, hsock, hlt, hrest⟩ := hfine
      exact ⟨htable, hsock, Nat.lt_succ_of_lt hlt, hrest⟩
    | idle => trivial
    | asked kind i hook => trivial
    | io kind i d timeout place => exact hfine
    | closing i d stage => exact hfine
  distinct := h.distinct
  waiting := h.waiting

/-- What a fiber has in hand is no number that is free. -/
theorem Free.ne {fd : Nat} (hfree : s.Free fd) {a : Act} (ha : a ∈ s.acts) {fd' : Nat}
    (hholds : a.holds = some fd') : fd' ≠ fd := by
  rintro rfl
  exact hfree.1 a ha hholds

/-- Neither has a socket. -/
theorem Inv.sock_ne (h : Inv s) {fd : Nat} (hfree : s.Free fd) (hnone : s.table fd = none)
    {i : Nat} {d : Desc} (hi : s.sock i = some d) : d.fd ≠ fd := by
  cases h.sock_table i d hi with
  | inl htable =>
    rintro rfl
    cases hnone.symm.trans htable
  | inr hmem => exact hfree.ne hmem rfl

theorem table_opens {fd fd' : Nat} (hne : fd' ≠ fd) : (s.opens fd).table fd' = s.table fd' :=
  Function.update_of_ne hne _ _

theorem Inv.opens (h : Inv s) {fd : Nat} (hfree : s.Free fd) (hnone : s.table fd = none) :
    Inv (s.opens fd) where
  toBase := by
    have hslot : ∀ fd' id, s.fds.slot fd' = some id → fd' ≠ fd := by
      rintro fd' id hid rfl
      obtain ⟨file, hfile, -⟩ := h.fresh fd' id hid
      cases hnone.symm.trans hfile
    refine ⟨h.size_ge, h.size_lt, h.made_lt, h.sock_lt, h.apart, h.own, h.prompt, ?_, ?_⟩
    · intro fd' id hid
      rw [table_opens (hslot fd' id hid)]
      exact h.fresh fd' id hid
    · intro fd' id file hid
      rw [table_opens (hslot fd' id hid)]
      exact h.nonblocking fd' id file hid
  sock_table i d hi := by
    rw [table_opens (h.sock_ne hfree hnone hi)]
    exact h.sock_table i d hi
  fine a ha := by
    have hfine := h.fine a ha
    cases a with
    | idle => trivial
    | asked kind i hook => trivial
    | opening i d accepted stage =>
      rw [Fine, table_opens (hfree.ne ha rfl)]
      exact hfine
    | io kind i d timeout place =>
      rw [Fine, table_opens (hfree.ne ha rfl)]
      exact hfine
    | closing i d stage =>
      rw [Fine, table_opens (hfree.ne ha rfl)]
      exact hfine
  distinct := h.distinct
  waiting g kind i d timeout file hg := by
    rw [table_opens (hfree.ne (List.mem_of_getElem? hg) rfl)]
    exact h.waiting g kind i d timeout file hg

/-- The new descriptor is some fiber's, for a socket that nobody opens. -/
theorem Inv.opened (h : Inv s) {fd i : Nat} {accepted : Bool} {stage : Stage} (hfree : s.Free fd)
    (hnone : s.table fd = none) (hf : s.acts[f]? = some old) (hold : old.past = none)
    (hi : s.sock i = none) (hlt : i < s.created) (hopens : ∀ a ∈ s.acts, a.opens ≠ some i) :
    Inv ((s.opens fd).setAct f (.opening i ⟨fd, s.files⟩ accepted stage)) := by
  refine (h.opens hfree hnone).move hf ?_ (.inl hold) ?_ ?_ ?_ ?_
  · refine ⟨Function.update_self _ _ _, hi, hlt, hfree.2, fun j e hj => ?_⟩
    exact h.sock_ne hfree hnone hj
  · intro g b _ hg
    have hmem := List.mem_of_getElem? hg
    refine ⟨fun hne => absurd rfl hne, fun _ heq => hopens b hmem heq.symm, fun _ heq => ?_⟩
    cases b with
    | opening j e _ _ => exact hfree.1 _ hmem heq.symm
    | idle => cases heq
    | asked kind i hook => cases heq
    | io kind i d timeout place => cases heq
    | closing i d stage => cases heq
  · rintro j d rfl
    cases hold
  · intro kind j d timeout file heq
    cases heq
  · intro fd' hfd
    cases hfd

/-! ## Contexts -/

theorem lookup_slot (h : Base s) (fd : Nat) :
    s.fds.lookup fd false = some (s.fds.slot fd) := by
  refine (FdManager.lookup_eq h.size_lt fd false).trans (if_pos ?_)
  rw [Bool.not_false, Bool.or_true]

theorem slot_of_ctxOf (h : Base s) {fd : Nat} {ctx : FdCtx} (hctx : s.ctxOf fd = some ctx) :
    ∃ id, s.fds.slot fd = some id := by
  cases hslot : s.fds.slot fd with
  | none =>
    simp [ctxOf, lookup_slot h, hslot] at hctx
  | some id => exact ⟨id, rfl⟩

/-- A context makes its file non-blocking. -/
theorem nonblock_create (k : FlagKernel) (flags : BitVec 32) :
    nonblock (FdCtx.create k (some true) flags).2 = true := by
  cases hflags : nonblock flags with
  | true => simp [FdCtx.create, FdCtx.init, hflags]
  | false =>
    simp [FdCtx.create, FdCtx.init, hflags, FlagKernel.setfl, k.refuses_nonblock,
      k.settable_nonblock]

/-- And none that was so becomes blocking. -/
theorem nonblock_newCtx (k : FlagKernel) {fd file : Nat} (h : nonblock (s.flags file) = true) :
    nonblock ((newCtx k s fd).2 file) = true := by
  rw [newCtx]
  split
  · exact h
  · rename_i file' _
    dsimp only
    by_cases heq : file = file'
    · subst heq
      rw [Function.update_self]
      exact nonblock_create k _
    · rw [Function.update_of_ne heq]
      exact h

/-- The second part of `get`, from the sizes alone. -/
theorem insert_spec (h : Base s) {fd id : Nat} {ctx : FdCtx} {fds : FdManager}
    (hfd : fd * 3 / 2 < 2147483648) (hins : s.fds.insert fd ctx = some (fds, id)) :
    id = s.fds.heap.length ∧ fds.heap.length = s.fds.heap.length + 1 ∧
      (∀ fd', fds.slot fd' = if fd = fd' then some id else s.fds.slot fd') ∧
      64 ≤ fds.datas.length ∧ fds.datas.length < 2147483648 := by
  obtain ⟨hgrown, hlt, hlength⟩ := FdManager.grown_spec h.size_lt h.size_ge fd
  rw [FdManager.insert, if_pos hlt, Option.some.injEq, Prod.mk.injEq] at hins
  obtain ⟨rfl, rfl⟩ := hins
  have hge := h.size_ge
  have hsize := h.size_lt
  refine ⟨rfl, List.length_append, fun fd' => ?_, ?_, ?_⟩
  · rw [FdManager.slot, FdManager.getD_set _ _ hlt, hgrown]
  · rw [List.length_set, hlength]
    split <;> omega
  · rw [List.length_set, hlength]
    split <;> omega

/-- The context of a descriptor that is being opened. -/
theorem Inv.insert (h : Inv s) (k : FlagKernel) {i : Nat} {d : Desc} {accepted : Bool}
    {stage : Stage} (hf : s.acts[f]? = some (.opening i d accepted stage)) {fds : FdManager}
    {id : Nat} (hins : s.fds.insert d.fd (newCtx k s d.fd).1 = some (fds, id)) :
    Inv { s with
      fds := fds
      flags := (newCtx k s d.fd).2
      madeFor := Function.update s.madeFor id (s.table d.fd) } := by
  obtain ⟨htable, -, -, hsize, hsocks⟩ := h.fine_at hf
  obtain ⟨hid, hheap, hslot, hge, hlt⟩ := insert_spec h.toBase hsize hins
  have hkept : ∀ fd', s.fds.slot fd' ≠ none → fds.slot fd' ≠ none := by
    intro fd' hne
    rw [hslot]
    split
    · exact Option.some_ne_none id
    · exact hne
  constructor
  case toBase =>
    refine ⟨hge, hlt, ?_, h.sock_lt, h.apart, h.own, h.prompt, ?_, ?_⟩
    · intro fd' id' hid'
      rw [hslot] at hid'
      rw [hheap]
      split at hid'
      · cases hid'
        omega
      · have hlt' := h.made_lt fd' id' hid'
        omega
    · intro fd' id' hid'
      rw [hslot] at hid'
      split at hid'
      · rename_i heq
        subst heq
        cases hid'
        exact ⟨d.file, htable, (Function.update_self _ _ _).trans htable⟩
      · have hlt' := h.made_lt fd' id' hid'
        have hne : id' ≠ id := by omega
        obtain ⟨file, hfile, hmade⟩ := h.fresh fd' id' hid'
        exact ⟨file, hfile, (Function.update_of_ne hne _ _).trans hmade⟩
    · intro fd' id' file hid' hfile
      rw [hslot] at hid'
      split at hid'
      · rename_i heq
        subst heq
        have hfile : s.table d.fd = some file := hfile
        simp only [newCtx, hfile, Function.update_self]
        exact nonblock_create k _
      · exact nonblock_newCtx k (h.nonblocking fd' id' file hid' hfile)
  case sock_table => exact h.sock_table
  case fine =>
    intro a ha
    have hfine := h.fine a ha
    cases a with
    | idle => trivial
    | asked kind i hook => trivial
    | opening j e _ _ => exact hfine
    | io kind j e timeout place =>
      obtain ⟨hfile, hplace, hwait⟩ := hfine
      refine ⟨hfile, hplace, fun hsome => ?_⟩
      obtain ⟨hnonblock, hctx⟩ := hwait hsome
      exact ⟨nonblock_newCtx k hnonblock, hctx.imp (fun h => h) (Or.imp (hkept e.fd) fun h => h)⟩
    | closing j e stage =>
      obtain ⟨hj, hopen, hno, hforgot⟩ := hfine
      refine ⟨hj, hopen, fun hclosing => ?_, hforgot⟩
      have hne : d.fd ≠ e.fd := (hsocks j e hj).symm
      exact (hslot e.fd).trans ((if_neg hne).trans (hno hclosing))
  case distinct => exact h.distinct
  case waiting =>
    intro g kind j e timeout file hg
    obtain ⟨hwaiter, hfile, hne, hpasts⟩ := h.waiting g kind j e timeout file hg
    exact ⟨hwaiter, hfile, hkept e.fd hne, hpasts⟩

/-- What the contexts hold is no part of the invariant. -/
theorem Inv.heap (h : Inv s) {fds : FdManager} (hdatas : fds.datas = s.fds.datas)
    (hheap : fds.heap.length = s.fds.heap.length) : Inv { s with fds := fds } := by
  have hslot : fds.slot = s.fds.slot := by
    funext fd
    rw [FdManager.slot, FdManager.slot, hdatas]
  constructor
  case toBase =>
    constructor
    case size_ge => exact hdatas ▸ h.size_ge
    case size_lt => exact hdatas ▸ h.size_lt
    case made_lt =>
      intro fd id hid
      rw [hheap]
      exact h.made_lt fd id (hslot ▸ hid)
    case sock_lt => exact h.sock_lt
    case apart => exact h.apart
    case own => exact h.own
    case prompt => exact h.prompt
    case fresh => exact fun fd id hid => h.fresh fd id (hslot ▸ hid)
    case nonblocking => exact fun fd id file hid => h.nonblocking fd id file (hslot ▸ hid)
  case sock_table => exact h.sock_table
  case fine => exact fun a ha =>
    (h.fine a ha).mono rfl rfl rfl rfl hslot fun _ hex => .inr hex
  case distinct => exact h.distinct
  case waiting =>
    intro g kind i d timeout file hg
    obtain ⟨hwaiter, htable, hne, hpasts⟩ := h.waiting g kind i d timeout file hg
    exact ⟨hwaiter, htable, hslot.symm ▸ hne, hpasts⟩

theorem Inv.setTimeOut (h : Inv s) (i : Nat) (type : SockOpt) (v : UInt64) :
    Inv (s.setTimeOut i type v) := by
  rw [Descriptors.setTimeOut]
  split
  · exact h
  · refine h.heap rfl ?_
    dsimp only
    generalize (s.fds.lookup _ false).join = found
    cases found with
    | none => rfl
    | some id => exact List.length_modify _ _ _

theorem slot_del (h : Base s) (fd fd' : Nat) :
    (s.fds.del fd).slot fd' = if fd = fd' then none else s.fds.slot fd' := by
  rw [FdManager.del, FdManager.toInt_length h.size_lt]
  by_cases hfd : (s.fds.datas.length : Int) ≤ fd
  · rw [if_pos hfd]
    split
    · rename_i heq
      have hle : s.fds.datas.length ≤ fd' := by omega
      exact List.getD_eq_default _ _ hle
    · rfl
  · rw [if_neg hfd]
    exact FdManager.getD_set _ _ (by omega)

/-- The context of a number whose waiters have been cancelled goes. -/
theorem Inv.dropped (h : Inv s) {fds : FdManager} {fd : Nat}
    (hlength : fds.datas.length = s.fds.datas.length) (hheap : fds.heap = s.fds.heap)
    (hdel : ∀ fd', fds.slot fd' = if fd = fd' then none else s.fds.slot fd')
    (hpast : ∃ a ∈ s.acts, a.past = some fd) : Inv { s with fds := fds } := by
  have hslot : ∀ fd' id, fds.slot fd' = some id → s.fds.slot fd' = some id := by
    intro fd' id hid
    rw [hdel] at hid
    split at hid
    · cases hid
    · exact hid
  constructor
  case toBase =>
    refine ⟨hlength ▸ h.size_ge, hlength ▸ h.size_lt, ?_, h.sock_lt, h.apart, h.own, h.prompt,
      fun fd' id hid => h.fresh fd' id (hslot fd' id hid),
      fun fd' id file hid => h.nonblocking fd' id file (hslot fd' id hid)⟩
    intro fd' id hid
    rw [hheap]
    exact h.made_lt fd' id (hslot fd' id hid)
  case sock_table => exact h.sock_table
  case fine =>
    intro a ha
    have hfine := h.fine a ha
    cases a with
    | idle => trivial
    | asked kind i hook => trivial
    | opening j e accepted stage => exact hfine
    | io kind j e timeout place =>
      obtain ⟨hfile, hplace, hwait⟩ := hfine
      refine ⟨hfile, hplace, fun hsome => ?_⟩
      obtain ⟨hnonblock, hctx⟩ := hwait hsome
      refine ⟨hnonblock, ?_⟩
      by_cases heq : fd = e.fd
      · exact .inr (.inr (heq ▸ hpast))
      · have hsame : fds.slot e.fd = s.fds.slot e.fd := (hdel e.fd).trans (if_neg heq)
        exact hctx.imp (fun h => h) (Or.imp (fun hne => hsame.symm ▸ hne) fun h => h)
    | closing j e stage =>
      obtain ⟨hj, hopen, hno, hforgot⟩ := hfine
      refine ⟨hj, hopen, fun hclosing => ?_, hforgot⟩
      refine (hdel e.fd).trans ?_
      split
      · rfl
      · exact hno hclosing
  case distinct => exact h.distinct
  case waiting =>
    intro g kind j e timeout file hg
    obtain ⟨hwaiter, hfile, hne, hpasts⟩ := h.waiting g kind j e timeout file hg
    have hfd : fd ≠ e.fd := by
      rintro rfl
      obtain ⟨a, ha, hp⟩ := hpast
      exact hpasts a ha hp
    refine ⟨hwaiter, hfile, ?_, hpasts⟩
    have hsame : fds.slot e.fd = s.fds.slot e.fd := (hdel e.fd).trans (if_neg hfd)
    exact hsame.symm ▸ hne

/-! ## Waiters -/

@[simp] theorem past_wake (c : Bool) (a : Act) : (a.wake c).past = a.past := by
  cases a with
  | io kind i d timeout place => cases place <;> rfl
  | _ => rfl

@[simp] theorem closes_wake (c : Bool) (a : Act) : (a.wake c).closes = a.closes := by
  cases a with
  | io kind i d timeout place => cases place <;> rfl
  | _ => rfl

@[simp] theorem opens_wake (c : Bool) (a : Act) : (a.wake c).opens = a.opens := by
  cases a with
  | io kind i d timeout place => cases place <;> rfl
  | _ => rfl

@[simp] theorem taken_wake (c : Bool) (a : Act) : (a.wake c).taken = a.taken := by
  cases a with
  | io kind i d timeout place => cases place <;> rfl
  | _ => rfl

theorem wake_ne (c : Bool) (a : Act) {kind : Kind} {i : Nat} {d : Desc} {timeout : Option UInt64}
    {file : Nat} : a.wake c ≠ .io kind i d timeout (.waiting file) := by
  cases a with
  | io kind i d timeout place => cases place <;> exact fun h => by cases h
  | _ => exact fun h => by cases h

theorem Fine.wake {a : Act} (h : s.Fine a) (c : Bool) : s.Fine (a.wake c) := by
  cases a with
  | io kind i d timeout place =>
    cases place with
    | waiting file => exact ⟨h.1, Place.noConfusion, h.2.2⟩
    | _ => exact h
  | _ => exact h

section Trigger

variable {fd : Nat} {reads cancelled : Bool}

theorem trigger_frame (s : Descriptors) (fd : Nat) (reads cancelled : Bool) :
    (s.trigger fd reads cancelled).table = s.table ∧
      (s.trigger fd reads cancelled).sock = s.sock ∧
      (s.trigger fd reads cancelled).created = s.created ∧
      (s.trigger fd reads cancelled).flags = s.flags ∧
      (s.trigger fd reads cancelled).fds = s.fds ∧
      (s.trigger fd reads cancelled).uses = s.uses ∧
      (s.trigger fd reads cancelled).madeFor = s.madeFor := by
  rw [trigger]
  split <;> exact ⟨rfl, rfl, rfl, rfl, rfl, rfl, rfl⟩

theorem acts_trigger (s : Descriptors) (fd : Nat) (reads cancelled : Bool) (g : Nat) :
    (s.trigger fd reads cancelled).acts[g]? =
      s.acts[g]?.map fun a => if s.waiters fd reads = some g then a.wake cancelled else a := by
  rw [trigger]
  split
  · rename_i hnone
    simp [hnone]
  · rename_i f hsome
    simp only [hsome, Option.some.injEq, List.getElem?_modify]
    rfl

theorem waiters_trigger {fd' : Nat} {reads' : Bool} (hne : ¬(fd' = fd ∧ reads' = reads)) :
    (s.trigger fd reads cancelled).waiters fd' reads' = s.waiters fd' reads' := by
  rw [trigger]
  split
  · rfl
  · by_cases hfd : fd' = fd
    · subst hfd
      have hreads : reads' ≠ reads := fun heq => hne ⟨rfl, heq⟩
      simp only [Function.update_self, Function.update_of_ne hreads]
    · simp only [Function.update_of_ne hfd]

theorem mem_trigger {b : Act} (hb : b ∈ (s.trigger fd reads cancelled).acts) :
    ∃ a ∈ s.acts, b = a ∨ b = a.wake cancelled := by
  obtain ⟨g, hg⟩ := List.mem_iff_getElem?.mp hb
  rw [acts_trigger, Option.map_eq_some_iff] at hg
  obtain ⟨a, ha, rfl⟩ := hg
  refine ⟨a, List.mem_of_getElem? ha, ?_⟩
  split
  · exact .inr rfl
  · exact .inl rfl

theorem trigger_mem (fd : Nat) (reads cancelled : Bool) {a : Act} (ha : a ∈ s.acts) :
    ∃ b ∈ (s.trigger fd reads cancelled).acts, b = a ∨ b = a.wake cancelled := by
  obtain ⟨g, hg⟩ := List.mem_iff_getElem?.mp ha
  refine ⟨_, List.mem_of_getElem? ((acts_trigger s fd reads cancelled g).trans
    (congrArg (Option.map _) hg)), ?_⟩
  dsimp only
  split
  · exact .inr rfl
  · exact .inl rfl

/-- A fiber that still waits is not the one that was woken. -/
theorem Inv.still (h : Inv s) {g : Nat} {kind : Kind} {i : Nat} {d : Desc}
    {timeout : Option UInt64} {file : Nat}
    (hg : (s.trigger fd reads cancelled).acts[g]? = some (.io kind i d timeout (.waiting file))) :
    s.acts[g]? = some (.io kind i d timeout (.waiting file)) ∧
      ¬(d.fd = fd ∧ kind.reads = reads) := by
  rw [acts_trigger, Option.map_eq_some_iff] at hg
  obtain ⟨a, ha, heq⟩ := hg
  split at heq
  · exact absurd heq (wake_ne cancelled a)
  · rename_i hnot
    subst heq
    refine ⟨ha, ?_⟩
    rintro ⟨rfl, rfl⟩
    exact hnot (h.waiting g kind i d timeout file ha).1

theorem Inv.trigger (h : Inv s) (fd : Nat) (reads cancelled : Bool) :
    Inv (s.trigger fd reads cancelled) := by
  obtain ⟨htable, hsock, hcreated, hflags, hfds, huses, hmade⟩ :=
    trigger_frame s fd reads cancelled
  have hclaims : ∀ (g : Nat) b, (s.trigger fd reads cancelled).acts[g]? = some b →
      ∃ a, s.acts[g]? = some a ∧ b.closes = a.closes ∧ b.opens = a.opens ∧ b.taken = a.taken := by
    intro g b hg
    rw [acts_trigger, Option.map_eq_some_iff] at hg
    obtain ⟨a, ha, rfl⟩ := hg
    refine ⟨a, ha, ?_⟩
    split
    · exact ⟨closes_wake _ _, opens_wake _ _, taken_wake _ _⟩
    · exact ⟨rfl, rfl, rfl⟩
  constructor
  case toBase =>
    constructor
    case size_ge => exact hfds ▸ h.size_ge
    case size_lt => exact hfds ▸ h.size_lt
    case made_lt => exact hfds ▸ h.made_lt
    case sock_lt =>
      rw [hsock, hcreated]
      exact h.sock_lt
    case apart => exact hsock ▸ h.apart
    case own => exact huses ▸ h.own
    case prompt => exact huses ▸ h.prompt
    case fresh =>
      rw [hfds, htable, hmade]
      exact h.fresh
    case nonblocking =>
      rw [hfds, htable, hflags]
      exact h.nonblocking
  case sock_table =>
    intro i d hi
    rw [hsock] at hi
    rw [htable]
    refine (h.sock_table i d hi).imp (fun h => h) fun hmem => ?_
    obtain ⟨b, hb, heq⟩ := trigger_mem fd reads cancelled hmem
    have heq : b = .closing i d .forgetting := heq.elim (fun h => h) fun h => h
    exact heq ▸ hb
  case fine =>
    intro b hb
    have hmono : ∀ a, s.Fine a → (s.trigger fd reads cancelled).Fine a := by
      intro a ha
      refine ha.mono htable hsock hcreated hflags (congrArg FdManager.slot hfds) fun fd' hex => ?_
      obtain ⟨a', ha', hp⟩ := hex
      obtain ⟨b', hb', heq⟩ := trigger_mem fd reads cancelled ha'
      refine .inr ⟨b', hb', ?_⟩
      cases heq with
      | inl heq => exact heq ▸ hp
      | inr heq => rw [heq, past_wake, hp]
    obtain ⟨a, ha, heq⟩ := mem_trigger hb
    cases heq with
    | inl heq => exact heq ▸ hmono a (h.fine a ha)
    | inr heq => exact heq ▸ hmono _ ((h.fine a ha).wake cancelled)
  case distinct =>
    intro g g' a b hne ha hb
    obtain ⟨a', ha', hc, ho, ht⟩ := hclaims g a ha
    obtain ⟨b', hb', hc', ho', ht'⟩ := hclaims g' b hb
    have hapart := h.distinct g g' a' b' hne ha' hb'
    exact (((hapart.of_eq hc ho ht).symm).of_eq hc' ho' ht').symm
  case waiting =>
    intro g kind i d timeout file hg
    obtain ⟨hg, hne⟩ := h.still hg
    obtain ⟨hwaiter, hfile, hslot, hpasts⟩ := h.waiting g kind i d timeout file hg
    refine ⟨(waiters_trigger hne).trans hwaiter, htable ▸ hfile, hfds ▸ hslot, fun b hb hp => ?_⟩
    obtain ⟨a, ha, heq⟩ := mem_trigger hb
    cases heq with
    | inl heq => exact hpasts a ha (heq ▸ hp)
    | inr heq => exact hpasts a ha ((past_wake cancelled a).symm.trans (heq ▸ hp))

end Trigger

/-- A fiber begins to wait. -/
theorem Inv.addEvent (h : Inv s) {kind : Kind} {i : Nat} {d : Desc} {timeout : Option UInt64}
    {file : Nat} (hf : s.acts[f]? = some (.io kind i d timeout .adding))
    (hfree : s.waiters d.fd kind.reads = none) (htable : s.table d.fd = some file)
    (hpasts : ∀ a ∈ s.acts, a.past ≠ some d.fd) :
    Inv ({ s with
      waiters := Function.update s.waiters d.fd
        (Function.update (s.waiters d.fd) kind.reads (some f)) }.setAct f
          (.io kind i d timeout (.waiting file))) where
  toBase := ⟨h.size_ge, h.size_lt, h.made_lt, h.sock_lt, h.apart, h.own, h.prompt, h.fresh,
    h.nonblocking⟩
  sock_table j e hj := (h.sock_table j e hj).imp (fun h => h) fun hmem =>
    mem_set_of_ne hf hmem Act.noConfusion
  fine a ha := by
    obtain ⟨hfile, -, hwait⟩ := h.fine_at hf
    have hnew : s.Fine (.io kind i d timeout (.waiting file)) := by
      refine ⟨hfile, fun heq => ?_, hwait⟩
      cases heq
    have hfine := h.fine_set hf hnew (.inl rfl) a ha
    cases a <;> exact hfine
  distinct := h.distinct_set hf fun _ _ _ _ => apart_of_none rfl rfl rfl
  waiting g kind' j e timeout' file' hg := by
    have hnone : ∀ fd, (Act.io kind i d timeout (.waiting file)).past ≠ some fd :=
      fun fd hp => by cases hp
    cases getElem?_set_cases hf hg with
    | inl hl =>
      obtain ⟨rfl, heq⟩ := hl
      cases heq
      obtain ⟨-, hplace, hwait⟩ := h.fine_at hf
      refine ⟨?_, htable, ?_, not_past_set hf hpasts (hnone _)⟩
      · exact (congrFun (Function.update_self _ _ _) _).trans (Function.update_self _ _ _)
      · rcases (hwait (hplace rfl)).2 with hclosed | hslot | hex
        · cases hclosed.symm.trans htable
        · exact hslot
        · obtain ⟨a, ha, hp⟩ := hex
          exact absurd hp (hpasts a ha)
    | inr hr =>
      obtain ⟨hwaiter, hfile, hslot, hno⟩ := h.waiting g kind' j e timeout' file' hr.2
      refine ⟨?_, hfile, hslot, not_past_set hf hno (hnone _)⟩
      dsimp only [setAct]
      by_cases hfd : e.fd = d.fd
      · have hreads : kind'.reads ≠ kind.reads := by
          intro hreads
          rw [hfd, hreads, hfree] at hwaiter
          cases hwaiter
        rw [hfd, Function.update_self, Function.update_of_ne hreads, ← hfd]
        exact hwaiter
      · rw [Function.update_of_ne hfd]
        exact hwaiter

/-! ## Sockets -/

/-- A socket gets the descriptor that was opened for it. -/
theorem Inv.give (h : Inv s) {i : Nat} {d : Desc} (hsock : s.sock i = none) (hlt : i < s.created)
    (htable : s.table d.fd = some d.file) (hne : ∀ j e, s.sock j = some e → e.fd ≠ d.fd)
    (hfree : ∀ a ∈ s.acts, a.opens ≠ some i ∧ a.taken ≠ some d.fd) :
    Inv { s with sock := Function.update s.sock i (some d) } := by
  have hcases : ∀ j e, Function.update s.sock i (some d) j = some e →
      (j = i ∧ e = d) ∨ (j ≠ i ∧ s.sock j = some e) := by
    intro j e hj
    by_cases heq : j = i
    · subst heq
      rw [Function.update_self] at hj
      exact .inl ⟨rfl, (Option.some.inj hj).symm⟩
    · rw [Function.update_of_ne heq] at hj
      exact .inr ⟨heq, hj⟩
  constructor
  case toBase =>
    refine ⟨h.size_ge, h.size_lt, h.made_lt, fun j e hj => ?_, fun j j' e e' hj hj' hfd => ?_,
      h.own, h.prompt, h.fresh, h.nonblocking⟩
    · cases hcases j e hj with
      | inl hl => exact hl.1 ▸ hlt
      | inr hr => exact h.sock_lt j e hr.2
    · cases hcases j e hj with
      | inl hl =>
        cases hcases j' e' hj' with
        | inl hl' => exact hl.1.trans hl'.1.symm
        | inr hr' => exact absurd (hl.2 ▸ hfd.symm) (hne j' e' hr'.2)
      | inr hr =>
        cases hcases j' e' hj' with
        | inl hl' => exact absurd (hl'.2 ▸ hfd) (hne j e hr.2)
        | inr hr' => exact h.apart j j' e e' hr.2 hr'.2 hfd
  case sock_table =>
    intro j e hj
    cases hcases j e hj with
    | inl hl => exact .inl (hl.2 ▸ htable)
    | inr hr => exact h.sock_table j e hr.2
  case fine =>
    intro a ha
    have hfine := h.fine a ha
    cases a with
    | idle => trivial
    | asked kind j hook => trivial
    | io kind j e timeout place => exact hfine
    | opening j e accepted stage =>
      obtain ⟨hfile, hj, hjlt, hsize, hsocks⟩ := hfine
      obtain ⟨hopens, htaken⟩ := hfree _ ha
      have hji : j ≠ i := fun heq => hopens (congrArg some heq)
      refine ⟨hfile, (Function.update_of_ne hji _ _).trans hj, hjlt, hsize, fun j' e' hj' => ?_⟩
      cases hcases j' e' hj' with
      | inl hl => exact fun heq => htaken (congrArg some (heq.symm.trans (congrArg Desc.fd hl.2)))
      | inr hr => exact hsocks j' e' hr.2
    | closing j e stage =>
      obtain ⟨hj, hrest⟩ := hfine
      have hji : j ≠ i := by
        rintro rfl
        cases hsock.symm.trans hj
      exact ⟨(Function.update_of_ne hji _ _).trans hj, hrest⟩
  case distinct => exact h.distinct
  case waiting => exact h.waiting

/-- The kernel closes the descriptor. -/
theorem Inv.closeFile (h : Inv s) {i : Nat} {d : Desc}
    (hf : s.acts[f]? = some (.closing i d .closing)) :
    Inv ({ s with table := Function.update s.table d.fd none }.setAct f
      (.closing i d .forgetting)) := by
  obtain ⟨hsock, -, hno, -⟩ := h.fine_at hf
  have hother : ∀ fd, fd ≠ d.fd → Function.update s.table d.fd none fd = s.table fd :=
    fun fd hne => Function.update_of_ne hne _ _
  have hslot : ∀ fd id, s.fds.slot fd = some id → fd ≠ d.fd := by
    rintro fd id hid rfl
    cases (hno rfl).symm.trans hid
  have hpast : ∀ fd, (∃ a ∈ s.acts, a.past = some fd) →
      ∃ a ∈ s.acts.set f (.closing i d .forgetting), a.past = some fd := by
    intro fd hex
    refine past_set hf (.inr ?_) hex
    rfl
  constructor
  case toBase =>
    refine ⟨h.size_ge, h.size_lt, h.made_lt, h.sock_lt, h.apart, h.own, h.prompt,
      fun fd id hid => ?_, fun fd id file hid hfile => ?_⟩
    · obtain ⟨file, hfile, hmade⟩ := h.fresh fd id hid
      exact ⟨file, (hother fd (hslot fd id hid)).trans hfile, hmade⟩
    · exact h.nonblocking fd id file hid ((hother fd (hslot fd id hid)).symm.trans hfile)
  case sock_table =>
    intro j e hj
    by_cases hfd : e.fd = d.fd
    · have hji := h.apart j i e d hj hsock hfd
      subst hji
      cases hsock.symm.trans hj
      exact .inr (mem_set_self hf)
    · exact (h.sock_table j e hj).imp (fun htable => (hother e.fd hfd).trans htable) fun hmem =>
        mem_set_of_ne hf hmem fun heq => by cases heq
  case fine =>
    intro a ha
    cases mem_set_cases hf ha with
    | inl heq =>
      rw [heq]
      refine ⟨hsock, fun hne => absurd rfl hne, fun heq => ?_, fun _ => Function.update_self _ _ _⟩
      cases heq
    | inr hex =>
      obtain ⟨g, hgf, hg⟩ := hex
      have hfine := h.fine_at hg
      cases a with
      | idle => trivial
      | asked kind j hook => trivial
      | opening j e accepted stage =>
        obtain ⟨hfile, hj, hjlt, hsize, hsocks⟩ := hfine
        exact ⟨(hother e.fd fun heq => hsocks i d hsock heq.symm).trans hfile, hj, hjlt, hsize,
          hsocks⟩
      | io kind j e timeout place =>
        obtain ⟨hfile, hplace, hwait⟩ := hfine
        by_cases hfd : e.fd = d.fd
        · have hnone : Function.update s.table d.fd none e.fd = none := by
            rw [hfd, Function.update_self]
          exact ⟨.inl hnone, hplace, fun hsome => ⟨(hwait hsome).1, .inl hnone⟩⟩
        · refine ⟨?_, hplace, fun hsome => ⟨(hwait hsome).1, ?_⟩⟩
          · exact hfile.imp (hother e.fd hfd).trans (hother e.fd hfd).trans
          · exact (hwait hsome).2.imp (hother e.fd hfd).trans (Or.imp (fun h => h) (hpast e.fd))
      | closing j e stage =>
        obtain ⟨hj, hopen, hrest, hforgot⟩ := hfine
        have hfd : e.fd ≠ d.fd := by
          intro hfd
          have hji := h.apart j i e d hj hsock hfd
          subst hji
          exact (h.distinct g f _ _ hgf hg hf).closes (Option.some_ne_none _) rfl
        exact ⟨hj, fun hne => (hother e.fd hfd).trans (hopen hne), hrest,
          fun heq => (hother e.fd hfd).trans (hforgot heq)⟩
  case distinct =>
    exact h.distinct_set hf fun g b hgf hg =>
      (h.distinct f g _ b hgf.symm hf hg).of_eq rfl rfl rfl
  case waiting =>
    intro g kind j e timeout file hg
    cases getElem?_set_cases hf hg with
    | inl hl => cases hl.2
    | inr hr =>
      obtain ⟨hwaiter, hfile, hne, hpasts⟩ := h.waiting g kind j e timeout file hr.2
      have hfd : e.fd ≠ d.fd := fun heq =>
        hpasts _ (List.mem_of_getElem? hf) (congrArg some heq.symm)
      exact ⟨hwaiter, (hother e.fd hfd).trans hfile, hne,
        not_past_set hf hpasts fun hp => hfd (Option.some.inj hp).symm⟩

/-- And the socket forgets it. -/
theorem Inv.forget (h : Inv s) {i : Nat} {d : Desc}
    (hf : s.acts[f]? = some (.closing i d .forgetting)) :
    Inv ({ s with sock := Function.update s.sock i none }.setAct f .idle) := by
  obtain ⟨hsock, -, -, hnone⟩ := h.fine_at hf
  have hcases : ∀ j e, Function.update s.sock i none j = some e → j ≠ i ∧ s.sock j = some e := by
    intro j e hj
    by_cases heq : j = i
    · subst heq
      rw [Function.update_self] at hj
      cases hj
    · rw [Function.update_of_ne heq] at hj
      exact ⟨heq, hj⟩
  constructor
  case toBase =>
    exact ⟨h.size_ge, h.size_lt, h.made_lt, fun j e hj => h.sock_lt j e (hcases j e hj).2,
      fun j j' e e' hj hj' => h.apart j j' e e' (hcases j e hj).2 (hcases j' e' hj').2, h.own,
      h.prompt, h.fresh, h.nonblocking⟩
  case sock_table =>
    intro j e hj
    obtain ⟨hji, hj⟩ := hcases j e hj
    refine (h.sock_table j e hj).imp (fun h => h) fun hmem => mem_set_of_ne hf hmem ?_
    intro heq
    cases heq
    exact hji rfl
  case fine =>
    intro a ha
    cases mem_set_cases hf ha with
    | inl heq =>
      rw [heq]
      trivial
    | inr hex =>
      obtain ⟨g, hgf, hg⟩ := hex
      have hfine := h.fine_at hg
      cases a with
      | idle => trivial
      | asked kind j hook => trivial
      | opening j e accepted stage =>
        obtain ⟨hfile, hj, hjlt, hsize, hsocks⟩ := hfine
        refine ⟨hfile, ?_, hjlt, hsize, fun j' e' hj' => hsocks j' e' (hcases j' e' hj').2⟩
        cases hupd : Function.update s.sock i none j with
        | none => exact hupd
        | some e' => cases hj.symm.trans (hcases j e' hupd).2
      | io kind j e timeout place =>
        obtain ⟨hfile, hplace, hwait⟩ := hfine
        refine ⟨hfile, hplace, fun hsome => ⟨(hwait hsome).1, ?_⟩⟩
        rcases (hwait hsome).2 with hclosed | hslot | hex
        · exact .inl hclosed
        · exact .inr (.inl hslot)
        · obtain ⟨b, hb, hp⟩ := hex
          by_cases heq : b = .closing i d .forgetting
          · rw [heq] at hp
            have hfd : d.fd = e.fd := Option.some.inj hp
            exact .inl (hfd ▸ hnone rfl)
          · exact .inr (.inr ⟨b, mem_set_of_ne hf hb heq, hp⟩)
      | closing j e stage =>
        obtain ⟨hj, hrest⟩ := hfine
        have hji : j ≠ i := by
          rintro rfl
          exact (h.distinct g f _ _ hgf hg hf).closes (Option.some_ne_none _) rfl
        exact ⟨(Function.update_of_ne hji _ _).trans hj, hrest⟩
  case distinct => exact h.distinct_set hf fun _ _ _ _ => apart_of_none rfl rfl rfl
  case waiting =>
    intro g kind j e timeout file hg
    cases getElem?_set_cases hf hg with
    | inl hl => cases hl.2
    | inr hr =>
      obtain ⟨hwaiter, hfile, hne, hpasts⟩ := h.waiting g kind j e timeout file hr.2
      refine ⟨hwaiter, hfile, hne, not_past_set hf hpasts fun hp => ?_⟩
      cases hp

/-! ## Steps -/

theorem Inv.socket (h : Inv s) {i fd : Nat} {hook : Bool} (hfree : s.Free fd)
    (hopens : ∀ a ∈ s.acts, a.opens ≠ some i) (hs : s.socket f i hook fd = .ok s') : Inv s' := by
  rw [Descriptors.socket] at hs
  split at hs
  · rename_i hf
    split at hs
    · rename_i hcond
      cases hs
      exact h.opened hfree hcond.2.2 hf rfl hcond.2.1 hcond.1 hopens
    · cases hs
  · cases hs

/-- An opening goes on. -/
theorem Inv.stage (h : Inv s) {i : Nat} {d : Desc} {accepted : Bool} {stage : Stage}
    (hf : s.acts[f]? = some (.opening i d accepted stage)) (stage' : Stage) :
    Inv (s.setAct f (.opening i d accepted stage')) := by
  have hfine := h.fine_at hf
  refine h.move hf ?_ (.inl rfl) ?_ ?_ ?_ ?_
  · exact hfine
  · exact fun g b hgf hg => (h.distinct f g _ b hgf.symm hf hg).of_eq rfl rfl rfl
  · exact fun _ _ heq => by cases heq
  · exact fun _ _ _ _ _ heq => by cases heq
  · exact fun _ heq => by cases heq

theorem Inv.get (h : Inv s) (hs : s.get f = .ok s') : Inv s' := by
  rw [Descriptors.get] at hs
  split at hs
  · rename_i hf
    cases hs
    exact h.stage hf _
  · cases hs

theorem make_ok {k : FlagKernel} {fd : Nat} (hs : s.make k fd = .ok s') :
    ∃ fds id, s.fds.insert fd (newCtx k s fd).1 = some (fds, id) ∧
      s' = { s with
        fds := fds
        flags := (newCtx k s fd).2
        madeFor := Function.update s.madeFor id (s.table fd) } := by
  cases hins : s.fds.insert fd (newCtx k s fd).1 with
  | none =>
    rw [make, hins] at hs
    cases hs
  | some p =>
    rw [make, hins] at hs
    exact ⟨p.1, p.2, rfl, (Except.ok.inj hs).symm⟩

theorem Inv.insertStep (h : Inv s) (k : FlagKernel) (hs : s.insert k f = .ok s') : Inv s' := by
  rw [Descriptors.insert] at hs
  split at hs
  · rename_i hf
    obtain ⟨s₁, hmake, rfl⟩ := map_eq_ok.mp hs
    obtain ⟨fds, id, hins, rfl⟩ := make_ok hmake
    exact (h.insert k hf hins).stage hf .ready
  · cases hs

theorem Inv.assign (h : Inv s) (hs : s.assign f = .ok s') : Inv s' := by
  rw [Descriptors.assign] at hs
  split at hs
  · rename_i i d accepted hf
    have hidle : Inv (s.setAct f .idle) := h.idle hf rfl
    obtain ⟨htable, hsock, hlt, -, hne⟩ := h.fine_at hf
    have hfree : ∀ a ∈ (s.setAct f .idle).acts, a.opens ≠ some i ∧ a.taken ≠ some d.fd := by
      intro a ha
      cases mem_set_cases hf ha with
      | inl heq =>
        rw [heq]
        constructor <;> intro hnone <;> cases hnone
      | inr hex =>
        obtain ⟨g, hgf, hg⟩ := hex
        have hapart := h.distinct f g _ a hgf.symm hf hg
        exact ⟨(hapart.opens (Option.some_ne_none _)).symm,
          (hapart.taken (Option.some_ne_none _)).symm⟩
    have hgiven := hidle.give hsock hlt htable hne hfree
    split at hs
    · split at hs
      · cases hs
        exact hgiven.connect _
      · cases hs
        exact hidle
    · cases hs
      exact hgiven
  · cases hs

theorem Inv.ask (h : Inv s) {kind : Kind} {i : Nat} {hook : Bool}
    (hs : s.ask f kind i hook = .ok s') : Inv s' := by
  rw [Descriptors.ask] at hs
  split at hs
  · rename_i hf
    split at hs
    · cases hs
      exact h
    · cases hs
      exact h.free hf trivial rfl rfl rfl rfl rfl fun _ _ _ _ _ heq => by cases heq
  · cases hs

/-- What a socket has for its descriptor is its file, or closed. -/
theorem Inv.table_sock (h : Inv s) {i : Nat} {d : Desc} (hi : s.sock i = some d) :
    s.table d.fd = none ∨ s.table d.fd = some d.file := by
  cases h.sock_table i d hi with
  | inl htable => exact .inr htable
  | inr hmem => exact .inl ((h.fine _ hmem).2.2.2 rfl)

theorem Inv.start (h : Inv s) (hs : s.start f = .ok s') : Inv s' := by
  rw [Descriptors.start] at hs
  split at hs
  · rename_i kind i hook hf
    split at hs
    · cases hs
      exact h.idle hf rfl
    · rename_i d hi
      cases hs
      refine h.free hf ⟨h.table_sock hi, fun heq => ?_, fun hne => absurd rfl hne⟩
        rfl rfl rfl rfl rfl fun _ _ _ _ _ heq => ?_
      · cases hook <;> cases heq
      · cases hook <;> cases heq
  · cases hs

theorem found_cases (kind : Kind) (i : Nat) (d : Desc) (ctx : Option FdCtx) :
    found kind i d ctx = .idle ∨ found kind i d ctx = .io kind i d none .trying ∨
      ∃ c timeout, ctx = some c ∧ found kind i d ctx = .io kind i d (some timeout) .trying := by
  cases ctx with
  | none =>
    rw [found]
    split
    · exact .inl rfl
    · exact .inr (.inl rfl)
  | some c =>
    rw [found]
    split
    · exact .inl rfl
    · split
      · exact .inr (.inl rfl)
      · exact .inr (.inr ⟨c, _, rfl, rfl⟩)

theorem Inv.find (h : Inv s) (hs : s.find f = .ok s') : Inv s' := by
  rw [Descriptors.find] at hs
  split at hs
  · rename_i kind i d hf
    cases hs
    obtain ⟨hfile, -, -⟩ := h.fine_at hf
    rcases found_cases kind i d (s.ctxOf d.fd) with heq | heq | ⟨ctx, timeout, hctx, heq⟩
    · rw [heq]
      exact h.idle hf rfl
    · rw [heq]
      refine h.free hf ⟨hfile, fun heq => ?_, fun hne => absurd rfl hne⟩ rfl rfl rfl rfl rfl
        fun _ _ _ _ _ heq => ?_
      · cases heq
      · cases heq
    · rw [heq]
      obtain ⟨id, hid⟩ := slot_of_ctxOf h.toBase hctx
      obtain ⟨file, htable, -⟩ := h.fresh d.fd id hid
      have hown : s.table d.fd = some d.file :=
        hfile.resolve_left fun hnone => by cases hnone.symm.trans htable
      refine h.free hf ⟨hfile, fun heq => ?_, fun _ => ⟨h.nonblocking d.fd id d.file hid hown, ?_⟩⟩
        rfl rfl rfl rfl rfl fun _ _ _ _ _ heq => ?_
      · cases heq
      · exact .inr (.inl (hid ▸ Option.some_ne_none id))
      · cases heq
  · cases hs

/-- A call goes on with its descriptor. -/
theorem Inv.place (h : Inv s) {kind : Kind} {i : Nat} {d : Desc} {timeout : Option UInt64}
    {place : Place} (hf : s.acts[f]? = some (.io kind i d timeout place)) {place' : Place}
    (hadding : place' = .adding → timeout ≠ none) (hwait : ∀ file, place' ≠ .waiting file) :
    Inv (s.setAct f (.io kind i d timeout place')) := by
  obtain ⟨hfile, -, hctx⟩ := h.fine_at hf
  refine h.free hf ⟨hfile, hadding, hctx⟩ rfl rfl rfl rfl rfl fun _ _ _ _ file heq => ?_
  cases heq
  exact hwait file rfl

theorem Inv.attempt (h : Inv s) {answer : Answer}
    (hfree : ∀ fd, answer = .opened fd → s.Free fd) (hs : s.attempt f answer = .ok s') :
    Inv s' := by
  rw [Descriptors.attempt] at hs
  split at hs
  · rename_i kind i d timeout hf
    have huse : Inv (s.use d timeout.isSome) :=
      h.use hf fun hsome => Option.isSome_iff_ne_none.mp hsome
    have hidle : Inv ((s.use d timeout.isSome).setAct f .idle) := huse.idle hf rfl
    split at hs
    · cases hs
    · dsimp only at hs
      split at hs
      · cases hs
        exact hidle
      · cases hs
      · cases hs
        exact hidle.connect _
      · cases hs
        exact hidle
      · cases hs
        exact hidle
      · cases hs
        split
        · exact huse
        · exact hidle
      · cases hs
        split
        · rename_i hsome
          refine huse.place hf (fun _ => Option.isSome_iff_ne_none.mp hsome) fun file heq => ?_
          cases heq
        · exact hidle
      · rename_i fd _
        split at hs
        · rename_i hnone
          cases hs
          have hsock : s.sock s.created = none := by
            cases hi : s.sock s.created with
            | none => rfl
            | some e => exact absurd (h.sock_lt _ e hi) (Nat.lt_irrefl _)
          have hopens : ∀ a ∈ s.acts, a.opens ≠ some s.created := by
            intro a ha heq
            have hfine := h.fine a ha
            cases a with
            | opening j e accepted stage =>
              cases heq
              exact Nat.lt_irrefl _ hfine.2.2.1
            | idle => cases heq
            | asked kind j hook => cases heq
            | io kind j e timeout place => cases heq
            | closing j e stage => cases heq
          exact huse.create.opened (hfree fd rfl) hnone hf rfl hsock (Nat.lt_succ_self _) hopens
        · cases hs
      · cases hs
  · cases hs

theorem Inv.addStep (h : Inv s) {fails : Bool}
    (hok : ∀ b ∈ s.acts[f]?, ∀ a ∈ s.acts, a.past ≠ none → a.past ≠ b.holds)
    (hs : s.addEvent f fails = .ok s') : Inv s' := by
  rw [Descriptors.addEvent] at hs
  split at hs
  · rename_i kind i d timeout hf
    split at hs
    · cases hs
    · rename_i hwaiter
      split at hs
      · rename_i file hfile
        cases hs
        refine h.addEvent hf (not_not.mp hwaiter) ?_ fun a ha heq => ?_
        · cases fails with
          | true => cases hfile
          | false => exact hfile
        · exact hok _ hf a ha (heq ▸ Option.some_ne_none _) heq
      · split at hs
        · cases hs
          refine h.place hf (fun heq => ?_) fun file heq => ?_
          · cases heq
          · cases heq
        · cases hs
          exact h.idle hf rfl
  · cases hs

theorem Inv.ready (h : Inv s) (hs : s.ready f = .ok s') : Inv s' := by
  rw [Descriptors.ready] at hs
  split at hs
  · split at hs
    · cases hs
      exact h.trigger _ _ _
    · cases hs
  · cases hs

theorem Inv.expire (h : Inv s) (hs : s.expire f = .ok s') : Inv s' := by
  rw [Descriptors.expire] at hs
  split at hs
  · split at hs
    · cases hs
      exact h.trigger _ _ _
    · cases hs
  · cases hs

theorem Inv.resume (h : Inv s) (hs : s.resume f = .ok s') : Inv s' := by
  rw [Descriptors.resume] at hs
  split at hs
  · rename_i hf
    split at hs
    · cases hs
      exact h.idle hf rfl
    · split at hs
      · cases hs
        refine h.place hf (fun heq => ?_) fun file heq => ?_
        · cases heq
        · cases heq
      · cases hs
        refine h.place hf (fun heq => ?_) fun file heq => ?_
        · cases heq
        · cases heq
  · cases hs

theorem Inv.getsockopt (h : Inv s) {ok : Bool} (hs : s.getsockopt f ok = .ok s') : Inv s' := by
  rw [Descriptors.getsockopt] at hs
  split at hs
  · rename_i d _ hf
    have hidle : Inv ((s.use d false).setAct f .idle) :=
      (h.use hf fun heq => absurd heq Bool.false_ne_true).idle hf rfl
    split at hs
    · cases hs
    · split at hs
      · cases hs
        exact hidle.connect _
      · cases hs
        exact hidle
  · cases hs

theorem Inv.cancelFd (h : Inv s) (fd : Nat) : Inv (s.cancelFd fd) :=
  (h.trigger fd true false).trigger fd false false

/-- After `cancelAll` nobody waits on the number. -/
theorem Inv.cancelled (h : Inv s) {fd g : Nat} {kind : Kind} {i : Nat} {d : Desc}
    {timeout : Option UInt64} {file : Nat}
    (hg : (s.cancelFd fd).acts[g]? = some (.io kind i d timeout (.waiting file))) : d.fd ≠ fd := by
  obtain ⟨hg', hwrite⟩ := (h.trigger fd true false).still hg
  obtain ⟨-, hread⟩ := h.still hg'
  intro heq
  cases hreads : kind.reads with
  | true => exact hread ⟨heq, hreads⟩
  | false => exact hwrite ⟨heq, hreads⟩

theorem Inv.cancelAll (h : Inv s) {i : Nat} (hs : s.cancelAll i = .ok s') : Inv s' := by
  rw [Descriptors.cancelAll] at hs
  split at hs
  · cases hs
  · cases hs
    exact h.cancelFd _

theorem Inv.close (h : Inv s) {i : Nat} {hook : Bool} (hcloses : ∀ a ∈ s.acts, a.closes ≠ some i)
    (hhook : hook = false → ∀ d, s.sock i = some d → s.fds.slot d.fd = none)
    (hs : s.close f i hook = .ok s') : Inv s' := by
  rw [Descriptors.close] at hs
  split at hs
  · rename_i hf
    have hconnect : Inv { s with connected := Function.update s.connected i false } := h.connect _
    dsimp only at hs
    split at hs
    · cases hs
      exact hconnect
    · rename_i d hi
      cases hs
      have htable : s.table d.fd = some d.file :=
        (h.sock_table i d hi).resolve_right fun hmem => hcloses _ hmem rfl
      refine hconnect.move hf ⟨hi, fun _ => htable, fun heq => ?_, fun heq => ?_⟩ (.inl rfl)
        ?_ ?_ ?_ ?_
      · cases hook with
        | true => cases heq
        | false => exact hhook rfl d hi
      · cases hook <;> cases heq
      · intro g b _ hg
        exact ⟨fun _ heq => hcloses b (List.mem_of_getElem? hg) heq.symm, fun hne => absurd rfl hne,
          fun hne => absurd rfl hne⟩
      · exact fun _ _ heq => by cases heq
      · exact fun _ _ _ _ _ heq => by cases heq
      · intro fd hfd
        refine .inr fun g kind j e timeout file hg heq => ?_
        cases hook with
        | true => cases hfd
        | false =>
          cases hfd
          have hslot := (h.waiting g kind j e timeout file hg).2.2.1
          exact hslot (heq ▸ hhook rfl d hi)
  · cases hs

/-- A closing goes on. -/
theorem Inv.closeOn (h : Inv s) {i : Nat} {d : Desc} {stage stage' : Closing}
    (hf : s.acts[f]? = some (.closing i d stage)) (hstage : stage ≠ .forgetting)
    (hstage' : stage' ≠ .forgetting) (hslot : stage' = .closing → s.fds.slot d.fd = none)
    (hpast : (Act.closing i d stage).past = none ∨
      (Act.closing i d stage').past = (Act.closing i d stage).past)
    (hquiet : (Act.closing i d stage).past = some d.fd ∨ (Act.closing i d stage').past = none ∨
      ∀ (g : Nat) kind j e timeout file,
        s.acts[g]? = some (.io kind j e timeout (.waiting file)) → e.fd ≠ d.fd) :
    Inv (s.setAct f (.closing i d stage')) := by
  obtain ⟨hsock, hopen, -, -⟩ := h.fine_at hf
  refine h.move hf ⟨hsock, fun _ => hopen hstage, hslot, fun heq => absurd heq hstage'⟩ hpast
    ?_ ?_ ?_ ?_
  · exact fun g b hgf hg => (h.distinct f g _ b hgf.symm hf hg).of_eq rfl rfl rfl
  · intro j e heq
    cases heq
    exact hstage rfl
  · exact fun _ _ _ _ _ heq => by cases heq
  · intro fd hfd
    have heq : d.fd = fd := by
      cases stage' <;> cases hfd <;> rfl
    subst heq
    rcases hquiet with hold | hnone | hquiet
    · exact .inl hold
    · cases hnone.symm.trans hfd
    · exact .inr hquiet

theorem Inv.closing (h : Inv s) (hs : s.closing f = .ok s') : Inv s' := by
  rw [Descriptors.closing] at hs
  split at hs
  · rename_i i d hf
    rw [lookup_slot h.toBase] at hs
    cases hslot : s.fds.slot d.fd with
    | some id =>
      rw [hslot] at hs
      cases hs
      refine h.closeOn hf Closing.noConfusion Closing.noConfusion (fun heq => ?_) (.inl rfl)
        (.inr (.inl rfl))
      cases heq
    | none =>
      rw [hslot] at hs
      cases hs
      refine h.closeOn hf Closing.noConfusion Closing.noConfusion (fun _ => hslot) (.inl rfl)
        (.inr (.inr fun g kind j e timeout file hg heq => ?_))
      exact (h.waiting g kind j e timeout file hg).2.2.1 (heq ▸ hslot)
  · rename_i i d hf
    cases hs
    have hf' : (s.cancelFd d.fd).acts[f]? = some (.closing i d .cancelling) := by
      rw [Descriptors.cancelFd, acts_trigger, acts_trigger, hf]
      simp only [Option.map_some, Act.wake, ite_self]
    refine (h.cancelFd d.fd).closeOn hf' Closing.noConfusion Closing.noConfusion (fun heq => ?_)
      (.inl rfl) (.inr (.inr fun g kind j e timeout file hg => h.cancelled hg))
    cases heq
  · rename_i i d hf
    obtain rfl := Except.ok.inj hs
    obtain ⟨hlength, hheap, -⟩ := FdManager.length_del s.fds d.fd
    have hdel := slot_del h.toBase d.fd
    generalize s.fds.del d.fd = fds at hlength hheap hdel ⊢
    have hdropped := h.dropped hlength hheap hdel ⟨_, List.mem_of_getElem? hf, rfl⟩
    have hnone : fds.slot d.fd = none := by
      rw [hdel, if_pos rfl]
    exact hdropped.closeOn hf Closing.noConfusion Closing.noConfusion (fun _ => hnone) (.inr rfl)
      (.inl rfl)
  · rename_i i d hf
    cases hs
    exact h.closeFile hf
  · rename_i i d hf
    cases hs
    exact h.forget hf
  · cases hs

theorem step_inv (k : FlagKernel) {op : Op} (h : Inv s) (hok : Orderly s op)
    (hs : Step k s op s') : Inv s' := by
  cases op with
  | create =>
    cases hs
    exact h.create
  | socket f i hook fd => exact h.socket hok.1 hok.2 hs
  | get f => exact h.get hs
  | insert f => exact h.insertStep k hs
  | assign f => exact h.assign hs
  | ask f kind i hook => exact h.ask hs
  | start f => exact h.start hs
  | find f => exact h.find hs
  | attempt f answer =>
    refine h.attempt (fun fd heq => ?_) hs
    subst heq
    exact hok
  | addEvent f fails => exact h.addStep hok hs
  | ready f => exact h.ready hs
  | expire f => exact h.expire hs
  | resume f => exact h.resume hs
  | getsockopt f ok => exact h.getsockopt hs
  | cancelAll i => exact h.cancelAll hs
  | close f i hook => exact h.close hok.1 hok.2 hs
  | closing f => exact h.closing hs
  | setTimeOut i type v =>
    cases hs
    exact h.setTimeOut i type v

end Acts

theorem inv_init (fibers : Nat) : Inv (init fibers) := by
  have hidle : ∀ (f : Nat) a, (init fibers).acts[f]? = some a → a = .idle := by
    intro f a hf
    exact List.eq_of_mem_replicate (List.mem_of_getElem? hf)
  have hslot : ∀ fd, (init fibers).fds.slot fd = none := by
    intro fd
    change (List.replicate 64 none).getD fd none = none
    rw [List.getD_eq_getElem?_getD, List.getElem?_replicate]
    split <;> rfl
  constructor
  case toBase =>
    constructor
    case size_ge => exact Nat.le_refl 64
    case size_lt =>
      change 64 < 2147483648
      omega
    case made_lt =>
      intro fd id hid
      cases (hslot fd).symm.trans hid
    case sock_lt =>
      intro i d hi
      cases hi
    case apart =>
      intro i j d e hi
      cases hi
    case own => exact fun u hu => absurd hu List.not_mem_nil
    case prompt => exact fun u hu => absurd hu List.not_mem_nil
    case fresh =>
      intro fd id hid
      cases (hslot fd).symm.trans hid
    case nonblocking =>
      intro fd id file hid
      cases (hslot fd).symm.trans hid
  case sock_table =>
    intro i d hi
    cases hi
  case fine =>
    intro a ha
    rw [List.eq_of_mem_replicate ha]
    trivial
  case distinct =>
    intro f g a b _ ha _
    rw [hidle f a ha]
    exact apart_of_none rfl rfl rfl
  case waiting =>
    intro f kind i d timeout file hf
    cases hidle f _ hf

/-- In every run of any number of fibers on any threads in which a number is given out again only
when no fiber goes by it, a socket is opened and closed by one fiber at a time, under the hook when
it has a context, and nobody begins to wait on what is being closed, no call gets to another
connection and none blocks its thread. -/
theorem run_separate {k : FlagKernel} {fibers : Nat} {t : List (Op × Descriptors)}
    (run : Run (Step k) (init fibers) t) (hok : Meets Orderly (init fibers) t) :
    Always Separate (init fibers) t :=
  (always_of_meets (fun _ _ _ h hok hs => step_inv k h hok hs) run (inv_init fibers) hok).mono
    fun _ h => h.separate

/-- A fiber makes a socket and connects it at once. -/
def connectNew (f i : Nat) : List Op :=
  [.create, .socket f i true 5, .get f, .insert f, .assign f, .ask f (.connect 100) i true,
    .start f, .find f, .attempt f .done]

/-- It waits for something to read. -/
def readWait (f i : Nat) : List Op :=
  [.ask f .recv i true, .start f, .find f, .attempt f .again, .addEvent f false]

def closeSock (f i : Nat) : List Op := .close f i true :: List.replicate 5 (.closing f)

/-- A socket is closed under its reader, which goes on before its number is given out again. -/
def settled : List Op :=
  connectNew 0 0 ++ readWait 0 0 ++ closeSock 1 0 ++ [.resume 0, .attempt 0 .fails] ++
    connectNew 1 1 ++ readWait 0 1 ++ [.ready 0, .resume 0, .attempt 0 .done]

theorem ne_of_all {acts : List Act} {p : Act → Option Nat} {n : Nat}
    (h : (acts.all fun a => p a != some n) = true) : ∀ a ∈ acts, p a ≠ some n :=
  fun a ha => bne_iff_ne.mp (List.all_eq_true.mp h a ha)

/-- Nothing is being closed. -/
theorem orderly_addEvent {s : Descriptors} {f : Nat} {fails : Bool}
    (h : (s.acts.all fun a => a.past == none) = true) : Orderly s (.addEvent f fails) :=
  fun _ _ a ha hne => absurd (beq_iff_eq.mp (List.all_eq_true.mp h a ha)) hne

theorem run_separate_settled : ∃ t, trace (step HookedFd.linux) (init 2) settled = .ok t ∧
    (last (init 2) t).uses.map Use.used = [some 0, some 0, none, some 1, some 1, some 1] ∧
      Always Separate (init 2) t := by
  refine ⟨_, rfl, rfl, run_separate (k := HookedFd.linux) (run_of_trace settled rfl) ?_⟩
  exact ⟨trivial, ⟨⟨ne_of_all rfl, by decide⟩, ne_of_all rfl⟩, trivial, trivial, trivial, trivial,
    trivial, trivial, trivial, trivial, trivial, trivial, trivial, orderly_addEvent rfl,
    ⟨ne_of_all rfl, Bool.noConfusion⟩, trivial, trivial, trivial, trivial, trivial, trivial,
    trivial, trivial, ⟨⟨ne_of_all rfl, by decide⟩, ne_of_all rfl⟩, trivial, trivial, trivial,
    trivial, trivial, trivial, trivial, trivial, trivial, trivial, trivial, orderly_addEvent rfl,
    trivial, trivial, trivial, trivial⟩

/-- Another fiber gets the number before the reader goes on. -/
def overtaken : List Op :=
  connectNew 0 0 ++ readWait 0 0 ++ closeSock 1 0 ++ connectNew 1 1 ++ [.resume 0, .attempt 0 .done]

/-- It then reads what is for the other's connection. -/
theorem run_overtaken_breaks_separate :
    ∃ t, Run (Step HookedFd.linux) (init 2) t ∧ ¬Always Separate (init 2) t := by
  refine ⟨_, run_of_trace overtaken rfl, fun h => ?_⟩
  cases h.last.own ⟨0, some 1, false⟩ (List.mem_of_getElem? (i := 3) rfl) with
  | inl hnone => cases hnone
  | inr hsame => cases hsame

/-- A thread without the hook closes, and the context stays for the next file. -/
def unhooked : List Op :=
  [.create, .socket 0 0 true 5, .get 0, .insert 0, .assign 0, .close 0 0 false, .closing 0,
    .closing 0, .create, .socket 0 1 true 5, .get 0, .assign 0, .ask 0 (.connect 100) 1 true,
    .start 0, .find 0, .attempt 0 .done]

/-- Its calls then block the thread. -/
theorem run_unhooked_breaks_separate :
    ∃ t, Run (Step HookedFd.linux) (init 1) t ∧ ¬Always Separate (init 1) t := by
  refine ⟨_, run_of_trace unhooked rfl, fun h => ?_⟩
  cases h.last.prompt ⟨1, some 1, true⟩ (List.mem_of_getElem? (i := 0) rfl)

end Descriptors

end CxkFramework
