import CxkFramework.Runs
import Mathlib.Data.List.Count
import Mathlib.Data.List.Nodup
import Mathlib.Data.List.Perm.Basic
import Mathlib.Data.List.Range
import Mathlib.Logic.Function.Basic

/-!
# The life of a server

`TcpServer` with the loops that accept on its sockets, which are tasks of one scheduler, and the
clients, which are tasks of another. `stop` only sets a flag; a task of its own closes the sockets
later, whatever they are by then.
-/

namespace CxkFramework

open Runs

/-- Sockets are numbered as they are made. -/
structure TcpServer (κ : Type) where
  /-- `m_socks` -/
  socks : List Nat
  /-- the socket listens; nothing reads it of a socket that nobody has -/
  isOpen : Nat → Bool
  /-- the sockets made so far -/
  made : Nat
  isStop : Bool
  /-- the tasks of `startAccept`, each with its socket and whether it is in `accept` -/
  loops : List (Nat × Bool)
  /-- the tasks of `stop` that have not run -/
  closing : Nat
  accepted : List κ
  /-- the tasks of `handleClient` -/
  clients : List κ
  handled : List κ

namespace TcpServer

variable {κ : Type}

def init : TcpServer κ := ⟨[], fun _ => false, 0, true, [], 0, [], [], []⟩

/-- The loop of `bind`, given for each address whether `bind` and `listen` work: the sockets that it
keeps, and whether none failed. -/
def bindLoop : List Bool → Nat → List Nat × Bool
  | [], _ => ([], true)
  | true :: oks, sock => (sock :: (bindLoop oks (sock + 1)).1, (bindLoop oks (sock + 1)).2)
  | false :: oks, sock => ((bindLoop oks (sock + 1)).1, false)

/-- `fails` is a copy of what the caller has. When anything failed all sockets go, also those of
calls before; one that nobody else holds is closed. -/
def bind (s : TcpServer κ) (oks : List Bool) (fails : Nat) : Bool × TcpServer κ :=
  let (socks, all) := bindLoop oks s.made
  let s := { s with made := s.made + oks.length }
  if all && fails == 0 then
    (true, { s with
      socks := s.socks ++ socks
      isOpen := fun sock => s.isOpen sock || socks.contains sock })
  else
    (false, { s with
      socks := []
      isOpen := fun sock => s.isOpen sock && s.loops.any fun l => l.1 == sock })

def start (s : TcpServer κ) : TcpServer κ :=
  if !s.isStop then s
  else { s with isStop := false, loops := s.loops ++ s.socks.map fun sock => (sock, false) }

def stop (s : TcpServer κ) : TcpServer κ := { s with isStop := true, closing := s.closing + 1 }

/-- Why a step has no result. -/
inductive Halt where
  | disabled
  deriving DecidableEq, Repr

/-- The task of `stop`. -/
def close (s : TcpServer κ) : Except Halt (TcpServer κ) :=
  if s.closing = 0 then .error .disabled
  else .ok { s with
    socks := []
    isOpen := fun sock => s.isOpen sock && !s.socks.contains sock
    closing := s.closing - 1 }

/-- A loop looks at `m_isStop`. -/
def test (s : TcpServer κ) (i : Nat) : Except Halt (TcpServer κ) :=
  match s.loops[i]? with
  | some (sock, false) =>
    if s.isStop then .ok { s with loops := s.loops.eraseIdx i }
    else .ok { s with loops := s.loops.set i (sock, true) }
  | _ => .error .disabled

/-- `accept` returns a client, which only a socket that listens does, or null. -/
def accept (s : TcpServer κ) (i : Nat) (client : Option κ) : Except Halt (TcpServer κ) :=
  match s.loops[i]? with
  | some (sock, true) =>
    let loops := s.loops.set i (sock, false)
    match client with
    | none => .ok { s with loops := loops }
    | some c =>
      if s.isOpen sock then
        .ok { s with loops := loops, accepted := s.accepted ++ [c], clients := s.clients ++ [c] }
      else .error .disabled
  | _ => .error .disabled

/-- A task of `handleClient` runs. -/
def handle (s : TcpServer κ) (i : Nat) : Except Halt (TcpServer κ) :=
  match s.clients[i]? with
  | none => .error .disabled
  | some c => .ok { s with clients := s.clients.eraseIdx i, handled := s.handled ++ [c] }

inductive Op (κ : Type) where
  | bind (oks : List Bool) (fails : Nat)
  | start
  | stop
  | close
  | test (i : Nat)
  | accept (i : Nat) (client : Option κ)
  | handle (i : Nat)
  deriving DecidableEq, Repr

def step (s : TcpServer κ) : Op κ → Except Halt (TcpServer κ)
  | .bind oks fails => .ok (s.bind oks fails).2
  | .start => .ok s.start
  | .stop => .ok s.stop
  | .close => s.close
  | .test i => s.test i
  | .accept i client => s.accept i client
  | .handle i => s.handle i

def Step (s : TcpServer κ) (op : Op κ) (s' : TcpServer κ) : Prop := s.step op = .ok s'

/-- Sockets are bound while the server is stopped, and it is started again when nothing is left of
the last stop. -/
def Calm (s : TcpServer κ) : Op κ → Prop
  | .bind _ _ => s.isStop = true ∧ s.closing = 0
  | .start => s.isStop = true → s.closing = 0 ∧ s.loops = []
  | _ => True

/-- Every client is handled once. A server that runs has one loop for each socket, and they listen;
once a stop is through no loop can get a client. -/
structure Serving (s : TcpServer κ) : Prop where
  once : s.accepted.Perm (s.clients ++ s.handled)
  running : s.isStop = false → (s.loops.map Prod.fst).Perm s.socks ∧ s.socks.Nodup ∧
    ∀ sock ∈ s.socks, s.isOpen sock = true
  stopped : s.isStop = true → s.closing = 0 → ∀ l ∈ s.loops, s.isOpen l.1 = false

structure Inv (s : TcpServer κ) : Prop extends Serving s where
  nodup : s.socks.Nodup
  bound : s.closing = 0 → ∀ sock ∈ s.socks, s.isOpen sock = true
  closing_eq : s.isStop = false → s.closing = 0
  stopping : s.isStop = true → ∀ l ∈ s.loops, l.1 ∈ s.socks ∨ s.isOpen l.1 = false
  socks_lt : ∀ sock ∈ s.socks, sock < s.made
  loops_lt : ∀ l ∈ s.loops, l.1 < s.made

section Steps

variable {s s' : TcpServer κ}

theorem bindLoop_all {oks : List Bool} {sock : Nat} (h : (bindLoop oks sock).2 = true) :
    (bindLoop oks sock).1 = List.range' sock oks.length := by
  induction oks generalizing sock with
  | nil => rfl
  | cons ok oks ih =>
    cases ok with
    | true =>
      rw [bindLoop] at h ⊢
      rw [ih h, List.length_cons, List.range'_succ]
    | false => cases h

theorem Inv.bind (h : Inv s) (oks : List Bool) (fails : Nat) (hstop : s.isStop = true)
    (hclosing : s.closing = 0) : Inv (s.bind oks fails).2 := by
  have hclosed := h.stopped hstop hclosing
  cases hall : (bindLoop oks s.made).2 && fails == 0 with
  | true =>
    have hsocks := bindLoop_all (Bool.and_eq_true_iff.mp hall).1
    have hnew : ∀ sock, sock ∈ (bindLoop oks s.made).1 ↔
        s.made ≤ sock ∧ sock < s.made + oks.length := by
      intro sock
      rw [hsocks, List.mem_range'_1]
    have hold : ∀ sock < s.made,
        (s.isOpen sock || (bindLoop oks s.made).1.contains sock) = s.isOpen sock := by
      intro sock hlt
      have hnot : (bindLoop oks s.made).1.contains sock = false := by
        rw [Bool.eq_false_iff, ne_eq, List.contains_iff_mem, hnew]
        omega
      rw [hnot, Bool.or_false]
    have hbind : (s.bind oks fails).2 = { s with
        made := s.made + oks.length
        socks := s.socks ++ (bindLoop oks s.made).1
        isOpen := fun sock => s.isOpen sock || (bindLoop oks s.made).1.contains sock } := by
      rw [TcpServer.bind]
      dsimp only
      rw [if_pos hall]
    have hclosed' : ∀ l ∈ s.loops,
        (s.isOpen l.1 || (bindLoop oks s.made).1.contains l.1) = false := fun l hl =>
      (hold _ (h.loops_lt l hl)).trans (hclosed l hl)
    rw [hbind]
    refine ⟨⟨h.once, fun hrun => ?_, fun _ _ => hclosed'⟩, ?_, fun _ sock hsock => ?_,
      fun hrun => ?_, fun _ l hl => .inr (hclosed' l hl), fun sock hsock => ?_, fun l hl => ?_⟩
    · cases hstop.symm.trans hrun
    · refine h.nodup.append (hsocks ▸ List.nodup_range') fun sock hsock hsock' => ?_
      have hlt := h.socks_lt sock hsock
      have hge := ((hnew sock).mp hsock').1
      omega
    · cases List.mem_append.mp hsock with
      | inl hmem => exact (Bool.or_eq_true _ _).mpr (.inl (h.bound hclosing sock hmem))
      | inr hmem => exact (Bool.or_eq_true _ _).mpr (.inr (List.contains_iff_mem.mpr hmem))
    · cases hstop.symm.trans hrun
    · cases List.mem_append.mp hsock with
      | inl hmem => exact Nat.lt_of_lt_of_le (h.socks_lt sock hmem) (Nat.le_add_right _ _)
      | inr hmem => exact ((hnew sock).mp hmem).2
    · exact Nat.lt_of_lt_of_le (h.loops_lt l hl) (Nat.le_add_right _ _)
  | false =>
    have hbind : (s.bind oks fails).2 = { s with
        made := s.made + oks.length
        socks := []
        isOpen := fun sock => s.isOpen sock && s.loops.any fun l => l.1 == sock } := by
      rw [TcpServer.bind]
      dsimp only
      rw [hall, if_neg Bool.false_ne_true]
    have hclosed' : ∀ l ∈ s.loops,
        (s.isOpen l.1 && s.loops.any fun l' => l'.1 == l.1) = false := fun l hl => by
      rw [hclosed l hl, Bool.false_and]
    rw [hbind]
    refine ⟨⟨h.once, fun hrun => ?_, fun _ _ => hclosed'⟩, List.nodup_nil,
      fun _ sock hsock => absurd hsock List.not_mem_nil, fun hrun => ?_,
      fun _ l hl => .inr (hclosed' l hl), fun sock hsock => absurd hsock List.not_mem_nil,
      fun l hl => Nat.lt_of_lt_of_le (h.loops_lt l hl) (Nat.le_add_right _ _)⟩
    · cases hstop.symm.trans hrun
    · cases hstop.symm.trans hrun

theorem Inv.start (h : Inv s) (hok : s.isStop = true → s.closing = 0 ∧ s.loops = []) :
    Inv s.start := by
  rw [TcpServer.start]
  cases hstop : s.isStop with
  | false => exact h
  | true =>
    obtain ⟨hclosing, hloops⟩ := hok hstop
    rw [Bool.not_true, if_neg Bool.false_ne_true, hloops, List.nil_append]
    refine ⟨⟨h.once, fun _ => ⟨?_, h.nodup, h.bound hclosing⟩, fun hstop' => ?_⟩, h.nodup, h.bound,
      fun _ => hclosing, fun hstop' => ?_, h.socks_lt, fun l hl => ?_⟩
    · rw [List.map_map]
      exact List.Perm.of_eq (List.map_id s.socks)
    · cases hstop'
    · cases hstop'
    · obtain ⟨sock, hsock, rfl⟩ := List.mem_map.mp hl
      exact h.socks_lt sock hsock

theorem Inv.stop (h : Inv s) : Inv s.stop := by
  refine ⟨⟨h.once, fun hrun => ?_, fun _ hclosing => ?_⟩, h.nodup, fun hclosing => ?_,
    fun hrun => ?_, fun _ l hl => ?_, h.socks_lt, h.loops_lt⟩
  · cases hrun
  · exact absurd hclosing (Nat.succ_ne_zero _)
  · exact absurd hclosing (Nat.succ_ne_zero _)
  · cases hrun
  · cases hstop : s.isStop with
    | true => exact h.stopping hstop l hl
    | false => exact .inl ((h.running hstop).1.mem_iff.mp (List.mem_map_of_mem hl))

theorem Inv.close (h : Inv s) (hc : s.close = .ok s') : Inv s' := by
  rw [TcpServer.close] at hc
  split at hc
  · cases hc
  · rename_i hclosing
    have hstop : s.isStop = true := by
      by_contra hrun
      exact hclosing (h.closing_eq (Bool.eq_false_iff.mpr hrun))
    cases hc
    have hclosed : ∀ l ∈ s.loops, (s.isOpen l.1 && !s.socks.contains l.1) = false := by
      intro l hl
      cases h.stopping hstop l hl with
      | inl hmem => rw [List.contains_iff_mem.mpr hmem, Bool.not_true, Bool.and_false]
      | inr hclosed => rw [hclosed, Bool.false_and]
    refine ⟨⟨h.once, fun hrun => ?_, fun _ _ => hclosed⟩, List.nodup_nil,
      fun _ sock hsock => absurd hsock List.not_mem_nil, fun hrun => ?_,
      fun _ l hl => .inr (hclosed l hl), fun sock hsock => absurd hsock List.not_mem_nil,
      h.loops_lt⟩
    · cases hstop.symm.trans hrun
    · cases hstop.symm.trans hrun

/-- A loop goes on with its socket. -/
theorem Inv.set (h : Inv s) {i sock : Nat} {b b' : Bool} (hi : s.loops[i]? = some (sock, b)) :
    Inv { s with loops := s.loops.set i (sock, b') } := by
  obtain ⟨hlt, hget⟩ := List.getElem?_eq_some_iff.mp hi
  have hmap : (s.loops.set i (sock, b')).map Prod.fst = s.loops.map Prod.fst := by
    rw [List.map_set]
    have hlt' : i < (s.loops.map Prod.fst).length := by
      rw [List.length_map]
      exact hlt
    have hsame : (s.loops.map Prod.fst)[i] = sock := by
      rw [List.getElem_map, hget]
    rw [← hsame, List.set_getElem_self]
  have hmem : ∀ l ∈ s.loops.set i (sock, b'), ∃ l' ∈ s.loops, l'.1 = l.1 := by
    intro l hl
    have hfst : l.1 ∈ (s.loops.set i (sock, b')).map Prod.fst := List.mem_map_of_mem hl
    rw [hmap] at hfst
    exact List.mem_map.mp hfst
  refine ⟨⟨h.once, fun hrun => ?_, fun hstop hclosing l hl => ?_⟩, h.nodup, h.bound, h.closing_eq,
    fun hstop l hl => ?_, h.socks_lt, fun l hl => ?_⟩
  · dsimp only
    rw [hmap]
    exact h.running hrun
  · obtain ⟨l', hl', heq⟩ := hmem l hl
    exact heq ▸ h.stopped hstop hclosing l' hl'
  · obtain ⟨l', hl', heq⟩ := hmem l hl
    exact heq ▸ h.stopping hstop l' hl'
  · obtain ⟨l', hl', heq⟩ := hmem l hl
    exact heq ▸ h.loops_lt l' hl'

theorem Inv.test (h : Inv s) {i : Nat} (ht : s.test i = .ok s') : Inv s' := by
  rw [TcpServer.test] at ht
  split at ht
  · rename_i sock hi
    split at ht
    · rename_i hstop
      cases ht
      have hmem : ∀ l ∈ s.loops.eraseIdx i, l ∈ s.loops := fun l hl => List.mem_of_mem_eraseIdx hl
      refine ⟨⟨h.once, fun hrun => ?_,
          fun _ hclosing l hl => h.stopped hstop hclosing l (hmem l hl)⟩,
        h.nodup, h.bound, h.closing_eq, fun _ l hl => h.stopping hstop l (hmem l hl), h.socks_lt,
        fun l hl => h.loops_lt l (hmem l hl)⟩
      cases hstop.symm.trans hrun
    · cases ht
      exact h.set hi
  · cases ht

theorem Inv.accept (h : Inv s) {i : Nat} {client : Option κ} (ha : s.accept i client = .ok s') :
    Inv s' := by
  rw [TcpServer.accept] at ha
  split at ha
  · rename_i sock hi
    have hset : Inv { s with loops := s.loops.set i (sock, false) } := h.set hi
    cases client with
    | none =>
      cases ha
      exact hset
    | some c =>
      dsimp only at ha
      split at ha
      · cases ha
        refine ⟨⟨?_, hset.running, hset.stopped⟩, hset.nodup, hset.bound, hset.closing_eq,
          hset.stopping, hset.socks_lt, hset.loops_lt⟩
        classical
        refine List.perm_iff_count.mpr fun c' => ?_
        have hcount := h.once.count_eq c'
        simp only [List.count_append] at hcount ⊢
        omega
      · cases ha
  · cases ha

theorem Inv.handle (h : Inv s) {i : Nat} (hh : s.handle i = .ok s') : Inv s' := by
  rw [TcpServer.handle] at hh
  split at hh
  · cases hh
  · rename_i c hi
    cases hh
    refine ⟨⟨?_, h.running, h.stopped⟩, h.nodup, h.bound, h.closing_eq, h.stopping, h.socks_lt,
      h.loops_lt⟩
    obtain ⟨hlt, hget⟩ := List.getElem?_eq_some_iff.mp hi
    have hperm := List.getElem_cons_eraseIdx_perm hlt
    rw [hget] at hperm
    classical
    refine List.perm_iff_count.mpr fun c' => ?_
    have hcount := h.once.count_eq c'
    have herase := hperm.count_eq c'
    simp only [List.count_append, List.count_cons, List.count_nil] at hcount herase ⊢
    omega

theorem step_inv {op : Op κ} (h : Inv s) (hok : Calm s op) (hs : Step s op s') : Inv s' := by
  cases op with
  | bind oks fails =>
    cases hs
    exact h.bind oks fails hok.1 hok.2
  | start =>
    cases hs
    exact h.start hok
  | stop =>
    cases hs
    exact h.stop
  | close => exact h.close hs
  | test i => exact h.test hs
  | accept i client => exact h.accept hs
  | handle i => exact h.handle hs

end Steps

theorem inv_init : Inv (init : TcpServer κ) where
  once := List.Perm.nil
  running hrun := by cases hrun
  stopped _ _ _ hl := absurd hl List.not_mem_nil
  nodup := List.nodup_nil
  bound _ _ hsock := absurd hsock List.not_mem_nil
  closing_eq hrun := by cases hrun
  stopping _ _ hl := absurd hl List.not_mem_nil
  socks_lt _ hsock := absurd hsock List.not_mem_nil
  loops_lt _ hl := absurd hl List.not_mem_nil

/-- A server of two sockets takes a client, stops, and starts anew. -/
def restarted : List (Op Nat) :=
  [.bind [true, true] 0, .start, .test 1, .accept 1 (some 5), .handle 0, .stop, .close, .test 1,
    .test 0, .bind [true] 0, .start]

/-- Started before the last stop is through, the server runs and cannot accept. -/
def hurried : List (Op Nat) := [.bind [true] 0, .start, .stop, .start, .close]

theorem run_hurried_breaks_serving : ∃ t, Run Step (init : TcpServer Nat) t ∧
    (last init t).isStop = false ∧ (∀ l ∈ (last init t).loops, (last init t).isOpen l.1 = false) ∧
    ¬Always Serving init t := by
  refine ⟨_, run_of_trace hurried rfl, rfl, ?_, fun h => ?_⟩
  · exact List.forall_mem_cons.mpr ⟨rfl, List.forall_mem_singleton.mpr rfl⟩
  · have hlength := (h.last.running rfl).1.length_eq
    cases hlength

end TcpServer

end CxkFramework
