import CxkFramework.Rotation
import Mathlib.Tactic

/-!
# The rotation of connections

`AsyncSocketStreamManager`: `get` goes round its streams from where the last call of it ended and
returns the first one that is connected. The counter that tells where has 32 bits and is never
reduced. A stream is of any type, and whether it is connected is a question of the moment.
-/

namespace CxkFramework

open Rotation

/-- `m_size` is kept beside the streams. -/
structure AsyncSocketStreamManager (σ : Type) where
  datas : List σ
  size : UInt32
  idx : UInt32
  size_eq : size = UInt32.ofNat datas.length

namespace AsyncSocketStreamManager

variable {σ : Type}

def new : AsyncSocketStreamManager σ where
  datas := []
  size := 0
  idx := 0
  size_eq := rfl

def add (m : AsyncSocketStreamManager σ) (stream : σ) : AsyncSocketStreamManager σ where
  datas := m.datas ++ [stream]
  size := m.size + 1
  idx := m.idx
  size_eq := by
    rw [m.size_eq, List.length_append, List.length_singleton, UInt32.ofNat_add]
    rfl

def clear (m : AsyncSocketStreamManager σ) : AsyncSocketStreamManager σ where
  datas := []
  size := 0
  idx := m.idx
  size_eq := rfl

def setConnection (m : AsyncSocketStreamManager σ) (streams : List σ) : AsyncSocketStreamManager σ where
  datas := streams
  size := UInt32.ofNat streams.length
  idx := m.idx
  size_eq := rfl

/-- The loop of `get`, with the rounds that are left: the stream and the counter. -/
def getLoop (m : AsyncSocketStreamManager σ) (isConnected : σ → Bool) : Nat → UInt32 → Option σ × UInt32
  | 0, idx => (none, idx)
  | left + 1, idx =>
    let idx := idx + 1
    match m.datas[(idx % m.size).toNat]?.filter isConnected with
    | some stream => (some stream, idx)
    | none => m.getLoop isConnected left idx

def get (m : AsyncSocketStreamManager σ) (isConnected : σ → Bool) :
    Option σ × AsyncSocketStreamManager σ :=
  let (stream, idx) := m.getLoop isConnected m.size.toNat m.idx
  (stream, { m with idx := idx })

/-- Nothing is connected, or the counter comes to a connected stream. -/
def ConnectedReached (m : AsyncSocketStreamManager σ) (isConnected : σ → Bool) : Prop :=
  (∀ stream ∈ m.datas, isConnected stream = false) ∨
    ∃ p < m.size.toNat, ∃ stream, m.datas[p]? = some stream ∧ isConnected stream = true ∧
      Reaches (2 ^ 32) m.size.toNat (m.idx + 1).toNat p

section

variable {m : AsyncSocketStreamManager σ} {isConnected : σ → Bool}

/-- Every index of the loop is one of the list. -/
theorem index_lt (hsize : 0 < m.size.toNat) (idx : UInt32) : (idx % m.size).toNat < m.datas.length := by
  have hlt := Nat.mod_lt idx.toNat hsize
  have hle : m.size.toNat ≤ m.datas.length := by
    rw [m.size_eq, UInt32.toNat_ofNat']
    exact Nat.mod_le _ _
  rw [UInt32.toNat_mod]
  omega

theorem index_eq (idx : UInt32) (i : Nat) :
    ((idx + UInt32.ofNat (i + 1)) % m.size).toNat =
      place (2 ^ 32) m.size.toNat (idx + 1).toNat i := by
  simp only [place, UInt32.toNat_mod, UInt32.toNat_add, UInt32.toNat_ofNat', UInt32.toNat_one]
  congr 1
  omega

/-- The rounds of the loop look where the counter comes to. -/
theorem getLoop_eq (left : Nat) (idx : UInt32) :
    (m.getLoop isConnected left idx).1 = (List.range left).findSome? fun i =>
      m.datas[((idx + UInt32.ofNat (i + 1)) % m.size).toNat]?.filter isConnected := by
  induction left generalizing idx with
  | zero => rfl
  | succ left ih =>
    have hnext : ∀ i, idx + 1 + UInt32.ofNat (i + 1) = idx + UInt32.ofNat (i + 1 + 1) := by
      intro i
      rw [UInt32.add_assoc, UInt32.add_comm 1, UInt32.ofNat_add (i + 1) 1]
      rfl
    rw [getLoop, List.range_succ_eq_map, List.findSome?_cons, List.findSome?_map]
    have hfirst : UInt32.ofNat (0 + 1) = 1 := rfl
    simp only [hfirst, Function.comp_def, Nat.succ_eq_add_one]
    cases m.datas[((idx + 1) % m.size).toNat]?.filter isConnected with
    | some stream => rfl
    | none =>
      dsimp only
      rw [ih]
      simp only [hnext]

theorem get_eq_search (m : AsyncSocketStreamManager σ) (isConnected : σ → Bool) :
    (m.get isConnected).1 = search (2 ^ 32) m.size.toNat (m.idx + 1).toNat fun p =>
      m.datas[p]?.filter isConnected := by
  rw [get, search]
  simp only [getLoop_eq, index_eq]

/-- The counter comes to every stream when it does not overflow on the way, or when the number of
streams divides that of its values. -/
theorem connectedReached_of_dvd (hlength : m.datas.length < 2 ^ 32)
    (h : (m.idx + 1).toNat + m.size.toNat ≤ 2 ^ 32 ∨ m.size.toNat ∣ 2 ^ 32) :
    m.ConnectedReached isConnected := by
  have hsize : m.size.toNat = m.datas.length := by
    rw [m.size_eq]
    exact UInt32.toNat_ofNat_of_lt' hlength
  by_cases hall : ∀ stream ∈ m.datas, isConnected stream = false
  · exact .inl hall
  · simp only [not_forall, Bool.not_eq_false] at hall
    obtain ⟨stream, hmem, hconnected⟩ := hall
    obtain ⟨p, hp⟩ := List.mem_iff_getElem?.mp hmem
    obtain ⟨hlt, -⟩ := List.getElem?_eq_some_iff.mp hp
    rw [← hsize] at hlt
    refine .inr ⟨p, hlt, stream, hp, hconnected, ?_⟩
    cases h with
    | inl hle => exact reaches_of_le hle hlt
    | inr hdvd => exact reaches_of_dvd hdvd (UInt32.toNat_lt _) (UInt32.toNat_lt m.size).le hlt

end

/-- Whatever the counter is, `get` returns a connected stream, or none when none is connected,
exactly when the counter comes to a connected stream or there is none. -/
theorem get_finds_iff (m : AsyncSocketStreamManager σ) (isConnected : σ → Bool) :
    Finds isConnected m.datas (m.get isConnected).1 ↔ m.ConnectedReached isConnected := by
  rw [get_eq_search, ConnectedReached]
  exact search_finds_iff (UInt32.toNat_lt _) (UInt32.toNat_lt m.size).le

/-- Three streams of which the last one is connected, and a counter about to overflow. -/
theorem get_misses_connected : ∃ m : AsyncSocketStreamManager Nat,
    m.datas = [0, 1, 2] ∧ m.idx = 4294967294 ∧ (m.get (· == 2)).1 = none ∧
      ¬Finds (· == 2) m.datas (m.get (· == 2)).1 := by
  refine ⟨⟨[0, 1, 2], 3, 4294967294, rfl⟩, rfl, rfl, by decide, ?_⟩
  intro h
  exact absurd (h 2 (by decide)) (by decide)

end AsyncSocketStreamManager

end CxkFramework
