import CxkFramework.Blocks

/-!
# Streams

One end of a connection: what its peer has sent and not yet been received, what was sent,
and a plan of what each coming `read` and `write` does. A positive entry lets that many
bytes through at most, any other is the result of a failed call, so every sequence of short
and failing calls is some plan. `readFixSize` and `writeFixSize` are the loops of `Stream`.
-/

namespace CxkFramework

open Blocks

/-- Conversion to `int`. -/
def toInt (n : Int) : Int := Int.bmod n (2 ^ 32)

structure Stream where
  input : List UInt8
  output : List UInt8
  readPlan : Nat → Int32
  writePlan : Nat → Int32
  reads : Nat
  writes : Nat
  closed : Bool

namespace Stream

def close (s : Stream) : Stream := { s with closed := true }

/-- `read` of a connected socket: the result and the bytes put into the buffer. -/
def read (s : Stream) (length : Nat) : Int × List UInt8 × Stream :=
  if s.closed then (-1, [], s)
  else
    let plan := (s.readPlan s.reads).toInt
    let s := { s with reads := s.reads + 1 }
    if plan ≤ 0 then (plan, [], s)
    else
      let got := s.input.take (min length plan.toNat)
      (got.length, got, { s with input := s.input.drop got.length })

def write (s : Stream) (buffer : List UInt8) : Int × Stream :=
  if s.closed then (-1, s)
  else
    let plan := (s.writePlan s.writes).toInt
    let s := { s with writes := s.writes + 1 }
    if plan ≤ 0 then (plan, s)
    else
      let sent := buffer.take plan.toNat
      (sent.length, { s with output := s.output ++ sent })

/-- The loop of `readFixSize`: the result that ended it early, if one did, and the bytes
read. A round that goes on has read a byte, so `left` rounds are enough. -/
def readLoop : Nat → Stream → Nat → Option Int × List UInt8 × Stream
  | 0, s, _ => (none, [], s)
  | rounds + 1, s, left =>
    if left = 0 then (none, [], s)
    else
      let (len, bytes, s) := s.read left
      if len ≤ 0 then (some len, [], s)
      else
        let (stop, rest, s) := readLoop rounds s (left - len.toNat)
        (stop, bytes ++ rest, s)

/-- `left` is an `int64_t`: a length from `2 ^ 63` on is negative there and nothing is read. -/
def readFixSize (s : Stream) (length : Nat) : Int × List UInt8 × Stream :=
  let left := if length < 2 ^ 63 then length else 0
  match readLoop left s left with
  | (some len, bytes, s) => (toInt len, bytes, s)
  | (none, bytes, s) => (toInt length, bytes, s)

/-- The loop of `writeFixSize`. The result of `write` is kept in a `size_t`, so a negative
one moves `offset` back. There is no result when the rounds do not suffice or the loop
leaves the buffer. -/
def writeLoop (buffer : List UInt8) : Nat → Stream → Nat → Nat → Option (Option Int × Stream)
  | 0, _, _, _ => none
  | rounds + 1, s, offset, left =>
    if left = 0 then some (none, s)
    else if buffer.length < offset + left then none
    else
      let (rt, s) := s.write (slice buffer offset left)
      let len := (rt % 2 ^ 64).toNat
      if len = 0 then some (some 0, s)
      else writeLoop buffer rounds s ((offset + len) % 2 ^ 64) ((left + 2 ^ 64 - len) % 2 ^ 64)

def writeFixSize (s : Stream) (rounds : Nat) (buffer : List UInt8) : Option (Int × Stream) := do
  let (stop, s) ← writeLoop buffer rounds s 0 buffer.length
  match stop with
  | some len => some (toInt len, s)
  | none => some (toInt buffer.length, s)

/-! ## Any stream -/

theorem toInt_of_lt {n : Int} (h0 : 0 ≤ n) (h : n < 2 ^ 31) : toInt n = n := by
  rw [toInt, Int.bmod_def]
  split <;> omega

/-- A length from `2 ^ 31` up to `2 ^ 32` is negative as an `int`. -/
theorem toInt_of_ge {n : Int} (h0 : 2 ^ 31 ≤ n) (h : n < 2 ^ 32) : toInt n = n - 2 ^ 32 := by
  rw [toInt, Int.bmod_def]
  split <;> omega

/-- The lengths below `2 ^ 32` that are no positive `int`. -/
theorem toInt_nonpos {n : Nat} (h : n = 0 ∨ 2 ^ 31 ≤ n) (h1 : n < 2 ^ 32) : toInt n ≤ 0 := by
  rcases h with h | h
  · have hzero : toInt (n : Int) = n := toInt_of_lt (by omega) (by omega)
    omega
  · have hneg : toInt (n : Int) = n - 2 ^ 32 := toInt_of_ge (by omega) (by omega)
    omega

/-- A small negative number as a `uint64_t` is negative as an `int`. -/
theorem toInt_wrapped {m : Nat} (hpos : 0 < m) (h : m < 2 ^ 31) :
    toInt ((2 ^ 64 - m : Nat) : Int) ≤ 0 := by
  rw [toInt, Int.bmod_def]
  split <;> omega

theorem toInt_of_nonpos {n : Int} (h : -2 ^ 31 ≤ n) (h0 : n ≤ 0) : toInt n = n := by
  rw [toInt, Int.bmod_def]
  split <;> omega

theorem readFixSize_nothing (s : Stream) {length : Nat} (h : 2 ^ 63 ≤ length) :
    s.readFixSize length = (toInt length, [], s) := by
  rw [readFixSize, if_neg (by omega)]
  rfl

/-- One `read`: what it got is counted, and is no more than was asked for. -/
theorem read_le {s s' : Stream} {length : Nat} {len : Int} {bytes : List UInt8}
    (h : s.read length = (len, bytes, s')) :
    -2 ^ 31 ≤ len ∧ bytes.length ≤ length ∧ (0 < len → len = bytes.length) := by
  have hplan := (s.readPlan s.reads).le_toInt
  rw [read] at h
  split at h
  · cases h
    simp
  · simp only at h
    split at h
    · cases h
      exact ⟨hplan, by simp, by omega⟩
    · cases h
      have htake := List.length_take_le (min length (s.readPlan s.reads).toInt.toNat) s.input
      exact ⟨by omega, by omega, fun _ => rfl⟩

/-- The loop ends with all the bytes, or with the result of a call that failed. -/
theorem readLoop_le {rounds left : Nat} {s s' : Stream} {stop : Option Int} {bytes : List UInt8}
    (hr : left ≤ rounds) (h : readLoop rounds s left = (stop, bytes, s')) :
    bytes.length ≤ left ∧ (stop = none → bytes.length = left) ∧
      ∀ len ∈ stop, -2 ^ 31 ≤ len ∧ len ≤ 0 := by
  induction rounds generalizing s left stop bytes s' with
  | zero =>
    cases h
    simp
    omega
  | succ rounds ih =>
    rw [readLoop] at h
    split at h
    · cases h
      simp
      omega
    · rcases hread : s.read left with ⟨len, got, s₁⟩
      obtain ⟨hlow, hgot, hcount⟩ := read_le hread
      rw [hread] at h
      simp only at h
      split at h
      · cases h
        simp
        omega
      · rcases hrest : readLoop rounds s₁ (left - len.toNat) with ⟨stop₁, rest, s₂⟩
        simp only [hrest, Prod.mk.injEq] at h
        obtain ⟨rfl, rfl, rfl⟩ := h
        obtain ⟨hle, hall, hstop⟩ := ih (by omega) hrest
        refine ⟨?_, fun hnone => ?_, hstop⟩
        · rw [List.length_append]
          omega
        · rw [List.length_append, hall hnone]
          omega

/-- `readFixSize`: a positive result only when all the bytes were read. -/
theorem readFixSize_le {s s' : Stream} {length : Nat} {rt : Int} {bytes : List UInt8}
    (h : s.readFixSize length = (rt, bytes, s')) :
    bytes.length ≤ length ∧ (0 < rt → length < 2 ^ 63 → bytes.length = length) := by
  by_cases hsmall : length < 2 ^ 63
  · rw [readFixSize, if_pos hsmall] at h
    rcases hloop : readLoop length s length with ⟨stop, got, s₁⟩
    obtain ⟨hle, hall, hstop⟩ := readLoop_le le_rfl hloop
    simp only [hloop] at h
    cases stop with
    | some len =>
      simp only [Prod.mk.injEq] at h
      obtain ⟨rfl, rfl, rfl⟩ := h
      obtain ⟨hlow, hnonpos⟩ := hstop len rfl
      rw [toInt_of_nonpos hlow hnonpos]
      exact ⟨hle, fun hpos => absurd hpos (not_lt.mpr hnonpos)⟩
    | none =>
      simp only [Prod.mk.injEq] at h
      obtain ⟨-, rfl, -⟩ := h
      exact ⟨hle, fun _ _ => hall rfl⟩
  · rw [readFixSize_nothing s (not_lt.mp hsmall), Prod.mk.injEq, Prod.mk.injEq] at h
    obtain ⟨-, rfl, -⟩ := h
    exact ⟨Nat.zero_le _, fun _ hlt => absurd hlt hsmall⟩

/-! ## Reliable streams -/

/-- No call fails; each may still be short. -/
structure Reliable (s : Stream) : Prop where
  open_ : s.closed = false
  reads_ok : ∀ i, 0 < (s.readPlan i).toInt
  writes_ok : ∀ i, 0 < (s.writePlan i).toInt

/-- Bytes were taken from the input and nothing else was done. -/
structure Received (s : Stream) (bytes : List UInt8) (s' : Stream) : Prop where
  input_eq : s.input = bytes ++ s'.input
  output_eq : s'.output = s.output
  readPlan_eq : s'.readPlan = s.readPlan
  writePlan_eq : s'.writePlan = s.writePlan
  closed_eq : s'.closed = s.closed

/-- Bytes were added to the output and nothing else was done. -/
structure Sent (s : Stream) (bytes : List UInt8) (s' : Stream) : Prop where
  output_eq : s'.output = s.output ++ bytes
  input_eq : s'.input = s.input
  readPlan_eq : s'.readPlan = s.readPlan
  writePlan_eq : s'.writePlan = s.writePlan
  closed_eq : s'.closed = s.closed

theorem Received.reliable {s s' : Stream} {bytes : List UInt8} (h : Received s bytes s')
    (hs : Reliable s) : Reliable s' where
  open_ := h.closed_eq.trans hs.open_
  reads_ok i := h.readPlan_eq ▸ hs.reads_ok i
  writes_ok i := h.writePlan_eq ▸ hs.writes_ok i

theorem Sent.reliable {s s' : Stream} {bytes : List UInt8} (h : Sent s bytes s')
    (hs : Reliable s) : Reliable s' where
  open_ := h.closed_eq.trans hs.open_
  reads_ok i := h.readPlan_eq ▸ hs.reads_ok i
  writes_ok i := h.writePlan_eq ▸ hs.writes_ok i

theorem Received.refl (s : Stream) : Received s [] s := ⟨rfl, rfl, rfl, rfl, rfl⟩

theorem Sent.refl (s : Stream) : Sent s [] s := ⟨by simp, rfl, rfl, rfl, rfl⟩

theorem Received.trans {s₁ s₂ s₃ : Stream} {as bs : List UInt8} (h₁ : Received s₁ as s₂)
    (h₂ : Received s₂ bs s₃) : Received s₁ (as ++ bs) s₃ where
  input_eq := by rw [h₁.input_eq, h₂.input_eq, List.append_assoc]
  output_eq := h₂.output_eq.trans h₁.output_eq
  readPlan_eq := h₂.readPlan_eq.trans h₁.readPlan_eq
  writePlan_eq := h₂.writePlan_eq.trans h₁.writePlan_eq
  closed_eq := h₂.closed_eq.trans h₁.closed_eq

theorem Sent.trans {s₁ s₂ s₃ : Stream} {as bs : List UInt8} (h₁ : Sent s₁ as s₂)
    (h₂ : Sent s₂ bs s₃) : Sent s₁ (as ++ bs) s₃ where
  output_eq := by rw [h₂.output_eq, h₁.output_eq, List.append_assoc]
  input_eq := h₂.input_eq.trans h₁.input_eq
  readPlan_eq := h₂.readPlan_eq.trans h₁.readPlan_eq
  writePlan_eq := h₂.writePlan_eq.trans h₁.writePlan_eq
  closed_eq := h₂.closed_eq.trans h₁.closed_eq

/-- What was read is the front of what is wanted. -/
theorem Received.front {s s' : Stream} {got bytes rest : List UInt8} (h : Received s got s')
    (hin : s.input = bytes ++ rest) (hle : got.length ≤ bytes.length) :
    bytes = got ++ bytes.drop got.length ∧ s'.input = bytes.drop got.length ++ rest := by
  have hboth := hin.symm.trans h.input_eq
  have hsplit : bytes = got ++ bytes.drop got.length := by
    have hfront := congrArg (List.take got.length) hboth
    rw [List.take_append_of_le_length hle, List.take_left] at hfront
    rw [← hfront, List.length_take, min_eq_left hle, List.take_append_drop]
  refine ⟨hsplit, ?_⟩
  rw [hsplit, List.append_assoc, List.append_cancel_left_eq] at hboth
  exact hboth.symm

theorem take_append_drop_take {α : Type*} (l : List α) (k : Nat) :
    l.take k ++ l.drop (l.take k).length = l := by
  rcases Nat.le_total k l.length with h | h
  · rw [List.length_take, min_eq_left h, List.take_append_drop]
  · rw [List.take_of_length_le h, List.drop_length, List.append_nil]

/-- One `read` on a reliable stream that has bytes: at least one and at most as many as asked. -/
theorem read_reliable {s : Stream} (hs : Reliable s) {length : Nat} (hl : 0 < length)
    (hin : 0 < s.input.length) : ∃ bytes s', s.read length = ((bytes.length : Int), bytes, s') ∧
      Received s bytes s' ∧ 0 < bytes.length ∧ bytes.length ≤ length := by
  have hplan := hs.reads_ok s.reads
  have hlen : (s.input.take (min length (s.readPlan s.reads).toInt.toNat)).length =
      min (min length (s.readPlan s.reads).toInt.toNat) s.input.length := List.length_take
  refine ⟨s.input.take (min length (s.readPlan s.reads).toInt.toNat), { s with
    reads := s.reads + 1
    input := s.input.drop (s.input.take (min length (s.readPlan s.reads).toInt.toNat)).length },
    ?_, ⟨?_, rfl, rfl, rfl, rfl⟩, by omega, by omega⟩
  · rw [read, if_neg (by simp [hs.open_]), if_neg (by omega)]
  · exact (take_append_drop_take s.input _).symm

/-- What a `read` on a reliable stream says of it. -/
theorem received_of_read {s s' : Stream} (hs : Reliable s) {length : Nat} {len : Int}
    {got : List UInt8} (h : s.read length = (len, got, s')) :
    len = got.length ∧ Received s got s' ∧ got.length < 2 ^ 31 ∧ got.length ≤ length := by
  have hplan := hs.reads_ok s.reads
  have hmax := (s.readPlan s.reads).toInt_lt
  have hlen : (s.input.take (min length (s.readPlan s.reads).toInt.toNat)).length ≤
      min length (s.readPlan s.reads).toInt.toNat := by
    rw [List.length_take]
    omega
  rw [read, if_neg (by simp [hs.open_]), if_neg (by omega)] at h
  simp only [Prod.mk.injEq] at h
  obtain ⟨rfl, rfl, rfl⟩ := h
  exact ⟨rfl, ⟨(take_append_drop_take s.input _).symm, rfl, rfl, rfl, rfl⟩, by omega, by omega⟩

/-- A `read` gets no more than the plan lets through. -/
theorem length_read_le (s : Stream) (length : Nat) :
    (s.read length).2.1.length ≤ (s.readPlan s.reads).toInt.toNat := by
  rw [read]
  split
  · exact Nat.zero_le _
  · simp only
    split
    · exact Nat.zero_le _
    · rw [List.length_take]
      omega

theorem readLoop_reliable {s : Stream} (hs : Reliable s) {left rounds : Nat}
    (hr : left ≤ rounds) {bytes rest : List UInt8} (hin : s.input = bytes ++ rest)
    (hlen : bytes.length = left) :
    ∃ s', readLoop rounds s left = (none, bytes, s') ∧ Received s bytes s' := by
  induction rounds generalizing s left bytes with
  | zero =>
    have hnil : bytes = [] := List.length_eq_zero_iff.mp (by omega)
    exact ⟨s, by rw [readLoop, hnil], hnil ▸ Received.refl s⟩
  | succ rounds ih =>
    rw [readLoop]
    by_cases hleft : left = 0
    · have hnil : bytes = [] := List.length_eq_zero_iff.mp (by omega)
      exact ⟨s, by rw [if_pos hleft, hnil], hnil ▸ Received.refl s⟩
    · have hpos : 0 < s.input.length := by
        rw [hin, List.length_append]
        omega
      obtain ⟨got, s₁, hread, hrec, hgot, hle⟩ := read_reliable hs (by omega : 0 < left) hpos
      obtain ⟨hsplit, hin₁⟩ := hrec.front hin (by omega)
      have hlen₁ : (bytes.drop got.length).length = left - got.length := by
        rw [List.length_drop, hlen]
      obtain ⟨s', hok, hrec'⟩ := ih (hrec.reliable hs) (by omega) hin₁ hlen₁
      refine ⟨s', ?_, ?_⟩
      · rw [if_neg hleft, hread]
        simp only [Int.toNat_natCast, hok]
        rw [if_neg (by omega), ← hsplit]
      · rw [hsplit]
        exact hrec.trans hrec'

theorem readFixSize_reliable {s : Stream} (hs : Reliable s) {bytes rest : List UInt8}
    (hb : bytes.length < 2 ^ 63) (hin : s.input = bytes ++ rest) :
    ∃ s', s.readFixSize bytes.length = (toInt bytes.length, bytes, s') ∧ Received s bytes s' := by
  obtain ⟨s', hok, hrec⟩ := readLoop_reliable hs le_rfl hin rfl
  exact ⟨s', by simp only [readFixSize, hb, if_true, hok], hrec⟩

theorem received_of_readLoop {s s' : Stream} (hs : s.Reliable) {rounds left : Nat}
    {stop : Option Int} {bytes : List UInt8} (h : readLoop rounds s left = (stop, bytes, s')) :
    s.Received bytes s' := by
  induction rounds generalizing s left stop bytes s' with
  | zero =>
    cases h
    exact Received.refl s
  | succ rounds ih =>
    rw [readLoop] at h
    split at h
    · cases h
      exact Received.refl s
    · rcases hread : s.read left with ⟨len, got, s₁⟩
      obtain ⟨hlen, hrec, -⟩ := received_of_read hs hread
      rw [hread] at h
      simp only at h
      split at h
      · rename_i hnone
        have hnil : got = [] := List.length_eq_zero_iff.mp (by omega)
        subst hnil
        cases h
        exact hrec
      · rcases hrest : readLoop rounds s₁ (left - len.toNat) with ⟨stop₁, rest, s₂⟩
        simp only [hrest, Prod.mk.injEq] at h
        obtain ⟨rfl, rfl, rfl⟩ := h
        exact hrec.trans (ih (hrec.reliable hs) hrest)

theorem received_of_readFixSize {s s' : Stream} (hs : s.Reliable) {length : Nat} {rt : Int}
    {bytes : List UInt8} (h : s.readFixSize length = (rt, bytes, s')) : s.Received bytes s' := by
  rw [readFixSize] at h
  rcases hloop : readLoop (if length < 2 ^ 63 then length else 0) s
    (if length < 2 ^ 63 then length else 0) with ⟨stop, got, s₁⟩
  have hrec := received_of_readLoop hs hloop
  cases stop with
  | none =>
    simp only [hloop, Prod.mk.injEq] at h
    obtain ⟨-, rfl, rfl⟩ := h
    exact hrec
  | some len =>
    simp only [hloop, Prod.mk.injEq] at h
    obtain ⟨-, rfl, rfl⟩ := h
    exact hrec

/-- One `write` on a reliable stream: at least one byte is taken. -/
theorem write_reliable {s : Stream} (hs : Reliable s) {buffer : List UInt8} (hb : buffer ≠ []) :
    ∃ (n : Nat) (s' : Stream), s.write buffer = ((n : Int), s') ∧ Sent s (buffer.take n) s' ∧ 0 < n ∧
      n ≤ buffer.length := by
  have hplan := hs.writes_ok s.writes
  have hpos := List.length_pos_iff.mpr hb
  have hlen : (buffer.take (s.writePlan s.writes).toInt.toNat).length =
      min (s.writePlan s.writes).toInt.toNat buffer.length := List.length_take
  refine ⟨(buffer.take (s.writePlan s.writes).toInt.toNat).length, { s with
    writes := s.writes + 1
    output := s.output ++ buffer.take (s.writePlan s.writes).toInt.toNat },
    ?_, ⟨?_, rfl, rfl, rfl, rfl⟩, by omega, by omega⟩
  · rw [write, if_neg (by simp [hs.open_]), if_neg (by omega)]
  · rw [hlen, ← List.take_take, List.take_length]

theorem writeLoop_reliable {s : Stream} (hs : Reliable s) {buffer : List UInt8}
    (hb : buffer.length < 2 ^ 64) {offset left rounds : Nat} (hr : left < rounds)
    (hend : offset + left = buffer.length) :
    ∃ s', writeLoop buffer rounds s offset left = some (none, s') ∧
      Sent s (buffer.drop offset) s' := by
  induction rounds generalizing s offset left with
  | zero => omega
  | succ rounds ih =>
    rw [writeLoop]
    by_cases hleft : left = 0
    · have hnil : buffer.drop offset = [] := List.drop_of_length_le (by omega)
      exact ⟨s, by rw [if_pos hleft], hnil ▸ Sent.refl s⟩
    · have hslice : slice buffer offset left = buffer.drop offset := by
        rw [slice, List.take_of_length_le (by rw [List.length_drop]; omega)]
      have hne : buffer.drop offset ≠ [] := by
        apply List.length_pos_iff.mp
        rw [List.length_drop]
        omega
      obtain ⟨n, s₁, hwrite, hsent, hpos, hle⟩ := write_reliable hs hne
      rw [List.length_drop] at hle
      have hlen : ((n : Int) % 2 ^ 64).toNat = n := by omega
      have hoff : (offset + n) % 2 ^ 64 = offset + n := Nat.mod_eq_of_lt (by omega)
      have hrest : (left + 2 ^ 64 - n) % 2 ^ 64 = left - n := by omega
      have hend₁ : offset + n + (left - n) = buffer.length := by omega
      obtain ⟨s', hok, hsent'⟩ := ih (hsent.reliable hs) (by omega) hend₁
      refine ⟨s', ?_, ?_⟩
      · rw [if_neg hleft, if_neg (by omega), hslice, hwrite]
        simp only [hlen, hoff, hrest]
        rw [if_neg (by omega), hok]
      · have hall := hsent.trans hsent'
        rwa [← List.drop_drop, List.take_append_drop] at hall

theorem writeFixSize_reliable {s : Stream} (hs : Reliable s) {buffer : List UInt8}
    (hb : buffer.length < 2 ^ 64) {rounds : Nat} (hr : buffer.length < rounds) :
    ∃ s', s.writeFixSize rounds buffer = some (toInt buffer.length, s') ∧ Sent s buffer s' := by
  obtain ⟨s', hok, hsent⟩ := writeLoop_reliable hs hb hr (Nat.zero_add _)
  exact ⟨s', by rw [writeFixSize, hok]; rfl, by simpa using hsent⟩

end Stream

end CxkFramework
