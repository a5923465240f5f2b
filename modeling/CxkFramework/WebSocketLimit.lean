import CxkFramework.WebSocketControl

/-!
# The size limit

`WSRecvMessage` compares `cur_len + length` with `websocket.message.max_size`. The sum is a
`uint64_t`: a length close to `2 ^ 64` makes it small, `data` is cut, and it is left to
`readFixSize`, where the length is negative, to read nothing and to fail.
-/

namespace CxkFramework.WebSocket

open Words Blocks

/-! ## What the receiver meets -/

/-- The length that a data frame announces, where the receiver comes to read it. -/
def announced (client : Bool) (head : WSFrameHead) (s : Stream) : Option Nat :=
  if !client && !head.mask then none else (readLength s head).1

/-- Where the payload is written, by `readFixSize` and by the loop of the mask: the indices, each
with the size of `data` then. -/
def payloadStores (curLen : Int) (head : WSFrameHead) (length : Nat) (s : Stream) :
    List (Int × Nat) :=
  let size := ((curLen + length) % 2 ^ 64).toNat
  let (rt, bytes, _) := s.readFixSize length
  let unmasked := if 0 < rt ∧ head.mask then (toInt length).toNat else 0
  (List.range bytes.length ++ List.range unmasked).map fun i : Nat => (curLen + i, size)

/-- The same for the whole branch of `recvData`. -/
def dataStores (maxSize : UInt32) (client : Bool) (curLen : Int) (head : WSFrameHead) (s : Stream) :
    List (Int × Nat) :=
  if !client && !head.mask then []
  else
    match readLength s head with
    | (none, _) => []
    | (some length, s) =>
      if (curLen + length) % 2 ^ 64 ≥ maxSize.toNat then []
      else
        match readMask s head with
        | (none, _) => []
        | (some _, s) => payloadStores curLen head length s

/-- A data frame. -/
structure Met where
  length : Nat
  stores : List (Int × Nat)
  result : FrameResult

/-- The data frame of one round, if that is what comes. -/
def met (maxSize : UInt32) (client : Bool) (p : Partial) (s : Stream) : Option Met :=
  let (rt, bytes, s) := s.readFixSize 2
  let head := WSFrameHead.ofBytes bytes
  if 0 < rt ∧ (head.opcode = CONTINUE ∨ head.opcode = TEXT_FRAME ∨ head.opcode = BIN_FRAME) then
    (announced client head s).map fun length =>
      ⟨length, dataStores maxSize client p.curLen head s, recvData maxSize client p head s⟩
  else none

/-- The data frames of all rounds. -/
def metFrames (maxSize : UInt32) (client : Bool) : Nat → Partial → Stream → List Met
  | 0, _, _ => []
  | rounds + 1, p, s =>
    (met maxSize client p s).toList ++
      match recvRound maxSize client (rounds + 1) p s with
      | .ended _ => []
      | .next p s => metFrames maxSize client rounds p s

/-- The limit holds for these frames, when `c` bytes were received before. -/
structure Limited (maxSize : UInt32) (c : Nat) (frames : List Met)
    (result : Option (Option WSFrameMessage × Stream)) : Prop where
  /-- a message has all the payloads, and their sum is below the limit -/
  message : ∀ msg s', result = some (some msg, s') →
    msg.data.length = c + (frames.map Met.length).sum ∧ msg.data.length < maxSize.toNat
  /-- every write is inside of the string -/
  stores : ∀ f ∈ frames, f.result ≠ .wild ∧ ∀ store ∈ f.stores, 0 ≤ store.1 ∧ store.1 < store.2
  /-- a frame that comes to the limit is the last one -/
  reached : ∀ before f later, frames = before ++ f :: later →
    maxSize.toNat ≤ c + (before.map Met.length).sum + f.length →
    later = [] ∧ ∃ s', result = some (none, s') ∧ s'.closed = true

/-! ## Lengths -/

section Lengths

variable {s s' : Stream} {head : WSFrameHead} {length : Nat}

theorem payload_ofBytes_lt (bytes : List UInt8) : (WSFrameHead.ofBytes bytes).payload < 128 := by
  rw [WSFrameHead.ofBytes.eq_def]
  split
  · exact Nat.mod_lt _ (by omega)
  · exact Nat.zero_lt_succ _

theorem beValue_lt {bytes : List UInt8} (h : bytes.length ≤ 8) : beValue bytes < 2 ^ 64 := by
  have hlt := byteswap_lt bytes.length (leValue bytes)
  have hle : 256 ^ bytes.length ≤ 256 ^ 8 := Nat.pow_le_pow_right (by omega) h
  rw [beValue]
  omega

/-- An announced length is a `uint64_t`. -/
theorem readLength_lt (hp : head.payload < 128) (h : readLength s head = (some length, s')) :
    length < 2 ^ 64 := by
  have hread : ∀ {n rt bytes s₁}, n ≤ 8 → s.readFixSize n = (rt, bytes, s₁) →
      (if rt ≤ 0 then none else some (beValue bytes), s₁) = (some length, s') → length < 2 ^ 64 := by
    intro n rt bytes s₁ hn hok heq
    obtain ⟨hle, -⟩ := Stream.readFixSize_le hok
    split at heq
    · simp at heq
    · obtain ⟨rfl, -⟩ : beValue bytes = length ∧ s₁ = s' := by simpa using heq
      exact beValue_lt (by omega)
  rw [readLength] at h
  split at h
  · exact hread (by omega) rfl h
  · split at h
    · exact hread (by omega) rfl h
    · obtain ⟨rfl, -⟩ : head.payload = length ∧ s = s' := by simpa using h
      omega

/-- With more bytes than the `int` that counts them can be, the length of the rest is negative. -/
theorem readFixSize_wrapped {c : Nat} (hc : c < 2 ^ 31) (hlt : length < 2 ^ 64)
    (hwrap : 2 ^ 64 ≤ c + length) :
    ∃ rt, s.readFixSize length = (rt, [], s) ∧ rt ≤ 0 := by
  refine ⟨toInt length, Stream.readFixSize_nothing s (by omega), ?_⟩
  have hrt := Stream.toInt_wrapped (show 0 < 2 ^ 64 - length by omega) (by omega)
  rwa [Nat.sub_sub_self (by omega)] at hrt

end Lengths

/-! ## One data frame -/

section Frame

variable {maxSize : UInt32} {client : Bool} {p : Partial} {head : WSFrameHead} {length : Nat}
  {mask : List UInt8} {s : Stream}

/-- What can come of a frame of this length. -/
def Grown (maxSize : UInt32) (p : Partial) (length : Nat) : FrameResult → Prop
  | .failed _ => True
  | .more p' _ => p'.curLen = p'.data.length ∧ p'.data.length = p.data.length + length ∧
      p.data.length + length < maxSize.toNat
  | .done msg _ => msg.data.length = p.data.length + length ∧
      p.data.length + length < maxSize.toNat
  | .wild => False

/-- The payload of a frame below the limit. -/
theorem recvPayload_grown (hp : p.curLen = p.data.length) (hmax : maxSize.toNat ≤ 2 ^ 31 - 1)
    (hlt : p.data.length + length < maxSize.toNat) :
    Grown maxSize p length (recvPayload p head length mask s) := by
  have hint : toInt (length : Int) = length := Stream.toInt_of_lt (by omega) (by omega)
  have hsum : toInt (p.curLen + length) = ((p.data.length + length : Nat) : Int) := by
    rw [hp, ← Nat.cast_add]
    exact Stream.toInt_of_lt (by omega) (by omega)
  have hsize : ((p.curLen + length) % 2 ^ 64).toNat = p.data.length + length := by omega
  rw [recvPayload, if_neg (by omega)]
  rcases hread : s.readFixSize length with ⟨rt, bytes, s₁⟩
  obtain ⟨-, hall⟩ := Stream.readFixSize_le hread
  simp only
  split
  · trivial
  · next hrt =>
    have hbytes : (if head.mask then applyMask mask bytes else bytes).length = length := by
      rw [← hall (not_le.mp hrt) (by omega)]
      split
      · exact length_applyMask mask bytes
      · rfl
    have hdata : (overwrite (resize p.data (p.data.length + length)) p.curLen.toNat
        (if head.mask then applyMask mask bytes else bytes)).length = p.data.length + length := by
      rw [← hbytes, hp, Int.toNat_natCast, overwrite_resize, List.length_append]
    rw [if_neg (by omega), hsize, hsum]
    split
    · exact ⟨hdata, hlt⟩
    · exact ⟨by rw [hdata], hdata, hlt⟩

/-- The length goes round the limit, but not past `readFixSize`. -/
theorem recvPayload_wrapped (hp : p.curLen = p.data.length) (hc : p.data.length < 2 ^ 31)
    (hlt : length < 2 ^ 64) (hwrap : 2 ^ 64 ≤ p.data.length + length) :
    recvPayload p head length mask s = .failed s := by
  obtain ⟨rt, hread, hrt⟩ := @readFixSize_wrapped s length p.data.length hc hlt hwrap
  rw [recvPayload, if_neg (by omega), hread]
  exact if_pos hrt

theorem recvData_grown (hp : p.curLen = p.data.length) (hc : p.data.length < 2 ^ 31)
    (hmax : maxSize.toNat ≤ 2 ^ 31 - 1) (hhead : head.payload < 128)
    (hlength : announced client head s = some length) :
    Grown maxSize p length (recvData maxSize client p head s) := by
  rw [announced] at hlength
  rw [recvData]
  split
  · trivial
  · next hmask =>
    rw [if_neg hmask] at hlength
    rcases hread : readLength s head with ⟨result, s₁⟩
    obtain rfl : result = some length := by rw [← hlength, hread]
    have hlt := readLength_lt hhead hread
    simp only
    split
    · trivial
    · next hsum =>
      rcases hmaskRead : readMask s₁ head with ⟨mask, s₂⟩
      cases mask with
      | none => trivial
      | some mask =>
        simp only
        rcases Nat.lt_or_ge (p.data.length + length) (2 ^ 64) with hfits | hwrap
        · exact recvPayload_grown hp hmax (by omega)
        · rw [recvPayload_wrapped hp hc hlt hwrap]
          trivial

/-- No write goes past the end. -/
theorem payloadStores_inside (hc : p.data.length < 2 ^ 31) (hlt : length < 2 ^ 64)
    (hmax : maxSize.toNat ≤ 2 ^ 31 - 1)
    (hsum : ¬((p.data.length : Int) + length) % 2 ^ 64 ≥ maxSize.toNat) :
    ∀ store ∈ payloadStores p.data.length head length s, 0 ≤ store.1 ∧ store.1 < store.2 := by
  rcases Nat.lt_or_ge (p.data.length + length) (2 ^ 64) with hfits | hwrap
  · have hint : toInt (length : Int) = length := Stream.toInt_of_lt (by omega) (by omega)
    rcases hread : s.readFixSize length with ⟨rt, bytes, s₁⟩
    obtain ⟨hle, -⟩ := Stream.readFixSize_le hread
    simp only [payloadStores, hread, hint, List.mem_map, List.mem_append, List.mem_range]
    rintro store ⟨i, hi, rfl⟩
    have hlow : i < length := by
      cases hi with
      | inl hread => omega
      | inr hloop =>
        split at hloop
        · simpa using hloop
        · omega
    simp only
    omega
  · obtain ⟨rt, hread, hrt⟩ := @readFixSize_wrapped s length p.data.length hc hlt hwrap
    have hnone : ¬(0 < rt ∧ head.mask = true) := fun h => absurd h.1 (not_lt.mpr hrt)
    simp [payloadStores, hread, hnone]

theorem dataStores_inside (hp : p.curLen = p.data.length) (hc : p.data.length < 2 ^ 31)
    (hmax : maxSize.toNat ≤ 2 ^ 31 - 1) (hhead : head.payload < 128) :
    ∀ store ∈ dataStores maxSize client p.curLen head s, 0 ≤ store.1 ∧ store.1 < store.2 := by
  rw [dataStores, hp]
  split
  · simp
  · rcases hread : readLength s head with ⟨_ | length, s₁⟩
    · simp
    · simp only
      split
      · simp
      · next hsum =>
        rcases readMask s₁ head with ⟨_ | mask, s₂⟩
        · simp
        · exact payloadStores_inside hc (readLength_lt hhead hread) hmax hsum

end Frame

/-! ## All frames -/

section Run

variable {maxSize : UInt32} {client : Bool} {rounds : Nat} {p : Partial} {s : Stream}

theorem recvData_unannounced {head : WSFrameHead} (h : announced client head s = none) :
    ∃ s', recvData maxSize client p head s = .failed s' := by
  rw [announced] at h
  rw [recvData]
  split
  · exact ⟨_, rfl⟩
  · next hmask =>
    rw [if_neg hmask] at h
    rcases hread : readLength s head with ⟨result, s₁⟩
    obtain rfl : result = none := by rw [← h, hread]
    exact ⟨s₁, rfl⟩

/-- A round without a data frame gives no message and leaves what was received. -/
def Round.Idle (p : Partial) : Round → Prop
  | .ended result => ∀ msg s', result ≠ some (some msg, s')
  | .next p' _ => p' = p

/-- A round either meets no data frame or ends as the frame does. -/
theorem recvRound_met :
    met maxSize client p s = none ∧ (recvRound maxSize client rounds p s).Idle p ∨
      ∃ head s₁ length, head.payload < 128 ∧ announced client head s₁ = some length ∧
        met maxSize client p s = some ⟨length, dataStores maxSize client p.curLen head s₁,
          recvData maxSize client p head s₁⟩ ∧
        recvRound maxSize client rounds p s = afterData (recvData maxSize client p head s₁) := by
  rcases hread : s.readFixSize 2 with ⟨rt, bytes, s₁⟩
  rw [recvRound, met, hread]
  simp only
  by_cases hrt : rt ≤ 0
  · rw [if_pos hrt, if_neg fun h => absurd h.1 (not_lt.mpr hrt)]
    exact .inl ⟨rfl, by simp [Round.Idle]⟩
  rw [if_neg hrt]
  by_cases hdata : (WSFrameHead.ofBytes bytes).opcode = CONTINUE ∨
      (WSFrameHead.ofBytes bytes).opcode = TEXT_FRAME ∨ (WSFrameHead.ofBytes bytes).opcode = BIN_FRAME
  · have hcontrol : (WSFrameHead.ofBytes bytes).opcode ≠ PING ∧
        (WSFrameHead.ofBytes bytes).opcode ≠ PONG := by
      rcases hdata with h | h | h <;> rw [h] <;> decide
    rw [if_neg hcontrol.1, if_neg hcontrol.2, if_pos hdata, if_pos ⟨not_le.mp hrt, hdata⟩]
    cases hlength : announced client (WSFrameHead.ofBytes bytes) s₁ with
    | none =>
      obtain ⟨s₂, hfailed⟩ := @recvData_unannounced maxSize client p s₁ _ hlength
      exact .inl ⟨rfl, by simp [hfailed, Round.Idle]⟩
    | some length =>
      refine .inr ⟨_, s₁, length, payload_ofBytes_lt bytes, hlength, rfl, ?_⟩
      cases recvData maxSize client p (WSFrameHead.ofBytes bytes) s₁ <;> rfl
  · rw [if_neg fun h => hdata h.2, if_neg hdata]
    refine .inl ⟨rfl, ?_⟩
    split
    · cases WSPong rounds s₁ with
      | none => simp [Round.Idle]
      | some r =>
        obtain ⟨v, s₂⟩ := r
        simp only
        split
        · simp [Round.Idle]
        · rfl
    · split <;> rfl

/-- One more frame before the others. -/
theorem Limited.cons {c : Nat} {f : Met} {frames : List Met}
    {result : Option (Option WSFrameMessage × Stream)} (hbelow : c + f.length < maxSize.toNat)
    (hwild : f.result ≠ .wild) (hstores : ∀ store ∈ f.stores, 0 ≤ store.1 ∧ store.1 < store.2)
    (h : Limited maxSize (c + f.length) frames result) : Limited maxSize c (f :: frames) result where
  message msg s' hmsg := by
    obtain ⟨hlength, hlt⟩ := h.message msg s' hmsg
    refine ⟨?_, hlt⟩
    rw [hlength, List.map_cons, List.sum_cons, Nat.add_assoc]
  stores := by
    intro g hg
    cases List.mem_cons.mp hg with
    | inl heq => exact heq ▸ ⟨hwild, hstores⟩
    | inr hmem => exact h.stores g hmem
  reached := by
    intro before g later hsplit hle
    cases before with
    | nil =>
      obtain ⟨rfl, -⟩ := List.cons.inj hsplit
      simp at hle
      omega
    | cons g' before =>
      obtain ⟨rfl, hrest⟩ := List.cons.inj hsplit
      rw [List.map_cons, List.sum_cons] at hle
      exact h.reached before g later hrest (by omega)

/-- What was received is counted by `cur_len` and is below the limit, from one frame to the next. -/
theorem recvLoop_limited (hmax : maxSize.toNat ≤ 2 ^ 31 - 1) (hp : p.curLen = p.data.length)
    (hc : p.data.length < 2 ^ 31) :
    Limited maxSize p.data.length (metFrames maxSize client rounds p s)
      (recvLoop maxSize client rounds p s) := by
  induction rounds generalizing p s with
  | zero => exact ⟨by simp [recvLoop], by simp [metFrames], by simp [metFrames]⟩
  | succ rounds ih =>
    rw [metFrames, recvLoop_succ]
    rcases @recvRound_met maxSize client (rounds + 1) p s with
      ⟨hnone, hidle⟩ | ⟨head, s₁, length, hhead, hlength, hsome, hround⟩
    · rw [hnone, Option.toList_none, List.nil_append]
      cases hround : recvRound maxSize client (rounds + 1) p s with
      | ended result =>
        rw [hround] at hidle
        exact ⟨fun msg s' hmsg => absurd hmsg (hidle msg s'), by simp, by simp⟩
      | next p' s' =>
        rw [hround] at hidle
        obtain rfl : p' = p := hidle
        exact ih hp hc
    · have hgrown := @recvData_grown maxSize client p head length s₁ hp hc hmax hhead hlength
      have hstores := @dataStores_inside maxSize client p head s₁ hp hc hmax hhead
      rw [hsome, hround, Option.toList_some, List.singleton_append]
      cases hresult : recvData maxSize client p head s₁ with
      | failed s₂ =>
        refine ⟨by simp [afterData], ?_, ?_⟩
        · simpa [afterData] using hstores
        · intro before f later hsplit _
          obtain ⟨-, rfl, rfl⟩ : before = [] ∧ _ ∧ later = [] := by
            simpa [afterData, List.singleton_eq_append_iff] using hsplit
          exact ⟨rfl, s₂.close, rfl, rfl⟩
      | more p' s₂ =>
        rw [hresult] at hgrown
        obtain ⟨hcount, hdata, hbelow⟩ := hgrown
        have hrest := @ih p' s₂ hcount (by omega)
        rw [hdata] at hrest
        exact hrest.cons hbelow (by simp) hstores
      | done msg s₂ =>
        rw [hresult] at hgrown
        obtain ⟨hdata, hbelow⟩ := hgrown
        refine Limited.cons hbelow (by simp) hstores ⟨?_, by simp [afterData], by simp [afterData]⟩
        intro msg' s' hmsg
        obtain ⟨rfl, -⟩ : msg = msg' ∧ s₂ = s' := by simpa [afterData] using hmsg
        exact ⟨hdata, hdata ▸ hbelow⟩
      | wild =>
        rw [hresult] at hgrown
        exact hgrown.elim

end Run

/-- For any stream and either role: no limit up to the largest `int` is passed. -/
theorem WSRecvMessage_limited {maxSize : UInt32} (hmax : maxSize.toNat ≤ 2 ^ 31 - 1)
    (client : Bool) (rounds : Nat) (s : Stream) :
    Limited maxSize 0 (metFrames maxSize client rounds {} s)
      (WSRecvMessage maxSize rounds s client) :=
  @recvLoop_limited maxSize client rounds {} s hmax rfl (by decide)

/-- One byte, and a frame whose length makes the sum zero. -/
theorem WSRecvMessage_limited_round :
    let s : Stream := { steady 3 with
      input := [1, 1, 65, 128, 127, 255, 255, 255, 255, 255, 255, 255, 255] }
    (metFrames 1000 true 5 {} s).map Met.length = [1, 2 ^ 64 - 1] ∧
      Limited 1000 0 (metFrames 1000 true 5 {} s) (WSRecvMessage 1000 5 s true) :=
  ⟨by decide, WSRecvMessage_limited (by decide) true 5 _⟩

end CxkFramework.WebSocket
