import CxkFramework.WebSocket
import CxkFramework.Runs

/-!
# Framing round trip

What a sequence of `WSSendMessage` calls puts on the wire, and when `WSRecvMessage` gives it
back. Frames of no bytes fail on both sides, since `writeFixSize` and `readFixSize` return
the length and a result of zero counts as failure; frames and messages near `2 ^ 31` bytes
fail because lengths are returned and summed up as `int`.
-/

namespace CxkFramework.WebSocket

open Words Blocks

/-! ## Pieces of a frame -/

theorem length_beBytes (n v : Nat) : (beBytes n v).length = n := length_leBytes _ _

theorem beValue_beBytes {n v : Nat} (h : v < 256 ^ n) : beValue (beBytes n v) = v := by
  rw [beValue, length_beBytes, beBytes, leValue_leBytes, Nat.mod_eq_of_lt (byteswap_lt n v),
    byteswap_byteswap, Nat.mod_eq_of_lt h]

theorem length_headBytes (h : WSFrameHead) : h.bytes.length = 2 := rfl

/-- The head the sender builds comes back as it was. -/
theorem ofBytes_bytes {h : WSFrameHead} (ho : h.opcode < 16) (hp : h.payload < 128)
    (h1 : h.rsv1 = false) (h2 : h.rsv2 = false) (h3 : h.rsv3 = false) :
    WSFrameHead.ofBytes h.bytes = h := by
  obtain ⟨opcode, rsv3, rsv2, rsv1, fin, payload, mask⟩ := h
  dsimp only at ho hp h1 h2 h3
  subst h1 h2 h3
  have hbit : ∀ f : Bool, (f.toNat = 0 ∧ f = false) ∨ (f.toNat = 1 ∧ f = true) := by decide
  have ha : (UInt8.ofNat (opcode % 16 + 128 * fin.toNat)).toNat = opcode + 128 * fin.toNat := by
    rw [UInt8.toNat_ofNat']
    have := hbit fin
    omega
  have hb : (UInt8.ofNat (payload % 128 + 128 * mask.toNat)).toNat =
      payload + 128 * mask.toNat := by
    rw [UInt8.toNat_ofNat']
    have := hbit mask
    omega
  simp only [WSFrameHead.bytes, WSFrameHead.ofBytes, Bool.toNat_false, Nat.mul_zero, Nat.add_zero,
    ha, hb, WSFrameHead.mk.injEq]
  rcases hbit fin with ⟨hf, rfl⟩ | ⟨hf, rfl⟩ <;> rcases hbit mask with ⟨hm, rfl⟩ | ⟨hm, rfl⟩ <;>
    simp <;> omega

theorem length_applyMask (mask data : List UInt8) : (applyMask mask data).length = data.length :=
  List.length_mapIdx

theorem applyMask_applyMask (mask data : List UInt8) :
    applyMask mask (applyMask mask data) = data := by
  apply List.ext_getElem
  · rw [length_applyMask, length_applyMask]
  · intro i h₁ h₂
    simp [applyMask, UInt8.xor_assoc]

theorem payloadField_lt (size : Nat) : payloadField size < 128 := by
  rw [payloadField]
  split
  · omega
  · split <;> omega

theorem payloadField_medium {size : Nat} (h0 : 126 ≤ size) (h1 : size < 65536) :
    payloadField size = 126 := by
  rw [payloadField, if_neg (by omega), if_pos h1]

theorem payloadField_large {size : Nat} (h : 65536 ≤ size) : payloadField size = 127 := by
  rw [payloadField, if_neg (by omega), if_neg (by omega)]

theorem payloadField_small {size : Nat} (h : size < 126) : payloadField size = size := by
  rw [payloadField, if_pos h]

theorem length_extendedLength {size : Nat} {len : List UInt8} (h : extendedLength size = some len) :
    0 < len.length ∧ len.length ≤ 8 := by
  rw [extendedLength] at h
  split at h
  · cases h
    rw [length_beBytes]
    omega
  · split at h
    · cases h
      rw [length_beBytes]
      omega
    · cases h

/-- The head of a data frame. -/
def frameHead (client fin : Bool) (opcode size : Nat) : WSFrameHead :=
  { fin := fin, opcode := opcode, mask := client, payload := payloadField size }

/-- Mask bytes and payload as they are on the wire. -/
def frameBody (client : Bool) (mask data : List UInt8) : List UInt8 :=
  if client then mask ++ applyMask mask data else data

/-- One data frame on the wire. -/
def frame (client fin : Bool) (opcode : Nat) (mask data : List UInt8) : List UInt8 :=
  (frameHead client fin opcode data.length).bytes ++
    ((extendedLength data.length).getD [] ++ frameBody client mask data)

/-! ## Sending -/

section Send

variable {s : Stream} {rounds : Nat}

/-- One write of the chain: the bytes go out, and it fails when they are none or too many for an
`int`. -/
theorem attempt_reliable {α : Type} (hs : Stream.Reliable s) {buffer : List UInt8}
    (hsize : buffer.length < 2 ^ 64) (hr : buffer.length < rounds) (onFail : Stream → α)
    (next : Stream → Option α) :
    ∃ s', Stream.Sent s buffer s' ∧ attempt s rounds buffer onFail next =
      if toInt buffer.length ≤ 0 then some (onFail s') else next s' := by
  obtain ⟨s', hok, hsent⟩ := Stream.writeFixSize_reliable hs hsize hr
  exact ⟨s', hsent, by rw [attempt, hok, Option.bind_eq_bind, Option.bind_some]⟩

theorem attempt_ok {α : Type} (hs : Stream.Reliable s) {buffer : List UInt8} (h0 : 0 < buffer.length)
    (h1 : buffer.length < 2 ^ 31) (hr : buffer.length < rounds) (onFail : Stream → α)
    (next : Stream → Option α) :
    ∃ s', attempt s rounds buffer onFail next = next s' ∧ Stream.Sent s buffer s' := by
  obtain ⟨s', hsent, hok⟩ := attempt_reliable hs (by omega) hr onFail next
  have hint : toInt (buffer.length : Int) = buffer.length :=
    Stream.toInt_of_lt (by omega) (by omega)
  rw [hint, if_neg (by omega)] at hok
  exact ⟨s', hok, hsent⟩

/-- The head and the extended length always go out. -/
theorem send_prefix {α : Type} (hs : Stream.Reliable s) (hr : 8 < rounds) (client fin : Bool)
    (opcode size : Nat) (onFail : Stream → α) (next : Stream → Option α) :
    ∃ s', attempt s rounds (frameHead client fin opcode size).bytes onFail (fun s =>
        match extendedLength size with
        | some len => attempt s rounds len onFail next
        | none => next s) = next s' ∧
      Stream.Sent s ((frameHead client fin opcode size).bytes ++ (extendedLength size).getD []) s' := by
  have hhead := length_headBytes (frameHead client fin opcode size)
  obtain ⟨s₁, hok₁, hsent₁⟩ := attempt_ok hs (show 0 < (frameHead client fin opcode size).bytes.length
    by omega) (by omega) (show _ < rounds by omega) onFail (fun s =>
      match extendedLength size with
      | some len => attempt s rounds len onFail next
      | none => next s)
  rw [hok₁]
  cases hext : extendedLength size with
  | none => exact ⟨s₁, rfl, by simpa using hsent₁⟩
  | some len =>
    obtain ⟨hpos, hle⟩ := length_extendedLength hext
    obtain ⟨s₂, hok₂, hsent₂⟩ := attempt_ok (hsent₁.reliable hs) hpos (by omega)
      (show len.length < rounds by omega) onFail next
    exact ⟨s₂, hok₂, hsent₁.trans hsent₂⟩

theorem length_mask (rand : UInt32) : (leBytes 4 rand.toNat).length = 4 := length_leBytes _ _

/-- What a call that comes to the payload makes of the message. -/
def masked (msg : WSFrameMessage) (client : Bool) (rand : UInt32) : WSFrameMessage :=
  if client then { msg with data := applyMask (leBytes 4 rand.toNat) msg.data } else msg

theorem sendBody_reliable (hs : Stream.Reliable s) {msg : WSFrameMessage} (client : Bool)
    (rand : UInt32) (hsize : msg.data.length < 2 ^ 64) (hr : msg.data.length + 8 < rounds) :
    ∃ s', Stream.Sent s (frameBody client (leBytes 4 rand.toNat) msg.data) s' ∧
      sendBody rounds msg client rand s =
        if toInt msg.data.length ≤ 0 then some (-1, masked msg client rand, s'.close)
        else some (toInt (msg.data.length + 2), masked msg client rand, s') := by
  have hmask := length_mask rand
  have hdata := length_applyMask (leBytes 4 rand.toNat) msg.data
  cases client with
  | true =>
    simp only [sendBody, frameBody, masked, if_true]
    obtain ⟨s₁, hok₁, hsent₁⟩ := attempt_ok hs (show 0 < (leBytes 4 rand.toNat).length by omega)
      (by omega) (show _ < rounds by omega)
      (sendFailed { msg with data := applyMask (leBytes 4 rand.toNat) msg.data }) _
    obtain ⟨s₂, hsent₂, hok₂⟩ := attempt_reliable (hsent₁.reliable hs)
      (show (applyMask (leBytes 4 rand.toNat) msg.data).length < 2 ^ 64 by omega)
      (show _ < rounds by omega) _ _
    rw [hdata] at hok₂
    exact ⟨s₂, hsent₁.trans hsent₂, hok₁.trans hok₂⟩
  | false =>
    simp only [sendBody, frameBody, masked, Bool.false_eq_true, if_false]
    exact attempt_reliable hs hsize (show _ < rounds by omega) (sendFailed msg) _

/-- The whole frame goes out, whatever the result is. -/
theorem WSSendMessage_reliable (hs : Stream.Reliable s) (msg : WSFrameMessage) (client fin : Bool)
    (rand : UInt32) (hsize : msg.data.length < 2 ^ 64) (hr : msg.data.length + 8 < rounds) :
    ∃ s', Stream.Sent s (frame client fin msg.opcode (leBytes 4 rand.toNat) msg.data) s' ∧
      WSSendMessage rounds s msg client fin rand =
        if toInt msg.data.length ≤ 0 then some (-1, masked msg client rand, s'.close)
        else some (toInt (msg.data.length + 2), masked msg client rand, s') := by
  obtain ⟨s₁, hok₁, hsent₁⟩ := send_prefix hs (show 8 < rounds by omega) client fin msg.opcode
    msg.data.length (sendFailed msg) (sendBody rounds msg client rand)
  obtain ⟨s₂, hsent₂, hok₂⟩ := sendBody_reliable (hsent₁.reliable hs) client rand hsize hr
  have hall := hsent₁.trans hsent₂
  rw [List.append_assoc] at hall
  exact ⟨s₂, hall, hok₁.trans hok₂⟩

theorem WSSendMessage_ok (hs : Stream.Reliable s) (msg : WSFrameMessage) (client fin : Bool)
    (rand : UInt32) (h0 : 0 < msg.data.length) (h1 : msg.data.length < 2 ^ 31)
    (hr : msg.data.length + 8 < rounds) :
    ∃ msg' s', WSSendMessage rounds s msg client fin rand =
        some (toInt (msg.data.length + 2), msg', s') ∧
      Stream.Sent s (frame client fin msg.opcode (leBytes 4 rand.toNat) msg.data) s' := by
  obtain ⟨s', hsent, hok⟩ := WSSendMessage_reliable hs msg client fin rand (by omega) hr
  have hint : toInt (msg.data.length : Int) = msg.data.length :=
    Stream.toInt_of_lt (by omega) (by omega)
  rw [hint, if_neg (by omega)] at hok
  exact ⟨_, s', hok, hsent⟩

/-- Nothing to write, or more than an `int` can count, is taken for a failure. -/
theorem WSSendMessage_fail (hs : Stream.Reliable s) (msg : WSFrameMessage) (client fin : Bool)
    (rand : UInt32) (h : msg.data.length = 0 ∨ 2 ^ 31 ≤ msg.data.length)
    (h1 : msg.data.length < 2 ^ 32) (hr : msg.data.length + 8 < rounds) :
    ∃ msg' s', WSSendMessage rounds s msg client fin rand = some (-1, msg', s') := by
  obtain ⟨s', -, hok⟩ := WSSendMessage_reliable hs msg client fin rand (by omega) hr
  rw [if_pos (Stream.toInt_nonpos h h1)] at hok
  exact ⟨_, _, hok⟩

end Send

/-! ## Receiving -/

section Receive

variable {s : Stream}

/-- A `readFixSize` of bytes that are there and can be counted. -/
theorem readFixSize_pos (hs : Stream.Reliable s) {bytes rest : List UInt8}
    (hin : s.input = bytes ++ rest) (h0 : 0 < bytes.length) (h1 : bytes.length < 2 ^ 31) :
    ∃ s', s.readFixSize bytes.length = ((bytes.length : Int), bytes, s') ∧
      Stream.Received s bytes s' := by
  have hb : bytes.length < 2 ^ 63 := by omega
  obtain ⟨s', hok, hrec⟩ := Stream.readFixSize_reliable hs hb hin
  have hint : toInt (bytes.length : Int) = bytes.length :=
    Stream.toInt_of_lt (by omega) (by omega)
  exact ⟨s', by rw [hok, hint], hrec⟩

theorem readLength_ok (hs : Stream.Reliable s) {head : WSFrameHead} {size : Nat}
    {rest : List UInt8} (hp : head.payload = payloadField size) (h1 : size < 2 ^ 64)
    (hin : s.input = (extendedLength size).getD [] ++ rest) :
    ∃ s', readLength s head = (some size, s') ∧
      Stream.Received s ((extendedLength size).getD []) s' := by
  have hread : ∀ n, 0 < n → n ≤ 8 → size < 256 ^ n → s.input = beBytes n size ++ rest →
      ∃ s', s.readFixSize n = ((n : Int), beBytes n size, s') ∧
        Stream.Received s (beBytes n size) s' := by
    intro n h0 h8 _ hin
    have hlen := length_beBytes n size
    obtain ⟨s', hok, hrec⟩ := readFixSize_pos hs hin (by omega) (by omega)
    rw [hlen] at hok
    exact ⟨s', hok, hrec⟩
  rcases Nat.lt_or_ge size 126 with hsmall | hlarge
  · have hfield := payloadField_small hsmall
    have hext : extendedLength size = none := by
      rw [extendedLength, hfield, if_neg (by omega), if_neg (by omega)]
    rw [hext]
    refine ⟨s, ?_, Stream.Received.refl s⟩
    rw [readLength, hp, hfield, if_neg (by omega), if_neg (by omega)]
  · rcases Nat.lt_or_ge size 65536 with hmedium | hhuge
    · have hfield := payloadField_medium hlarge hmedium
      have hext : extendedLength size = some (beBytes 2 size) := by
        rw [extendedLength, hfield, if_pos rfl]
      rw [hext, Option.getD_some] at hin ⊢
      obtain ⟨s', hok, hrec⟩ := hread 2 (by omega) (by omega) (by omega) hin
      refine ⟨s', ?_, hrec⟩
      rw [readLength, hp, hfield, if_pos rfl, hok]
      simp only [beValue_beBytes (show size < 256 ^ 2 by omega)]
      rfl
    · have hfield := payloadField_large hhuge
      have hext : extendedLength size = some (beBytes 8 size) := by
        rw [extendedLength, hfield, if_neg (by omega), if_pos rfl]
      rw [hext, Option.getD_some] at hin ⊢
      obtain ⟨s', hok, hrec⟩ := hread 8 (by omega) (by omega) (by omega) hin
      refine ⟨s', ?_, hrec⟩
      rw [readLength, hp, hfield, if_neg (by omega), if_pos rfl, hok]
      simp only [beValue_beBytes (show size < 256 ^ 8 by omega)]
      rfl

/-- Appending the payload to what was received so far. -/
theorem overwrite_resize {data bytes : List UInt8} :
    overwrite (resize data (data.length + bytes.length)) data.length bytes = data ++ bytes := by
  have htake : (resize data (data.length + bytes.length)).take data.length = data := by
    rw [resize, List.take_of_length_le (Nat.le_add_right _ _), List.take_left]
  have hdrop : (resize data (data.length + bytes.length)).drop (data.length + bytes.length) = [] := by
    apply List.drop_of_length_le
    simp only [resize, List.length_append, List.length_take, List.length_replicate]
    omega
  rw [overwrite, htake, hdrop, List.append_nil]

/-- The receiver holds `c` bytes; its `cur_len` is that number as an `int`. -/
structure Holds (p : Partial) (c : Nat) : Prop where
  data_length : p.data.length = c
  curLen_eq : p.curLen = toInt c

/-- The opcode kept after a frame. -/
def keptOpcode (p : Partial) (opcode : Nat) : Nat :=
  if p.opcode = 0 ∧ opcode ≠ CONTINUE then opcode else p.opcode

/-- What the data branch makes of a frame of which everything can be counted. -/
def accepted (p : Partial) (fin : Bool) (opcode : Nat) (data : List UInt8) (s : Stream) :
    FrameResult :=
  if fin then .done ⟨keptOpcode p opcode, p.data ++ data⟩ s
  else .more ⟨keptOpcode p opcode, p.data ++ data, toInt (p.data.length + data.length)⟩ s

theorem readMask_ok (hs : Stream.Reliable s) {masked : Bool} {head : WSFrameHead}
    (hm : head.mask = masked) {mask data rest : List UInt8} (hmask : mask.length = 4)
    (hin : s.input = frameBody masked mask data ++ rest) : ∃ s',
      readMask s head = (some (if masked then mask else [0, 0, 0, 0]), s') ∧
      Stream.Received s (if masked then mask else []) s' ∧
      s'.input = (if masked then applyMask mask data else data) ++ rest := by
  rw [readMask, hm]
  cases masked with
  | true =>
    simp only [frameBody, if_true, List.append_assoc] at hin ⊢
    obtain ⟨s', hok, hrec⟩ := readFixSize_pos hs hin (by omega) (by omega)
    rw [hmask] at hok
    refine ⟨s', by simp [hok], hrec, ?_⟩
    exact List.append_cancel_left (hrec.input_eq.symm.trans hin)
  | false =>
    simp only [frameBody, Bool.false_eq_true, if_false] at hin ⊢
    exact ⟨s, rfl, Stream.Received.refl s, hin⟩

section Data

variable {maxSize : UInt32} {masked fin : Bool} {opcode c : Nat} {mask data rest : List UInt8}
  {p : Partial}

/-- The data branch comes to the payload when the sum of the lengths is below the limit. -/
theorem recvData_eq (hs : Stream.Reliable s) (hmask : mask.length = 4) (h1 : data.length < 2 ^ 64)
    (hin : s.input = (extendedLength data.length).getD [] ++ (frameBody masked mask data ++ rest)) :
    ∃ s₁ s₂, Stream.Received s ((extendedLength data.length).getD [] ++
        (if masked then mask else [])) s₂ ∧
      s₂.input = (if masked then applyMask mask data else data) ++ rest ∧
      recvData maxSize (!masked) p (frameHead masked fin opcode data.length) s =
        if (p.curLen + data.length) % 2 ^ 64 ≥ maxSize.toNat then .failed s₁
        else recvPayload p (frameHead masked fin opcode data.length) data.length
          (if masked then mask else [0, 0, 0, 0]) s₂ := by
  have hfield : (frameHead masked fin opcode data.length).payload = payloadField data.length := rfl
  have hbit : (frameHead masked fin opcode data.length).mask = masked := rfl
  obtain ⟨s₁, hlen, hrec₁⟩ := readLength_ok hs hfield h1 hin
  have hin₁ : s₁.input = frameBody masked mask data ++ rest :=
    List.append_cancel_left (hrec₁.input_eq.symm.trans hin)
  obtain ⟨s₂, hok, hrec₂, hin₂⟩ := readMask_ok (hrec₁.reliable hs) hbit hmask hin₁
  refine ⟨s₁, s₂, hrec₁.trans hrec₂, hin₂, ?_⟩
  rw [recvData, if_neg (by cases masked <;> simp [frameHead]), hlen]
  simp only [hok]

theorem recvPayload_ok (hs : Stream.Reliable s) (hp : Holds p c) (h0 : 0 < data.length)
    (h1 : data.length < 2 ^ 31) (hc : c < 2 ^ 31)
    (hidx : masked = true → c + data.length ≤ 2 ^ 31)
    (hin : s.input = (if masked then applyMask mask data else data) ++ rest) : ∃ s',
      recvPayload p (frameHead masked fin opcode data.length) data.length
        (if masked then mask else [0, 0, 0, 0]) s = accepted p fin opcode data s' ∧
      Stream.Received s (if masked then applyMask mask data else data) s' := by
  have hcur : p.curLen = c := hp.curLen_eq.trans (Stream.toInt_of_lt (by omega) (by omega))
  have hdata := hp.data_length
  have hlen : (if masked then applyMask mask data else data).length = data.length := by
    cases masked with
    | true => exact length_applyMask mask data
    | false => rfl
  obtain ⟨s', hok, hrec⟩ := readFixSize_pos hs hin (by omega) (by omega)
  rw [hlen] at hok
  have hint : toInt (data.length : Int) = data.length :=
    Stream.toInt_of_lt (by omega) (by omega)
  refine ⟨s', ?_, hrec⟩
  have hwild : ¬((frameHead masked fin opcode data.length).mask = true ∧
      p.curLen + toInt data.length > 2 ^ 31) := by
    rintro ⟨hm, hgt⟩
    have := hidx hm
    rw [hint, hcur] at hgt
    omega
  have hsum : ((p.curLen + data.length) % 2 ^ 64).toNat = p.data.length + data.length := by
    rw [hcur, hdata]
    omega
  have hindex : p.curLen.toNat = p.data.length := by
    rw [hcur, hdata]
    rfl
  have hbytes : (if (frameHead masked fin opcode data.length).mask then
      applyMask (if masked then mask else [0, 0, 0, 0])
        (if masked then applyMask mask data else data)
      else (if masked then applyMask mask data else data)) = data := by
    cases masked with
    | true => exact applyMask_applyMask mask data
    | false => rfl
  rw [recvPayload, if_neg (by omega), hok]
  simp only [hwild, if_false, hbytes, hsum, hindex, overwrite_resize]
  rw [if_neg (by omega), hcur, ← hdata]
  rfl

/-- The index of the masking loop overflows. -/
theorem recvPayload_wild (hs : Stream.Reliable s) (hp : Holds p c) (h0 : 0 < data.length)
    (h1 : data.length < 2 ^ 31) (hc : c < 2 ^ 31) (hidx : 2 ^ 31 < c + data.length)
    (hin : s.input = applyMask mask data ++ rest) :
    recvPayload p (frameHead true fin opcode data.length) data.length mask s = .wild := by
  have hcur : p.curLen = c := hp.curLen_eq.trans (Stream.toInt_of_lt (by omega) (by omega))
  have hlen := length_applyMask mask data
  obtain ⟨s', hok, -⟩ := readFixSize_pos hs hin (by omega) (by omega)
  rw [hlen] at hok
  have hint : toInt (data.length : Int) = data.length :=
    Stream.toInt_of_lt (by omega) (by omega)
  rw [recvPayload, if_neg (by omega), hok]
  simp only
  rw [if_neg (by omega), hint, if_pos ⟨rfl, by omega⟩]

/-- With `2 ^ 31` bytes or more received, `cur_len` is negative and no length is accepted. -/
theorem sum_too_large (hp : Holds p c) (hc : 2 ^ 31 ≤ c) (hmax : c + data.length < maxSize.toNat) :
    (p.curLen + data.length) % 2 ^ 64 ≥ maxSize.toNat := by
  have hlt := maxSize.toNat_lt
  have hcur : p.curLen = c - 2 ^ 32 := hp.curLen_eq.trans (Stream.toInt_of_ge (by omega) (by omega))
  omega

theorem sum_small (hp : Holds p c) (hc : c < 2 ^ 31) (hmax : c + data.length < maxSize.toNat) :
    ¬(p.curLen + data.length) % 2 ^ 64 ≥ maxSize.toNat := by
  have hlt := maxSize.toNat_lt
  have hcur : p.curLen = c := hp.curLen_eq.trans (Stream.toInt_of_lt (by omega) (by omega))
  omega

end Data

end Receive

/-! ## Fragments -/

/-- Send fragments, each with its mask: the first frame has the opcode, the last one `fin`. -/
def sendFragments (rounds : Nat) (client : Bool) :
    Stream → Nat → List (List UInt8 × UInt32) → Option (List Int × Stream)
  | s, _, [] => some ([], s)
  | s, opcode, (data, rand) :: rest => do
    let (rt, _, s) ← WSSendMessage rounds s ⟨opcode, data⟩ client rest.isEmpty rand
    let (rts, s) ← sendFragments rounds client s CONTINUE rest
    some (rt :: rts, s)

/-- The frames of fragments on the wire. -/
def wire (client : Bool) : Nat → List (List UInt8 × UInt32) → List UInt8
  | _, [] => []
  | opcode, (data, rand) :: rest =>
    frame client rest.isEmpty opcode (leBytes 4 rand.toNat) data ++ wire client CONTINUE rest

/-- The message that was cut into fragments. -/
def payload (frags : List (List UInt8 × UInt32)) : List UInt8 := (frags.map Prod.fst).flatten

@[simp] theorem payload_nil : payload [] = [] := rfl

@[simp] theorem payload_cons (f : List UInt8 × UInt32) (frags : List (List UInt8 × UInt32)) :
    payload (f :: frags) = f.1 ++ payload frags := by simp [payload]

/-- A fragment whose send returns a positive number. -/
def Countable (data : List UInt8) : Prop := 0 < data.length ∧ data.length ≤ 2 ^ 31 - 3
  deriving Decidable

section Fragments

variable {s : Stream} {rounds : Nat} {client : Bool}

theorem sendFragments_ok (hs : Stream.Reliable s) {opcode : Nat}
    {frags : List (List UInt8 × UInt32)} (hc : ∀ f ∈ frags, Countable f.1)
    (hr : (payload frags).length + 8 < rounds) :
    ∃ rts s', sendFragments rounds client s opcode frags = some (rts, s') ∧ (∀ rt ∈ rts, 0 < rt) ∧
      Stream.Sent s (wire client opcode frags) s' := by
  induction frags generalizing s opcode with
  | nil => exact ⟨[], s, rfl, by simp, Stream.Sent.refl s⟩
  | cons f rest ih =>
    obtain ⟨data, rand⟩ := f
    rw [payload_cons, List.length_append] at hr
    obtain ⟨h0, h1⟩ := hc (data, rand) List.mem_cons_self
    dsimp only at h0 h1 hr
    have hlt : data.length < 2 ^ 31 := by omega
    have hrounds : data.length + 8 < rounds := by omega
    obtain ⟨msg', s₁, hok, hsent⟩ := WSSendMessage_ok hs ⟨opcode, data⟩ client rest.isEmpty rand h0
      hlt hrounds
    obtain ⟨rts, s', hok', hpos, hsent'⟩ := @ih _ (hsent.reliable hs) CONTINUE
      (fun f hf => hc f (List.mem_cons_of_mem _ hf)) (by omega)
    have hrt : toInt ((data.length : Int) + 2) = data.length + 2 :=
      Stream.toInt_of_lt (by omega) (by omega)
    refine ⟨toInt ((data.length : Int) + 2) :: rts, s', ?_, ?_, hsent.trans hsent'⟩
    · rw [sendFragments, hok]
      simp only [Option.bind_eq_bind, Option.bind_some, hok']
    · rw [hrt]
      exact List.forall_mem_cons.mpr ⟨by omega, hpos⟩

/-- A fragment that is empty or too long does not get a positive result. -/
theorem countable_of_sendFragments (hs : Stream.Reliable s) {opcode : Nat} {s' : Stream}
    {frags : List (List UInt8 × UInt32)} {rts : List Int} (hlen : (payload frags).length < 2 ^ 32)
    (hr : (payload frags).length + 8 < rounds)
    (hok : sendFragments rounds client s opcode frags = some (rts, s')) (hpos : ∀ rt ∈ rts, 0 < rt) :
    ∀ f ∈ frags, Countable f.1 := by
  induction frags generalizing s opcode rts with
  | nil => simp
  | cons f rest ih =>
    obtain ⟨data, rand⟩ := f
    rw [payload_cons, List.length_append] at hr hlen
    dsimp only at hr hlen
    rw [sendFragments] at hok
    obtain ⟨⟨rt, msg', s₁⟩, hsend, hok⟩ := Option.bind_eq_some_iff.mp hok
    obtain ⟨⟨rts', s₂⟩, hsends, hok⟩ := Option.bind_eq_some_iff.mp hok
    simp only [Option.some.injEq, Prod.mk.injEq] at hok
    obtain ⟨rfl, rfl⟩ := hok
    have hrt := hpos rt List.mem_cons_self
    have hrounds : data.length + 8 < rounds := by omega
    have hshort : data.length < 2 ^ 32 := by omega
    have hgood : ¬(data.length = 0 ∨ 2 ^ 31 ≤ data.length) := by
      intro hbad
      obtain ⟨msg'', s₃, hfail⟩ := WSSendMessage_fail hs ⟨opcode, data⟩ client rest.isEmpty rand
        hbad hshort hrounds
      rw [hfail] at hsend
      simp only [Option.some.injEq, Prod.mk.injEq] at hsend
      omega
    have h0 : 0 < data.length := by omega
    have hlt : data.length < 2 ^ 31 := by omega
    obtain ⟨msg'', s₃, hsent_ok, hsent⟩ := WSSendMessage_ok hs ⟨opcode, data⟩ client rest.isEmpty
      rand h0 hlt hrounds
    rw [hsent_ok] at hsend
    simp only [Option.some.injEq, Prod.mk.injEq] at hsend
    obtain ⟨hresult, -, rfl⟩ := hsend
    have h1 : data.length ≤ 2 ^ 31 - 3 := by
      by_contra hlong
      have hneg : toInt ((data.length : Int) + 2) = data.length + 2 - 2 ^ 32 :=
        Stream.toInt_of_ge (by omega) (by omega)
      omega
    have hrest := ih (hsent.reliable hs) (by omega) (by omega) hsends
      (fun rt hmem => hpos rt (List.mem_cons_of_mem _ hmem))
    intro g hg
    rcases List.mem_cons.mp hg with rfl | hg
    · exact ⟨h0, h1⟩
    · exact hrest g hg

/-- One round of the receive loop on a data frame. -/
theorem recvLoop_frame (hs : Stream.Reliable s) {maxSize : UInt32} {flag fin : Bool} {opcode : Nat}
    {mask data rest : List UInt8} (p : Partial) (ho : opcode ≤ 2)
    (hin : s.input = frame client fin opcode mask data ++ rest) :
    ∃ s₁, Stream.Reliable s₁ ∧
      s₁.input = (extendedLength data.length).getD [] ++ (frameBody client mask data ++ rest) ∧
      recvLoop maxSize flag (rounds + 1) p s =
        match recvData maxSize flag p (frameHead client fin opcode data.length) s₁ with
        | .failed s => some (none, s.close)
        | .more p s => recvLoop maxSize flag rounds p s
        | .done msg s => some (some msg, s)
        | .wild => none := by
  rw [frame, List.append_assoc] at hin
  have hhead := length_headBytes (frameHead client fin opcode data.length)
  obtain ⟨s₁, hok, hrec⟩ := readFixSize_pos hs hin (by omega) (by omega)
  rw [hhead] at hok
  have hdecode : WSFrameHead.ofBytes (frameHead client fin opcode data.length).bytes =
      frameHead client fin opcode data.length :=
    ofBytes_bytes (show opcode < 16 by omega) (payloadField_lt _) rfl rfl rfl
  have hop : (frameHead client fin opcode data.length).opcode = opcode := rfl
  refine ⟨s₁, hrec.reliable hs, ?_, ?_⟩
  · have := List.append_cancel_left (hrec.input_eq.symm.trans hin)
    rwa [List.append_assoc] at this
  · rw [recvLoop, hok]
    simp only [hdecode, hop]
    rw [if_neg (by decide), if_neg (by rw [PING]; omega), if_neg (by rw [PONG]; omega)]
    exact if_pos (by rw [CONTINUE, TEXT_FRAME, BIN_FRAME]; omega)

/-- The fragments the receiver can put together when it holds `c` bytes: `cur_len` stays an
`int` up to the last one, and so does the index of the masking loop. -/
def Receivable (client : Bool) (c : Nat) (frags : List (List UInt8 × UInt32)) : Prop :=
  c + (payload frags.dropLast).length < 2 ^ 31 ∧
    (client = true → c + (payload frags).length ≤ 2 ^ 31)

theorem receivable_cons {c : Nat} {f : List UInt8 × UInt32} {frags : List (List UInt8 × UInt32)}
    (h : frags ≠ []) :
    Receivable client c (f :: frags) ↔ Receivable client (c + f.1.length) frags := by
  rw [Receivable, Receivable, List.dropLast_cons_of_ne_nil h, payload_cons, payload_cons,
    List.length_append, List.length_append, Nat.add_assoc, Nat.add_assoc]

/-- The data branch on one frame: accepted, refused because `cur_len` is negative, or out of
the string. -/
theorem recvData_frame (hs : Stream.Reliable s) {maxSize : UInt32} {fin : Bool} {opcode c : Nat}
    {mask data rest : List UInt8} {p : Partial} (hp : Holds p c) (hmask : mask.length = 4)
    (hd : Countable data) (hmax : c + data.length < maxSize.toNat)
    (hin : s.input = (extendedLength data.length).getD [] ++ (frameBody client mask data ++ rest)) :
    (∃ s', recvData maxSize (!client) p (frameHead client fin opcode data.length) s =
        accepted p fin opcode data s' ∧ Stream.Reliable s' ∧ s'.input = rest ∧
        c < 2 ^ 31 ∧ (client = true → c + data.length ≤ 2 ^ 31)) ∨
    ((∃ s', recvData maxSize (!client) p (frameHead client fin opcode data.length) s =
        .failed s') ∧ 2 ^ 31 ≤ c) ∨
    (recvData maxSize (!client) p (frameHead client fin opcode data.length) s = .wild ∧
      client = true ∧ 2 ^ 31 < c + data.length) := by
  obtain ⟨h0, h1⟩ := hd
  have hlt : data.length < 2 ^ 31 := by omega
  obtain ⟨s₁, s₂, hrec, hin₂, hdata⟩ := @recvData_eq s maxSize client fin opcode mask data rest p hs
    hmask (by omega) hin
  have hs₂ := hrec.reliable hs
  rw [hdata]
  by_cases hc : c < 2 ^ 31
  · rw [if_neg (sum_small hp hc hmax)]
    by_cases hidx : client = true → c + data.length ≤ 2 ^ 31
    · obtain ⟨s', hok, hrec'⟩ := @recvPayload_ok s₂ client fin opcode c mask data rest p hs₂ hp h0
        hlt hc hidx hin₂
      have hrest : s'.input = rest := List.append_cancel_left (hrec'.input_eq.symm.trans hin₂)
      exact .inl ⟨s', hok, hrec'.reliable hs₂, hrest, hc, hidx⟩
    · obtain ⟨rfl, hgt⟩ := Classical.not_imp.mp hidx
      have hwild := @recvPayload_wild s₂ fin opcode c mask data rest p hs₂ hp h0 hlt hc (by omega) hin₂
      exact .inr (.inr ⟨hwild, rfl, by omega⟩)
  · rw [if_pos (sum_too_large hp (by omega) hmax)]
    exact .inr (.inl ⟨⟨s₁, rfl⟩, by omega⟩)

/-- What the receiver holds after a frame that was not the last. -/
def extended (p : Partial) (opcode : Nat) (data : List UInt8) : Partial :=
  ⟨keptOpcode p opcode, p.data ++ data, toInt (p.data.length + data.length)⟩

theorem holds_extended {p : Partial} {c : Nat} (hp : Holds p c) (opcode : Nat) (data : List UInt8) :
    Holds (extended p opcode data) (c + data.length) where
  data_length := by simp [extended, hp.data_length]
  curLen_eq := by simp [extended, hp.data_length]

/-- The receiver on the frames of fragments: it puts them together exactly when they are
receivable. -/
theorem recvFragments (hs : Stream.Reliable s) {maxSize : UInt32} {opcode op c : Nat}
    {frags : List (List UInt8 × UInt32)} {rest : List UInt8} {p : Partial} (hne : frags ≠ [])
    (hp : Holds p c) (ho : opcode ≤ 2) (hop : keptOpcode p opcode = op)
    (hd : ∀ f ∈ frags, Countable f.1) (hmax : c + (payload frags).length < maxSize.toNat)
    (hrounds : frags.length ≤ rounds) (hin : s.input = wire client opcode frags ++ rest) :
    (Receivable client c frags ∧ ∃ s', recvLoop maxSize (!client) rounds p s =
        some (some ⟨op, p.data ++ payload frags⟩, s') ∧ s'.input = rest) ∨
    (¬Receivable client c frags ∧
      ∀ msg s', recvLoop maxSize (!client) rounds p s ≠ some (some msg, s')) := by
  induction frags generalizing s opcode c p rounds with
  | nil => exact absurd rfl hne
  | cons f frags ih =>
    obtain ⟨data, rand⟩ := f
    obtain ⟨rounds, rfl⟩ : ∃ n, rounds = n + 1 := ⟨rounds - 1, by simp at hrounds; omega⟩
    rw [wire, List.append_assoc] at hin
    rw [payload_cons, List.length_append] at hmax
    dsimp only at hmax
    have hdata := hd (data, rand) List.mem_cons_self
    obtain ⟨s₁, hs₁, hin₁, hloop⟩ := @recvLoop_frame s rounds client hs maxSize (!client)
      frags.isEmpty opcode _ data _ p ho hin
    rw [hloop]
    have hframe := @recvData_frame s₁ client hs₁ maxSize frags.isEmpty opcode c _ data _ p hp
      (length_mask rand) hdata (by omega) hin₁
    rcases hframe with ⟨s₂, hok, hs₂, hin₂, hc, hidx⟩ | ⟨⟨s₂, hok⟩, hc⟩ | ⟨hok, hclient, hc⟩
    · rw [hok]
      cases frags with
      | nil =>
        refine .inl ⟨⟨by simpa using hc, by simpa using hidx⟩, s₂, ?_, by simpa [wire] using hin₂⟩
        simp [accepted, hop]
      | cons g frags =>
        rw [receivable_cons (List.cons_ne_nil g frags)]
        have hnext := ih hs₂ (List.cons_ne_nil g frags) (holds_extended hp opcode data)
          (show CONTINUE ≤ 2 by decide)
          (show keptOpcode (extended p opcode data) CONTINUE = op by
            simpa [keptOpcode, extended] using hop)
          (fun f hf => hd f (List.mem_cons_of_mem _ hf)) (by omega)
          (show (g :: frags).length ≤ rounds by simpa using hrounds) hin₂
        simpa [accepted, extended] using hnext
    · refine .inr ⟨?_, by simp [hok]⟩
      rintro ⟨hlt, -⟩
      omega
    · refine .inr ⟨?_, by simp [hok]⟩
      rintro ⟨-, hle⟩
      have := hle hclient
      rw [payload_cons, List.length_append] at this
      dsimp only at this
      omega

end Fragments

/-- The fragments are sent with positive results, and the other side gets the opcode and the
whole payload from the bytes that were sent, with what follows them left unread. -/
def RoundTrips (maxSize : UInt32) (s r : Stream) (client : Bool) (opcode : Nat)
    (frags : List (List UInt8 × UInt32)) (rest : List UInt8) : Prop :=
  ∃ enough, ∀ rounds ≥ enough, ∃ rts s' bytes r',
    sendFragments rounds client s opcode frags = some (rts, s') ∧ (∀ rt ∈ rts, 0 < rt) ∧
    s'.output = s.output ++ bytes ∧
    WSRecvMessage maxSize rounds { r with input := bytes ++ rest } (!client) =
      some (some ⟨opcode, payload frags⟩, r') ∧
    r'.input = rest

theorem framing_roundTrips_iff (maxSize : UInt32) (s r : Stream) (client : Bool) (opcode : Nat)
    (frags : List (List UInt8 × UInt32)) (rest : List UInt8) (hs : Stream.Reliable s)
    (hr : Stream.Reliable r) (hop : opcode = TEXT_FRAME ∨ opcode = BIN_FRAME) (hne : frags ≠ [])
    (hmax : (payload frags).length < maxSize.toNat) :
    RoundTrips maxSize s r client opcode frags rest ↔
      (∀ f ∈ frags, Countable f.1) ∧ Receivable client 0 frags := by
  have hlt := maxSize.toNat_lt
  have hcode : opcode ≤ 2 ∧ opcode ≠ CONTINUE := by
    rcases hop with rfl | rfl <;> decide
  have hkept : keptOpcode {} opcode = opcode := if_pos ⟨rfl, hcode.2⟩
  have hholds : Holds {} 0 := ⟨rfl, rfl⟩
  constructor
  · rintro ⟨enough, h⟩
    obtain ⟨rts, s', bytes, r', hsend, hpos, hbytes, hrecv, -⟩ :=
      h (enough + frags.length + (payload frags).length + 9) (by omega)
    have hc : ∀ f ∈ frags, Countable f.1 :=
      countable_of_sendFragments hs (by omega) (by omega) hsend hpos
    refine ⟨hc, ?_⟩
    obtain ⟨rts', s₁, hsend', -, hsent⟩ := @sendFragments_ok s
      (enough + frags.length + (payload frags).length + 9) client hs opcode frags hc (by omega)
    obtain ⟨rfl, rfl⟩ : rts = rts' ∧ s' = s₁ := by simpa using hsend.symm.trans hsend'
    have hwire : bytes = wire client opcode frags :=
      List.append_cancel_left (hbytes.symm.trans hsent.output_eq)
    have hdecide := @recvFragments { r with input := bytes ++ rest }
      (enough + frags.length + (payload frags).length + 9) client ⟨hr.1, hr.2, hr.3⟩ maxSize opcode
      opcode 0 frags rest {} hne hholds hcode.1 hkept hc (by omega) (by omega) (by rw [hwire])
    rcases hdecide with ⟨hok, -⟩ | ⟨-, hno⟩
    · exact hok
    · exact absurd hrecv (hno _ _)
  · rintro ⟨hc, hrecv⟩
    refine ⟨frags.length + (payload frags).length + 9, fun rounds hrounds => ?_⟩
    obtain ⟨rts, s', hsend, hpos, hsent⟩ := @sendFragments_ok s rounds client hs opcode frags hc
      (by omega)
    have hdecide := @recvFragments { r with input := wire client opcode frags ++ rest } rounds client
      ⟨hr.1, hr.2, hr.3⟩ maxSize opcode opcode 0 frags rest {} hne hholds hcode.1 hkept hc (by omega)
      (by omega) rfl
    rcases hdecide with ⟨-, r', hok, hrest⟩ | ⟨hno, -⟩
    · exact ⟨rts, s', _, r', hsend, hpos, hsent.output_eq, hok, hrest⟩
    · exact absurd hrecv hno

/-- A stream over which every call moves as many bytes as fit into `plan`. -/
def steady (plan : Int32) : Stream := ⟨[], [], fun _ => plan, fun _ => plan, 0, 0, false⟩

theorem steady_reliable {plan : Int32} (h : 0 < plan.toInt) : Stream.Reliable (steady plan) :=
  ⟨rfl, fun _ => h, fun _ => h⟩

/-- Two fragments from a client, over streams that move three bytes at a time. -/
theorem framing_roundTrips_two : RoundTrips 1000 (steady 3) (steady 3) true TEXT_FRAME
    [([104, 105], 7), ([33], 9)] [255] :=
  (framing_roundTrips_iff 1000 (steady 3) (steady 3) true TEXT_FRAME [([104, 105], 7), ([33], 9)]
    [255] (steady_reliable (by decide)) (steady_reliable (by decide)) (.inl rfl)
    (List.cons_ne_nil _ _) (by decide)).mpr ⟨by decide, by decide, fun _ => by decide⟩

/-- A server that sends an empty text message gets `-1`. -/
theorem not_framing_roundTrips_empty :
    ¬RoundTrips 1000 (steady 3) (steady 3) false TEXT_FRAME [([], 0)] [] := by
  rintro ⟨enough, h⟩
  obtain ⟨rts, s', bytes, r', hsend, hpos, -⟩ := h (enough + 3) (by omega)
  have hfail : ∃ s'', sendFragments (enough + 3) false (steady 3) TEXT_FRAME [([], 0)] =
      some ([-1], s'') := ⟨_, rfl⟩
  obtain ⟨s'', hfail⟩ := hfail
  obtain ⟨rfl, -⟩ : [-1] = rts ∧ s'' = s' := by simpa using hfail.symm.trans hsend
  exact absurd (hpos (-1) List.mem_cons_self) (by decide)

end CxkFramework.WebSocket
