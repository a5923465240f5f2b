import CxkFramework.WebSocketFraming

/-!
# Sending a message again

`WSSendMessage` has the message from its caller, and a client masks the data where it is, before
the mask bytes go out. What the caller has afterwards is the masked data, unless the call ended
with the lengths or the mask does nothing.
-/

namespace CxkFramework.WebSocket

open Words Blocks

/-- The mask bytes that the data comes to are zero. -/
def Neutral (rand : UInt32) (data : List UInt8) : Prop :=
  rand.toNat % 256 ^ min 4 data.length = 0

/-- A write of the head or of the extended length ends the call. -/
def EndsWithLengths (rounds : Nat) (s : Stream) (msg : WSFrameMessage) (client fin : Bool) : Prop :=
  ∃ rt s₁, s.writeFixSize rounds (frameHead client fin msg.opcode msg.data.length).bytes =
      some (rt, s₁) ∧
    (rt ≤ 0 ∨ ∃ len, extendedLength msg.data.length = some len ∧
      ∃ rt₂ s₂, s₁.writeFixSize rounds len = some (rt₂, s₂) ∧ rt₂ ≤ 0)

/-- A call with the message. -/
structure Sending where
  stream : Stream
  client : Bool
  fin : Bool
  rand : UInt32

/-- The calls one after another, all with the same object. -/
def sendAgain (rounds : Nat) : WSFrameMessage → List Sending → Option (List Stream)
  | _, [] => some []
  | msg, x :: rest => do
    let (_, msg, s) ← WSSendMessage rounds x.stream msg x.client x.fin x.rand
    let streams ← sendAgain rounds msg rest
    some (s :: streams)

/-- The stream got the frame of this message. -/
def Carried (msg : WSFrameMessage) (x : Sending) (s : Stream) : Prop :=
  s.output =
    x.stream.output ++ frame x.client x.fin msg.opcode (leBytes 4 x.rand.toNat) msg.data

/-- Every one of the calls puts out the message as it was before the first. -/
def Delivers (msg : WSFrameMessage) (sendings : List Sending) : Prop :=
  ∃ enough, ∀ rounds ≥ enough, ∃ streams,
    sendAgain rounds msg sendings = some streams ∧ List.Forall₂ (Carried msg) sendings streams

/-! ## Masks that do nothing -/

section Mask

variable {mask data : List UInt8}

theorem xor_eq_self_iff (b m : UInt8) : b ^^^ m = b ↔ m = 0 := by
  constructor
  · intro h
    have hcancel : b ^^^ (b ^^^ m) = m := by simp [← UInt8.xor_assoc]
    rw [← hcancel, h, UInt8.xor_self]
  · rintro rfl
    exact UInt8.xor_zero

theorem applyMask_eq_self_iff :
    applyMask mask data = data ↔ ∀ i < data.length, mask[i % 4]?.getD 0 = 0 := by
  constructor
  · intro h i hi
    have hat := congrArg (fun bytes => bytes[i]?) h
    simp only [applyMask, List.getElem?_mapIdx, List.getElem?_eq_getElem hi, Option.map_some,
      Option.some.injEq] at hat
    exact (xor_eq_self_iff _ _).mp hat
  · intro h
    apply List.ext_getElem (length_applyMask mask data)
    intro i _ hi
    simp only [applyMask, List.getElem_mapIdx]
    exact (xor_eq_self_iff _ _).mpr (h i hi)

/-- The bytes of a word one by one. -/
theorem getElem?_leBytes {n v i : Nat} (hi : i < n) :
    (leBytes n v)[i]? = some (UInt8.ofNat (v / 256 ^ i)) := by
  induction n generalizing v i with
  | zero => omega
  | succ n ih =>
    cases i with
    | zero => simp [leBytes]
    | succ i =>
      rw [leBytes, List.getElem?_cons_succ, ih (by omega), Nat.div_div_eq_div_mul, ← Nat.pow_succ']

theorem low_bytes_zero_iff (v k : Nat) :
    (∀ i < k, v / 256 ^ i % 256 = 0) ↔ v % 256 ^ k = 0 := by
  induction k with
  | zero => simp [Nat.mod_one]
  | succ k ih =>
    have hpos : 0 < 256 ^ k := Nat.pow_pos (by omega)
    rw [Nat.mod_pow_succ, Nat.add_eq_zero_iff, ← ih, mul_eq_zero]
    constructor
    · intro h
      exact ⟨fun i hi => h i (by omega), .inr (h k (by omega))⟩
    · rintro ⟨hlow, hlast⟩ i hi
      rcases Nat.lt_succ_iff_lt_or_eq.mp hi with hlt | rfl
      · exact hlow i hlt
      · exact hlast.resolve_left hpos.ne'

theorem applyMask_leBytes_eq_self_iff (rand : UInt32) :
    applyMask (leBytes 4 rand.toNat) data = data ↔ Neutral rand data := by
  have hbyte : ∀ i < 4, ((leBytes 4 rand.toNat)[i]?.getD 0 = 0 ↔ rand.toNat / 256 ^ i % 256 = 0) := by
    intro i hi
    rw [getElem?_leBytes hi, Option.getD_some, ← UInt8.toNat_inj]
    simp
  rw [applyMask_eq_self_iff, Neutral, ← low_bytes_zero_iff]
  constructor
  · intro h i hi
    have hat := h i (by omega)
    rw [Nat.mod_eq_of_lt (by omega)] at hat
    exact (hbyte i (by omega)).mp hat
  · intro h i hi
    exact (hbyte _ (by omega)).mpr (h (i % 4) (by omega))

end Mask

section Message

variable {msg : WSFrameMessage} {client : Bool} {rand : UInt32}

@[simp] theorem opcode_masked : (masked msg client rand).opcode = msg.opcode := by
  cases client <;> rfl

@[simp] theorem length_masked : (masked msg client rand).data.length = msg.data.length := by
  cases client with
  | true => exact length_applyMask _ _
  | false => rfl

theorem masked_eq_self_iff :
    masked msg client rand = msg ↔ client = false ∨ Neutral rand msg.data := by
  obtain ⟨opcode, data⟩ := msg
  cases client with
  | true => simp [masked, applyMask_leBytes_eq_self_iff]
  | false => simp [masked]

end Message

/-! ## One call -/

section Call

variable {rounds : Nat} {s s' : Stream} {msg msg' : WSFrameMessage} {client fin : Bool}
  {rand : UInt32} {rt : Int}

/-- A write of the chain that came to an end. -/
theorem attempt_eq_some {α : Type} {buffer : List UInt8} {onFail : Stream → α}
    {next : Stream → Option α} {r : α} (h : attempt s rounds buffer onFail next = some r) :
    ∃ rt s₁, s.writeFixSize rounds buffer = some (rt, s₁) ∧
      (rt ≤ 0 ∧ r = onFail s₁ ∨ 0 < rt ∧ next s₁ = some r) := by
  rw [attempt] at h
  cases hok : s.writeFixSize rounds buffer with
  | none => simp [hok] at h
  | some result =>
    obtain ⟨rt, s₁⟩ := result
    simp only [hok, Option.bind_eq_bind, Option.bind_some] at h
    refine ⟨rt, s₁, rfl, ?_⟩
    split at h
    · next hle => exact .inl ⟨hle, (Option.some.inj h).symm⟩
    · next hgt => exact .inr ⟨not_le.mp hgt, h⟩

theorem message_of_sendFailed {m : WSFrameMessage} (h : (rt, msg', s') = sendFailed m s) :
    msg' = m :=
  (Prod.mk.inj (Prod.mk.inj h).2).1

/-- A write that may fail, with the same message before and after. -/
theorem attempt_message {m : WSFrameMessage} {buffer : List UInt8}
    {next : Stream → Option (Int × WSFrameMessage × Stream)}
    (h : attempt s rounds buffer (sendFailed m) next = some (rt, msg', s'))
    (hnext : ∀ s₁, next s₁ = some (rt, msg', s') → msg' = m) : msg' = m := by
  obtain ⟨_, s₁, -, ⟨-, hfail⟩ | ⟨-, hok⟩⟩ := attempt_eq_some h
  · exact message_of_sendFailed hfail
  · exact hnext s₁ hok

theorem sendBody_message (h : sendBody rounds msg client rand s = some (rt, msg', s')) :
    msg' = masked msg client rand := by
  cases client with
  | true =>
    simp only [sendBody, if_true] at h
    apply attempt_message h
    intro s₁ hmask
    apply attempt_message hmask
    intro s₂ hdone
    simp only [Option.some.injEq, Prod.mk.injEq] at hdone
    exact hdone.2.1.symm
  | false =>
    simp only [sendBody, Bool.false_eq_true, if_false] at h
    apply attempt_message h
    intro s₁ hdone
    simp only [Option.some.injEq, Prod.mk.injEq] at hdone
    exact hdone.2.1.symm

/-- The message is as it was, or what the payload was sent from. -/
theorem message_after (h : WSSendMessage rounds s msg client fin rand = some (rt, msg', s')) :
    EndsWithLengths rounds s msg client fin ∧ msg' = msg ∨
      ¬EndsWithLengths rounds s msg client fin ∧ msg' = masked msg client rand := by
  rw [WSSendMessage] at h
  obtain ⟨rt₁, s₁, hhead, ⟨hrt, hfail⟩ | ⟨hrt, hnext⟩⟩ := attempt_eq_some h
  · exact .inl ⟨⟨rt₁, s₁, hhead, .inl hrt⟩, message_of_sendFailed hfail⟩
  have hends : EndsWithLengths rounds s msg client fin ↔
      ∃ len, extendedLength msg.data.length = some len ∧
        ∃ rt₂ s₂, s₁.writeFixSize rounds len = some (rt₂, s₂) ∧ rt₂ ≤ 0 := by
    constructor
    · rintro ⟨rt, s₂, hhead₂, hend⟩
      obtain ⟨rfl, rfl⟩ : rt₁ = rt ∧ s₁ = s₂ := by simpa using hhead.symm.trans hhead₂
      exact hend.resolve_left (by omega)
    · intro hend
      exact ⟨rt₁, s₁, hhead, .inr hend⟩
  rw [hends]
  cases hext : extendedLength msg.data.length with
  | none =>
    simp only [hext] at hnext
    exact .inr ⟨by simp, sendBody_message hnext⟩
  | some len =>
    simp only [hext] at hnext
    obtain ⟨rt₂, s₂, hlen, ⟨hrt₂, hfail⟩ | ⟨hrt₂, hbody⟩⟩ := attempt_eq_some hnext
    · exact .inl ⟨⟨len, rfl, rt₂, s₂, hlen, hrt₂⟩, message_of_sendFailed hfail⟩
    · refine .inr ⟨?_, sendBody_message hbody⟩
      rintro ⟨len', hsame, rt₃, s₃, hlen₃, hrt₃⟩
      obtain rfl := Option.some.inj hsame
      obtain ⟨rfl, -⟩ : rt₂ = rt₃ ∧ s₂ = s₃ := by simpa using hlen.symm.trans hlen₃
      omega

end Call

/-! ## Calls over streams that work -/

section Again

variable {rounds : Nat} {s : Stream} {msg : WSFrameMessage} {sendings : List Sending}

theorem WSSendMessage_sent (hs : s.Reliable) (hsize : msg.data.length < 2 ^ 64)
    (hr : msg.data.length + 8 < rounds) (client fin : Bool) (rand : UInt32) :
    ∃ rt s', WSSendMessage rounds s msg client fin rand = some (rt, masked msg client rand, s') ∧
      s'.output = s.output ++ frame client fin msg.opcode (leBytes 4 rand.toNat) msg.data := by
  obtain ⟨s', hsent, hok⟩ := WSSendMessage_reliable hs msg client fin rand hsize hr
  by_cases hrt : toInt msg.data.length ≤ 0
  · rw [if_pos hrt] at hok
    exact ⟨_, _, hok, hsent.output_eq⟩
  · rw [if_neg hrt] at hok
    exact ⟨_, _, hok, hsent.output_eq⟩

/-- Frames of as many bytes are the same only when the data is. -/
theorem frame_inj {client fin : Bool} {opcode : Nat} {mask data data' : List UInt8}
    (hlen : data.length = data'.length) :
    frame client fin opcode mask data = frame client fin opcode mask data' ↔ data = data' := by
  constructor
  · intro h
    rw [frame, frame, hlen, List.append_cancel_left_eq, List.append_cancel_left_eq] at h
    cases client with
    | true =>
      simp only [frameBody, if_true, List.append_cancel_left_eq] at h
      rw [← applyMask_applyMask mask data, h, applyMask_applyMask]
    | false => simpa [frameBody] using h
  · rintro rfl
    rfl

/-- From the call on that finds the message changed, nothing else comes back. -/
theorem sendAgain_iff {current : WSFrameMessage} (hs : ∀ x ∈ sendings, x.stream.Reliable)
    (hopcode : current.opcode = msg.opcode) (hlength : current.data.length = msg.data.length)
    (hsize : msg.data.length < 2 ^ 64) (hr : msg.data.length + 8 < rounds) :
    ∃ streams, sendAgain rounds current sendings = some streams ∧
      (List.Forall₂ (Carried msg) sendings streams ↔ sendings = [] ∨
        current = msg ∧ ∀ x ∈ sendings.dropLast, x.client = false ∨ Neutral x.rand msg.data) := by
  induction sendings generalizing current with
  | nil => exact ⟨[], rfl, by simp⟩
  | cons x rest ih =>
    obtain ⟨rt, s', hsend, hout⟩ := WSSendMessage_sent (hs x List.mem_cons_self)
      (hlength ▸ hsize) (hlength ▸ hr) x.client x.fin x.rand
    obtain ⟨streams, hrest, hiff⟩ := @ih (masked current x.client x.rand)
      (fun y hy => hs y (List.mem_cons_of_mem _ hy)) (opcode_masked.trans hopcode)
      (length_masked.trans hlength)
    refine ⟨s' :: streams, by simp [sendAgain, hsend, hrest], ?_⟩
    have hfirst : Carried msg x s' ↔ current = msg := by
      rw [Carried, hout, List.append_cancel_left_eq, hopcode, frame_inj hlength]
      obtain ⟨opcode, data⟩ := current
      obtain ⟨opcode', data'⟩ := msg
      simp_all
    rw [List.forall₂_cons, hfirst, hiff]
    simp only [List.cons_ne_nil, false_or]
    refine and_congr_right ?_
    rintro rfl
    cases rest with
    | nil => simp
    | cons y rest =>
      simp only [List.cons_ne_nil, false_or, masked_eq_self_iff, List.dropLast_cons_cons,
        List.forall_mem_cons]

/-- Over streams that work every call puts out the message exactly when all but the last leave it as
it is. -/
theorem delivers_iff (hs : ∀ x ∈ sendings, x.stream.Reliable) (hsize : msg.data.length < 2 ^ 64) :
    Delivers msg sendings ↔
      ∀ x ∈ sendings.dropLast, x.client = false ∨ Neutral x.rand msg.data := by
  have hempty : sendings = [] → ∀ x ∈ sendings.dropLast, x.client = false ∨ Neutral x.rand msg.data := by
    rintro rfl
    simp
  constructor
  · rintro ⟨enough, h⟩
    obtain ⟨streams, hsend, hcarried⟩ := h (enough + msg.data.length + 9) (by omega)
    obtain ⟨streams', hsend', hiff⟩ := @sendAgain_iff (enough + msg.data.length + 9) msg sendings msg
      hs rfl rfl hsize (by omega)
    obtain rfl : streams = streams' := Option.some.inj (hsend.symm.trans hsend')
    exact (hiff.mp hcarried).elim hempty And.right
  · intro h
    refine ⟨msg.data.length + 9, fun rounds hrounds => ?_⟩
    obtain ⟨streams, hsend, hiff⟩ := @sendAgain_iff rounds msg sendings msg hs rfl rfl hsize (by omega)
    exact ⟨streams, hsend, hiff.mpr (.inr ⟨rfl, h⟩)⟩

/-- Who receives a frame that was carried gets the message. -/
theorem receives_carried {r s' : Stream} {x : Sending} {maxSize : UInt32} {bytes rest : List UInt8}
    (hcarried : Carried msg x s') (hout : s'.output = x.stream.output ++ bytes) (hfin : x.fin = true)
    (hr : r.Reliable) (hopcode : msg.opcode ≤ 2) (hcount : Countable msg.data)
    (hmax : msg.data.length < maxSize.toNat) (hin : r.input = bytes ++ rest) :
    ∃ r', WSRecvMessage maxSize 1 r (!x.client) = some (some msg, r') ∧ r'.input = rest := by
  have hbytes : bytes = frame x.client x.fin msg.opcode (leBytes 4 x.rand.toNat) msg.data :=
    List.append_cancel_left (hout.symm.trans hcarried)
  have hkept : keptOpcode {} msg.opcode = msg.opcode := by
    cases hzero : msg.opcode with
    | zero => rfl
    | succ n => rfl
  have hall : (payload [(msg.data, x.rand)]).length = msg.data.length := by simp
  obtain ⟨hlow, hhigh⟩ := hcount
  have hdecide := @recvFragments r 1 x.client hr maxSize msg.opcode msg.opcode 0
    [(msg.data, x.rand)] rest {} (List.cons_ne_nil _ _) ⟨rfl, rfl⟩ hopcode hkept
    (by simpa using ⟨hlow, hhigh⟩) (by omega) le_rfl (by simp [hin, hbytes, wire, hfin])
  rcases hdecide with ⟨-, r', hok, hrest⟩ | ⟨hno, -⟩
  · rw [List.nil_append, payload_cons, payload_nil, List.append_nil] at hok
    exact ⟨r', hok, hrest⟩
  · refine absurd ⟨?_, fun _ => ?_⟩ hno
    · simp
    · omega

end Again

/-- A call that returns leaves the opcode, and leaves the data exactly when it ended with the
lengths, is no client's or masks with zeros; a message that is sent over and over is delivered every
time exactly when all calls but the last are such. -/
theorem intact_and_delivers_iff {rounds : Nat} {s s' : Stream} {msg msg' : WSFrameMessage}
    {client fin : Bool} {rand : UInt32} {rt : Int} {sendings : List Sending}
    (h : WSSendMessage rounds s msg client fin rand = some (rt, msg', s'))
    (hs : ∀ x ∈ sendings, x.stream.Reliable) (hsize : msg.data.length < 2 ^ 64) :
    msg'.opcode = msg.opcode ∧
      (msg'.data = msg.data ↔
        EndsWithLengths rounds s msg client fin ∨ client = false ∨ Neutral rand msg.data) ∧
      (Delivers msg sendings ↔
        ∀ x ∈ sendings.dropLast, x.client = false ∨ Neutral x.rand msg.data) := by
  have hsame : msg'.opcode = msg.opcode → (msg'.data = msg.data ↔ msg' = msg) := by
    intro hopcode
    obtain ⟨opcode, data⟩ := msg
    obtain ⟨opcode', data'⟩ := msg'
    simp_all
  obtain ⟨hends, rfl⟩ | ⟨hpast, rfl⟩ := message_after h
  · exact ⟨rfl, by simp [hends], delivers_iff hs hsize⟩
  · refine ⟨opcode_masked, ?_, delivers_iff hs hsize⟩
    rw [hsame opcode_masked, masked_eq_self_iff, or_iff_right hpast]

/-- A server keeps the text, and a client may be the last to send it. -/
theorem delivers_server_first : ∃ rt s',
    WSSendMessage 20 (steady 3) ⟨TEXT_FRAME, [104, 105]⟩ false true 7 =
      some (rt, ⟨TEXT_FRAME, [104, 105]⟩, s') ∧
    Delivers ⟨TEXT_FRAME, [104, 105]⟩ [⟨steady 3, false, true, 7⟩, ⟨steady 5, true, true, 9⟩] := by
  obtain ⟨rt, s', hsend⟩ : ∃ rt s',
      WSSendMessage 20 (steady 3) ⟨TEXT_FRAME, [104, 105]⟩ false true 7 =
        some (rt, ⟨TEXT_FRAME, [104, 105]⟩, s') := ⟨_, _, rfl⟩
  have hworks : ∀ x ∈ [(⟨steady 3, false, true, 7⟩ : Sending), ⟨steady 5, true, true, 9⟩],
      x.stream.Reliable := by
    simp [steady_reliable (show 0 < (3 : Int32).toInt by decide),
      steady_reliable (show 0 < (5 : Int32).toInt by decide)]
  refine ⟨rt, s', hsend, (intact_and_delivers_iff hsend hworks (by decide)).2.2.mpr ?_⟩
  simp

/-- A client has another text after sending than before. -/
theorem client_send_not_intact : ∃ rt msg' s',
    WSSendMessage 20 (steady 3) ⟨TEXT_FRAME, [104, 105]⟩ true true 7 = some (rt, msg', s') ∧
      msg'.data ≠ [104, 105] := by
  have hmessage : (WSSendMessage 20 (steady 3) ⟨TEXT_FRAME, [104, 105]⟩ true true 7).map
      (fun r => r.2.1) = some ⟨TEXT_FRAME, [111, 105]⟩ := by decide
  obtain ⟨⟨rt, msg', s'⟩, hsend, rfl⟩ := Option.map_eq_some_iff.mp hmessage
  exact ⟨rt, _, s', hsend, by decide⟩

end CxkFramework.WebSocket
