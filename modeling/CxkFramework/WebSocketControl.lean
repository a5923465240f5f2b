import CxkFramework.WebSocketFraming

/-!
# Control frames between fragments

`WSRecvMessage` on the frames of a message with PING, PONG and CLOSE frames before and between its
fragments. The receiver reads two bytes of a control frame and goes on with the next head, so what
else the frame has is read as a head; and a CLOSE is passed over like any opcode it does not know.
-/

namespace CxkFramework.WebSocket

open Words Blocks

/-! ## One round -/

/-- What a round of the receive loop comes to. -/
inductive Round where
  | ended (result : Option (Option WSFrameMessage × Stream))
  | next (p : Partial) (s : Stream)

def recvRound (maxSize : UInt32) (client : Bool) (rounds : Nat) (p : Partial) (s : Stream) :
    Round :=
  match s.readFixSize 2 with
  | (rt, bytes, s) =>
    if rt ≤ 0 then .ended (some (none, s.close))
    else if (WSFrameHead.ofBytes bytes).opcode = PING then
      match WSPong rounds s with
      | none => .ended none
      | some (v, s) => if v ≤ 0 then .ended (some (none, s.close)) else .next p s
    else if (WSFrameHead.ofBytes bytes).opcode = PONG then .next p s
    else if (WSFrameHead.ofBytes bytes).opcode = CONTINUE ∨
        (WSFrameHead.ofBytes bytes).opcode = TEXT_FRAME ∨
        (WSFrameHead.ofBytes bytes).opcode = BIN_FRAME then
      match recvData maxSize client p (WSFrameHead.ofBytes bytes) s with
      | .failed s => .ended (some (none, s.close))
      | .more p s => .next p s
      | .done msg s => .ended (some (some msg, s))
      | .wild => .ended none
    else .next p s

/-- The loop is its rounds. -/
theorem recvLoop_succ (maxSize : UInt32) (client : Bool) (rounds : Nat) (p : Partial) (s : Stream) :
    recvLoop maxSize client (rounds + 1) p s =
      match recvRound maxSize client (rounds + 1) p s with
      | .ended result => result
      | .next p s => recvLoop maxSize client rounds p s := by
  rw [recvLoop, recvRound]
  obtain ⟨rt, bytes, s₁⟩ := s.readFixSize 2
  simp only
  split
  · rfl
  · split
    · cases WSPong (rounds + 1) s₁ with
      | none => rfl
      | some r =>
        obtain ⟨v, s₂⟩ := r
        simp only
        split <;> rfl
    · split
      · rfl
      · split
        · cases recvData maxSize client p (WSFrameHead.ofBytes bytes) s₁ <;> rfl
        · rfl

/-- What is unread each time a head is read. -/
def headReads (maxSize : UInt32) (client : Bool) : Nat → Partial → Stream → List (List UInt8)
  | 0, _, _ => []
  | rounds + 1, p, s =>
    s.input ::
      match recvRound maxSize client (rounds + 1) p s with
      | .ended _ => []
      | .next p s => headReads maxSize client rounds p s

/-! ## Frames from the peer -/

structure Control where
  opcode : Nat
  mask : List UInt8
  payload : List UInt8
  deriving DecidableEq, Repr

inductive Frame where
  | control (k : Control)
  | fragment (mask data : List UInt8)
  deriving DecidableEq, Repr

/-- The frames on the wire; the last one is the end of the message. -/
def wireOf (client : Bool) : Nat → List Frame → List UInt8
  | _, [] => []
  | opcode, .control k :: fs =>
    frame client true k.opcode k.mask k.payload ++ wireOf client opcode fs
  | opcode, .fragment mask data :: fs =>
    frame client fs.isEmpty opcode mask data ++ wireOf client CONTINUE fs

/-- What is unread at the start of each frame. -/
def frameStarts (client : Bool) (rest : List UInt8) : Nat → List Frame → List (List UInt8)
  | _, [] => []
  | opcode, .control k :: fs =>
    (wireOf client opcode (.control k :: fs) ++ rest) :: frameStarts client rest opcode fs
  | opcode, .fragment mask data :: fs =>
    (wireOf client opcode (.fragment mask data :: fs) ++ rest) ::
      frameStarts client rest CONTINUE fs

def Frame.WellFormed : Frame → Prop
  | .control k =>
    (k.opcode = CLOSE ∨ k.opcode = PING ∨ k.opcode = PONG) ∧ k.mask.length = 4 ∧
      k.payload.length ≤ 125
  | .fragment mask data => mask.length = 4 ∧ data.length < 2 ^ 63

/-- The last frame is a fragment, with control frames anywhere before it. -/
def WellFormed : List Frame → Prop
  | [] => False
  | [.control _] => False
  | [.fragment mask data] => Frame.WellFormed (.fragment mask data)
  | f :: fs => f.WellFormed ∧ WellFormed fs

def hasClose (fs : List Frame) : Bool :=
  fs.any fun
    | .control k => k.opcode == CLOSE
    | .fragment _ _ => false

def messageData : List Frame → List UInt8
  | [] => []
  | .control _ :: fs => messageData fs
  | .fragment _ data :: fs => data ++ messageData fs

/-- What has to come out: the message, or the end of the session. -/
def expected (closed : Bool) (msg : WSFrameMessage) (rest : List UInt8)
    (result : Option (Option WSFrameMessage × Stream)) : Prop :=
  ∃ s, if closed then result = some (none, s) ∧ s.closed = true
    else result = some (some msg, s) ∧ s.input = rest

/-- The message comes out, or the session ends where there is a CLOSE; and every head is read at
the start of a frame, so none is read from the mask or the payload of a control frame. -/
def Undisturbed (maxSize : UInt32) (client : Bool) (opcode : Nat) (fs : List Frame)
    (rest : List UInt8) (s : Stream) : Prop :=
  ∃ enough, ∀ rounds ≥ enough,
    expected (hasClose fs) ⟨opcode, messageData fs⟩ rest
      (WSRecvMessage maxSize rounds s (!client)) ∧
    ∀ input ∈ headReads maxSize (!client) rounds {} s,
      input ∈ frameStarts client rest opcode fs

/-! ## When control frames do no harm -/

/-- What the data branch makes of a fragment of `n` bytes when it holds `c`. -/
inductive Fate where
  | accepted
  | refused
  | wild
  deriving DecidableEq, Repr

def fate (maxSize : UInt32) (client : Bool) (c n : Nat) : Fate :=
  if (maxSize.toNat : Int) ≤ (toInt c + n) % 2 ^ 64 then .refused
  else if 2 ^ 31 ≤ c then .wild
  else if n = 0 ∨ 2 ^ 31 ≤ n then .refused
  else if client = true ∧ 2 ^ 31 < c + n then .wild
  else .accepted

/-- What a fragment with this fate leaves to be asked: what the later frames ask where it is
accepted, and a CLOSE where the receiver stops. -/
def Fate.Allows : Fate → Prop → Prop → Prop
  | .accepted, later, _ => later
  | .refused, _, close => close
  | .wild, _, _ => False

/-- Up to where the receiver stops, a control frame is its two-byte head: no mask and no payload.
It may stop early only if there is a CLOSE, and must stop early then. -/
def Harmless (maxSize : UInt32) (client : Bool) : Nat → Bool → List Frame → Prop
  | _, _, [] => False
  | c, closed, .control k :: fs =>
    frameBody client k.mask k.payload = [] ∧
      Harmless maxSize client c (closed || k.opcode == CLOSE) fs
  | c, closed, .fragment _ data :: fs =>
    (fate maxSize client c data.length).Allows
      (if fs = [] then closed = false else Harmless maxSize client (c + data.length) closed fs)
      ((closed || hasClose fs) = true)

/-! ## Rounds on the frames -/

section Rounds

variable {maxSize : UInt32} {client : Bool} {rounds : Nat} {s : Stream} {p : Partial}
  {rest : List UInt8}

/-- The head of a frame, read. -/
theorem read_head (hs : s.Reliable) {fin : Bool} {opcode : Nat} {mask data : List UInt8}
    (ho : opcode < 16) (hin : s.input = frame client fin opcode mask data ++ rest) :
    ∃ s', s.readFixSize 2 = (2, (frameHead client fin opcode data.length).bytes, s') ∧
      s'.Reliable ∧
      s'.input = (extendedLength data.length).getD [] ++ (frameBody client mask data ++ rest) ∧
      WSFrameHead.ofBytes (frameHead client fin opcode data.length).bytes =
        frameHead client fin opcode data.length := by
  rw [frame, List.append_assoc] at hin
  have hhead := length_headBytes (frameHead client fin opcode data.length)
  obtain ⟨s', hok, hrec⟩ := readFixSize_pos hs hin (by omega) (by omega)
  rw [hhead] at hok
  refine ⟨s', hok, hrec.reliable hs, ?_, ?_⟩
  · have hrest := List.append_cancel_left (hrec.input_eq.symm.trans hin)
    rwa [List.append_assoc] at hrest
  · exact ofBytes_bytes (show opcode < 16 from ho) (payloadField_lt _) rfl rfl rfl

theorem WSPong_ok (hs : s.Reliable) (hr : 2 < rounds) :
    ∃ s', WSPong rounds s = some (2, s') ∧ s'.Reliable ∧ s'.input = s.input := by
  have hhead := length_headBytes { fin := true, opcode := PONG }
  have hlt : (WSFrameHead.bytes { fin := true, opcode := PONG }).length < rounds := by omega
  obtain ⟨s', hok, hsent⟩ := Stream.writeFixSize_reliable hs (by omega) hlt
  have hint : toInt (((WSFrameHead.bytes { fin := true, opcode := PONG }).length : Nat) : Int) = 2 := by
    rw [hhead]
    exact Stream.toInt_of_lt (by omega) (by omega)
  refine ⟨s', ?_, hsent.reliable hs, hsent.input_eq⟩
  rw [WSPong]
  simp only [hok, hint]
  rfl

/-- Of a control frame only the head is consumed. -/
theorem recvRound_control (hs : s.Reliable) (hr : 2 < rounds) {flag : Bool} {k : Control}
    (hk : Frame.WellFormed (.control k))
    (hin : s.input = frame client true k.opcode k.mask k.payload ++ rest) :
    ∃ s', recvRound maxSize flag rounds p s = .next p s' ∧ s'.Reliable ∧
      s'.input = frameBody client k.mask k.payload ++ rest := by
  obtain ⟨hop, hmask, hpayload⟩ := hk
  have ho : k.opcode < 16 := by
    rcases hop with h | h | h <;> rw [h] <;> decide
  obtain ⟨s₁, hread, hs₁, hin₁, hdecode⟩ := read_head hs ho hin
  have hfield : payloadField k.payload.length = k.payload.length := payloadField_small (by omega)
  have hext : extendedLength k.payload.length = none := by
    rw [extendedLength, hfield, if_neg (by omega), if_neg (by omega)]
  rw [hext, Option.getD_none, List.nil_append] at hin₁
  have hopcode : (frameHead client true k.opcode k.payload.length).opcode = k.opcode := rfl
  rw [recvRound, hread]
  simp only [hdecode, hopcode]
  rw [if_neg (by decide)]
  rcases hop with h | h | h
  · rw [h, if_neg (by decide), if_neg (by decide), if_neg (by decide)]
    exact ⟨s₁, rfl, hs₁, hin₁⟩
  · obtain ⟨s₂, hpong, hs₂, hin₂⟩ := WSPong_ok hs₁ hr
    rw [h, if_pos rfl, hpong]
    exact ⟨s₂, rfl, hs₂, hin₂.trans hin₁⟩
  · rw [h, if_neg (by decide), if_pos rfl]
    exact ⟨s₁, rfl, hs₁, hin₁⟩

/-- How a round ends on a fragment. -/
def afterData : FrameResult → Round
  | .failed s => .ended (some (none, s.close))
  | .more p s => .next p s
  | .done msg s => .ended (some (some msg, s))
  | .wild => .ended none

theorem recvRound_data (hs : s.Reliable) {flag fin : Bool} {opcode : Nat} {mask data : List UInt8}
    (ho : opcode ≤ 2) (hin : s.input = frame client fin opcode mask data ++ rest) :
    ∃ s', s'.Reliable ∧
      s'.input = (extendedLength data.length).getD [] ++ (frameBody client mask data ++ rest) ∧
      recvRound maxSize flag rounds p s =
        afterData (recvData maxSize flag p (frameHead client fin opcode data.length) s') := by
  obtain ⟨s₁, hread, hs₁, hin₁, hdecode⟩ := read_head hs (by omega) hin
  have hopcode : (frameHead client fin opcode data.length).opcode = opcode := rfl
  refine ⟨s₁, hs₁, hin₁, ?_⟩
  rw [recvRound, hread]
  simp only [hdecode, hopcode]
  rw [if_neg (by decide), if_neg (by rw [PING]; omega), if_neg (by rw [PONG]; omega),
    if_pos (by rw [CONTINUE, TEXT_FRAME, BIN_FRAME]; omega)]
  cases recvData maxSize flag p (frameHead client fin opcode data.length) s₁ <;> rfl

def Comes (p : Partial) (fin : Bool) (opcode : Nat) (data rest : List UInt8) (r : FrameResult) :
    Fate → Prop
  | .accepted => ∃ s, s.Reliable ∧ s.input = rest ∧ r = accepted p fin opcode data s
  | .refused => ∃ s, r = .failed s
  | .wild => r = .wild

/-- The data branch does what `fate` says. -/
theorem recvData_fate (hs : s.Reliable) {c : Nat} (hp : Holds p c) (hc : c < 2 ^ 32) (fin : Bool)
    (opcode : Nat) {mask data : List UInt8} (hmask : mask.length = 4)
    (hdata : data.length < 2 ^ 63)
    (hin : s.input =
      (extendedLength data.length).getD [] ++ (frameBody client mask data ++ rest))
    {f : Fate} (hf : fate maxSize client c data.length = f) :
    Comes p fin opcode data rest
      (recvData maxSize (!client) p (frameHead client fin opcode data.length) s) f := by
  obtain ⟨s₁, s₂, hrec, hin₂, hbranch⟩ :=
    @recvData_eq s maxSize client fin opcode mask data rest p hs hmask (by omega) hin
  have hs₂ := hrec.reliable hs
  rw [hbranch, hp.curLen_eq]
  rw [fate] at hf
  by_cases hmax : (maxSize.toNat : Int) ≤ (toInt c + data.length) % 2 ^ 64
  · rw [if_pos hmax] at hf ⊢
    subst hf
    exact ⟨s₁, rfl⟩
  rw [if_neg hmax] at hf ⊢
  by_cases hneg : 2 ^ 31 ≤ c
  · have hcur : p.curLen = c - 2 ^ 32 :=
      hp.curLen_eq.trans (Stream.toInt_of_ge (by omega) (by omega))
    rw [if_pos hneg] at hf
    subst hf
    rw [recvPayload, if_pos (by omega)]
    rfl
  rw [if_neg hneg] at hf
  have hcur : p.curLen = c := hp.curLen_eq.trans (Stream.toInt_of_lt (by omega) (by omega))
  have hlen : (if client then applyMask mask data else data).length = data.length := by
    cases client with
    | true => exact length_applyMask mask data
    | false => rfl
  by_cases hcount : data.length = 0 ∨ 2 ^ 31 ≤ data.length
  · have hlt := maxSize.toNat_lt
    have hshort : data.length < 2 ^ 32 := by
      have hint : toInt (c : Int) = c := Stream.toInt_of_lt (by omega) (by omega)
      rw [hint] at hmax
      omega
    obtain ⟨s₃, hread, _⟩ := Stream.readFixSize_reliable hs₂ (by omega) hin₂
    have hrt : toInt (data.length : Int) ≤ 0 := Stream.toInt_nonpos hcount hshort
    rw [hlen] at hread
    rw [if_pos hcount] at hf
    subst hf
    refine ⟨s₃, ?_⟩
    rw [recvPayload, if_neg (by omega), hread]
    exact if_pos hrt
  rw [if_neg hcount] at hf
  by_cases hidx : client = true ∧ 2 ^ 31 < c + data.length
  · obtain ⟨rfl, hlarge⟩ := hidx
    rw [if_pos ⟨rfl, hlarge⟩] at hf
    subst hf
    exact @recvPayload_wild s₂ fin opcode c mask data rest p hs₂ hp (by omega) (by omega) (by omega)
      hlarge hin₂
  · rw [if_neg hidx] at hf
    subst hf
    have hfits : client = true → c + data.length ≤ 2 ^ 31 := by
      intro h
      by_contra hgt
      exact hidx ⟨h, by omega⟩
    obtain ⟨s₃, hok, hrec₃⟩ := @recvPayload_ok s₂ client fin opcode c mask data rest p hs₂ hp
      (by omega) (by omega) (by omega) hfits hin₂
    exact ⟨s₃, hrec₃.reliable hs₂, List.append_cancel_left (hrec₃.input_eq.symm.trans hin₂), hok⟩

end Rounds

/-! ## The receiver on the frames -/

theorem hasClose_control (k : Control) (fs : List Frame) :
    hasClose (.control k :: fs) = (k.opcode == CLOSE || hasClose fs) := rfl

theorem hasClose_fragment (mask data : List UInt8) (fs : List Frame) :
    hasClose (.fragment mask data :: fs) = hasClose fs := rfl

theorem wellFormed_tail {f : Frame} {fs : List Frame} (hne : fs ≠ []) (h : WellFormed (f :: fs)) :
    f.WellFormed ∧ WellFormed fs := by
  cases fs with
  | nil => exact absurd rfl hne
  | cons g fs => cases f <;> exact h

theorem wellFormed_head {f : Frame} {fs : List Frame} (h : WellFormed (f :: fs)) :
    f.WellFormed := by
  cases fs with
  | nil =>
    cases f with
    | control k => exact absurd h id
    | fragment mask data => exact h
  | cons g fs => exact (wellFormed_tail (List.cons_ne_nil g fs) h).1

theorem tail_ne_nil {k : Control} {fs : List Frame} (h : WellFormed (.control k :: fs)) :
    fs ≠ [] := by
  rintro rfl
  exact h

theorem headReads_next {maxSize : UInt32} {flag : Bool} {rounds : Nat} {p p' : Partial}
    {s s' : Stream} (h : recvRound maxSize flag (rounds + 1) p s = .next p' s') :
    headReads maxSize flag (rounds + 1) p s = s.input :: headReads maxSize flag rounds p' s' := by
  rw [headReads, h]

theorem headReads_ended {maxSize : UInt32} {flag : Bool} {rounds : Nat} {p : Partial}
    {s : Stream} {result : Option (Option WSFrameMessage × Stream)}
    (h : recvRound maxSize flag (rounds + 1) p s = .ended result) :
    headReads maxSize flag (rounds + 1) p s = [s.input] := by
  rw [headReads, h]

theorem recvLoop_next {maxSize : UInt32} {flag : Bool} {rounds : Nat} {p p' : Partial}
    {s s' : Stream} (h : recvRound maxSize flag (rounds + 1) p s = .next p' s') :
    recvLoop maxSize flag (rounds + 1) p s = recvLoop maxSize flag rounds p' s' := by
  rw [recvLoop_succ, h]

theorem recvLoop_ended {maxSize : UInt32} {flag : Bool} {rounds : Nat} {p : Partial}
    {s : Stream} {result : Option (Option WSFrameMessage × Stream)}
    (h : recvRound maxSize flag (rounds + 1) p s = .ended result) :
    recvLoop maxSize flag (rounds + 1) p s = result := by
  rw [recvLoop_succ, h]

section Frames

variable {maxSize : UInt32} {client closed : Bool} {rounds opcode op c : Nat} {fs : List Frame}
  {rest : List UInt8} {p : Partial} {s : Stream}

/-- The rest of the frames come to what they should. -/
structure Served (maxSize : UInt32) (client closed : Bool) (opcode op : Nat) (fs : List Frame)
    (rest : List UInt8) (rounds : Nat) (p : Partial) (s : Stream) : Prop where
  comes : expected (closed || hasClose fs) ⟨op, p.data ++ messageData fs⟩ rest
    (recvLoop maxSize (!client) rounds p s)
  starts : ∀ input ∈ headReads maxSize (!client) rounds p s,
    input ∈ frameStarts client rest opcode fs

/-- They come to something else, or a head is read where no frame starts. -/
def Misled (maxSize : UInt32) (client closed : Bool) (opcode op : Nat) (fs : List Frame)
    (rest : List UInt8) (rounds : Nat) (p : Partial) (s : Stream) : Prop :=
  ¬expected (closed || hasClose fs) ⟨op, p.data ++ messageData fs⟩ rest
      (recvLoop maxSize (!client) rounds p s) ∨
    ∃ input ∈ headReads maxSize (!client) rounds p s, input.length ≤ s.input.length ∧
      ∀ start ∈ frameStarts client rest opcode fs, start.length ≠ input.length

theorem Misled.not_served (h : Misled maxSize client closed opcode op fs rest rounds p s) :
    ¬Served maxSize client closed opcode op fs rest rounds p s := by
  intro hserved
  rcases h with h | ⟨input, hmem, -, hno⟩
  · exact h hserved.comes
  · exact hno input (hserved.starts input hmem) rfl

theorem length_frameStarts {start : List UInt8} (h : start ∈ frameStarts client rest opcode fs) :
    start.length ≤ (wireOf client opcode fs ++ rest).length := by
  induction fs generalizing opcode with
  | nil => cases h
  | cons f fs ih =>
    cases f with
    | control k =>
      rcases List.mem_cons.mp h with rfl | h
      · exact le_rfl
      · have := ih h
        rw [wireOf]
        simp only [List.length_append] at this ⊢
        omega
    | fragment mask data =>
      rcases List.mem_cons.mp h with rfl | h
      · exact le_rfl
      · have := ih h
        rw [wireOf]
        simp only [List.length_append] at this ⊢
        omega

theorem length_frame (client fin : Bool) (opcode : Nat) (mask data : List UInt8) :
    2 + (frameBody client mask data).length ≤ (frame client fin opcode mask data).length := by
  have := length_headBytes (frameHead client fin opcode data.length)
  rw [frame]
  simp only [List.length_append]
  omega

/-- A control frame with a mask or a payload: the next head is read inside it. -/
theorem misled_control (hs : s.Reliable) (hr : 2 < rounds) {k : Control}
    (hk : Frame.WellFormed (.control k)) (hbody : frameBody client k.mask k.payload ≠ [])
    (hin : s.input = wireOf client opcode (.control k :: fs) ++ rest) :
    Misled maxSize client closed opcode op (.control k :: fs) rest (rounds + 1) p s := by
  have hlen := length_frame client true k.opcode k.mask k.payload
  have hpos := List.length_pos_iff.mpr hbody
  rw [wireOf, List.append_assoc] at hin
  obtain ⟨s', hround, -, hin'⟩ := @recvRound_control maxSize client (rounds + 1) s p _ hs (by omega)
    (!client) k hk hin
  obtain ⟨rounds, rfl⟩ : ∃ n, rounds = n + 1 := ⟨rounds - 1, by omega⟩
  refine .inr ⟨s'.input, ?_, ?_, ?_⟩
  · rw [headReads_next hround, headReads]
    exact List.mem_cons_of_mem _ List.mem_cons_self
  · rw [hin, hin']
    simp only [List.length_append]
    omega
  · intro start hstart
    rw [hin']
    rcases List.mem_cons.mp hstart with rfl | hstart
    · rw [wireOf]
      simp only [List.length_append]
      omega
    · have := length_frameStarts hstart
      simp only [List.length_append] at this ⊢
      omega

/-- A frame after which the receiver goes on at the start of the next one. -/
theorem served_next {p' : Partial} {s' : Stream} {f : Frame} {next : Nat} {closed' : Bool}
    (h : recvRound maxSize (!client) (rounds + 1) p s = .next p' s')
    (hin : s.input = wireOf client opcode (f :: fs) ++ rest)
    (hstarts : frameStarts client rest opcode (f :: fs) =
      (wireOf client opcode (f :: fs) ++ rest) :: frameStarts client rest next fs)
    (hclosed : (closed || hasClose (f :: fs)) = (closed' || hasClose fs))
    (hdata : p.data ++ messageData (f :: fs) = p'.data ++ messageData fs)
    (hserved : Served maxSize client closed' next op fs rest rounds p' s') :
    Served maxSize client closed opcode op (f :: fs) rest (rounds + 1) p s where
  comes := by
    rw [recvLoop_next h, hclosed, hdata]
    exact hserved.comes
  starts := by
    rw [headReads_next h, hstarts, hin]
    intro input hmem
    rcases List.mem_cons.mp hmem with rfl | hmem
    · exact List.mem_cons_self
    · exact List.mem_cons_of_mem _ (hserved.starts input hmem)

theorem misled_next {p' : Partial} {s' : Stream} {f : Frame} {next : Nat} {closed' : Bool}
    (h : recvRound maxSize (!client) (rounds + 1) p s = .next p' s')
    (hin : s.input = wireOf client opcode (f :: fs) ++ rest)
    (hin' : s'.input.length < s.input.length)
    (hstarts : frameStarts client rest opcode (f :: fs) =
      (wireOf client opcode (f :: fs) ++ rest) :: frameStarts client rest next fs)
    (hclosed : (closed || hasClose (f :: fs)) = (closed' || hasClose fs))
    (hdata : p.data ++ messageData (f :: fs) = p'.data ++ messageData fs)
    (hmisled : Misled maxSize client closed' next op fs rest rounds p' s') :
    Misled maxSize client closed opcode op (f :: fs) rest (rounds + 1) p s := by
  rcases hmisled with hno | ⟨input, hmem, hle, hno⟩
  · left
    rwa [recvLoop_next h, hclosed, hdata]
  · right
    refine ⟨input, ?_, by omega, ?_⟩
    · rw [headReads_next h]
      exact List.mem_cons_of_mem _ hmem
    · rw [hstarts, ← hin]
      intro start hstart
      rcases List.mem_cons.mp hstart with rfl | hstart
      · omega
      · exact hno start hstart

/-- A frame with which the receiver ends. -/
theorem decided_ended {f : Frame} {result : Option (Option WSFrameMessage × Stream)} {good : Prop}
    (h : recvRound maxSize (!client) (rounds + 1) p s = .ended result)
    (hin : s.input = wireOf client opcode (f :: fs) ++ rest)
    (hgood : expected (closed || hasClose (f :: fs)) ⟨op, p.data ++ messageData (f :: fs)⟩ rest result ↔
      good) :
    (good → Served maxSize client closed opcode op (f :: fs) rest (rounds + 1) p s) ∧
    (¬good → Misled maxSize client closed opcode op (f :: fs) rest (rounds + 1) p s) := by
  have hloop := recvLoop_ended h
  constructor
  · intro hg
    refine ⟨?_, ?_⟩
    · rw [hloop]
      exact hgood.mpr hg
    · rw [headReads_ended h, hin]
      intro input hmem
      rw [List.mem_singleton.mp hmem]
      cases f <;> exact List.mem_cons_self
  · intro hg
    left
    rw [hloop, hgood]
    exact hg

theorem fate_accepted {n : Nat} (h : fate maxSize client c n = .accepted) :
    c < 2 ^ 31 ∧ n < 2 ^ 31 := by
  unfold fate at h
  split at h
  · cases h
  · split at h
    · cases h
    · split at h
      · cases h
      · omega

theorem expected_close {msg : WSFrameMessage} :
    expected closed msg rest (some (none, s.close)) ↔ closed = true := by
  cases closed with
  | false =>
    constructor
    · rintro ⟨s', h, -⟩
      cases h
    · intro h
      cases h
  | true => exact ⟨fun _ => rfl, fun _ => ⟨s.close, rfl, rfl⟩⟩

/-- The last fragment is delivered, which is right unless there was a CLOSE. -/
theorem expected_last {mask data : List UInt8} (hop : keptOpcode p opcode = op)
    (hin : s.input = wireOf client CONTINUE [] ++ rest) :
    expected (closed || hasClose [.fragment mask data])
        ⟨op, p.data ++ messageData [.fragment mask data]⟩ rest
        (some (some ⟨keptOpcode p opcode, p.data ++ data⟩, s)) ↔ closed = false := by
  have hdata : messageData [.fragment mask data] = data := List.append_nil data
  rw [hasClose_fragment, hop, hdata]
  cases closed with
  | false => exact ⟨fun _ => rfl, fun _ => ⟨s, rfl, hin⟩⟩
  | true =>
    constructor
    · rintro ⟨s', h, -⟩
      cases h
    · intro h
      cases h

/-- The receiver on the frames, from any point on: they come to what they should exactly when
they are harmless. The induction is on the frames that are left. -/
theorem recvFrames (hs : s.Reliable) (hwf : WellFormed fs) (hp : Holds p c) (hc : c < 2 ^ 32)
    (ho : opcode ≤ 2) (hop : keptOpcode p opcode = op) (hr : fs.length + 2 < rounds)
    (hin : s.input = wireOf client opcode fs ++ rest) :
    (Harmless maxSize client c closed fs →
      Served maxSize client closed opcode op fs rest rounds p s) ∧
    (¬Harmless maxSize client c closed fs →
      Misled maxSize client closed opcode op fs rest rounds p s) := by
  induction fs generalizing s opcode c p rounds closed with
  | nil => exact absurd hwf (by simp [WellFormed])
  | cons f fs ih =>
    obtain ⟨rounds, rfl⟩ : ∃ n, rounds = n + 1 := ⟨rounds - 1, by omega⟩
    rw [List.length_cons] at hr
    cases f with
    | control k =>
      obtain ⟨hk, htail⟩ := wellFormed_tail (tail_ne_nil hwf) hwf
      rw [Harmless]
      by_cases hbody : frameBody client k.mask k.payload = []
      · have hframe := length_frame client true k.opcode k.mask k.payload
        have hin₁ := hin
        rw [wireOf, List.append_assoc] at hin₁
        obtain ⟨s', hround, hs', hin'⟩ := @recvRound_control maxSize client (rounds + 1) s p _ hs
          (by omega) (!client) k hk hin₁
        rw [hbody, List.nil_append] at hin'
        have hshorter : s'.input.length < s.input.length := by
          rw [hin₁, hin']
          simp only [List.length_append]
          omega
        obtain ⟨hserved, hmisled⟩ :=
          @ih (closed || k.opcode == CLOSE) rounds opcode c p s' hs' htail hp hc ho hop (by omega) hin'
        have hclosed : (closed || hasClose (.control k :: fs)) =
            ((closed || k.opcode == CLOSE) || hasClose fs) := by
          rw [hasClose_control, Bool.or_assoc]
        constructor
        · rintro ⟨-, hrest⟩
          exact served_next hround hin rfl hclosed rfl (hserved hrest)
        · intro hno
          exact misled_next hround hin hshorter rfl hclosed rfl (hmisled fun h => hno ⟨hbody, h⟩)
      · constructor
        · rintro ⟨h, -⟩
          exact absurd h hbody
        · intro _
          exact misled_control hs (by omega) hk hbody hin
    | fragment mask data =>
      obtain ⟨hmask, hdata⟩ := wellFormed_head hwf
      have hin₁ := hin
      rw [wireOf, List.append_assoc] at hin₁
      obtain ⟨s₁, hs₁, hin₂, hround⟩ := @recvRound_data maxSize client (rounds + 1) s p _ hs (!client)
        fs.isEmpty opcode mask data ho hin₁
      rw [Harmless]
      cases hf : fate maxSize client c data.length with
      | accepted =>
        obtain ⟨s₂, hs₂, hin₃, hok⟩ := recvData_fate hs₁ hp hc fs.isEmpty opcode hmask hdata hin₂ hf
        rw [hok] at hround
        by_cases hne : fs = []
        · subst hne
          exact decided_ended hround hin (expected_last hop hin₃)
        · have hmore : fs.isEmpty = false := by simpa using hne
          rw [hmore, accepted, if_neg Bool.false_ne_true] at hround
          have hframe := length_frame client fs.isEmpty opcode mask data
          have hshorter : s₂.input.length < s.input.length := by
            rw [hin₁, hin₃]
            simp only [List.length_append]
            omega
          have hcount := fate_accepted hf
          have hkept : keptOpcode (extended p opcode data) CONTINUE = op := by
            simpa [keptOpcode, extended] using hop
          obtain ⟨hserved, hmisled⟩ := @ih closed rounds CONTINUE (c + data.length)
            (extended p opcode data) s₂ hs₂ (wellFormed_tail hne hwf).2
            (holds_extended hp opcode data) (by omega) (by decide) hkept (by omega) hin₃
          have hdata' : p.data ++ messageData (.fragment mask data :: fs) =
              (extended p opcode data).data ++ messageData fs :=
            (List.append_assoc _ _ _).symm
          rw [Fate.Allows, if_neg hne]
          exact ⟨fun h => served_next hround hin rfl rfl hdata' (hserved h),
            fun h => misled_next hround hin hshorter rfl rfl hdata' (hmisled h)⟩
      | refused =>
        obtain ⟨s₂, hfail⟩ := recvData_fate hs₁ hp hc fs.isEmpty opcode hmask hdata hin₂ hf
        rw [hfail] at hround
        exact decided_ended hround hin expected_close
      | wild =>
        have hwild := recvData_fate hs₁ hp hc fs.isEmpty opcode hmask hdata hin₂ hf
        rw [Comes] at hwild
        rw [hwild] at hround
        exact decided_ended hround hin (by simp [expected, Fate.Allows])

/-- On all the frames of a message. -/
theorem recvFrames_start (hs : s.Reliable) (hop : opcode = TEXT_FRAME ∨ opcode = BIN_FRAME)
    (hwf : WellFormed fs) (hr : fs.length + 2 < rounds)
    (hin : s.input = wireOf client opcode fs ++ rest) :
    (Harmless maxSize client 0 false fs →
      Served maxSize client false opcode opcode fs rest rounds {} s) ∧
    (¬Harmless maxSize client 0 false fs →
      Misled maxSize client false opcode opcode fs rest rounds {} s) := by
  have hcode : opcode ≤ 2 ∧ opcode ≠ CONTINUE := by
    rcases hop with rfl | rfl <;> decide
  have hkept : keptOpcode {} opcode = opcode := if_pos ⟨rfl, hcode.2⟩
  exact recvFrames hs hwf ⟨rfl, rfl⟩ (by decide) hcode.1 hkept hr hin

theorem undisturbed_of_harmless (hs : s.Reliable) (hop : opcode = TEXT_FRAME ∨ opcode = BIN_FRAME)
    (hwf : WellFormed fs) (hin : s.input = wireOf client opcode fs ++ rest)
    (h : Harmless maxSize client 0 false fs) : Undisturbed maxSize client opcode fs rest s := by
  refine ⟨fs.length + 3, fun rounds hr => ?_⟩
  have hserved := (recvFrames_start hs hop hwf (show fs.length + 2 < rounds by omega) hin).1 h
  exact ⟨hserved.comes, hserved.starts⟩

theorem not_undisturbed (hs : s.Reliable) (hop : opcode = TEXT_FRAME ∨ opcode = BIN_FRAME)
    (hwf : WellFormed fs) (hin : s.input = wireOf client opcode fs ++ rest)
    (h : ¬Harmless maxSize client 0 false fs) : ¬Undisturbed maxSize client opcode fs rest s := by
  rintro ⟨enough, hall⟩
  have hmisled := (recvFrames_start hs hop hwf
    (show fs.length + 2 < enough + fs.length + 3 by omega) hin).2 h
  obtain ⟨hcomes, hstarts⟩ := hall (enough + fs.length + 3) (by omega)
  exact hmisled.not_served ⟨hcomes, hstarts⟩

end Frames

theorem undisturbed_iff_harmless (maxSize : UInt32) (client : Bool) (opcode : Nat) (fs : List Frame)
    (rest : List UInt8) (s : Stream) (hs : s.Reliable)
    (hop : opcode = TEXT_FRAME ∨ opcode = BIN_FRAME) (hwf : WellFormed fs)
    (hin : s.input = wireOf client opcode fs ++ rest) :
    Undisturbed maxSize client opcode fs rest s ↔ Harmless maxSize client 0 false fs := by
  constructor
  · intro h
    by_contra hno
    exact not_undisturbed hs hop hwf hin hno h
  · exact undisturbed_of_harmless hs hop hwf hin

/-- Bytes that arrive three at a time. -/
def arriving (input : List UInt8) : Stream := { steady 3 with input := input }

theorem arriving_reliable (input : List UInt8) : (arriving input).Reliable :=
  ⟨rfl, fun _ => show 0 < (3 : Int32).toInt by decide, fun _ => show 0 < (3 : Int32).toInt by decide⟩

def pinged : List Frame :=
  [.fragment [0, 0, 0, 0] [104], .control ⟨PING, [0, 0, 0, 0], []⟩, .fragment [0, 0, 0, 0] [105]]

/-- A PING with neither mask nor payload, between two fragments from a server. -/
theorem undisturbed_empty_ping :
    Undisturbed 1000 false TEXT_FRAME pinged [255] (arriving [1, 1, 104, 137, 0, 128, 1, 105, 255]) :=
  have hwf : WellFormed pinged :=
    ⟨⟨rfl, by decide⟩, ⟨.inr (.inl rfl), rfl, by decide⟩, rfl, by decide⟩
  have hfate : fate 1000 false 0 1 = .accepted ∧ fate 1000 false 1 1 = .accepted := by decide
  (undisturbed_iff_harmless 1000 false TEXT_FRAME pinged [255] _ (arriving_reliable _) (.inl rfl) hwf
    (by decide)).mpr (by simp [pinged, Harmless, Fate.Allows, hfate, frameBody, CLOSE, PING])

/-- A PING from a client, of which the mask is read as heads. -/
theorem not_undisturbed_masked_ping :
    ¬Undisturbed 1000 true TEXT_FRAME
      [.control ⟨PING, [1, 2, 3, 4], []⟩, .fragment [1, 2, 3, 4] [104]] []
      (arriving [137, 128, 1, 2, 3, 4, 129, 129, 1, 2, 3, 4, 105]) :=
  not_undisturbed (arriving_reliable _) (.inl rfl)
    ⟨⟨.inr (.inl rfl), rfl, by decide⟩, rfl, by decide⟩ (by decide)
    (fun h => absurd h.1 (by decide))

end CxkFramework.WebSocket
