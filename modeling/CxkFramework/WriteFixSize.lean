import CxkFramework.HttpResponseText
import CxkFramework.Stream

/-!
# Whole writes

`Stream::writeFixSize` over every behaviour of `write`, and the messages sent with it. The result of
a call is kept in a `size_t`: a negative one is not seen, and moves the loop back.
-/

namespace CxkFramework

open Blocks

namespace Stream

/-- What the `k`-th call from here on is ready to answer. -/
def answer (s : Stream) (k : Nat) : Int :=
  if s.closed then -1 else (s.writePlan (s.writes + k)).toInt

/-- The positions of the buffer that the calls of the loop accept, in their order. -/
def accepted (buffer : List UInt8) : Nat → Stream → Nat → Nat → List Nat
  | 0, _, _, _ => []
  | rounds + 1, s, offset, left =>
    if left = 0 ∨ buffer.length < offset + left then []
    else
      let (rt, s) := s.write (slice buffer offset left)
      let len := (rt % 2 ^ 64).toNat
      if len = 0 then []
      else List.range' offset rt.toNat ++
        accepted buffer rounds s ((offset + len) % 2 ^ 64) ((left + 2 ^ 64 - len) % 2 ^ 64)

/-- The call comes to an end inside of the buffer, with its length exactly if every byte was accepted
once and in order, and with nothing positive else. -/
def AllOrError (s : Stream) (buffer : List UInt8) : Prop :=
  ∃ rounds rt s', s.writeFixSize rounds buffer = some (rt, s') ∧
    (rt = buffer.length ↔ accepted buffer rounds s 0 buffer.length = List.range buffer.length) ∧
    (rt = buffer.length ∨ rt ≤ 0)

/-! ## The loop over the answers -/

/-- The loop over what the calls answer, from an offset on: the positions accepted and the result. -/
inductive Loop (size : Nat) : (Nat → Int) → Nat → List Nat → Nat → Prop
  | done {w : Nat → Int} : Loop size w size [] size
  | zero {w : Nat → Int} {offset : Nat} : offset < size → w 0 = 0 → Loop size w offset [] 0
  | sent {w : Nat → Int} {offset rt : Nat} {ps : List Nat} : offset < size → 0 < w 0 →
      Loop size (fun k => w (k + 1)) (offset + min (w 0).toNat (size - offset)) ps rt →
      Loop size w offset (List.range' offset (min (w 0).toNat (size - offset)) ++ ps) rt
  | back {w : Nat → Int} {offset rt : Nat} {ps : List Nat} : offset < size → w 0 < 0 →
      -w 0 ≤ offset → Loop size (fun k => w (k + 1)) (offset - (-w 0).toNat) ps rt →
      Loop size w offset ps rt

/-- Every call accepts something until all is sent. -/
inductive Sends (size : Nat) : (Nat → Int) → Nat → Prop
  | done {w : Nat → Int} : Sends size w size
  | sent {w : Nat → Int} {offset : Nat} : offset < size → 0 < w 0 →
      Sends size (fun k => w (k + 1)) (offset + min (w 0).toNat (size - offset)) →
      Sends size w offset

/-- A call answers zero before the end is reached; no negative answer until then is larger than what
lies before the offset. -/
inductive Refused (size : Nat) : (Nat → Int) → Nat → Prop
  | zero {w : Nat → Int} {offset : Nat} : offset < size → w 0 = 0 → Refused size w offset
  | sent {w : Nat → Int} {offset : Nat} : offset < size → 0 < w 0 →
      Refused size (fun k => w (k + 1)) (offset + min (w 0).toNat (size - offset)) →
      Refused size w offset
  | back {w : Nat → Int} {offset : Nat} : offset < size → w 0 < 0 → -w 0 ≤ offset →
      Refused size (fun k => w (k + 1)) (offset - (-w 0).toNat) → Refused size w offset

variable {size offset rt : Nat} {w : Nat → Int} {ps : List Nat}

theorem Loop.le (h : Loop size w offset ps rt) : offset ≤ size := by
  cases h <;> omega

/-- The first position is not behind the offset. -/
theorem Loop.head_le (h : Loop size w offset ps rt) : ∀ p ∈ ps.head?, p ≤ offset := by
  induction h with
  | done => simp
  | zero => simp
  | @sent w offset rt ps hlt hpos _ _ =>
    obtain ⟨n, hn⟩ : ∃ n, min (w 0).toNat (size - offset) = n + 1 :=
      Nat.exists_eq_succ_of_ne_zero (by omega)
    simp [hn, List.range'_succ]
  | back _ _ _ _ ih =>
    intro p hp
    have hle := ih p hp
    omega

/-- All positions in order, or a call that went back. -/
theorem Loop.range_iff (h : Loop size w offset ps rt) :
    ps = List.range' offset (size - offset) ↔ Sends size w offset := by
  induction h with
  | done => simpa using Sends.done
  | @zero w offset hlt hzero =>
    constructor
    · intro h
      have hlength := congrArg List.length h
      simp at hlength
      omega
    · intro h
      cases h with
      | done => omega
      | sent _ hpos => omega
  | @sent w offset rt ps hlt hpos hrest ih =>
    have hsplit : List.range' offset (size - offset) =
        List.range' offset (min (w 0).toNat (size - offset)) ++
          List.range' (offset + min (w 0).toNat (size - offset))
            (size - (offset + min (w 0).toNat (size - offset))) := by
      rw [List.range'_append_1]
      congr 1
      omega
    rw [hsplit, List.append_cancel_left_eq, ih]
    constructor
    · exact Sends.sent hlt hpos
    · intro h
      cases h with
      | done => omega
      | sent _ _ h => exact h
  | @back w offset rt ps hlt hneg hle hrest _ =>
    constructor
    · intro h
      obtain ⟨n, hn⟩ : ∃ n, size - offset = n + 1 := Nat.exists_eq_succ_of_ne_zero (by omega)
      have hhead := hrest.head_le offset (by simp [h, hn, List.range'_succ])
      omega
    · intro h
      cases h with
      | done => omega
      | sent _ hpos => omega

theorem Loop.range_start_iff (h : Loop size w 0 ps rt) :
    ps = List.range size ↔ Sends size w 0 := by
  rw [List.range_eq_range']
  exact h.range_iff

theorem Loop.result (h : Loop size w offset ps rt) : rt = size ∨ rt = 0 ∧ Refused size w offset := by
  induction h with
  | done => exact .inl rfl
  | zero hlt hzero => exact .inr ⟨rfl, .zero hlt hzero⟩
  | sent hlt hpos _ ih =>
    cases ih with
    | inl h => exact .inl h
    | inr h => exact .inr ⟨h.1, .sent hlt hpos h.2⟩
  | back hlt hneg hle _ ih =>
    cases ih with
    | inl h => exact .inl h
    | inr h => exact .inr ⟨h.1, .back hlt hneg hle h.2⟩

theorem Sends.loop (h : Sends size w offset) : ∃ ps, Loop size w offset ps size := by
  induction h with
  | done => exact ⟨[], .done⟩
  | sent hlt hpos _ ih =>
    obtain ⟨ps, hps⟩ := ih
    exact ⟨_, .sent hlt hpos hps⟩

theorem Refused.loop (h : Refused size w offset) : ∃ ps, Loop size w offset ps 0 := by
  induction h with
  | zero hlt hzero => exact ⟨[], .zero hlt hzero⟩
  | sent hlt hpos _ ih =>
    obtain ⟨ps, hps⟩ := ih
    exact ⟨_, .sent hlt hpos hps⟩
  | back hlt hneg hle _ ih =>
    obtain ⟨ps, hps⟩ := ih
    exact ⟨ps, .back hlt hneg hle hps⟩

theorem Refused.lt (h : Refused size w offset) : offset < size := by
  cases h <;> assumption

theorem Refused.not_sends (h : Refused size w offset) : ¬Sends size w offset := by
  induction h with
  | zero =>
    rintro (_ | _) <;> omega
  | sent hlt _ _ ih =>
    rintro (_ | ⟨_, _, h⟩)
    · omega
    · exact ih h
  | back =>
    rintro (_ | _) <;> omega

/-! ## The loop of the code -/

theorem answer_bounds (s : Stream) (k : Nat) : -2 ^ 31 ≤ s.answer k ∧ s.answer k < 2 ^ 31 := by
  rw [answer]
  split
  · omega
  · exact ⟨Int32.le_toInt _, Int32.toInt_lt _⟩

/-- One call: what it answers, and what the next ones are ready to answer. -/
theorem write_cases (s : Stream) (b : List UInt8) :
    ∃ rt s', s.write b = (rt, s') ∧ s'.answer = (fun k => s.answer (k + 1)) ∧
      (s.answer 0 ≤ 0 ∧ rt = s.answer 0 ∨
        0 < s.answer 0 ∧ rt = (min (s.answer 0).toNat b.length : Nat)) := by
  by_cases hclosed : s.closed = true
  · refine ⟨-1, s, by rw [write, if_pos hclosed], ?_, .inl ?_⟩
    · funext k
      simp [answer, hclosed]
    · simp [answer, hclosed]
  · have hanswer : s.answer 0 = (s.writePlan s.writes).toInt := by simp [answer, hclosed]
    have hnext {s' : Stream} (hc : s'.closed = s.closed) (hp : s'.writePlan = s.writePlan)
        (hw : s'.writes = s.writes + 1) : s'.answer = fun k => s.answer (k + 1) := by
      funext k
      simp only [answer, hc, hp, hw, Nat.add_assoc, Nat.add_comm 1 k]
    by_cases hplan : (s.writePlan s.writes).toInt ≤ 0
    · refine ⟨(s.writePlan s.writes).toInt, { s with writes := s.writes + 1 }, ?_,
        hnext rfl rfl rfl, .inl ⟨by rwa [hanswer], hanswer.symm⟩⟩
      simp only [write, hclosed, Bool.false_eq_true, if_false, hplan, if_true]
    · refine ⟨_, { s with
          writes := s.writes + 1
          output := s.output ++ b.take (s.writePlan s.writes).toInt.toNat }, ?_,
        hnext rfl rfl rfl, .inr ⟨by omega, rfl⟩⟩
      simp only [write, hclosed, Bool.false_eq_true, if_false, hplan, List.length_take, hanswer]

variable {buffer : List UInt8} {s s' : Stream}

/-- A round that goes on inside of the buffer. -/
theorem writeLoop_step {rounds left : Nat} {rt : Int} (hleft : 0 < left)
    (hsum : offset + left = buffer.length) (hsize : buffer.length < 2 ^ 31)
    (hwrite : s.write (slice buffer offset left) = (rt, s')) (hne : rt ≠ 0) (hlow : -2 ^ 31 ≤ rt)
    (hhigh : rt ≤ left) (hback : -rt ≤ offset) :
    writeLoop buffer (rounds + 1) s offset left =
        writeLoop buffer rounds s' (offset + rt).toNat (left - rt).toNat ∧
      accepted buffer (rounds + 1) s offset left = List.range' offset rt.toNat ++
        accepted buffer rounds s' (offset + rt).toNat (left - rt).toNat := by
  have hlen : (rt % 2 ^ 64).toNat ≠ 0 := by omega
  have hoffset : (offset + (rt % 2 ^ 64).toNat) % 2 ^ 64 = (offset + rt).toNat := by omega
  have hrest : (left + 2 ^ 64 - (rt % 2 ^ 64).toNat) % 2 ^ 64 = (left - rt).toNat := by omega
  constructor
  · rw [writeLoop, if_neg (by omega), if_neg (by omega), hwrite]
    simp only [hlen, if_false, hoffset, hrest]
  · rw [accepted, if_neg (by omega), hwrite]
    simp only [hlen, if_false, hoffset, hrest]

theorem writeLoop_zero {rounds left : Nat} (hleft : 0 < left)
    (hsum : offset + left = buffer.length)
    (hwrite : s.write (slice buffer offset left) = (0, s')) :
    writeLoop buffer (rounds + 1) s offset left = some (some 0, s') ∧
      accepted buffer (rounds + 1) s offset left = [] := by
  constructor
  · rw [writeLoop, if_neg (by omega), if_neg (by omega), hwrite]
    rfl
  · rw [accepted, if_neg (by omega), hwrite]
    rfl

/-- A call that goes back behind the start of the buffer leaves it. -/
theorem writeLoop_out {rounds left : Nat} {rt : Int} (hleft : 0 < left)
    (hsum : offset + left = buffer.length) (hsize : buffer.length < 2 ^ 31)
    (hwrite : s.write (slice buffer offset left) = (rt, s')) (hlow : -2 ^ 31 ≤ rt)
    (hback : (offset : Int) < -rt) : writeLoop buffer (rounds + 1) s offset left = none := by
  have hlen : (rt % 2 ^ 64).toNat ≠ 0 := by omega
  rw [writeLoop, if_neg (by omega), if_neg (by omega), hwrite]
  simp only [hlen, if_false]
  cases rounds with
  | zero => rfl
  | succ rounds => rw [writeLoop, if_neg (by omega), if_pos (by omega)]

theorem length_slice_left {left : Nat} (hsum : offset + left = buffer.length) :
    (slice buffer offset left).length = left := by
  rw [slice, List.length_take, List.length_drop]
  omega

/-- The loop over the answers comes to an end, and the one of the code with it. -/
theorem Loop.writeLoop (h : Loop buffer.length w offset ps rt) (hsize : buffer.length < 2 ^ 31) :
    ∀ s : Stream, s.answer = w → ∃ rounds stop s',
      Stream.writeLoop buffer rounds s offset (buffer.length - offset) = some (stop, s') ∧
        stop.getD buffer.length = (rt : Int) := by
  induction h with
  | done =>
    intro s _
    exact ⟨1, none, s, by rw [Stream.writeLoop, if_pos (by omega)], rfl⟩
  | @zero w offset hlt hzero =>
    intro s hs
    obtain ⟨rt, s', hwrite, -, ⟨-, rfl⟩ | ⟨hpos, -⟩⟩ :=
      write_cases s (slice buffer offset (buffer.length - offset))
    · rw [hs, hzero] at hwrite
      exact ⟨1, some 0, s', (writeLoop_zero (by omega) (by omega) hwrite).1, rfl⟩
    · rw [hs] at hpos
      omega
  | @sent w offset rt ps hlt hpos _ ih =>
    intro s hs
    obtain ⟨n, s', hwrite, hnext, ⟨hneg, -⟩ | ⟨-, rfl⟩⟩ :=
      write_cases s (slice buffer offset (buffer.length - offset))
    · rw [hs] at hneg
      omega
    · rw [hs] at hnext hwrite
      rw [length_slice_left (by omega)] at hwrite
      obtain ⟨rounds, stop, s'', hloop, hstop⟩ := ih s' hnext
      refine ⟨rounds + 1, stop, s'', ?_, hstop⟩
      rw [(writeLoop_step (by omega) (by omega) hsize hwrite (by omega) (by omega) (by omega)
        (by omega)).1, ← hloop]
      congr 1
      omega
  | @back w offset rt ps hlt hneg hle _ ih =>
    intro s hs
    obtain ⟨n, s', hwrite, hnext, ⟨-, rfl⟩ | ⟨hpos, -⟩⟩ :=
      write_cases s (slice buffer offset (buffer.length - offset))
    · have hlow := (answer_bounds s 0).1
      rw [hs] at hnext hwrite hlow
      obtain ⟨rounds, stop, s'', hloop, hstop⟩ := ih s' hnext
      refine ⟨rounds + 1, stop, s'', ?_, hstop⟩
      rw [(writeLoop_step (by omega) (by omega) hsize hwrite (by omega) hlow (by omega) hle).1,
        ← hloop]
      congr 1 <;> omega
    · rw [hs] at hpos
      omega

/-- What the loop of the code comes to is what the loop over the answers comes to. -/
theorem loop_of_writeLoop {rounds : Nat} {stop : Option Int} (hsize : buffer.length < 2 ^ 31)
    (hle : offset ≤ buffer.length)
    (h : Stream.writeLoop buffer rounds s offset (buffer.length - offset) = some (stop, s')) :
    ∃ rt, Loop buffer.length s.answer offset
        (accepted buffer rounds s offset (buffer.length - offset)) rt ∧
      stop.getD buffer.length = (rt : Int) := by
  induction rounds generalizing s offset with
  | zero => cases h
  | succ rounds ih =>
    by_cases hdone : offset = buffer.length
    · subst hdone
      rw [Stream.writeLoop, if_pos (by omega)] at h
      cases h
      rw [accepted, if_pos (by omega)]
      exact ⟨buffer.length, .done, rfl⟩
    · have hlt : offset < buffer.length := by omega
      obtain ⟨n, s₁, hwrite, hnext, ⟨hnonpos, rfl⟩ | ⟨hpos, rfl⟩⟩ :=
        write_cases s (slice buffer offset (buffer.length - offset))
      · have hlow := (answer_bounds s 0).1
        by_cases hzero : s.answer 0 = 0
        · rw [hzero] at hwrite
          obtain ⟨hloop, hacc⟩ := @writeLoop_zero offset buffer s s₁ rounds _ (by omega) (by omega)
            hwrite
          rw [hloop] at h
          cases h
          rw [hacc]
          exact ⟨0, .zero hlt hzero, rfl⟩
        · by_cases hback : -s.answer 0 ≤ offset
          · obtain ⟨hloop, hacc⟩ := @writeLoop_step offset buffer s s₁ rounds _ _ (by omega)
              (by omega) hsize hwrite hzero hlow (by omega) hback
            have hoffset : ((offset : Int) + s.answer 0).toNat = offset - (-s.answer 0).toNat := by
              omega
            have hleft : (((buffer.length - offset : Nat) : Int) - s.answer 0).toNat =
                buffer.length - (offset - (-s.answer 0).toNat) := by
              omega
            have hnone : List.range' offset (s.answer 0).toNat = [] := by
              rw [Int.toNat_of_nonpos hnonpos]
              rfl
            rw [hloop, hoffset, hleft] at h
            obtain ⟨rt, hrest, hstop⟩ := ih (by omega) h
            rw [hnext] at hrest
            rw [hacc, hoffset, hleft, hnone, List.nil_append]
            exact ⟨rt, .back hlt (by omega) hback hrest, hstop⟩
          · rw [writeLoop_out (by omega) (by omega) hsize hwrite hlow (by omega)] at h
            cases h
      · rw [length_slice_left (by omega)] at hwrite
        obtain ⟨hloop, hacc⟩ := @writeLoop_step offset buffer s s₁ rounds _ _ (by omega)
          (by omega) hsize hwrite (by omega) (by omega) (by omega) (by omega)
        have hoffset : ((offset : Int) +
            (min (s.answer 0).toNat (buffer.length - offset) : Nat)).toNat =
            offset + min (s.answer 0).toNat (buffer.length - offset) := by
          omega
        have hleft : (((buffer.length - offset : Nat) : Int) -
            (min (s.answer 0).toNat (buffer.length - offset) : Nat)).toNat =
            buffer.length - (offset + min (s.answer 0).toNat (buffer.length - offset)) := by
          omega
        rw [hloop, hoffset, hleft] at h
        obtain ⟨rt, hrest, hstop⟩ := ih (by omega) h
        rw [hnext] at hrest
        rw [hacc, hoffset, hleft, Int.toNat_natCast]
        exact ⟨rt, .sent hlt hpos hrest, hstop⟩

theorem Loop.rt_le (h : Loop size w offset ps rt) : rt ≤ size := by
  obtain h | h := h.result <;> omega

/-- What `writeFixSize` makes of the end of its loop. -/
theorem writeFixSize_stop {rounds : Nat} {stop : Option Int}
    (h : Stream.writeLoop buffer rounds s 0 buffer.length = some (stop, s')) :
    s.writeFixSize rounds buffer = some (stop.getD buffer.length |> toInt, s') := by
  rw [writeFixSize, h]
  cases stop <;> rfl

/-- The call returns what the loop over the answers ends with. -/
theorem Loop.writeFixSize (h : Loop buffer.length s.answer 0 ps rt)
    (hsize : buffer.length < 2 ^ 31) :
    ∃ rounds s', s.writeFixSize rounds buffer = some ((rt : Int), s') := by
  obtain ⟨rounds, stop, s', hloop, hstop⟩ := h.writeLoop hsize s rfl
  have hrt := h.rt_le
  have hreturn := writeFixSize_stop hloop
  rw [hstop, toInt_of_lt (by omega) (by omega)] at hreturn
  exact ⟨rounds, s', hreturn⟩

theorem loop_of_writeFixSize {rounds : Nat} {n : Int} (hsize : buffer.length < 2 ^ 31)
    (h : s.writeFixSize rounds buffer = some (n, s')) :
    ∃ rt, Loop buffer.length s.answer 0 (accepted buffer rounds s 0 buffer.length) rt ∧
      n = rt := by
  cases hloop : Stream.writeLoop buffer rounds s 0 buffer.length with
  | none =>
    rw [Stream.writeFixSize, hloop] at h
    cases h
  | some result =>
    obtain ⟨stop, s₁⟩ := result
    obtain ⟨rt, hrun, hstop⟩ := loop_of_writeLoop hsize (Nat.zero_le buffer.length) hloop
    have hrt := hrun.rt_le
    rw [writeFixSize_stop hloop, hstop, toInt_of_lt (by omega) (by omega)] at h
    cases h
    exact ⟨rt, hrun, rfl⟩

/-- A call is all or error if and only if every call of `write` accepts something until all is sent,
or one of them answers zero before and none goes back behind the start. -/
theorem allOrError_iff (hpos : 0 < buffer.length) (hsize : buffer.length < 2 ^ 31) :
    AllOrError s buffer ↔
      Sends buffer.length s.answer 0 ∨ Refused buffer.length s.answer 0 := by
  constructor
  · rintro ⟨rounds, n, s', hrun, hall, -⟩
    obtain ⟨rt, hloop, rfl⟩ := loop_of_writeFixSize hsize hrun
    obtain rfl | ⟨-, hrefused⟩ := hloop.result
    · exact .inl (hloop.range_start_iff.mp (hall.mp rfl))
    · exact .inr hrefused
  · have hreturns {rt : Nat} {ps : List Nat} (h : Loop buffer.length s.answer 0 ps rt)
        (hsends : rt = buffer.length ↔ Sends buffer.length s.answer 0)
        (hrt : rt = buffer.length ∨ rt = 0) : AllOrError s buffer := by
      obtain ⟨rounds, s', hrun⟩ := h.writeFixSize hsize
      obtain ⟨rt', hloop, hsame⟩ := loop_of_writeFixSize hsize hrun
      refine ⟨rounds, rt, s', hrun, ?_, by omega⟩
      rw [hloop.range_start_iff, ← hsends]
      omega
    rintro (hsends | hrefused)
    · obtain ⟨ps, hloop⟩ := hsends.loop
      exact hreturns hloop (by simp [hsends]) (.inl rfl)
    · obtain ⟨ps, hloop⟩ := hrefused.loop
      exact hreturns hloop ⟨fun h => by omega, fun h => absurd h hrefused.not_sends⟩ (.inr rfl)

end Stream

/-! ## Messages -/

/-- The call returns, and a positive result means that the whole message was written, every byte
once and in order. -/
def SendsWhole (run : Nat → Option (Int × Stream)) (s : Stream) (message : List UInt8) : Prop :=
  ∃ rounds rt s', run rounds = some (rt, s') ∧
    (0 < rt → Stream.accepted message rounds s 0 message.length = List.range message.length)

/-- `HttpConnection::sendRequest`: what `writeFixSize` returns is not looked at. -/
def HttpConnection.sendRequest (req : HttpRequest) (websocket : Bool) (rounds : Nat) (s : Stream) :
    Option (Int × Stream) :=
  (s.writeFixSize rounds (req.toString websocket)).map fun r =>
    (toInt (req.toString websocket).length, r.2)

namespace Stream

theorem sendResponse_iff {rsp : HttpResponse} {close websocket : Bool} {s : Stream}
    (hsize : (rsp.toString close websocket).length < 2 ^ 31) :
    SendsWhole (HttpSession.sendResponse rsp close websocket · s) s
        (rsp.toString close websocket) ↔
      Sends (rsp.toString close websocket).length s.answer 0 ∨
        Refused (rsp.toString close websocket).length s.answer 0 := by
  simp only [SendsWhole, HttpSession.sendResponse]
  generalize rsp.toString close websocket = message at hsize ⊢
  constructor
  · rintro ⟨rounds, n, s', hrun, hwhole⟩
    obtain ⟨rt, hloop, rfl⟩ := loop_of_writeFixSize hsize hrun
    obtain hrt | ⟨-, hrefused⟩ := hloop.result
    · by_cases hpos : 0 < rt
      · exact .inl (hloop.range_start_iff.mp (hwhole (by omega)))
      · have hzero : message.length = 0 := by omega
        rw [hzero]
        exact .inl .done
    · exact .inr hrefused
  · rintro (hsends | hrefused)
    · obtain ⟨ps, hloop⟩ := hsends.loop
      obtain ⟨rounds, s', hrun⟩ := hloop.writeFixSize hsize
      obtain ⟨rt, hloop', -⟩ := loop_of_writeFixSize hsize hrun
      exact ⟨rounds, _, s', hrun, fun _ => hloop'.range_start_iff.mpr hsends⟩
    · obtain ⟨ps, hloop⟩ := hrefused.loop
      obtain ⟨rounds, s', hrun⟩ := hloop.writeFixSize hsize
      exact ⟨rounds, _, s', hrun, fun hpos => absurd hpos (by simp)⟩

theorem toString_ne_nil (req : HttpRequest) (websocket : Bool) : req.toString websocket ≠ [] := by
  simp [HttpRequest.toString, HttpRequest.dump]

theorem sendRequest_iff {req : HttpRequest} {websocket : Bool} {s : Stream}
    (hsize : (req.toString websocket).length < 2 ^ 31) :
    SendsWhole (HttpConnection.sendRequest req websocket · s) s (req.toString websocket) ↔
      Sends (req.toString websocket).length s.answer 0 := by
  have hpos := List.length_pos_iff.mpr (toString_ne_nil req websocket)
  simp only [SendsWhole, HttpConnection.sendRequest]
  generalize req.toString websocket = message at hsize hpos ⊢
  have hlength : toInt message.length = message.length := toInt_of_lt (by omega) (by omega)
  rw [hlength]
  constructor
  · rintro ⟨rounds, n, s', hrun, hwhole⟩
    obtain ⟨⟨rt, s₁⟩, hwrite, hsame⟩ := Option.map_eq_some_iff.mp hrun
    cases hsame
    obtain ⟨rt, hloop, rfl⟩ := loop_of_writeFixSize hsize hwrite
    exact hloop.range_start_iff.mp (hwhole (by omega))
  · intro hsends
    obtain ⟨ps, hloop⟩ := hsends.loop
    obtain ⟨rounds, s', hrun⟩ := hloop.writeFixSize hsize
    obtain ⟨rt, hloop', -⟩ := loop_of_writeFixSize hsize hrun
    exact ⟨rounds, _, s', by rw [hrun]; rfl, fun _ => hloop'.range_start_iff.mpr hsends⟩

/-- When a call is all or error, when a response is known to be written whole, and when a request
is. -/
theorem writes_whole_iff {s : Stream} {buffer : List UInt8} (hpos : 0 < buffer.length)
    (hbuffer : buffer.length < 2 ^ 31) {rsp : HttpResponse} {close websocket : Bool}
    (hrsp : (rsp.toString close websocket).length < 2 ^ 31) {req : HttpRequest}
    (hreq : (req.toString websocket).length < 2 ^ 31) :
    (AllOrError s buffer ↔ Sends buffer.length s.answer 0 ∨ Refused buffer.length s.answer 0) ∧
      (SendsWhole (HttpSession.sendResponse rsp close websocket · s) s
          (rsp.toString close websocket) ↔
        Sends (rsp.toString close websocket).length s.answer 0 ∨
          Refused (rsp.toString close websocket).length s.answer 0) ∧
      (SendsWhole (HttpConnection.sendRequest req websocket · s) s (req.toString websocket) ↔
        Sends (req.toString websocket).length s.answer 0) :=
  ⟨allOrError_iff hpos hbuffer, sendResponse_iff hrsp, sendRequest_iff hreq⟩

/-- A stream whose calls answer by the plan. -/
def planned (plan : Nat → Int32) : Stream where
  input := []
  output := []
  readPlan := plan
  writePlan := plan
  reads := 0
  writes := 0
  closed := false

theorem writes_whole_iff_init :
    (AllOrError (planned fun _ => 2) [1, 2, 3] ↔
        Sends 3 (planned fun _ => 2).answer 0 ∨ Refused 3 (planned fun _ => 2).answer 0) ∧
      (SendsWhole (HttpSession.sendResponse .init true false · (planned fun _ => 2))
          (planned fun _ => 2) (HttpResponse.init.toString true false) ↔
        Sends (HttpResponse.init.toString true false).length (planned fun _ => 2).answer 0 ∨
          Refused (HttpResponse.init.toString true false).length (planned fun _ => 2).answer 0) ∧
      (SendsWhole (HttpConnection.sendRequest .init false · (planned fun _ => 2))
          (planned fun _ => 2) (HttpRequest.init.toString false) ↔
        Sends (HttpRequest.init.toString false).length (planned fun _ => 2).answer 0) :=
  writes_whole_iff (by decide) (by decide) (by decide) (by decide)

/-- Two bytes are sent, a call fails, and the rest is sent: the second byte twice. A request of which
nothing is sent counts as sent. -/
theorem failed_call_unseen :
    ((planned fun k => if k = 1 then -1 else if k = 0 then 2 else 100).writeFixSize 4
        [1, 2, 3, 4]).map (fun r => (r.1, r.2.output)) = some (4, [1, 2, 2, 3, 4]) ∧
      ¬AllOrError (planned fun k => if k = 1 then -1 else if k = 0 then 2 else 100) [1, 2, 3, 4] ∧
      (HttpConnection.sendRequest .init false 1 (planned fun _ => 0)).map
        (fun r => (r.1, r.2.output)) = some (37, []) := by
  have hanswer (k : Nat) : (planned fun k => if k = 1 then -1 else if k = 0 then 2 else 100).answer k =
      if k = 1 then -1 else if k = 0 then 2 else 100 := by
    simp only [answer, planned, Bool.false_eq_true, if_false, Nat.zero_add]
    split
    · rfl
    · split <;> rfl
  refine ⟨by decide, ?_, by decide⟩
  rw [allOrError_iff (by decide) (by decide)]
  rintro (hsends | hrefused)
  · cases hsends with
    | sent _ _ h =>
      cases h with
      | sent _ hpos => simp [hanswer] at hpos
  · cases hrefused with
    | zero _ hzero => simp [hanswer] at hzero
    | back _ hneg => simp [hanswer] at hneg
    | sent _ _ h =>
      cases h with
      | zero _ hzero => simp [hanswer] at hzero
      | sent _ hpos => simp [hanswer] at hpos
      | back _ _ _ h =>
        cases h with
        | zero _ hzero => simp [hanswer] at hzero
        | back _ hneg => simp [hanswer] at hneg
        | sent _ _ h =>
          have hlt := h.lt
          simp [hanswer] at hlt

end Stream

end CxkFramework
