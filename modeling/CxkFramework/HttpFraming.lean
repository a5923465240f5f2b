import CxkFramework.HttpConnection

/-!
# Where a body ends

A body of announced length of which some bytes come in the read that brings the end of the header.
`recvRequest` and `recvResponse` take the bytes of the body and no more, unless the read brought
bytes from behind the body: the difference of the lengths wraps around, and what the read brought
is lost with the local buffer in any case.
-/

namespace CxkFramework

open Scanner Blocks HttpClientParser

/-- `k` bytes in the first read behind the header do not stand in the way of a body of `n`. The
last `n - k` bytes are counted as an `int`. -/
def BodyFits (n k : Nat) : Prop := k ≤ n ∧ n < 2 ^ 63 ∧ (n = k ∨ 0 < toInt ((n - k : Nat) : Int))

instance (n k : Nat) : Decidable (BodyFits n k) :=
  inferInstanceAs (Decidable (k ≤ n ∧ n < 2 ^ 63 ∧ (n = k ∨ 0 < toInt ((n - k : Nat) : Int))))

namespace HttpConnection

open HttpSession (copied remaining)

section Body

variable {body next data : List UInt8} {s : Stream}

theorem remaining_of_gt {length offset : Nat} (h : length < offset) (ho : offset ≤ 2 ^ 64) :
    remaining length offset = 2 ^ 64 - (offset - length) := by
  rw [remaining]
  omega

/-- The bytes that came with the header are the front of the body, and the others are read. -/
theorem recvBody_fits (hs : s.Reliable) (hsplit : body ++ next = data ++ s.input) (hne : body ≠ [])
    (h : BodyFits body.length data.length) :
    ∃ s', recvBody body.length data s = .ok (some body, s') ∧ s'.input = next := by
  obtain ⟨hle, hsize, hint⟩ := h
  obtain ⟨rest, rfl, hin⟩ := HttpSession.exists_of_append hsplit rfl hle
  have hpos : 0 < (data ++ rest).length := List.length_pos_iff.mpr hne
  have hlen : (data ++ rest).length = data.length + rest.length := List.length_append
  have hcopied : copied (data ++ rest).length data = data := by
    rw [copied, if_pos hle, List.take_length]
  have hleft : remaining (data ++ rest).length data.length = rest.length := by
    rw [HttpSession.remaining_of_le hle (by omega), hlen, Nat.add_sub_cancel_left]
  rw [recvBody, if_neg (by omega), if_neg (by omega), hleft, hcopied]
  by_cases hnone : rest.length = 0
  · have hnil := List.length_eq_zero_iff.mp hnone
    subst hnil
    refine ⟨s, ?_, hin⟩
    rw [if_pos hnone, HttpSession.overwrite_all (by simp), List.append_nil]
  · obtain ⟨s', hread, hrec⟩ := Stream.readFixSize_reliable hs (by omega) hin
    have hrt : 0 < toInt (rest.length : Int) := by
      rw [hlen, Nat.add_sub_cancel_left] at hint
      rcases hint with heq | hint
      · omega
      · exact hint
    refine ⟨s', ?_, ?_⟩
    · rw [if_neg hnone, hread]
      simp only
      rw [if_neg (by omega), HttpSession.overwrite_twice (by simp)]
    · exact List.append_cancel_left (hrec.input_eq.symm.trans hin)

/-- Too many bytes, or a length that is no positive `int`. -/
theorem recvBody_not_fits (hs : s.Reliable) (hsplit : body ++ next = data ++ s.input)
    (hne : body ≠ []) (hdata : data.length < 2 ^ 31) (h : ¬BodyFits body.length data.length)
    (b : List UInt8) (s' : Stream) : recvBody body.length data s ≠ .ok (some b, s') := by
  have hpos : 0 < body.length := List.length_pos_iff.mpr hne
  rw [recvBody, if_neg (by omega)]
  by_cases hsize : 2 ^ 63 ≤ body.length
  · rw [if_pos hsize]
    intro heq
    cases heq
  · rw [if_neg hsize]
    by_cases hle : data.length ≤ body.length
    · obtain ⟨rest, rfl, hin⟩ := HttpSession.exists_of_append hsplit rfl hle
      have hlen : (data ++ rest).length = data.length + rest.length := List.length_append
      have hleft : remaining (data ++ rest).length data.length = rest.length := by
        rw [HttpSession.remaining_of_le hle (by omega), hlen, Nat.add_sub_cancel_left]
      have hint : ¬((data ++ rest).length = data.length ∨ 0 < toInt (rest.length : Int)) := by
        intro hint
        refine h ⟨hle, by omega, ?_⟩
        rw [hlen] at hint
        rw [hlen, Nat.add_sub_cancel_left]
        exact hint
      obtain ⟨hsome, hrt⟩ := not_or.mp hint
      obtain ⟨s₁, hread, _⟩ := Stream.readFixSize_reliable hs (by omega) hin
      rw [hleft, if_neg (by omega), hread]
      simp only
      rw [if_pos (by omega)]
      intro heq
      cases heq
    · have hrt := Stream.toInt_wrapped (by omega : 0 < data.length - body.length) (by omega)
      rw [remaining_of_gt (by omega) (by omega), if_neg (by omega),
        Stream.readFixSize_nothing s (by omega)]
      simp only
      rw [if_pos hrt]
      intro heq
      cases heq

end Body

/-! ## Responses -/

section Response

variable {lexicalCast : List UInt8 → Option Nat} {gunzip inflate : List UInt8 → List UInt8}
  {bufferSize error : Nat} {header extra body next : List UInt8} {final : HttpResponseParser}
  {s s₁ : Stream} {len : Int}

/-- The response comes with its body, and what follows the body is still in the stream. -/
def Frames (gunzip inflate : List UInt8 → List UInt8) (rsp : HttpResponse) (body next : List UInt8)
    (result : Except ResponseFault (Option HttpResponse × Stream)) : Prop :=
  ∃ s', result = .ok (some (withBody gunzip inflate rsp body), s') ∧ s'.input = next

/-- Behind a head without chunks comes the body. -/
theorem recvResponse_of_whole {rsp : HttpResponse} {s' : Stream}
    (hhead : recvHeader bufferSize (s.input.length + 1) (.init error) s [] =
      .ok (some (final, extra), s₁)) (hchunked : final.chunked = false)
    (hannounced : final.getContentLength lexicalCast = body.length) :
    recvResponse lexicalCast gunzip inflate bufferSize error s = .ok (some rsp, s') ↔
      ∃ b, recvBody body.length extra s₁ = .ok (some b, s') ∧
        rsp = withBody gunzip inflate final.data b := by
  rw [recvResponse, hhead]
  simp only [hchunked, hannounced, Bool.false_eq_true, if_false]
  cases recvBody body.length extra s₁ with
  | error e => simp
  | ok result =>
    obtain ⟨_ | b, s₂⟩ := result
    · simp
    · simp [and_comm, eq_comm]

/-- The end of the head comes in the first read. -/
theorem recvResponse_frames_iff (h : Head error header final) (hchunked : final.chunked = false)
    (hcs : final.cs = firstFinal ∨ extra ≠ [])
    (hannounced : final.getContentLength lexicalCast = body.length) (hbody : body ≠ [])
    (hs : s.Reliable) (hin : s.input = header ++ (body ++ next))
    (hread : s.read bufferSize = (len, header ++ extra, s₁)) :
    Frames gunzip inflate final.data body next
        (recvResponse lexicalCast gunzip inflate bufferSize error s) ↔
      error = 0 ∧ final.cs = firstFinal ∧ (extra.length : Int) ≠ toInt bufferSize ∧
        BodyFits body.length extra.length := by
  obtain ⟨hlen, hrec, hmax, _⟩ := Stream.received_of_read hs hread
  have hs₁ := hrec.reliable hs
  have hsplit : body ++ next = extra ++ s₁.input := by
    have hall := hin.symm.trans hrec.input_eq
    rw [List.append_assoc, List.append_cancel_left_eq] at hall
    exact hall
  have hpos : 0 < header.length := List.length_pos_iff.mpr h.ne_nil
  rw [List.length_append] at hlen hmax
  have hloop := h.recvHeader_whole hread (by omega) s.input.length
  by_cases hstop : error ≠ 0 ∨ (extra.length : Int) = toInt bufferSize
  · rw [if_pos hstop] at hloop
    refine iff_of_false ?_ ?_
    · rintro ⟨s', hresult, _⟩
      exact recvResponse_of_fails (hloop ▸ fails_none s₁) _ s' hresult
    · rintro ⟨herror, _, hfull, _⟩
      exact hstop.elim (fun hne => hne herror) hfull
  · rw [if_neg hstop] at hloop
    obtain ⟨herror, hfull⟩ := not_or.mp hstop
    by_cases hfinal : final.cs = firstFinal
    · rw [if_pos hfinal] at hloop
      by_cases hfits : BodyFits body.length extra.length
      · obtain ⟨s', hok, hnext⟩ := recvBody_fits hs₁ hsplit hbody hfits
        refine iff_of_true ⟨s', ?_, hnext⟩ ⟨not_not.mp herror, hfinal, hfull, hfits⟩
        exact (recvResponse_of_whole hloop hchunked hannounced).mpr ⟨body, hok, rfl⟩
      · refine iff_of_false ?_ (fun hall => hfits hall.2.2.2)
        rintro ⟨s', hresult, _⟩
        obtain ⟨b, hok, -⟩ := (recvResponse_of_whole hloop hchunked hannounced).mp hresult
        exact recvBody_not_fits hs₁ hsplit hbody (by omega) hfits b s' hok
    · rw [if_neg hfinal] at hloop
      refine iff_of_false ?_ (fun hall => hfinal hall.2.1)
      have hextra := hcs.resolve_left hfinal
      rintro ⟨s', hresult, _⟩
      exact recvResponse_of_fails (hloop ▸ recvHeader_unfinished hextra final) _ s' hresult

end Response

end HttpConnection

/-! ## Requests -/

namespace HttpSession

open HttpRequestParser (init)

section Request

variable {lexicalCast : List UInt8 → Option Nat} {uriRelaxed : Bool} {queryStart bufferSize : Nat}
  {header extra body next : List UInt8} {final : HttpRequestParser} {s s₁ : Stream} {len : Int}

/-- A header that the machine accepts and of which the parser makes `final`; it has no error. -/
structure Head (uriRelaxed : Bool) (queryStart : Nat) (header : List UInt8)
    (final : HttpRequestParser) : Prop where
  accepts : (HttpParser.machine uriRelaxed).accepts HttpParser.start header = true
  execute_eq : (init uriRelaxed queryStart).execute header = .ok (final, header.length)
  error_eq : final.error = 0

/-- The request comes with its body, and what follows the body is still in the stream. -/
def Frames (req : HttpRequest) (body next : List UInt8)
    (result : Except HttpFault (Option HttpRequest × Stream)) : Prop :=
  ∃ s', result = .ok (some (withBody req body), s') ∧ s'.input = next

/-- The first read brings the header and `extra`. -/
theorem Head.recvHeader_whole (h : Head uriRelaxed queryStart header final)
    (hsize : header.length < 2 ^ 63) (hread : s.read bufferSize = (len, header ++ extra, s₁))
    (hlen : 0 < len) (rounds : Nat) :
    ∃ parser, parser.data = final.data ∧
      recvHeader bufferSize (rounds + 1) (init uriRelaxed queryStart) s [] =
        if (extra.length : Int) = toInt bufferSize then .ok (none, s₁.close)
        else .ok (some (parser, extra), s₁) := by
  have F := HttpRequestParser.follows_init header uriRelaxed queryStart
  obtain ⟨cs, whole, first, hwhole, hfirst, _, _, hsame₁⟩ := F.execute_last
    (List.nil_append _).symm hsize h.accepts
    (fun r _ => HttpRequestParser.agree_init uriRelaxed queryStart r) []
  obtain ⟨cs', whole', parser, hwhole', hexec, hne, hdone, hsame⟩ := F.execute_last
    (List.nil_append _).symm hsize h.accepts
    (fun r _ => HttpRequestParser.agree_init uriRelaxed queryStart r) extra
  rw [List.append_nil, h.execute_eq] at hfirst
  cases hfirst
  rw [hwhole] at hwhole'
  cases hwhole'
  have hfine : parser.hasError = false := by
    simp [HttpRequestParser.hasError, ← hsame.1, hsame₁.1, h.error_eq, hne]
  have hfinished : parser.isFinished = 1 := by
    rw [HttpRequestParser.isFinished, if_neg hne, if_pos hdone]
  refine ⟨parser, hsame.2.symm.trans hsame₁.2, ?_⟩
  rw [recvHeader, List.length_nil, Nat.sub_zero, hread]
  simp only [List.nil_append, hexec, hfine, hfinished, List.drop_left]
  rw [if_neg (by omega), if_neg (by simp)]
  simp

/-- The body of a request is received as that of a response. -/
theorem recvBody_eq {length : Nat} (hpos : 0 < length) (req : HttpRequest) (data : List UInt8)
    (s : Stream) : recvBody length req data s =
      match HttpConnection.recvBody length data s with
      | .error _ => .error .lengthError
      | .ok (none, s) => .ok (none, s.close)
      | .ok (some body, s) => .ok (some (keepAlive { req with body := body }), s) := by
  have hne : ¬length = 0 := by omega
  rw [recvBody, HttpConnection.recvBody, if_neg hne, if_neg hne]
  by_cases hsize : 2 ^ 63 ≤ length
  · rw [if_pos hsize, if_pos hsize]
  · rw [if_neg hsize, if_neg hsize]
    by_cases hnone : remaining length data.length = 0
    · rw [if_pos hnone, if_pos hnone]
    · rw [if_neg hnone, if_neg hnone]
      obtain ⟨rt, bytes, s₁⟩ := s.readFixSize (remaining length data.length)
      by_cases hrt : rt ≤ 0
      · simp only [if_pos hrt]
      · simp only [if_neg hrt]

/-- The end of the header comes in the first read. -/
theorem Head.recvRequest_whole (h : Head uriRelaxed queryStart header final) (hs : s.Reliable)
    (hread : s.read bufferSize = (len, header ++ extra, s₁)) :
    recvRequest lexicalCast bufferSize uriRelaxed queryStart s =
      if (extra.length : Int) = toInt bufferSize then .ok (none, s₁.close)
      else recvBody (final.getContentLength lexicalCast) final.data extra s₁ := by
  obtain ⟨hlen, _, hmax, _⟩ := Stream.received_of_read hs hread
  have hne : header ≠ [] := by
    rintro rfl
    have haccepts := h.accepts
    cases haccepts
  have hpos : 0 < header.length := List.length_pos_iff.mpr hne
  rw [List.length_append] at hlen hmax
  obtain ⟨parser, hdata, hloop⟩ :=
    h.recvHeader_whole (by omega) hread (by omega) s.input.length
  have hlength : parser.getContentLength lexicalCast = final.getContentLength lexicalCast := by
    rw [HttpRequestParser.getContentLength, HttpRequestParser.getContentLength, hdata]
  rw [recvRequest, hloop]
  by_cases hfull : (extra.length : Int) = toInt bufferSize
  · rw [if_pos hfull, if_pos hfull]
  · rw [if_neg hfull, if_neg hfull]
    simp only [hlength, hdata]

/-- What the header announces is there behind it, and what else the first read brought is the front
of it. -/
theorem Head.recvRequest_body (h : Head uriRelaxed queryStart header final)
    (hannounced : final.getContentLength lexicalCast = body.length)
    (hs : s.Reliable) (hin : s.input = header ++ (body ++ next))
    (hread : s.read bufferSize = (len, header ++ extra, s₁)) :
    ((extra.length : Int) ≠ toInt bufferSize ∧ (body = [] ∨ BodyFits body.length extra.length) ∧
      ∃ s', recvRequest lexicalCast bufferSize uriRelaxed queryStart s =
        .ok (some (withBody final.data body), s') ∧ (body ≠ [] → s'.input = next)) ∨
    ¬((extra.length : Int) ≠ toInt bufferSize ∧ (body = [] ∨ BodyFits body.length extra.length)) ∧
      ∀ req s', recvRequest lexicalCast bufferSize uriRelaxed queryStart s ≠
        .ok (some req, s') := by
  obtain ⟨_, hrec, hmax, _⟩ := Stream.received_of_read hs hread
  have hs₁ := hrec.reliable hs
  have hsplit : body ++ next = extra ++ s₁.input := by
    have hall := hin.symm.trans hrec.input_eq
    rw [List.append_assoc, List.append_cancel_left_eq] at hall
    exact hall
  rw [List.length_append] at hmax
  rw [h.recvRequest_whole hs hread, hannounced]
  by_cases hfull : (extra.length : Int) = toInt bufferSize
  · rw [if_pos hfull]
    refine .inr ⟨fun hall => hall.1 hfull, ?_⟩
    intro req s' hresult
    cases hresult
  · rw [if_neg hfull]
    by_cases hbody : body = []
    · refine .inl ⟨hfull, .inl hbody, s₁, ?_, fun hne => absurd hbody hne⟩
      rw [recvBody, hbody, List.length_nil, if_pos rfl, withBody, if_pos rfl]
    · rw [recvBody_eq (List.length_pos_iff.mpr hbody)]
      by_cases hfits : BodyFits body.length extra.length
      · obtain ⟨s', hok, hnext⟩ := HttpConnection.recvBody_fits hs₁ hsplit hbody hfits
        refine .inl ⟨hfull, .inr hfits, s', ?_, fun _ => hnext⟩
        rw [hok, withBody, if_neg hbody]
      · refine .inr ⟨fun hall => hall.2.elim hbody hfits, ?_⟩
        intro req s' hresult
        split at hresult
        · cases hresult
        · cases hresult
        · rename_i b s₂ hok
          exact HttpConnection.recvBody_not_fits hs₁ hsplit hbody (by omega) hfits b s₂ hok

theorem recvRequest_frames_iff (h : Head uriRelaxed queryStart header final)
    (hannounced : final.getContentLength lexicalCast = body.length) (hbody : body ≠ [])
    (hs : s.Reliable) (hin : s.input = header ++ (body ++ next))
    (hread : s.read bufferSize = (len, header ++ extra, s₁)) :
    Frames final.data body next (recvRequest lexicalCast bufferSize uriRelaxed queryStart s) ↔
      (extra.length : Int) ≠ toInt bufferSize ∧ BodyFits body.length extra.length := by
  rcases h.recvRequest_body hannounced hs hin hread with
    ⟨hfull, hfits, s', hresult, hnext⟩ | ⟨hnot, hnone⟩
  · exact iff_of_true ⟨s', hresult, hnext hbody⟩ ⟨hfull, hfits.resolve_left hbody⟩
  · refine iff_of_false ?_ (fun hall => hnot ⟨hall.1, .inr hall.2⟩)
    rintro ⟨s', hresult, _⟩
    exact hnone _ s' hresult

end Request

end HttpSession

/-- Messages with a body of announced length, the header of which ends in the first read with
`extra` behind it: exactly when `extra` fits are they received and is what follows them left. -/
theorem frames_iff_fits {bufferSize : Nat} {header extra body next : List UInt8} {s s₁ : Stream}
    {len : Int} (hbody : body ≠ []) (hs : s.Reliable) (hin : s.input = header ++ (body ++ next))
    (hread : s.read bufferSize = (len, header ++ extra, s₁)) :
    (∀ (lexicalCast : List UInt8 → Option Nat) (uriRelaxed : Bool) (queryStart : Nat)
      (final : HttpRequestParser), HttpSession.Head uriRelaxed queryStart header final →
      final.getContentLength lexicalCast = body.length →
      (HttpSession.Frames final.data body next
        (HttpSession.recvRequest lexicalCast bufferSize uriRelaxed queryStart s) ↔
      (extra.length : Int) ≠ toInt bufferSize ∧ BodyFits body.length extra.length)) ∧
    ∀ (lexicalCast : List UInt8 → Option Nat) (gunzip inflate : List UInt8 → List UInt8)
      (error : Nat) (final : HttpResponseParser), HttpConnection.Head error header final →
      final.chunked = false → (final.cs = firstFinal ∨ extra ≠ []) →
      final.getContentLength lexicalCast = body.length →
      (HttpConnection.Frames gunzip inflate final.data body next
        (HttpConnection.recvResponse lexicalCast gunzip inflate bufferSize error s) ↔
      error = 0 ∧ final.cs = firstFinal ∧ (extra.length : Int) ≠ toInt bufferSize ∧
        BodyFits body.length extra.length) := by
  constructor
  · intro lexicalCast uriRelaxed queryStart final h hannounced
    exact HttpSession.recvRequest_frames_iff h hannounced hbody hs hin hread
  · intro lexicalCast gunzip inflate error final h hchunked hcs hannounced
    exact HttpConnection.recvResponse_frames_iff h hchunked hcs hannounced hbody hs hin hread

/-! ## A body of one byte -/

/-- `boost::lexical_cast` of a single digit. -/
def castDigit : List UInt8 → Option Nat
  | [d] => if 48 ≤ d ∧ d ≤ 57 then some (d.toNat - 48) else none
  | _ => none

def postHeader : List UInt8 := chars "POST / HTTP/1.1\r\nContent-Length: 1\r\n\r\n"

def postParser : HttpRequestParser :=
  { HttpRequestParser.init false 0 with
    cs := 348
    mark := 33
    fieldStart := 36
    fieldLen := 14
    data := { HttpRequest.init with
      method := .post
      headers := [(chars "Content-Length", chars "1")] } }

theorem head_post : HttpSession.Head false 0 postHeader postParser where
  accepts := by rfl
  execute_eq := by rfl
  error_eq := rfl

def okHeader : List UInt8 := chars "HTTP/1.1 200 OK\r\nContent-Length: 1\r\n\r\n"

def okParser : HttpResponseParser :=
  { HttpResponseParser.init 0 with
    cs := firstFinal
    mark := 33
    fieldStart := 17
    fieldLen := 14
    contentLen := 1
    data := { HttpResponse.init with
      reason := chars "OK"
      headers := [(chars "Content-Length", chars "1")] } }

theorem head_ok : HttpConnection.Head 0 okHeader okParser where
  first := by rfl
  accepts := by rfl
  execute_eq := by rfl
  error_eq := rfl

/-- A connection on which everything that waits comes in one read. -/
def atOnce (input : List UInt8) : Stream where
  input := input
  output := []
  readPlan _ := Int32.maxValue
  writePlan _ := Int32.maxValue
  reads := 0
  writes := 0
  closed := false

theorem atOnce_reliable (input : List UInt8) : (atOnce input).Reliable where
  open_ := rfl
  reads_ok _ := by
    simp only [atOnce]
    decide
  writes_ok _ := by
    simp only [atOnce]
    decide

/-- One byte of the next message came in the same read. -/
theorem not_frames_pipelined :
    HttpSession.Head false 0 postHeader postParser ∧ postParser.getContentLength castDigit = 1 ∧
    HttpConnection.Head 0 okHeader okParser ∧ okParser.getContentLength castDigit = 1 ∧
    ¬HttpSession.Frames postParser.data (chars "a") (chars "G")
      (HttpSession.recvRequest castDigit 4096 false 0 (atOnce (postHeader ++ chars "aG"))) ∧
    ¬HttpConnection.Frames id id okParser.data (chars "a") (chars "H")
      (HttpConnection.recvResponse castDigit id id 4096 0 (atOnce (okHeader ++ chars "aH"))) := by
  have hrequest : (HttpSession.recvRequest castDigit 4096 false 0
      (atOnce (postHeader ++ chars "aG"))).toOption.map Prod.fst = some none := by rfl
  have hresponse : (HttpConnection.recvResponse castDigit id id 4096 0
      (atOnce (okHeader ++ chars "aH"))).toOption.map Prod.fst = some none := by rfl
  refine ⟨head_post, by rfl, head_ok, by rfl, ?_, ?_⟩
  · rintro ⟨s', hresult, _⟩
    rw [hresult] at hrequest
    cases hrequest
  · rintro ⟨s', hresult, _⟩
    rw [hresult] at hresponse
    cases hresponse

/-- The body came in the same read, and nothing else. -/
theorem frames_iff_fits_at_once :
    HttpSession.Frames postParser.data (chars "a") []
      (HttpSession.recvRequest castDigit 4096 false 0 (atOnce (postHeader ++ (chars "a" ++ [])))) ∧
    HttpConnection.Frames id id okParser.data (chars "a") []
      (HttpConnection.recvResponse castDigit id id 4096 0
        (atOnce (okHeader ++ (chars "a" ++ [])))) := by
  have hbody : chars "a" ≠ [] := by decide
  have hfits : ((chars "a").length : Int) ≠ toInt (4096 : Nat) ∧
    BodyFits (chars "a").length (chars "a").length := by decide
  constructor
  · have hframes := (frames_iff_fits hbody (atOnce_reliable _) rfl
      (by rfl : (atOnce (postHeader ++ (chars "a" ++ []))).read 4096 =
        (39, postHeader ++ chars "a", _))).1 castDigit false 0 postParser head_post
      (by rfl)
    exact hframes.mpr hfits
  · have hframes := (frames_iff_fits hbody (atOnce_reliable _) rfl
      (by rfl : (atOnce (okHeader ++ (chars "a" ++ []))).read 4096 =
        (39, okHeader ++ chars "a", _))).2 castDigit id id 0 okParser head_ok rfl (.inl rfl)
      (by rfl)
    exact hframes.mpr ⟨rfl, rfl, hfits⟩

end CxkFramework
