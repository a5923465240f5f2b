import CxkFramework.HttpRequestRoundTrip
import CxkFramework.HttpResponseText
import Mathlib.Data.List.DropRight

/-!
# The content length of a printed message

The lines of the head that `dump` prints, and the lengths they announce. Both printers leave out a
`connection` of the map before they print their own, but not a `content-length`.
-/

namespace CxkFramework

open HttpParser

namespace HttpHead

/-- The lines of a text of which `line` has been read. -/
def lines : List UInt8 → List UInt8 → List (List UInt8)
  | _, [] => []
  | line, b :: rest =>
    if b = 10 ∧ line.getLast? = some 13 then line.dropLast :: lines [] rest
    else lines (line ++ [b]) rest

def isBlank (b : UInt8) : Bool := b == 32 || b == 9

def trimmed (value : List UInt8) : List UInt8 := (value.dropWhile isBlank).rdropWhile isBlank

/-- The value of a line that is called `content-length`. -/
def lengthOf (line : List UInt8) : Option (List UInt8) :=
  match line.dropWhile (· != 58) with
  | [] => none
  | _ :: value =>
    if caseFolded (line.takeWhile (· != 58)) = caseFolded (chars "content-length") then
      some (trimmed value)
    else none

/-- The lengths that a head announces. -/
def lengths (head : List UInt8) : List (List UInt8) := (lines [] head).filterMap lengthOf

/-- The head has one content length at most, one when there is a body, and it is the right one. -/
structure OneLength (head body : List UInt8) : Prop where
  at_most : (lengths head).length ≤ 1
  given : body ≠ [] → (lengths head).length = 1
  truthful : ∀ value ∈ lengths head, value = decimal body.length

/-- What is printed before the body. -/
def before (text body : List UInt8) : List UInt8 := text.take (text.length - body.length)

theorem before_append (head body : List UInt8) : before (head ++ body) body = head := by
  rw [before, List.length_append, Nat.add_sub_cancel, List.take_left]

/-! ## Lines -/

theorem lines_crlf (line rest : List UInt8) : lines line (crlf ++ rest) = line :: lines [] rest := by
  simp [crlf, lines]

theorem lines_plain {text : List UInt8} (h : 10 ∉ text) (line rest : List UInt8) :
    lines line (text ++ rest) = lines (line ++ text) rest := by
  induction text generalizing line with
  | nil => simp
  | cons b text ih =>
    rw [List.mem_cons, not_or] at h
    have hb : ¬(b = 10 ∧ line.getLast? = some 13) := fun hboth => h.1 hboth.1.symm
    rw [List.cons_append, lines, if_neg hb, ih h.2, List.append_assoc, List.singleton_append]

/-- Behind a line end the lines start anew. -/
theorem lines_append (line text rest : List UInt8) :
    lines line (text ++ crlf ++ rest) = lines line (text ++ crlf) ++ lines [] rest := by
  induction text generalizing line with
  | nil =>
    have hend := lines_crlf line []
    rw [List.append_nil] at hend
    rw [List.nil_append, lines_crlf, hend]
    rfl
  | cons b text ih =>
    simp only [List.cons_append, lines]
    split
    · rw [ih, List.cons_append]
    · rw [ih]

/-- A text that stops with a line end, if it is not empty. -/
def Ended (text : List UInt8) : Prop := text = [] ∨ ∃ front, text = front ++ crlf

theorem lengths_append {text : List UInt8} (h : Ended text) (rest : List UInt8) :
    lengths (text ++ rest) = lengths text ++ lengths rest := by
  cases h with
  | inl hnil =>
    rw [hnil]
    rfl
  | inr hline =>
    obtain ⟨front, rfl⟩ := hline
    rw [lengths, lines_append, List.filterMap_append]
    rfl

theorem Ended.append {text rest : List UInt8} (h : Ended text) (hrest : Ended rest) :
    Ended (text ++ rest) := by
  cases hrest with
  | inl hnil =>
    rw [hnil, List.append_nil]
    exact h
  | inr hline =>
    obtain ⟨front, rfl⟩ := hline
    exact .inr ⟨text ++ front, (List.append_assoc _ _ _).symm⟩

theorem lengths_line {line : List UInt8} (h : 10 ∉ line) :
    lengths (line ++ crlf) = (lengthOf line).toList := by
  have hend := lines_crlf line []
  rw [List.append_nil] at hend
  rw [lengths, lines_plain h, List.nil_append, hend]
  cases hlength : lengthOf line <;> simp [lines, hlength]

theorem lengths_crlf : lengths crlf = [] := by
  decide

/-! ## Fields -/

theorem field_eq (name value : List UInt8) :
    HttpRequest.field name value = name ++ 58 :: 32 :: value ++ crlf := by
  simp [HttpRequest.field]

theorem lengthOf_field {name : List UInt8} (h : 58 ∉ name) (value : List UInt8) :
    lengthOf (name ++ 58 :: 32 :: value) =
      if caseFolded name = caseFolded (chars "content-length") then some (trimmed value)
      else none := by
  have hname : ∀ b ∈ name, (b != 58) = true := by
    intro b hb
    rw [bne_iff_ne]
    rintro rfl
    exact h hb
  have hdrop : (name ++ 58 :: 32 :: value).dropWhile (· != 58) = 58 :: 32 :: value := by
    rw [List.dropWhile_append_of_pos hname]
    rfl
  have htake : (name ++ 58 :: 32 :: value).takeWhile (· != 58) = name := by
    rw [List.takeWhile_append_of_pos hname]
    simp
  have hblank : trimmed (32 :: value) = trimmed value := rfl
  rw [lengthOf, hdrop]
  dsimp only
  rw [htake, hblank]

theorem ended_field (name value : List UInt8) : Ended (HttpRequest.field name value) :=
  .inr ⟨_, field_eq name value⟩

theorem ended_fields (websocket : Bool) (headers : List (List UInt8 × List UInt8)) :
    Ended (HttpRequest.fields websocket headers) := by
  rw [HttpRequest.fields]
  induction headers.filter fun h =>
      websocket || caseFolded h.1 != caseFolded (chars "connection") with
  | nil => exact .inl rfl
  | cons h headers ih => exact (ended_field h.1 h.2).append ih

/-- A blank before any colon. -/
theorem lengthOf_blank {front : List UInt8} (h : ∀ b ∈ front, b ≠ 58 ∧ b ≠ 0) (rest : List UInt8) :
    lengthOf (front ++ 32 :: rest) = none := by
  have htake : (front ++ 32 :: rest).takeWhile (· != 58) =
      front ++ 32 :: rest.takeWhile (· != 58) := by
    rw [List.takeWhile_append_of_pos fun b hb => bne_iff_ne.mpr (h b hb).1]
    rfl
  have hmem : (32 : UInt8) ∈ caseFolded (front ++ 32 :: rest.takeWhile (· != 58)) := by
    rw [caseFolded, List.takeWhile_append_of_pos fun b hb => bne_iff_ne.mpr (h b hb).2]
    simp
  have hno : (32 : UInt8) ∉ caseFolded (chars "content-length") := by
    decide
  rw [lengthOf]
  split
  · rfl
  · rw [htake, if_neg]
    intro heq
    rw [heq] at hmem
    exact hno hmem

/-- A header that makes one line, of this name and value. -/
def Plain (h : List UInt8 × List UInt8) : Prop := 10 ∉ h.1 ∧ 58 ∉ h.1 ∧ 10 ∉ h.2

theorem lengths_field {name value : List UInt8} (h : Plain (name, value)) :
    lengths (HttpRequest.field name value) =
      if caseFolded name = caseFolded (chars "content-length") then [trimmed value] else [] := by
  obtain ⟨hname, hcolon, hvalue⟩ := h
  have hline : 10 ∉ name ++ 58 :: 32 :: value := by
    simp [hname, hvalue]
  rw [field_eq, lengths_line hline, lengthOf_field hcolon]
  split <;> rfl

theorem mem_decimal {n : Nat} {b : UInt8} (h : b ∈ decimal n) : b ≠ 58 ∧ b ≠ 0 ∧ b ≠ 10 :=
  of_mem_decimal (P := fun b => b ≠ 58 ∧ b ≠ 0 ∧ b ≠ 10) (by decide) h

theorem trimmed_decimal (n : Nat) : trimmed (decimal n) = decimal n := by
  have hdigit : ∀ b ∈ decimal n, isBlank b = false := by
    intro b hb
    exact of_mem_decimal (P := fun b => isBlank b = false) (by decide) hb
  have hfront : (decimal n).dropWhile isBlank = decimal n := by
    rw [List.dropWhile_eq_self_iff]
    intro hpos
    rw [hdigit _ (List.getElem_mem hpos)]
    exact Bool.false_ne_true
  have hback : (decimal n).rdropWhile isBlank = decimal n := by
    rw [List.rdropWhile_eq_self_iff]
    intro hne
    rw [hdigit _ (List.getLast_mem hne)]
    exact Bool.false_ne_true
  rw [trimmed, hfront, hback]

theorem lengths_length (n : Nat) :
    lengths (HttpRequest.field (chars "content-length") (decimal n)) = [decimal n] := by
  have hplain : Plain (chars "content-length", decimal n) := by
    have hname : 10 ∉ chars "content-length" ∧ 58 ∉ chars "content-length" := by
      decide
    exact ⟨hname.1, hname.2, fun hmem => (mem_decimal hmem).2.2 rfl⟩
  rw [lengths_field hplain, if_pos rfl, trimmed_decimal]

theorem lengths_connection (close : Bool) :
    lengths (HttpRequest.field (chars "connection")
      (if close then chars "close" else chars "keep-alive")) = [] := by
  cases close <;> decide

/-- The values of a map under `content-length`. -/
def contentLengths (headers : List (List UInt8 × List UInt8)) : List (List UInt8) :=
  (headers.filter fun h => caseFolded h.1 == caseFolded (chars "content-length")).map
    fun h => trimmed h.2

theorem lengths_fields {headers : List (List UInt8 × List UInt8)} (h : ∀ h ∈ headers, Plain h) :
    lengths (HttpRequest.fields false headers) = contentLengths headers := by
  induction headers with
  | nil => rfl
  | cons entry headers ih =>
    have hentry := h entry List.mem_cons_self
    have hrest := ih fun e he => h e (List.mem_cons_of_mem entry he)
    by_cases hconnection : caseFolded entry.1 = caseFolded (chars "connection")
    · have hother : caseFolded entry.1 ≠ caseFolded (chars "content-length") := fun hlength =>
        HttpRequest.caseFolded_ne (hlength.symm.trans hconnection)
      have hskip : HttpRequest.fields false (entry :: headers) =
          HttpRequest.fields false headers := by
        simp [HttpRequest.fields, hconnection]
      rw [hskip, hrest]
      simp [contentLengths, hother]
    · have hprint : HttpRequest.fields false (entry :: headers) =
          HttpRequest.field entry.1 entry.2 ++ HttpRequest.fields false headers := by
        simp [HttpRequest.fields, hconnection]
      rw [hprint, lengths_append (ended_field _ _), lengths_field hentry, hrest]
      by_cases hlength : caseFolded entry.1 = caseFolded (chars "content-length")
      · simp [contentLengths, hlength]
      · simp [contentLengths, hlength]

/-! ## Heads -/

/-- The length that is printed for a body. -/
def automatic (body : List UInt8) : List UInt8 :=
  if body = [] then [] else HttpRequest.field (chars "content-length") (decimal body.length)

theorem lengths_automatic (body : List UInt8) :
    lengths (automatic body ++ crlf) = if body = [] then [] else [decimal body.length] := by
  rw [automatic]
  split
  · exact lengths_crlf
  · rw [lengths_append (ended_field _ _), lengths_length, lengths_crlf, List.append_nil]

/-- A head that announces `own` lengths and the automatic one. -/
theorem oneLength_iff_own {head body : List UInt8} {own : List (List UInt8)}
    (h : lengths head = own ++ if body = [] then [] else [decimal body.length]) :
    OneLength head body ↔ own = [] ∨ body = [] ∧ own = [decimal 0] := by
  by_cases hbody : body = []
  · rw [if_pos hbody, List.append_nil] at h
    constructor
    · intro hone
      have hmost := hone.at_most
      have htruthful := hone.truthful
      rw [h] at hmost htruthful
      match own with
      | [] => exact .inl rfl
      | [value] =>
        have hvalue := htruthful value List.mem_cons_self
        rw [hbody, List.length_nil] at hvalue
        exact .inr ⟨hbody, by rw [hvalue]⟩
      | _ :: _ :: _ => simp at hmost
    · intro hown
      have hzero : decimal body.length = decimal 0 := by rw [hbody, List.length_nil]
      cases hown with
      | inl hnone => exact ⟨by simp [h, hnone], fun hne => absurd hbody hne, by simp [h, hnone]⟩
      | inr hboth =>
        exact ⟨by simp [h, hboth.2], fun hne => absurd hbody hne, by simp [h, hboth.2, hzero]⟩
  · rw [if_neg hbody] at h
    constructor
    · intro hone
      have hmost := hone.at_most
      rw [h, List.length_append, List.length_singleton] at hmost
      exact .inl (List.length_eq_zero_iff.mp (by omega))
    · rintro (hown | hown)
      · rw [hown, List.nil_append] at h
        exact ⟨by simp [h], fun _ => by simp [h], by simp [h]⟩
      · exact absurd hown.1 hbody

end HttpHead

namespace HttpRequest

open HttpHead

def firstLine (req : HttpRequest) : List UInt8 :=
  req.method.toChars ++ 32 :: (req.path
    ++ ((if req.query = [] then [] else [63]) ++ req.query)
    ++ ((if req.fragment = [] then [] else [35]) ++ req.fragment))
    ++ (chars " HTTP/" ++ decimal (req.version >>> 4).toNat ++ chars "."
      ++ decimal (req.version &&& 0x0F).toNat)

/-- The text that comes from the request: the first line and the fields of the map. -/
def ownText (req : HttpRequest) : List UInt8 := req.firstLine ++ crlf ++ fields false req.headers

/-- Without line ends in its strings and colons in its names, a request announces what is in its
map. -/
theorem lengths_ownText {req : HttpRequest}
    (hline : 10 ∉ req.path ∧ 10 ∉ req.query ∧ 10 ∉ req.fragment)
    (hplain : ∀ h ∈ req.headers, Plain h) :
    lengths req.ownText = contentLengths req.headers := by
  obtain ⟨hpath, hquery, hfragment⟩ := hline
  have hmethod (b : UInt8) (hb : b ∈ req.method.toChars) : b ≠ 58 ∧ b ≠ 0 ∧ b ≠ 10 := by
    have hrange := HttpMethod.toChars_range hb
    refine ⟨?_, ?_, ?_⟩ <;> (rintro rfl; exact absurd hrange (by decide))
  have hname : 10 ∉ req.method.toChars := fun hmem => (hmethod 10 hmem).2.2 rfl
  have hmarks : (10 : UInt8) ∉ (if req.query = [] then [] else [63]) ∧
      (10 : UInt8) ∉ (if req.fragment = [] then [] else [35]) := by
    constructor <;> split <;> decide
  have htexts : 10 ∉ chars " HTTP/" ∧ 10 ∉ chars "." := by
    decide
  have hdigits (n : Nat) : 10 ∉ decimal n := fun hmem => (mem_decimal hmem).2.2 rfl
  have hfirst : 10 ∉ req.firstLine := by
    simp only [firstLine, List.mem_append, List.mem_cons, not_or]
    exact ⟨⟨hname, by decide, ⟨hpath, hmarks.1, hquery⟩, hmarks.2, hfragment⟩,
      ⟨⟨htexts.1, hdigits _⟩, htexts.2⟩, hdigits _⟩
  have hnone : lengthOf req.firstLine = none := by
    rw [firstLine, List.append_assoc]
    exact lengthOf_blank (fun b hb => ⟨(hmethod b hb).1, (hmethod b hb).2.1⟩) _
  rw [ownText, lengths_append (.inr ⟨_, rfl⟩), lengths_line hfirst, hnone, lengths_fields hplain]
  rfl

theorem dump_eq (req : HttpRequest) :
    req.dump false =
      req.firstLine ++ crlf
        ++ (field (chars "connection") (if req.close then chars "close" else chars "keep-alive")
          ++ (fields false req.headers ++ (automatic req.body ++ crlf))) ++ req.body := by
  rw [dump, firstLine, automatic]
  by_cases hbody : req.body = [] <;> simp [hbody]

theorem oneLength_dump_iff (req : HttpRequest) :
    OneLength (before (req.dump false) req.body) req.body ↔
      lengths req.ownText = [] ∨ req.body = [] ∧ lengths req.ownText = [decimal 0] := by
  have hfirst : Ended (req.firstLine ++ crlf) := .inr ⟨_, rfl⟩
  apply oneLength_iff_own
  rw [dump_eq, before_append, lengths_append hfirst, lengths_append (ended_field _ _),
    lengths_connection, List.nil_append, lengths_append (ended_fields _ _), lengths_automatic,
    ownText, lengths_append hfirst, List.append_assoc]

end HttpRequest

namespace HttpResponse

open HttpHead

def firstLine (rsp : HttpResponse) : List UInt8 :=
  chars "HTTP/" ++ decimal (rsp.version >>> 4).toNat ++ chars "."
    ++ decimal (rsp.version &&& 0x0F).toNat ++ 32 :: (decimal (rsp.status % 2 ^ 32).toNat
    ++ 32 :: if rsp.reason = [] then statusToChars rsp.status else rsp.reason)

/-- The text that comes from the response: the first line and the fields of the map. -/
def ownText (rsp : HttpResponse) : List UInt8 :=
  rsp.firstLine ++ crlf ++ HttpRequest.fields false rsp.headers

theorem statusToChars_line (s : Int) : 10 ∉ statusToChars s := by
  have hall : ∀ n ∈ statuses, 10 ∉ chars n.2 := by
    simp only [statuses, List.forall_mem_cons]
    repeat' apply And.intro
    all_goals first
      | (rw [chars_ofList]; decide)
      | exact nofun
  have hunknown : 10 ∉ chars "<unknown>" := by
    decide
  rw [statusToChars]
  cases hfind : statuses.find? fun n => n.1 = s with
  | none => exact hunknown
  | some n => exact hall n (List.mem_of_find?_eq_some hfind)

theorem lengths_ownText {rsp : HttpResponse} (hline : 10 ∉ rsp.reason)
    (hplain : ∀ h ∈ rsp.headers, Plain h) :
    lengths rsp.ownText = contentLengths rsp.headers := by
  have htexts : ∀ b ∈ chars "HTTP/" ++ chars ".", b ≠ 58 ∧ b ≠ 0 ∧ b ≠ 10 := by
    set_option maxRecDepth 2000 in decide
  have hversion : ∀ b ∈ chars "HTTP/" ++ decimal (rsp.version >>> 4).toNat ++ chars "." ++
      decimal (rsp.version &&& 0x0F).toNat, b ≠ 58 ∧ b ≠ 0 ∧ b ≠ 10 := by
    intro b hb
    simp only [List.mem_append] at hb htexts
    obtain ((hb | hb) | hb) | hb := hb
    · exact htexts b (.inl hb)
    · exact mem_decimal hb
    · exact htexts b (.inr hb)
    · exact mem_decimal hb
  have hreason : 10 ∉ if rsp.reason = [] then statusToChars rsp.status else rsp.reason := by
    split
    · exact statusToChars_line rsp.status
    · exact hline
  have hfirst : 10 ∉ rsp.firstLine := by
    rw [firstLine]
    generalize chars "HTTP/" ++ decimal (rsp.version >>> 4).toNat ++ chars "." ++
      decimal (rsp.version &&& 0x0F).toNat = version at hversion ⊢
    rw [List.mem_append, List.mem_cons, List.mem_append, List.mem_cons]
    rintro (hmem | hmem | hmem | hmem | hmem)
    · exact (hversion 10 hmem).2.2 rfl
    · cases hmem
    · exact (mem_decimal hmem).2.2 rfl
    · cases hmem
    · exact hreason hmem
  have hnone : lengthOf rsp.firstLine = none :=
    lengthOf_blank (fun b hb => ⟨(hversion b hb).1, (hversion b hb).2.1⟩) _
  rw [ownText, lengths_append (.inr ⟨_, rfl⟩), lengths_line hfirst, hnone, lengths_fields hplain]
  rfl

theorem dump_eq (rsp : HttpResponse) (close : Bool) :
    rsp.dump close false =
      rsp.firstLine ++ crlf
        ++ (HttpRequest.fields false rsp.headers
          ++ (HttpRequest.field (chars "connection")
              (if close then chars "close" else chars "keep-alive")
            ++ (automatic rsp.body ++ crlf))) ++ rsp.body := by
  rw [dump, firstLine, automatic]
  by_cases hbody : rsp.body = [] <;> simp [hbody]

theorem oneLength_dump_iff (rsp : HttpResponse) (close : Bool) :
    OneLength (before (rsp.dump close false) rsp.body) rsp.body ↔
      lengths rsp.ownText = [] ∨ rsp.body = [] ∧ lengths rsp.ownText = [decimal 0] := by
  have hfirst : Ended (rsp.firstLine ++ crlf) := .inr ⟨_, rfl⟩
  apply oneLength_iff_own
  rw [dump_eq, before_append, lengths_append hfirst, lengths_append (ended_fields _ _),
    lengths_append (ended_field _ _), lengths_connection, List.nil_append, lengths_automatic,
    ownText, lengths_append hfirst, List.append_assoc]

end HttpResponse

namespace HttpHead

/-- A printed message announces the length of its body once, and announces it right, if and only if
its own text announces none, or the body is empty and the text announces zero, once. -/
theorem oneLength_iff (req : HttpRequest) (rsp : HttpResponse) (close : Bool) :
    (OneLength (before (req.dump false) req.body) req.body ↔
        lengths req.ownText = [] ∨ req.body = [] ∧ lengths req.ownText = [decimal 0]) ∧
      (OneLength (before (rsp.dump close false) rsp.body) rsp.body ↔
        lengths rsp.ownText = [] ∨ rsp.body = [] ∧ lengths rsp.ownText = [decimal 0]) :=
  ⟨req.oneLength_dump_iff, rsp.oneLength_dump_iff close⟩

/-- `Content-Length: 5` from another message, and a body of two bytes. -/
theorem copied_length :
    ¬OneLength (before (({ HttpRequest.init with body := chars "hi" }.setHeader
      (chars "Content-Length") (chars "5")).dump false) (chars "hi")) (chars "hi") ∧
    ¬OneLength (before (({ HttpResponse.init with body := chars "hi" }.setHeader
      (chars "Content-Length") (chars "5")).dump false false) (chars "hi")) (chars "hi") := by
  have hrequest : (lengths (before (({ HttpRequest.init with body := chars "hi" }.setHeader
      (chars "Content-Length") (chars "5")).dump false) (chars "hi"))).length = 2 := by
    decide
  have hresponse : (lengths (before (({ HttpResponse.init with body := chars "hi" }.setHeader
      (chars "Content-Length") (chars "5")).dump false false) (chars "hi"))).length = 2 := by
    decide
  constructor
  · intro hone
    have hmost := hone.at_most
    omega
  · intro hone
    have hmost := hone.at_most
    omega

end HttpHead

end CxkFramework
